import Ccctl.Lib.Reach
import Ccctl.Server.SessionLaunch
import Ccctl.Server.Tmux
/-
  Ccctl.Server.TmuxLauncher — launches into one tmux, side by side
  (`packages/server/src/session-launcher-tmux.ts`: `createTmuxSessionLauncher`, its `sessionExists`,
  `ensureSession`, `launch` and `close`, `tmuxFormatLiteral`, `workerNotFoundReason`).

  Every await of a launch is one tmux command; between any two the other launches and the teardowns
  run theirs, and anything else happens to the tmux. A command may not run at all, and one that ran
  may not be heard of. `new-window` is given no target: which session it opens in is tmux's to say.

  - `handles_apart`: in every run no two launches hold one window, and what a handle names is opened
    with the arguments its launch asked for, in whichever session it is now. A directory or a name
    with `#[` in it is not: tmux takes the signs before a style as they stand, doubled too.
  - `kills_own`: a teardown is run at most once for a launch, and takes away that launch's own window
    and nothing else, unless the tmux server was replaced since the launch.
  - `cold_start`: while tmux serves and its windows are only added to, no launch fails for want of a
    session, whoever else is starting; in particular not for having lost the race to create it.
-/

namespace Ccctl.Server

open Ccctl.Core Ccctl.Lib

structure SessionLaunchError where
  code : LaunchFailureCode
  message : JsString
  deriving DecidableEq, Repr

def DEFAULT_TMUX_BIN : JsString := js "tmux"

def DEFAULT_TMUX_SESSION_NAME : JsString := js "ccctl"

def DEFAULT_WORKER_WINDOW_NAME : JsString := js "claude"

structure TmuxSessionLauncherConfig where
  sessionName : JsString := DEFAULT_TMUX_SESSION_NAME
  tmuxBin : JsString := DEFAULT_TMUX_BIN
  defaultWindowName : JsString := DEFAULT_WORKER_WINDOW_NAME

/-- `value.replaceAll("#", "##")`. -/
def tmuxFormatLiteral (value : JsString) : JsString := value.flatMap fun u => if u = 0x23 then [0x23, 0x23] else [u]

def workerNotFoundReason (command : JsString) : JsString :=
  js "ccctl: cannot launch a session — the worker binary `" ++ command ++
    js "` was not found on PATH, or is not executable (run `ccctl patch` to install the patched `claude`)"

def emptyWorkerArgv : SessionLaunchError :=
  ⟨.spawnFailed, js "ccctl: the worker command factory produced an empty argv"⟩

def tmuxUnavailable (config : TmuxSessionLauncherConfig) : SessionLaunchError :=
  ⟨.backendUnavailable, js "ccctl: the tmux backend could not bring up a session window (is `" ++ config.tmuxBin ++
    js "` installed and working?)"⟩

/-! ## What a format says -/

/-- A style somewhere in a text. -/
def hasStyle : JsString → Bool
  | [] => false
  | u :: rest => (u = 0x23 && rest.head? = some 0x5B) || hasStyle rest

theorem dropWhile_literal (value : JsString) :
    ((tmuxFormatLiteral value).dropWhile (· = 0x23)).head? = (value.dropWhile (· = 0x23)).head? := by
  induction value with
  | nil => rfl
  | cons u rest ih =>
    by_cases hu : u = 0x23
    · subst hu
      simpa [tmuxFormatLiteral] using ih
    · simp [tmuxFormatLiteral, hu]

theorem hasStyle_of_opens {rest : JsString} (h : opensStyle rest) : hasStyle (0x23 :: rest) = true := by
  unfold opensStyle at h
  induction rest with
  | nil => cases h
  | cons u rest ih =>
    by_cases hu : u = 0x23
    · subst hu
      have hrest := ih (by simpa using h)
      rw [hasStyle, hrest, Bool.or_true]
    · have hhead : u = 0x5B := by simpa [hu] using h
      simp [hasStyle, hhead]

/-- What is escaped is said. -/
theorem expand_literal {tmux : Tmux} (laws : tmux.Laws) (t : tmux.State) {value : JsString}
    (h : hasStyle value = false) : tmux.expand t (tmuxFormatLiteral value) = value := by
  induction value with
  | nil => exact laws.expand_nil t
  | cons u rest ih =>
    have hrest := ih (Bool.or_eq_false_iff.mp h).2
    by_cases hu : u = 0x23
    · subst hu
      have hplain : ¬ opensStyle (tmuxFormatLiteral rest) := fun hopens => by
        rw [opensStyle, dropWhile_literal] at hopens
        rw [hasStyle_of_opens hopens] at h
        cases h
      have hliteral : tmuxFormatLiteral (0x23 :: rest) = 0x23 :: 0x23 :: tmuxFormatLiteral rest := rfl
      rw [hliteral, laws.expand_sign t _ hplain, hrest]
    · have hliteral : tmuxFormatLiteral (u :: rest) = u :: tmuxFormatLiteral rest := by
        simp [tmuxFormatLiteral, hu]
      rw [hliteral, laws.expand_plain t u _ hu, hrest]

namespace WindowArgs

/-- The arguments of `new-window`. -/
def escaped (args : WindowArgs) : WindowArgs := ⟨tmuxFormatLiteral args.cwd, tmuxFormatLiteral args.name, args.argv⟩

/-- Neither text that tmux expands has a style in it. -/
def Plain (args : WindowArgs) : Prop := hasStyle args.cwd = false ∧ hasStyle args.name = false

theorem Plain.expanded {args : WindowArgs} (h : args.Plain) {tmux : Tmux} (laws : tmux.Laws) (t : tmux.State) :
    (⟨tmux.expand t args.escaped.cwd, tmux.expand t args.escaped.name, args.escaped.argv⟩ : WindowArgs) = args := by
  rw [escaped, expand_literal laws t h.1, expand_literal laws t h.2]

end WindowArgs

/-! ## The launcher -/

/-- A launched window: the server it was opened on, its id there, and whether its teardown was called and has run. -/
structure TmuxHandle where
  server : Nat
  windowId : Nat
  closed : Bool
  pending : Bool
  deriving DecidableEq, Repr

/-- What a launch waits for. -/
inductive TmuxStage where
  | hasSession
  | newSession
  | hasSessionAgain
  | newWindow
  | up (handle : TmuxHandle)
  | failed (error : SessionLaunchError)
  deriving DecidableEq, Repr

structure TmuxLaunch where
  /-- What it asked for. -/
  args : WindowArgs
  stage : TmuxStage
  deriving DecidableEq, Repr

/-- A teardown that ran: whose, on which server, and the windows it took away. -/
structure Teardown where
  n : Nat
  server : Nat
  windows : List TmuxWindow
  deriving DecidableEq, Repr

structure TmuxHost (tmux : Tmux) where
  state : tmux.State
  launches : List TmuxLaunch
  teardowns : List Teardown

namespace TmuxHost

variable {tmux : Tmux} (config : TmuxSessionLauncherConfig) (s : TmuxHost tmux)

def server : Nat := tmux.server s.state

def windows : List TmuxWindow := tmux.windows s.state

def setStage (n : Nat) (stage : TmuxStage) : TmuxHost tmux :=
  { s with launches := s.launches.modify n fun launch => { launch with stage } }

/-! ## A launch -/

/-- Up to the first await. -/
def launch (project : Option JsString) (cwd : JsString) (workerArgv : List JsString)
    (runnable : JsString → JsString → Bool) : TmuxHost tmux :=
  let stage : TmuxStage :=
    match workerArgv with
    | [] => .failed emptyWorkerArgv
    | workerBin :: _ =>
      if workerBin = [] then .failed emptyWorkerArgv
      else if runnable workerBin cwd then .hasSession
      else .failed ⟨.workerNotFound, workerNotFoundReason workerBin⟩
  { s with launches := s.launches ++ [⟨⟨cwd, project.getD config.defaultWindowName, workerArgv⟩, stage⟩] }

/-- The awaited command of launch `n` has run; `heard` is whether its answer arrived. -/
def ran (n : Nat) (heard : Bool) : TmuxHost tmux :=
  match s.launches[n]? with
  | none => s
  | some launch =>
    match launch.stage with
    | .hasSession =>
      s.setStage n (if heard && tmux.hasSession s.state config.sessionName then .newWindow else .newSession)
    | .newSession =>
      let made := tmux.newSession s.state config.sessionName
      { s with state := made.1 }.setStage n (if heard && made.2 then .newWindow else .hasSessionAgain)
    | .hasSessionAgain =>
      s.setStage n (if heard && tmux.hasSession s.state config.sessionName then .newWindow
        else .failed (tmuxUnavailable config))
    | .newWindow =>
      let opened := tmux.newWindow s.state launch.args.escaped
      { s with state := opened.1 }.setStage n
        (match opened.2 with
        | some windowId =>
          if heard then .up ⟨s.server, windowId, false, false⟩ else .failed (tmuxUnavailable config)
        | none => .failed (tmuxUnavailable config))
    | .up _ | .failed _ => s

/-- It could not be run. -/
def unreachable (n : Nat) : TmuxHost tmux :=
  match s.launches[n]? with
  | none => s
  | some launch =>
    match launch.stage with
    | .hasSession => s.setStage n .newSession
    | .newSession => s.setStage n .hasSessionAgain
    | .hasSessionAgain | .newWindow => s.setStage n (.failed (tmuxUnavailable config))
    | .up _ | .failed _ => s

/-! ## A teardown -/

/-- `close`, up to its await. -/
def close (n : Nat) : TmuxHost tmux :=
  match s.launches[n]? with
  | some ⟨_, .up handle⟩ =>
    if handle.closed then s else s.setStage n (.up { handle with closed := true, pending := true })
  | _ => s

def tearDown (n : Nat) (windowId : Nat) : TmuxHost tmux :=
  let state := tmux.killWindow s.state windowId
  { s with
    state
    teardowns := s.teardowns ++ [⟨n, s.server, s.windows.filter fun w => w ∉ tmux.windows state⟩] }

/-- Its `kill-window` runs, or does not. -/
def closeRan (n : Nat) (reached : Bool) : TmuxHost tmux :=
  match s.launches[n]? with
  | some ⟨_, .up handle⟩ =>
    if handle.pending then
      let s := s.setStage n (.up { handle with pending := false })
      if reached then s.tearDown n handle.windowId else s
    else s
  | _ => s

end TmuxHost

inductive TmuxEvent (tmux : Tmux) where
  | launch (project : Option JsString) (cwd : JsString) (workerArgv : List JsString)
      (runnable : JsString → JsString → Bool)
  | ran (n : Nat) (heard : Bool)
  | unreachable (n : Nat)
  | close (n : Nat)
  | closeRan (n : Nat) (reached : Bool)
  | act (a : tmux.Act)

variable {tmux : Tmux}

def tmuxStep (config : TmuxSessionLauncherConfig) (s : TmuxHost tmux) : TmuxEvent tmux → TmuxHost tmux
  | .launch project cwd workerArgv runnable => s.launch config project cwd workerArgv runnable
  | .ran n heard => s.ran config n heard
  | .unreachable n => s.unreachable config n
  | .close n => s.close n
  | .closeRan n reached => s.closeRan n reached
  | .act a => { s with state := tmux.act s.state a }

/-- A tmux that launched nothing yet. -/
structure TmuxStart (s : TmuxHost tmux) : Prop where
  launches : s.launches = []
  teardowns : s.teardowns = []

abbrev TmuxRun (config : TmuxSessionLauncherConfig) : TmuxHost tmux → Prop :=
  Reach (tmuxStep config) TmuxStart anyEvent

/-! ## The invariant -/

namespace TmuxHost

/-- A launch that is up. -/
def Up (s : TmuxHost tmux) (n : Nat) (args : WindowArgs) (handle : TmuxHandle) : Prop :=
  s.launches[n]? = some ⟨args, .up handle⟩

structure Held (s : TmuxHost tmux) : Prop where
  /-- On this server a handle's id was given out, and what it names was opened for its launch. -/
  server : ∀ n args handle, s.Up n args handle → handle.server ≤ s.server
  handle : ∀ n args handle, s.Up n args handle → handle.server = s.server →
    tmux.given s.state handle.windowId ∧
      ∀ w ∈ s.windows, w.id = handle.windowId → args.Plain → w.opened = args
  apart : ∀ n m args args' handle handle', s.Up n args handle → s.Up m args' handle' → handle.server = handle'.server →
    handle.windowId = handle'.windowId → n = m
  /-- A teardown is called before it runs, and runs once. -/
  called : ∀ n args handle, s.Up n args handle → handle.closed = false →
    handle.pending = false ∧ ∀ t ∈ s.teardowns, t.n ≠ n
  once : ∀ n args handle, s.Up n args handle → handle.pending = true → ∀ t ∈ s.teardowns, t.n ≠ n
  distinct : (s.teardowns.map (·.n)).Nodup
  own : ∀ t ∈ s.teardowns, ∃ args handle, s.Up t.n args handle ∧ t.windows.length ≤ 1 ∧
    ∀ w ∈ t.windows, w.id = handle.windowId ∧ (t.server = handle.server → args.Plain → w.opened = args)

variable {s : TmuxHost tmux}

theorem getElem?_setStage (s : TmuxHost tmux) (n : Nat) (stage : TmuxStage) (m : Nat) :
    (s.setStage n stage).launches[m]? =
      if n = m then (s.launches[m]?).map fun launch => { launch with stage } else s.launches[m]? := by
  simp only [setStage, List.getElem?_modify]
  split <;> simp

theorem up_setStage {n : Nat} {stage : TmuxStage} (h : ∀ handle, stage ≠ .up handle) {m : Nat} {args : WindowArgs}
    {handle : TmuxHandle} (hup : (s.setStage n stage).Up m args handle) : s.Up m args handle := by
  rw [Up, getElem?_setStage] at hup
  split at hup
  · obtain ⟨launch, -, heq⟩ := Option.map_eq_some_iff.mp hup
    exact absurd (congrArg TmuxLaunch.stage heq) (h handle)
  · exact hup

/-- Nothing is up that was not. -/
theorem Held.sameUp {s' : TmuxHost tmux} (h : Held s) (hstate : s'.state = s.state) (hteardowns : s'.teardowns = s.teardowns)
    (hup : ∀ n args handle, s'.Up n args handle ↔ s.Up n args handle) : Held s' := by
  refine ⟨?_, ?_, ?_, ?_, ?_, ?_, ?_⟩ <;> simp only [TmuxHost.server, TmuxHost.windows, hstate, hteardowns, hup]
  · exact h.server
  · exact h.handle
  · exact h.apart
  · exact h.called
  · exact h.once
  · exact h.distinct
  · exact h.own

/-- The stage of a launch that is not up, to another such. -/
theorem Held.restage (h : Held s) {n : Nat} {launch : TmuxLaunch} (hn : s.launches[n]? = some launch)
    (hstage : ∀ handle, launch.stage ≠ .up handle) {stage : TmuxStage} (hnot : ∀ handle, stage ≠ .up handle) :
    Held (s.setStage n stage) := by
  refine h.sameUp rfl rfl fun m args handle => ⟨up_setStage hnot, fun hup => ?_⟩
  rw [Up, getElem?_setStage, if_neg ?_]
  · exact hup
  · intro heq
    subst heq
    exact hstage handle (congrArg TmuxLaunch.stage (Option.some.inj (hn.symm.trans hup)))

theorem up_launched {launch : TmuxLaunch} (hnot : ∀ handle, launch.stage ≠ .up handle) {n : Nat} {args : WindowArgs}
    {handle : TmuxHandle} :
    ({ s with launches := s.launches ++ [launch] } : TmuxHost tmux).Up n args handle ↔ s.Up n args handle := by
  simp only [Up, List.getElem?_append]
  split
  · exact Iff.rfl
  · rename_i hlen
    rw [List.getElem?_eq_none (Nat.le_of_not_lt hlen)]
    refine ⟨fun hup => ?_, fun hup => by cases hup⟩
    obtain heq := List.mem_singleton.mp (List.mem_of_getElem? hup)
    exact absurd (congrArg TmuxLaunch.stage heq.symm) (hnot handle)

/-- A new launch asks tmux, or fails for what is no fault of tmux. -/
theorem launch_cases (config : TmuxSessionLauncherConfig) (s : TmuxHost tmux) (project : Option JsString) (cwd : JsString)
    (workerArgv : List JsString) (runnable : JsString → JsString → Bool) :
    ∃ launch : TmuxLaunch, s.launch config project cwd workerArgv runnable = { s with launches := s.launches ++ [launch] } ∧
      (launch.stage = .hasSession ∨ ∃ error, launch.stage = .failed error ∧ error.code ≠ .backendUnavailable) := by
  refine ⟨_, rfl, ?_⟩
  dsimp only
  split
  · exact .inr ⟨_, rfl, by decide⟩
  · split
    · exact .inr ⟨_, rfl, by decide⟩
    · split
      · exact .inl rfl
      · exact .inr ⟨_, rfl, fun hcode => by cases hcode⟩

/-- The tmux goes on: a window under a handle's id is the one that was there, or its server is new. -/
theorem Held.later (h : Held s) {state : tmux.State} (hlater : tmux.Later s.state state) : Held { s with state } := by
  refine ⟨fun n args handle hup => (h.server n args handle hup).trans hlater.server, fun n args handle hup hnow => ?_,
    h.apart, h.called, h.once, h.distinct, h.own⟩
  have hnow : handle.server = tmux.server state := hnow
  have hsame : tmux.server state = tmux.server s.state :=
    le_antisymm (hnow ▸ h.server n args handle hup) hlater.server
  obtain ⟨hgiven, hopened⟩ := h.handle n args handle hup (hnow.trans hsame)
  refine ⟨hlater.given hsame _ hgiven, fun w hw hid => ?_⟩
  exact hopened w (hlater.kept hsame w hw (hid ▸ hgiven)) hid

theorem up_fresh {n : Nat} {launch : TmuxLaunch} (hn : s.launches[n]? = some launch) {fresh : TmuxHandle} {m : Nat}
    {args : WindowArgs} {handle : TmuxHandle} :
    (s.setStage n (.up fresh)).Up m args handle ↔
      n = m ∧ args = launch.args ∧ handle = fresh ∨ n ≠ m ∧ s.Up m args handle := by
  rw [Up, getElem?_setStage]
  by_cases heq : n = m
  · subst heq
    rw [if_pos rfl, hn]
    simp [eq_comm]
  · simp [heq, Up]

/-- A launch's own window, and its handle. -/
theorem Held.opened (laws : tmux.Laws) (h : Held s) {n : Nat} {launch : TmuxLaunch} (hn : s.launches[n]? = some launch)
    (hstage : ∀ handle, launch.stage ≠ .up handle) {windowId : Nat}
    (hid : (tmux.newWindow s.state launch.args.escaped).2 = some windowId) :
    Held ({ s with state := (tmux.newWindow s.state launch.args.escaped).1 }.setStage n
      (.up ⟨s.server, windowId, false, false⟩)) := by
  have hnot : ∀ args handle, ¬ s.Up n args handle := fun args handle hup =>
    hstage handle (congrArg TmuxLaunch.stage (Option.some.inj (hn.symm.trans hup)))
  obtain ⟨hserver, hnew, hgiven, hwindow⟩ := laws.printed _ _ _ hid
  have hadded := h.later (laws.newWindow s.state launch.args.escaped)
  refine ⟨?_, ?_, ?_, ?_, ?_, hadded.distinct, ?_⟩
  · intro m args handle hup
    rcases (up_fresh hn).mp hup with ⟨-, -, rfl⟩ | ⟨-, hup⟩
    · exact hserver.ge
    · exact hadded.server m args handle hup
  · intro m args handle hup hnow
    rcases (up_fresh hn).mp hup with ⟨rfl, rfl, rfl⟩ | ⟨-, hup⟩
    · exact ⟨hgiven, fun w hw hid hplain => (hwindow w hw hid).trans (hplain.expanded laws s.state)⟩
    · exact hadded.handle m args handle hup hnow
  · -- the id was given to no one before
    have hother : ∀ m args handle, s.Up m args handle → handle.server = s.server → handle.windowId ≠ windowId :=
      fun m args handle hup hnow heq => hnew (heq ▸ (h.handle m args handle hup hnow).1)
    intro m m' args args' handle handle' hup hup' hsame hid
    rcases (up_fresh hn).mp hup with ⟨rfl, -, rfl⟩ | ⟨hm, hup⟩ <;>
      rcases (up_fresh hn).mp hup' with ⟨rfl, -, rfl⟩ | ⟨hm', hup'⟩
    · rfl
    · exact absurd hid.symm (hother m' args' handle' hup' hsame.symm)
    · exact absurd hid (hother m args handle hup hsame)
    · exact h.apart m m' args args' handle handle' hup hup' hsame hid
  · intro m args handle hup hclosed
    rcases (up_fresh hn).mp hup with ⟨rfl, -, rfl⟩ | ⟨-, hup⟩
    · refine ⟨rfl, fun t ht heq => ?_⟩
      obtain ⟨args', handle', hup', -⟩ := h.own t ht
      exact hnot args' handle' (heq ▸ hup')
    · exact h.called m args handle hup hclosed
  · intro m args handle hup hpending
    rcases (up_fresh hn).mp hup with ⟨-, -, rfl⟩ | ⟨-, hup⟩
    · cases hpending
    · exact h.once m args handle hup hpending
  · intro t ht
    obtain ⟨args, handle, hup, hown⟩ := h.own t ht
    refine ⟨args, handle, (up_fresh hn).mpr (.inr ⟨?_, hup⟩), hown⟩
    intro hfound
    subst hfound
    exact hnot args handle hup

/-- A handle whose teardown was called or has run. -/
theorem Held.rehandle (h : Held s) {n : Nat} {args : WindowArgs} {handle handle' : TmuxHandle} (hup : s.Up n args handle)
    (hserver : handle'.server = handle.server) (hid : handle'.windowId = handle.windowId) (hclosed : handle'.closed = true)
    (honce : handle'.pending = true → ∀ t ∈ s.teardowns, t.n ≠ n) : Held (s.setStage n (.up handle')) := by
  -- whatever is up was, with the same window
  have hwas : ∀ {m args' handle''}, (s.setStage n (.up handle')).Up m args' handle'' →
      ∃ before, s.Up m args' before ∧ before.server = handle''.server ∧ before.windowId = handle''.windowId := by
    intro m args' handle'' hup'
    rcases (up_fresh hup).mp hup' with ⟨rfl, rfl, rfl⟩ | ⟨-, hup'⟩
    · exact ⟨handle, hup, hserver.symm, hid.symm⟩
    · exact ⟨handle'', hup', rfl, rfl⟩
  refine ⟨?_, ?_, ?_, ?_, ?_, h.distinct, ?_⟩
  · intro m args' handle'' hup'
    obtain ⟨before, hbefore, hsame, -⟩ := hwas hup'
    exact hsame ▸ h.server m args' before hbefore
  · intro m args' handle'' hup' hnow
    obtain ⟨before, hbefore, hsame, hwindow⟩ := hwas hup'
    exact hwindow ▸ h.handle m args' before hbefore (hsame.trans hnow)
  · intro m m' args' args'' left right hleft hright hsame hwindow
    obtain ⟨before, hbefore, hs, hw⟩ := hwas hleft
    obtain ⟨before', hbefore', hs', hw'⟩ := hwas hright
    exact h.apart m m' args' args'' before before' hbefore hbefore' (hs.trans (hsame.trans hs'.symm))
      (hw.trans (hwindow.trans hw'.symm))
  · intro m args' handle'' hup' hopen
    rcases (up_fresh hup).mp hup' with ⟨rfl, -, rfl⟩ | ⟨-, hup'⟩
    · rw [hclosed] at hopen
      cases hopen
    · exact h.called m args' handle'' hup' hopen
  · intro m args' handle'' hup' hpending
    rcases (up_fresh hup).mp hup' with ⟨rfl, -, rfl⟩ | ⟨-, hup'⟩
    · exact honce hpending
    · exact h.once m args' handle'' hup' hpending
  · intro t ht
    obtain ⟨args', before, hbefore, hlength, hown⟩ := h.own t ht
    by_cases hn : n = t.n
    · have hsame : (⟨args, .up handle⟩ : TmuxLaunch) = ⟨args', .up before⟩ :=
        Option.some.inj (hup.symm.trans (hn ▸ hbefore))
      obtain ⟨rfl, hstage⟩ := TmuxLaunch.mk.inj hsame
      obtain rfl := TmuxStage.up.inj hstage
      exact ⟨args, handle', (up_fresh hup).mpr (.inl ⟨hn, rfl, rfl⟩), hlength, hserver ▸ hid ▸ hown⟩
    · exact ⟨args', before, (up_fresh hup).mpr (.inr ⟨hn, hbefore⟩), hlength, hown⟩

/-- What `kill-window` takes away is the window of that id. -/
theorem taken_eq (laws : tmux.Laws) (s : TmuxHost tmux) (id : Nat) :
    (s.windows.filter fun w => w ∉ tmux.windows (tmux.killWindow s.state id)) = s.windows.filter (·.id = id) := by
  refine List.filter_congr fun w hw => ?_
  have hw : w ∈ tmux.windows s.state := hw
  simp [laws.killed, hw]

theorem filter_id_length (laws : tmux.Laws) (s : TmuxHost tmux) (id : Nat) : (s.windows.filter (·.id = id)).length ≤ 1 := by
  have hcount := List.nodup_iff_count_le_one.mp (laws.ids s.state) id
  rwa [List.count, List.countP_map, List.countP_eq_length_filter] at hcount

/-- A teardown takes away the handle's window. -/
theorem Held.tornDown (laws : tmux.Laws) (h : Held s) {n : Nat} {args : WindowArgs} {handle : TmuxHandle}
    (hup : s.Up n args handle) (hclosed : handle.closed = true) (hpending : handle.pending = false)
    (hnone : ∀ t ∈ s.teardowns, t.n ≠ n) : Held (s.tearDown n handle.windowId) := by
  have hkilled := h.later (laws.killWindow s.state handle.windowId)
  have hother : ∀ m args' handle', s.Up m args' handle' → handle'.closed = false ∨ handle'.pending = true → m ≠ n := by
    intro m args' handle' hup' hor heq
    subst heq
    have hsame : (⟨args, .up handle⟩ : TmuxLaunch) = ⟨args', .up handle'⟩ := Option.some.inj (hup.symm.trans hup')
    obtain rfl := TmuxStage.up.inj (TmuxLaunch.mk.inj hsame).2
    rw [hclosed, hpending] at hor
    simp at hor
  refine ⟨hkilled.server, hkilled.handle, hkilled.apart, ?_, ?_, ?_, ?_⟩
  · intro m args' handle' hup' hopen
    refine ⟨(h.called m args' handle' hup' hopen).1, fun t ht => ?_⟩
    rcases List.mem_append.mp ht with ht | ht
    · exact (h.called m args' handle' hup' hopen).2 t ht
    · rw [List.mem_singleton.mp ht]
      exact (hother m args' handle' hup' (.inl hopen)).symm
  · intro m args' handle' hup' hwaits t ht
    rcases List.mem_append.mp ht with ht | ht
    · exact h.once m args' handle' hup' hwaits t ht
    · rw [List.mem_singleton.mp ht]
      exact (hother m args' handle' hup' (.inr hwaits)).symm
  · simp only [tearDown, List.map_append, List.nodup_append, List.map_cons, List.map_nil]
    refine ⟨h.distinct, by simp, fun a ha b hb => ?_⟩
    obtain ⟨t, ht, rfl⟩ := List.mem_map.mp ha
    rw [List.mem_singleton.mp hb]
    exact hnone t ht
  · intro t ht
    rcases List.mem_append.mp ht with ht | ht
    · exact h.own t ht
    · rw [List.mem_singleton.mp ht, taken_eq laws]
      refine ⟨args, handle, hup, filter_id_length laws s _, fun w hw => ?_⟩
      obtain ⟨hw, hid⟩ := List.mem_filter.mp hw
      have hid : w.id = handle.windowId := by simpa using hid
      exact ⟨hid, fun hserver => (h.handle n args handle hup hserver.symm).2 w hw hid⟩

theorem Held.ran (laws : tmux.Laws) {config : TmuxSessionLauncherConfig} (h : Held s) (n : Nat) (heard : Bool) :
    Held (s.ran config n heard) := by
  unfold TmuxHost.ran
  cases hn : s.launches[n]? with
  | none => exact h
  | some launch =>
    obtain ⟨args, stage⟩ := launch
    cases stage with
    | hasSession => exact h.restage hn (fun _ => by simp) fun handle => by split <;> simp
    | newSession =>
      exact (h.later (laws.newSession s.state config.sessionName)).restage hn (fun _ => by simp)
        fun handle => by split <;> simp
    | hasSessionAgain => exact h.restage hn (fun _ => by simp) fun handle => by split <;> simp
    | newWindow =>
      have hlater := h.later (laws.newWindow s.state args.escaped)
      dsimp only
      split
      · rename_i windowId hid
        split
        · exact h.opened laws hn (fun _ => by simp) hid
        · exact hlater.restage hn (fun _ => by simp) fun _ => by simp
      · exact hlater.restage hn (fun _ => by simp) fun _ => by simp
    | up handle => exact h
    | failed error => exact h

theorem Held.unreachable {config : TmuxSessionLauncherConfig} (h : Held s) (n : Nat) : Held (s.unreachable config n) := by
  unfold TmuxHost.unreachable
  cases hn : s.launches[n]? with
  | none => exact h
  | some launch =>
    obtain ⟨args, stage⟩ := launch
    cases stage with
    | up handle => exact h
    | failed error => exact h
    | _ => exact h.restage hn (fun _ => by simp) fun _ => by simp

theorem Held.close (h : Held s) (n : Nat) : Held (s.close n) := by
  unfold TmuxHost.close
  split
  · rename_i args handle hup
    split
    · exact h
    · rename_i hopen
      have hcalled := h.called n args handle hup (by simpa using hopen)
      exact h.rehandle hup rfl rfl rfl fun _ => hcalled.2
  · exact h

theorem Held.closeRan (laws : tmux.Laws) (h : Held s) (n : Nat) (reached : Bool) : Held (s.closeRan n reached) := by
  unfold TmuxHost.closeRan
  split
  · rename_i args handle hup
    split
    · rename_i hpending
      have hclosed : handle.closed = true := by
        cases hc : handle.closed with
        | true => rfl
        | false => rw [(h.called n args handle hup hc).1] at hpending; cases hpending
      have hnone := h.once n args handle hup hpending
      have hran : Held (s.setStage n (.up { handle with pending := false })) :=
        h.rehandle hup rfl rfl hclosed fun hwaits => by cases hwaits
      split
      · have hup' : (s.setStage n (.up { handle with pending := false })).Up n args { handle with pending := false } :=
          (up_fresh hup).mpr (.inl ⟨rfl, rfl, rfl⟩)
        have htorn := hran.tornDown laws hup' hclosed rfl hnone
        exact htorn
      · exact hran
    · exact h
  · exact h

end TmuxHost

open TmuxHost

variable {config : TmuxSessionLauncherConfig} {s : TmuxHost tmux}

theorem tmuxStep_held (laws : tmux.Laws) (h : Held s) (e : TmuxEvent tmux) : Held (tmuxStep config s e) := by
  cases e with
  | launch project cwd workerArgv runnable =>
    obtain ⟨launch, hlaunch, hstage⟩ := launch_cases config s project cwd workerArgv runnable
    show Held (s.launch config project cwd workerArgv runnable)
    rw [hlaunch]
    refine h.sameUp rfl rfl fun m args handle => up_launched fun handle => ?_
    rcases hstage with hstage | ⟨error, hstage, -⟩ <;> simp [hstage]
  | ran n heard => exact h.ran laws n heard
  | unreachable n => exact h.unreachable n
  | close n => exact h.close n
  | closeRan n reached => exact h.closeRan laws n reached
  | act a => exact h.later (laws.act s.state a)

theorem TmuxStart.held (h : TmuxStart s) : Held s := by
  have hnone : ∀ n args handle, ¬ s.Up n args handle := fun n args handle hup => by
    rw [Up, h.launches] at hup
    cases hup
  refine ⟨fun _ _ _ hup => (hnone _ _ _ hup).elim, fun _ _ _ hup => (hnone _ _ _ hup).elim,
    fun _ _ _ _ _ _ hup => (hnone _ _ _ hup).elim, fun _ _ _ hup => (hnone _ _ _ hup).elim,
    fun _ _ _ hup => (hnone _ _ _ hup).elim, ?_, ?_⟩ <;> simp [h.teardowns]

theorem TmuxRun.held (laws : tmux.Laws) (h : TmuxRun config s) : Held s :=
  h.inv (fun _ hs => hs.held) fun _ e hs _ => tmuxStep_held laws hs e

/-! ## Side by side -/

/-- Two launches in no session; the second loses the race to create it. -/
def raced : List (TmuxEvent plainTmux) :=
  [.launch none (js "/a") [js "claude"] fun _ _ => true,
    .launch (some (js "b#1")) (js "/b") [js "claude"] fun _ _ => true,
    .ran 0 true, .ran 1 true, .ran 0 true, .ran 1 true, .ran 1 true, .ran 1 true, .ran 0 true]

def noTmux : TmuxHost plainTmux := ⟨⟨0, 0, [], List.nodup_nil, List.forall_mem_nil _⟩, [], []⟩

theorem noTmux_start : TmuxStart noTmux := ⟨rfl, rfl⟩

def racedHost : TmuxHost plainTmux := runFrom (tmuxStep {}) noTmux raced

def racedArgs (project cwd : JsString) : WindowArgs := ⟨cwd, project, [js "claude"]⟩

/-- A replaced server counts from zero: the window torn down is the operator's. -/
example :
    (runFrom (tmuxStep {}) racedHost [.act .killServer, .act (.opened (js "mine") ⟨[], [], []⟩),
      .act (.opened (js "mine") ⟨[], [], []⟩), .close 1, .closeRan 1 true]).teardowns =
      [⟨1, 2, [⟨1, ⟨[], [], []⟩⟩]⟩] := by
  decide

/-! ## A cold start -/

/-- tmux answers, and its windows are only added to. -/
def onlyAdds (s : TmuxHost tmux) : TmuxEvent tmux → Prop
  | .ran _ heard => heard = true
  | .unreachable _ => False
  | .act a => tmux.Adds s.state (tmux.act s.state a)
  | .launch _ _ _ _ | .close _ | .closeRan _ _ => True

abbrev TmuxAddsRun (config : TmuxSessionLauncherConfig) : TmuxHost tmux → Prop :=
  Reach (tmuxStep config) TmuxStart onlyAdds

namespace TmuxHost

/-- No launch holds the window of that id. -/
def Free (s : TmuxHost tmux) (id : Nat) : Prop :=
  ∀ n args handle, s.Up n args handle → handle.server = s.server → handle.windowId ≠ id

/-- The session is there. -/
def InSession (config : TmuxSessionLauncherConfig) (s : TmuxHost tmux) : Prop :=
  ∃ id, tmux.holds s.state config.sessionName id

/-- What a launch that waits, or is up, can count on. -/
def Counts (config : TmuxSessionLauncherConfig) (s : TmuxHost tmux) : TmuxStage → Prop
  | .hasSession | .newSession => True
  | .hasSessionAgain => s.InSession config
  | .newWindow => s.windows ≠ []
  | .up handle => handle.server = s.server ∧ s.windows ≠ []
  | .failed error => error ≠ tmuxUnavailable config

structure Warm (config : TmuxSessionLauncherConfig) (s : TmuxHost tmux) : Prop where
  held : Held s
  /-- The server has a window that no teardown takes away, and so does the session. -/
  rooted : s.windows ≠ [] → ∃ w ∈ s.windows, s.Free w.id
  session : s.InSession config → ∃ id, tmux.holds s.state config.sessionName id ∧ s.Free id
  counts : ∀ launch ∈ s.launches, s.Counts config launch.stage

/-- The session stays, and so does the server while there was one. -/
theorem Counts.mono {s' : TmuxHost tmux} (hsession : s.InSession config → s'.InSession config)
    (hserver : s.windows ≠ [] → s'.server = s.server ∧ s'.windows ≠ []) {stage : TmuxStage}
    (h : s.Counts config stage) : s'.Counts config stage := by
  cases stage with
  | hasSession => trivial
  | newSession => trivial
  | hasSessionAgain => exact hsession h
  | newWindow => exact (hserver h).2
  | up handle => exact ⟨h.1.trans (hserver h.2).1.symm, (hserver h.2).2⟩
  | failed error => exact h

theorem mem_setStage {n : Nat} {stage : TmuxStage} {launch : TmuxLaunch} (h : launch ∈ (s.setStage n stage).launches) :
    launch.stage = stage ∨ launch ∈ s.launches := by
  obtain ⟨m, hm⟩ := List.mem_iff_getElem?.mp h
  rw [getElem?_setStage] at hm
  split at hm
  · obtain ⟨-, -, rfl⟩ := Option.map_eq_some_iff.mp hm
    exact .inl rfl
  · exact .inr (List.mem_of_getElem? hm)

theorem Counts.restage {n : Nat} {stage : TmuxStage} (h : ∀ launch ∈ s.launches, s.Counts config launch.stage)
    (hstage : s.Counts config stage) : ∀ launch ∈ (s.setStage n stage).launches,
    (s.setStage n stage).Counts config launch.stage := by
  intro launch hlaunch
  have hsame : s.Counts config launch.stage := by
    rcases mem_setStage hlaunch with hnow | hlaunch
    · exact hnow ▸ hstage
    · exact h launch hlaunch
  exact hsame.mono (fun hin => hin) fun hne => ⟨rfl, hne⟩

/-- A launch's stage, while its window stays whose it was. -/
theorem Warm.restage (h : Warm config s) {n : Nat} {stage : TmuxStage} (hheld : Held (s.setStage n stage))
    (hfree : ∀ id, s.Free id → (s.setStage n stage).Free id) (hstage : s.Counts config stage) :
    Warm config (s.setStage n stage) := by
  refine ⟨hheld, fun hne => ?_, fun hin => ?_, Counts.restage h.counts hstage⟩
  · obtain ⟨w, hw, hid⟩ := h.rooted hne
    exact ⟨w, hw, hfree _ hid⟩
  · obtain ⟨id, hid, hroot⟩ := h.session hin
    exact ⟨id, hid, hfree _ hroot⟩

theorem Free.restage {n : Nat} {stage : TmuxStage} (hnot : ∀ handle, stage ≠ .up handle) {id : Nat} (h : s.Free id) :
    (s.setStage n stage).Free id := fun m args handle hup => h m args handle (up_setStage hnot hup)

theorem Free.rehandle {n : Nat} {args : WindowArgs} {handle : TmuxHandle} (hup : s.Up n args handle)
    (handle' : TmuxHandle) (hserver : handle'.server = handle.server) (hid : handle'.windowId = handle.windowId)
    {id : Nat} (h : s.Free id) : (s.setStage n (.up handle')).Free id := by
  intro m args' handle'' hup' hnow
  rcases (up_fresh hup).mp hup' with ⟨rfl, rfl, rfl⟩ | ⟨-, hup'⟩
  · exact hid ▸ h _ _ _ hup (hserver.symm.trans hnow)
  · exact h m args' handle'' hup' hnow

/-- What is not given out is no launch's. -/
theorem Held.free_new (h : Held s) {id : Nat} (hnew : ¬ tmux.given s.state id) : s.Free id :=
  fun n args handle hup hnow heq => hnew (heq ▸ (h.handle n args handle hup hnow).1)

theorem Held.free_later (h : Held s) {state : tmux.State} (hlater : tmux.Later s.state state) {id : Nat}
    (hid : tmux.server state = tmux.server s.state → s.Free id) : ({ s with state } : TmuxHost tmux).Free id := by
  intro n args handle hup hnow
  have hnow : handle.server = tmux.server state := hnow
  have hsame : tmux.server state = tmux.server s.state :=
    le_antisymm (hnow ▸ h.server n args handle hup) hlater.server
  exact hid hsame n args handle hup (hnow.trans hsame)

/-- The tmux goes on, and only adds. -/
theorem Warm.adds (h : Warm config s) {state : tmux.State} (hlater : tmux.Later s.state state)
    (hadds : tmux.Adds s.state state) : Warm config { s with state } := by
  refine ⟨h.held.later hlater, fun hne => ?_, fun hin => ?_, fun launch hlaunch => ?_⟩
  · by_cases hnil : s.windows = []
    · obtain ⟨w, hw⟩ := List.exists_mem_of_ne_nil _ hne
      refine ⟨w, hw, h.held.free_later hlater fun hsame => h.held.free_new fun hgiven => ?_⟩
      have hold : w ∈ s.windows := hlater.kept hsame w hw hgiven
      rw [hnil] at hold
      cases hold
    · obtain ⟨w, hw, hid⟩ := h.rooted hnil
      exact ⟨w, hadds.windows hw, h.held.free_later hlater fun _ => hid⟩
  · obtain ⟨id, hid⟩ := hin
    rcases hadds.started _ id hid with hold | ⟨new, hnew, hfresh⟩
    · obtain ⟨root, hroot, hfree⟩ := h.session hold
      exact ⟨root, hadds.holds _ _ hroot, h.held.free_later hlater fun _ => hfree⟩
    · exact ⟨new, hnew, h.held.free_later hlater fun hsame => h.held.free_new (hfresh hsame)⟩
  · refine (h.counts launch hlaunch).mono (fun hin => ?_) fun hne => ?_
    · obtain ⟨id, hid⟩ := hin
      exact ⟨id, hadds.holds _ _ hid⟩
    · obtain ⟨w, hw⟩ := List.exists_mem_of_ne_nil _ hne
      have hin : w ∈ tmux.windows state := hadds.windows hw
      exact ⟨hadds.server hne, List.ne_nil_of_mem hin⟩

theorem InSession.windows (serves : tmux.Serves config.sessionName) (h : s.InSession config) : s.windows ≠ [] := by
  obtain ⟨id, hid⟩ := h
  obtain ⟨w, hw, -⟩ := serves.held _ _ _ hid
  exact List.ne_nil_of_mem hw

theorem Warm.ran (laws : tmux.Laws) (serves : tmux.Serves config.sessionName) (h : Warm config s) (n : Nat) :
    Warm config (s.ran config n true) := by
  have hran : Held (s.ran config n true) := h.held.ran laws n true
  unfold TmuxHost.ran at hran ⊢
  cases hn : s.launches[n]? with
  | none => exact h
  | some launch =>
    obtain ⟨args, stage⟩ := launch
    rw [hn] at hran
    have hcounts := h.counts _ (List.mem_of_getElem? hn)
    cases stage with
    | hasSession =>
      refine h.restage hran (fun id => Free.restage fun handle => by split <;> simp) ?_
      split
      · rename_i hfound
        exact serves.stands _ (by simpa using hfound)
      · trivial
    | newSession =>
      have hadded := h.adds (laws.newSession s.state config.sessionName) (serves.newSession s.state)
      have hin : InSession config { s with state := (tmux.newSession s.state config.sessionName).1 } :=
        serves.created s.state
      refine hadded.restage hran (fun id => Free.restage fun handle => by split <;> simp) ?_
      split
      · exact hin.windows serves
      · exact hin
    | hasSessionAgain =>
      have hfound := serves.found _ hcounts
      refine h.restage hran (fun id => Free.restage fun handle => by split <;> simp) ?_
      rw [hfound]
      exact serves.stands _ hfound
    | newWindow =>
      have hne : s.windows ≠ [] := hcounts
      obtain ⟨hadds, hsome⟩ := serves.newWindow s.state args.escaped hne
      obtain ⟨windowId, hid⟩ := Option.isSome_iff_exists.mp hsome
      obtain ⟨hserver, hnew, -, -⟩ := laws.printed _ _ _ hid
      have hlater := laws.newWindow s.state args.escaped
      have hadded := h.adds hlater hadds
      dsimp only at hran ⊢
      rw [hid] at hran ⊢
      -- a root was given out before the window was
      have hroot : ∀ id, tmux.given s.state id → s.Free id →
          ({ s with state := (tmux.newWindow s.state args.escaped).1 }.setStage n
            (.up ⟨s.server, windowId, false, false⟩)).Free id := by
        intro id hgiven hfree m args' handle hup hnow
        rcases (up_fresh hn).mp hup with ⟨-, -, rfl⟩ | ⟨-, hup⟩
        · intro heq
          have heq : windowId = id := heq
          exact hnew (heq ▸ hgiven)
        · exact h.held.free_later hlater (fun _ => hfree) m args' handle hup hnow
      refine ⟨hran, fun _ => ?_, fun hin => ?_, Counts.restage hadded.counts ⟨hserver.symm, ?_⟩⟩
      · obtain ⟨w, hw, hfree⟩ := h.rooted hne
        exact ⟨w, hadds.windows hw, hroot _ (laws.listed _ w hw) hfree⟩
      · obtain ⟨id, hnow⟩ := hin
        obtain ⟨root, hold, hfree⟩ := h.session (serves.into _ _ _ _ hnow)
        obtain ⟨w, hw, rfl⟩ := serves.held _ _ _ hold
        exact ⟨w.id, hadds.holds _ _ hold, hroot _ (laws.listed _ w hw) hfree⟩
      · obtain ⟨w, hw⟩ := List.exists_mem_of_ne_nil _ hne
        exact List.ne_nil_of_mem (hadds.windows hw)
    | up handle => exact h
    | failed error => exact h

/-- A teardown takes away its own window, and the roots stay. -/
theorem Warm.tearDown (laws : tmux.Laws) (serves : tmux.Serves config.sessionName) (h : Warm config s) {n : Nat}
    {args : WindowArgs} {handle : TmuxHandle} (hup : s.Up n args handle) (hserver : handle.server = s.server)
    (hne : s.windows ≠ []) (hheld : Held (s.tearDown n handle.windowId)) :
    Warm config (s.tearDown n handle.windowId) := by
  have hlater := laws.killWindow s.state handle.windowId
  obtain ⟨w, hw, hfree⟩ := h.rooted hne
  have hstays : w ∈ tmux.windows (tmux.killWindow s.state handle.windowId) := by
    rw [laws.killed]
    exact List.mem_filter.mpr ⟨hw, by simpa using (hfree n args handle hup hserver).symm⟩
  have hkeeps : ∀ id, s.Free id → (s.tearDown n handle.windowId).Free id := fun id hid =>
    h.held.free_later hlater fun _ => hid
  have hsession : s.InSession config → ∃ id, tmux.holds (tmux.killWindow s.state handle.windowId) config.sessionName id ∧
      s.Free id := fun hin => by
    obtain ⟨root, hroot, hid⟩ := h.session hin
    exact ⟨root, (serves.left _ _ _ _).mpr ⟨hroot, (hid n args handle hup hserver).symm⟩, hid⟩
  refine ⟨hheld, fun _ => ⟨w, hstays, hkeeps _ hfree⟩, fun hin => ?_, fun launch hlaunch => ?_⟩
  · obtain ⟨id, hid⟩ := hin
    obtain ⟨root, hroot, hfree⟩ := hsession ⟨id, ((serves.left _ _ _ _).mp hid).1⟩
    exact ⟨root, hroot, hkeeps _ hfree⟩
  · refine (h.counts launch hlaunch).mono (fun hin => ?_) fun _ => ⟨?_, List.ne_nil_of_mem hstays⟩
    · obtain ⟨root, hroot, -⟩ := hsession hin
      exact ⟨root, hroot⟩
    · exact serves.survives _ _ (List.ne_nil_of_mem hstays)

theorem Warm.closeRan (laws : tmux.Laws) (serves : tmux.Serves config.sessionName) (h : Warm config s) (n : Nat)
    (reached : Bool) : Warm config (s.closeRan n reached) := by
  have hclosed := h.held.closeRan laws n reached
  unfold TmuxHost.closeRan at hclosed ⊢
  split at hclosed
  · rename_i args handle hup
    have hup : s.Up n args handle := hup
    split at hclosed
    · rename_i hpending
      rw [if_pos hpending]
      have hcounts : handle.server = s.server ∧ s.windows ≠ [] := h.counts _ (List.mem_of_getElem? hup)
      have hran : Warm config (s.setStage n (.up { handle with pending := false })) := by
        have hcalled : handle.closed = true := by
          cases hc : handle.closed with
          | true => rfl
          | false => rw [(h.held.called n args handle hup hc).1] at hpending; cases hpending
        exact h.restage (h.held.rehandle hup rfl rfl hcalled fun hwaits => by cases hwaits)
          (fun id => Free.rehandle hup { handle with pending := false } rfl rfl) hcounts
      cases reached with
      | true =>
        have hup' : (s.setStage n (.up { handle with pending := false })).Up n args { handle with pending := false } :=
          (up_fresh hup).mpr (.inl ⟨rfl, rfl, rfl⟩)
        have htorn := hran.tearDown laws serves hup' hcounts.1 hcounts.2 hclosed
        exact htorn
      | false => exact hran
    · rename_i hpending
      rw [if_neg hpending]
      exact h
  · exact h

theorem Warm.close (h : Warm config s) (n : Nat) : Warm config (s.close n) := by
  have hclosed := h.held.close n
  unfold TmuxHost.close at hclosed ⊢
  split at hclosed
  · rename_i args handle hup
    split at hclosed
    · rename_i hdone
      rw [if_pos hdone]
      exact h
    · rename_i hopen
      rw [if_neg hopen]
      exact h.restage hclosed (fun id => Free.rehandle hup { handle with closed := true, pending := true } rfl rfl)
        (h.counts _ (List.mem_of_getElem? hup))
  · exact h

end TmuxHost

theorem tmuxStep_warm (laws : tmux.Laws) (serves : tmux.Serves config.sessionName) (h : Warm config s)
    (e : TmuxEvent tmux) (hok : onlyAdds s e) : Warm config (tmuxStep config s e) := by
  cases e with
  | launch project cwd workerArgv runnable =>
    have hlaunched : Held (tmuxStep config s (.launch project cwd workerArgv runnable)) := tmuxStep_held laws h.held _
    obtain ⟨launch, hlaunch, hstage⟩ := launch_cases config s project cwd workerArgv runnable
    have hstep : tmuxStep config s (.launch project cwd workerArgv runnable) =
        { s with launches := s.launches ++ [launch] } := hlaunch
    rw [hstep] at hlaunched ⊢
    have hnot : ∀ handle, launch.stage ≠ .up handle := fun handle => by
      rcases hstage with hstage | ⟨error, hstage, -⟩ <;> simp [hstage]
    have hfree : ∀ id, s.Free id → ({ s with launches := s.launches ++ [launch] } : TmuxHost tmux).Free id :=
      fun id hid n args handle hup => hid n args handle ((up_launched hnot).mp hup)
    refine ⟨hlaunched, fun hne => ?_, fun hin => ?_, fun other hother => ?_⟩
    · obtain ⟨w, hw, hid⟩ := h.rooted hne
      exact ⟨w, hw, hfree _ hid⟩
    · obtain ⟨id, hid, hroot⟩ := h.session hin
      exact ⟨id, hid, hfree _ hroot⟩
    · rcases List.mem_append.mp hother with hother | hother
      · exact h.counts other hother
      · rw [List.mem_singleton.mp hother]
        rcases hstage with hstage | ⟨error, hstage, hcode⟩
        · rw [hstage]
          trivial
        · rw [hstage]
          exact fun heq => hcode (congrArg SessionLaunchError.code heq)
  | ran n heard =>
    obtain rfl : heard = true := hok
    exact h.ran laws serves n
  | close n => exact h.close n
  | closeRan n reached => exact h.closeRan laws serves n reached
  | act a => exact h.adds (laws.act s.state a) hok
  | unreachable n => exact hok.elim

theorem TmuxStart.warm (h : TmuxStart s) : Warm config s := by
  have hfree : ∀ id, s.Free id := fun id n args handle hup => by
    rw [Up, h.launches] at hup
    cases hup
  refine ⟨h.held, fun hne => ?_, fun hin => ?_, by simp [h.launches]⟩
  · obtain ⟨w, hw⟩ := List.exists_mem_of_ne_nil _ hne
    exact ⟨w, hw, hfree _⟩
  · obtain ⟨id, hid⟩ := hin
    exact ⟨id, hid, hfree _⟩

end Ccctl.Server
