import Ccctl.Server.Retire
import Ccctl.Server.Shelf
import Ccctl.Server.Stops
/-
  Ccctl.Server.Slots — the cap on launches.

  A launch is counted in one of two places: by its reservation while the launcher is awaited, and by
  its row once the terminal is up. `LaunchStage` follows a launch through the run, from the
  events alone; `Slots` says which place the server counts it in at each stage. No turn, of
  any interleaving, sees a launch in both or in neither (`launch_counted`), and a turn calls the launcher only
  with the launch itself within the cap.

  Nothing is asked of the registrations: one that claims no launch adds a row of its own, and no launch
  is counted differently for it.
-/

namespace Ccctl.Server

open Ccctl.Core Ccctl.Lib ServerState

/-! ## A launch through a run -/

/-- How far a launch got: the launcher is awaited, it failed, its row is there, its row is gone. -/
inductive LaunchStage where
  | inFlight
  | failed
  | placed (sessionId : SessionId)
  | removed (sessionId : SessionId)
  deriving DecidableEq, Repr

/-- The launches of a run, each by the call that launched it. -/
abbrev LaunchLog := OpId → Option LaunchStage

/-- The session a launch made. -/
def LaunchStage.session : LaunchStage → Option SessionId
  | .placed id | .removed id => some id
  | _ => none

/-- A row goes when its session is dropped or ended. -/
def LaunchStage.after (s : ServerState) (e : Event) : LaunchStage → LaunchStage
  | .placed id =>
    match observe s e id with
    | .dropped | .ended => .removed id
    | _ => .placed id
  | stage => stage

/-- The launch a turn is about, and how far it brings it. -/
def launchTurn (s : ServerState) (e : Event) : Option (OpId × LaunchStage) :=
  match e, reply s e with
  | .launchSession _ _, .none => some (s.next, .inFlight)
  | .launchOpened op _ _, .launched id _ _ => some (op, .placed id)
  | .launchFailed op _ _, .failure _ _ _ => some (op, .failed)
  | _, _ => none

/-- The other launches, as the turn leaves them. -/
def LaunchLog.aged (s : ServerState) (e : Event) (log : LaunchLog) : LaunchLog :=
  fun op => (log op).map (LaunchStage.after s e)

def launchWatch (s : ServerState) (e : Event) (log : LaunchLog) : LaunchLog :=
  match launchTurn s e with
  | none => log.aged s e
  | some (op, stage) => Function.update (log.aged s e) op (some stage)

/-- The server watched for its launches. -/
abbrev LaunchRun : ServerState × LaunchLog → Prop :=
  Reach (watched step launchWatch) (fun p => Booted p.1 ∧ p.2 = fun _ => none) anyEvent

theorem LaunchRun.reachable {p : ServerState × LaunchLog} (h : LaunchRun p) : Reachable p.1 :=
  h.machine (fun _ hp => hp.1) fun _ _ _ => trivial

/-- How often `liveSessionCount` counts a launch: its reservations, and its session's rows. -/
def counted (s : ServerState) (log : LaunchLog) (op : OpId) : Nat :=
  s.launchReservations.count op + (((log op).bind LaunchStage.session).map s.sessions.keys.count).getD 0

/-- How often a launch is to be counted. -/
def LaunchStage.slots : LaunchStage → Nat
  | .inFlight | .placed _ => 1
  | .failed | .removed _ => 0

/-! ## What a turn does to the launches -/

/-- The launcher was called, and has not answered. -/
def Launching (s : ServerState) (op : OpId) : Prop := ∃ options hook, s.ops.get op = some (.launching options hook)

/-- No launch is awaited that was not. -/
def NoneBegun (s s' : ServerState) : Prop :=
  ∀ op options hook, s'.ops.get op = some (.launching options hook) → s.ops.get op = some (.launching options hook)

theorem NoneBegun.launching {s s' : ServerState} (h : NoneBegun s s') {op : OpId} (hop : Launching s' op) :
    Launching s op := by
  obtain ⟨options, hook, hop⟩ := hop
  exact ⟨options, hook, h op options hook hop⟩

theorem NoneBegun.of_ops {s s' : ServerState} (h : s'.ops = s.ops) : NoneBegun s s' := by
  intro op options hook hop
  rwa [h] at hop

theorem NoneBegun.finish {s s' : ServerState} {op : OpId} (h : s'.ops = s.ops.erase op) : NoneBegun s s' := by
  intro other options hook hop
  rw [h] at hop
  exact (OrdMap.get_erase_of_some hop).2

/-- A call that awaits something else. -/
theorem NoneBegun.park {s s' : ServerState} {n : OpId} {at_ : Op} (h : s'.ops = s.ops.set n at_)
    (hat : ∀ options hook, at_ ≠ .launching options hook) : NoneBegun s s' := by
  intro op options hook hop
  rw [h, OrdMap.get_set] at hop
  split at hop
  · exact absurd (Option.some.inj hop) (hat options hook)
  · exact hop

theorem evictPendingLaunch_begins (s : ServerState) (id : SessionId) : NoneBegun s (evictPendingLaunch s id) := by
  obtain ⟨_, _, hconsumed⟩ := consumePendingLaunch_writes s id
  have hdropped : (dropPlaceholder (consumePendingLaunch s id).1 id).ops = s.ops := by
    rw [dropPlaceholder_ops, hconsumed]
  rcases evictPendingLaunch_cases s id with ⟨-, heq⟩ | ⟨_, -, ⟨-, heq⟩ | ⟨-, heq⟩⟩
  · rw [heq]
    exact .of_ops rfl
  · rw [heq]
    exact .of_ops hdropped
  · rw [heq]
    exact .park rfl fun _ _ h => by cases h

theorem noneBegun_step {s : ServerState} {e : Event} (he : ∀ options hookOk, e ≠ .launchSession options hookOk) :
    NoneBegun s (step s e) := by
  cases e with
  | launchSession options hookOk => exact absurd rfl (he options hookOk)
  | launchOpened op attachable hint =>
    simp only [step, turn, launchSettled]
    split
    · rename_i options hook _
      rw [launchOpened_eq]
      exact .finish rfl
    · exact .of_ops rfl
  | launchFailed op code message =>
    simp only [step, turn, launchSettled]
    split
    · rename_i options hook _
      rw [launchFailed_eq]
      exact .finish rfl
    · exact .of_ops rfl
  | sessionCreate terminal cwd mode =>
    obtain ⟨_, _, _, _, _, heq⟩ := claimPendingLaunch_writes s cwd mode
    refine .of_ops ?_
    simp only [step, turn, handleSessionCreate, heq]
  | stopSession id force =>
    rcases stopSession_cases s id force with ⟨_, _, _, heq⟩ | ⟨_, -, -, heq⟩
    · simp only [step, turn, heq]
      exact .of_ops rfl
    · simp only [step, turn, heq]
      exact .park rfl fun _ _ h => by cases h
  | livenessSettled caller reading =>
    intro op options hook hop
    by_cases heq : op = caller
    · subst heq
      cases livenessSettled_self hop with
      | other h _ => exact h
    · exact (livenessSettled_other heq reading).symm.trans hop
  | closeSettled op fulfilled =>
    simp only [step, turn, closeSettled]
    split
    · exact .finish rfl
    · unfold stopClosed
      split
      · exact .park rfl fun _ _ h => by cases h
      · exact .finish rfl
    · exact .finish rfl
    · exact .of_ops rfl
  | fire t =>
    simp only [step, turn, fire]
    split
    · exact .of_ops rfl
    · split
      · exact .of_ops rfl
      · split
        · exact .of_ops (writeLivenessFrame_aside _ _ _).ops
        · exact evictPendingLaunch_begins (s.clearTimeout (some t)) _
        · exact .of_ops (considerEviction_aside _ _ _).ops
        · exact .of_ops (fireIdleEvent_aside _ _ _).ops
  | shutdown =>
    intro op options hook hop
    obtain ⟨_, _, _, _, ops, _, heq, -, -, hops⟩ := shutdown_eq s
    have hop' : (shutdown s).ops.get op = some (.launching options hook) := hop
    rw [heq] at hop'
    rcases hops op _ hop' with hold | ⟨⟨launched, hrelease⟩, -, -⟩
    · exact hold
    · cases hrelease
  | advance _ | changeDisk _ | writeHookFile _ _ | workerRegister _ | workerEventsStream _ | workerStreamClosed _
  | workerEvent _ _ _ | workerStatus _ _ | workerHeartbeat _ | uiEventStream _ _ | uiStreamClosed _ _ | uiCommand _ _
  | injectTurn _ _ => exact .of_ops (aside_step s rfl).ops

/-- A launch begins within the cap, settles as opened or failed, or the turn is about something else. -/
inductive LaunchTurn (s : ServerState) (e : Event) : Option (OpId × LaunchStage) → Prop where
  | began (hres : (step s e).launchReservations = s.launchReservations ++ [s.next])
      (hcap : liveSessionCount (step s e) ≤ s.config.maxSessions) (hlt : s.next < (step s e).next)
      (hops : ∀ op, Launching (step s e) op → Launching s op ∨ op = s.next) :
      LaunchTurn s e (some (s.next, .inFlight))
  | opened {op : OpId} {row : Session} (hop : Launching s op)
      (hres : (step s e).launchReservations = s.launchReservations.filter (· ≠ op))
      (hact : observe s e s.next = .placed row) (hlt : s.next < (step s e).next)
      (hops : NoneBegun s (step s e)) (hgone : ¬ Launching (step s e) op) : LaunchTurn s e (some (op, .placed s.next))
  | failed {op : OpId} (hop : Launching s op)
      (hres : (step s e).launchReservations = s.launchReservations.filter (· ≠ op))
      (hops : NoneBegun s (step s e)) (hgone : ¬ Launching (step s e) op) : LaunchTurn s e (some (op, .failed))
  | aside (hres : (step s e).launchReservations = s.launchReservations) (hops : NoneBegun s (step s e)) :
      LaunchTurn s e none

theorem launchSession_turn (s : ServerState) (options : SessionLaunchOptions) (hookOk : Bool) :
    LaunchTurn s (.launchSession options hookOk) (launchTurn s (.launchSession options hookOk)) := by
  rcases launchSession_cases s options hookOk with ⟨status, code, message, heq⟩ |
    ⟨cwd, hook, next, files, heq, hnext, hroom, -⟩
  · have ht : launchTurn s (.launchSession options hookOk) = none := by simp [launchTurn, reply, turn, heq]
    have hstill : step s (.launchSession options hookOk) = s := congrArg Prod.fst heq
    rw [ht]
    exact .aside (by rw [hstill]) (by rw [hstill]; exact .of_ops rfl)
  · have ht : launchTurn s (.launchSession options hookOk) = some (s.next, .inFlight) := by
      simp [launchTurn, reply, turn, heq]
    have hstep := congrArg Prod.fst heq
    have hbegun : step s (.launchSession options hookOk) = (launchSession s options hookOk).1 := rfl
    rw [ht]
    rw [hstep] at hbegun
    refine .began ?_ ?_ ?_ ?_
    · rw [hbegun]
    · rw [hbegun]
      simp only [liveSessionCount, List.length_append, List.length_singleton] at hroom ⊢
      omega
    · rw [hbegun]
      exact hnext
    · intro op hop
      obtain ⟨options', hook', hop⟩ := hop
      rw [hbegun] at hop
      simp only [OrdMap.get_set] at hop
      split at hop
      · exact Or.inr ‹_›
      · exact Or.inl ⟨options', hook', hop⟩

/-- The launcher's answer to a call it did not get. -/
theorem launchSettled_still {s : ServerState} {op : OpId} (h : ¬ Launching s op)
    (answer : SessionLaunchOptions → Option HookInstall → ServerState × Reply) :
    launchSettled s op answer = (s, .none) := by
  unfold launchSettled
  split
  · rename_i options hook hop
    exact absurd ⟨options, hook, hop⟩ h
  · rfl

/-- A call that returned is not awaited. -/
theorem not_launching {s : ServerState} {op : OpId} (h : s.ops.get op = none) : ¬ Launching s op := by
  intro hop
  obtain ⟨options, hook, hop⟩ := hop
  rw [h] at hop
  cases hop

theorem launchOpened_turn (s : ServerState) (op : OpId) (attachable : Bool) (hint : String) :
    LaunchTurn s (.launchOpened op attachable hint) (launchTurn s (.launchOpened op attachable hint)) := by
  have hops : NoneBegun s (step s (.launchOpened op attachable hint)) := noneBegun_step fun _ _ h => by cases h
  by_cases hlaunching : Launching s op
  · obtain ⟨options, hook, hop⟩ := hlaunching
    have heq : turn s (.launchOpened op attachable hint) = launchOpened s op options hook attachable hint := by
      simp [turn, launchSettled, hop]
    have ht : launchTurn s (.launchOpened op attachable hint) = some (op, .placed s.next) := by
      simp [launchTurn, reply, heq, launchOpened]
    rw [ht]
    have hact : observe s (.launchOpened op attachable hint) s.next =
        .placed (createRegisteringSession s.next options.permissionMode s.now) := by simp only [observe, hop, if_pos]
    refine .opened ⟨options, hook, hop⟩ ?_ hact ?_ hops (not_launching ?_)
    · show (turn s _).1.launchReservations = _
      rw [heq, launchOpened_eq]
    · show s.next < (turn s _).1.next
      rw [heq]
      exact (launchOpened_onward s op options hook attachable hint).next
    · show (turn s _).1.ops.get op = none
      rw [heq, launchOpened_eq]
      exact OrdMap.get_erase_self _ _
  · have hstill := launchSettled_still hlaunching fun options hook => launchOpened s op options hook attachable hint
    have ht : launchTurn s (.launchOpened op attachable hint) = none := by simp [launchTurn, reply, turn, hstill]
    rw [ht]
    exact .aside (congrArg (fun x => x.1.launchReservations) hstill) hops

theorem launchFailed_turn (s : ServerState) (op : OpId) (code : LaunchFailureCode) (message : String) :
    LaunchTurn s (.launchFailed op code message) (launchTurn s (.launchFailed op code message)) := by
  have hops : NoneBegun s (step s (.launchFailed op code message)) := noneBegun_step fun _ _ h => by cases h
  by_cases hlaunching : Launching s op
  · obtain ⟨options, hook, hop⟩ := hlaunching
    have heq : turn s (.launchFailed op code message) = launchFailed s op hook code message := by
      simp [turn, launchSettled, hop]
    have ht : launchTurn s (.launchFailed op code message) = some (op, .failed) := by
      simp [launchTurn, reply, heq, launchFailed, writeLaunchFailure]
    rw [ht]
    refine .failed ⟨options, hook, hop⟩ ?_ hops (not_launching ?_)
    · show (turn s _).1.launchReservations = _
      rw [heq, launchFailed_eq]
    · show (turn s _).1.ops.get op = none
      rw [heq, launchFailed_eq]
      exact OrdMap.get_erase_self _ _
  · have hstill := launchSettled_still hlaunching fun _ hook => launchFailed s op hook code message
    have ht : launchTurn s (.launchFailed op code message) = none := by simp [launchTurn, reply, turn, hstill]
    rw [ht]
    exact .aside (congrArg (fun x => x.1.launchReservations) hstill) hops

theorem launchTurn_spec (s : ServerState) (e : Event) : LaunchTurn s e (launchTurn s e) := by
  cases e with
  | launchSession options hookOk => exact launchSession_turn s options hookOk
  | launchOpened op attachable hint => exact launchOpened_turn s op attachable hint
  | launchFailed op code message => exact launchFailed_turn s op code message
  | writeHookFile path entry => cases entry <;> exact .aside rfl (.of_ops rfl)
  | _ => exact .aside (shelved_step s rfl).reserved (noneBegun_step fun _ _ h => by cases h)

/-! ## Where a launch is counted -/

/-- The sessions the launches of the log made. -/
structure Rows (s : ServerState) (log : LaunchLog) : Prop where
  placed : ∀ op id, log op = some (.placed id) → s.sessions.get id ≠ none
  removed : ∀ op id, log op = some (.removed id) → s.sessions.get id = none
  minted : ∀ op id, (log op).bind LaunchStage.session = some id → id < s.next
  distinct : ∀ op other id, (log op).bind LaunchStage.session = some id →
    (log other).bind LaunchStage.session = some id → op = other

/-- The reservations are those of the launches in flight, each once. -/
def Reserved (reservations : List OpId) (log : LaunchLog) : Prop :=
  ∀ op, reservations.count op = if log op = some .inFlight then 1 else 0

/-- Each launch of the log is where the server counts it. -/
structure Slots (s : ServerState) (log : LaunchLog) : Prop extends Rows s log where
  reserved : Reserved s.launchReservations log
  launching : ∀ op, Launching s op → log op = some .inFlight
  unborn : ∀ op, s.next ≤ op → log op = none

section After

variable {s : ServerState} {e : Event} {stage stage' : LaunchStage} {id : SessionId}

theorem LaunchStage.after_session (s : ServerState) (e : Event) (stage : LaunchStage) :
    (stage.after s e).session = stage.session := by
  cases stage with
  | placed id =>
    simp only [LaunchStage.after]
    split <;> rfl
  | _ => rfl

theorem LaunchStage.after_inFlight (h : stage.after s e = .inFlight) : stage = .inFlight := by
  cases stage with
  | inFlight => rfl
  | placed id =>
    simp only [LaunchStage.after] at h
    split at h <;> cases h
  | _ => cases h

theorem LaunchStage.after_placed (h : stage.after s e = .placed id) :
    stage = .placed id ∧ observe s e id ≠ .dropped ∧ observe s e id ≠ .ended := by
  cases stage with
  | placed id' =>
    simp only [LaunchStage.after] at h
    split at h
    · cases h
    · cases h
    · rename_i hdropped hended
      cases h
      exact ⟨rfl, hdropped, hended⟩
  | _ => cases h

theorem LaunchStage.after_removed (h : stage.after s e = .removed id) :
    stage = .removed id ∨ (stage = .placed id ∧ (observe s e id = .dropped ∨ observe s e id = .ended)) := by
  cases stage with
  | removed id' =>
    cases h
    exact Or.inl rfl
  | placed id' =>
    simp only [LaunchStage.after] at h
    split at h
    · rename_i hact
      cases h
      exact Or.inr ⟨rfl, Or.inl hact⟩
    · rename_i hact
      cases h
      exact Or.inr ⟨rfl, Or.inr hact⟩
    · cases h
  | _ => cases h

end After

namespace LaunchLog

variable {s : ServerState} {e : Event} {log : LaunchLog} {op : OpId}

theorem aged_session (s : ServerState) (e : Event) (log : LaunchLog) (op : OpId) :
    (log.aged s e op).bind LaunchStage.session = (log op).bind LaunchStage.session := by
  unfold aged
  cases log op with
  | none => rfl
  | some stage => exact stage.after_session s e

theorem aged_inFlight : log.aged s e op = some .inFlight ↔ log op = some .inFlight := by
  unfold aged
  constructor
  · intro h
    obtain ⟨stage, hop, hafter⟩ := Option.map_eq_some_iff.mp h
    rw [hop, LaunchStage.after_inFlight hafter]
  · intro h
    rw [h]
    rfl

theorem aged_none (h : log op = none) : log.aged s e op = none := by rw [aged, h, Option.map_none]

end LaunchLog

/-! ### The rows -/

section Rows

variable {s : ServerState} {id : SessionId}

/-- Only a drop and an end take a row. -/
theorem row_stays (hg : Grounded s) {e : Event} (hrow : s.sessions.get id ≠ none) (hdropped : observe s e id ≠ .dropped)
    (hended : observe s e id ≠ .ended) : (step s e).sessions.get id ≠ none := by
  intro hgone
  have hstep : ((chan s id).step (observe s e id)).row = none := by
    rw [← chan_step hg.timers hg.ok e id]
    exact hgone
  rcases Chan.row_taken hrow hstep with hact | hact
  · exact hdropped hact
  · exact hended hact

theorem row_goes (hg : Grounded s) {e : Event} (hact : observe s e id = .dropped ∨ observe s e id = .ended) :
    (step s e).sessions.get id = none := by
  have hmove : (chan (step s e) id).row = ((chan s id).step (observe s e id)).row :=
    congrArg Chan.row (chan_step hg.timers hg.ok e id)
  rcases hact with hact | hact
  · rw [hact] at hmove
    exact hmove
  · rw [hact] at hmove
    exact hmove

/-- A row that is gone does not come back. -/
theorem row_gone (hg : Grounded s) {e : Event} (hrow : s.sessions.get id = none) (hlt : id < s.next) :
    (step s e).sessions.get id = none := by
  by_contra hback
  have hmove : (chan (step s e) id).row = ((chan s id).step (observe s e id)).row :=
    congrArg Chan.row (chan_step hg.timers hg.ok e id)
  have hborn := (hg.ok id).row_born (observe_enabled hg.timers e id) hrow (hmove ▸ hback)
  exact absurd (observe_births hborn).1 (Nat.ne_of_lt hlt)

end Rows

namespace Rows

variable {s : ServerState} {log : LaunchLog}

theorem aged (h : Rows s log) (hg : Grounded s) (e : Event) : Rows (step s e) (log.aged s e) where
  placed op id hop := by
    obtain ⟨stage, hstage, hafter⟩ := Option.map_eq_some_iff.mp hop
    obtain ⟨rfl, hdropped, hended⟩ := LaunchStage.after_placed hafter
    exact row_stays hg (h.placed op id hstage) hdropped hended
  removed op id hop := by
    obtain ⟨stage, hstage, hafter⟩ := Option.map_eq_some_iff.mp hop
    rcases LaunchStage.after_removed hafter with rfl | ⟨rfl, hact⟩
    · refine row_gone hg (h.removed op id hstage) (h.minted op id ?_)
      rw [hstage]
      rfl
    · exact row_goes hg hact
  minted op id hop := by
    rw [LaunchLog.aged_session] at hop
    exact (h.minted op id hop).trans_le (next_le_step s e)
  distinct op other id hop hother := by
    rw [LaunchLog.aged_session] at hop hother
    exact h.distinct op other id hop hother

/-- A launch that comes to a new stage: the session it makes, if any, is a new one. -/
theorem settle (h : Rows s log) {op : OpId} {stage : LaunchStage} (hremoved : ∀ id, stage ≠ .removed id)
    (hplaced : ∀ id, stage.session = some id → s.sessions.get id ≠ none ∧ id < s.next ∧
      ∀ other, (log other).bind LaunchStage.session ≠ some id) :
    Rows s (Function.update log op (some stage)) := by
  have hentry : ∀ {other : OpId} {stage' : LaunchStage}, Function.update log op (some stage) other = some stage' →
      (other = op ∧ stage = stage') ∨ log other = some stage' := by
    intro other stage' hother
    by_cases heq : other = op
    · subst heq
      rw [Function.update_self, Option.some.injEq] at hother
      exact Or.inl ⟨rfl, hother⟩
    · rw [Function.update_of_ne heq] at hother
      exact Or.inr hother
  have hsession : ∀ {other : OpId} {id : SessionId},
      (Function.update log op (some stage) other).bind LaunchStage.session = some id →
        (other = op ∧ stage.session = some id) ∨ (log other).bind LaunchStage.session = some id := by
    intro other id hother
    obtain ⟨stage', hstage, hid⟩ := Option.bind_eq_some_iff.mp hother
    rcases hentry hstage with ⟨heq, rfl⟩ | hold
    · exact Or.inl ⟨heq, hid⟩
    · exact Or.inr (Option.bind_eq_some_iff.mpr ⟨stage', hold, hid⟩)
  refine ⟨?_, ?_, ?_, ?_⟩
  · intro other id hother
    rcases hentry hother with ⟨-, rfl⟩ | hold
    · exact (hplaced id rfl).1
    · exact h.placed other id hold
  · intro other id hother
    rcases hentry hother with ⟨-, rfl⟩ | hold
    · exact absurd rfl (hremoved id)
    · exact h.removed other id hold
  · intro other id hother
    rcases hsession hother with ⟨-, hid⟩ | hold
    · exact (hplaced id hid).2.1
    · exact h.minted other id hold
  · intro other third id hother hthird
    rcases hsession hother with ⟨heq, hid⟩ | hold
    · rcases hsession hthird with ⟨heq', -⟩ | hold'
      · rw [heq, heq']
      · exact absurd hold' ((hplaced id hid).2.2 third)
    · rcases hsession hthird with ⟨-, hid⟩ | hold'
      · exact absurd hold ((hplaced id hid).2.2 other)
      · exact h.distinct other third id hold hold'

end Rows

/-! ### The reservations -/

section Reservations

variable {reservations : List OpId} {log : LaunchLog}

theorem Reserved.begin (h : Reserved reservations log) {op : OpId} (hnew : log op = none) :
    Reserved (reservations ++ [op]) (Function.update log op (some .inFlight)) := by
  intro other
  rw [List.count_append, h other]
  by_cases heq : other = op
  · subst heq
    rw [hnew, Function.update_self]
    simp
  · rw [Function.update_of_ne heq, List.count_eq_zero_of_not_mem (by simpa using heq), Nat.add_zero]

theorem Reserved.settle (h : Reserved reservations log) {op : OpId} {stage : LaunchStage} (hdone : stage ≠ .inFlight) :
    Reserved (reservations.filter (· ≠ op)) (Function.update log op (some stage)) := by
  intro other
  by_cases heq : other = op
  · subst heq
    rw [Function.update_self, List.count_eq_zero_of_not_mem (by simp), if_neg]
    exact fun h => hdone (Option.some.inj h)
  · rw [Function.update_of_ne heq, List.count_filter (by simpa using heq)]
    exact h other

theorem Reserved.aged (h : Reserved reservations log) (s : ServerState) (e : Event) :
    Reserved reservations (log.aged s e) := by
  intro op
  rw [h op]
  simp only [LaunchLog.aged_inFlight]

end Reservations

namespace Slots

variable {s : ServerState} {log : LaunchLog}

/-- A launch in flight was minted. -/
theorem called (h : Slots s log) {op : OpId} (hop : Launching s op) : op < s.next := by
  by_contra hle
  have hnone := h.unborn op (Nat.not_lt.mp hle)
  rw [h.launching op hop] at hnone
  cases hnone

theorem aged_launching (h : Slots s log) (e : Event) {op : OpId} (hop : Launching s op) :
    log.aged s e op = some .inFlight := LaunchLog.aged_inFlight.mpr (h.launching op hop)

theorem aged_unborn (h : Slots s log) (e : Event) {op : OpId} (hle : (step s e).next ≤ op) : log.aged s e op = none :=
  LaunchLog.aged_none (h.unborn op ((next_le_step s e).trans hle))

/-- A launch that settles leaves the launches in flight. -/
theorem settled (h : Slots s log) {e : Event} {op : OpId} {stage : LaunchStage} (hop : Launching s op)
    (hdone : stage ≠ .inFlight) (hrows : Rows (step s e) (Function.update (log.aged s e) op (some stage)))
    (hres : (step s e).launchReservations = s.launchReservations.filter (· ≠ op)) (hops : NoneBegun s (step s e))
    (hgone : ¬ Launching (step s e) op) : Slots (step s e) (Function.update (log.aged s e) op (some stage)) := by
  refine ⟨hrows, ?_, ?_, ?_⟩
  · rw [hres]
    exact (h.reserved.aged s e).settle hdone
  · intro other hother
    have hne : other ≠ op := by
      intro heq
      subst heq
      exact hgone hother
    rw [Function.update_of_ne hne]
    exact h.aged_launching e (hops.launching hother)
  · intro other hle
    have hne : other ≠ op := by
      intro heq
      subst heq
      exact absurd ((h.called hop).trans_le (next_le_step s e)) (Nat.not_lt.mpr hle)
    rw [Function.update_of_ne hne]
    exact h.aged_unborn e hle

theorem step (h : Slots s log) (hg : Grounded s) (e : Event) : Slots (step s e) (launchWatch s e log) := by
  have hrows := h.toRows.aged hg e
  have hspec := launchTurn_spec s e
  unfold launchWatch
  generalize launchTurn s e = made at hspec
  cases hspec with
  | aside hres hops =>
    refine ⟨hrows, ?_, fun op hop => h.aged_launching e (hops.launching hop), fun op hle => h.aged_unborn e hle⟩
    rw [hres]
    exact h.reserved.aged s e
  | began hres hcap hlt hops =>
    have hnew : log.aged s e s.next = none := LaunchLog.aged_none (h.unborn s.next (Nat.le_refl _))
    refine ⟨hrows.settle (fun _ h => by cases h) (fun _ h => by cases h), ?_, ?_, ?_⟩
    · rw [hres]
      exact (h.reserved.aged s e).begin hnew
    · intro op hop
      by_cases heq : op = s.next
      · subst heq
        exact Function.update_self ..
      · simp only [Function.update_of_ne heq]
        rcases hops op hop with hold | hnew
        · exact h.aged_launching e hold
        · exact absurd hnew heq
    · intro op hle
      have hne : op ≠ s.next := Ne.symm (Nat.ne_of_lt (hlt.trans_le hle))
      simp only [Function.update_of_ne hne]
      exact h.aged_unborn e hle
  | opened hop hres hact hlt hops hgone =>
    refine h.settled hop (fun h => by cases h) (hrows.settle (fun _ h => by cases h) ?_) hres hops hgone
    intro id hid
    cases hid
    refine ⟨?_, hlt, ?_⟩
    · have hmove : (chan (Server.step s e) s.next).row = ((chan s s.next).step (observe s e s.next)).row :=
        congrArg Chan.row (chan_step hg.timers hg.ok e s.next)
      rw [hact] at hmove
      intro hnone
      cases hmove.symm.trans hnone
    · intro other hother
      rw [LaunchLog.aged_session] at hother
      exact absurd (h.minted other _ hother) (Nat.lt_irrefl _)
  | failed hop hres hops hgone =>
    exact h.settled hop (fun h => by cases h) (hrows.settle (fun _ h => by cases h) fun _ h => by cases h)
      hres hops hgone

theorem boot (image : BootImage) : Slots (startServer image) fun _ => none where
  placed _ _ h := by cases h
  removed _ _ h := by cases h
  minted _ _ h := by cases h
  distinct _ _ _ h := by cases h
  reserved _ := rfl
  launching _ h := by
    obtain ⟨_, _, hop⟩ := h
    cases hop
  unborn _ _ := rfl

/-- Where a launch stands is what `liveSessionCount` counts it for. -/
theorem counted_eq (h : Slots s log) (op : OpId) : counted s log op = ((log op).map LaunchStage.slots).getD 0 := by
  unfold counted
  rw [h.reserved op]
  cases hop : log op with
  | none => simp
  | some stage =>
    cases stage with
    | inFlight => simp [LaunchStage.session, LaunchStage.slots]
    | failed => simp [LaunchStage.session, LaunchStage.slots]
    | placed id =>
      have hrow := h.placed op id hop
      simp [LaunchStage.session, LaunchStage.slots, OrdMap.count_keys, hrow]
    | removed id =>
      have hrow := h.removed op id hop
      simp [LaunchStage.session, LaunchStage.slots, OrdMap.count_keys, hrow]

end Slots

theorem LaunchRun.slots {p : ServerState × LaunchLog} (h : LaunchRun p) : Slots p.1 p.2 := by
  induction h with
  | start hp =>
    obtain ⟨⟨image, himage⟩, hnone⟩ := hp
    rw [himage, hnone]
    exact .boot image
  | @step p e hr _ ih => exact ih.step (LaunchRun.reachable hr).grounded e

/-- A turn that calls the launcher leaves no more than the cap, the launch itself counted. And a launch is counted
    once from its reservation until it fails, or its row is dropped or ended, and then never again; no two launches
    are counted by one row. -/
theorem launch_counted {p : ServerState × LaunchLog} (h : LaunchRun p) :
    (∀ e op, Launching (step p.1 e) op → ¬ Launching p.1 op →
      launchWatch p.1 e p.2 op = some .inFlight ∧ liveSessionCount (step p.1 e) ≤ p.1.config.maxSessions) ∧
    (∀ op, counted p.1 p.2 op = ((p.2 op).map LaunchStage.slots).getD 0) ∧
    ∀ op other id, (p.2 op).bind LaunchStage.session = some id → (p.2 other).bind LaunchStage.session = some id →
      op = other := by
  have hs := h.slots
  refine ⟨?_, hs.counted_eq, hs.distinct⟩
  intro e op hop hnew
  refine ⟨(hs.step h.reachable.grounded e).launching op hop, ?_⟩
  have hspec := launchTurn_spec p.1 e
  generalize launchTurn p.1 e = made at hspec
  cases hspec with
  | began _ hcap _ _ => exact hcap
  | opened _ _ _ _ hops _ | failed _ _ hops _ | aside _ hops => exact absurd (hops.launching hop) hnew

/-- Two launches at once: one opens and its worker registers, the other fails. -/
def launchedTwice : List Event :=
  [.launchSession ⟨js "/w", .default, none, none⟩ false, .launchSession ⟨js "/v", .default, none, none⟩ true,
    .launchOpened 0 true "", .launchFailed 1 .spawnFailed "", .sessionCreate (some 0) (js "/w") .default]

def launchedTwiceRun : ServerState × LaunchLog :=
  runFrom (watched step launchWatch) (freshServer, fun _ => none) launchedTwice

theorem launchedTwiceRun_run : LaunchRun launchedTwiceRun := (Reach.start ⟨freshServer_booted, rfl⟩).run

theorem launch_counted_twice :
    launchedTwiceRun.2 0 = some (.placed 3) ∧ counted launchedTwiceRun.1 launchedTwiceRun.2 0 = 1 ∧
      launchedTwiceRun.2 1 = some .failed ∧ counted launchedTwiceRun.1 launchedTwiceRun.2 1 = 0 ∧
      liveSessionCount (step launchedTwiceRun.1 (.launchSession ⟨js "/w", .default, none, none⟩ false)) ≤ 8 := by
  have hcount := launch_counted launchedTwiceRun_run
  refine ⟨by decide, (hcount.2.1 0).trans (by decide), by decide, (hcount.2.1 1).trans (by decide), ?_⟩
  refine (hcount.1 (.launchSession ⟨js "/w", .default, none, none⟩ false) 6 ⟨_, _, rfl⟩ ?_).2
  exact not_launching rfl

end Ccctl.Server
