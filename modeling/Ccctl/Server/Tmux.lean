import Ccctl.Core.Loopback
/-
  Ccctl.Server.Tmux — the tmux a launcher runs its commands on.

  What it keeps and how it answers is its own: `Tmux` has a command for each that the launcher runs,
  and `act` for everything else that can happen to it, the operator's commands first. What it
  documents is in `Laws`: a window's id is its own for the life of its server, never given again
  and never moved to another window (`Later`), `kill-window` takes the one window, and `##` is how a
  format says `#`, where no style follows. `Serves` is what it does besides while nothing fails it,
  for a session name that it keeps as it is; a name with a `.` or a `:` it rewrites, and then does
  not find.

  `plainTmux` is a tmux with no formats but `##`.
-/

namespace Ccctl.Server

open Ccctl.Core

/-- What a window is opened with: `-c`, `-n` and the command. -/
structure WindowArgs where
  cwd : JsString
  name : JsString
  argv : List JsString
  deriving DecidableEq, Repr

structure TmuxWindow where
  /-- The number of its `#{window_id}`. -/
  id : Nat
  opened : WindowArgs
  deriving DecidableEq, Repr

structure Tmux where
  State : Type
  /-- Whatever else happens to it: the operator's commands, a program that exits, a server that dies. -/
  Act : Type
  act : State → Act → State
  /-- Which server runs, or ran last, counting. -/
  server : State → Nat
  windows : State → List TmuxWindow
  /-- The ids that server has given out. -/
  given : State → Nat → Prop
  /-- A session of that name has the window. -/
  holds : State → JsString → Nat → Prop
  /-- `has-session -t`. -/
  hasSession : State → JsString → Bool
  /-- `new-session -d -s`, and whether it succeeds. -/
  newSession : State → JsString → State × Bool
  /-- `new-window -P -F '#{window_id} …'`, and the id it prints. -/
  newWindow : State → WindowArgs → State × Option Nat
  /-- `kill-window -t`. -/
  killWindow : State → Nat → State
  /-- A format's expansion. -/
  expand : State → JsString → JsString

/-- A style in a format, where tmux leaves the signs before it alone. -/
def opensStyle (rest : JsString) : Prop := (rest.dropWhile (· = 0x23)).head? = some 0x5B

instance (rest : JsString) : Decidable (opensStyle rest) := inferInstanceAs (Decidable (_ = _))

namespace Tmux

variable (tmux : Tmux)

/-- Where one server can go from `t`: an id it gave out stays with its window. -/
structure Later (t t' : tmux.State) : Prop where
  server : tmux.server t ≤ tmux.server t'
  given : tmux.server t' = tmux.server t → ∀ id, tmux.given t id → tmux.given t' id
  kept : tmux.server t' = tmux.server t → ∀ w ∈ tmux.windows t', tmux.given t w.id → w ∈ tmux.windows t

/-- What tmux documents. -/
structure Laws : Prop where
  ids : ∀ t, ((tmux.windows t).map (·.id)).Nodup
  listed : ∀ t, ∀ w ∈ tmux.windows t, tmux.given t w.id
  act : ∀ t a, tmux.Later t (tmux.act t a)
  newSession : ∀ t name, tmux.Later t (tmux.newSession t name).1
  newWindow : ∀ t args, tmux.Later t (tmux.newWindow t args).1
  killWindow : ∀ t id, tmux.Later t (tmux.killWindow t id)
  /-- The window it prints is new, on the server it was asked of, and opened as it was asked to. -/
  printed : ∀ t args id, (tmux.newWindow t args).2 = some id →
    tmux.server (tmux.newWindow t args).1 = tmux.server t ∧ ¬ tmux.given t id ∧
      tmux.given (tmux.newWindow t args).1 id ∧
      ∀ w ∈ tmux.windows (tmux.newWindow t args).1, w.id = id →
        w.opened = ⟨tmux.expand t args.cwd, tmux.expand t args.name, args.argv⟩
  killed : ∀ t id, tmux.windows (tmux.killWindow t id) = (tmux.windows t).filter (·.id ≠ id)
  expand_nil : ∀ t, tmux.expand t [] = []
  expand_plain : ∀ t u rest, u ≠ 0x23 → tmux.expand t (u :: rest) = u :: tmux.expand t rest
  expand_sign : ∀ t rest, ¬ opensStyle rest → tmux.expand t (0x23 :: 0x23 :: rest) = 0x23 :: tmux.expand t rest

/-- Nothing goes, and a session that was not there comes with a window of its own. -/
structure Adds (t t' : tmux.State) : Prop where
  server : tmux.windows t ≠ [] → tmux.server t' = tmux.server t
  windows : tmux.windows t ⊆ tmux.windows t'
  holds : ∀ name id, tmux.holds t name id → tmux.holds t' name id
  started : ∀ name id, tmux.holds t' name id →
    (∃ id, tmux.holds t name id) ∨ ∃ id, tmux.holds t' name id ∧ (tmux.server t' = tmux.server t → ¬ tmux.given t id)

/-- What it does while nothing fails it, with a session name that it keeps. -/
structure Serves (name : JsString) : Prop where
  held : ∀ t name id, tmux.holds t name id → ∃ w ∈ tmux.windows t, w.id = id
  found : ∀ t, (∃ id, tmux.holds t name id) → tmux.hasSession t name = true
  stands : ∀ t, tmux.hasSession t name = true → tmux.windows t ≠ []
  /-- Made or a duplicate, the session is there. -/
  created : ∀ t, ∃ id, tmux.holds (tmux.newSession t name).1 name id
  newSession : ∀ t, tmux.Adds t (tmux.newSession t name).1
  newWindow : ∀ t args, tmux.windows t ≠ [] →
    tmux.Adds t (tmux.newWindow t args).1 ∧ (tmux.newWindow t args).2.isSome = true
  /-- `new-window` opens in a session that is there. -/
  into : ∀ t args name id, tmux.holds (tmux.newWindow t args).1 name id → ∃ id, tmux.holds t name id
  /-- A server outlives a window while it has another, and so does a session. -/
  survives : ∀ t id, tmux.windows (tmux.killWindow t id) ≠ [] → tmux.server (tmux.killWindow t id) = tmux.server t
  left : ∀ t id name other, tmux.holds (tmux.killWindow t id) name other ↔ tmux.holds t name other ∧ other ≠ id

end Tmux

/-! ## A tmux -/

/-- The windows, each under its session. -/
structure PlainTmux where
  server : Nat
  nextWindow : Nat
  rows : List (JsString × TmuxWindow)
  ids : ((rows.map Prod.snd).map (·.id)).Nodup
  born : ∀ w ∈ rows.map Prod.snd, w.id < nextWindow

namespace PlainTmux

def windows (t : PlainTmux) : List TmuxWindow := t.rows.map Prod.snd

/-- A window more: of a new server when there was none. -/
def add (t : PlainTmux) (session : JsString) (args : WindowArgs) : PlainTmux :=
  if t.rows = [] then
    { server := t.server + 1
      nextWindow := 1
      rows := [(session, ⟨0, args⟩)]
      ids := by simp
      born := by simp }
  else
    { server := t.server
      nextWindow := t.nextWindow + 1
      rows := t.rows ++ [(session, ⟨t.nextWindow, args⟩)]
      ids := by
        rw [List.map_append, List.map_append, List.nodup_append]
        refine ⟨t.ids, by simp, fun id hid other hother => ?_⟩
        obtain ⟨w, hw, rfl⟩ := List.mem_map.mp hid
        have hnew : other = t.nextWindow := by simpa using hother
        exact hnew ▸ (t.born w hw).ne
      born := fun w hw => by
        rw [List.map_append] at hw
        rcases List.mem_append.mp hw with hw | hw
        · exact (t.born w hw).trans (Nat.lt_succ_self _)
        · rw [List.mem_singleton.mp hw]
          exact Nat.lt_succ_self _ }

def killWindow (t : PlainTmux) (id : Nat) : PlainTmux :=
  { t with
    rows := t.rows.filter fun row => row.2.id ≠ id
    ids := t.ids.sublist ((List.filter_sublist.map _).map _)
    born := fun w hw => t.born w ((List.filter_sublist.map _).subset hw) }

def killServer (t : PlainTmux) : PlainTmux := { t with rows := [], ids := by simp, born := by simp }

theorem moved_windows (rows : List (JsString × TmuxWindow)) (id : Nat) (session : JsString) :
    (rows.map fun row => if row.2.id = id then (session, row.2) else row).map Prod.snd = rows.map Prod.snd := by
  rw [List.map_map]
  refine List.map_congr_left fun row _ => ?_
  simp only [Function.comp]
  split <;> rfl

def moveWindow (t : PlainTmux) (id : Nat) (session : JsString) : PlainTmux :=
  { t with
    rows := t.rows.map fun row => if row.2.id = id then (session, row.2) else row
    ids := (moved_windows t.rows id session).symm ▸ t.ids
    born := (moved_windows t.rows id session).symm ▸ t.born }

def holds (t : PlainTmux) (name : JsString) (id : Nat) : Prop := ∃ w, (name, w) ∈ t.rows ∧ w.id = id

def hasSession (t : PlainTmux) (name : JsString) : Bool := t.rows.any fun row => row.1 = name

/-- `##` is a sign, and nothing else a format. -/
def expand : JsString → JsString
  | [] => []
  | [u] => [u]
  | u :: v :: rest =>
    if u = 0x23 ∧ v = 0x23 then
      if opensStyle rest then 0x23 :: 0x23 :: expand rest else 0x23 :: expand rest
    else u :: expand (v :: rest)

def newSession (t : PlainTmux) (name : JsString) : PlainTmux × Bool :=
  if t.hasSession name then (t, false) else (t.add name ⟨[], [], []⟩, true)

/-- In the oldest session. -/
def newWindow (t : PlainTmux) (args : WindowArgs) : PlainTmux × Option Nat :=
  match t.rows.head? with
  | none => (t, none)
  | some row => (t.add row.1 ⟨expand args.cwd, expand args.name, args.argv⟩, some t.nextWindow)

end PlainTmux

/-- The operator's. -/
inductive PlainAct where
  | opened (session : JsString) (args : WindowArgs)
  | moved (id : Nat) (session : JsString)
  | closed (id : Nat)
  | killServer

def plainTmux : Tmux where
  State := PlainTmux
  Act := PlainAct
  act t
    | .opened session args => t.add session args
    | .moved id session => t.moveWindow id session
    | .closed id => t.killWindow id
    | .killServer => t.killServer
  server := PlainTmux.server
  windows := PlainTmux.windows
  given t id := id < t.nextWindow
  holds := PlainTmux.holds
  hasSession := PlainTmux.hasSession
  newSession := PlainTmux.newSession
  newWindow := PlainTmux.newWindow
  killWindow := PlainTmux.killWindow
  expand _ := PlainTmux.expand

namespace PlainTmux

variable (t : PlainTmux) (session : JsString) (args : WindowArgs)

theorem later_self : plainTmux.Later t t := ⟨Nat.le_refl _, fun _ _ h => h, fun _ _ hw _ => hw⟩

theorem adds_self : plainTmux.Adds t t := ⟨fun _ => rfl, fun _ h => h, fun _ _ h => h, fun _ id h => .inl ⟨id, h⟩⟩

theorem add_next (hne : t.rows ≠ []) : (t.add session args).server = t.server ∧
    (t.add session args).nextWindow = t.nextWindow + 1 ∧
    (t.add session args).rows = t.rows ++ [(session, ⟨t.nextWindow, args⟩)] := by
  unfold add
  rw [if_neg hne]
  exact ⟨rfl, rfl, rfl⟩

theorem windows_add (hne : t.rows ≠ []) : (t.add session args).windows = t.windows ++ [⟨t.nextWindow, args⟩] := by
  rw [windows, (add_next t session args hne).2.2, List.map_append]
  rfl

theorem later_add : plainTmux.Later t (t.add session args) := by
  by_cases hnil : t.rows = []
  · have hserver : (t.add session args).server = t.server + 1 := by
      unfold add
      rw [if_pos hnil]
    have hother : plainTmux.server (t.add session args) ≠ plainTmux.server t := fun h =>
      absurd (hserver.symm.trans h) (Nat.succ_ne_self _)
    exact ⟨(Nat.le_succ _).trans hserver.ge, fun h => absurd h hother, fun h => absurd h hother⟩
  · obtain ⟨hserver, hnext, -⟩ := add_next t session args hnil
    refine ⟨hserver.ge, fun _ id h => (Nat.lt_succ_of_lt h).trans_le hnext.ge, fun _ w hw hgiven => ?_⟩
    have hw : w ∈ (t.add session args).windows := hw
    rw [windows_add t session args hnil] at hw
    rcases List.mem_append.mp hw with hw | hw
    · exact hw
    · rw [List.mem_singleton.mp hw] at hgiven
      exact absurd hgiven (Nat.lt_irrefl _)

theorem later_killWindow (id : Nat) : plainTmux.Later t (t.killWindow id) :=
  ⟨Nat.le_refl _, fun _ _ h => h, fun _ _ hw _ => (List.filter_sublist.map _).subset hw⟩

theorem adds_add : plainTmux.Adds t (t.add session args) := by
  have hgrows : ∀ row ∈ t.rows, row ∈ (t.add session args).rows := by
    intro row hrow
    rw [(add_next t session args (List.ne_nil_of_mem hrow)).2.2]
    exact List.mem_append_left _ hrow
  have hnew : ∀ row ∈ (t.add session args).rows, row ∈ t.rows ∨
      (plainTmux.server (t.add session args) = plainTmux.server t → ¬ row.2.id < t.nextWindow) := by
    intro row hrow
    by_cases hnil : t.rows = []
    · refine .inr fun hserver => absurd hserver ?_
      show (t.add session args).server ≠ t.server
      rw [add, if_pos hnil]
      exact Nat.succ_ne_self _
    · rw [(add_next t session args hnil).2.2] at hrow
      rcases List.mem_append.mp hrow with hrow | hrow
      · exact .inl hrow
      · rw [List.mem_singleton.mp hrow]
        exact .inr fun _ => Nat.lt_irrefl _
  refine ⟨fun hne => ?_, fun w hw => ?_, fun name id hid => ?_, fun name id hid => ?_⟩
  · exact (add_next t session args fun hnil => hne (congrArg (List.map Prod.snd) hnil)).1
  · obtain ⟨row, hrow, rfl⟩ := List.mem_map.mp hw
    exact List.mem_map.mpr ⟨row, hgrows row hrow, rfl⟩
  · obtain ⟨w, hw, hwid⟩ := hid
    exact ⟨w, hgrows _ hw, hwid⟩
  · obtain ⟨w, hw, rfl⟩ := hid
    rcases hnew _ hw with hold | hfresh
    · exact .inl ⟨w.id, w, hold, rfl⟩
    · exact .inr ⟨w.id, ⟨w, hw, rfl⟩, hfresh⟩

theorem holds_add : ∃ id, (t.add session args).holds session id := by
  by_cases hnil : t.rows = []
  · refine ⟨0, ⟨0, args⟩, ?_, rfl⟩
    rw [add, if_pos hnil]
    exact List.mem_singleton_self _
  · refine ⟨t.nextWindow, ⟨t.nextWindow, args⟩, ?_, rfl⟩
    rw [(add_next t session args hnil).2.2]
    exact List.mem_append_right _ (List.mem_singleton_self _)

theorem hasSession_iff {t : PlainTmux} {name : JsString} : t.hasSession name = true ↔ ∃ id, t.holds name id := by
  simp only [hasSession, List.any_eq_true, decide_eq_true_eq]
  constructor
  · intro hex
    obtain ⟨⟨session, w⟩, hrow, rfl⟩ := hex
    exact ⟨w.id, w, hrow, rfl⟩
  · intro hex
    obtain ⟨id, w, hrow, -⟩ := hex
    exact ⟨(name, w), hrow, rfl⟩

end PlainTmux

open PlainTmux

theorem plainTmux_laws : plainTmux.Laws where
  ids := PlainTmux.ids
  listed := PlainTmux.born
  act t a := by
    cases a with
    | opened session args => exact later_add t session args
    | moved id session =>
      refine ⟨Nat.le_refl _, fun _ _ h => h, fun _ w hw _ => ?_⟩
      exact (congrArg (w ∈ ·) (moved_windows t.rows id session)).mp hw
    | closed id => exact later_killWindow t id
    | killServer => exact ⟨Nat.le_refl _, fun _ _ h => h, fun _ _ hw _ => absurd hw List.not_mem_nil⟩
  newSession t name := by
    show plainTmux.Later t (t.newSession name).1
    unfold PlainTmux.newSession
    split
    · exact later_self t
    · exact later_add t name _
  newWindow t args := by
    show plainTmux.Later t (t.newWindow args).1
    unfold PlainTmux.newWindow
    split
    · exact later_self t
    · exact later_add t _ _
  killWindow := later_killWindow
  printed t args id hid := by
    have hid : (t.newWindow args).2 = some id := hid
    show (t.newWindow args).1.server = t.server ∧ ¬ id < t.nextWindow ∧ id < (t.newWindow args).1.nextWindow ∧
      ∀ w ∈ (t.newWindow args).1.windows, w.id = id → w.opened = ⟨expand args.cwd, expand args.name, args.argv⟩
    unfold PlainTmux.newWindow at hid ⊢
    split at hid
    · cases hid
    · rename_i row hrow
      obtain rfl : t.nextWindow = id := by simpa using hid
      have hne : t.rows ≠ [] := fun hnil => by rw [hnil] at hrow; cases hrow
      obtain ⟨hserver, hnext, -⟩ := add_next t row.1 ⟨expand args.cwd, expand args.name, args.argv⟩ hne
      refine ⟨hserver, Nat.lt_irrefl _, (Nat.lt_succ_self _).trans_le hnext.ge, fun w hw hid => ?_⟩
      rw [windows_add t _ _ hne] at hw
      rcases List.mem_append.mp hw with hw | hw
      · exact absurd hid (t.born w hw).ne
      · rw [List.mem_singleton.mp hw]
  killed t id := by
    show (t.rows.filter fun row => row.2.id ≠ id).map Prod.snd = (t.rows.map Prod.snd).filter (·.id ≠ id)
    rw [List.filter_map]
    rfl
  expand_nil _ := rfl
  expand_plain _ u rest hu := by
    cases rest with
    | nil => rfl
    | cons v rest => simp [plainTmux, PlainTmux.expand, hu]
  expand_sign _ rest hrest := by simp [plainTmux, PlainTmux.expand, hrest]

theorem plainTmux_serves (name : JsString) : plainTmux.Serves name where
  held t session id h := by
    obtain ⟨w, hw, hid⟩ := h
    exact ⟨w, List.mem_map.mpr ⟨_, hw, rfl⟩, hid⟩
  found _ h := hasSession_iff.mpr h
  stands t h := by
    obtain ⟨id, w, hw, -⟩ := hasSession_iff.mp h
    exact List.ne_nil_of_mem (List.mem_map.mpr ⟨_, hw, rfl⟩)
  created t := by
    show ∃ id, (t.newSession name).1.holds name id
    unfold PlainTmux.newSession
    split
    · rename_i hfound
      exact hasSession_iff.mp hfound
    · exact holds_add t name _
  newSession t := by
    show plainTmux.Adds t (t.newSession name).1
    unfold PlainTmux.newSession
    split
    · exact adds_self t
    · exact adds_add t name _
  newWindow t args hne := by
    show plainTmux.Adds t (t.newWindow args).1 ∧ (t.newWindow args).2.isSome = true
    unfold PlainTmux.newWindow
    split
    · rename_i hnone
      exact absurd (congrArg (List.map Prod.snd) (List.head?_eq_none_iff.mp hnone)) hne
    · exact ⟨adds_add t _ _, rfl⟩
  into t args session id h := by
    have h : (t.newWindow args).1.holds session id := h
    unfold PlainTmux.newWindow at h
    split at h
    · exact ⟨id, h⟩
    · rename_i row hrow
      have hmem : row ∈ t.rows := List.mem_of_mem_head? hrow
      obtain ⟨w, hw, rfl⟩ := h
      rw [(add_next t _ _ (List.ne_nil_of_mem hmem)).2.2] at hw
      rcases List.mem_append.mp hw with hw | hw
      · exact ⟨w.id, w, hw, rfl⟩
      · obtain ⟨rfl, -⟩ := Prod.mk.inj (List.mem_singleton.mp hw)
        exact ⟨row.2.id, row.2, hmem, rfl⟩
  survives _ _ _ := rfl
  left t id session other := by
    constructor
    · intro hex
      obtain ⟨w, hw, rfl⟩ := hex
      obtain ⟨hw, hid⟩ := List.mem_filter.mp hw
      exact ⟨⟨w, hw, rfl⟩, by simpa using hid⟩
    · intro hex
      obtain ⟨⟨w, hw, rfl⟩, hid⟩ := hex
      exact ⟨w, List.mem_filter.mpr ⟨hw, by simpa using hid⟩, rfl⟩

end Ccctl.Server
