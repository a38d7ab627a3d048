import Ccctl.Server.Moves
/-
  Ccctl.Server.Launches — the launches of a server: pending, open, under way.

  `Board` is what the launch protocols share: the pending table, the surfaces still open, the
  suspended calls. Every turn but a registration is a `Board.Move`, and a registration is
  `Board.register`: between them all that launches, timeouts, readings, closes and stops can do to
  one another. `Board.Ok` is what holds between the three tables on every board reached: a
  surface has one launch, a launch that is being evicted is no longer pending, and launches
  pending on one pair are all marked ambiguous.

  `pending_from` and `op_from` invert a move: where a launch that is pending afterwards, or a call
  that is suspended afterwards, comes from.
-/

namespace Ccctl.Server

open Ccctl.Core Ccctl.Lib ServerState

structure Board where
  pendings : OrdMap SessionId PendingLaunch
  surfaces : OrdMap SessionId LaunchedSession
  ops : OrdMap OpId Op
  next : Nat

def board (s : ServerState) : Board := ⟨s.pendingLaunches, s.launchedSurfaces, s.ops, s.next⟩

/-! ## The moves -/

/-- The table after `markGroupMayHoldLiveWorker`. -/
def held (pendings : OrdMap SessionId PendingLaunch) (cwd : Path) (mode : PermissionMode) :
    OrdMap SessionId PendingLaunch :=
  pendings.mapVals fun _ pending =>
    if pending.onPair cwd mode then { pending with mayHoldLiveWorker := true } else pending

/-- A suspended call goes from one `await` to the next. -/
inductive Op.Resumes : Op → Op → Prop where
  | evicting {id : SessionId} {launched : LaunchedSession} :
      Resumes (.evictReading id launched) (.evictClosing id launched)
  | stopping {id : SessionId} {launched : LaunchedSession} {force : Bool} {liveness : SurfaceLiveness} :
      Resumes (.stopReading id launched force) (.stopClosing id launched force liveness)
  | confirming {id : SessionId} {launched : LaunchedSession} {force : Bool} {liveness : SurfaceLiveness} :
      Resumes (.stopClosing id launched force liveness) (.stopVerdict id launched force liveness)
  | releasing {launched : LaunchedSession} : Resumes (.releaseReading launched) (.releaseClosing launched)

inductive Board.Move (b : Board) : Board → Prop where
  | aside {next : Nat} (h : b.next ≤ next) : Move b { b with next }
  | launching {options : SessionLaunchOptions} {hook : Option HookInstall} {next : Nat} (h : b.next < next) :
      Move b { b with ops := b.ops.set b.next (.launching options hook), next }
  | opened {op : OpId} {options : SessionLaunchOptions} {hook : Option HookInstall} {p : PendingLaunch} {next : Nat}
      (hop : b.ops.get op = some (.launching options hook)) (hsurface : p.launched.surface = op)
      (hfresh : p.mayHoldLiveWorker = false) (h : b.next < next) :
      Move b ⟨ambiguated (b.pendings.set b.next p) p.cwd p.permissionMode, b.surfaces.set b.next p.launched,
        b.ops.erase op, next⟩
  | expired {id : SessionId} {p : PendingLaunch} (hp : b.pendings.get id = some p) :
      Move b { b with pendings := b.pendings.erase id }
  | evicting {id : SessionId} {p : PendingLaunch} (hp : b.pendings.get id = some p) (hm : p.mayHoldLiveWorker = false) :
      Move b { b with
        pendings := b.pendings.erase id
        ops := b.ops.set b.next (.evictReading id p.launched), next := b.next + 1 }
  | stopping {id : SessionId} {launched : LaunchedSession} {force : Bool} (hl : b.surfaces.get id = some launched)
      (hm : ∀ p, b.pendings.get id = some p → p.mayHoldLiveWorker = false) :
      Move b { b with ops := b.ops.set b.next (.stopReading id launched force), next := b.next + 1 }
  | resumed {op : OpId} {at_ at' : Op} (hop : b.ops.get op = some at_) (h : at_.Resumes at') :
      Move b { b with ops := b.ops.set op at' }
  | returned {op : OpId} {at_ : Op} (hop : b.ops.get op = some at_) : Move b { b with ops := b.ops.erase op }
  | evicted {op : OpId} {id : SessionId} {launched : LaunchedSession}
      (hop : b.ops.get op = some (.evictReading id launched) ∨ b.ops.get op = some (.evictClosing id launched)) :
      Move b { b with surfaces := b.surfaces.erase id, ops := b.ops.erase op }
  | stopped {op : OpId} {id : SessionId} {next : Nat} (h : b.next ≤ next) :
      Move b ⟨b.pendings.erase id, b.surfaces.erase id, b.ops.erase op, next⟩
  | halted {ops : OrdMap OpId Op} {next : Nat} (h : b.next ≤ next)
      (hops : ∀ op at_, ops.get op = some at_ →
        b.ops.get op = some at_ ∨ (∃ launched, at_ = .releaseReading launched) ∧ op < next) :
      Move b ⟨OrdMap.empty, OrdMap.empty, ops, next⟩

/-- A registration for `cwd`, matched with the launch `claimed`. -/
def Board.register (b : Board) (cwd : Path) : Option PendingLaunch → Board
  | none => { b with next := b.next + 1 }
  | some claimed =>
    if claimed.ambiguous then
      { b with pendings := held (b.pendings.erase claimed.sessionId) cwd claimed.permissionMode, next := b.next + 1 }
    else { b with pendings := b.pendings.erase claimed.sessionId, next := b.next + 1 }

/-! ## Inverting a move -/

/-- One launch before and after: its terminal and its pair stay, and its marks are never taken back. -/
structure PendingLaunch.Kept (p p' : PendingLaunch) : Prop where
  launched : p'.launched = p.launched
  cwd : p'.cwd = p.cwd
  permissionMode : p'.permissionMode = p.permissionMode
  ambiguous : p.ambiguous = true → p'.ambiguous = true
  mayHold : p.mayHoldLiveWorker = true → p'.mayHoldLiveWorker = true

theorem PendingLaunch.Kept.refl (p : PendingLaunch) : p.Kept p := ⟨rfl, rfl, rfl, id, id⟩

theorem PendingLaunch.onPair_iff {p : PendingLaunch} {cwd : Path} {mode : PermissionMode} :
    p.onPair cwd mode = true ↔ p.cwd = cwd ∧ p.permissionMode = mode := by
  simp [PendingLaunch.onPair]

theorem PendingLaunch.Kept.onPair {p p' : PendingLaunch} (h : p.Kept p') (cwd : Path) (mode : PermissionMode) :
    p'.onPair cwd mode = p.onPair cwd mode := by
  unfold PendingLaunch.onPair
  rw [h.cwd, h.permissionMode]

theorem ambiguated_from {pendings : OrdMap SessionId PendingLaunch} {cwd : Path} {mode : PermissionMode}
    {id : SessionId} {p' : PendingLaunch} (h : (ambiguated pendings cwd mode).get id = some p') :
    ∃ p, pendings.get id = some p ∧ p.Kept p' ∧ p'.mayHoldLiveWorker = p.mayHoldLiveWorker := by
  unfold ambiguated at h
  split at h
  · exact ⟨p', h, .refl p', rfl⟩
  · rw [OrdMap.get_mapVals] at h
    obtain ⟨p, hp, rfl⟩ := Option.map_eq_some_iff.mp h
    refine ⟨p, hp, ?_⟩
    split
    · exact ⟨⟨rfl, rfl, rfl, fun _ => rfl, fun hm => hm⟩, rfl⟩
    · exact ⟨.refl p, rfl⟩

/-- Two launches on the pair are both marked. -/
theorem ambiguated_pair {pendings : OrdMap SessionId PendingLaunch} {cwd : Path} {mode : PermissionMode}
    {id other : SessionId} {p q : PendingLaunch} (hne : id ≠ other)
    (hp : (ambiguated pendings cwd mode).get id = some p) (hq : (ambiguated pendings cwd mode).get other = some q)
    (hpair : p.onPair cwd mode = true) (hpair' : q.onPair cwd mode = true) : p.ambiguous = true := by
  obtain ⟨p₀, hp₀, hkept, -⟩ := ambiguated_from hp
  obtain ⟨q₀, hq₀, hkept', -⟩ := ambiguated_from hq
  rw [hkept.onPair] at hpair
  rw [hkept'.onPair] at hpair'
  have htwo := OrdMap.two_le_filter hne hp₀ hq₀ hpair hpair'
  unfold ambiguated at hp
  rw [if_neg (Nat.not_lt.mpr htwo), OrdMap.get_mapVals, hp₀, Option.map_some, if_pos hpair, Option.some.injEq] at hp
  rw [← hp]

theorem held_from {pendings : OrdMap SessionId PendingLaunch} {cwd : Path} {mode : PermissionMode} {id : SessionId}
    {p' : PendingLaunch} (h : (held pendings cwd mode).get id = some p') :
    ∃ p, pendings.get id = some p ∧ p.Kept p' ∧
      p'.mayHoldLiveWorker = (p.mayHoldLiveWorker || p.onPair cwd mode) := by
  rw [held, OrdMap.get_mapVals] at h
  obtain ⟨p, hp, rfl⟩ := Option.map_eq_some_iff.mp h
  refine ⟨p, hp, ?_⟩
  by_cases hon : p.onPair cwd mode = true
  · rw [if_pos hon, hon, Bool.or_true]
    exact ⟨⟨rfl, rfl, rfl, fun ha => ha, fun _ => rfl⟩, rfl⟩
  · rw [if_neg hon]
    rw [Bool.not_eq_true] at hon
    rw [hon, Bool.or_false]
    exact ⟨.refl p, rfl⟩

namespace Board

variable {b b' : Board}

/-- A launch pending afterwards was pending, under the same marks or more, or its launch has just opened. -/
theorem Move.pending_from (h : Move b b') {id : SessionId} {p' : PendingLaunch} (hp : b'.pendings.get id = some p') :
    (∃ p, b.pendings.get id = some p ∧ p.Kept p' ∧ p'.mayHoldLiveWorker = p.mayHoldLiveWorker) ∨
      (id = b.next ∧ b.next < b'.next ∧ p'.mayHoldLiveWorker = false ∧
        ∃ options hook, b.ops.get p'.launched.surface = some (.launching options hook)) := by
  have hsame : b.pendings.get id = some p' →
      ∃ p, b.pendings.get id = some p ∧ p.Kept p' ∧ p'.mayHoldLiveWorker = p.mayHoldLiveWorker :=
    fun hp => ⟨p', hp, .refl p', rfl⟩
  cases h with
  | aside _ | launching _ | stopping _ _ | resumed _ _ | returned _ | evicted _ => exact Or.inl (hsame hp)
  | expired _ | evicting _ _ | stopped _ => exact Or.inl (hsame (OrdMap.get_erase_of_some hp).2)
  | halted _ _ => cases hp
  | opened hop hsurface hfresh hlt =>
    obtain ⟨p, hp₀, hkept, hmark⟩ := ambiguated_from hp
    rw [OrdMap.get_set] at hp₀
    split at hp₀
    · rename_i hid
      cases hp₀
      rw [← hsurface, ← hkept.launched] at hop
      exact Or.inr ⟨hid, hlt, hmark.trans hfresh, _, _, hop⟩
    · exact Or.inl ⟨p, hp₀, hkept, hmark⟩

/-- Where a suspended call comes from. -/
inductive Parked (b b' : Board) (op : OpId) : Op → Prop where
  | kept {at_ : Op} (h : b.ops.get op = some at_) : Parked b b' op at_
  | launching {options : SessionLaunchOptions} {hook : Option HookInstall} (h : op = b.next) (hlt : op < b'.next) :
      Parked b b' op (.launching options hook)
  | evictReading {id : SessionId} {p : PendingLaunch} (hp : b.pendings.get id = some p)
      (hm : p.mayHoldLiveWorker = false) (hgone : b'.pendings.get id = none) (hlt : op < b'.next) :
      Parked b b' op (.evictReading id p.launched)
  | stopReading {id : SessionId} {launched : LaunchedSession} {force : Bool} (hl : b.surfaces.get id = some launched)
      (hm : ∀ p, b.pendings.get id = some p → p.mayHoldLiveWorker = false) (hsame : b'.pendings = b.pendings)
      (hlt : op < b'.next) : Parked b b' op (.stopReading id launched force)
  | resumed {at_ at' : Op} (h : b.ops.get op = some at_) (hres : at_.Resumes at') : Parked b b' op at'
  | releaseReading {launched : LaunchedSession} (hlt : op < b'.next) : Parked b b' op (.releaseReading launched)

theorem Move.op_from (h : Move b b') {op : OpId} {at_ : Op} (hop : b'.ops.get op = some at_) : Parked b b' op at_ := by
  cases h with
  | aside _ | expired _ => exact .kept hop
  | opened _ _ _ _ | returned _ | evicted _ | stopped _ => exact .kept (OrdMap.get_erase_of_some hop).2
  | launching hlt =>
    rw [OrdMap.get_set] at hop
    split at hop
    · rename_i heq
      cases hop
      exact .launching heq (heq ▸ hlt)
    · exact .kept hop
  | evicting hp hm =>
    rw [OrdMap.get_set] at hop
    split at hop
    · rename_i heq
      cases hop
      exact .evictReading hp hm (OrdMap.get_erase_self _ _) (heq ▸ Nat.lt_succ_self _)
    · exact .kept hop
  | stopping hl hm =>
    rw [OrdMap.get_set] at hop
    split at hop
    · rename_i heq
      cases hop
      exact .stopReading hl hm rfl (heq ▸ Nat.lt_succ_self _)
    · exact .kept hop
  | resumed hold hres =>
    rw [OrdMap.get_set] at hop
    split at hop
    · rename_i heq
      cases hop
      exact .resumed (heq ▸ hold) hres
    · exact .kept hop
  | halted _ hops =>
    rcases hops op at_ hop with hold | ⟨⟨launched, rfl⟩, hlt⟩
    · exact .kept hold
    · exact .releaseReading hlt

theorem Move.next_le (h : Move b b') : b.next ≤ b'.next := by
  cases h with
  | aside h | stopped h | halted h _ => exact h
  | launching h | opened _ _ _ h => exact Nat.le_of_lt h
  | evicting _ _ | stopping _ _ => exact Nat.le_succ _
  | expired _ | resumed _ _ | returned _ | evicted _ => exact Nat.le_refl _

/-! ## What holds of every board -/

structure Ok (b : Board) : Prop where
  minted : ∀ op at_, b.ops.get op = some at_ → op < b.next
  /-- A pending launch holds its session's surface. -/
  pending : ∀ id p, b.pendings.get id = some p → id < b.next ∧ b.surfaces.get id = some p.launched
  /-- The call that opened a surface has returned. -/
  surface : ∀ id launched, b.surfaces.get id = some launched → id < b.next ∧ launched.surface < b.next ∧
    ∀ options hook, b.ops.get launched.surface ≠ some (.launching options hook)
  distinct : ∀ id other launched launched', b.surfaces.get id = some launched → b.surfaces.get other = some launched' →
    launched.surface = launched'.surface → id = other
  /-- A launch that is being evicted is no longer pending. -/
  evicting : ∀ op id launched,
    b.ops.get op = some (.evictReading id launched) ∨ b.ops.get op = some (.evictClosing id launched) →
      id < b.next ∧ b.pendings.get id = none
  /-- Nor is any launch pending, or about to be, on the terminal being read. -/
  reading : ∀ op id launched, b.ops.get op = some (.evictReading id launched) →
    (∀ options hook, b.ops.get launched.surface ≠ some (.launching options hook)) ∧ launched.surface < b.next ∧
      ∀ other p, b.pendings.get other = some p → p.launched.surface ≠ launched.surface
  /-- Launches pending on one pair are marked. -/
  ambiguous : ∀ id other p q, id ≠ other → b.pendings.get id = some p → b.pendings.get other = some q →
    q.onPair p.cwd p.permissionMode = true → p.ambiguous = true

/-- One terminal is one pending launch. -/
theorem Ok.pending_inj (h : b.Ok) {id other : SessionId} {p q : PendingLaunch} (hp : b.pendings.get id = some p)
    (hq : b.pendings.get other = some q) (heq : p.launched.surface = q.launched.surface) : id = other :=
  h.distinct id other _ _ (h.pending id p hp).2 (h.pending other q hq).2 heq

/-- Marks added and launches taken out leave the pairs as they were. -/
theorem Ok.ambiguous_of (h : b.Ok) {pendings : OrdMap SessionId PendingLaunch}
    (hfrom : ∀ id p', pendings.get id = some p' → ∃ p, b.pendings.get id = some p ∧ p.Kept p') :
    ∀ id other p q, id ≠ other → pendings.get id = some p → pendings.get other = some q →
      q.onPair p.cwd p.permissionMode = true → p.ambiguous = true := by
  intro id other p q hne hp hq hpair
  obtain ⟨p₀, hp₀, hkept⟩ := hfrom id p hp
  obtain ⟨q₀, hq₀, hkept'⟩ := hfrom other q hq
  rw [hkept'.onPair, hkept.cwd, hkept.permissionMode] at hpair
  exact hkept.ambiguous (h.ambiguous id other p₀ q₀ hne hp₀ hq₀ hpair)

/-- A surface open afterwards was open, or its launch has just opened it. -/
theorem Move.surface_from (h : Move b b') {id : SessionId} {launched : LaunchedSession}
    (hl : b'.surfaces.get id = some launched) : b.surfaces.get id = some launched ∨
      (id = b.next ∧ b.next < b'.next ∧ (∃ options hook, b.ops.get launched.surface = some (.launching options hook)) ∧
        b'.ops.get launched.surface = none) := by
  cases h with
  | aside _ | launching _ | expired _ | evicting _ _ | stopping _ _ | resumed _ _ | returned _ => exact Or.inl hl
  | evicted _ | stopped _ => exact Or.inl (OrdMap.get_erase_of_some hl).2
  | halted _ _ => cases hl
  | opened hop hsurface hfresh hlt =>
    rw [OrdMap.get_set] at hl
    split at hl
    · cases hl
      subst hsurface
      exact Or.inr ⟨‹_›, hlt, ⟨_, _, hop⟩, OrdMap.get_erase_self _ _⟩
    · exact Or.inl hl

/-- A launch that stays pending keeps its surface. -/
theorem Ok.surface_kept (hok : b.Ok) (h : Move b b') {id : SessionId} {p' : PendingLaunch}
    (hp : b'.pendings.get id = some p') {launched : LaunchedSession} (hl : b.surfaces.get id = some launched) :
    b'.surfaces.get id = some launched := by
  cases h with
  | aside _ | launching _ | expired _ | evicting _ _ | stopping _ _ | resumed _ _ | returned _ => exact hl
  | halted _ _ => cases hp
  | evicted hop =>
    refine (OrdMap.get_erase_ne _ ?_).trans hl
    intro heq
    subst heq
    have hnone := (hok.evicting _ _ _ hop).2
    rw [hnone] at hp
    cases hp
  | stopped _ =>
    have hne := (OrdMap.get_erase_of_some hp).1
    exact (OrdMap.get_erase_ne _ hne).trans hl
  | opened _ _ _ _ =>
    have hlt := (hok.surface id launched hl).1
    exact (OrdMap.get_set_ne _ _ (Nat.ne_of_lt hlt)).trans hl

/-- A launch call that has returned does not come back. -/
theorem Move.returned_kept (h : Move b b') {op : OpId} (hlt : op < b.next)
    (hreturned : ∀ options hook, b.ops.get op ≠ some (.launching options hook)) (options : SessionLaunchOptions)
    (hook : Option HookInstall) : b'.ops.get op ≠ some (.launching options hook) := by
  intro hop
  cases h.op_from hop with
  | kept hkept => exact hreturned options hook hkept
  | launching heq _ => exact absurd heq (Nat.ne_of_lt hlt)
  | resumed _ hres => cases hres

theorem Ok.move_pending (hok : b.Ok) (h : Move b b') {id : SessionId} {p' : PendingLaunch}
    (hp : b'.pendings.get id = some p') : id < b'.next ∧ b'.surfaces.get id = some p'.launched := by
  rcases h.pending_from hp with ⟨p, hp₀, hkept, -⟩ | ⟨rfl, hlt, -, -⟩
  · obtain ⟨hid, hl⟩ := hok.pending id p hp₀
    rw [hkept.launched]
    exact ⟨hid.trans_le h.next_le, hok.surface_kept h hp hl⟩
  · refine ⟨hlt, ?_⟩
    cases h with
    | opened hop hsurface hfresh hlt =>
      obtain ⟨p, hp₀, hkept, -⟩ := ambiguated_from hp
      rw [OrdMap.get_set_self, Option.some.injEq] at hp₀
      subst hp₀
      rw [hkept.launched]
      exact OrdMap.get_set_self _ _ _
    | launching _ | stopping _ _ | resumed _ _ | returned _ | evicted _ | aside _ =>
      exact absurd (hok.pending _ p' hp).1 (Nat.lt_irrefl _)
    | expired _ | evicting _ _ | stopped _ =>
      exact absurd (hok.pending _ p' (OrdMap.get_erase_of_some hp).2).1 (Nat.lt_irrefl _)
    | halted _ _ => cases hp

theorem Ok.move_surface (hok : b.Ok) (h : Move b b') {id : SessionId} {launched : LaunchedSession}
    (hl : b'.surfaces.get id = some launched) : id < b'.next ∧ launched.surface < b'.next ∧
      ∀ options hook, b'.ops.get launched.surface ≠ some (.launching options hook) := by
  rcases h.surface_from hl with hold | ⟨rfl, hlt, ⟨options, hook, hop⟩, hdone⟩
  · obtain ⟨hid, hs, hreturned⟩ := hok.surface id launched hold
    exact ⟨hid.trans_le h.next_le, hs.trans_le h.next_le, h.returned_kept hs hreturned⟩
  · refine ⟨hlt, (hok.minted _ _ hop).trans hlt, ?_⟩
    intro options' hook' hop'
    rw [hdone] at hop'
    cases hop'

theorem Ok.move_distinct (hok : b.Ok) (h : Move b b') {id other : SessionId} {launched launched' : LaunchedSession}
    (hl : b'.surfaces.get id = some launched) (hl' : b'.surfaces.get other = some launched')
    (heq : launched.surface = launched'.surface) : id = other := by
  rcases h.surface_from hl with hold | ⟨hid, -, ⟨options, hook, hop⟩, -⟩
  · rcases h.surface_from hl' with hold' | ⟨hid', -, ⟨options, hook, hop⟩, -⟩
    · exact hok.distinct id other launched launched' hold hold' heq
    · rw [← heq] at hop
      exact absurd hop ((hok.surface id launched hold).2.2 options hook)
  · rcases h.surface_from hl' with hold' | ⟨hid', -, -, -⟩
    · rw [heq] at hop
      exact absurd hop ((hok.surface other launched' hold').2.2 options hook)
    · rw [hid, hid']

/-- A launch that was not pending, under an id already minted, is not pending. -/
theorem Move.pending_none (h : Move b b') {id : SessionId} (hlt : id < b.next) (hnone : b.pendings.get id = none) :
    b'.pendings.get id = none := by
  cases hp : b'.pendings.get id with
  | none => rfl
  | some p' =>
    rcases h.pending_from hp with ⟨p, hp₀, -⟩ | ⟨heq, -⟩
    · rw [hnone] at hp₀
      cases hp₀
    · exact absurd heq (Nat.ne_of_lt hlt)

theorem Ok.move_evicting (hok : b.Ok) (h : Move b b') {op : OpId} {id : SessionId} {launched : LaunchedSession}
    (hop : b'.ops.get op = some (.evictReading id launched) ∨ b'.ops.get op = some (.evictClosing id launched)) :
    id < b'.next ∧ b'.pendings.get id = none := by
  have hkeep : id < b.next ∧ b.pendings.get id = none → id < b'.next ∧ b'.pendings.get id = none := by
    intro ⟨hid, hnone⟩
    exact ⟨hid.trans_le h.next_le, h.pending_none hid hnone⟩
  rcases hop with hop | hop
  · cases h.op_from hop with
    | kept hkept => exact hkeep (hok.evicting op id launched (Or.inl hkept))
    | evictReading hp hm hgone _ => exact ⟨(hok.pending id _ hp).1.trans_le h.next_le, hgone⟩
    | resumed _ hres => cases hres
  · cases h.op_from hop with
    | kept hkept => exact hkeep (hok.evicting op id launched (Or.inr hkept))
    | resumed hold hres =>
      cases hres
      exact hkeep (hok.evicting op id launched (Or.inl hold))

theorem Ok.move_reading (hok : b.Ok) (h : Move b b') {op : OpId} {id : SessionId} {launched : LaunchedSession}
    (hop : b'.ops.get op = some (.evictReading id launched)) :
    (∀ options hook, b'.ops.get launched.surface ≠ some (.launching options hook)) ∧ launched.surface < b'.next ∧
      ∀ other p, b'.pendings.get other = some p → p.launched.surface ≠ launched.surface := by
  have hcase : (∀ options hook, b.ops.get launched.surface ≠ some (.launching options hook)) ∧
      launched.surface < b.next ∧ ∀ other p p', b'.pendings.get other = some p' → b.pendings.get other = some p →
        p.launched.surface ≠ launched.surface := by
    cases h.op_from hop with
    | kept hkept =>
      obtain ⟨hreturned, hlt, hnone⟩ := hok.reading op id launched hkept
      exact ⟨hreturned, hlt, fun other p _ _ hp => hnone other p hp⟩
    | evictReading hp hm hgone _ =>
      obtain ⟨-, hlt, hreturned⟩ := hok.surface id _ (hok.pending id _ hp).2
      refine ⟨hreturned, hlt, ?_⟩
      intro other q q' hq' hq heq
      rw [hok.pending_inj hq hp heq, hgone] at hq'
      cases hq'
    | resumed _ hres => cases hres
  obtain ⟨hreturned, hlt, hnone⟩ := hcase
  refine ⟨h.returned_kept hlt hreturned, hlt.trans_le h.next_le, ?_⟩
  intro other p' hp' heq
  rcases h.pending_from hp' with ⟨p, hp, hkept, -⟩ | ⟨-, -, -, options, hook, hlaunch⟩
  · rw [hkept.launched] at heq
    exact hnone other p p' hp' hp heq
  · rw [heq] at hlaunch
    exact hreturned options hook hlaunch

/-- A launch that opens on a pair marks every launch pending on it. -/
theorem Ok.ambiguous_opened (hok : b.Ok) (fresh : PendingLaunch) {id other : SessionId} {p q : PendingLaunch}
    (hne : id ≠ other)
    (hp : (ambiguated (b.pendings.set b.next fresh) fresh.cwd fresh.permissionMode).get id = some p)
    (hq : (ambiguated (b.pendings.set b.next fresh) fresh.cwd fresh.permissionMode).get other = some q)
    (hpair : q.onPair p.cwd p.permissionMode = true) : p.ambiguous = true := by
  by_cases hon : p.onPair fresh.cwd fresh.permissionMode = true
  · refine ambiguated_pair hne hp hq hon ?_
    rw [PendingLaunch.onPair_iff] at hon hpair ⊢
    exact ⟨hpair.1.trans hon.1, hpair.2.trans hon.2⟩
  · -- neither is the launch that has just opened
    obtain ⟨p₀, hp₀, hkept, -⟩ := ambiguated_from hp
    obtain ⟨q₀, hq₀, hkept', -⟩ := ambiguated_from hq
    rw [OrdMap.get_set] at hp₀ hq₀
    split at hp₀
    · cases hp₀
      exact absurd (PendingLaunch.onPair_iff.mpr ⟨hkept.cwd, hkept.permissionMode⟩) hon
    · split at hq₀
      · cases hq₀
        rw [PendingLaunch.onPair_iff] at hpair
        refine absurd (PendingLaunch.onPair_iff.mpr ⟨?_, ?_⟩) hon
        · rw [← hpair.1, hkept'.cwd]
        · rw [← hpair.2, hkept'.permissionMode]
      · rw [hkept'.onPair, hkept.cwd, hkept.permissionMode] at hpair
        exact hkept.ambiguous (hok.ambiguous id other p₀ q₀ hne hp₀ hq₀ hpair)

theorem Ok.move (hok : b.Ok) (h : Move b b') : b'.Ok where
  minted op at_ hop := by
    cases h.op_from hop with
    | kept hold | resumed hold _ => exact (hok.minted op _ hold).trans_le h.next_le
    | launching _ hlt | evictReading _ _ _ hlt | stopReading _ _ _ hlt | releaseReading hlt => exact hlt
  pending _ _ hp := hok.move_pending h hp
  surface _ _ hl := hok.move_surface h hl
  distinct _ _ _ _ hl hl' heq := hok.move_distinct h hl hl' heq
  evicting _ _ _ hop := hok.move_evicting h hop
  reading _ _ _ hop := hok.move_reading h hop
  ambiguous := by
    cases h with
    | aside _ | launching _ | stopping _ _ | resumed _ _ | returned _ | evicted _ => exact hok.ambiguous
    | expired _ | evicting _ _ | stopped _ =>
      exact hok.ambiguous_of fun id p' hp => ⟨p', (OrdMap.get_erase_of_some hp).2, .refl p'⟩
    | halted _ _ =>
      intro id other p q _ hp
      cases hp
    | opened _ _ _ _ =>
      intro id other p q hne hp hq hpair
      exact hok.ambiguous_opened _ hne hp hq hpair

/-- A launch pending after a registration was pending; it is newly marked only if the registration was an
    ambiguous one on its pair. -/
theorem register_from {cwd : Path} {m : Option PendingLaunch} {id : SessionId} {p' : PendingLaunch}
    (hp : (b.register cwd m).pendings.get id = some p') :
    ∃ p, b.pendings.get id = some p ∧ p.Kept p' ∧ (p'.mayHoldLiveWorker = true → p.mayHoldLiveWorker = true ∨
      ∃ claimed, m = some claimed ∧ claimed.ambiguous = true ∧ id ≠ claimed.sessionId ∧
        p.onPair cwd claimed.permissionMode = true) := by
  cases m with
  | none => exact ⟨p', hp, .refl p', Or.inl⟩
  | some claimed =>
    by_cases hamb : claimed.ambiguous = true
    · simp only [register, hamb, if_true] at hp
      obtain ⟨p, hp₀, hkept, hmark⟩ := held_from hp
      obtain ⟨hne, hp₁⟩ := OrdMap.get_erase_of_some hp₀
      refine ⟨p, hp₁, hkept, ?_⟩
      intro hm
      rw [hmark, Bool.or_eq_true] at hm
      exact hm.imp_right fun hon => ⟨claimed, rfl, hamb, hne, hon⟩
    · simp only [register, if_neg hamb] at hp
      exact ⟨p', (OrdMap.get_erase_of_some hp).2, .refl p', Or.inl⟩

theorem register_rest (b : Board) (cwd : Path) (m : Option PendingLaunch) :
    (b.register cwd m).ops = b.ops ∧ (b.register cwd m).surfaces = b.surfaces ∧
      (b.register cwd m).next = b.next + 1 := by
  unfold register
  split
  · exact ⟨rfl, rfl, rfl⟩
  · split <;> exact ⟨rfl, rfl, rfl⟩

theorem Ok.register (hok : b.Ok) (cwd : Path) (m : Option PendingLaunch) : (b.register cwd m).Ok := by
  obtain ⟨hops, hsurfaces, hnext⟩ := register_rest b cwd m
  have hfrom : ∀ id p', (b.register cwd m).pendings.get id = some p' → ∃ p, b.pendings.get id = some p ∧ p.Kept p' := by
    intro id p' hp
    obtain ⟨p, hp₀, hkept, -⟩ := register_from hp
    exact ⟨p, hp₀, hkept⟩
  refine ⟨?_, ?_, ?_, ?_, ?_, ?_, hok.ambiguous_of hfrom⟩
  · intro op at_ hop
    rw [hops] at hop
    rw [hnext]
    exact Nat.lt_succ_of_lt (hok.minted op at_ hop)
  · intro id p' hp
    obtain ⟨p, hp₀, hkept⟩ := hfrom id p' hp
    obtain ⟨hid, hl⟩ := hok.pending id p hp₀
    rw [hsurfaces, hnext, hkept.launched]
    exact ⟨Nat.lt_succ_of_lt hid, hl⟩
  · intro id launched hl
    rw [hsurfaces] at hl
    obtain ⟨hid, hs, hreturned⟩ := hok.surface id launched hl
    rw [hops, hnext]
    exact ⟨Nat.lt_succ_of_lt hid, Nat.lt_succ_of_lt hs, hreturned⟩
  · rw [hsurfaces]
    exact hok.distinct
  · intro op id launched hop
    rw [hops] at hop
    obtain ⟨hid, hnone⟩ := hok.evicting op id launched hop
    rw [hnext]
    refine ⟨Nat.lt_succ_of_lt hid, ?_⟩
    cases hp : (b.register cwd m).pendings.get id with
    | none => rfl
    | some p' =>
      obtain ⟨p, hp₀, -⟩ := hfrom id p' hp
      rw [hnone] at hp₀
      cases hp₀
  · intro op id launched hop
    rw [hops] at hop ⊢
    obtain ⟨hreturned, hlt, hnone⟩ := hok.reading op id launched hop
    rw [hnext]
    refine ⟨hreturned, Nat.lt_succ_of_lt hlt, ?_⟩
    intro other p' hp'
    obtain ⟨p, hp, hkept⟩ := hfrom other p' hp'
    rw [hkept.launched]
    exact hnone other p hp

end Board

/-! ## The simulation -/

theorem consumePendingLaunch_pendings (s : ServerState) (id : SessionId) :
    (consumePendingLaunch s id).1.pendingLaunches = s.pendingLaunches.erase id := by
  unfold consumePendingLaunch
  cases hp : s.pendingLaunches.get id with
  | none => exact (OrdMap.erase_of_none hp).symm
  | some p => rfl

theorem board_aside {s s' : ServerState} (h : Aside s s') : (board s).Move (board s') := by
  have heq : board s' = { board s with next := s'.next } := by
    simp only [board, h.pendings, h.surfaces, h.ops]
  rw [heq]
  exact .aside h.next

theorem board_concluded {s : ServerState} (op : OpId) (id : SessionId) (outcome : String) :
    (board s).Move (board (concludeStop (s.finish op) id outcome).1) := by
  rw [concludeStop_fst]
  generalize hcons :
    (consumePendingLaunch { s.finish op with launchedSurfaces := (s.finish op).launchedSurfaces.erase id } id).1 = s₁
  obtain ⟨timers, pendings, hw⟩ := consumePendingLaunch_writes
    { s.finish op with launchedSurfaces := (s.finish op).launchedSurfaces.erase id } id
  have hpend := consumePendingLaunch_pendings
    { s.finish op with launchedSurfaces := (s.finish op).launchedSurfaces.erase id } id
  have haside := (reapWorkerChannel_aside s₁ id).trans (closeSession_aside (reapWorkerChannel s₁ id) id)
  generalize (closeSession (reapWorkerChannel s₁ id) id).1 = s₂ at haside ⊢
  rw [hcons] at hw hpend
  have heq : board s₂ = ⟨s.pendingLaunches.erase id, s.launchedSurfaces.erase id, s.ops.erase op, s₂.next⟩ := by
    simp only [board, haside.pendings, haside.surfaces, haside.ops, hpend]
    rw [hw]
    rfl
  rw [heq]
  refine .stopped ?_
  have hle := haside.next
  rw [hw] at hle
  exact hle

theorem board_opened {s : ServerState} {op : OpId} {options : SessionLaunchOptions} {hook : Option HookInstall}
    (hop : s.ops.get op = some (.launching options hook)) (attachable : Bool) (hint : String) :
    (board s).Move (board (launchOpened s op options hook attachable hint).1) := by
  have heq : board (launchOpened s op options hook attachable hint).1 =
      ⟨ambiguated (s.pendingLaunches.set s.next ⟨s.next, canonicalCwd s.fs options.cwd, options.permissionMode,
        ⟨op, attachable, hint⟩, s.next + 1, false, false⟩) (canonicalCwd s.fs options.cwd) options.permissionMode,
        s.launchedSurfaces.set s.next ⟨op, attachable, hint⟩, s.ops.erase op, s.next + 1 + 1⟩ := by
    rw [launchOpened_eq]
    rfl
  rw [heq]
  exact Board.Move.opened (p := ⟨s.next, canonicalCwd s.fs options.cwd, options.permissionMode,
    ⟨op, attachable, hint⟩, s.next + 1, false, false⟩) hop rfl rfl (Nat.lt_succ_of_lt (Nat.lt_succ_self _))

theorem board_evicted {s : ServerState} {id : SessionId} {p : PendingLaunch} (hp : s.pendingLaunches.get id = some p) :
    (board s).Move (board (evictPendingLaunch s id)) := by
  have hconsume : consumePendingLaunch s id =
      ({ s.clearTimeout (some p.timer) with pendingLaunches := s.pendingLaunches.erase id }, some p) := by
    simp [consumePendingLaunch, hp]
  rcases evictPendingLaunch_cases s id with ⟨hnone, -⟩ | ⟨_, hp', ⟨-, heq⟩ | ⟨hm, heq⟩⟩
  · cases hnone.symm.trans hp
  · rw [heq, hconsume]
    exact .expired hp
  · rw [heq, hconsume]
    exact .evicting hp' hm

theorem board_fire {s : ServerState} (h : TimersOk s) (t : TimerId) : (board s).Move (board (fire s t)) := by
  have hclear : Aside s (s.clearTimeout (some t)) := ⟨⟨Nat.le_refl _, rfl, rfl⟩, rfl, rfl, rfl⟩
  unfold fire
  cases ht : s.timers.get t with
  | none => exact board_aside (.refl s)
  | some timer =>
    obtain ⟨due, callback⟩ := timer
    have hown := h.armed.owner_of_get ht
    simp only
    split
    · exact board_aside (.refl s)
    · cases callback with
      | writeLivenessFrame r res =>
        have hset : ∀ timers, Aside s { s with timers } := fun _ => ⟨⟨Nat.le_refl _, rfl, rfl⟩, rfl, rfl, rfl⟩
        exact board_aside ((hset _).trans (writeLivenessFrame_aside _ _ _))
      | evictPendingLaunch id =>
        obtain ⟨p, hp, rfl⟩ := Option.map_eq_some_iff.mp hown
        simp only [evictPendingLaunch_spent hp]
        exact board_evicted hp
      | considerEviction id r => exact board_aside (hclear.trans (considerEviction_aside _ _ _))
      | fireIdleEvent id r => exact board_aside (hclear.trans (fireIdleEvent_aside _ _ _))

theorem board_launchSession (s : ServerState) (options : SessionLaunchOptions) (hookOk : Bool) :
    (board s).Move (board (launchSession s options hookOk).1) := by
  rcases launchSession_cases s options hookOk with ⟨_, _, _, heq⟩ | ⟨_, _, _, _, heq, hnext, -⟩
  · rw [heq]
    exact board_aside (.refl s)
  · rw [heq]
    exact .launching hnext

theorem board_stopSession (s : ServerState) (id : SessionId) (force : Bool) :
    (board s).Move (board (stopSession s id force).1) := by
  rcases stopSession_cases s id force with ⟨_, _, _, heq⟩ | ⟨launched, hl, hm, heq⟩
  · rw [heq]
    exact board_aside (.refl s)
  · rw [heq]
    refine .stopping hl fun p hp => ?_
    have hp' : s.pendingLaunches.get id = some p := hp
    simpa [markedLaunch, hp'] using hm

theorem board_livenessSettled (s : ServerState) (op : OpId) (reading : Reading) :
    (board s).Move (board (livenessSettled s op reading).1) := by
  unfold livenessSettled
  split
  · rename_i id launched hop
    unfold evictRead
    split
    · exact .returned hop
    · exact .evicted (Or.inl hop)
    · exact .resumed hop .evicting
  · rename_i id launched force hop
    unfold stopRead
    simp only
    split
    · exact .returned hop
    · exact board_concluded op id _
    · exact .resumed hop .stopping
  · rename_i id launched force liveness hop
    unfold stopConfirmed
    split
    · exact .returned hop
    · exact board_concluded op id _
  · rename_i launched hop
    unfold releaseRead
    split
    · exact .resumed hop .releasing
    · exact .returned hop
  · exact board_aside (.refl s)

theorem board_closeSettled (s : ServerState) (op : OpId) (fulfilled : Bool) :
    (board s).Move (board (closeSettled s op fulfilled).1) := by
  unfold closeSettled
  split
  · rename_i id launched hop
    exact .evicted (Or.inr hop)
  · rename_i id launched force liveness hop
    unfold stopClosed
    split
    · exact .resumed hop .confirming
    · exact .returned hop
  · rename_i launched hop
    exact .returned hop
  · exact board_aside (.refl s)

/-- The events that are registrations. -/
def Event.registers : Event → Bool
  | .sessionCreate _ _ _ => true
  | _ => false

/-- Every turn but a registration is a move. -/
theorem board_step {s : ServerState} (h : TimersOk s) {e : Event} (he : e.registers = false) :
    (board s).Move (board (step s e)) := by
  cases e with
  | sessionCreate terminal cwd mode => cases he
  | launchSession options hookOk => exact board_launchSession s options hookOk
  | launchOpened op attachable hint =>
    simp only [step, turn, launchSettled]
    split
    · exact board_opened ‹_› attachable hint
    · exact board_aside (.refl s)
  | launchFailed op code message =>
    simp only [step, turn, launchSettled]
    split
    · rename_i options hook hop
      rw [launchFailed_eq]
      exact .returned hop
    · exact board_aside (.refl s)
  | stopSession id force => exact board_stopSession s id force
  | livenessSettled op reading => exact board_livenessSettled s op reading
  | closeSettled op fulfilled => exact board_closeSettled s op fulfilled
  | fire t => exact board_fire h t
  | shutdown =>
    obtain ⟨timers, records, streams, responses, ops, next, heq, -, hle, hops⟩ := shutdown_eq s
    show (board s).Move (board (shutdown s))
    rw [heq]
    refine .halted hle fun op at_ hop => ?_
    rcases hops op at_ hop with hold | ⟨hrelease, -, hlt⟩
    · exact Or.inl hold
    · exact Or.inr ⟨hrelease, hlt⟩
  | advance _ | changeDisk _ | writeHookFile _ _ | workerRegister _ | workerEventsStream _ | workerStreamClosed _
  | workerEvent _ _ _ | workerStatus _ _ | workerHeartbeat _ | uiEventStream _ _ | uiStreamClosed _ _ | uiCommand _ _
  | injectTurn _ _ => exact board_aside (aside_step s rfl)

theorem board_create (s : ServerState) (terminal : Option SurfaceId) (cwd : Path) (mode : PermissionMode) :
    board (step s (.sessionCreate terminal cwd mode)) =
      (board s).register (canonicalCwd s.fs cwd) (matched s cwd mode) := by
  simp only [step, turn, handleSessionCreate, claimPendingLaunch_eq]
  cases hm : matched s cwd mode with
  | none => rfl
  | some claimed =>
    obtain ⟨timers, pendings, hw⟩ := consumePendingLaunch_writes s claimed.sessionId
    have hpend := consumePendingLaunch_pendings s claimed.sessionId
    by_cases hamb : claimed.ambiguous = true
    · simp only [Board.register, hamb, if_true, board]
      rw [hw] at hpend ⊢
      simp only at hpend
      subst hpend
      rfl
    · simp only [Board.register, if_neg hamb, board]
      rw [hw] at hpend ⊢
      simp only at hpend
      subst hpend
      rfl

theorem startServer_board (image : BootImage) : (board (startServer image)).Ok where
  minted _ _ h := by cases h
  pending _ _ h := by cases h
  surface _ _ h := by cases h
  distinct _ _ _ _ h := by cases h
  evicting _ _ _ h := by rcases h with h | h <;> cases h
  reading _ _ _ h := by cases h
  ambiguous _ _ _ _ _ h := by cases h

theorem board_ok_step {s : ServerState} (h : TimersOk s) (hok : (board s).Ok) (e : Event) : (board (step s e)).Ok := by
  cases he : e.registers with
  | false => exact hok.move (board_step h he)
  | true =>
    cases e with
    | sessionCreate terminal cwd mode =>
      rw [board_create]
      exact hok.register _ _
    | _ => cases he

theorem Reachable.board {s : ServerState} (h : Reachable s) : (board s).Ok := by
  induction h with
  | start hs =>
    obtain ⟨image, rfl⟩ := hs
    exact startServer_board image
  | @step s e hr _ ih => exact board_ok_step (Reachable.grounded hr).timers ih e

end Ccctl.Server
