import Ccctl.Server.Housekeeping
import Ccctl.Server.Speaks
/-
  Ccctl.Server.Stops — a stop over all its turns.

  A stop is asked in one turn and goes on in up to three more, one for each promise it awaits; other
  turns come in between. `StopTurn` says which turns are a stop's own. None of them writes a table
  before the one that ends the session (`StopSound.refused`), the terminal is closed at most once,
  on a first reading that authorizes it, and `stopped` is answered only on evidence
  (`StopSound.truthful`). The evidence is in the history: `HistoryRun` is the server with every turn
  it has taken beside it.

  `closesBy` reads off what a suspended call has closed; `Calls` is the invariant that carries it: a
  call parked after its close has closed its own terminal, one parked before has closed none.
-/

namespace Ccctl.Server

open Ccctl.Core Ccctl.Lib ServerState

/-! ## The history -/

/-- A turn that was taken: the state it found, and its event. -/
structure Turn where
  found : ServerState
  event : Event

def historyWatch (s : ServerState) (e : Event) (history : List Turn) : List Turn := history ++ [⟨s, e⟩]

abbrev HistoryRun : ServerState × List Turn → Prop :=
  Reach (watched step historyWatch) (fun p => Booted p.1 ∧ p.2 = []) anyEvent

theorem HistoryRun.reachable {p : ServerState × List Turn} (h : HistoryRun p) : Reachable p.1 :=
  h.machine (fun _ hp => hp.1) fun _ _ _ => trivial

/-! ## What a call has closed -/

def Out.closedBy (op : OpId) : Out → Option SurfaceId
  | .closeSurface surface caller => if caller = op then some surface else none
  | _ => none

def closesBy (out : List Out) (op : OpId) : List SurfaceId := out.filterMap (Out.closedBy op)

theorem closesBy_append (out out' : List Out) (op : OpId) :
    closesBy (out ++ out') op = closesBy out op ++ closesBy out' op :=
  List.filterMap_append

theorem closesBy_spoken (out : List Out) (op : OpId) : closesBy (spoken out .close) op = closesBy out op := by
  unfold closesBy spoken
  rw [List.filterMap_filter]
  refine List.filterMap_congr fun o _ => ?_
  cases o <;> rfl

theorem Speaks.closes {kinds : List OutKind} {s s' : ServerState} (h : Speaks kinds s s') (hk : .close ∉ kinds)
    (op : OpId) : closesBy s'.out op = closesBy s.out op := by
  rw [← closesBy_spoken, h.quiet hk, closesBy_spoken]

theorem closesBy_closeSurface (out : List Out) (surface : SurfaceId) (caller op : OpId) :
    closesBy (out ++ [.closeSurface surface caller]) op = closesBy out op ++ if caller = op then [surface] else [] := by
  rw [closesBy_append]
  by_cases h : caller = op <;> simp [closesBy, Out.closedBy, h]

/-- What a call closes when its reading arrives. -/
def authorized (at_ : Op) (reading : Reading) : List SurfaceId :=
  match at_ with
  | .stopReading _ launched force =>
    if decideStop (readLiveness reading) force = .tearDown then [launched.surface] else []
  | .evictReading _ launched => if decideRelease (readLiveness reading) = .tearDown then [launched.surface] else []
  | .releaseReading launched => if decideRelease (readLiveness reading) = .tearDown then [launched.surface] else []
  | _ => []

/-- What a call parked there has closed. -/
def Op.closed : Op → List SurfaceId
  | .evictClosing _ launched | .stopClosing _ launched _ _ | .stopVerdict _ launched _ _ | .releaseClosing launched =>
    [launched.surface]
  | _ => []

/-- What the event makes the call `op` close. -/
def closing (s : ServerState) (e : Event) (op : OpId) : List SurfaceId :=
  match e with
  | .livenessSettled caller reading =>
    if caller = op then
      match s.ops.get op with
      | some at_ => authorized at_ reading
      | none => []
    else []
  | _ => []

theorem concludeStop_closes (s : ServerState) (caller : OpId) (id : SessionId) (outcome : String) (op : OpId) :
    closesBy (concludeStop (s.finish caller) id outcome).1.out op = closesBy s.out op :=
  (concludeStop_speaks (s.finish caller) id outcome).closes (by simp) op

theorem livenessSettled_closes (s : ServerState) (caller : OpId) (reading : Reading) (op : OpId) :
    closesBy (livenessSettled s caller reading).1.out op =
      closesBy s.out op ++ closing s (.livenessSettled caller reading) op := by
  simp only [closing]
  by_cases hcaller : caller = op
  · subst hcaller
    rw [if_pos rfl]
    unfold livenessSettled
    cases hop : s.ops.get caller with
    | none => simp
    | some at_ =>
      cases at_ with
      | launching | evictClosing | stopClosing | releaseClosing => simp [authorized]
      | evictReading id launched =>
        simp only [evictRead, authorized]
        cases decideRelease (readLiveness reading) with
        | tearDown => exact (closesBy_closeSurface _ _ _ _).trans (by simp)
        | _ => simp
      | stopReading id launched force =>
        simp only [stopRead, authorized]
        cases decideStop (readLiveness reading) force with
        | tearDown => exact (closesBy_closeSurface _ _ _ _).trans (by simp)
        | leaveRunning => simp
        | noOp => simpa using concludeStop_closes s caller id _ caller
      | stopVerdict id launched force liveness =>
        simp only [stopConfirmed, authorized, List.append_nil]
        split
        · rfl
        · exact concludeStop_closes s caller id _ caller
      | releaseReading launched =>
        simp only [releaseRead, authorized]
        cases decideRelease (readLiveness reading) with
        | tearDown => exact (closesBy_closeSurface _ _ _ _).trans (by simp)
        | _ => simp
  · rw [if_neg hcaller, List.append_nil]
    have hother : ∀ surface, closesBy (s.out ++ [.closeSurface surface caller]) op = closesBy s.out op := by
      intro surface
      rw [closesBy_closeSurface, if_neg hcaller, List.append_nil]
    unfold livenessSettled
    split
    · unfold evictRead
      split
      · rfl
      · rfl
      · exact hother _
    · unfold stopRead
      simp only
      split
      · rfl
      · exact concludeStop_closes s caller _ _ op
      · exact hother _
    · unfold stopConfirmed
      split
      · rfl
      · exact concludeStop_closes s caller _ _ op
    · unfold releaseRead
      split
      · exact hother _
      · rfl
    · rfl

/-- A turn closes what the reading that arrives in it authorizes, and nothing else. -/
theorem closes_step (s : ServerState) (e : Event) (op : OpId) :
    closesBy (step s e).out op = closesBy s.out op ++ closing s e op := by
  cases e with
  | livenessSettled caller reading => exact livenessSettled_closes s caller reading op
  | _ =>
    show closesBy (step s _).out op = closesBy s.out op ++ []
    rw [List.append_nil]
    exact (speaks_step s _).closes (by simp [Event.speaks]) op

/-! ## Where a call goes on -/

theorem concludeStop_ops (s : ServerState) (id : SessionId) (outcome : String) :
    (concludeStop s id outcome).1.ops = s.ops := by
  rw [concludeStop_fst]
  obtain ⟨timers, pendingLaunches, heq⟩ :=
    consumePendingLaunch_writes { s with launchedSurfaces := s.launchedSurfaces.erase id } id
  rw [heq, (closeSession_aside _ id).ops, (reapWorkerChannel_aside _ id).ops]

/-- A call after the reading it awaited has settled, if it has not returned. -/
inductive Settled (s : ServerState) (caller : OpId) (reading : Reading) : Op → Prop where
  | other {at_ : Op} (h : s.ops.get caller = some at_) (hnone : authorized at_ reading = []) :
      Settled s caller reading at_
  | evicting {id : SessionId} {launched : LaunchedSession} (h : s.ops.get caller = some (.evictReading id launched))
      (hr : decideRelease (readLiveness reading) = .tearDown) : Settled s caller reading (.evictClosing id launched)
  | stopping {id : SessionId} {launched : LaunchedSession} {force : Bool}
      (h : s.ops.get caller = some (.stopReading id launched force))
      (hr : decideStop (readLiveness reading) force = .tearDown) :
      Settled s caller reading (.stopClosing id launched force (readLiveness reading))
  | releasing {launched : LaunchedSession} (h : s.ops.get caller = some (.releaseReading launched))
      (hr : decideRelease (readLiveness reading) = .tearDown) : Settled s caller reading (.releaseClosing launched)

theorem livenessSettled_self {s : ServerState} {caller : OpId} {reading : Reading} {at' : Op}
    (hop : (livenessSettled s caller reading).1.ops.get caller = some at') : Settled s caller reading at' := by
  have hgone : ∀ {at' : Op}, (s.ops.erase caller).get caller ≠ some at' := by simp
  have hset : ∀ {at_ at' : Op}, (s.ops.set caller at_).get caller = some at' → at_ = at' := by simp
  unfold livenessSettled at hop
  cases hat : s.ops.get caller with
  | none => simp [hat] at hop
  | some at_ =>
    simp only [hat] at hop
    cases at_ with
    | launching | evictClosing | stopClosing | releaseClosing =>
      obtain rfl : _ = at' := Option.some.inj (hat.symm.trans hop)
      exact .other hat rfl
    | evictReading id launched =>
      simp only [evictRead] at hop
      cases hr : decideRelease (readLiveness reading) with
      | tearDown =>
        rw [hr] at hop
        obtain rfl := hset hop
        exact .evicting hat hr
      | _ =>
        rw [hr] at hop
        exact absurd hop hgone
    | stopReading id launched force =>
      simp only [stopRead] at hop
      cases hr : decideStop (readLiveness reading) force with
      | tearDown =>
        rw [hr] at hop
        obtain rfl := hset hop
        exact .stopping hat hr
      | leaveRunning =>
        rw [hr] at hop
        exact absurd hop hgone
      | noOp =>
        simp only [hr, concludeStop_ops] at hop
        exact absurd hop hgone
    | stopVerdict id launched force liveness =>
      simp only [stopConfirmed] at hop
      split at hop
      · exact absurd hop hgone
      · rw [concludeStop_ops] at hop
        exact absurd hop hgone
    | releaseReading launched =>
      simp only [releaseRead] at hop
      cases hr : decideRelease (readLiveness reading) with
      | tearDown =>
        rw [hr] at hop
        obtain rfl := hset hop
        exact .releasing hat hr
      | _ =>
        rw [hr] at hop
        exact absurd hop hgone

theorem livenessSettled_other {s : ServerState} {caller op : OpId} (hne : op ≠ caller) (reading : Reading) :
    (livenessSettled s caller reading).1.ops.get op = s.ops.get op := by
  have herase : (s.finish caller).ops.get op = s.ops.get op := OrdMap.get_erase_ne _ hne
  have hset : ∀ at_, (s.ops.set caller at_).get op = s.ops.get op := fun at_ => OrdMap.get_set_ne _ _ hne
  unfold livenessSettled
  split
  · unfold evictRead
    split
    · exact herase
    · exact herase
    · exact hset _
  · unfold stopRead
    simp only
    split
    · exact herase
    · rw [concludeStop_ops]
      exact herase
    · exact hset _
  · unfold stopConfirmed
    split
    · exact herase
    · rw [concludeStop_ops]
      exact herase
  · unfold releaseRead
    split
    · exact hset _
    · exact herase
  · rfl

/-- A call parked after a turn that settles no reading: it was parked there, has just been made, or is a stop whose
    close has settled. -/
theorem ops_step {s : ServerState} {e : Event} (hne : ∀ caller reading, e ≠ .livenessSettled caller reading) {op : OpId}
    {at' : Op} (hop : (step s e).ops.get op = some at') :
    s.ops.get op = some at' ∨ (s.next ≤ op ∧ at'.closed = []) ∨
      ∃ id launched force liveness, s.ops.get op = some (.stopClosing id launched force liveness) ∧
        at' = .stopVerdict id launched force liveness := by
  have hkept : ∀ caller : OpId, (s.ops.erase caller).get op = some at' → s.ops.get op = some at' :=
    fun _ h => (OrdMap.get_erase_of_some h).2
  have hmade : ∀ {at_ : Op} {n : OpId}, s.next ≤ n → at_.closed = [] → (s.ops.set n at_).get op = some at' →
      s.ops.get op = some at' ∨ (s.next ≤ op ∧ at'.closed = []) := by
    intro at_ n hle hnone h
    rw [OrdMap.get_set] at h
    split at h
    · rename_i heq
      cases h
      exact Or.inr ⟨heq ▸ hle, hnone⟩
    · exact Or.inl h
  cases e with
  | livenessSettled caller reading => exact absurd rfl (hne caller reading)
  | launchSession options hookOk =>
    rcases launchSession_cases s options hookOk with ⟨_, _, _, heq⟩ | ⟨_, _, _, _, heq, -⟩
    · simp only [step, turn, heq] at hop
      exact Or.inl hop
    · simp only [step, turn, heq] at hop
      exact (hmade (Nat.le_refl _) rfl hop).imp_right Or.inl
  | launchOpened caller attachable hint =>
    simp only [step, turn, launchSettled] at hop
    split at hop
    · rw [launchOpened_eq] at hop
      exact Or.inl (hkept caller hop)
    · exact Or.inl hop
  | launchFailed caller code message =>
    simp only [step, turn, launchSettled] at hop
    split at hop
    · rw [launchFailed_eq] at hop
      exact Or.inl (hkept caller hop)
    · exact Or.inl hop
  | sessionCreate terminal cwd mode =>
    have hsame : (handleSessionCreate s cwd mode).1.ops = s.ops := by
      obtain ⟨_, _, _, _, _, heq⟩ := claimPendingLaunch_writes s cwd mode
      simp only [handleSessionCreate, heq]
    exact Or.inl (hsame ▸ hop)
  | stopSession id force =>
    rcases stopSession_cases s id force with ⟨_, _, _, heq⟩ | ⟨_, -, -, heq⟩
    · simp only [step, turn, heq] at hop
      exact Or.inl hop
    · simp only [step, turn, heq] at hop
      exact (hmade (Nat.le_refl _) rfl hop).imp_right Or.inl
  | closeSettled caller fulfilled =>
    simp only [step, turn, closeSettled] at hop
    split at hop
    · exact Or.inl (hkept caller hop)
    · rename_i id launched force liveness hat
      unfold stopClosed at hop
      split at hop
      · rw [park_ops, OrdMap.get_set] at hop
        split at hop
        · rename_i heq
          cases hop
          exact Or.inr (Or.inr ⟨id, launched, force, liveness, heq ▸ hat, rfl⟩)
        · exact Or.inl hop
      · exact Or.inl (hkept caller hop)
    · exact Or.inl (hkept caller hop)
    · exact Or.inl hop
  | fire t =>
    have hevict : ∀ (s' : ServerState) (id : SessionId), s'.ops = s.ops → s.next ≤ s'.next →
        (evictPendingLaunch s' id).ops.get op = some at' →
        s.ops.get op = some at' ∨ (s.next ≤ op ∧ at'.closed = []) := by
      intro s' id hops hle h
      have hdropped : (dropPlaceholder (consumePendingLaunch s' id).1 id).ops = s.ops := by
        obtain ⟨_, _, hconsumed⟩ := consumePendingLaunch_writes s' id
        rw [dropPlaceholder_ops, hconsumed]
        exact hops
      rcases evictPendingLaunch_cases s' id with ⟨-, heq⟩ | ⟨_, -, ⟨-, heq⟩ | ⟨-, heq⟩⟩
      · rw [heq, hops] at h
        exact Or.inl h
      · rw [heq, hdropped] at h
        exact Or.inl h
      · rw [heq, hops] at h
        exact hmade hle rfl h
    simp only [step, turn, fire] at hop
    split at hop
    · exact Or.inl hop
    · split at hop
      · exact Or.inl hop
      · split at hop
        · rw [(writeLivenessFrame_aside _ _ _).ops] at hop
          exact Or.inl hop
        · exact (hevict (s.clearTimeout (some t)) _ rfl (Nat.le_refl _) hop).imp_right Or.inl
        · rw [(considerEviction_aside _ _ _).ops] at hop
          exact Or.inl hop
        · rw [(fireIdleEvent_aside _ _ _).ops] at hop
          exact Or.inl hop
  | shutdown =>
    obtain ⟨timers, records, streams, responses, ops, next, heq, -, -, hops⟩ := shutdown_eq s
    have hop' : (shutdown s).ops.get op = some at' := hop
    rw [heq] at hop'
    rcases hops op at' hop' with hold | ⟨⟨launched, rfl⟩, hlow, -⟩
    · exact Or.inl hold
    · exact Or.inr (Or.inl ⟨hlow, rfl⟩)
  | advance _ | changeDisk _ | writeHookFile _ _ | workerRegister _ | workerEventsStream _ | workerStreamClosed _
  | workerEvent _ _ _ | workerStatus _ _ | workerHeartbeat _ | uiEventStream _ _ | uiStreamClosed _ _ | uiCommand _ _
  | injectTurn _ _ =>
    rw [(aside_step s rfl).ops] at hop
    exact Or.inl hop

/-! ## The invariant -/

structure Calls (s : ServerState) : Prop where
  parked : ∀ op at_, s.ops.get op = some at_ → closesBy s.out op = at_.closed
  unborn : ∀ op, s.next ≤ op → closesBy s.out op = []
  once : ∀ op, (closesBy s.out op).length ≤ 1

theorem authorized_length (at_ : Op) (reading : Reading) : (authorized at_ reading).length ≤ 1 := by
  unfold authorized
  split
  · split <;> simp
  · split <;> simp
  · split <;> simp
  · simp

/-- A call that a reading lets close has closed nothing yet. -/
theorem closed_of_authorized {at_ : Op} {reading : Reading} (h : authorized at_ reading ≠ []) : at_.closed = [] := by
  cases at_ with
  | evictReading | stopReading | releaseReading | launching => rfl
  | evictClosing | stopClosing | stopVerdict | releaseClosing => exact absurd rfl h

theorem Settled.closed {s : ServerState} {caller : OpId} {reading : Reading} {at' : Op}
    (h : Settled s caller reading at') :
    ∃ at_, s.ops.get caller = some at_ ∧ at'.closed = at_.closed ++ authorized at_ reading := by
  cases h with
  | other h hnone => exact ⟨_, h, by rw [hnone, List.append_nil]⟩
  | evicting h hr => exact ⟨_, h, by simp [Op.closed, authorized, hr]⟩
  | stopping h hr => exact ⟨_, h, by simp [Op.closed, authorized, hr]⟩
  | releasing h hr => exact ⟨_, h, by simp [Op.closed, authorized, hr]⟩

theorem closing_of_get {s : ServerState} {caller : OpId} {at_ : Op} (h : s.ops.get caller = some at_)
    (reading : Reading) :
    closing s (.livenessSettled caller reading) caller = authorized at_ reading := by
  simp [closing, h]

theorem closing_other {s : ServerState} {caller op : OpId} {reading : Reading} (hne : op ≠ caller) :
    closing s (.livenessSettled caller reading) op = [] := by
  simp [closing, Ne.symm hne]

theorem closing_none {s : ServerState} {e : Event} {op : OpId} (h : s.ops.get op = none) : closing s e op = [] := by
  unfold closing
  split
  · split
    · rw [h]
    · rfl
  · rfl

theorem closing_still {s : ServerState} {e : Event} {op : OpId}
    (hne : ∀ caller reading, e ≠ .livenessSettled caller reading) :
    closing s e op = [] := by
  unfold closing
  split
  · exact absurd rfl (hne _ _)
  · rfl

theorem Calls.step {s : ServerState} (h : Calls s) (hok : (board s).Ok) (e : Event) : Calls (step s e) := by
  have hnone : ∀ op, s.next ≤ op → s.ops.get op = none := by
    intro op hle
    cases hop : s.ops.get op with
    | none => rfl
    | some at_ => exact absurd hle (Nat.not_le.mpr (hok.minted op at_ hop))
  refine ⟨?_, ?_, ?_⟩
  · intro op at' hop
    rw [closes_step]
    by_cases hread : ∃ caller reading, e = .livenessSettled caller reading
    · obtain ⟨caller, reading, rfl⟩ := hread
      by_cases hself : op = caller
      · subst hself
        obtain ⟨at_, hat, hclosed⟩ := (livenessSettled_self hop).closed
        rw [closing_of_get hat, h.parked op at_ hat, hclosed]
      · have hold : s.ops.get op = some at' := (livenessSettled_other hself reading).symm.trans hop
        rw [closing_other hself, List.append_nil, h.parked op at' hold]
    · have hne : ∀ caller reading, e ≠ .livenessSettled caller reading :=
        fun caller reading he => hread ⟨caller, reading, he⟩
      rw [closing_still hne, List.append_nil]
      rcases ops_step hne hop with hold | ⟨hle, hnew⟩ | ⟨id, launched, force, liveness, hold, rfl⟩
      · exact h.parked op at' hold
      · rw [h.unborn op hle, hnew]
      · rw [h.parked op _ hold]
        rfl
  · intro op hle
    have hle' : s.next ≤ op := (next_le_step s e).trans hle
    rw [closes_step, h.unborn op hle', closing_none (hnone op hle'), List.append_nil]
  · intro op
    rw [closes_step]
    by_cases hsome : closing s e op = []
    · rw [hsome, List.append_nil]
      exact h.once op
    · -- a call that closes now has closed nothing before
      obtain ⟨caller, reading, rfl⟩ : ∃ caller reading, e = .livenessSettled caller reading := by
        by_contra hnot
        exact hsome (closing_still fun caller reading he => hnot ⟨caller, reading, he⟩)
      obtain rfl : op = caller := by
        by_contra hne
        exact hsome (closing_other hne)
      cases hat : s.ops.get op with
      | none => exact absurd (closing_none hat) hsome
      | some at_ =>
        rw [closing_of_get hat] at hsome ⊢
        rw [h.parked op at_ hat, closed_of_authorized hsome, List.nil_append]
        exact authorized_length at_ reading

theorem Reachable.calls {s : ServerState} (h : Reachable s) : Calls s := by
  induction h with
  | start hs =>
    obtain ⟨image, rfl⟩ := hs
    refine ⟨?_, fun _ _ => rfl, fun _ => Nat.zero_le _⟩
    intro op at_ hop
    cases hop
  | @step s e hr _ ih => exact ih.step (Reachable.board hr) e

/-! ## A stop -/

/-- The turns of the stop `op`, of the session `id`: where it is asked, and where what it awaits settles. -/
inductive StopTurn (s : ServerState) (op : OpId) (id : SessionId) (launched : LaunchedSession) (force : Bool) :
    Event → Prop where
  | asked (hop : op = s.next) : StopTurn s op id launched force (.stopSession id force)
  | read (reading : Reading) (hop : s.ops.get op = some (.stopReading id launched force)) :
      StopTurn s op id launched force (.livenessSettled op reading)
  | closed (fulfilled : Bool) {liveness : SurfaceLiveness}
      (hop : s.ops.get op = some (.stopClosing id launched force liveness)) :
      StopTurn s op id launched force (.closeSettled op fulfilled)
  | confirmed (reading : Reading) {liveness : SurfaceLiveness}
      (hop : s.ops.get op = some (.stopVerdict id launched force liveness)) :
      StopTurn s op id launched force (.livenessSettled op reading)

/-- No table is written; the suspended calls, the counter and what left the server are none. -/
def SameTables (s s' : ServerState) : Prop := ∃ ops next out, s' = { s with ops, next, out }

/-- No table has an entry for the session. -/
structure Forgotten (s : ServerState) (id : SessionId) : Prop where
  row : s.sessions.get id = none
  channel : s.workerChannels.get id = none
  relay : s.eventRelays.get id = none
  question : s.requiresActionEnrichments.get id = none
  install : s.hookInstalls.get id = none
  surface : s.launchedSurfaces.get id = none
  launch : s.pendingLaunches.get id = none

/-- The readings that let a stop close the terminal: one that is alive and the server's own, and where the stop is
    forced also one the operator took over and one whose host is reached and does not tell. -/
def Authorizes (liveness : SurfaceLiveness) (force : Bool) : Prop :=
  liveness = .aliveServerOwned ∨ force = true ∧ (liveness = .takenOver ∨ liveness = .surfaceIndeterminate)

theorem authorizes_iff {liveness : SurfaceLiveness} {force : Bool} :
    Authorizes liveness force ↔ decideStop liveness force = .tearDown := by
  unfold Authorizes
  cases liveness <;> cases force <;> decide


/-- The first reading of the stop `op` came as `liveness`, and authorized a close. -/
def FirstRead (history : List Turn) (op : OpId) (id : SessionId) (launched : LaunchedSession) (force : Bool)
    (liveness : SurfaceLiveness) : Prop :=
  ∃ t ∈ history, ∃ reading, t.event = .livenessSettled op reading ∧
    t.found.ops.get op = some (.stopReading id launched force) ∧ readLiveness reading = liveness ∧
    Authorizes liveness force

/-- What a turn of a stop does, after the turns of `history`. -/
structure StopSound (history : List Turn) (s : ServerState) (op : OpId) (id : SessionId) (launched : LaunchedSession)
    (force : Bool) (e : Event) : Prop where
  /-- Refused, or not over yet: every table is as it was. A session that another path ended meanwhile is answered
      as unknown. -/
  refused : (∀ outcome status, reply s e ≠ .stopped id outcome status) → SameTables s (step s e) ∨
    s.sessions.get id = none ∧ reply s e = writeStopFailure .unknownSession (unknownSessionReason id)
  resolved : ∀ other outcome status, reply s e = .stopped other outcome status → other = id ∧ Forgotten (step s e) id
  once : (closesBy (step s e).out op).length ≤ 1
  /-- Closing is the first reading's to authorize. -/
  closes : closesBy (step s e).out op ≠ closesBy s.out op → closesBy (step s e).out op = [launched.surface] ∧
    ∃ reading, e = .livenessSettled op reading ∧ s.ops.get op = some (.stopReading id launched force) ∧
      Authorizes (readLiveness reading) force
  /-- `stopped` is answered when the last reading found the terminal gone, or found nothing where the first had
      seen it. -/
  truthful : ∀ other status, reply s e = .stopped other "stopped" status →
    ∃ reading liveness, e = .livenessSettled op reading ∧ FirstRead history op id launched force liveness ∧
      closesBy s.out op = [launched.surface] ∧
      (readLiveness reading = .exited ∨ readLiveness reading = .surfaceIndeterminate ∧
        (liveness = .aliveServerOwned ∨ liveness = .takenOver))

/-- A close or a confirmation is awaited only after a first reading that authorized the close. -/
def Evidenced (history : List Turn) (s : ServerState) : Prop :=
  ∀ op id launched force liveness,
    s.ops.get op = some (.stopClosing id launched force liveness) ∨
      s.ops.get op = some (.stopVerdict id launched force liveness) → FirstRead history op id launched force liveness

theorem FirstRead.later {history : List Turn} {op : OpId} {id : SessionId} {launched : LaunchedSession} {force : Bool}
    {liveness : SurfaceLiveness} (h : FirstRead history op id launched force liveness) (t : Turn) :
    FirstRead (history ++ [t]) op id launched force liveness := by
  obtain ⟨t₀, ht, hread⟩ := h
  exact ⟨t₀, List.mem_append_left _ ht, hread⟩

theorem Evidenced.keep {history : List Turn} {s : ServerState} (h : Evidenced history s) (e : Event) :
    Evidenced (historyWatch s e history) (step s e) := by
  intro op id launched force liveness hop
  by_cases hread : ∃ caller reading, e = .livenessSettled caller reading
  · obtain ⟨caller, reading, rfl⟩ := hread
    by_cases hself : op = caller
    · subst hself
      rcases hop with hop | hop
      · cases livenessSettled_self hop with
        | other hold _ => exact (h op id launched force liveness (Or.inl hold)).later _
        | stopping hold hr => exact ⟨_, List.mem_append_right _ (List.mem_singleton_self _), reading, rfl, hold, rfl,
          authorizes_iff.mpr hr⟩
      · cases livenessSettled_self hop with
        | other hold _ => exact (h op id launched force liveness (Or.inr hold)).later _
    · have hsame : (step s (.livenessSettled caller reading)).ops.get op = s.ops.get op :=
        livenessSettled_other hself reading
      rw [hsame] at hop
      exact (h op id launched force liveness hop).later _
  · have hne : ∀ caller reading, e ≠ .livenessSettled caller reading :=
      fun caller reading he => hread ⟨caller, reading, he⟩
    rcases hop with hop | hop
    · rcases ops_step hne hop with hold | ⟨-, hnew⟩ | ⟨_, _, _, _, -, heq⟩
      · exact (h op id launched force liveness (Or.inl hold)).later _
      · cases hnew
      · cases heq
    · rcases ops_step hne hop with hold | ⟨-, hnew⟩ | ⟨_, _, _, _, hold, heq⟩
      · exact (h op id launched force liveness (Or.inr hold)).later _
      · cases hnew
      · cases heq
        exact (h op id launched force liveness (Or.inl hold)).later _

theorem HistoryRun.evidenced {p : ServerState × List Turn} (h : HistoryRun p) : Evidenced p.2 p.1 := by
  induction h with
  | start hp =>
    obtain ⟨⟨image, himage⟩, -⟩ := hp
    rw [himage]
    intro op id launched force liveness hop
    rcases hop with hop | hop <;> cases hop
  | step e _ _ ih => exact ih.keep e

/-! ## Where a stop ends -/

theorem closeSession_forgets {s : ServerState} {id : SessionId} {session : Session}
    (hrow : s.sessions.get id = some session) (hchannel : s.workerChannels.get id = none)
    (hsurface : s.launchedSurfaces.get id = none) (hlaunch : s.pendingLaunches.get id = none) :
    Forgotten (closeSession s id).1 id := by
  obtain ⟨eventRelays, files, heq, hrelay, -, -⟩ := closeSession_eq hrow
  rw [heq]
  exact ⟨OrdMap.get_erase_self _ _, hchannel, hrelay, OrdMap.get_erase_self _ _, OrdMap.get_erase_self _ _, hsurface,
    hlaunch⟩

/-- A stop that ends the session leaves nothing of it; one that finds it ended says so. -/
theorem concludeStop_spec (s : ServerState) (id : SessionId) (outcome : String) :
    (∃ session, (concludeStop s id outcome).2 = .stopped id outcome (markSessionClosed session).status ∧
      Forgotten (concludeStop s id outcome).1 id) ∨
    s.sessions.get id = none ∧
      (concludeStop s id outcome).2 = writeStopFailure .unknownSession (unknownSessionReason id) := by
  obtain ⟨timers, pendingLaunches, hconsume⟩ :=
    consumePendingLaunch_writes { s with launchedSurfaces := s.launchedSurfaces.erase id } id
  have hlaunch := consumePendingLaunch_pendings { s with launchedSurfaces := s.launchedSurfaces.erase id } id
  rw [hconsume] at hlaunch
  simp only at hlaunch
  subst hlaunch
  have haside := reapWorkerChannel_aside
    { s with launchedSurfaces := s.launchedSurfaces.erase id, timers, pendingLaunches := s.pendingLaunches.erase id } id
  have hsessions := reapWorkerChannel_sessions
    { s with launchedSurfaces := s.launchedSurfaces.erase id, timers, pendingLaunches := s.pendingLaunches.erase id } id
  unfold concludeStop
  simp only [hconsume]
  generalize hreap : reapWorkerChannel _ id = reaped at haside hsessions ⊢
  have hchannel : reaped.workerChannels.get id = none := by
    rw [← hreap]
    unfold reapWorkerChannel
    split
    · assumption
    · exact OrdMap.get_erase_self _ _
  have hsurface : reaped.launchedSurfaces.get id = none := by
    rw [haside.surfaces]
    exact OrdMap.get_erase_self _ _
  have hlaunch : reaped.pendingLaunches.get id = none := by
    rw [haside.pendings]
    exact OrdMap.get_erase_self _ _
  cases hrow : s.sessions.get id with
  | none =>
    refine Or.inr ⟨rfl, ?_⟩
    simp [closeSession, hsessions, hrow]
  | some session =>
    have hrow' : reaped.sessions.get id = some session := by rw [hsessions, hrow]
    have hforgets := closeSession_forgets hrow' hchannel hsurface hlaunch
    have hclosed : (closeSession reaped id).2 = some (markSessionClosed session) := by simp [closeSession, hrow']
    left
    refine ⟨session, ?_⟩
    generalize closeSession reaped id = closed at hforgets hclosed ⊢
    obtain ⟨after, ended⟩ := closed
    simp only at hclosed
    subst hclosed
    exact ⟨rfl, hforgets⟩

/-! ## The turns -/

theorem SameTables.finish (s : ServerState) (op : OpId) : SameTables s (s.finish op) := ⟨_, _, _, rfl⟩

theorem asked_refused (s : ServerState) (id : SessionId) (force : Bool) :
    SameTables s (stopSession s id force).1 ∧
      ∀ other outcome status, (stopSession s id force).2 ≠ .stopped other outcome status := by
  rcases stopSession_cases s id force with ⟨_, _, _, heq⟩ | ⟨_, -, -, heq⟩
  · rw [heq]
    exact ⟨⟨_, _, _, rfl⟩, fun _ _ _ h => by cases h⟩
  · rw [heq]
    exact ⟨⟨_, _, _, rfl⟩, fun _ _ _ h => by cases h⟩

/-- A turn that ends in `concludeStop`. -/
theorem concluded_sound {s : ServerState} {op : OpId} {id : SessionId} {outcome : String} {e : Event}
    (hturn : turn s e = concludeStop (s.finish op) id outcome) :
    ((∀ outcome' status, reply s e ≠ .stopped id outcome' status) → SameTables s (step s e) ∨
      s.sessions.get id = none ∧ reply s e = writeStopFailure .unknownSession (unknownSessionReason id)) ∧
    ∀ other outcome' status, reply s e = .stopped other outcome' status →
      other = id ∧ outcome' = outcome ∧ Forgotten (step s e) id := by
  have hspec := concludeStop_spec (s.finish op) id outcome
  rw [← hturn] at hspec
  rcases hspec with ⟨session, hreply, hforgets⟩ | ⟨hrow, hreply⟩
  · constructor
    · intro hnot
      exact absurd hreply (hnot _ _)
    · intro other outcome' status hother
      have heq : Reply.stopped other outcome' status = .stopped id outcome (markSessionClosed session).status :=
        hother.symm.trans hreply
      cases heq
      exact ⟨rfl, rfl, hforgets⟩
  · constructor
    · intro _
      exact Or.inr ⟨hrow, hreply⟩
    · intro other outcome' status hother
      have heq : Reply.stopped other outcome' status = writeStopFailure .unknownSession (unknownSessionReason id) :=
        hother.symm.trans hreply
      cases heq

/-- The last reading confirms the stop. -/
theorem confirmed_evidence {liveness verdict : SurfaceLiveness} {force : Bool}
    (h : unconfirmed liveness verdict = false) (hr : decideStop liveness force = .tearDown) :
    verdict = .exited ∨ verdict = .surfaceIndeterminate ∧ (liveness = .aliveServerOwned ∨ liveness = .takenOver) := by
  cases verdict with
  | exited => exact Or.inl rfl
  | surfaceIndeterminate =>
    right
    refine ⟨rfl, ?_⟩
    cases liveness with
    | aliveServerOwned => exact Or.inl rfl
    | takenOver => exact Or.inr rfl
    | surfaceIndeterminate => simp [unconfirmed] at h
    | exited | hostUnreachable => cases force <;> cases hr
  | aliveServerOwned | takenOver | hostUnreachable => simp [unconfirmed] at h

section Sound

variable {history : List Turn} {s : ServerState} {op : OpId} {id : SessionId} {launched : LaunchedSession}
  {force : Bool} {e : Event}

/-- A turn the stop goes on from, or is refused in. -/
theorem StopSound.still (honce : (closesBy (step s e).out op).length ≤ 1) (hsame : SameTables s (step s e))
    (hnot : ∀ other outcome status, reply s e ≠ .stopped other outcome status)
    (hcloses : closesBy (step s e).out op ≠ closesBy s.out op → closesBy (step s e).out op = [launched.surface] ∧
      ∃ reading, e = .livenessSettled op reading ∧ s.ops.get op = some (.stopReading id launched force) ∧
        Authorizes (readLiveness reading) force) :
    StopSound history s op id launched force e :=
  ⟨fun _ => Or.inl hsame, fun _ _ _ hst => absurd hst (hnot _ _ _), honce, hcloses,
    fun _ _ hst => absurd hst (hnot _ _ _)⟩

/-- The turn it ends in. -/
theorem StopSound.concluded {outcome : String} (honce : (closesBy (step s e).out op).length ≤ 1)
    (hquiet : closesBy (step s e).out op = closesBy s.out op)
    (hturn : turn s e = concludeStop (s.finish op) id outcome)
    (htruthful : outcome = "stopped" →
      ∃ reading liveness, e = .livenessSettled op reading ∧ FirstRead history op id launched force liveness ∧
        closesBy s.out op = [launched.surface] ∧
        (readLiveness reading = .exited ∨ readLiveness reading = .surfaceIndeterminate ∧
          (liveness = .aliveServerOwned ∨ liveness = .takenOver))) :
    StopSound history s op id launched force e := by
  obtain ⟨hrefused, hresolved⟩ := concluded_sound hturn
  refine ⟨hrefused, ?_, honce, fun hne => absurd hquiet hne, ?_⟩
  · intro other outcome' status hst
    obtain ⟨hid, -, hforgets⟩ := hresolved other outcome' status hst
    exact ⟨hid, hforgets⟩
  · intro other status hst
    obtain ⟨-, houtcome, -⟩ := hresolved other _ status hst
    exact htruthful houtcome.symm

theorem quiet_step (hnone : closing s e op = []) : closesBy (step s e).out op = closesBy s.out op := by
  rw [closes_step, hnone, List.append_nil]

/-- The first reading refuses, ends the stop, or has the terminal closed. -/
theorem first_read_sound (hcalls : Calls s) {reading : Reading}
    (honce : (closesBy (step s (.livenessSettled op reading)).out op).length ≤ 1)
    (hop : s.ops.get op = some (.stopReading id launched force)) :
    StopSound history s op id launched force (.livenessSettled op reading) := by
  have hturn : turn s (.livenessSettled op reading) = stopRead s op id launched force reading := by
    simp only [turn, livenessSettled, hop]
  have hauth := closing_of_get hop reading
  simp only [stopRead] at hturn
  cases hr : decideStop (readLiveness reading) force with
  | leaveRunning =>
    have hquiet := quiet_step (hauth.trans (by simp [authorized, hr]))
    rw [hr] at hturn
    refine .still honce ?_ ?_ fun hne => absurd hquiet hne
    · rw [step, hturn]
      exact .finish s op
    · intro other outcome status
      rw [reply, hturn]
      cases readLiveness reading <;> exact fun h => by cases h
  | noOp =>
    have hquiet := quiet_step (hauth.trans (by simp [authorized, hr]))
    rw [hr] at hturn
    -- an exited terminal is answered `already-exited`
    exact .concluded honce hquiet hturn fun houtcome => absurd houtcome (by decide)
  | tearDown =>
    rw [hr] at hturn
    refine .still honce ?_ ?_ fun _ => ⟨?_, reading, rfl, hop, authorizes_iff.mpr hr⟩
    · rw [step, hturn]
      exact ⟨_, _, _, rfl⟩
    · intro other outcome status
      rw [reply, hturn]
      exact fun h => by cases h
    · rw [closes_step, hcalls.parked op _ hop, hauth]
      simp [Op.closed, authorized, hr]

/-- Once the close is over, the terminal is read again, or the stop refused. -/
theorem close_over_sound {fulfilled : Bool} {liveness : SurfaceLiveness}
    (honce : (closesBy (step s (.closeSettled op fulfilled)).out op).length ≤ 1)
    (hop : s.ops.get op = some (.stopClosing id launched force liveness)) :
    StopSound history s op id launched force (.closeSettled op fulfilled) := by
  have hquiet : closesBy (step s (.closeSettled op fulfilled)).out op = closesBy s.out op :=
    quiet_step (closing_still fun _ _ he => by cases he)
  have hturn : turn s (.closeSettled op fulfilled) = stopClosed s op id launched force liveness fulfilled := by
    simp only [turn, closeSettled, hop]
  have hkeep : SameTables s (step s (.closeSettled op fulfilled)) ∧ ∀ other outcome status,
      reply s (.closeSettled op fulfilled) ≠ .stopped other outcome status := by
    simp only [step, reply, hturn, stopClosed]
    split
    · exact ⟨⟨_, _, _, rfl⟩, fun _ _ _ h => by cases h⟩
    · exact ⟨⟨_, _, _, rfl⟩, fun _ _ _ h => by cases h⟩
  exact .still honce hkeep.1 hkeep.2 fun hne => absurd hquiet hne

/-- The last reading ends the stop on evidence, or refuses it. -/
theorem last_read_sound (hcalls : Calls s) {reading : Reading} {liveness : SurfaceLiveness}
    (honce : (closesBy (step s (.livenessSettled op reading)).out op).length ≤ 1)
    (hop : s.ops.get op = some (.stopVerdict id launched force liveness))
    (hfirst : FirstRead history op id launched force liveness) :
    StopSound history s op id launched force (.livenessSettled op reading) := by
  have hquiet := quiet_step (closing_of_get hop reading)
  have hturn : turn s (.livenessSettled op reading) = stopConfirmed s op id liveness reading := by
    simp only [turn, livenessSettled, hop]
  unfold stopConfirmed at hturn
  cases hun : unconfirmed liveness (readLiveness reading) with
  | true =>
    rw [if_pos hun] at hturn
    refine .still honce ?_ ?_ fun hne => absurd hquiet hne
    · rw [step, hturn]
      exact .finish s op
    · intro other outcome status
      rw [reply, hturn]
      exact fun h => by cases h
  | false =>
    rw [if_neg (by simp [hun])] at hturn
    refine .concluded honce hquiet hturn fun _ => ⟨reading, liveness, rfl, hfirst, hcalls.parked op _ hop, ?_⟩
    obtain ⟨_, _, _, _, _, _, hr⟩ := hfirst
    exact confirmed_evidence hun (authorizes_iff.mp hr)

end Sound

/-- A stop writes no table before it ends the session, closes its terminal at most once and on a reading that
    authorizes it, and answers `stopped` on evidence only. -/
theorem stop_sound {p : ServerState × List Turn} (h : HistoryRun p) {op : OpId} {id : SessionId}
    {launched : LaunchedSession} {force : Bool} {e : Event} (hturn : StopTurn p.1 op id launched force e) :
    StopSound p.2 p.1 op id launched force e := by
  have hcalls : Calls p.1 := (HistoryRun.reachable h).calls
  have honce : (closesBy (step p.1 e).out op).length ≤ 1 :=
    (hcalls.step (HistoryRun.reachable h).board e).once op
  cases hturn with
  | asked hop =>
    obtain ⟨hsame, hnot⟩ := asked_refused p.1 id force
    have hquiet : closesBy (step p.1 (.stopSession id force)).out op = closesBy p.1.out op :=
      quiet_step (closing_still fun _ _ he => by cases he)
    exact .still honce hsame hnot fun hne => absurd hquiet hne
  | read reading hop => exact first_read_sound hcalls honce hop
  | closed fulfilled hop => exact close_over_sound honce hop
  | confirmed reading hop =>
    exact last_read_sound hcalls honce hop (h.evidenced op id launched force _ (Or.inr hop))

/-- A launch in a fresh server, stopped: read as alive, closed, read again. -/
def stopping : List Event :=
  [.launchSession ⟨js "/w", .default, none, none⟩ false, .launchOpened 0 true "", .stopSession 1 false,
    .livenessSettled 3 (.answered (js "alive-server-owned")), .closeSettled 3 true]

theorem stop_sound_stopped :
    let p := runFrom (watched step historyWatch) (freshServer, []) stopping
    let e := Event.livenessSettled 3 (.answered (js "exited"))
    reply p.1 e = .stopped 1 "stopped" .closed ∧ StopSound p.2 p.1 3 1 ⟨0, true, ""⟩ false e := by
  have hrun : HistoryRun (runFrom (watched step historyWatch) (freshServer, []) stopping) :=
    (Reach.start ⟨freshServer_booted, rfl⟩).run
  have hop : (runFrom (watched step historyWatch) (freshServer, []) stopping).1.ops.get 3 =
      some (.stopVerdict 1 ⟨0, true, ""⟩ false .aliveServerOwned) := by decide
  exact ⟨by decide, stop_sound hrun (.confirmed _ hop)⟩

end Ccctl.Server
