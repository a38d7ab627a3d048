import Ccctl.Lib.Feed
import Ccctl.Server.UnreadQueue
/-
  Ccctl.Server.Renudge — the re-nudging of unread events
  (`packages/server/src/renudge-cadence.ts`: `renudgeDeadline`, `renudgeDecision`,
  `dueRenudges`), under a dispatcher that keeps each unread item's count of fired nudges and
  advances it on every due verdict; a tick's nudges are what `dueRenudges` gives of the items then
  unread (`nudgesAt_wakes`).

  An item is one stay of an event in the unread queue: it is named by the place in the run of
  the enqueue that began it, and the acknowledgement that removes the event ends it. Every
  deadline is counted from the enqueue, so an item that a late tick finds two steps behind is
  nudged at that tick for the first of them and at the next tick for the second: the nudges of
  an item are one a step, after the step's deadline and before the acknowledgement whatever the
  ticks, and no burst precisely when no item so far behind outlives the tick
  (`renudges_iff_prompt`, `pause_fires_burst`).
-/

namespace Ccctl.Server

open Ccctl.Core Ccctl.Lib

/-! ## The decision -/

abbrev RenudgeCadence := List Rat

def DEFAULT_RENUDGE_BACKOFF_MS : RenudgeCadence := [30000, 120000, 300000, 900000]

inductive RenudgeDecision where
  | due (renudgeIndex : Nat) (renudgeAt : Rat)
  | pending (renudgeIndex : Nat) (renudgeAt : Rat)
  | exhausted
  deriving DecidableEq

def renudgeDeadline (firedAt : Rat) (renudgeIndex : Nat) (cadence : RenudgeCadence) : Rat :=
  (cadence.take (renudgeIndex + 1)).foldl (fun deadline gap => deadline + gap) firedAt

def renudgeDecision (firedAt : Rat) (renudgesFired : Nat) (now : Rat) (cadence : RenudgeCadence) : RenudgeDecision :=
  if cadence.length ≤ renudgesFired then .exhausted
  else
    let renudgeAt := renudgeDeadline firedAt renudgesFired cadence
    if renudgeAt ≤ now then .due renudgesFired renudgeAt else .pending renudgesFired renudgeAt

structure RenudgeCandidate where
  entry : UnreadEntry
  renudgesFired : Nat
  deriving DecidableEq

structure DueRenudge where
  entry : UnreadEntry
  renudgeIndex : Nat
  renudgeAt : Rat
  deriving DecidableEq

/-- One turn of the loop over the candidates. -/
def dueRenudge (now : Rat) (cadence : RenudgeCadence) (candidate : RenudgeCandidate) : Option DueRenudge :=
  match renudgeDecision candidate.entry.atMs candidate.renudgesFired now cadence with
  | .due renudgeIndex renudgeAt => some ⟨candidate.entry, renudgeIndex, renudgeAt⟩
  | .pending _ _ | .exhausted => none

def dueRenudges (candidates : List RenudgeCandidate) (now : Rat) (cadence : RenudgeCadence) : List DueRenudge :=
  candidates.filterMap (dueRenudge now cadence)

theorem dueRenudge_eq_some {now : Rat} {cadence : RenudgeCadence} {candidate : RenudgeCandidate} {wake : DueRenudge} :
    dueRenudge now cadence candidate = some wake ↔
      candidate.renudgesFired < cadence.length ∧
      renudgeDeadline candidate.entry.atMs candidate.renudgesFired cadence ≤ now ∧
      wake = ⟨candidate.entry, candidate.renudgesFired,
        renudgeDeadline candidate.entry.atMs candidate.renudgesFired cadence⟩ := by
  unfold dueRenudge renudgeDecision
  by_cases hspent : cadence.length ≤ candidate.renudgesFired
  · simp [hspent, Nat.not_lt.mpr hspent]
  · by_cases hdue : renudgeDeadline candidate.entry.atMs candidate.renudgesFired cadence ≤ now
    · simp [hspent, hdue, Nat.lt_of_not_le hspent, eq_comm]
    · simp [hspent, hdue]

theorem deadline_succ (firedAt : Rat) {i : Nat} {cadence : RenudgeCadence} (h : i + 1 < cadence.length) :
    renudgeDeadline firedAt (i + 1) cadence = renudgeDeadline firedAt i cadence + cadence[i + 1] := by
  rw [renudgeDeadline, List.take_succ_eq_append_getElem h, List.foldl_concat, renudgeDeadline]

/-- Over positive gaps a later step's deadline is later. -/
theorem deadline_mono {cadence : RenudgeCadence} (hgaps : ∀ gap ∈ cadence, 0 < gap) (firedAt : Rat) {i j : Nat}
    (hij : i ≤ j) (hj : j < cadence.length) :
    renudgeDeadline firedAt i cadence ≤ renudgeDeadline firedAt j cadence := by
  induction j, hij using Nat.le_induction with
  | base => exact le_refl _
  | succ j hij ih =>
    rw [deadline_succ firedAt hj]
    have hgap : 0 < cadence[j + 1] := hgaps _ (List.getElem_mem hj)
    exact (ih (by omega)).trans (le_add_of_nonneg_right hgap.le)

/-! ## The dispatcher -/

/-- An item of the unread queue. -/
structure UnreadItem where
  item : Nat
  candidate : RenudgeCandidate
  deriving DecidableEq

def UnreadItem.key (tracked : UnreadItem) : JsString × Rat := tracked.candidate.entry.key

/-- A wake that was sent: at which turn of the run, and what that tick's clock said. -/
structure Nudge where
  item : Nat
  turn : Nat
  tickedAt : Rat
  wake : DueRenudge
  deriving DecidableEq

inductive DispatchEvent where
  | queue (event : QueueEvent)
  | tick (now : Rat)
  deriving DecidableEq

structure Dispatcher where
  turn : Nat
  tracked : List UnreadItem
  nudges : List Nudge
  deriving DecidableEq

def UnreadItem.nudge (cadence : RenudgeCadence) (turn : Nat) (now : Rat) (tracked : UnreadItem) : Option Nudge :=
  (dueRenudge now cadence tracked.candidate).map fun wake => ⟨tracked.item, turn, now, wake⟩

/-- The count goes up on a due verdict. -/
def UnreadItem.advance (cadence : RenudgeCadence) (now : Rat) (tracked : UnreadItem) : UnreadItem :=
  match dueRenudge now cadence tracked.candidate with
  | some _ => { tracked with candidate := ⟨tracked.candidate.entry, tracked.candidate.renudgesFired + 1⟩ }
  | none => tracked

def trackedAfter (cadence : RenudgeCadence) (turn : Nat) (tracked : List UnreadItem) : DispatchEvent → List UnreadItem
  | .queue (.enqueue entry) =>
    if entry.key ∈ tracked.map UnreadItem.key then tracked else tracked ++ [⟨turn, entry, 0⟩]
  | .queue (.ack sessionId eventId) => tracked.filter fun held => held.key ≠ (sessionId, eventId)
  | .queue (.reconcile _) => tracked
  | .tick now => tracked.map (UnreadItem.advance cadence now)

def nudgesAt (cadence : RenudgeCadence) (turn : Nat) (tracked : List UnreadItem) : DispatchEvent → List Nudge
  | .queue _ => []
  | .tick now => tracked.filterMap (UnreadItem.nudge cadence turn now)

def dispatchStep (cadence : RenudgeCadence) (s : Dispatcher) (event : DispatchEvent) : Dispatcher :=
  ⟨s.turn + 1, trackedAfter cadence s.turn s.tracked event, s.nudges ++ nudgesAt cadence s.turn s.tracked event⟩

def dispatch (cadence : RenudgeCadence) (events : List DispatchEvent) : Dispatcher :=
  events.foldl (dispatchStep cadence) ⟨0, [], []⟩

def queueEvents (events : List DispatchEvent) : List QueueEvent :=
  events.filterMap fun
    | .queue event => some event
    | .tick _ => none

def tickTimes (events : List DispatchEvent) : List Rat :=
  events.filterMap fun
    | .queue _ => none
    | .tick now => some now

/-! ## The nudges of a run -/

/-- The nudges of a run: one a step, each after its deadline and before the acknowledgement. -/
structure Stepwise (cadence : RenudgeCadence) (events : List DispatchEvent) : Prop where
  once : (dispatch cadence events).nudges.Pairwise fun first second =>
    first.item = second.item → first.wake.renudgeIndex < second.wake.renudgeIndex
  step : ∀ nudge ∈ (dispatch cadence events).nudges, nudge.wake.renudgeIndex < cadence.length
  deadline : ∀ nudge ∈ (dispatch cadence events).nudges,
    nudge.wake.renudgeAt = renudgeDeadline nudge.wake.entry.atMs nudge.wake.renudgeIndex cadence ∧
    events[nudge.turn]? = some (.tick nudge.tickedAt) ∧ nudge.wake.renudgeAt ≤ nudge.tickedAt
  unread : ∀ nudge ∈ (dispatch cadence events).nudges,
    events[nudge.item]? = some (.queue (.enqueue nudge.wake.entry)) ∧ nudge.item < nudge.turn ∧
    ∀ turn, nudge.item < turn → turn < nudge.turn →
      events[turn]? ≠ some (.queue (.ack nudge.wake.entry.sessionId nudge.wake.entry.eventId))
  /-- Where no event is enqueued again after an acknowledgement of it, an event is one item. -/
  stay : NoRevival (queueEvents events) → ∀ nudge ∈ (dispatch cadence events).nudges,
    (∀ turn < nudge.turn,
      events[turn]? ≠ some (.queue (.ack nudge.wake.entry.sessionId nudge.wake.entry.eventId))) ∧
    ∀ other ∈ (dispatch cadence events).nudges, other.wake.entry.key = nudge.wake.entry.key → other.item = nudge.item

/-- No nudge fires for a deadline that had already passed when the item's nudge before it fired. -/
def NoBurst (cadence : RenudgeCadence) (events : List DispatchEvent) : Prop :=
  (dispatch cadence events).nudges.Pairwise fun first second => first.item = second.item →
    ¬ (first.wake.renudgeAt ≤ first.tickedAt ∧ second.wake.renudgeAt ≤ first.tickedAt)

instance (cadence : RenudgeCadence) (events : List DispatchEvent) : Decidable (NoBurst cadence events) :=
  inferInstanceAs (Decidable (List.Pairwise _ _))

/-- No item that a tick finds with two deadlines passed is still unread at a later tick. -/
def Prompt (cadence : RenudgeCadence) (events : List DispatchEvent) : Prop :=
  ∀ turn later now again, turn < later → events[turn]? = some (.tick now) → events[later]? = some (.tick again) →
    ∀ held ∈ (dispatch cadence (events.take turn)).tracked, ∀ kept ∈ (dispatch cadence (events.take later)).tracked,
      held.item = kept.item → held.candidate.renudgesFired + 1 < cadence.length →
        now < renudgeDeadline held.candidate.entry.atMs (held.candidate.renudgesFired + 1) cadence

/-! ## One event -/

theorem dispatch_append (cadence : RenudgeCadence) (events : List DispatchEvent) (event : DispatchEvent) :
    dispatch cadence (events ++ [event]) = dispatchStep cadence (dispatch cadence events) event := by
  rw [dispatch, List.foldl_concat, dispatch]

@[simp] theorem dispatch_turn (cadence : RenudgeCadence) (events : List DispatchEvent) :
    (dispatch cadence events).turn = events.length := by
  induction events using List.reverseRecOn with
  | nil => rfl
  | append_singleton events event ih =>
    rw [dispatch_append, dispatchStep, ih, List.length_append, List.length_singleton]

@[simp] theorem advance_item (cadence : RenudgeCadence) (now : Rat) (held : UnreadItem) :
    (held.advance cadence now).item = held.item := by
  unfold UnreadItem.advance
  split <;> rfl

@[simp] theorem advance_entry (cadence : RenudgeCadence) (now : Rat) (held : UnreadItem) :
    (held.advance cadence now).candidate.entry = held.candidate.entry := by
  unfold UnreadItem.advance
  split <;> rfl

@[simp] theorem advance_key (cadence : RenudgeCadence) (now : Rat) (held : UnreadItem) :
    (held.advance cadence now).key = held.key := by
  rw [UnreadItem.key, advance_entry, UnreadItem.key]

/-- What is tracked after an event was tracked before it, or is the item it enqueued. -/
theorem tracked_cases {cadence : RenudgeCadence} {turn : Nat} {tracked : List UnreadItem} {event : DispatchEvent}
    {held : UnreadItem} (h : held ∈ trackedAfter cadence turn tracked event) :
    (∃ now, event = .tick now ∧ ∃ before ∈ tracked, held = before.advance cadence now) ∨
    (held ∈ tracked ∧ (∀ now, event ≠ .tick now) ∧
      event ≠ .queue (.ack held.candidate.entry.sessionId held.candidate.entry.eventId)) ∨
    ∃ entry, event = .queue (.enqueue entry) ∧ entry.key ∉ tracked.map UnreadItem.key ∧ held = ⟨turn, entry, 0⟩ := by
  cases event with
  | tick now =>
    obtain ⟨before, hbefore, rfl⟩ := List.mem_map.mp h
    exact .inl ⟨now, rfl, before, hbefore, rfl⟩
  | queue event =>
    cases event with
    | enqueue entry =>
      rw [trackedAfter] at h
      split at h
      · exact .inr (.inl ⟨h, by simp, by simp⟩)
      · rename_i hnew
        rcases List.mem_append.mp h with hold | hadded
        · exact .inr (.inl ⟨hold, by simp, by simp⟩)
        · exact .inr (.inr ⟨entry, rfl, hnew, List.mem_singleton.mp hadded⟩)
    | ack sessionId eventId =>
      obtain ⟨hold, hkey⟩ := List.mem_filter.mp h
      refine .inr (.inl ⟨hold, by simp, fun heq => ?_⟩)
      simp only [DispatchEvent.queue.injEq, QueueEvent.ack.injEq] at heq
      rw [heq.1, heq.2] at hkey
      simp [UnreadItem.key, UnreadEntry.key] at hkey
    | reconcile sessionId => exact .inr (.inl ⟨h, by simp, by simp⟩)

theorem nudge_eq_some {cadence : RenudgeCadence} {turn : Nat} {now : Rat} {held : UnreadItem} {nudge : Nudge} :
    held.nudge cadence turn now = some nudge ↔
      ∃ wake, dueRenudge now cadence held.candidate = some wake ∧ nudge = ⟨held.item, turn, now, wake⟩ := by
  rw [UnreadItem.nudge, Option.map_eq_some_iff]
  exact exists_congr fun wake => and_congr_right fun _ => eq_comm

/-- An event's nudges are the due ones of the items tracked before it. -/
theorem mem_nudgesAt {cadence : RenudgeCadence} {turn : Nat} {tracked : List UnreadItem} {event : DispatchEvent}
    {nudge : Nudge} :
    nudge ∈ nudgesAt cadence turn tracked event ↔
      event = .tick nudge.tickedAt ∧ nudge.turn = turn ∧
        ∃ held ∈ tracked, held.item = nudge.item ∧
          dueRenudge nudge.tickedAt cadence held.candidate = some nudge.wake := by
  cases event with
  | queue event => simp [nudgesAt]
  | tick now =>
    simp only [nudgesAt, List.mem_filterMap, nudge_eq_some, DispatchEvent.tick.injEq]
    constructor
    · intro hparts
      obtain ⟨held, hheld, wake, hdue, rfl⟩ := hparts
      exact ⟨rfl, rfl, held, hheld, rfl, hdue⟩
    · intro hfacts
      obtain ⟨rfl, rfl, held, hheld, hitem, hdue⟩ := hfacts
      exact ⟨held, hheld, nudge.wake, hdue, by rw [hitem]⟩

/-! ## The dispatcher's candidates are the unread queue -/

theorem tracked_queue (cadence : RenudgeCadence) (turn : Nat) (tracked : List UnreadItem) (event : QueueEvent) :
    (trackedAfter cadence turn tracked (.queue event)).map (·.candidate.entry) =
      queueStep (tracked.map (·.candidate.entry)) event := by
  cases event with
  | enqueue entry =>
    have hheld : entry.key ∈ tracked.map UnreadItem.key ↔
        (tracked.map (·.candidate.entry)).any fun existing =>
          existing.sessionId = entry.sessionId ∧ existing.eventId = entry.eventId := by
      simp [UnreadItem.key, UnreadEntry.key, Prod.ext_iff]
    rw [trackedAfter, queueStep, enqueueUnread]
    by_cases hkey : entry.key ∈ tracked.map UnreadItem.key
    · rw [if_pos hkey, if_pos (hheld.mp hkey)]
    · rw [if_neg hkey, if_neg (mt hheld.mpr hkey), List.map_append, List.map_singleton]
  | ack sessionId eventId =>
    rw [trackedAfter, queueStep, ackUnread, List.filter_map]
    congr 1
    refine List.filter_congr fun held _ => ?_
    simp [UnreadItem.key, UnreadEntry.key]
  | reconcile sessionId => rfl

theorem dispatch_queue (cadence : RenudgeCadence) (events : List DispatchEvent) :
    (dispatch cadence events).tracked.map (·.candidate.entry) = queueAfter (queueEvents events) := by
  induction events using List.reverseRecOn with
  | nil => rfl
  | append_singleton events event ih =>
    have hsplit : queueEvents (events ++ [event]) = queueEvents events ++ queueEvents [event] := List.filterMap_append
    rw [dispatch_append, dispatchStep, hsplit]
    cases event with
    | queue event =>
      have hlast : queueEvents [.queue event] = [event] := rfl
      rw [tracked_queue, ih, hlast, queueAfter_append]
    | tick now =>
      have hlast : queueEvents [.tick now] = [] := rfl
      rw [trackedAfter, List.map_map, hlast, List.append_nil, ← ih]
      simp [Function.comp_def]

/-- A tick's nudges are the due ones of the candidates. -/
theorem nudgesAt_wakes (cadence : RenudgeCadence) (turn : Nat) (tracked : List UnreadItem) (now : Rat) :
    (nudgesAt cadence turn tracked (.tick now)).map Nudge.wake =
      dueRenudges (tracked.map UnreadItem.candidate) now cadence := by
  rw [nudgesAt, dueRenudges, List.map_filterMap, List.filterMap_map]
  refine List.filterMap_congr fun held _ => ?_
  cases hdue : dueRenudge now cadence held.candidate <;> simp [UnreadItem.nudge, hdue]

/-! ## What a run keeps -/

/-- A nudge is the due verdict of an item that its tick found tracked. -/
theorem mem_nudges {cadence : RenudgeCadence} {events : List DispatchEvent} {nudge : Nudge} :
    nudge ∈ (dispatch cadence events).nudges ↔
      events[nudge.turn]? = some (.tick nudge.tickedAt) ∧
        ∃ held ∈ (dispatch cadence (events.take nudge.turn)).tracked,
          held.item = nudge.item ∧ dueRenudge nudge.tickedAt cadence held.candidate = some nudge.wake := by
  induction events using List.reverseRecOn with
  | nil => simp [dispatch]
  | append_singleton events event ih =>
    rw [dispatch_append, dispatchStep, List.mem_append, ih, mem_nudgesAt, dispatch_turn]
    constructor
    · rintro (⟨hat, hheld⟩ | ⟨rfl, hturn, hheld⟩)
      · have hlt := (List.getElem?_eq_some_iff.mp hat).1
        exact ⟨getElem?_kept (List.prefix_append _ _) hat, by rwa [List.take_append_of_le_length hlt.le]⟩
      · exact ⟨by simp [hturn], by rwa [hturn, List.take_left']; rfl⟩
    · intro hboth
      obtain ⟨hat, hheld⟩ := hboth
      rcases getElem?_concat_cases hat with hat | ⟨hturn, rfl⟩
      · have hlt := (List.getElem?_eq_some_iff.mp hat).1
        exact .inl ⟨hat, by rwa [List.take_append_of_le_length hlt.le] at hheld⟩
      · exact .inr ⟨rfl, hturn, by rwa [hturn, List.take_left' rfl] at hheld⟩

structure Kept (cadence : RenudgeCadence) (events : List DispatchEvent) (s : Dispatcher) : Prop where
  items : (s.tracked.map UnreadItem.item).Nodup
  enqueued : ∀ held ∈ s.tracked, events[held.item]? = some (.queue (.enqueue held.candidate.entry))
  unacked : ∀ held ∈ s.tracked, ∀ turn, held.item < turn →
    events[turn]? ≠ some (.queue (.ack held.candidate.entry.sessionId held.candidate.entry.eventId))
  /-- The item's enqueue found the queue without its event. -/
  fresh : ∀ held ∈ s.tracked, held.key ∉ (dispatch cadence (events.take held.item)).tracked.map UnreadItem.key
  counted : ∀ held ∈ s.tracked, ∀ nudge ∈ s.nudges, nudge.item = held.item →
    nudge.wake.renudgeIndex < held.candidate.renudgesFired
  filled : ∀ held ∈ s.tracked, ∀ i < held.candidate.renudgesFired, ∃ nudge ∈ s.nudges,
    nudge.item = held.item ∧ nudge.wake.renudgeIndex = i
  past : ∀ nudge ∈ s.nudges, nudge.item < nudge.turn ∧ nudge.turn < events.length
  ordered : s.nudges.Pairwise fun first second => first.item = second.item →
    first.turn < second.turn ∧ first.wake.renudgeIndex < second.wake.renudgeIndex

section
variable {cadence : RenudgeCadence} {events : List DispatchEvent} {s : Dispatcher}

theorem Kept.item_lt (h : Kept cadence events s) {held : UnreadItem} (hheld : held ∈ s.tracked) :
    held.item < events.length :=
  (List.getElem?_eq_some_iff.mp (h.enqueued held hheld)).1

theorem Kept.same (h : Kept cadence events s) {held other : UnreadItem} (hheld : held ∈ s.tracked)
    (hother : other ∈ s.tracked) (hitem : held.item = other.item) : held = other :=
  List.inj_on_of_nodup_map h.items hheld hother hitem

theorem Kept.items_after (h : Kept cadence events s) (event : DispatchEvent) :
    ((trackedAfter cadence events.length s.tracked event).map UnreadItem.item).Nodup := by
  cases event with
  | tick now =>
    have hsame : (s.tracked.map (UnreadItem.advance cadence now)).map UnreadItem.item =
        s.tracked.map UnreadItem.item := by
      simp [Function.comp_def]
    rw [trackedAfter, hsame]
    exact h.items
  | queue event =>
    cases event with
    | enqueue entry =>
      rw [trackedAfter]
      split
      · exact h.items
      · rw [List.map_append, List.map_singleton]
        refine List.Nodup.append h.items (List.nodup_singleton _) (List.disjoint_singleton.mpr fun hmem => ?_)
        obtain ⟨held, hheld, hitem⟩ := List.mem_map.mp hmem
        exact absurd hitem (h.item_lt hheld).ne
    | ack sessionId eventId => exact h.items.sublist (List.filter_sublist.map _)
    | reconcile sessionId => exact h.items

theorem Kept.enqueued_after (h : Kept cadence events s) (event : DispatchEvent) :
    ∀ held ∈ trackedAfter cadence events.length s.tracked event,
      (events ++ [event])[held.item]? = some (.queue (.enqueue held.candidate.entry)) := by
  intro held hheld
  rcases tracked_cases hheld with ⟨now, -, before, hbefore, rfl⟩ | ⟨hold, -, -⟩ | ⟨entry, rfl, -, rfl⟩
  · rw [advance_item, advance_entry]
    exact getElem?_kept (List.prefix_append _ _) (h.enqueued before hbefore)
  · exact getElem?_kept (List.prefix_append _ _) (h.enqueued held hold)
  · simp

theorem Kept.unacked_after (h : Kept cadence events s) (event : DispatchEvent) :
    ∀ held ∈ trackedAfter cadence events.length s.tracked event, ∀ turn, held.item < turn →
      (events ++ [event])[turn]? ≠
        some (.queue (.ack held.candidate.entry.sessionId held.candidate.entry.eventId)) := by
  intro held hheld turn hlater hack
  rcases tracked_cases hheld with ⟨now, rfl, before, hbefore, rfl⟩ | ⟨hold, -, hnot⟩ | ⟨entry, rfl, -, rfl⟩
  · rw [advance_item] at hlater
    rw [advance_entry] at hack
    rcases getElem?_concat_cases hack with hack | ⟨-, hlast⟩
    · exact h.unacked before hbefore turn hlater hack
    · cases hlast
  · rcases getElem?_concat_cases hack with hack | ⟨-, hlast⟩
    · exact h.unacked held hold turn hlater hack
    · exact hnot hlast
  · rcases getElem?_concat_cases hack with hack | ⟨rfl, -⟩
    · exact absurd (List.getElem?_eq_some_iff.mp hack).1 (Nat.lt_asymm hlater)
    · exact absurd hlater (Nat.lt_irrefl _)

theorem Kept.fresh_after (h : Kept cadence events s) (hs : s = dispatch cadence events) (event : DispatchEvent) :
    ∀ held ∈ trackedAfter cadence events.length s.tracked event,
      held.key ∉ (dispatch cadence ((events ++ [event]).take held.item)).tracked.map UnreadItem.key := by
  intro held hheld
  rcases tracked_cases hheld with ⟨now, rfl, before, hbefore, rfl⟩ | ⟨hold, -, -⟩ | ⟨entry, rfl, hnew, rfl⟩
  · rw [advance_item, advance_key, List.take_append_of_le_length (h.item_lt hbefore).le]
    exact h.fresh before hbefore
  · rw [List.take_append_of_le_length (h.item_lt hold).le]
    exact h.fresh held hold
  · rwa [List.take_left' rfl, ← hs]

/-- A tick counts the nudges it fires. -/
theorem advance_due {now : Rat} {held : UnreadItem} {wake : DueRenudge}
    (hdue : dueRenudge now cadence held.candidate = some wake) :
    (held.advance cadence now).candidate.renudgesFired = held.candidate.renudgesFired + 1 ∧
      wake.renudgeIndex = held.candidate.renudgesFired := by
  refine ⟨by rw [UnreadItem.advance, hdue], ?_⟩
  rw [(dueRenudge_eq_some.mp hdue).2.2]

theorem advance_idle {now : Rat} {held : UnreadItem} (hidle : dueRenudge now cadence held.candidate = none) :
    held.advance cadence now = held := by
  rw [UnreadItem.advance, hidle]

theorem advance_le (now : Rat) (held : UnreadItem) :
    held.candidate.renudgesFired ≤ (held.advance cadence now).candidate.renudgesFired := by
  cases hdue : dueRenudge now cadence held.candidate with
  | none => rw [advance_idle hdue]
  | some wake => rw [(advance_due hdue).1]; exact Nat.le_succ _

theorem Kept.counted_after (h : Kept cadence events s) (event : DispatchEvent) :
    ∀ held ∈ trackedAfter cadence events.length s.tracked event,
      ∀ nudge ∈ s.nudges ++ nudgesAt cadence events.length s.tracked event, nudge.item = held.item →
        nudge.wake.renudgeIndex < held.candidate.renudgesFired := by
  intro held hheld nudge hnudge hitem
  rcases tracked_cases hheld with ⟨now, rfl, before, hbefore, rfl⟩ | ⟨hold, hquiet, -⟩ | ⟨entry, rfl, -, rfl⟩
  · rw [advance_item] at hitem
    rcases List.mem_append.mp hnudge with hsent | hsent
    · exact (h.counted before hbefore nudge hsent hitem).trans_le (advance_le now before)
    · obtain ⟨htick, -, other, hother, hsame, hdue⟩ := mem_nudgesAt.mp hsent
      obtain rfl := DispatchEvent.tick.inj htick
      obtain rfl := h.same hother hbefore (hsame.trans hitem)
      rw [(advance_due hdue).1, (advance_due hdue).2]
      exact Nat.lt_succ_self _
  · rcases List.mem_append.mp hnudge with hsent | hsent
    · exact h.counted held hold nudge hsent hitem
    · exact absurd (mem_nudgesAt.mp hsent).1 (hquiet _)
  · rw [nudgesAt, List.append_nil] at hnudge
    have hpast := h.past nudge hnudge
    have hlength : nudge.item = events.length := hitem
    omega

theorem Kept.filled_after (h : Kept cadence events s) (event : DispatchEvent) :
    ∀ held ∈ trackedAfter cadence events.length s.tracked event, ∀ i < held.candidate.renudgesFired,
      ∃ nudge ∈ s.nudges ++ nudgesAt cadence events.length s.tracked event,
        nudge.item = held.item ∧ nudge.wake.renudgeIndex = i := by
  intro held hheld i hi
  have hbefore : ∀ before ∈ s.tracked, before.item = held.item → i < before.candidate.renudgesFired →
      ∃ nudge ∈ s.nudges ++ nudgesAt cadence events.length s.tracked event,
        nudge.item = held.item ∧ nudge.wake.renudgeIndex = i := by
    intro before hmem hitem hfired
    obtain ⟨nudge, hnudge, hsame, hindex⟩ := h.filled before hmem i hfired
    exact ⟨nudge, List.mem_append_left _ hnudge, hsame.trans hitem, hindex⟩
  rcases tracked_cases hheld with ⟨now, rfl, before, hmem, rfl⟩ | ⟨hold, -, -⟩ | ⟨entry, rfl, -, rfl⟩
  · have hitem := (advance_item cadence now before).symm
    cases hdue : dueRenudge now cadence before.candidate with
    | none =>
      rw [advance_idle hdue] at hi
      exact hbefore before hmem hitem hi
    | some wake =>
      rw [(advance_due hdue).1] at hi
      rcases Nat.lt_succ_iff_lt_or_eq.mp hi with hfired | rfl
      · exact hbefore before hmem hitem hfired
      · refine ⟨⟨before.item, events.length, now, wake⟩, List.mem_append_right _ ?_, hitem, (advance_due hdue).2⟩
        exact mem_nudgesAt.mpr ⟨rfl, rfl, before, hmem, rfl, hdue⟩
  · exact hbefore held hold rfl hi
  · exact absurd hi (Nat.not_lt_zero i)

theorem Kept.past_after (h : Kept cadence events s) (event : DispatchEvent) :
    ∀ nudge ∈ s.nudges ++ nudgesAt cadence events.length s.tracked event,
      nudge.item < nudge.turn ∧ nudge.turn < (events ++ [event]).length := by
  intro nudge hnudge
  rw [List.length_append, List.length_singleton]
  rcases List.mem_append.mp hnudge with hsent | hsent
  · have hpast := h.past nudge hsent
    omega
  · obtain ⟨-, hturn, held, hheld, hitem, -⟩ := mem_nudgesAt.mp hsent
    have hlt := h.item_lt hheld
    omega

theorem Kept.ordered_after (h : Kept cadence events s) (event : DispatchEvent) :
    (s.nudges ++ nudgesAt cadence events.length s.tracked event).Pairwise fun first second =>
      first.item = second.item → first.turn < second.turn ∧ first.wake.renudgeIndex < second.wake.renudgeIndex := by
  refine List.pairwise_append.mpr ⟨h.ordered, ?_, fun first hfirst second hsecond hitem => ?_⟩
  · -- one tick nudges an item once
    cases event with
    | queue event => exact List.Pairwise.nil
    | tick now =>
      refine List.pairwise_filterMap.mpr ((List.pairwise_map.mp h.items).imp ?_)
      intro held other hne first hfirst second hsecond hitem
      obtain ⟨_, -, rfl⟩ := nudge_eq_some.mp hfirst
      obtain ⟨_, -, rfl⟩ := nudge_eq_some.mp hsecond
      exact absurd hitem hne
  · obtain ⟨-, hturn, held, hheld, hsame, hdue⟩ := mem_nudgesAt.mp hsecond
    have hpast := (h.past first hfirst).2
    have hcounted := h.counted held hheld first hfirst (hitem.trans hsame.symm)
    rw [hturn, (advance_due hdue).2]
    exact ⟨hpast, hcounted⟩

end

theorem kept (cadence : RenudgeCadence) (events : List DispatchEvent) :
    Kept cadence events (dispatch cadence events) := by
  induction events using List.reverseRecOn with
  | nil => exact ⟨List.nodup_nil, by simp [dispatch], by simp [dispatch], by simp [dispatch], by simp [dispatch],
      by simp [dispatch], by simp [dispatch], List.Pairwise.nil⟩
  | append_singleton events event ih =>
    rw [dispatch_append, dispatchStep, dispatch_turn]
    exact ⟨ih.items_after event, ih.enqueued_after event, ih.unacked_after event, ih.fresh_after rfl event,
      ih.counted_after event, ih.filled_after event, ih.past_after event, ih.ordered_after event⟩

/-! ## One nudge a step, while the item is unread -/

theorem noRevival_at {events : List DispatchEvent} (h : NoRevival (queueEvents events)) {i j : Nat} (hij : i < j)
    {sessionId : JsString} {eventId : Rat} {entry : UnreadEntry}
    (hack : events[i]? = some (.queue (.ack sessionId eventId)))
    (henqueue : events[j]? = some (.queue (.enqueue entry))) : entry.key ≠ (sessionId, eventId) := by
  obtain ⟨hi, hacked⟩ := List.getElem?_eq_some_iff.mp hack
  obtain ⟨hj, henqueued⟩ := List.getElem?_eq_some_iff.mp henqueue
  have hpair := List.pairwise_iff_getElem.mp (List.pairwise_filterMap.mp h) i j hi hj hij
  rw [hacked, henqueued] at hpair
  have hkept := hpair _ rfl _ rfl
  simpa [QueueEvent.revives] using hkept

theorem mem_queueEvents_take {events : List DispatchEvent} {event : QueueEvent} {n : Nat} :
    event ∈ queueEvents (events.take n) ↔ ∃ i < n, events[i]? = some (.queue event) := by
  have hmem : event ∈ queueEvents (events.take n) ↔ DispatchEvent.queue event ∈ events.take n := by
    rw [queueEvents, List.mem_filterMap]
    constructor
    · rintro ⟨_ | _, hin, hsome⟩
      · cases hsome
        exact hin
      · cases hsome
    · exact fun hin => ⟨_, hin, rfl⟩
  rw [hmem, List.mem_iff_getElem?]
  refine exists_congr fun i => ?_
  rw [List.getElem?_take]
  split
  · rename_i hlt
    exact ⟨fun hat => ⟨hlt, hat⟩, fun hat => hat.2⟩
  · rename_i hge
    exact ⟨fun hat => (nomatch hat), fun hat => absurd hat.1 hge⟩

/-- The item a nudge is of, as its tick found it. -/
theorem nudge_item {cadence : RenudgeCadence} {events : List DispatchEvent} {nudge : Nudge}
    (h : nudge ∈ (dispatch cadence events).nudges) :
    ∃ held ∈ (dispatch cadence (events.take nudge.turn)).tracked, held.item = nudge.item ∧
      held.candidate = ⟨nudge.wake.entry, nudge.wake.renudgeIndex⟩ := by
  obtain ⟨-, held, hheld, hitem, hdue⟩ := mem_nudges.mp h
  refine ⟨held, hheld, hitem, ?_⟩
  rw [(dueRenudge_eq_some.mp hdue).2.2]

theorem nudge_unread {cadence : RenudgeCadence} {events : List DispatchEvent} {nudge : Nudge}
    (h : nudge ∈ (dispatch cadence events).nudges) :
    events[nudge.item]? = some (.queue (.enqueue nudge.wake.entry)) ∧ nudge.item < nudge.turn ∧
      ∀ turn, nudge.item < turn → turn < nudge.turn →
        events[turn]? ≠ some (.queue (.ack nudge.wake.entry.sessionId nudge.wake.entry.eventId)) := by
  obtain ⟨held, hheld, hitem, hcandidate⟩ := nudge_item h
  have hkept := kept cadence (events.take nudge.turn)
  have hpast := ((kept cadence events).past nudge h).1
  have henqueued := hkept.enqueued held hheld
  rw [hitem, hcandidate, List.getElem?_take_of_lt hpast] at henqueued
  refine ⟨henqueued, hpast, fun turn hlater hearlier hack => ?_⟩
  have hunacked := hkept.unacked held hheld turn (hitem ▸ hlater)
  rw [hcandidate, List.getElem?_take_of_lt hearlier] at hunacked
  exact hunacked hack

/-- Without a revival, an event nudged as two items would have been enqueued while it was unread. -/
theorem one_stay {cadence : RenudgeCadence} {events : List DispatchEvent} (h : NoRevival (queueEvents events))
    {first second : Nudge} (hfirst : first ∈ (dispatch cadence events).nudges)
    (hsecond : second ∈ (dispatch cadence events).nudges) (hkey : first.wake.entry.key = second.wake.entry.key) :
    ¬ first.item < second.item := by
  intro hlt
  obtain ⟨held, hheld, hitem, hcandidate⟩ := nudge_item hsecond
  obtain ⟨henqueued, hpast, -⟩ := nudge_unread hsecond
  have hfresh := (kept cadence (events.take second.turn)).fresh held hheld
  rw [hitem, List.take_take, Nat.min_eq_left hpast.le, UnreadItem.key, hcandidate] at hfresh
  have hkeys : (dispatch cadence (events.take second.item)).tracked.map UnreadItem.key =
      (queueAfter (queueEvents (events.take second.item))).map UnreadEntry.key := by
    rw [← dispatch_queue, List.map_map]
    rfl
  have hprefix : NoRevival (queueEvents (events.take second.item)) :=
    h.sublist ((List.take_sublist second.item events).filterMap _)
  rw [hkeys, (accounts_after hprefix).outstanding] at hfresh
  refine hfresh ⟨⟨first.wake.entry, mem_queueEvents_take.mpr ⟨first.item, hlt, (nudge_unread hfirst).1⟩, hkey⟩, ?_⟩
  intro hack
  obtain ⟨i, hi, hat⟩ := mem_queueEvents_take.mp hack
  exact noRevival_at h hi hat henqueued rfl

theorem stepwise (cadence : RenudgeCadence) (events : List DispatchEvent) : Stepwise cadence events := by
  refine ⟨(kept cadence events).ordered.imp fun hordered hitem => (hordered hitem).2, fun nudge hnudge => ?_,
    fun nudge hnudge => ?_, fun nudge => nudge_unread, fun h nudge hnudge => ⟨fun turn hearlier hack => ?_,
    fun other hother hkey => ?_⟩⟩
  · obtain ⟨-, held, -, -, hdue⟩ := mem_nudges.mp hnudge
    obtain ⟨hunspent, -, hwake⟩ := dueRenudge_eq_some.mp hdue
    rwa [hwake]
  · obtain ⟨htick, held, -, -, hdue⟩ := mem_nudges.mp hnudge
    obtain ⟨-, hpassed, hwake⟩ := dueRenudge_eq_some.mp hdue
    rw [hwake]
    exact ⟨rfl, htick, hpassed⟩
  · obtain ⟨henqueued, -, hunacked⟩ := nudge_unread hnudge
    rcases Nat.lt_trichotomy turn nudge.item with hlt | rfl | hgt
    · exact noRevival_at h hlt hack henqueued rfl
    · rw [henqueued] at hack
      cases hack
    · exact hunacked turn hgt hearlier hack
  · exact Nat.le_antisymm (Nat.le_of_not_lt (one_stay h hnudge hother hkey.symm))
      (Nat.le_of_not_lt (one_stay h hother hnudge hkey))

/-! ## No burst -/

theorem mem_nudges_take {cadence : RenudgeCadence} {events : List DispatchEvent} {n : Nat} {nudge : Nudge} :
    nudge ∈ (dispatch cadence (events.take n)).nudges ↔
      nudge ∈ (dispatch cadence events).nudges ∧ nudge.turn < n := by
  rw [mem_nudges, @mem_nudges cadence events nudge]
  by_cases hturn : nudge.turn < n
  · rw [List.getElem?_take_of_lt hturn, List.take_take, Nat.min_eq_left hturn.le]
    exact ⟨fun h => ⟨h, hturn⟩, And.left⟩
  · rw [List.getElem?_take, if_neg hturn]
    exact ⟨fun h => (nomatch h.1), fun h => absurd h.2 hturn⟩

theorem ticks_at {events : List DispatchEvent} (h : (tickTimes events).Pairwise (· ≤ ·)) {i j : Nat} (hij : i < j)
    {now again : Rat} (hnow : events[i]? = some (.tick now)) (hagain : events[j]? = some (.tick again)) :
    now ≤ again := by
  obtain ⟨hi, hfirst⟩ := List.getElem?_eq_some_iff.mp hnow
  obtain ⟨hj, hsecond⟩ := List.getElem?_eq_some_iff.mp hagain
  have hpair := List.pairwise_iff_getElem.mp (List.pairwise_filterMap.mp h) i j hi hj hij
  rw [hfirst, hsecond] at hpair
  exact hpair _ rfl _ rfl

/-- A tick that finds an item's next deadline passed nudges it. -/
theorem due_fires {cadence : RenudgeCadence} {events : List DispatchEvent} {turn : Nat} {now : Rat} {held : UnreadItem}
    (hnow : events[turn]? = some (.tick now)) (hheld : held ∈ (dispatch cadence (events.take turn)).tracked)
    (hstep : held.candidate.renudgesFired < cadence.length)
    (hpassed : renudgeDeadline held.candidate.entry.atMs held.candidate.renudgesFired cadence ≤ now) :
    ∃ nudge ∈ (dispatch cadence events).nudges, nudge.item = held.item ∧ nudge.turn = turn ∧ nudge.tickedAt = now ∧
      nudge.wake.renudgeIndex = held.candidate.renudgesFired :=
  ⟨⟨held.item, turn, now, held.candidate.entry, held.candidate.renudgesFired, _⟩,
    mem_nudges.mpr ⟨hnow, held, hheld, rfl, dueRenudge_eq_some.mpr ⟨hstep, hpassed, rfl⟩⟩, rfl, rfl, rfl, rfl⟩

/-- Where a tick finds two deadlines of an item passed and a later tick finds the item, the run
    has a nudge for each of the two. -/
theorem overdue_fires {cadence : RenudgeCadence} (hgaps : ∀ gap ∈ cadence, 0 < gap) {events : List DispatchEvent}
    (hticks : (tickTimes events).Pairwise (· ≤ ·)) {turn later : Nat} {now again : Rat} (hlater : turn < later)
    (hnow : events[turn]? = some (.tick now)) (hagain : events[later]? = some (.tick again)) {held left : UnreadItem}
    (hheld : held ∈ (dispatch cadence (events.take turn)).tracked)
    (hleft : left ∈ (dispatch cadence (events.take later)).tracked) (hitem : held.item = left.item)
    (hsteps : held.candidate.renudgesFired + 1 < cadence.length)
    (hover : renudgeDeadline held.candidate.entry.atMs (held.candidate.renudgesFired + 1) cadence ≤ now) :
    ∃ first ∈ (dispatch cadence events).nudges, ∃ second ∈ (dispatch cadence events).nudges,
      first.item = held.item ∧ second.item = held.item ∧ first.tickedAt = now ∧
      first.wake.renudgeIndex = held.candidate.renudgesFired ∧
      second.wake.renudgeIndex = held.candidate.renudgesFired + 1 := by
  have hpassed := (deadline_mono hgaps held.candidate.entry.atMs (Nat.le_succ _) hsteps).trans hover
  obtain ⟨first, hfirst, hfirstItem, hfirstTurn, htickedAt, hfirstIndex⟩ :=
    due_fires hnow hheld (Nat.lt_of_succ_lt hsteps) hpassed
  refine ⟨first, hfirst, ?_⟩
  have hkept := kept cadence (events.take later)
  have hentry : left.candidate.entry = held.candidate.entry := by
    have hearly := getElem?_kept (List.take_prefix _ _) ((kept cadence (events.take turn)).enqueued held hheld)
    have hlate := getElem?_kept (List.take_prefix _ _) (hkept.enqueued left hleft)
    rw [← hitem, hearly] at hlate
    simpa using hlate.symm
  have hcount : held.candidate.renudgesFired < left.candidate.renudgesFired := by
    have hsent := hkept.counted left hleft first (mem_nudges_take.mpr ⟨hfirst, hfirstTurn ▸ hlater⟩)
      (hfirstItem.trans hitem)
    rwa [hfirstIndex] at hsent
  rcases Nat.lt_or_eq_of_le hcount with hmore | hnext
  · -- the second step fired before the later tick
    obtain ⟨second, hsecond, hsecondItem, hsecondIndex⟩ := hkept.filled left hleft _ hmore
    exact ⟨second, (mem_nudges_take.mp hsecond).1, hfirstItem, hsecondItem.trans hitem.symm, htickedAt, hfirstIndex,
      hsecondIndex⟩
  · -- the later tick fires it
    have hdue : renudgeDeadline left.candidate.entry.atMs left.candidate.renudgesFired cadence ≤ again := by
      rw [hentry, ← hnext]
      exact hover.trans (ticks_at hticks hlater hnow hagain)
    obtain ⟨second, hsecond, hsecondItem, -, -, hsecondIndex⟩ := due_fires hagain hleft (hnext ▸ hsteps) hdue
    exact ⟨second, hsecond, hfirstItem, hsecondItem.trans hitem.symm, htickedAt, hfirstIndex,
      hsecondIndex.trans hnext.symm⟩

/-- The nudges of an item are of one entry. -/
theorem nudge_entry {cadence : RenudgeCadence} {events : List DispatchEvent} {first second : Nudge}
    (hfirst : first ∈ (dispatch cadence events).nudges) (hsecond : second ∈ (dispatch cadence events).nudges)
    (hitem : first.item = second.item) : first.wake.entry = second.wake.entry := by
  have hearly := (nudge_unread hfirst).1
  rw [hitem, (nudge_unread hsecond).1] at hearly
  simpa using hearly.symm

theorem noBurst_iff_prompt {cadence : RenudgeCadence} (hgaps : ∀ gap ∈ cadence, 0 < gap) {events : List DispatchEvent}
    (hticks : (tickTimes events).Pairwise (· ≤ ·)) : NoBurst cadence events ↔ Prompt cadence events := by
  have hordered := (kept cadence events).ordered
  have hdeadline := (stepwise cadence events).deadline
  constructor
  · intro hburst turn later now again hlater hnow hagain held hheld left hleft hitem hsteps
    by_contra hover
    obtain ⟨first, hfirst, second, hsecond, hfirstItem, hsecondItem, rfl, hfirstIndex, hsecondIndex⟩ :=
      overdue_fires hgaps hticks hlater hnow hagain hheld hleft hitem hsteps (not_lt.mp hover)
    have hentry : second.wake.entry = held.candidate.entry := by
      have henqueued := getElem?_kept (List.take_prefix _ _) ((kept cadence (events.take turn)).enqueued held hheld)
      rw [← hsecondItem, (nudge_unread hsecond).1] at henqueued
      simpa using henqueued
    have hpassed : second.wake.renudgeAt ≤ first.tickedAt := by
      rw [(hdeadline second hsecond).1, hentry, hsecondIndex]
      exact not_lt.mp hover
    have hsame : first.item = second.item := hfirstItem.trans hsecondItem.symm
    have hne : first ≠ second := by
      intro heq
      subst heq
      omega
    rcases pairwise_either (hordered.and hburst) hfirst hsecond hne with ⟨-, hquiet⟩ | ⟨hafter, -⟩
    · exact hquiet hsame ⟨(hdeadline first hfirst).2.2, hpassed⟩
    · have hindex := (hafter hsame.symm).2
      omega
  · intro hprompt
    refine hordered.imp_of_mem fun {first second} hfirst hsecond hafter hitem hpassed => ?_
    obtain ⟨hturn, hindex⟩ := hafter hitem
    obtain ⟨held, hheld, hheldItem, hcandidate⟩ := nudge_item hfirst
    obtain ⟨left, hleft, hleftItem, -⟩ := nudge_item hsecond
    have hstep := (stepwise cadence events).step second hsecond
    have hsoon := hprompt first.turn second.turn first.tickedAt second.tickedAt hturn (hdeadline first hfirst).2.1
      (hdeadline second hsecond).2.1 held hheld left hleft (hheldItem.trans (hitem.trans hleftItem.symm))
    rw [hcandidate, nudge_entry hfirst hsecond hitem] at hsoon
    have hlast := deadline_mono hgaps second.wake.entry.atMs hindex hstep
    rw [← (hdeadline second hsecond).1] at hlast
    exact absurd (hlast.trans hpassed.2) (not_le.mpr (hsoon (Nat.lt_of_le_of_lt hindex hstep)))

/-- Under any ticks an item is nudged once a step, after the step's deadline and only while it is
    unread; and without bursts precisely when no item two deadlines behind outlives its tick. -/
theorem renudges_iff_prompt (cadence : RenudgeCadence) (hgaps : ∀ gap ∈ cadence, 0 < gap) (events : List DispatchEvent)
    (hticks : (tickTimes events).Pairwise (· ≤ ·)) :
    Stepwise cadence events ∧ (NoBurst cadence events ↔ Prompt cadence events) :=
  ⟨stepwise cadence events, noBurst_iff_prompt hgaps hticks⟩

/-- A blocked session, ticked once a minute until it is acknowledged. -/
theorem renudges_iff_prompt_minutes :
    Stepwise DEFAULT_RENUDGE_BACKOFF_MS
      [.queue (.enqueue (asking (js "a") 5)), .tick 60000, .tick 120000, .queue (.ack (js "a") 5), .tick 180000] :=
  (renudges_iff_prompt _ (by decide) _ (by decide)).1

/-- A daemon that sleeps over two deadlines and then ticks twice in a row. -/
theorem pause_fires_burst :
    ¬ ∀ events, (tickTimes events).Pairwise (· ≤ ·) → NoBurst DEFAULT_RENUDGE_BACKOFF_MS events := by
  intro h
  have hburst := h [.queue (.enqueue (asking (js "a") 5)), .tick 200000, .tick 200001] (by decide)
  exact absurd hburst (by decide +kernel)

end Ccctl.Server
