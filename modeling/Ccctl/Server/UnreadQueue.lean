import Ccctl.Core.Session
import Mathlib.Algebra.Order.Ring.Rat
import Mathlib.Data.List.Nodup
import Mathlib.Data.List.Sort
/-
  Ccctl.Server.UnreadQueue — the unread "needs-you" queue
  (`packages/server/src/unread-queue.ts`: `enqueueUnread`, `reconcileUnread`, `ackUnread`).

  An acknowledged entry is removed, and that is all that is kept of it. So as long as no event
  is enqueued after an acknowledgement of it, a session's reconcile is exactly its enqueued
  and unacknowledged events, each once, by increasing event id; the first enqueue that comes
  after an acknowledgement puts the event back (`unread_exact_iff`).
-/

namespace Ccctl.Server

open Ccctl.Core

structure UnreadEntry where
  sessionId : JsString
  eventId : Rat
  atMs : Rat
  activity : SessionActivity
  deriving DecidableEq

/-- What names an event: its session and its id there. -/
def UnreadEntry.key (entry : UnreadEntry) : JsString × Rat := (entry.sessionId, entry.eventId)

def enqueueUnread (unread : List UnreadEntry) (entry : UnreadEntry) : List UnreadEntry :=
  if unread.any fun existing => existing.sessionId = entry.sessionId ∧ existing.eventId = entry.eventId then unread
  else unread ++ [entry]

/-- `sort` is stable, by `left.eventId - right.eventId`. -/
def reconcileUnread (unread : List UnreadEntry) (sessionId : JsString) : List UnreadEntry :=
  (unread.filter fun entry => entry.sessionId = sessionId).mergeSort fun left right => left.eventId - right.eventId ≤ 0

def ackUnread (unread : List UnreadEntry) (sessionId : JsString) (eventId : Rat) : List UnreadEntry :=
  unread.filter fun entry => !(entry.sessionId = sessionId ∧ entry.eventId = eventId)

/-! ## Runs -/

inductive QueueEvent where
  | enqueue (entry : UnreadEntry)
  | ack (sessionId : JsString) (eventId : Rat)
  | reconcile (sessionId : JsString)
  deriving DecidableEq

def queueStep (unread : List UnreadEntry) : QueueEvent → List UnreadEntry
  | .enqueue entry => enqueueUnread unread entry
  | .ack sessionId eventId => ackUnread unread sessionId eventId
  | .reconcile _ => unread

def queueAfter (events : List QueueEvent) : List UnreadEntry := events.foldl queueStep []

/-- An enqueue of the event that an acknowledgement named. -/
def QueueEvent.revives : QueueEvent → QueueEvent → Bool
  | .ack sessionId eventId, .enqueue entry => entry.key = (sessionId, eventId)
  | _, _ => false

/-- No event is enqueued after an acknowledgement of it. -/
def NoRevival (events : List QueueEvent) : Prop := events.Pairwise fun earlier later => earlier.revives later = false

instance (events : List QueueEvent) : Decidable (NoRevival events) := inferInstanceAs (Decidable (events.Pairwise _))

def Enqueued (events : List QueueEvent) (key : JsString × Rat) : Prop := ∃ entry, .enqueue entry ∈ events ∧ entry.key = key

/-- What the queue owes a session after these events. -/
structure Exact (events : List QueueEvent) (unread : List UnreadEntry) (sessionId : JsString) : Prop where
  ordered : (reconcileUnread unread sessionId).Pairwise fun left right => left.eventId < right.eventId
  genuine : ∀ entry ∈ reconcileUnread unread sessionId, entry.sessionId = sessionId ∧ .enqueue entry ∈ events
  outstanding : ∀ eventId, (∃ entry ∈ reconcileUnread unread sessionId, entry.eventId = eventId) ↔
    Enqueued events (sessionId, eventId) ∧ .ack sessionId eventId ∉ events

/-! ## The operations by key -/

theorem mem_enqueue {unread : List UnreadEntry} {entry e : UnreadEntry} (h : e ∈ enqueueUnread unread entry) :
    e ∈ unread ∨ e = entry := by
  unfold enqueueUnread at h
  split at h
  · exact Or.inl h
  · simpa using h

theorem keys_enqueue (unread : List UnreadEntry) (entry : UnreadEntry) :
    (enqueueUnread unread entry).map UnreadEntry.key =
      if entry.key ∈ unread.map UnreadEntry.key then unread.map UnreadEntry.key
      else unread.map UnreadEntry.key ++ [entry.key] := by
  have hany : (unread.any fun existing => existing.sessionId = entry.sessionId ∧ existing.eventId = entry.eventId) =
      true ↔ entry.key ∈ unread.map UnreadEntry.key := by
    simp only [List.any_eq_true, decide_eq_true_eq, List.mem_map, UnreadEntry.key, Prod.mk.injEq]
  unfold enqueueUnread
  by_cases h : entry.key ∈ unread.map UnreadEntry.key
  · rw [if_pos (hany.mpr h), if_pos h]
  · rw [if_neg (mt hany.mp h), if_neg h, List.map_append, List.map_singleton]

theorem mem_ack {unread : List UnreadEntry} {sessionId : JsString} {eventId : Rat} {e : UnreadEntry} :
    e ∈ ackUnread unread sessionId eventId ↔ e ∈ unread ∧ e.key ≠ (sessionId, eventId) := by
  simp only [ackUnread, List.mem_filter, Bool.not_eq_true', decide_eq_false_iff_not, UnreadEntry.key, ne_eq,
    Prod.mk.injEq]

theorem keys_ack (unread : List UnreadEntry) (sessionId : JsString) (eventId : Rat) (key : JsString × Rat) :
    key ∈ (ackUnread unread sessionId eventId).map UnreadEntry.key ↔
      key ∈ unread.map UnreadEntry.key ∧ key ≠ (sessionId, eventId) := by
  simp only [List.mem_map, mem_ack]
  constructor
  · intro hex
    obtain ⟨e, ⟨he, hne⟩, rfl⟩ := hex
    exact ⟨⟨e, he, rfl⟩, hne⟩
  · intro hex
    obtain ⟨⟨e, he, rfl⟩, hne⟩ := hex
    exact ⟨e, ⟨he, hne⟩, rfl⟩

theorem mem_reconcile {unread : List UnreadEntry} {sessionId : JsString} {e : UnreadEntry} :
    e ∈ reconcileUnread unread sessionId ↔ e ∈ unread ∧ e.sessionId = sessionId := by
  simp [reconcileUnread, List.mem_mergeSort]

/-- Distinct keys come out of a reconcile in strictly increasing order of their event ids. -/
theorem reconcile_ordered {unread : List UnreadEntry} (h : (unread.map UnreadEntry.key).Nodup) (sessionId : JsString) :
    (reconcileUnread unread sessionId).Pairwise fun left right => left.eventId < right.eventId := by
  have hsorted : (reconcileUnread unread sessionId).Pairwise fun left right => left.eventId ≤ right.eventId := by
    have hpair := @List.pairwise_mergeSort _ (fun left right : UnreadEntry => decide (left.eventId - right.eventId ≤ 0))
      (fun a b c hab hbc => by
        simp only [decide_eq_true_eq, sub_nonpos] at hab hbc ⊢
        exact hab.trans hbc)
      (fun a b => by
        simp only [Bool.or_eq_true, decide_eq_true_eq, sub_nonpos]
        exact le_total _ _)
      (unread.filter fun entry => entry.sessionId = sessionId)
    exact hpair.imp fun {a b} hab => by simpa [sub_nonpos] using hab
  have hnodup : ((reconcileUnread unread sessionId).map UnreadEntry.key).Nodup := by
    have hperm := (List.mergeSort_perm (unread.filter fun entry => entry.sessionId = sessionId)
      fun left right => left.eventId - right.eventId ≤ 0).map UnreadEntry.key
    exact hperm.nodup_iff.mpr (h.sublist (List.filter_sublist.map _))
  have hdistinct := List.pairwise_map.mp hnodup
  refine (hsorted.and hdistinct).imp_of_mem fun {a b} ha hb hab => lt_of_le_of_ne hab.1 fun heq => hab.2 ?_
  rw [UnreadEntry.key, UnreadEntry.key, heq, (mem_reconcile.mp ha).2, (mem_reconcile.mp hb).2]

/-! ## The queue and its history -/

/-- The queue holds what was enqueued and not acknowledged, each event once. -/
structure Accounts (events : List QueueEvent) (unread : List UnreadEntry) : Prop where
  distinct : (unread.map UnreadEntry.key).Nodup
  genuine : ∀ entry ∈ unread, .enqueue entry ∈ events
  outstanding : ∀ key, key ∈ unread.map UnreadEntry.key ↔ Enqueued events key ∧ .ack key.1 key.2 ∉ events

theorem queueAfter_append (events : List QueueEvent) (event : QueueEvent) :
    queueAfter (events ++ [event]) = queueStep (queueAfter events) event := by
  simp [queueAfter]

theorem enqueued_append {events : List QueueEvent} {event : QueueEvent} {key : JsString × Rat} :
    Enqueued (events ++ [event]) key ↔ Enqueued events key ∨ ∃ entry, event = .enqueue entry ∧ entry.key = key := by
  simp only [Enqueued, List.mem_append, List.mem_singleton, or_and_right, exists_or]
  refine or_congr_right (exists_congr fun entry => and_congr_left fun _ => eq_comm)

theorem NoRevival.append {events : List QueueEvent} {event : QueueEvent} (h : NoRevival (events ++ [event])) :
    NoRevival events ∧ ∀ earlier ∈ events, earlier.revives event = false := by
  obtain ⟨hevents, -, hlast⟩ := List.pairwise_append.mp h
  exact ⟨hevents, fun earlier he => hlast earlier he event (by simp)⟩

theorem Accounts.enqueue {events : List QueueEvent} {unread : List UnreadEntry} (h : Accounts events unread)
    {entry : UnreadEntry} (hfresh : ∀ earlier ∈ events, earlier.revives (.enqueue entry) = false) :
    Accounts (events ++ [.enqueue entry]) (enqueueUnread unread entry) := by
  have hnotAcked : .ack entry.key.1 entry.key.2 ∉ events := by
    intro hmem
    have := hfresh _ hmem
    simp [QueueEvent.revives] at this
  refine ⟨?_, fun e he => ?_, fun key => ?_⟩
  · rw [keys_enqueue]
    split
    · exact h.distinct
    · rename_i hnew
      exact (List.perm_append_singleton _ _).nodup_iff.mpr (List.nodup_cons.mpr ⟨hnew, h.distinct⟩)
  · rcases mem_enqueue he with he | rfl
    · exact List.mem_append_left _ (h.genuine e he)
    · simp
  · have hkey : key ∈ (enqueueUnread unread entry).map UnreadEntry.key ↔
        key ∈ unread.map UnreadEntry.key ∨ key = entry.key := by
      rw [keys_enqueue]
      split
      · rename_i hold
        exact ⟨Or.inl, fun hor => hor.elim id fun heq => heq ▸ hold⟩
      · simp
    rw [hkey, h.outstanding, enqueued_append]
    simp only [List.mem_append, List.mem_singleton, reduceCtorEq, or_false, QueueEvent.enqueue.injEq, exists_eq_left']
    constructor
    · rintro (⟨henq, hack⟩ | rfl)
      · exact ⟨Or.inl henq, hack⟩
      · exact ⟨Or.inr rfl, hnotAcked⟩
    · rintro ⟨henq | rfl, hack⟩
      · exact Or.inl ⟨henq, hack⟩
      · exact Or.inr rfl

theorem Accounts.ack {events : List QueueEvent} {unread : List UnreadEntry} (h : Accounts events unread)
    (sessionId : JsString) (eventId : Rat) :
    Accounts (events ++ [.ack sessionId eventId]) (ackUnread unread sessionId eventId) := by
  refine ⟨h.distinct.sublist (List.filter_sublist.map _), fun e he => ?_, fun key => ?_⟩
  · exact List.mem_append_left _ (h.genuine e (mem_ack.mp he).1)
  · rw [keys_ack, h.outstanding, enqueued_append]
    simp only [List.mem_append, List.mem_singleton, reduceCtorEq, false_and, exists_false, or_false, not_or,
      QueueEvent.ack.injEq, and_assoc, ne_eq, Prod.ext_iff]

theorem accounts_after {events : List QueueEvent} (h : NoRevival events) : Accounts events (queueAfter events) := by
  induction events using List.reverseRecOn with
  | nil => exact ⟨List.nodup_nil, by simp [queueAfter], by simp [queueAfter, Enqueued]⟩
  | append_singleton events event ih =>
    obtain ⟨hevents, hfresh⟩ := h.append
    have hacc := ih hevents
    rw [queueAfter_append]
    cases event with
    | enqueue entry => exact hacc.enqueue hfresh
    | ack sessionId eventId => exact hacc.ack sessionId eventId
    | reconcile sessionId =>
      refine ⟨hacc.distinct, fun e he => List.mem_append_left _ (hacc.genuine e he), fun key => ?_⟩
      rw [queueStep, hacc.outstanding, enqueued_append]
      simp

theorem Accounts.exact {events : List QueueEvent} {unread : List UnreadEntry} (h : Accounts events unread)
    (sessionId : JsString) : Exact events unread sessionId := by
  refine ⟨reconcile_ordered h.distinct sessionId, fun e he => ?_, fun eventId => ?_⟩
  · obtain ⟨hmem, hsession⟩ := mem_reconcile.mp he
    exact ⟨hsession, h.genuine e hmem⟩
  · rw [← h.outstanding (sessionId, eventId)]
    simp only [mem_reconcile, List.mem_map, UnreadEntry.key, Prod.mk.injEq, and_assoc]

/-- In every state of a run each session's reconcile is exact, precisely when the run enqueues
    no event after an acknowledgement of it. -/
theorem unread_exact_iff (events : List QueueEvent) :
    (∀ before, before <+: events → ∀ sessionId, Exact before (queueAfter before) sessionId) ↔ NoRevival events := by
  constructor
  · intro h
    induction events using List.reverseRecOn with
    | nil => exact List.Pairwise.nil
    | append_singleton events event ih =>
      refine List.pairwise_append.mpr ⟨ih fun before hbefore => h before (hbefore.trans (List.prefix_append _ _)),
        List.pairwise_singleton _ _, fun earlier he later hl => ?_⟩
      obtain rfl : later = event := by simpa using hl
      cases earlier with
      | ack sessionId eventId =>
        cases later with
        | enqueue entry =>
          by_contra hrevives
          have hkey : entry.key = (sessionId, eventId) := by simpa [QueueEvent.revives] using hrevives
          have hback : entry.key ∈ (queueAfter (events ++ [.enqueue entry])).map UnreadEntry.key := by
            rw [queueAfter_append, queueStep, keys_enqueue]
            split
            · assumption
            · simp
          obtain ⟨e, hmem, hsame⟩ := List.mem_map.mp hback
          have hfields : e.sessionId = sessionId ∧ e.eventId = eventId := by
            simpa [UnreadEntry.key] using hsame.trans hkey
          have hexact := h _ (List.prefix_refl _) sessionId
          have hgone := ((hexact.outstanding eventId).mp
            ⟨e, mem_reconcile.mpr ⟨hmem, hfields.1⟩, hfields.2⟩).2
          exact hgone (List.mem_append_left _ he)
        | _ => rfl
      | _ => cases later <;> rfl
  · intro h before hbefore sessionId
    exact (accounts_after (h.sublist hbefore.sublist)).exact sessionId

def asking (sessionId : JsString) (eventId : Rat) : UnreadEntry := ⟨sessionId, eventId, 0, .requiresAction (js "Go on?")⟩

/-- Two sessions, a retry, and events out of order. -/
theorem unread_exact_iff_retried :
    Exact [.enqueue (asking (js "a") 5), .enqueue (asking (js "b") 5), .enqueue (asking (js "a") 2),
        .enqueue (asking (js "a") 5), .ack (js "b") 5]
      (queueAfter [.enqueue (asking (js "a") 5), .enqueue (asking (js "b") 5), .enqueue (asking (js "a") 2),
        .enqueue (asking (js "a") 5), .ack (js "b") 5]) (js "a") :=
  (unread_exact_iff _).mpr (by decide) _ (List.prefix_refl _) _

/-- An acknowledged event whose enqueue is retried comes back. -/
theorem acked_event_returns :
    ¬ ∀ events sessionId, Exact events (queueAfter events) sessionId := by
  intro h
  have hexact := h [.enqueue (asking (js "a") 5), .ack (js "a") 5, .enqueue (asking (js "a") 5)] (js "a")
  have hgone := ((hexact.outstanding 5).mp ⟨asking (js "a") 5, mem_reconcile.mpr (by decide), rfl⟩).2
  exact hgone (by decide)

end Ccctl.Server
