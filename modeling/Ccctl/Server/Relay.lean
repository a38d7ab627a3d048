import Ccctl.Lib.Feed
import Ccctl.Server.Speaks
/-
  Ccctl.Server.Relay — what a browser's subscription receives.

  A run here is any order of the relay's calls (`RelayEvent`: broadcast, subscribe with or without a
  cursor, disconnect, close of one session, close of all, a read of the cursor), over any number of
  sessions, with any turns of the rest of the server between them (`elsewhere`).

  The watch keeps each session's feed, what was broadcast on it since its relay was last closed, and
  for each subscription the feed as far as it was attached. The law (`relay_sound`): the ids of a
  feed are `1, 2, …`; a subscriber received its feed from `readFrom` on and nothing else, so replay
  and fan-out meet with no gap and no overlap; the buffer is the last 1024 events; and a relay
  stands exactly for the sessions broadcast or subscribed to, whatever was read.
-/

namespace Ccctl.Server

open Ccctl.Core Ccctl.Lib ServerState

/-! ## What was delivered -/

/-- What an output writes to the response `res`. -/
def Out.delivered (res : Res) : Out → List (Nat × Payload)
  | .broadcast _ eventId payload recipients => List.replicate (recipients.count res) (eventId, payload)
  | .replay reader events => if reader = res then events else []
  | _ => []

/-- Everything the response `res` received, in order. -/
def received (out : List Out) (res : Res) : List (Nat × Payload) := out.flatMap (Out.delivered res)

def Out.carried (sessionId : SessionId) : Out → Option (Nat × Payload)
  | .broadcast id eventId payload _ => if id = sessionId then some (eventId, payload) else none
  | _ => none

/-- Everything broadcast to the session, in order, with the ids it went out under. -/
def carried (out : List Out) (sessionId : SessionId) : List (Nat × Payload) := out.filterMap (Out.carried sessionId)

theorem received_append (out out' : List Out) (res : Res) :
    received (out ++ out') res = received out res ++ received out' res := List.flatMap_append

theorem carried_append (out out' : List Out) (id : SessionId) :
    carried (out ++ out') id = carried out id ++ carried out' id := List.filterMap_append

theorem received_spoken (out : List Out) (res : Res) : received (spoken out .relay) res = received out res := by
  induction out with
  | nil => rfl
  | cons o out ih =>
    have hcons (o : Out) (out : List Out) : received (o :: out) res = o.delivered res ++ received out res := rfl
    unfold spoken at ih ⊢
    rw [hcons, ← ih, List.filter_cons]
    cases o with
    | broadcast | replay => exact hcons _ _
    | _ => exact (List.nil_append _).symm

theorem carried_spoken (out : List Out) (id : SessionId) : carried (spoken out .relay) id = carried out id := by
  unfold carried spoken
  rw [List.filterMap_filter]
  refine List.filterMap_congr fun o _ => ?_
  cases o <;> rfl

theorem Speaks.received {kinds : List OutKind} {s s' : ServerState} (h : Speaks kinds s s') (hk : .relay ∉ kinds)
    (res : Res) : received s'.out res = Server.received s.out res := by
  rw [← received_spoken, h.quiet hk, received_spoken]

theorem Speaks.carried {kinds : List OutKind} {s s' : ServerState} (h : Speaks kinds s s') (hk : .relay ∉ kinds)
    (id : SessionId) : carried s'.out id = Server.carried s.out id := by
  rw [← carried_spoken, h.quiet hk, carried_spoken]

/-! ## Runs -/

inductive RelayEvent where
  | broadcast (sessionId : SessionId) (payload : Payload)
  | subscribe (sessionId : SessionId) (lastEventId : Option Int)
  | disconnect (sessionId : SessionId) (res : Res)
  | close (sessionId : SessionId)
  | closeAll
  | read (sessionId : SessionId)
  | elsewhere (after : ServerState)

def relayStep (s : ServerState) : RelayEvent → ServerState
  | .broadcast id payload => broadcastEvent s id payload
  | .subscribe id lastEventId => (handleEventStream s id lastEventId).1
  | .disconnect id res => closeSubscriber s id res
  | .close id => closeSessionRelay s id
  | .closeAll => closeEventStreams s
  -- `sessionMessageCursor` answers from the state and leaves it.
  | .read _ => s
  | .elsewhere after => after

/-- A turn of the rest of the server: it leaves the relays alone, writes nothing to them and takes no
    response's number back. -/
structure BesideRelays (s after : ServerState) : Prop where
  relays : after.eventRelays = s.eventRelays
  next : s.next ≤ after.next
  speaks : Speaks [.frame, .ended, .close, .work] s after

def relayAllowed (s : ServerState) : RelayEvent → Prop
  | .elsewhere after => BesideRelays s after
  | _ => True

/-! ## The watch -/

structure Subscription where
  res : Res
  sessionId : SessionId
  /-- The `Last-Event-ID` it brought. -/
  cursor : Option Int
  /-- How many events its session's feed had carried when it joined. -/
  joined : Nat
  /-- The feed from its start until the subscriber left it. -/
  log : List Payload
  attached : Bool

namespace Subscription

def attachedTo (sub : Subscription) (sessionId : SessionId) : Bool := sub.attached && sub.sessionId == sessionId

def hears (sub : Subscription) (sessionId : SessionId) (payload : Payload) : Subscription :=
  if sub.attachedTo sessionId then { sub with log := sub.log ++ [payload] } else sub

def leaves (sub : Subscription) (goes : Bool) : Subscription :=
  if goes then { sub with attached := false } else sub

/-- What it is to have received. -/
def window (sub : Subscription) : List (Nat × Payload) :=
  (numbered 1 sub.log).drop (readFrom EVENT_REPLAY_BUFFER_SIZE sub.joined sub.cursor - 1)

end Subscription

structure Streams where
  /-- What each session's relay has carried since it was last closed. -/
  feeds : SessionId → List Payload
  /-- Broadcast or subscribed to since it was last closed. -/
  opened : SessionId → Bool
  subscriptions : List Subscription

def Streams.empty : Streams := ⟨fun _ => [], fun _ => false, []⟩

def streamsWatch (s : ServerState) (e : RelayEvent) (w : Streams) : Streams :=
  match e with
  | .broadcast id payload =>
    { feeds := Function.update w.feeds id (w.feeds id ++ [payload])
      opened := Function.update w.opened id true
      subscriptions := w.subscriptions.map fun sub => sub.hears id payload }
  | .subscribe id lastEventId =>
    if s.sessions.has id then
      { w with
        opened := Function.update w.opened id true
        subscriptions := w.subscriptions ++ [⟨s.next, id, lastEventId, (w.feeds id).length, w.feeds id, true⟩] }
    else w
  | .disconnect id res =>
    { w with subscriptions := w.subscriptions.map fun sub => sub.leaves (sub.attachedTo id && decide (sub.res = res)) }
  | .close id =>
    { feeds := Function.update w.feeds id []
      opened := Function.update w.opened id false
      subscriptions := w.subscriptions.map fun sub => sub.leaves (sub.attachedTo id) }
  | .closeAll => { w with subscriptions := w.subscriptions.map fun sub => sub.leaves true }
  | .read _ | .elsewhere _ => w

/-- No relay yet, and nothing relayed. -/
def RelayStart (p : ServerState × Streams) : Prop :=
  (∀ id, p.1.eventRelays.get id = none) ∧ spoken p.1.out .relay = [] ∧ p.2 = Streams.empty

abbrev RelayRun : ServerState × Streams → Prop :=
  Reach (watched relayStep streamsWatch) RelayStart fun p e => relayAllowed p.1 e

/-! ## The invariant -/

/-- The relays hold what the watch saw. -/
structure Streams.Kept (s : ServerState) (w : Streams) : Prop where
  nextEventId : ∀ id, (relayFor s id).nextEventId = (w.feeds id).length + 1
  buffer : ∀ id, (relayFor s id).buffer = retained EVENT_REPLAY_BUFFER_SIZE (w.feeds id)
  subscribers : ∀ id, (relayFor s id).subscribers = (w.subscriptions.filter (·.attachedTo id)).map (·.res)
  made : ∀ id, s.eventRelays.has id = w.opened id

structure Streams.Ok (s : ServerState) (w : Streams) : Prop where
  kept : w.Kept s
  nodup : (w.subscriptions.map (·.res)).Nodup
  fresh : ∀ sub ∈ w.subscriptions, sub.res < s.next
  unsent : ∀ res, s.next ≤ res → received s.out res = []
  window : ∀ sub ∈ w.subscriptions, received s.out sub.res = sub.window
  joined : ∀ sub ∈ w.subscriptions, sub.joined ≤ sub.log.length
  live : ∀ sub ∈ w.subscriptions, sub.attached = true → sub.log = w.feeds sub.sessionId
  own : ∀ sub ∈ w.subscriptions, numbered 1 sub.log <:+: carried s.out sub.sessionId
  feed : ∀ id, numbered 1 (w.feeds id) <:+ carried s.out id

/-! ## What each call keeps -/

theorem relayFor_set {s s' : ServerState} {id : SessionId} {relay : EventStreamState}
    (h : s'.eventRelays = s.eventRelays.set id relay) (id' : SessionId) :
    relayFor s' id' = if id' = id then relay else relayFor s id' := by
  unfold relayFor
  rw [h, OrdMap.get_set]
  split <;> rfl

theorem has_set {s s' : ServerState} {id : SessionId} {relay : EventStreamState}
    (h : s'.eventRelays = s.eventRelays.set id relay) (id' : SessionId) :
    s'.eventRelays.has id' = Function.update s.eventRelays.has id true id' := by
  unfold OrdMap.has
  rw [h, OrdMap.get_set]
  by_cases hid : id' = id <;> simp [hid]

namespace Subscription

variable (sub : Subscription) (id : SessionId) (payload : Payload) (goes : Bool)

theorem attachedTo_iff : sub.attachedTo id = true ↔ sub.attached = true ∧ sub.sessionId = id := by
  simp [attachedTo]

@[simp] theorem hears_res : (sub.hears id payload).res = sub.res := by
  unfold hears; split <;> rfl

@[simp] theorem hears_sessionId : (sub.hears id payload).sessionId = sub.sessionId := by
  unfold hears; split <;> rfl

@[simp] theorem hears_attached : (sub.hears id payload).attached = sub.attached := by
  unfold hears; split <;> rfl

@[simp] theorem hears_joined : (sub.hears id payload).joined = sub.joined := by
  unfold hears; split <;> rfl

@[simp] theorem leaves_res : (sub.leaves goes).res = sub.res := by
  unfold leaves; split <;> rfl

@[simp] theorem leaves_sessionId : (sub.leaves goes).sessionId = sub.sessionId := by
  unfold leaves; split <;> rfl

@[simp] theorem leaves_joined : (sub.leaves goes).joined = sub.joined := by
  unfold leaves; split <;> rfl

@[simp] theorem leaves_log : (sub.leaves goes).log = sub.log := by
  unfold leaves; split <;> rfl

@[simp] theorem leaves_window : (sub.leaves goes).window = sub.window := by
  unfold leaves; split <;> rfl

@[simp] theorem leaves_attached : (sub.leaves goes).attached = (sub.attached && !goes) := by
  unfold leaves; cases goes <;> simp

/-- The next item of an attached subscriber's feed extends what it is to have received. -/
theorem window_hears (hj : sub.joined ≤ sub.log.length) : (sub.hears id payload).window =
    sub.window ++ if sub.attachedTo id then [(sub.log.length + 1, payload)] else [] := by
  have hfrom := readFrom_le EVENT_REPLAY_BUFFER_SIZE sub.joined sub.cursor
  unfold hears
  split
  case isTrue => exact drop_numbered_append sub.log payload (show readFrom _ sub.joined sub.cursor - 1 ≤ _ by omega)
  case isFalse => rw [List.append_nil]

end Subscription

namespace Streams

variable {s : ServerState} {w : Streams}

theorem ok_start {p : ServerState × Streams} (h : RelayStart p) : p.2.Ok p.1 := by
  obtain ⟨s, w⟩ := p
  obtain ⟨hrelays, hout, rfl⟩ := h
  have hrelay : ∀ id, relayFor s id = createEventStreamState := fun id => by
    show (s.eventRelays.get id).getD _ = _
    rw [hrelays id]
    rfl
  have hreceived : ∀ res, received s.out res = [] := fun res => by
    rw [← received_spoken, hout]
    rfl
  refine ⟨⟨fun id => ?_, fun id => ?_, fun id => ?_, fun id => ?_⟩, List.nodup_nil, by simp [Streams.empty],
    fun res _ => hreceived res, by simp [Streams.empty], by simp [Streams.empty], by simp [Streams.empty],
    by simp [Streams.empty], fun id => List.nil_suffix⟩
  · rw [hrelay id]
    rfl
  · rw [hrelay id]
    exact (List.drop_nil (i := 0 - EVENT_REPLAY_BUFFER_SIZE)).symm
  · rw [hrelay id]
    rfl
  · exact OrdMap.has_eq_false.mpr (hrelays id)

/-- A subscriber is written to once, and only on the feed it is attached to. -/
theorem Ok.count (h : w.Ok s) {sub : Subscription} (hsub : sub ∈ w.subscriptions) (id : SessionId) :
    (relayFor s id).subscribers.count sub.res = if sub.attachedTo id then 1 else 0 := by
  have hnodup : ((w.subscriptions.filter (·.attachedTo id)).map (·.res)).Nodup :=
    h.nodup.sublist (List.filter_sublist.map _)
  have hmem : sub.res ∈ (w.subscriptions.filter (·.attachedTo id)).map (·.res) ↔ sub.attachedTo id = true := by
    constructor
    · intro hin
      obtain ⟨other, hother, hres⟩ := List.mem_map.mp hin
      obtain ⟨hother, hatt⟩ := List.mem_filter.mp hother
      rw [← List.inj_on_of_nodup_map h.nodup hother hsub hres]
      exact hatt
    · intro hatt
      exact List.mem_map_of_mem (List.mem_filter.mpr ⟨hsub, hatt⟩)
  rw [h.kept.subscribers id, hnodup.count]
  exact if_congr hmem rfl rfl

/-- The subscribers of a relay, after every subscription was rewritten in its place. -/
theorem subscribers_map {f : Subscription → Subscription} (hf : ∀ sub, (f sub).res = sub.res) (id : SessionId) :
    ((w.subscriptions.map f).filter (·.attachedTo id)).map (·.res) =
      (w.subscriptions.filter fun sub => (f sub).attachedTo id).map (·.res) := by
  rw [List.filter_map, List.map_map]
  exact List.map_congr_left fun sub _ => hf sub

theorem nodup_map {f : Subscription → Subscription} (hf : ∀ sub, (f sub).res = sub.res)
    (h : (w.subscriptions.map (·.res)).Nodup) : ((w.subscriptions.map f).map (·.res)).Nodup := by
  rw [List.map_map]
  exact (List.map_congr_left fun sub _ => hf sub) ▸ h

theorem feeds_broadcast (id : SessionId) (payload : Payload) (id' : SessionId) :
    (streamsWatch s (.broadcast id payload) w).feeds id' =
      if id' = id then w.feeds id ++ [payload] else w.feeds id' := by
  show Function.update w.feeds id _ id' = _
  by_cases hid : id' = id <;> simp [hid]

theorem Kept.broadcast (h : w.Kept s) (id : SessionId) (payload : Payload) :
    (streamsWatch s (.broadcast id payload) w).Kept (broadcastEvent s id payload) := by
  have hset : ∀ id', relayFor (broadcastEvent s id payload) id' = if id' = id then _ else relayFor s id' :=
    relayFor_set rfl
  refine ⟨?_, ?_, ?_, ?_⟩
  · intro id'
    rw [hset, feeds_broadcast]
    split
    · simp [h.nextEventId id]
    · exact h.nextEventId id'
  · intro id'
    rw [hset, feeds_broadcast]
    split
    · show buffered (relayFor s id) payload = _
      unfold buffered
      rw [h.buffer id, h.nextEventId id]
      exact retained_push _ _ _
    · exact h.buffer id'
  · intro id'
    show _ = ((w.subscriptions.map fun sub => sub.hears id payload).filter (·.attachedTo id')).map (·.res)
    rw [subscribers_map (fun sub => sub.hears_res id payload), hset]
    simp only [Subscription.attachedTo, Subscription.hears_attached, Subscription.hears_sessionId]
    split
    case isTrue hid =>
      subst hid
      exact h.subscribers id'
    case isFalse => exact h.subscribers id'
  · intro id'
    have hhas : (broadcastEvent s id payload).eventRelays.has id' = Function.update s.eventRelays.has id true id' :=
      has_set rfl id'
    refine hhas.trans ?_
    exact congrFun (congrArg (Function.update · id true) (funext h.made)) id'

theorem Ok.broadcast (h : w.Ok s) (id : SessionId) (payload : Payload) :
    (streamsWatch s (.broadcast id payload) w).Ok (broadcastEvent s id payload) := by
  have hnext := h.kept.nextEventId id
  have hreceived : ∀ res, received (broadcastEvent s id payload).out res =
      received s.out res ++
        List.replicate ((relayFor s id).subscribers.count res) ((w.feeds id).length + 1, payload) := by
    intro res
    rw [← hnext]
    exact (received_append _ _ _).trans (congrArg _ (List.append_nil _))
  have hcarried : ∀ id', carried (broadcastEvent s id payload).out id' =
      carried s.out id' ++ if id' = id then [((w.feeds id).length + 1, payload)] else [] := by
    intro id'
    rw [← hnext]
    refine (carried_append _ _ _).trans (congrArg _ ?_)
    by_cases hid : id' = id
    · simp [carried, Out.carried, hid]
    · simp [carried, Out.carried, hid, Ne.symm hid]
  refine ⟨h.kept.broadcast id payload, ?_, ?_, ?_, ?_, ?_, ?_, ?_, ?_⟩
  · exact nodup_map (fun sub => sub.hears_res id payload) h.nodup
  · intro sub' hsub'
    obtain ⟨sub, hsub, rfl⟩ := List.mem_map.mp hsub'
    rw [Subscription.hears_res]
    exact h.fresh sub hsub
  · intro res hres
    have hnone : (relayFor s id).subscribers.count res = 0 := by
      rw [List.count_eq_zero, h.kept.subscribers id]
      intro hin
      obtain ⟨sub, hsub, hsame⟩ := List.mem_map.mp hin
      have hold := h.fresh sub (List.mem_of_mem_filter hsub)
      exact absurd hold (Nat.not_lt.mpr (hsame ▸ hres))
    rw [hreceived, hnone, h.unsent res hres]
    rfl
  · intro sub' hsub'
    obtain ⟨sub, hsub, rfl⟩ := List.mem_map.mp hsub'
    rw [Subscription.hears_res, hreceived, h.window sub hsub, h.count hsub,
      Subscription.window_hears _ _ _ (h.joined sub hsub)]
    by_cases hatt : sub.attachedTo id = true
    · obtain ⟨hlive, hid⟩ := (sub.attachedTo_iff id).mp hatt
      rw [if_pos hatt, if_pos hatt, h.live sub hsub hlive, hid]
      rfl
    · rw [if_neg hatt, if_neg hatt]
      rfl
  · intro sub' hsub'
    obtain ⟨sub, hsub, rfl⟩ := List.mem_map.mp hsub'
    have hj := h.joined sub hsub
    rw [Subscription.hears_joined]
    unfold Subscription.hears
    split
    · exact hj.trans (by simp)
    · exact hj
  · intro sub' hsub' hlive
    obtain ⟨sub, hsub, rfl⟩ := List.mem_map.mp hsub'
    rw [Subscription.hears_attached] at hlive
    rw [Subscription.hears_sessionId, feeds_broadcast]
    unfold Subscription.hears
    by_cases hid : sub.sessionId = id
    · rw [if_pos ((sub.attachedTo_iff id).mpr ⟨hlive, hid⟩), if_pos hid, ← hid]
      exact congrArg (· ++ [payload]) (h.live sub hsub hlive)
    · rw [if_neg (fun hatt => hid ((sub.attachedTo_iff id).mp hatt).2), if_neg hid]
      exact h.live sub hsub hlive
  · intro sub' hsub'
    obtain ⟨sub, hsub, rfl⟩ := List.mem_map.mp hsub'
    rw [Subscription.hears_sessionId, hcarried]
    unfold Subscription.hears
    by_cases hatt : sub.attachedTo id = true
    · obtain ⟨hlive, hid⟩ := (sub.attachedTo_iff id).mp hatt
      rw [if_pos hatt, if_pos hid]
      show numbered 1 (sub.log ++ [payload]) <:+: _
      rw [h.live sub hsub hlive, hid, numbered_append, Nat.add_comm 1]
      obtain ⟨before, heq⟩ := h.feed id
      refine ⟨before, [], ?_⟩
      rw [← heq]
      simp [numbered]
    · rw [if_neg hatt]
      exact (h.own sub hsub).trans (List.prefix_append _ _).isInfix
  · intro id'
    rw [feeds_broadcast, hcarried]
    by_cases hid : id' = id
    · rw [if_pos hid, if_pos hid, numbered_append, Nat.add_comm 1, hid]
      obtain ⟨before, heq⟩ := h.feed id
      refine ⟨before, ?_⟩
      rw [← heq]
      simp [numbered]
    · rw [if_neg hid, if_neg hid, List.append_nil]
      exact h.feed id'

theorem Kept.subscribe (h : w.Kept s) {id : SessionId} (lastEventId : Option Int) (hrow : s.sessions.has id = true) :
    (streamsWatch s (.subscribe id lastEventId) w).Kept (handleEventStream s id lastEventId).1 := by
  simp only [handleEventStream, streamsWatch, hrow, if_true]
  refine ⟨?_, ?_, ?_, ?_⟩
  · intro id'
    rw [relayFor_set rfl]
    split
    case isTrue hid => exact hid ▸ h.nextEventId id
    case isFalse => exact h.nextEventId id'
  · intro id'
    rw [relayFor_set rfl]
    split
    case isTrue hid => exact hid ▸ h.buffer id
    case isFalse => exact h.buffer id'
  · intro id'
    rw [relayFor_set rfl, List.filter_append, List.map_append, ← h.subscribers id']
    by_cases hid : id' = id
    · simp [hid, Subscription.attachedTo]
    · simp [hid, Ne.symm hid, Subscription.attachedTo]
  · intro id'
    exact (has_set rfl id').trans (congrFun (congrArg (Function.update · id true) (funext h.made)) id')

theorem Ok.subscribe (h : w.Ok s) (id : SessionId) (lastEventId : Option Int) :
    (streamsWatch s (.subscribe id lastEventId) w).Ok (handleEventStream s id lastEventId).1 := by
  cases hrow : s.sessions.has id with
  | false => simpa only [handleEventStream, streamsWatch, hrow, Bool.false_eq_true, if_false] using h
  | true =>
    have hkept := h.kept.subscribe lastEventId hrow
    have hreplayed := replayed_eq EVENT_REPLAY_BUFFER_SIZE (w.feeds id) lastEventId
    rw [← h.kept.buffer id] at hreplayed
    simp only [handleEventStream, streamsWatch, hrow, if_true] at hkept ⊢
    have hreceived : ∀ (events : List (Nat × Payload)) res, received (s.out ++ [.replay s.next events]) res =
        received s.out res ++ if s.next = res then events else [] := fun events res =>
      (received_append _ _ _).trans (congrArg _ (List.append_nil _))
    have hcarried : ∀ (events : List (Nat × Payload)) id',
        carried (s.out ++ [.replay s.next events]) id' = carried s.out id' := fun events id' =>
      (carried_append _ _ _).trans (List.append_nil _)
    have hold : ∀ sub ∈ w.subscriptions, s.next ≠ sub.res := fun sub hsub => (Nat.ne_of_lt (h.fresh sub hsub)).symm
    refine ⟨hkept, ?_, ?_, ?_, ?_, ?_, ?_, ?_, ?_⟩
    · rw [List.map_append, List.nodup_append]
      refine ⟨h.nodup, List.nodup_singleton _, ?_⟩
      intro res hres res' hres'
      obtain ⟨sub, hsub, rfl⟩ := List.mem_map.mp hres
      rw [List.mem_singleton.mp hres']
      exact (hold sub hsub).symm
    · intro sub hsub
      rcases List.mem_append.mp hsub with hsub | hsub
      · exact Nat.lt_succ_of_lt (h.fresh sub hsub)
      · rw [List.mem_singleton.mp hsub]
        exact Nat.lt_succ_self _
    · intro res hres
      rw [hreceived, h.unsent res (Nat.le_of_succ_le hres), if_neg (Nat.ne_of_lt hres)]
      rfl
    · intro sub hsub
      rw [hreceived]
      rcases List.mem_append.mp hsub with hsub | hsub
      · rw [if_neg (hold sub hsub), List.append_nil]
        exact h.window sub hsub
      · rw [List.mem_singleton.mp hsub, if_pos rfl, h.unsent s.next (Nat.le_refl _)]
        exact hreplayed
    · intro sub hsub
      rcases List.mem_append.mp hsub with hsub | hsub
      · exact h.joined sub hsub
      · rw [List.mem_singleton.mp hsub]
    · intro sub hsub
      rcases List.mem_append.mp hsub with hsub | hsub
      · exact h.live sub hsub
      · rw [List.mem_singleton.mp hsub]
        exact fun _ => rfl
    · intro sub hsub
      rw [hcarried]
      rcases List.mem_append.mp hsub with hsub | hsub
      · exact h.own sub hsub
      · rw [List.mem_singleton.mp hsub]
        exact (h.feed id).isInfix
    · intro id'
      rw [hcarried]
      exact h.feed id'

/-- Subscribers leave, and nothing is relayed: what was received stands. -/
theorem Ok.depart {s' : ServerState} {feeds : SessionId → List Payload} {opened : SessionId → Bool}
    {goes : Subscription → Bool} (h : w.Ok s)
    (hkept : Kept s' ⟨feeds, opened, w.subscriptions.map fun sub => sub.leaves (goes sub)⟩)
    (hnext : s.next ≤ s'.next) {kinds : List OutKind} (hspeaks : Speaks kinds s s') (hquiet : .relay ∉ kinds)
    (hstays : ∀ sub, goes sub = false → sub.attached = true → feeds sub.sessionId = w.feeds sub.sessionId)
    (hfeeds : ∀ id, feeds id = w.feeds id ∨ feeds id = []) :
    Ok s' ⟨feeds, opened, w.subscriptions.map fun sub => sub.leaves (goes sub)⟩ := by
  refine ⟨hkept, nodup_map (fun sub => sub.leaves_res _) h.nodup, ?_, ?_, ?_, ?_, ?_, ?_, ?_⟩
  · intro sub' hsub'
    obtain ⟨sub, hsub, rfl⟩ := List.mem_map.mp hsub'
    rw [Subscription.leaves_res]
    exact Nat.lt_of_lt_of_le (h.fresh sub hsub) hnext
  · intro res hres
    rw [hspeaks.received hquiet]
    exact h.unsent res (hnext.trans hres)
  · intro sub' hsub'
    obtain ⟨sub, hsub, rfl⟩ := List.mem_map.mp hsub'
    rw [hspeaks.received hquiet, Subscription.leaves_res, Subscription.leaves_window]
    exact h.window sub hsub
  · intro sub' hsub'
    obtain ⟨sub, hsub, rfl⟩ := List.mem_map.mp hsub'
    rw [Subscription.leaves_joined, Subscription.leaves_log]
    exact h.joined sub hsub
  · intro sub' hsub' hlive
    obtain ⟨sub, hsub, rfl⟩ := List.mem_map.mp hsub'
    rw [Subscription.leaves_attached, Bool.and_eq_true, Bool.not_eq_true'] at hlive
    rw [Subscription.leaves_log, Subscription.leaves_sessionId]
    exact (h.live sub hsub hlive.1).trans (hstays sub hlive.2 hlive.1).symm
  · intro sub' hsub'
    obtain ⟨sub, hsub, rfl⟩ := List.mem_map.mp hsub'
    rw [hspeaks.carried hquiet, Subscription.leaves_log, Subscription.leaves_sessionId]
    exact h.own sub hsub
  · intro id
    rw [hspeaks.carried hquiet]
    rcases hfeeds id with hsame | hnone
    · show numbered 1 (feeds id) <:+ _
      rw [hsame]
      exact h.feed id
    · show numbered 1 (feeds id) <:+ _
      rw [hnone]
      exact List.nil_suffix

/-- The subscribers of a relay, when some of them have left. -/
theorem subscribers_leave (goes : Subscription → Bool) (id : SessionId) :
    ((w.subscriptions.map fun sub => sub.leaves (goes sub)).filter (·.attachedTo id)).map (·.res) =
      (w.subscriptions.filter fun sub => sub.attachedTo id && !goes sub).map (·.res) := by
  rw [subscribers_map fun sub => sub.leaves_res _]
  congr 2
  funext sub
  cases hatt : sub.attached <;> simp [Subscription.attachedTo, hatt, Bool.and_comm]

theorem Ok.disconnect (h : w.Ok s) (id : SessionId) (res : Res) :
    (streamsWatch s (.disconnect id res) w).Ok (closeSubscriber s id res) := by
  have hrelay : ∀ id', relayFor (closeSubscriber s id res) id' =
      if id' = id then { relayFor s id' with subscribers := (relayFor s id').subscribers.filter (· ≠ res) }
      else relayFor s id' := by
    intro id'
    unfold relayFor closeSubscriber
    rw [OrdMap.get_mapVals]
    cases s.eventRelays.get id' <;> split <;> rfl
  have hsilent : Speaks [] s (closeSubscriber s id res) := .silent rfl
  refine h.depart ⟨?_, ?_, ?_, ?_⟩ (Nat.le_refl _) hsilent (by simp) (fun _ _ _ => rfl) fun _ => .inl rfl
  · intro id'
    rw [hrelay]
    split <;> exact h.kept.nextEventId id'
  · intro id'
    rw [hrelay]
    split <;> exact h.kept.buffer id'
  · intro id'
    rw [hrelay, subscribers_leave]
    split
    case isTrue hid =>
      show (relayFor s id').subscribers.filter _ = _
      rw [h.kept.subscribers id', hid, List.filter_map, List.filter_filter]
      congr 2
      funext sub
      cases sub.attachedTo id <;> simp
    case isFalse hid =>
      rw [h.kept.subscribers id']
      congr 2
      funext sub
      cases hatt : sub.attachedTo id with
      | false => rw [Bool.false_and, Bool.not_false, Bool.and_true]
      | true =>
        have hother : sub.attachedTo id' = false := by
          rw [Subscription.attachedTo, ((sub.attachedTo_iff id).mp hatt).2]
          simp [Ne.symm hid]
        rw [hother]
        rfl
  · intro id'
    rw [← h.kept.made id']
    unfold OrdMap.has closeSubscriber
    rw [OrdMap.get_mapVals]
    cases s.eventRelays.get id' <;> rfl

theorem Ok.close (h : w.Ok s) (id : SessionId) :
    (streamsWatch s (.close id) w).Ok (closeSessionRelay s id) := by
  have hrelay : ∀ id', relayFor (closeSessionRelay s id) id' =
      if id' = id then createEventStreamState else relayFor s id' := by
    intro id'
    unfold relayFor closeSessionRelay
    rw [OrdMap.get_erase]
    split <;> rfl
  have hfeeds : ∀ id', Function.update w.feeds id [] id' = if id' = id then [] else w.feeds id' := fun id' => by
    by_cases hid : id' = id <;> simp [hid]
  refine h.depart ⟨?_, ?_, ?_, ?_⟩ (Nat.le_refl _) (closeSessionRelay_speaks s id) (by simp) ?_ ?_
  · intro id'
    show _ = (Function.update w.feeds id [] id').length + 1
    rw [hrelay, hfeeds]
    split
    · rfl
    · exact h.kept.nextEventId id'
  · intro id'
    show _ = retained _ (Function.update w.feeds id [] id')
    rw [hrelay, hfeeds]
    split
    · exact (List.drop_nil (i := 0 - EVENT_REPLAY_BUFFER_SIZE)).symm
    · exact h.kept.buffer id'
  · intro id'
    rw [hrelay, subscribers_leave]
    split
    case isTrue hid => simp [hid, createEventStreamState]
    case isFalse hid =>
      rw [h.kept.subscribers id']
      congr 2
      funext sub
      cases hatt : sub.attachedTo id with
      | false => simp
      | true => simp [Subscription.attachedTo, ((sub.attachedTo_iff id).mp hatt).2, Ne.symm hid]
  · intro id'
    show _ = Function.update w.opened id false id'
    unfold OrdMap.has closeSessionRelay
    rw [OrdMap.get_erase]
    by_cases hid : id' = id
    · simp [hid]
    · simpa [hid, OrdMap.has] using h.kept.made id'
  · intro sub hgoes hlive
    rw [hfeeds, if_neg]
    intro hid
    have hatt := (sub.attachedTo_iff id).mpr ⟨hlive, hid⟩
    rw [hgoes] at hatt
    cases hatt
  · intro id'
    rw [hfeeds]
    split
    · exact .inr rfl
    · exact .inl rfl

theorem Ok.closeAll (h : w.Ok s) : (streamsWatch s .closeAll w).Ok (closeEventStreams s) := by
  have hget : ∀ id, (closeEventStreams s).eventRelays.get id =
      (s.eventRelays.get id).map fun relay => { relay with subscribers := [] } :=
    OrdMap.get_mapVals _ s.eventRelays
  have hrelay : ∀ id, relayFor (closeEventStreams s) id = { relayFor s id with subscribers := [] } := by
    intro id
    unfold relayFor
    rw [hget]
    cases s.eventRelays.get id <;> rfl
  refine h.depart ⟨?_, ?_, ?_, ?_⟩ (Nat.le_refl _) (closeEventStreams_speaks s) (by simp) ?_ ?_
  · intro id
    rw [hrelay]
    exact h.kept.nextEventId id
  · intro id
    rw [hrelay]
    exact h.kept.buffer id
  · intro id
    rw [hrelay, subscribers_leave]
    simp
  · intro id
    refine Eq.trans ?_ (h.kept.made id)
    unfold OrdMap.has
    rw [hget]
    cases s.eventRelays.get id <;> rfl
  · intro sub hgoes
    cases hgoes
  · intro id
    exact .inl rfl

theorem Ok.elsewhere (h : w.Ok s) {after : ServerState} (hafter : BesideRelays s after) : w.Ok after := by
  have hrelay : ∀ id, relayFor after id = relayFor s id := fun id => by
    unfold relayFor
    rw [hafter.relays]
  have hquiet : OutKind.relay ∉ [OutKind.frame, .ended, .close, .work] := by simp
  refine ⟨⟨?_, ?_, ?_, ?_⟩, h.nodup, ?_, ?_, ?_, h.joined, h.live, ?_, ?_⟩
  · intro id
    rw [hrelay]
    exact h.kept.nextEventId id
  · intro id
    rw [hrelay]
    exact h.kept.buffer id
  · intro id
    rw [hrelay]
    exact h.kept.subscribers id
  · intro id
    rw [hafter.relays]
    exact h.kept.made id
  · intro sub hsub
    exact Nat.lt_of_lt_of_le (h.fresh sub hsub) hafter.next
  · intro res hres
    rw [hafter.speaks.received hquiet]
    exact h.unsent res (hafter.next.trans hres)
  · intro sub hsub
    rw [hafter.speaks.received hquiet]
    exact h.window sub hsub
  · intro sub hsub
    rw [hafter.speaks.carried hquiet]
    exact h.own sub hsub
  · intro id
    rw [hafter.speaks.carried hquiet]
    exact h.feed id

/-- One call, and what the watch makes of it. -/
theorem Ok.step (h : w.Ok s) {e : RelayEvent} (he : relayAllowed s e) :
    (streamsWatch s e w).Ok (relayStep s e) := by
  cases e with
  | broadcast id payload => exact h.broadcast id payload
  | subscribe id lastEventId => exact h.subscribe id lastEventId
  | disconnect id res => exact h.disconnect id res
  | close id => exact h.close id
  | closeAll => exact h.closeAll
  | read id => exact h
  | elsewhere after => exact h.elsewhere he

end Streams

theorem RelayRun.ok {p : ServerState × Streams} (h : RelayRun p) : p.2.Ok p.1 :=
  h.inv (fun _ hp => Streams.ok_start hp) fun _ _ hp he => hp.step he

/-! ## The law -/

/-- What a subscriber received: its own session's feed from where it was to begin, under consecutive
    ids, as far as it was attached. -/
structure Subscription.Served (s : ServerState) (w : Streams) (sub : Subscription) : Prop where
  received : received s.out sub.res = sub.window
  consecutive : (Server.received s.out sub.res).map Prod.fst =
    List.range' (readFrom EVENT_REPLAY_BUFFER_SIZE sub.joined sub.cursor) (Server.received s.out sub.res).length
  own : numbered 1 sub.log <:+: carried s.out sub.sessionId
  joined : sub.joined ≤ sub.log.length
  live : sub.attached = true → sub.log = w.feeds sub.sessionId

/-- A session's feed, and what its relay keeps of it. -/
structure Streams.Fed (s : ServerState) (w : Streams) (id : SessionId) : Prop where
  feed : numbered 1 (w.feeds id) <:+ carried s.out id
  cursor : sessionMessageCursor s id = (w.feeds id).length
  last : w.feeds id ≠ [] → ((carried s.out id).getLast?.map Prod.fst) = some (sessionMessageCursor s id)
  retained : ∀ relay, s.eventRelays.get id = some relay →
    relay.buffer = retained EVENT_REPLAY_BUFFER_SIZE (w.feeds id) ∧ relay.nextEventId = (w.feeds id).length + 1
  made : s.eventRelays.has id = w.opened id

theorem Subscription.window_fst (sub : Subscription) : sub.window.map Prod.fst =
    List.range' (readFrom EVENT_REPLAY_BUFFER_SIZE sub.joined sub.cursor) sub.window.length := by
  have hpos := readFrom_pos EVENT_REPLAY_BUFFER_SIZE sub.joined sub.cursor
  unfold Subscription.window
  rw [drop_numbered, numbered_fst, length_numbered]
  congr 1
  omega

theorem Streams.Ok.cursor {s : ServerState} {w : Streams} (h : w.Ok s) (id : SessionId) :
    sessionMessageCursor s id = (w.feeds id).length := by
  have hnext := h.kept.nextEventId id
  unfold relayFor at hnext
  unfold sessionMessageCursor
  cases hget : s.eventRelays.get id with
  | none =>
    rw [hget] at hnext
    exact Nat.succ.inj hnext
  | some relay =>
    rw [hget] at hnext
    exact Nat.sub_eq_of_eq_add hnext

theorem Streams.Ok.fed {s : ServerState} {w : Streams} (h : w.Ok s) (id : SessionId) : w.Fed s id := by
  refine ⟨h.feed id, h.cursor id, ?_, ?_, h.kept.made id⟩
  · intro hne
    obtain ⟨before, heq⟩ := h.feed id
    rw [← heq, h.cursor id]
    exact getLast_numbered before hne
  · intro relay hget
    have hrelay : relayFor s id = relay := by
      unfold relayFor
      rw [hget]
      rfl
    rw [← hrelay]
    exact ⟨h.kept.buffer id, h.kept.nextEventId id⟩

theorem relay_sound {s : ServerState} {w : Streams} (h : RelayRun (s, w)) :
    (∀ sub ∈ w.subscriptions, sub.Served s w) ∧ ∀ id, w.Fed s id := by
  have hok : w.Ok s := h.ok
  refine ⟨?_, hok.fed⟩
  intro sub hsub
  have hwindow := hok.window sub hsub
  refine ⟨hwindow, ?_, hok.own sub hsub, hok.joined sub hsub, hok.live sub hsub⟩
  rw [hwindow]
  exact sub.window_fst

/-- Two events, a subscriber that has seen the first, a third event, a read of another session, and the
    subscriber gone before a fourth. -/
def watching : List RelayEvent :=
  [.broadcast 1 (.worker (.num 1)), .broadcast 1 (.worker (.num 2)), .subscribe 1 (some 1),
    .broadcast 1 (.worker (.num 3)), .read 9, .disconnect 1 3, .broadcast 1 (.worker (.num 4))]

/-- A server with the one placeholder `1`. -/
def housing : ServerState :=
  runFrom step freshServer [.launchSession ⟨js "/w", .default, none, none⟩ false, .launchOpened 0 true ""]

theorem relay_sound_watching :
    let p := runFrom (watched relayStep streamsWatch) (housing, Streams.empty) watching
    received p.1.out 3 = [(2, .worker (.num 2)), (3, .worker (.num 3))] ∧
      (∀ sub ∈ p.2.subscriptions, sub.Served p.1 p.2) ∧ ∀ id, p.2.Fed p.1 id := by
  have hstart : RelayStart (housing, Streams.empty) := ⟨fun _ => rfl, rfl, rfl⟩
  refine ⟨?_, ?_⟩
  · rfl
  · exact relay_sound ((Reach.start hstart).run_allowed (by simp [watching, allowed, relayAllowed]))

end Ccctl.Server
