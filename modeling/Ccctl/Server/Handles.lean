import Ccctl.Server.LaunchLegs
import Ccctl.Server.Step
/-
  Ccctl.Server.Handles — every armed timer is named by the field that clears it, over whole runs.

  `owner` reads, for each callback, the field its handle is kept in: a pending launch's `timer`, a
  record's `livenessTimer` while that stream is the record's downstream, its `evictionTimer`, its
  `idleTimer`. `Handles` says the fields and the timer table agree (`Armed`), and what keeps them
  so: a connected record has no eviction pending, a disconnected one no interval, a record that
  was never made holds nothing, and the interval a stream's `close` listener captured is its
  record's own or gone.

  One lemma for each way a turn writes these tables; `HandlesKept` goes through the handlers.
-/

namespace Ccctl.Server

open Ccctl.Core Ccctl.Lib ServerState

/-- The field a callback's handle is kept in. -/
def owner (records : RecId → WorkerChannelRecord) (pendingLaunches : OrdMap SessionId PendingLaunch) :
    TimerCallback → Option TimerId
  | .evictPendingLaunch sessionId => (pendingLaunches.get sessionId).map (·.timer)
  | .writeLivenessFrame r res => if (records r).downstream = some res then (records r).livenessTimer else none
  | .considerEviction sessionId r => if sessionId = r.sessionId then (records r).evictionTimer else none
  | .fireIdleEvent sessionId r => if sessionId = r.sessionId then (records r).idleTimer else none

structure Handles (timers : OrdMap TimerId (Timer TimerCallback)) (records : RecId → WorkerChannelRecord)
    (streams : OrdMap Res WorkerStream) (workerChannels : OrdMap SessionId RecId)
    (pendingLaunches : OrdMap SessionId PendingLaunch) (next : Nat) : Prop where
  armed : Armed (owner records pendingLaunches) timers next
  connected : ∀ r, (records r).downstream ≠ none → (records r).evictionTimer = none
  disconnected : ∀ r, (records r).downstream = none → (records r).livenessTimer = none
  unborn : ∀ r, next ≤ r.serial →
    (records r).downstream = none ∧ (records r).evictionTimer = none ∧ (records r).idleTimer = none
  channel : ∀ sessionId r, workerChannels.get sessionId = some r → r.sessionId = sessionId ∧ r.serial < next
  launch : ∀ sessionId p, pendingLaunches.get sessionId = some p → p.sessionId = sessionId ∧ sessionId < next
  stream : ∀ res stream, streams.get res = some stream →
    stream.record.sessionId = stream.sessionId ∧ stream.record.serial < next ∧ res < next ∧ stream.timer < next
  interval : ∀ res stream, streams.get res = some stream →
    ∀ timer, timers.get stream.timer = some timer → timer.callback = .writeLivenessFrame stream.record res
  current : ∀ res stream, streams.get res = some stream → (records stream.record).downstream = some res →
    ∀ t, (records stream.record).livenessTimer = some t → t = stream.timer

/-- The tables of `s` agree on its timers. -/
abbrev TimersOk (s : ServerState) : Prop :=
  Handles s.timers s.records s.streams s.workerChannels s.pendingLaunches s.next

/-! ## What `owner` sees -/

theorem owner_idle (records : RecId → WorkerChannelRecord) (pending : OrdMap SessionId PendingLaunch) (r : RecId)
    (x : Option TimerId) :
    owner (Function.update records r { records r with idleTimer := x }) pending =
      Function.update (owner records pending) (.fireIdleEvent r.sessionId r) x := by
  funext k
  by_cases hk : k = .fireIdleEvent r.sessionId r
  · subst hk
    simp [owner]
  · rw [Function.update_of_ne hk]
    cases k with
    | evictPendingLaunch id => rfl
    | writeLivenessFrame r' res => by_cases hr : r' = r <;> simp [owner, hr]
    | considerEviction id r' => by_cases hr : r' = r <;> simp [owner, hr]
    | fireIdleEvent id r' =>
      by_cases hr : r' = r
      · subst hr
        have hid : id ≠ r'.sessionId := fun h => hk (by rw [h])
        simp [owner, hid]
      · simp [owner, hr]

theorem owner_eviction (records : RecId → WorkerChannelRecord) (pending : OrdMap SessionId PendingLaunch) (r : RecId)
    (x : Option TimerId) :
    owner (Function.update records r { records r with evictionTimer := x }) pending =
      Function.update (owner records pending) (.considerEviction r.sessionId r) x := by
  funext k
  by_cases hk : k = .considerEviction r.sessionId r
  · subst hk
    simp [owner]
  · rw [Function.update_of_ne hk]
    cases k with
    | evictPendingLaunch id => rfl
    | writeLivenessFrame r' res => by_cases hr : r' = r <;> simp [owner, hr]
    | fireIdleEvent id r' => by_cases hr : r' = r <;> simp [owner, hr]
    | considerEviction id r' =>
      by_cases hr : r' = r
      · subst hr
        have hid : id ≠ r'.sessionId := fun h => hk (by rw [h])
        simp [owner, hid]
      · simp [owner, hr]

theorem owner_interval {records : RecId → WorkerChannelRecord} (pending : OrdMap SessionId PendingLaunch) {r : RecId}
    {res : Res} (hres : (records r).downstream = some res) (x : Option TimerId) :
    owner (Function.update records r { records r with livenessTimer := x }) pending =
      Function.update (owner records pending) (.writeLivenessFrame r res) x := by
  funext k
  by_cases hk : k = .writeLivenessFrame r res
  · subst hk
    simp [owner, hres]
  · rw [Function.update_of_ne hk]
    cases k with
    | evictPendingLaunch id => rfl
    | considerEviction id r' => by_cases hr : r' = r <;> simp [owner, hr]
    | fireIdleEvent id r' => by_cases hr : r' = r <;> simp [owner, hr]
    | writeLivenessFrame r' res' =>
      by_cases hr : r' = r
      · subst hr
        have hne : res ≠ res' := fun h => hk (by rw [h])
        simp [owner, hres, hne]
      · simp [owner, hr]

/-- The stream of a record whose interval is clear is no timer's. -/
theorem owner_downstream (pending : OrdMap SessionId PendingLaunch) {records : RecId → WorkerChannelRecord} {r : RecId}
    (hl : (records r).livenessTimer = none) (x : Option Res) :
    owner (Function.update records r { records r with downstream := x }) pending = owner records pending := by
  funext k
  cases k with
  | evictPendingLaunch id => rfl
  | considerEviction id r' => by_cases hr : r' = r <;> simp [owner, hr]
  | fireIdleEvent id r' => by_cases hr : r' = r <;> simp [owner, hr]
  | writeLivenessFrame r' res =>
    by_cases hr : r' = r
    · subst hr
      simp [owner, hl]
    · simp [owner, hr]

theorem owner_pending (records : RecId → WorkerChannelRecord) {pending pending' : OrdMap SessionId PendingLaunch}
    {sessionId : SessionId} {x : Option TimerId} (hself : (pending'.get sessionId).map (·.timer) = x)
    (hother : ∀ id, id ≠ sessionId → (pending'.get id).map (·.timer) = (pending.get id).map (·.timer)) :
    owner records pending' = Function.update (owner records pending) (.evictPendingLaunch sessionId) x := by
  funext k
  by_cases hk : k = .evictPendingLaunch sessionId
  · subst hk
    simp [owner, hself]
  · rw [Function.update_of_ne hk]
    cases k with
    | writeLivenessFrame r' res => rfl
    | considerEviction id r' => rfl
    | fireIdleEvent id r' => rfl
    | evictPendingLaunch id => exact hother id fun h => hk (by rw [h])

/-- Fields of a record that no handle is kept in. -/
structure SameHandles (a b : WorkerChannelRecord) : Prop where
  downstream : a.downstream = b.downstream
  liveness : a.livenessTimer = b.livenessTimer
  eviction : a.evictionTimer = b.evictionTimer
  idle : a.idleTimer = b.idleTimer

theorem owner_same {records records' : RecId → WorkerChannelRecord} (pending : OrdMap SessionId PendingLaunch)
    (h : ∀ r, SameHandles (records' r) (records r)) : owner records' pending = owner records pending := by
  funext k
  cases k with
  | evictPendingLaunch id => rfl
  | writeLivenessFrame r res => simp [owner, (h r).downstream, (h r).liveness]
  | considerEviction id r => simp [owner, (h r).eviction]
  | fireIdleEvent id r => simp [owner, (h r).idle]

theorem cleared_get {κ : Type} {timers : OrdMap Nat (Timer κ)} {o : Option Nat} {t : Nat} {timer : Timer κ}
    (h : (cleared timers o).get t = some timer) : timers.get t = some timer := by
  cases o with
  | none => exact h
  | some u => exact (OrdMap.get_erase_of_some h).2

/-! ## The ways a turn writes the tables -/

namespace Handles

variable {timers : OrdMap TimerId (Timer TimerCallback)} {records : RecId → WorkerChannelRecord}
  {streams : OrdMap Res WorkerStream} {workerChannels : OrdMap SessionId RecId}
  {pending : OrdMap SessionId PendingLaunch} {next : Nat}

/-- Minting for something else. -/
theorem mono (h : Handles timers records streams workerChannels pending next) {next' : Nat} (hle : next ≤ next') :
    Handles timers records streams workerChannels pending next' where
  armed := h.armed.mono hle
  connected := h.connected
  disconnected := h.disconnected
  unborn r hr := h.unborn r (hle.trans hr)
  channel id r hr := ⟨(h.channel id r hr).1, Nat.lt_of_lt_of_le (h.channel id r hr).2 hle⟩
  launch id p hp := ⟨(h.launch id p hp).1, Nat.lt_of_lt_of_le (h.launch id p hp).2 hle⟩
  stream res st hst := by
    obtain ⟨h1, h2, h3, h4⟩ := h.stream res st hst
    exact ⟨h1, Nat.lt_of_lt_of_le h2 hle, Nat.lt_of_lt_of_le h3 hle, Nat.lt_of_lt_of_le h4 hle⟩
  interval := h.interval
  current := h.current

/-- Writing fields of records that no handle is kept in. -/
theorem same_records (h : Handles timers records streams workerChannels pending next)
    (records' : RecId → WorkerChannelRecord) (hr : ∀ r, SameHandles (records' r) (records r)) :
    Handles timers records' streams workerChannels pending next where
  armed := by rw [owner_same pending hr]; exact h.armed
  connected r := by rw [(hr r).downstream, (hr r).eviction]; exact h.connected r
  disconnected r := by rw [(hr r).downstream, (hr r).liveness]; exact h.disconnected r
  unborn r := by rw [(hr r).downstream, (hr r).eviction, (hr r).idle]; exact h.unborn r
  channel := h.channel
  launch := h.launch
  stream := h.stream
  interval := h.interval
  current res st := by rw [(hr st.record).downstream, (hr st.record).liveness]; exact h.current res st

/-- What a record has to agree on: its own three handles, and the interval its streams captured. -/
structure RecordAgrees (streams : OrdMap Res WorkerStream) (next : Nat) (r : RecId) (x : WorkerChannelRecord) :
    Prop where
  connected : x.downstream ≠ none → x.evictionTimer = none
  disconnected : x.downstream = none → x.livenessTimer = none
  unborn : next ≤ r.serial → x.downstream = none ∧ x.evictionTimer = none ∧ x.idleTimer = none
  current : ∀ res st, streams.get res = some st → st.record = r → x.downstream = some res →
    ∀ t, x.livenessTimer = some t → t = st.timer

theorem agrees (h : Handles timers records streams workerChannels pending next) (r : RecId) :
    RecordAgrees streams next r (records r) where
  connected := h.connected r
  disconnected := h.disconnected r
  unborn := h.unborn r
  current res st hst hr := hr ▸ h.current res st hst

/-- Writing one record, with the timer that goes with it. -/
theorem write_record (h : Handles timers records streams workerChannels pending next)
    {timers' : OrdMap TimerId (Timer TimerCallback)} {r : RecId} {x : WorkerChannelRecord} {next' : Nat}
    (hle : next ≤ next') (harmed : Armed (owner (Function.update records r x) pending) timers' next')
    (hold : ∀ res st, streams.get res = some st → ∀ timer, timers'.get st.timer = some timer →
      timers.get st.timer = some timer)
    (hx : RecordAgrees streams next' r x) :
    Handles timers' (Function.update records r x) streams workerChannels pending next' where
  armed := harmed
  connected := (Function.forall_update_iff records fun _ x => x.downstream ≠ none → x.evictionTimer = none).mpr
    ⟨hx.connected, fun r' _ => h.connected r'⟩
  disconnected := (Function.forall_update_iff records fun _ x => x.downstream = none → x.livenessTimer = none).mpr
    ⟨hx.disconnected, fun r' _ => h.disconnected r'⟩
  unborn := (Function.forall_update_iff records fun r x => next' ≤ r.serial →
      x.downstream = none ∧ x.evictionTimer = none ∧ x.idleTimer = none).mpr
    ⟨hx.unborn, fun r' _ hr' => h.unborn r' (hle.trans hr')⟩
  channel := (h.mono hle).channel
  launch := (h.mono hle).launch
  stream := (h.mono hle).stream
  interval res st hst timer ht := h.interval res st hst timer (hold res st hst timer ht)
  current res st hst := by
    by_cases hr : st.record = r
    · rw [hr, Function.update_self]
      exact hx.current res st hst hr
    · rw [Function.update_of_ne hr]
      exact h.current res st hst

theorem clear_idle (h : Handles timers records streams workerChannels pending next) (r : RecId) :
    Handles (cleared timers (records r).idleTimer) (Function.update records r { records r with idleTimer := none })
      streams workerChannels pending next := by
  have hx := h.agrees r
  refine h.write_record (le_refl _) ?_ (fun _ _ _ _ => cleared_get) ⟨hx.connected, hx.disconnected, ?_, hx.current⟩
  · have hown : owner records pending (.fireIdleEvent r.sessionId r) = (records r).idleTimer := by simp [owner]
    rw [owner_idle, ← hown]
    exact h.armed.clear _
  · exact fun hr => ⟨(hx.unborn hr).1, (hx.unborn hr).2.1, rfl⟩

theorem clear_eviction (h : Handles timers records streams workerChannels pending next) (r : RecId) :
    Handles (cleared timers (records r).evictionTimer)
      (Function.update records r { records r with evictionTimer := none }) streams workerChannels pending next := by
  have hx := h.agrees r
  refine h.write_record (le_refl _) ?_ (fun _ _ _ _ => cleared_get) ⟨fun _ => rfl, hx.disconnected, ?_, hx.current⟩
  · have hown : owner records pending (.considerEviction r.sessionId r) = (records r).evictionTimer := by simp [owner]
    rw [owner_eviction, ← hown]
    exact h.armed.clear _
  · exact fun hr => ⟨(hx.unborn hr).1, rfl, (hx.unborn hr).2.2⟩

theorem clear_interval (h : Handles timers records streams workerChannels pending next) (r : RecId) :
    Handles (cleared timers (records r).livenessTimer)
      (Function.update records r { records r with livenessTimer := none }) streams workerChannels pending next := by
  have hx := h.agrees r
  refine h.write_record (le_refl _) ?_ (fun _ _ _ _ => cleared_get) ⟨hx.connected, fun _ => rfl, hx.unborn, ?_⟩
  · cases hd : (records r).downstream with
    | none =>
      have hself : Function.update records r { records r with livenessTimer := none } = records := by
        rw [Function.update_eq_self_iff, ← h.disconnected r hd]
      rw [hself, h.disconnected r hd]
      exact h.armed
    | some res =>
      have hown : owner records pending (.writeLivenessFrame r res) = (records r).livenessTimer := by simp [owner, hd]
      rw [owner_interval pending hd, ← hown]
      exact h.armed.clear _
  · intro _ _ _ _ _ t ht
    cases ht

/-- Streams forgotten, or marked ended. -/
theorem streams_sub (h : Handles timers records streams workerChannels pending next)
    {streams' : OrdMap Res WorkerStream}
    (hs : ∀ res st, streams'.get res = some st → ∃ st₀, streams.get res = some st₀ ∧
      st₀.sessionId = st.sessionId ∧ st₀.record = st.record ∧ st₀.timer = st.timer) :
    Handles timers records streams' workerChannels pending next where
  armed := h.armed
  connected := h.connected
  disconnected := h.disconnected
  unborn := h.unborn
  channel := h.channel
  launch := h.launch
  stream res st hst := by
    obtain ⟨st₀, h0, hid, hr, ht⟩ := hs res st hst
    rw [← hid, ← hr, ← ht]
    exact h.stream res st₀ h0
  interval res st hst := by
    obtain ⟨st₀, h0, -, hr, ht⟩ := hs res st hst
    rw [← hr, ← ht]
    exact h.interval res st₀ h0
  current res st hst := by
    obtain ⟨st₀, h0, -, hr, ht⟩ := hs res st hst
    rw [← hr, ← ht]
    exact h.current res st₀ h0

/-- Entries of the pending table rewritten where they stand. -/
theorem remark (h : Handles timers records streams workerChannels pending next)
    {f : SessionId → PendingLaunch → PendingLaunch}
    (hf : ∀ id p, (f id p).timer = p.timer ∧ (f id p).sessionId = p.sessionId) :
    Handles timers records streams workerChannels (pending.mapVals f) next where
  armed := by
    have hown : owner records (pending.mapVals f) = owner records pending := by
      funext k
      cases k with
      | evictPendingLaunch id => cases hp : pending.get id <;> simp [owner, OrdMap.get_mapVals, hp, hf]
      | _ => rfl
    rw [hown]
    exact h.armed
  connected := h.connected
  disconnected := h.disconnected
  unborn := h.unborn
  channel := h.channel
  launch id p hp := by
    rw [OrdMap.get_mapVals, Option.map_eq_some_iff] at hp
    obtain ⟨p₀, h0, rfl⟩ := hp
    rw [(hf id p₀).2]
    exact h.launch id p₀ h0
  stream := h.stream
  interval := h.interval
  current := h.current

theorem set_channel (h : Handles timers records streams workerChannels pending next) {id : SessionId} {r : RecId}
    (hid : r.sessionId = id) (hr : r.serial < next) :
    Handles timers records streams (workerChannels.set id r) pending next where
  armed := h.armed
  connected := h.connected
  disconnected := h.disconnected
  unborn := h.unborn
  channel id' r' hr' := by
    rw [OrdMap.get_set] at hr'
    split at hr'
    · rename_i heq
      cases hr'
      exact ⟨hid.trans heq.symm, hr⟩
    · exact h.channel id' r' hr'
  launch := h.launch
  stream := h.stream
  interval := h.interval
  current := h.current

theorem erase_channel (h : Handles timers records streams workerChannels pending next) (id : SessionId) :
    Handles timers records streams (workerChannels.erase id) pending next where
  armed := h.armed
  connected := h.connected
  disconnected := h.disconnected
  unborn := h.unborn
  channel id' r' hr' := h.channel id' r' (OrdMap.get_erase_of_some hr').2
  launch := h.launch
  stream := h.stream
  interval := h.interval
  current := h.current

/-- A fresh timer is no stream's interval. -/
theorem set_old (h : Handles timers records streams workerChannels pending next) {tm : Timer TimerCallback}
    {res : Res} {st : WorkerStream} (hst : streams.get res = some st) {timer : Timer TimerCallback}
    (ht : (timers.set next tm).get st.timer = some timer) : timers.get st.timer = some timer := by
  have hlt : st.timer < next := (h.stream res st hst).2.2.2
  rwa [OrdMap.get_set_ne timers tm (Nat.ne_of_lt hlt)] at ht

theorem arm_idle (h : Handles timers records streams workerChannels pending next) {r : RecId} (hr : r.serial < next)
    (hn : (records r).idleTimer = none) (due : Nat) :
    Handles (timers.set next ⟨due, .fireIdleEvent r.sessionId r⟩)
      (Function.update records r { records r with idleTimer := some next }) streams workerChannels pending
      (next + 1) := by
  have hx := h.agrees r
  refine h.write_record (Nat.le_succ _) ?_ (fun _ _ hst _ => h.set_old hst)
    ⟨hx.connected, hx.disconnected, fun hle => absurd hle (by omega), hx.current⟩
  rw [owner_idle]
  exact h.armed.arm (by simp [owner, hn]) due

theorem arm_eviction (h : Handles timers records streams workerChannels pending next) {r : RecId}
    (hr : r.serial < next) (hn : (records r).evictionTimer = none) (hd : (records r).downstream = none) (due : Nat) :
    Handles (timers.set next ⟨due, .considerEviction r.sessionId r⟩)
      (Function.update records r { records r with evictionTimer := some next }) streams workerChannels pending
      (next + 1) := by
  have hx := h.agrees r
  refine h.write_record (Nat.le_succ _) ?_ (fun _ _ hst _ => h.set_old hst)
    ⟨fun hne => absurd hd hne, hx.disconnected, fun hle => absurd hle (by omega), hx.current⟩
  rw [owner_eviction]
  exact h.armed.arm (by simp [owner, hn]) due

/-- A record whose interval is clear lets go of its stream. -/
theorem disconnect (h : Handles timers records streams workerChannels pending next) {r : RecId}
    (hl : (records r).livenessTimer = none) :
    Handles timers (Function.update records r { records r with downstream := none }) streams workerChannels pending
      next := by
  have hx := h.agrees r
  refine h.write_record (le_refl _) ?_ (fun _ _ _ _ ht => ht)
    ⟨fun hne => absurd rfl hne, fun _ => hl, fun hle => ⟨rfl, (hx.unborn hle).2⟩, fun _ _ _ _ hd => (nomatch hd)⟩
  rw [owner_downstream pending hl]
  exact h.armed

/-- A record with nothing armed takes the fresh response `next` as its stream. -/
theorem connect (h : Handles timers records streams workerChannels pending next) {r : RecId} (hr : r.serial < next)
    (hl : (records r).livenessTimer = none) (he : (records r).evictionTimer = none) :
    Handles timers (Function.update records r { records r with downstream := some next }) streams workerChannels
      pending (next + 1) := by
  refine h.write_record (Nat.le_succ _) ?_ (fun _ _ _ _ ht => ht)
    ⟨fun _ => he, fun _ => hl, fun hle => absurd hle (by omega), fun _ _ _ _ _ t ht => ?_⟩
  · rw [owner_downstream pending hl]
    exact h.armed.mono (Nat.le_succ _)
  · cases hl.symm.trans ht

/-- The interval of the stream a record just took. -/
theorem arm_interval (h : Handles timers records streams workerChannels pending next) {r : RecId} {res : Res}
    (hr : r.serial < next) (hres : res < next) (hd : (records r).downstream = some res)
    (hl : (records r).livenessTimer = none) (due : Nat) (ended : Bool) :
    Handles (timers.set next ⟨due, .writeLivenessFrame r res⟩)
      (Function.update records r { records r with livenessTimer := some next })
      (streams.set res ⟨r.sessionId, r, next, ended⟩) workerChannels pending (next + 1) where
  armed := by
    rw [owner_interval pending hd]
    exact h.armed.arm (by simp [owner, hd, hl]) due
  connected := (Function.forall_update_iff records fun _ x => x.downstream ≠ none → x.evictionTimer = none).mpr
    ⟨h.connected r, fun r' _ => h.connected r'⟩
  disconnected := (Function.forall_update_iff records fun _ x => x.downstream = none → x.livenessTimer = none).mpr
    ⟨fun hn => absurd (hd.symm.trans hn) (by simp), fun r' _ => h.disconnected r'⟩
  unborn := (Function.forall_update_iff records fun r x => next + 1 ≤ r.serial →
      x.downstream = none ∧ x.evictionTimer = none ∧ x.idleTimer = none).mpr
    ⟨fun hle => absurd hle (by omega), fun r' _ hle => h.unborn r' (by omega)⟩
  channel := (h.mono (Nat.le_succ _)).channel
  launch := (h.mono (Nat.le_succ _)).launch
  stream res' st hst := by
    rw [OrdMap.get_set] at hst
    split at hst
    · rename_i heq
      cases hst
      exact ⟨rfl, Nat.lt_succ_of_lt hr, heq ▸ Nat.lt_succ_of_lt hres, Nat.lt_succ_self _⟩
    · exact (h.mono (Nat.le_succ _)).stream res' st hst
  interval res' st hst timer ht := by
    rw [OrdMap.get_set] at hst
    split at hst
    · rename_i heq
      cases hst
      rw [OrdMap.get_set_self] at ht
      cases ht
      rw [heq]
    · exact h.interval res' st hst timer (h.set_old hst ht)
  current res' st hst hd' t ht := by
    rw [OrdMap.get_set] at hst
    split at hst
    · cases hst
      rw [Function.update_self] at ht
      exact (Option.some.inj ht).symm
    · rename_i hne
      by_cases he : st.record = r
      · rw [he, Function.update_self] at hd'
        rw [show ({ records r with livenessTimer := some next } : WorkerChannelRecord).downstream = some res from hd,
          Option.some.injEq] at hd'
        exact absurd hd'.symm hne
      · rw [Function.update_of_ne he] at hd' ht
        exact h.current res' st hst hd' t ht

/-- The timer a stream captured is its record's interval, or gone. -/
theorem stream_timer (h : Handles timers records streams workerChannels pending next) {res : Res} {st : WorkerStream}
    (hst : streams.get res = some st)
    (hnone : owner records pending (.writeLivenessFrame st.record res) = none) : timers.get st.timer = none := by
  cases hg : timers.get st.timer with
  | none => rfl
  | some timer =>
    obtain ⟨due, cb⟩ := timer
    obtain rfl : cb = .writeLivenessFrame st.record res := h.interval res st hst _ hg
    have hown := h.armed.owner_of_get hg
    rw [hnone] at hown
    cases hown

/-- The `close` of a record's own stream clears that record's interval. -/
theorem cleared_current (h : Handles timers records streams workerChannels pending next) {res : Res}
    {st : WorkerStream} (hst : streams.get res = some st) (hd : (records st.record).downstream = some res) :
    cleared timers (some st.timer) = cleared timers (records st.record).livenessTimer := by
  cases hl : (records st.record).livenessTimer with
  | some t => rw [h.current res st hst hd t hl]
  | none => exact OrdMap.erase_of_none (h.stream_timer hst (by simp [owner, hl]))

/-- A late `close`, of a stream its record moved on from, finds its interval gone. -/
theorem cleared_late (h : Handles timers records streams workerChannels pending next) {res : Res}
    {st : WorkerStream} (hst : streams.get res = some st) (hd : (records st.record).downstream ≠ some res) :
    cleared timers (some st.timer) = timers :=
  OrdMap.erase_of_none (h.stream_timer hst (by simp [owner, hd]))

theorem consume (h : Handles timers records streams workerChannels pending next) {id : SessionId} {p : PendingLaunch}
    (hp : pending.get id = some p) :
    Handles (cleared timers (some p.timer)) records streams workerChannels (pending.erase id) next where
  armed := by
    have hown : owner records pending (.evictPendingLaunch id) = some p.timer := by simp [owner, hp]
    have hnew : owner records (pending.erase id) =
        Function.update (owner records pending) (.evictPendingLaunch id) none :=
      owner_pending records (by simp) fun id' hne => by rw [OrdMap.get_erase_ne _ hne]
    rw [hnew, ← hown]
    exact h.armed.clear _
  connected := h.connected
  disconnected := h.disconnected
  unborn := h.unborn
  channel := h.channel
  launch id' p' hp' := h.launch id' p' (OrdMap.get_erase_of_some hp').2
  stream := h.stream
  interval res st hst timer ht := h.interval res st hst timer (cleared_get ht)
  current := h.current

theorem track (h : Handles timers records streams workerChannels pending next) {id : SessionId}
    (hn : pending.get id = none) (hlt : id < next) {p : PendingLaunch} (hp : p.timer = next) (hid : p.sessionId = id)
    (due : Nat) :
    Handles (timers.set next ⟨due, .evictPendingLaunch id⟩) records streams workerChannels (pending.set id p)
      (next + 1) where
  armed := by
    have hnew : owner records (pending.set id p) =
        Function.update (owner records pending) (.evictPendingLaunch id) (some next) :=
      owner_pending records (by simp [hp]) fun id' hne => by rw [OrdMap.get_set_ne _ _ hne]
    rw [hnew]
    exact h.armed.arm (by simp [owner, hn]) due
  connected := h.connected
  disconnected := h.disconnected
  unborn r hle := h.unborn r (by omega)
  channel := (h.mono (Nat.le_succ _)).channel
  launch id' p' hp' := by
    rw [OrdMap.get_set] at hp'
    split at hp'
    · rename_i heq
      cases hp'
      exact ⟨hid.trans heq.symm, heq ▸ Nat.lt_succ_of_lt hlt⟩
    · exact (h.mono (Nat.le_succ _)).launch id' p' hp'
  stream := (h.mono (Nat.le_succ _)).stream
  interval res st hst timer ht := h.interval res st hst timer (h.set_old hst ht)
  current := h.current

end Handles

end Ccctl.Server
