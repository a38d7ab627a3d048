import Ccctl.Server.Handles
import Ccctl.Server.StatusLegs
/-
  Ccctl.Server.HandlesKept — every handler keeps the fields and the timer table in agreement.

  One lemma for each handler, then `handles_step` and, over whole runs, `Reachable.handles`. A
  handler moves a field and the table by the rules of `Handles` (`arm_idle`, `clear_interval` and
  their like); here it is said which of them it uses, and why it may.
-/

namespace Ccctl.Server

open Ccctl.Core Ccctl.Lib ServerState

/-! ## The handlers -/

/-- An ended stream is the stream it was, but for its being open. -/
theorem endedStream_get {streams : OrdMap Res WorkerStream} {d : Option Res} {res : Res} {st : WorkerStream}
    (h : (endedStream streams d).get res = some st) : ∃ st₀, streams.get res = some st₀ ∧
      st₀.sessionId = st.sessionId ∧ st₀.record = st.record ∧ st₀.timer = st.timer := by
  rw [endedStream, OrdMap.get_mapVals, Option.map_eq_some_iff] at h
  obtain ⟨st₀, h0, rfl⟩ := h
  refine ⟨st₀, h0, ?_⟩
  split <;> exact ⟨rfl, rfl, rfl⟩

/-- The end of a downstream clears the record's three timers. -/
theorem endDownstream_timersOk {s : ServerState} (h : TimersOk s) (r : RecId) : TimersOk (endDownstream s r) := by
  have h1 := h.clear_interval r
  have h2 := h1.clear_eviction r
  have h3 := h2.clear_idle r
  simp only [Function.update_self, Function.update_idem] at h3
  exact h3.streams_sub fun _ _ => endedStream_get

theorem clearIdleTimer_timersOk {s : ServerState} (h : TimersOk s) (r : RecId) : TimersOk (clearIdleTimer s r) :=
  h.clear_idle r

/-- Armed only where none is, so no armed timer loses its field. -/
theorem armIdleTimer_timersOk {s : ServerState} (h : TimersOk s) {id : SessionId} {r : RecId}
    (hr : s.workerChannels.get id = some r) : TimersOk (armIdleTimer s id r) := by
  obtain ⟨hid, hlt⟩ := h.channel id r hr
  unfold armIdleTimer
  split
  · exact h
  · rename_i hn
    have harm := h.arm_idle hlt (by simpa using hn) (s.now + timeoutDelay s.config.sessionIdleThresholdMs)
    rwa [hid] at harm

/-- An eviction waits only for a record without a downstream. -/
theorem scheduleEviction_timersOk {s : ServerState} (h : TimersOk s) {r : RecId} (hlt : r.serial < s.next)
    (hn : (s.records r).evictionTimer = none) (hd : (s.records r).downstream = none) :
    TimersOk (scheduleEviction s r.sessionId r) :=
  h.arm_eviction hlt hn hd _

theorem reconcileIdleTimer_timersOk {s : ServerState} (h : TimersOk s) (id : SessionId) (session : Session) :
    TimersOk (reconcileIdleTimer s id session) := by
  unfold reconcileIdleTimer
  split
  · exact h
  · rename_i r hr
    split
    · exact armIdleTimer_timersOk h hr
    · exact clearIdleTimer_timersOk h r

theorem reconcileNeedsInput_timersOk {s : ServerState} (h : TimersOk s) (id : SessionId) (prev next : Session) :
    TimersOk (reconcileNeedsInput s id prev next) := by
  unfold reconcileNeedsInput
  split
  · exact h
  · split
    · split <;> exact h
    · exact h

theorem applied_timersOk {s : ServerState} (h : TimersOk s) (id : SessionId) (session next : Session)
    (sequence : Option Nat) : TimersOk (applied s id session next sequence) := by
  obtain ⟨files, heq⟩ := applied_eq s id session next sequence
  have hidle := reconcileIdleTimer_timersOk (s := { s with sessions := s.sessions.set id next }) h id next
  have hneeds := reconcileNeedsInput_timersOk hidle id session next
  rw [heq]
  exact hneeds

/-- A record's other fields are free. -/
theorem recordStatusSequence_timersOk {s : ServerState} (h : TimersOk s) (r : RecId) (sequence : Option Nat) :
    TimersOk (recordStatusSequence s r sequence) := by
  rw [recordStatusSequence_eq]
  exact h.same_records _ ((Function.forall_update_iff s.records fun r x => SameHandles x (s.records r)).mpr
    ⟨⟨rfl, rfl, rfl, rfl⟩, fun _ _ => ⟨rfl, rfl, rfl, rfl⟩⟩)

theorem relayWorkerEvent_timersOk {s : ServerState} (h : TimersOk s) (r : RecId) (id : SessionId) (entry : Json) :
    TimersOk (relayWorkerEvent s r id entry) := by
  unfold relayWorkerEvent
  split
  · exact h
  · rename_i payload _
    have hfold : TimersOk (foldWorkerStatus s r id payload).1 := by
      generalize hf : foldWorkerStatus s r id payload = folded
      have hc := foldWorkerStatus_cases s r id payload
      rw [hf] at hc
      cases hc with
      | noSession | stale | other => exact h
      | status hs hevent hfresh => exact applied_timersOk (recordStatusSequence_timersOk h r _) id _ _ _
    simp only
    split
    · exact hfold
    · rw [bufferInputRequestEnrichment_eq]
      exact hfold

theorem handleWorkerStatus_timersOk {s : ServerState} (h : TimersOk s) (id : SessionId) (body : Json) :
    TimersOk (handleWorkerStatus s id body).1 := by
  unfold handleWorkerStatus
  split
  · split
    · exact h
    · rename_i r _
      split
      · exact h
      · simp only
        split
        · exact h
        · split
          · exact h
          · exact applied_timersOk (recordStatusSequence_timersOk h r _) id _ _ _
  · exact h

theorem supersede_timersOk {s : ServerState} (h : TimersOk s) (prev : Option RecId) : TimersOk (supersede s prev) := by
  cases prev with
  | none => exact h
  | some r => exact endDownstream_timersOk h r

theorem supersede_writes (s : ServerState) (prev : Option RecId) :
    ∃ timers records streams out, supersede s prev = { s with timers, records, streams, out } := by
  cases prev with
  | none => exact ⟨_, _, _, _, rfl⟩
  | some r => exact ⟨_, _, _, _, rfl⟩

/-- A fresh record: unborn until now, it has no timers and no downstream. -/
theorem handleWorkerRegister_timersOk {s : ServerState} (h : TimersOk s) (id : SessionId) :
    TimersOk (handleWorkerRegister s id).1 := by
  unfold handleWorkerRegister
  split
  · exact h
  · split
    · exact h
    · have hsup := supersede_timersOk h (s.workerChannels.get id)
      obtain ⟨timers, records, streams, out, heq⟩ := supersede_writes s (s.workerChannels.get id)
      rw [heq] at hsup
      simp only [heq]
      -- the new record is the next id's, so no timer is of it yet
      obtain ⟨hd, he, hi⟩ := hsup.unborn ⟨id, s.next⟩ (Nat.le_refl _)
      have hl := hsup.disconnected ⟨id, s.next⟩ hd
      have hnew := hsup.same_records (Function.update records ⟨id, s.next⟩ (freshRecord (s.channel id)))
        ((Function.forall_update_iff records fun r x => SameHandles x (records r)).mpr
          ⟨⟨hd.symm, hl.symm, he.symm, hi.symm⟩, fun _ _ => ⟨rfl, rfl, rfl, rfl⟩⟩)
      exact (hnew.mono (Nat.le_succ _)).set_channel rfl (Nat.lt_succ_self _)

/-- A stream that opens ends the one before it, is the record's downstream, and arms its interval. -/
theorem handleWorkerEventsStream_timersOk {s : ServerState} (h : TimersOk s) (id : SessionId) :
    TimersOk (handleWorkerEventsStream s id).1 := by
  unfold handleWorkerEventsStream
  split
  · exact h
  · split
    · exact h
    · rename_i r hr
      obtain ⟨hid, hlt⟩ := h.channel id r hr
      have hend := endDownstream_timersOk h r
      have hcon := hend.connect (r := r) hlt (by simp) (by simp)
      have harm := hcon.arm_interval (r := r) (Nat.lt_succ_of_lt hlt) (Nat.lt_succ_self s.next)
        (by simp) (by simp) (s.now + timeoutDelay s.config.workerLivenessIntervalMs) false
      rw [hid] at harm
      exact harm

/-- A stream that closes clears its own interval; if the record still names it, the eviction is armed in its place. -/
theorem closeWorkerStream_timersOk {s : ServerState} (h : TimersOk s) (res : Res) :
    TimersOk (closeWorkerStream s res) := by
  unfold closeWorkerStream
  split
  · exact h
  · rename_i st hst
    obtain ⟨hid, hlt, -, -⟩ := h.stream res st hst
    have hsub : ∀ res' st', (s.streams.erase res).get res' = some st' → ∃ st₀, s.streams.get res' = some st₀ ∧
        st₀.sessionId = st'.sessionId ∧ st₀.record = st'.record ∧ st₀.timer = st'.timer :=
      fun res' st' h' => ⟨st', (OrdMap.get_erase_of_some h').2, rfl, rfl, rfl⟩
    simp only [clearTimeout_records]
    split
    -- the current stream: the record's interval is the stream's
    · rename_i hd
      have hclr := (h.clear_interval st.record).disconnect (r := st.record) (by simp)
      simp only [Function.update_self, Function.update_idem] at hclr
      rw [← h.cleared_current hst hd] at hclr
      have hgone := hclr.streams_sub hsub
      rw [← hid]
      refine scheduleEviction_timersOk ?_ hlt ?_ ?_
      · exact hgone
      · simpa using h.connected st.record (by simp [hd])
      · simp
    -- a late close: its interval was cleared when it was superseded
    · rename_i hd
      have hgone := h.streams_sub hsub
      rw [← h.cleared_late hst hd] at hgone
      exact hgone

theorem writeClientEventFrame_timersOk {s : ServerState} (h : TimersOk s) (r : RecId) (payload : ClientPayload) :
    TimersOk (writeClientEventFrame s r payload) := by
  unfold writeClientEventFrame
  split
  · exact h
  · exact h.same_records _ ((Function.forall_update_iff s.records fun r x => SameHandles x (s.records r)).mpr
      ⟨⟨rfl, rfl, rfl, rfl⟩, fun _ _ => ⟨rfl, rfl, rfl, rfl⟩⟩)

theorem pushClientEvent_timersOk {s s' : ServerState} (h : TimersOk s) {id : SessionId} {payload : ClientPayload}
    (hs : pushClientEvent s id payload = some s') : TimersOk s' := by
  unfold pushClientEvent at hs
  split at hs
  · cases hs
  · split at hs
    · cases hs
    · cases hs
      exact writeClientEventFrame_timersOk (clearIdleTimer_timersOk h _) _ _

theorem closeSession_writes (s : ServerState) (id : SessionId) :
    ∃ eventRelays out files hookInstalls requiresActionEnrichments, (closeSession s id).1 =
      { s with sessions := s.sessions.erase id, eventRelays, out, files, hookInstalls, requiresActionEnrichments } := by
  unfold closeSession retireHookInstall
  split
  · rename_i hn
    exact ⟨_, _, _, _, _, by rw [OrdMap.erase_of_none hn]⟩
  · simp only
    split <;> exact ⟨_, _, _, _, _, rfl⟩

theorem closeSession_timersOk {s : ServerState} (h : TimersOk s) (id : SessionId) : TimersOk (closeSession s id).1 := by
  obtain ⟨_, _, _, _, _, heq⟩ := closeSession_writes s id
  rw [heq]
  exact h

/-- The record stays, without timers; only the session's name for it goes. -/
theorem reapWorkerChannel_timersOk {s : ServerState} (h : TimersOk s) (id : SessionId) :
    TimersOk (reapWorkerChannel s id) := by
  unfold reapWorkerChannel
  split
  · exact h
  · exact (endDownstream_timersOk h _).erase_channel id

theorem consumePendingLaunch_timersOk {s : ServerState} (h : TimersOk s) (id : SessionId) :
    TimersOk (consumePendingLaunch s id).1 := by
  unfold consumePendingLaunch
  split
  · exact h
  · exact h.consume ‹_›

/-- A mark is not a timer. -/
theorem markGroupMayHoldLiveWorker_timersOk {s : ServerState} (h : TimersOk s) (cwd : Path) (mode : PermissionMode) :
    TimersOk (markGroupMayHoldLiveWorker s cwd mode) :=
  Handles.remark (f := fun _ pending => if pending.onPair cwd mode then { pending with mayHoldLiveWorker := true }
    else pending) h fun _ p => by split <;> exact ⟨rfl, rfl⟩

theorem ambiguated_handles {timers : OrdMap TimerId (Timer TimerCallback)} {records : RecId → WorkerChannelRecord}
    {streams : OrdMap Res WorkerStream} {workerChannels : OrdMap SessionId RecId}
    {pendings : OrdMap SessionId PendingLaunch} {next : Nat}
    (h : Handles timers records streams workerChannels pendings next) (cwd : Path) (mode : PermissionMode) :
    Handles timers records streams workerChannels (ambiguated pendings cwd mode) next := by
  unfold ambiguated
  split
  · exact h
  · exact h.remark fun _ p => by split <;> exact ⟨rfl, rfl⟩

/-- A claim consumes one launch; an ambiguous one also marks the others on its pair. -/
theorem claimPendingLaunch_timersOk {s : ServerState} (h : TimersOk s) (cwd : Path) (mode : PermissionMode) :
    TimersOk (claimPendingLaunch s cwd mode).1 := by
  unfold claimPendingLaunch
  split
  · split
    · exact h
    · rename_i claimed _
      have hc := consumePendingLaunch_timersOk h claimed.sessionId
      simp only
      split
      · exact markGroupMayHoldLiveWorker_timersOk
          (s := dropPlaceholder (consumePendingLaunch s claimed.sessionId).1 claimed.sessionId) hc _ _
      · exact hc
  · exact h

theorem handleSessionCreate_timersOk {s : ServerState} (h : TimersOk s) (cwd : Path) (mode : PermissionMode) :
    TimersOk (handleSessionCreate s cwd mode).1 := by
  have hc := claimPendingLaunch_timersOk h cwd mode
  obtain ⟨_, _, _, _, _, heq⟩ := claimPendingLaunch_writes s cwd mode
  unfold handleSessionCreate
  simp only [heq] at hc ⊢
  exact hc.mono (Nat.le_succ _)

theorem evictPendingLaunch_timersOk {s : ServerState} (h : TimersOk s) (id : SessionId) :
    TimersOk (evictPendingLaunch s id) := by
  have hc := consumePendingLaunch_timersOk h id
  rcases evictPendingLaunch_cases s id with ⟨-, heq⟩ | ⟨p, -, ⟨-, heq⟩ | ⟨-, heq⟩⟩
  · rw [heq]
    exact h
  · rw [heq]
    exact hc
  · rw [heq]
    obtain ⟨_, _, hwrites⟩ := consumePendingLaunch_writes s id
    rw [hwrites] at hc ⊢
    exact hc.mono (Nat.le_succ _)

theorem concludeStop_timersOk {s : ServerState} (h : TimersOk s) (id : SessionId) (outcome : String) :
    TimersOk (concludeStop s id outcome).1 := by
  rw [concludeStop_fst]
  have h1 : TimersOk { s with launchedSurfaces := s.launchedSurfaces.erase id } := h
  exact closeSession_timersOk (reapWorkerChannel_timersOk (consumePendingLaunch_timersOk h1 id) id) id

/-- The launch is tracked under a new id, so no launch had it. -/
theorem launchOpened_timersOk {s : ServerState} (h : TimersOk s) (op : OpId) (options : SessionLaunchOptions)
    (hookInstall : Option HookInstall) (attachable : Bool) (hint : String) :
    TimersOk (launchOpened s op options hookInstall attachable hint).1 := by
  have hn : s.pendingLaunches.get s.next = none := by
    cases hp : s.pendingLaunches.get s.next with
    | none => rfl
    | some p => exact absurd (h.launch _ _ hp).2 (Nat.lt_irrefl _)
  rw [launchOpened_eq]
  apply ambiguated_handles
  exact (h.mono (Nat.le_succ _)).track hn (Nat.lt_succ_self _) rfl rfl _

theorem launchFailed_timersOk {s : ServerState} (h : TimersOk s) (op : OpId) (hookInstall : Option HookInstall)
    (code : LaunchFailureCode) (message : String) : TimersOk (launchFailed s op hookInstall code message).1 := by
  rw [launchFailed_eq]
  exact h

theorem launchSession_timersOk {s : ServerState} (h : TimersOk s) (options : SessionLaunchOptions) (hookOk : Bool) :
    TimersOk (launchSession s options hookOk).1 := by
  rcases launchSession_cases s options hookOk with ⟨_, _, _, heq⟩ | ⟨_, _, _, _, heq, hnext, -⟩
  · rw [heq]
    exact h
  · rw [heq]
    exact h.mono (Nat.le_of_lt hnext)

theorem stopSession_timersOk {s : ServerState} (h : TimersOk s) (id : SessionId) (force : Bool) :
    TimersOk (stopSession s id force).1 := by
  rcases stopSession_cases s id force with ⟨_, _, _, heq⟩ | ⟨_, -, -, heq⟩
  · rw [heq]
    exact h
  · rw [heq]
    exact h.mono (Nat.le_succ _)

theorem livenessSettled_timersOk {s : ServerState} (h : TimersOk s) (op : OpId) (reading : Reading) :
    TimersOk (livenessSettled s op reading).1 := by
  unfold livenessSettled
  split
  · unfold evictRead
    split <;> exact h
  · unfold stopRead
    simp only
    split
    · exact h
    · exact concludeStop_timersOk (s := s.finish op) h _ _
    · exact h
  · unfold stopConfirmed
    split
    · exact h
    · exact concludeStop_timersOk (s := s.finish op) h _ _
  · unfold releaseRead
    split <;> exact h
  · exact h

theorem closeSettled_timersOk {s : ServerState} (h : TimersOk s) (op : OpId) (fulfilled : Bool) :
    TimersOk (closeSettled s op fulfilled).1 := by
  unfold closeSettled
  split
  · exact h
  · unfold stopClosed
    split <;> exact h
  · exact h
  · exact h

theorem writeLivenessFrame_timersOk {s : ServerState} (h : TimersOk s) (r : RecId) (res : Res) :
    TimersOk (writeLivenessFrame s r res) := by
  unfold writeLivenessFrame
  split
  · exact h
  · exact writeClientEventFrame_timersOk h r _

/-- The record's field is nulled before the callback looks at anything. -/
theorem considerEviction_timersOk {s : ServerState} {r : RecId} (h : TimersOk s) (hlt : r.serial < s.next)
    (hn : (s.records r).evictionTimer = none) : TimersOk (considerEviction s r.sessionId r) := by
  have hsame : s.modifyRecord r (fun record => { record with evictionTimer := none }) = s := by
    simp [modifyRecord, ← hn]
  unfold considerEviction
  simp only [hsame]
  split
  · exact h
  · split
    · exact h
    · rename_i hd
      split
      · exact h
      · split
        · exact reapWorkerChannel_timersOk (closeSession_timersOk h _) _
        · exact scheduleEviction_timersOk h hlt hn (by simpa using hd)

theorem fireIdleEvent_timersOk {s : ServerState} {r : RecId} (h : TimersOk s)
    (hn : (s.records r).idleTimer = none) : TimersOk (fireIdleEvent s r.sessionId r) := by
  have hsame : s.modifyRecord r (fun record => { record with idleTimer := none }) = s := by
    simp [modifyRecord, ← hn]
  unfold fireIdleEvent
  simp only [hsame]
  split
  · exact h
  · split
    · exact h
    · split
      · exact h
      · split <;> exact h

theorem modifyRecord_twice (s : ServerState) (r : RecId) {f : WorkerChannelRecord → WorkerChannelRecord}
    (hf : ∀ record, f (f record) = f record) : (s.modifyRecord r f).modifyRecord r f = s.modifyRecord r f := by
  simp [modifyRecord, hf]

/-- A callback nulls its own field first, so nulling it before makes no difference. -/
theorem considerEviction_spent (s : ServerState) (id : SessionId) (r : RecId) :
    considerEviction (s.modifyRecord r fun record => { record with evictionTimer := none }) id r =
      considerEviction s id r := by
  unfold considerEviction
  rw [modifyRecord_twice s r (f := fun record => { record with evictionTimer := none }) fun _ => rfl]

theorem fireIdleEvent_spent (s : ServerState) (id : SessionId) (r : RecId) :
    fireIdleEvent (s.modifyRecord r fun record => { record with idleTimer := none }) id r = fireIdleEvent s id r := by
  unfold fireIdleEvent
  rw [modifyRecord_twice s r (f := fun record => { record with idleTimer := none }) fun _ => rfl]

/-- Clearing a launch's timer again changes nothing. -/
theorem evictPendingLaunch_spent {s : ServerState} {id : SessionId} {p : PendingLaunch}
    (hp : s.pendingLaunches.get id = some p) :
    evictPendingLaunch (s.clearTimeout (some p.timer)) id = evictPendingLaunch s id := by
  have htwice : cleared (cleared s.timers (some p.timer)) (some p.timer) = cleared s.timers (some p.timer) :=
    OrdMap.erase_of_none (by simp [cleared])
  simp [evictPendingLaunch, consumePendingLaunch, hp, clearTimeout, htwice]

/-- The timer that fires is its owner's field; the callback nulls the field and the table gives the timer up. -/
theorem fire_timersOk {s : ServerState} (h : TimersOk s) (t : TimerId) : TimersOk (fire s t) := by
  unfold fire
  split
  · exact h
  · rename_i timer ht
    split
    · exact h
    · obtain ⟨due, callback⟩ := timer
      have hown := h.armed.owner_of_get ht
      cases callback with
      | writeLivenessFrame r res =>
        refine writeLivenessFrame_timersOk ?_ r res
        -- an interval stays, due later
        exact { h with
          armed := h.armed.rearm hown _
          interval := fun res' st hst timer' ht' => by
            by_cases hu : st.timer = t
            · rw [hu, OrdMap.get_set_self] at ht'
              cases ht'
              have hcb := h.interval res' st hst ⟨due, .writeLivenessFrame r res⟩ (hu ▸ ht)
              exact hcb
            · rw [OrdMap.get_set_ne _ _ hu] at ht'
              exact h.interval res' st hst timer' ht' }
      | evictPendingLaunch id =>
        obtain ⟨p, hp, rfl⟩ := Option.map_eq_some_iff.mp hown
        simp only [evictPendingLaunch_spent hp]
        exact evictPendingLaunch_timersOk h id
      | considerEviction id r =>
        simp only [owner, Option.ite_none_right_eq_some] at hown
        obtain ⟨rfl, he⟩ := hown
        have hlt : r.serial < s.next := by
          by_contra hge
          rw [(h.unborn r (Nat.le_of_not_lt hge)).2.1] at he
          cases he
        have hclr := h.clear_eviction r
        rw [he] at hclr
        simp only [← considerEviction_spent (s.clearTimeout (some t))]
        exact considerEviction_timersOk hclr hlt (by simp)
      | fireIdleEvent id r =>
        simp only [owner, Option.ite_none_right_eq_some] at hown
        obtain ⟨rfl, he⟩ := hown
        have hclr := h.clear_idle r
        rw [he] at hclr
        simp only [← fireIdleEvent_spent (s.clearTimeout (some t))]
        exact fireIdleEvent_timersOk hclr (by simp)

theorem handleUiCommand_timersOk {s : ServerState} (h : TimersOk s) (id : SessionId) (body : Option Json) :
    TimersOk (handleUiCommand s id body).1 := by
  unfold handleUiCommand
  split
  · exact h
  · split
    · split
      · exact h
      · rename_i command _ _ _
        have hnext : TimersOk { s with next := s.next + 1 } := h.mono (Nat.le_succ _)
        simp only
        split
        · exact h
        · rename_i relayed hrel
          have hok : TimersOk relayed := by
            unfold relayCommand at hrel
            split at hrel
            · cases hrel
              exact hnext
            · exact pushClientEvent_timersOk hnext hrel
          simp only
          split <;> exact hok
    · exact h

/-! ## Shutdown -/

/-- Every record in turn. -/
theorem closeWorkerChannels_timersOk {s : ServerState} (h : TimersOk s) : TimersOk (closeWorkerChannels s) := by
  unfold closeWorkerChannels
  generalize s.workerChannels.values = records
  induction records generalizing s with
  | nil => exact h
  | cons r rs ih =>
    rw [List.foldl_cons]
    exact ih ((endDownstream_timersOk h r).disconnect (by simp))

/-- The timers left when those of `launches` are cleared. -/
theorem foldl_erase_get (launches : List PendingLaunch) (timers : OrdMap TimerId (Timer TimerCallback)) (t : TimerId)
    (timer : Timer TimerCallback) :
    (launches.foldl (fun timers pending => timers.erase pending.timer) timers).get t = some timer ↔
      timers.get t = some timer ∧ ∀ p ∈ launches, p.timer ≠ t := by
  induction launches generalizing timers with
  | nil => simp
  | cons p ps ih =>
    rw [List.foldl_cons, ih, OrdMap.get_erase]
    by_cases ht : t = p.timer
    · simp [ht]
    · simp [ht, Ne.symm ht]

/-- The callbacks whose handle a pending launch keeps. -/
def ofLaunch : TimerCallback → Bool
  | .evictPendingLaunch _ => true
  | _ => false

/-- The launches go with their timers, all at once: none is left that a launch owned. -/
theorem clearPendingLaunches_timersOk {s : ServerState} (h : TimersOk s) : TimersOk (clearPendingLaunches s) := by
  have hget : ∀ t timer, (clearPendingLaunches s).timers.get t = some timer ↔
      s.timers.get t = some timer ∧ ¬ ofLaunch timer.callback = true := by
    intro t timer
    rw [clearPendingLaunches, foldl_erase_get]
    refine and_congr_right fun ht => ?_
    obtain ⟨due, callback⟩ := timer
    have hown := h.armed.owner_of_get ht
    constructor
    -- a launch's timer is the one in its record
    · intro hall hof
      cases callback with
      | evictPendingLaunch id =>
        obtain ⟨p, hp, hpt⟩ := Option.map_eq_some_iff.mp hown
        exact hall p (OrdMap.mem_values.mpr ⟨id, hp⟩) hpt
      | _ => cases hof
    · intro hnot p hp hpt
      obtain ⟨id, hid⟩ := OrdMap.mem_values.mp hp
      obtain ⟨d, hd⟩ := h.armed.get_of_owner (k := .evictPendingLaunch id) (t := t) (by simp [owner, hid, hpt])
      rw [ht] at hd
      cases hd
      exact hnot rfl
  have hown : owner (clearPendingLaunches s).records (clearPendingLaunches s).pendingLaunches =
      fun k => if ofLaunch k = true then none else owner s.records s.pendingLaunches k := by
    funext k
    cases k <;> rfl
  exact {
    h with
    armed := by
      rw [hown]
      exact h.armed.clear_all _ hget
    launch := fun id p hp => by cases hp
    interval := fun res st hst timer ht => h.interval res st hst timer ((hget _ _).mp ht).1 }

theorem shutdown_timersOk {s : ServerState} (h : TimersOk s) : TimersOk (shutdown s) := by
  have hclear := clearPendingLaunches_timersOk (closeWorkerChannels_timersOk (s := closeEventStreams s) h)
  have hrelease : ∀ (launches : List LaunchedSession) (s : ServerState), TimersOk s →
      TimersOk (launches.foldl startRelease s) := by
    intro launches
    induction launches with
    | nil => exact fun _ h => h
    | cons l ls ih => exact fun s h => ih _ (h.mono (Nat.le_succ _))
  exact hrelease _ _ hclear

/-! ## Over whole runs -/

theorem startServer_timersOk (image : BootImage) : TimersOk (startServer image) where
  armed := by
    have hown : owner (startServer image).records (startServer image).pendingLaunches = fun _ => none := by
      funext k
      cases k <;> simp [owner, startServer, freshRecord]
    rw [hown]
    exact Armed.empty _
  connected _ _ := rfl
  disconnected _ _ := rfl
  unborn _ _ := ⟨rfl, rfl, rfl⟩
  channel _ _ h := by cases h
  launch _ _ h := by cases h
  stream _ _ h := by cases h
  interval _ _ h := by cases h
  current _ _ h := by cases h

/-- Every turn keeps the fields and the table in agreement. -/
theorem handles_step {s : ServerState} (h : TimersOk s) (e : Event) : TimersOk (step s e) := by
  cases e with
  | advance ms => exact h
  | changeDisk fs => exact h
  | writeHookFile path entry => cases entry <;> exact h
  | launchSession options hookOk => exact launchSession_timersOk h options hookOk
  | launchOpened op attachable hint =>
    simp only [step, turn, launchSettled]
    split
    · exact launchOpened_timersOk h _ _ _ _ _
    · exact h
  | launchFailed op code message =>
    simp only [step, turn, launchSettled]
    split
    · exact launchFailed_timersOk h _ _ _ _
    · exact h
  | sessionCreate terminal cwd mode => exact handleSessionCreate_timersOk h cwd mode
  | stopSession id force => exact stopSession_timersOk h id force
  | livenessSettled op reading => exact livenessSettled_timersOk h op reading
  | closeSettled op fulfilled => exact closeSettled_timersOk h op fulfilled
  | fire t => exact fire_timersOk h t
  | workerRegister id => exact handleWorkerRegister_timersOk h id
  | workerEventsStream id => exact handleWorkerEventsStream_timersOk h id
  | workerStreamClosed res => exact closeWorkerStream_timersOk h res
  | workerEvent id workerEpoch entry =>
    simp only [step, turn, handleWorkerEvent]
    split
    · exact h
    · exact relayWorkerEvent_timersOk h _ id entry
  | workerStatus id body => exact handleWorkerStatus_timersOk h id body
  | workerHeartbeat id =>
    simp only [step, turn, handleWorkerHeartbeat]
    split
    · exact h
    · split <;> exact h
  | uiEventStream id lastEventId =>
    simp only [step, turn, handleEventStream]
    split
    · exact h.mono (Nat.le_succ _)
    · exact h
  | uiStreamClosed id res => exact h
  | uiCommand id body => exact handleUiCommand_timersOk h id body
  | injectTurn id prompt =>
    simp only [step, turn]
    cases hp : injectUserTurn s id prompt with
    | none => exact h
    | some s' => exact pushClientEvent_timersOk h hp
  | shutdown => exact shutdown_timersOk h

/-- In every state reached, an armed timer is the field of its owner, and a field names an armed timer. -/
theorem Reachable.handles {s : ServerState} (h : Reachable s) : TimersOk s := by
  refine h.inv ?_ fun s e hs _ => handles_step hs e
  intro s hs
  obtain ⟨image, rfl⟩ := hs
  exact startServer_timersOk image

end Ccctl.Server
