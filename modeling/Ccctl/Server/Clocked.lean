import Ccctl.Server.Moves
/-
  Ccctl.Server.Clocked — when a one-shot timer runs out. A turn never touches the deadline of a
  timer that is armed: it clears it, lets it stand, or arms another under a fresh handle, after what
  `setTimeout` keeps of the delay its kind has (`clocked_step`). Only an interval is set again under
  its own handle.
-/

namespace Ccctl.Server

open Ccctl.Core Ccctl.Lib ServerState

/-- All but the liveness interval. -/
def TimerCallback.oneShot : TimerCallback → Bool
  | .writeLivenessFrame _ _ => false
  | _ => true

/-- What is asked for a timer of that kind. -/
def ServerConfig.delay (config : ServerConfig) : TimerCallback → Nat
  | .evictPendingLaunch _ => config.registrationTimeoutMs
  | .writeLivenessFrame _ _ => config.workerLivenessIntervalMs
  | .considerEviction _ _ => config.sessionEvictionGraceMs
  | .fireIdleEvent _ _ => config.sessionIdleThresholdMs

/-- A one-shot timer that is armed after was armed before, the same, or is one that was armed now. -/
structure Clocked (s s' : ServerState) : Prop where
  next : s.next ≤ s'.next
  now : s'.now = s.now
  config : s'.config = s.config
  timers : ∀ t timer, timer.callback.oneShot = true → s'.timers.get t = some timer →
    s.timers.get t = some timer ∨ s.next ≤ t ∧ timer.due = s.now + timeoutDelay (s.config.delay timer.callback)

namespace Clocked

variable {s s' s'' : ServerState}

/-- The clock stands during a turn, so what the second half arms is due as if the first had. -/
theorem trans (h : Clocked s s') (h' : Clocked s' s'') : Clocked s s'' := by
  refine ⟨h.next.trans h'.next, h'.now.trans h.now, h'.config.trans h.config, ?_⟩
  intro t timer hshot ht
  rcases h'.timers t timer hshot ht with hold | hnew
  · exact h.timers t timer hshot hold
  · rw [h.now, h.config] at hnew
    exact Or.inr ⟨h.next.trans hnew.1, hnew.2⟩

/-- Timers are cleared at most. -/
theorem sub (hnext : s.next ≤ s'.next) (hnow : s'.now = s.now) (hconfig : s'.config = s.config)
    (htimers : ∀ t timer, s'.timers.get t = some timer → s.timers.get t = some timer) : Clocked s s' :=
  ⟨hnext, hnow, hconfig, fun t timer _ ht => Or.inl (htimers t timer ht)⟩

theorem same (hnext : s.next ≤ s'.next) (hnow : s'.now = s.now) (hconfig : s'.config = s.config)
    (htimers : s'.timers = s.timers) : Clocked s s' :=
  sub hnext hnow hconfig fun t timer ht => by rwa [htimers] at ht

theorem refl (s : ServerState) : Clocked s s := same (Nat.le_refl _) rfl rfl rfl

/-- A timer armed after the delay of its kind. -/
theorem arm (s : ServerState) (callback : TimerCallback) :
    Clocked s (s.setTimeout (s.config.delay callback) callback) := by
  refine ⟨Nat.le_succ _, rfl, rfl, ?_⟩
  intro t timer _ ht
  rw [setTimeout_timers, OrdMap.get_set] at ht
  split at ht
  · rename_i heq
    cases ht
    exact Or.inr ⟨Nat.le_of_eq heq.symm, rfl⟩
  · exact Or.inl ht

/-- An interval set again. -/
theorem interval (s : ServerState) (t : TimerId) (due : Nat) (r : RecId) (res : Res) :
    Clocked s { s with timers := s.timers.set t ⟨due, .writeLivenessFrame r res⟩ } := by
  refine ⟨Nat.le_refl _, rfl, rfl, ?_⟩
  intro t' timer hshot ht
  have hset : (if t' = t then some ⟨due, .writeLivenessFrame r res⟩ else s.timers.get t') = some timer :=
    (OrdMap.get_set ..).symm.trans ht
  split at hset
  -- its own handle holds no one-shot timer
  · cases hset
    cases hshot
  · exact Or.inl hset

theorem clear (s : ServerState) (t : Option TimerId) : Clocked s (s.clearTimeout t) :=
  sub (Nat.le_refl _) rfl rfl fun _ _ ht => cleared_get ht

theorem modify (s : ServerState) (r : RecId) (f : WorkerChannelRecord → WorkerChannelRecord) :
    Clocked s (s.modifyRecord r f) := same (Nat.le_refl _) rfl rfl rfl

end Clocked

/-! ## The status legs -/

/-- Three timers are cleared. -/
theorem endDownstream_clocked (s : ServerState) (r : RecId) : Clocked s (endDownstream s r) :=
  .sub (Nat.le_refl _) rfl rfl fun _ _ ht => cleared_get (cleared_get (cleared_get ht))

theorem clearIdleTimer_clocked (s : ServerState) (r : RecId) : Clocked s (clearIdleTimer s r) :=
  .sub (Nat.le_refl _) rfl rfl fun _ _ ht => cleared_get ht

theorem scheduleEviction_clocked (s : ServerState) (id : SessionId) (r : RecId) : Clocked s (scheduleEviction s id r) :=
  (Clocked.arm s (.considerEviction id r)).trans (.modify _ r _)

/-- Idle arms where nothing is armed; any other activity clears. -/
theorem reconcileIdleTimer_clocked (s : ServerState) (id : SessionId) (session : Session) :
    Clocked s (reconcileIdleTimer s id session) := by
  unfold reconcileIdleTimer armIdleTimer
  split
  · exact .refl s
  · rename_i r _
    split
    · split
      · exact .refl s
      · exact (Clocked.arm s (.fireIdleEvent id r)).trans (.modify _ r _)
    · exact clearIdleTimer_clocked s r

/-- Of a status's legs only the idle timer's touches the table. -/
theorem applied_clocked (s : ServerState) (id : SessionId) (session next : Session) (sequence : Option Nat) :
    Clocked s (applied s id session next sequence) := by
  obtain ⟨files, heq⟩ := applied_eq s id session next sequence
  obtain ⟨eventRelays, out, hneeds⟩ := reconcileNeedsInput_writes
    (reconcileIdleTimer { s with sessions := s.sessions.set id next } id next) id session next
  have hstored : Clocked s { s with sessions := s.sessions.set id next } := .same (Nat.le_refl _) rfl rfl rfl
  have hidle := hstored.trans (reconcileIdleTimer_clocked { s with sessions := s.sessions.set id next } id next)
  rw [heq, hneeds]
  exact hidle.trans (.same (Nat.le_refl _) rfl rfl rfl)

theorem recordStatusSequence_clocked (s : ServerState) (r : RecId) (sequence : Option Nat) :
    Clocked s (recordStatusSequence s r sequence) := by
  rw [recordStatusSequence_eq]
  exact .modify s r _

theorem relayWorkerEvent_clocked (s : ServerState) (r : RecId) (id : SessionId) (entry : Json) :
    Clocked s (relayWorkerEvent s r id entry) := by
  unfold relayWorkerEvent
  split
  · exact .refl s
  · rename_i payload _
    have hfold : Clocked s (foldWorkerStatus s r id payload).1 := by
      generalize hf : foldWorkerStatus s r id payload = folded
      have hc := foldWorkerStatus_cases s r id payload
      rw [hf] at hc
      cases hc with
      | noSession | stale | other => exact .refl s
      | status hs hevent hfresh => exact (recordStatusSequence_clocked s r _).trans (applied_clocked _ id _ _ _)
    simp only
    split
    · exact hfold
    · rw [bufferInputRequestEnrichment_eq]
      exact hfold.trans (.same (Nat.le_refl _) rfl rfl rfl)

theorem handleWorkerStatus_clocked (s : ServerState) (id : SessionId) (body : Json) :
    Clocked s (handleWorkerStatus s id body).1 := by
  unfold handleWorkerStatus
  split
  · split
    · exact .refl s
    · rename_i r _
      split
      · exact .refl s
      · simp only
        split
        · exact .refl s
        · split
          · exact .refl s
          · exact (recordStatusSequence_clocked s r _).trans (applied_clocked _ id _ _ _)
  · exact .refl s

/-! ## The channel -/

theorem handleWorkerRegister_clocked (s : ServerState) (id : SessionId) : Clocked s (handleWorkerRegister s id).1 := by
  unfold handleWorkerRegister
  split
  · exact .refl s
  · split
    · exact .refl s
    · cases s.workerChannels.get id with
      | none => exact .same (Nat.le_succ _) rfl rfl rfl
      | some r => exact (endDownstream_clocked s r).trans (.same (Nat.le_succ _) rfl rfl rfl)

/-- The interval is armed for the response, after the old downstream's timers are cleared. -/
theorem handleWorkerEventsStream_clocked (s : ServerState) (id : SessionId) :
    Clocked s (handleWorkerEventsStream s id).1 := by
  unfold handleWorkerEventsStream
  split
  · exact .refl s
  · split
    · exact .refl s
    · rename_i session _ _ r _
      have hopened : Clocked (endDownstream s r)
          { ({ endDownstream s r with next := s.next + 1 }.modifyRecord r
              fun record => { record with downstream := some s.next }) with
            sessions := s.sessions.set id (markSessionReady session) } := .same (Nat.le_succ _) rfl rfl rfl
      have harmed := hopened.trans (Clocked.arm _ (.writeLivenessFrame r s.next))
      exact ((endDownstream_clocked s r).trans harmed).trans (.same (Nat.le_refl _) rfl rfl rfl)

theorem closeWorkerStream_clocked (s : ServerState) (res : Res) : Clocked s (closeWorkerStream s res) := by
  unfold closeWorkerStream
  split
  · exact .refl s
  · rename_i stream _
    have hgone : Clocked s ({ s with streams := s.streams.erase res }.clearTimeout (some stream.timer)) :=
      .sub (Nat.le_refl _) rfl rfl fun _ _ ht => cleared_get ht
    simp only
    split
    -- the record's own stream: the grace period begins
    · exact (hgone.trans (.modify _ stream.record _)).trans (scheduleEviction_clocked _ _ _)
    · exact hgone

theorem writeClientEventFrame_clocked (s : ServerState) (r : RecId) (payload : ClientPayload) :
    Clocked s (writeClientEventFrame s r payload) := by
  unfold writeClientEventFrame
  split
  · exact .refl s
  · exact .same (Nat.le_refl _) rfl rfl rfl

theorem writeLivenessFrame_clocked (s : ServerState) (r : RecId) (res : Res) :
    Clocked s (writeLivenessFrame s r res) := by
  unfold writeLivenessFrame
  split
  · exact .refl s
  · exact writeClientEventFrame_clocked s r _

theorem pushClientEvent_clocked {s s' : ServerState} {id : SessionId} {payload : ClientPayload}
    (h : pushClientEvent s id payload = some s') : Clocked s s' := by
  unfold pushClientEvent at h
  split at h
  · cases h
  · rename_i r _
    split at h
    · cases h
    · cases h
      exact (clearIdleTimer_clocked s r).trans (writeClientEventFrame_clocked _ r payload)

theorem handleUiCommand_clocked (s : ServerState) (id : SessionId) (body : Option Json) :
    Clocked s (handleUiCommand s id body).1 := by
  have hmint : Clocked s { s with next := s.next + 1 } := .same (Nat.le_succ _) rfl rfl rfl
  have hc := handleUiCommand_cases s id body
  generalize handleUiCommand s id body = result at hc ⊢
  cases hc with
  | refused reply hne => exact .refl s
  | relayed hparse hok hpush =>
    simp only
    split
    · exact (hmint.trans (pushClientEvent_clocked hpush)).trans (.same (Nat.le_refl _) rfl rfl rfl)
    · exact hmint.trans (pushClientEvent_clocked hpush)

/-! ## Ends -/

theorem closeSession_clocked (s : ServerState) (id : SessionId) : Clocked s (closeSession s id).1 := by
  obtain ⟨_, _, _, _, _, heq⟩ := closeSession_writes s id
  rw [heq]
  exact .same (Nat.le_refl _) rfl rfl rfl

theorem reapWorkerChannel_clocked (s : ServerState) (id : SessionId) : Clocked s (reapWorkerChannel s id) := by
  unfold reapWorkerChannel
  split
  · exact .refl s
  · rename_i r _
    exact (endDownstream_clocked s r).trans (.same (Nat.le_refl _) rfl rfl rfl)

theorem consumePendingLaunch_clocked (s : ServerState) (id : SessionId) : Clocked s (consumePendingLaunch s id).1 := by
  unfold consumePendingLaunch
  split
  · exact .refl s
  · rename_i pending _
    exact (Clocked.clear s (some pending.timer)).trans (.same (Nat.le_refl _) rfl rfl rfl)

theorem concludeStop_clocked (s : ServerState) (id : SessionId) (outcome : String) :
    Clocked s (concludeStop s id outcome).1 := by
  rw [concludeStop_fst]
  have hforgot : Clocked s { s with launchedSurfaces := s.launchedSurfaces.erase id } :=
      .same (Nat.le_refl _) rfl rfl rfl
  have hconsumed := hforgot.trans (consumePendingLaunch_clocked _ id)
  exact hconsumed.trans ((reapWorkerChannel_clocked _ id).trans (closeSession_clocked _ id))

/-- An eviction that is put off is armed again, after the whole grace period. -/
theorem considerEviction_clocked (s : ServerState) (id : SessionId) (r : RecId) :
    Clocked s (considerEviction s id r) := by
  have hspent := Clocked.modify s r fun record => { record with evictionTimer := none }
  unfold considerEviction
  simp only
  split
  · exact hspent
  · split
    · exact hspent
    · split
      · exact hspent
      · split
        · exact hspent.trans ((closeSession_clocked _ id).trans (reapWorkerChannel_clocked _ id))
        · exact hspent.trans (scheduleEviction_clocked _ id r)

theorem fireIdleEvent_clocked (s : ServerState) (id : SessionId) (r : RecId) : Clocked s (fireIdleEvent s id r) := by
  have hspent := Clocked.modify s r fun record => { record with idleTimer := none }
  unfold fireIdleEvent
  simp only
  split
  · exact hspent
  · split
    · exact hspent
    · split
      · exact hspent
      · split
        · exact hspent
        · exact hspent.trans (.same (Nat.le_refl _) rfl rfl rfl)

/-- A launch given up arms nothing: its terminal's reading is awaited without a deadline. -/
theorem evictPendingLaunch_clocked (s : ServerState) (id : SessionId) : Clocked s (evictPendingLaunch s id) := by
  have hdrop : Clocked s (dropPlaceholder (consumePendingLaunch s id).1 id) :=
    (consumePendingLaunch_clocked s id).trans (.same (Nat.le_refl _) rfl rfl rfl)
  rcases evictPendingLaunch_writes s id with heq | ⟨_, _, hle, heq⟩
  · rw [heq]
    exact .refl s
  · rw [heq]
    exact hdrop.trans (.same hle rfl rfl rfl)

/-- A one-shot timer that fires is cleared first, so its callback may arm another. -/
theorem fire_clocked (s : ServerState) (t : TimerId) : Clocked s (fire s t) := by
  unfold fire
  split
  · exact .refl s
  · split
    · exact .refl s
    · split
      · exact (Clocked.interval s t _ _ _).trans (writeLivenessFrame_clocked _ _ _)
      · exact (Clocked.clear s (some t)).trans (evictPendingLaunch_clocked _ _)
      · exact (Clocked.clear s (some t)).trans (considerEviction_clocked _ _ _)
      · exact (Clocked.clear s (some t)).trans (fireIdleEvent_clocked _ _ _)

/-! ## Launches -/

theorem claimPendingLaunch_clocked (s : ServerState) (cwd : Path) (mode : PermissionMode) :
    Clocked s (claimPendingLaunch s cwd mode).1 := by
  unfold claimPendingLaunch
  split
  · split
    · exact .refl s
    · rename_i claimed _
      have hconsumed := consumePendingLaunch_clocked s claimed.sessionId
      simp only
      split
      · exact hconsumed.trans (.same (Nat.le_refl _) rfl rfl rfl)
      · exact hconsumed
  · exact .refl s

theorem handleSessionCreate_clocked (s : ServerState) (cwd : Path) (mode : PermissionMode) :
    Clocked s (handleSessionCreate s cwd mode).1 := by
  have hclaim := claimPendingLaunch_clocked s cwd mode
  obtain ⟨_, _, _, _, _, heq⟩ := claimPendingLaunch_writes s cwd mode
  unfold handleSessionCreate
  rw [heq] at hclaim
  simp only [heq]
  exact hclaim.trans (.same (Nat.le_succ _) rfl rfl rfl)

/-- A launch that opened waits for its worker under a timer of its own. -/
theorem launchOpened_clocked (s : ServerState) (op : OpId) (options : SessionLaunchOptions)
    (hookInstall : Option HookInstall) (attachable : Bool) (hint : String) :
    Clocked s (launchOpened s op options hookInstall attachable hint).1 := by
  have hmint : Clocked s { s with next := s.next + 1 } := .same (Nat.le_succ _) rfl rfl rfl
  have harmed := hmint.trans (Clocked.arm _ (.evictPendingLaunch s.next))
  rw [launchOpened_eq]
  exact harmed.trans (.same (Nat.le_refl _) rfl rfl rfl)

/-! ## Every turn -/

/-- A turn of a server that is not shut down; only `advance` moves the clock. -/
theorem clocked_step (s : ServerState) {e : Event} (he : e ≠ .shutdown) {t : TimerId} {timer : Timer TimerCallback}
    (hshot : timer.callback.oneShot = true) (ht : (step s e).timers.get t = some timer) :
    s.timers.get t = some timer ∨ s.next ≤ t ∧ timer.due = s.now + timeoutDelay (s.config.delay timer.callback) := by
  have hby : Clocked s (step s e) → s.timers.get t = some timer ∨
      s.next ≤ t ∧ timer.due = s.now + timeoutDelay (s.config.delay timer.callback) := fun h => h.timers t timer hshot ht
  cases e with
  | shutdown => exact absurd rfl he
  -- the clock moves, the table does not
  | advance ms => exact Or.inl ht
  | changeDisk fs => exact Or.inl ht
  | writeHookFile path entry => cases entry <;> exact Or.inl ht
  | launchSession options hookOk =>
    refine hby ?_
    rcases launchSession_cases s options hookOk with ⟨_, _, _, heq⟩ | ⟨_, _, _, _, heq, hnext, -⟩
    · simp only [step, turn, heq]
      exact .refl s
    · simp only [step, turn, heq]
      exact .same (Nat.le_of_lt hnext) rfl rfl rfl
  | launchOpened op attachable hint =>
    refine hby ?_
    simp only [step, turn, launchSettled]
    split
    · exact launchOpened_clocked s _ _ _ _ _
    · exact .refl s
  | launchFailed op code message =>
    refine hby ?_
    simp only [step, turn, launchSettled]
    split
    · rw [launchFailed_eq]
      exact .same (Nat.le_refl _) rfl rfl rfl
    · exact .refl s
  | sessionCreate terminal cwd mode => exact hby (handleSessionCreate_clocked s cwd mode)
  | stopSession id force =>
    refine hby ?_
    rcases stopSession_cases s id force with ⟨_, _, _, heq⟩ | ⟨_, -, -, heq⟩
    · simp only [step, turn, heq]
      exact .refl s
    · simp only [step, turn, heq]
      exact .same (Nat.le_succ _) rfl rfl rfl
  | livenessSettled op reading =>
    refine hby ?_
    have hfinish : Clocked s (s.finish op) := .same (Nat.le_refl _) rfl rfl rfl
    simp only [step, turn, livenessSettled]
    split
    · unfold evictRead
      split <;> exact .same (Nat.le_refl _) rfl rfl rfl
    · unfold stopRead
      simp only
      split
      · exact hfinish
      · exact hfinish.trans (concludeStop_clocked _ _ _)
      · exact .same (Nat.le_refl _) rfl rfl rfl
    · unfold stopConfirmed
      split
      · exact hfinish
      · exact hfinish.trans (concludeStop_clocked _ _ _)
    · unfold releaseRead
      split <;> exact .same (Nat.le_refl _) rfl rfl rfl
    · exact .refl s
  | closeSettled op fulfilled =>
    refine hby ?_
    simp only [step, turn, closeSettled]
    split
    · exact .same (Nat.le_refl _) rfl rfl rfl
    · unfold stopClosed
      split <;> exact .same (Nat.le_refl _) rfl rfl rfl
    · exact .same (Nat.le_refl _) rfl rfl rfl
    · exact .refl s
  | fire t' => exact hby (fire_clocked s t')
  | workerRegister id => exact hby (handleWorkerRegister_clocked s id)
  | workerEventsStream id => exact hby (handleWorkerEventsStream_clocked s id)
  | workerStreamClosed res => exact hby (closeWorkerStream_clocked s res)
  | workerEvent id workerEpoch entry =>
    refine hby ?_
    simp only [step, turn, handleWorkerEvent]
    split
    · exact .refl s
    · exact relayWorkerEvent_clocked s _ id entry
  | workerStatus id body => exact hby (handleWorkerStatus_clocked s id body)
  | workerHeartbeat id =>
    refine hby ?_
    simp only [step, turn, handleWorkerHeartbeat]
    split
    · exact .refl s
    · split
      · exact .refl s
      · exact .same (Nat.le_refl _) rfl rfl rfl
  | uiEventStream id lastEventId =>
    refine hby ?_
    simp only [step, turn, handleEventStream]
    split
    · exact .same (Nat.le_succ _) rfl rfl rfl
    · exact .refl s
  | uiStreamClosed id res => exact Or.inl ht
  | uiCommand id body => exact hby (handleUiCommand_clocked s id body)
  | injectTurn id prompt =>
    refine hby ?_
    simp only [step, turn]
    cases hp : injectUserTurn s id prompt with
    | none => exact .refl s
    | some s' => exact pushClientEvent_clocked hp

end Ccctl.Server
