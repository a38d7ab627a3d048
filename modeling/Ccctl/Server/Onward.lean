import Ccctl.Server.HandlesKept
/-
  Ccctl.Server.Onward — what no turn takes back: the counter only grows, the configuration stays,
  and only a shutdown closes the server. And which turns leave the launches aside (`aside_step`):
  what a worker or a browser sends touches none.
-/

namespace Ccctl.Server

open Ccctl.Core Ccctl.Lib ServerState

/-- What holds across every turn but a shutdown: ids are never given out again. -/
structure Onward (s s' : ServerState) : Prop where
  next : s.next ≤ s'.next
  closed : s'.closed = s.closed
  config : s'.config = s.config

namespace Onward

theorem refl (s : ServerState) : Onward s s := ⟨Nat.le_refl _, rfl, rfl⟩

theorem trans {s s' s'' : ServerState} (h : Onward s s') (h' : Onward s' s'') : Onward s s'' :=
  ⟨h.next.trans h'.next, h'.closed.trans h.closed, h'.config.trans h.config⟩

end Onward

/-- A turn that leaves the launches aside: none is pending, open or under way that was not. -/
structure Aside (s s' : ServerState) : Prop extends Onward s s' where
  pendings : s'.pendingLaunches = s.pendingLaunches
  surfaces : s'.launchedSurfaces = s.launchedSurfaces
  ops : s'.ops = s.ops

namespace Aside

theorem refl (s : ServerState) : Aside s s := ⟨.refl s, rfl, rfl, rfl⟩

theorem trans {s s' s'' : ServerState} (h : Aside s s') (h' : Aside s' s'') : Aside s s'' :=
  ⟨h.toOnward.trans h'.toOnward, h'.pendings.trans h.pendings, h'.surfaces.trans h.surfaces, h'.ops.trans h.ops⟩

end Aside

/-- Arming the idle timer mints its id, and that is all it moves. -/
theorem reconcileIdleTimer_aside (s : ServerState) (id : SessionId) (session : Session) :
    Aside s (reconcileIdleTimer s id session) := by
  unfold reconcileIdleTimer armIdleTimer
  split
  · exact .refl s
  · split
    · split
      -- one is armed already
      · exact .refl s
      · exact ⟨⟨Nat.le_succ _, rfl, rfl⟩, rfl, rfl, rfl⟩
    · exact ⟨⟨Nat.le_refl _, rfl, rfl⟩, rfl, rfl, rfl⟩

theorem reconcileNeedsInput_aside (s : ServerState) (id : SessionId) (prev next : Session) :
    Aside s (reconcileNeedsInput s id prev next) := by
  obtain ⟨eventRelays, out, heq⟩ := reconcileNeedsInput_writes s id prev next
  rw [heq]
  exact ⟨⟨Nat.le_refl _, rfl, rfl⟩, rfl, rfl, rfl⟩

/-- A status applied: the row, then the idle timer, then the nudge; the capture and the question beside them. -/
theorem applied_aside (s : ServerState) (id : SessionId) (session next : Session) (sequence : Option Nat) :
    Aside s (applied s id session next sequence) := by
  obtain ⟨files, heq⟩ := applied_eq s id session next sequence
  have hidle := reconcileIdleTimer_aside { s with sessions := s.sessions.set id next } id next
  have hneeds := reconcileNeedsInput_aside
    (reconcileIdleTimer { s with sessions := s.sessions.set id next } id next) id session next
  rw [heq]
  have hboth := hidle.trans hneeds
  exact { hboth with }

theorem recordStatusSequence_aside (s : ServerState) (r : RecId) (sequence : Option Nat) :
    Aside s (recordStatusSequence s r sequence) := by
  rw [recordStatusSequence_eq]
  exact ⟨⟨Nat.le_refl _, rfl, rfl⟩, rfl, rfl, rfl⟩

/-- An entry is folded into the row if it reports a status, and a question of it kept either way. -/
theorem relayWorkerEvent_aside (s : ServerState) (r : RecId) (id : SessionId) (entry : Json) :
    Aside s (relayWorkerEvent s r id entry) := by
  unfold relayWorkerEvent
  split
  · exact .refl s
  · rename_i payload _
    have hfold : Aside s (foldWorkerStatus s r id payload).1 := by
      generalize hf : foldWorkerStatus s r id payload = folded
      have hc := foldWorkerStatus_cases s r id payload
      rw [hf] at hc
      cases hc with
      | noSession | stale | other => exact .refl s
      | status hs hevent hfresh => exact (recordStatusSequence_aside s r _).trans (applied_aside _ id _ _ _)
    simp only
    split
    · exact hfold
    · rw [bufferInputRequestEnrichment_eq]
      exact { hfold with }

theorem handleWorkerStatus_aside (s : ServerState) (id : SessionId) (body : Json) :
    Aside s (handleWorkerStatus s id body).1 := by
  unfold handleWorkerStatus
  split
  · split
    · exact .refl s
    · rename_i r _
      split
      · exact .refl s
      · simp only
        split
        · exact .refl s
        · split
          · exact .refl s
          · exact (recordStatusSequence_aside s r _).trans (applied_aside _ id _ _ _)
  · exact .refl s

/-- A registration supersedes the session's record; a pending launch of the session is not its business. -/
theorem handleWorkerRegister_aside (s : ServerState) (id : SessionId) : Aside s (handleWorkerRegister s id).1 := by
  unfold handleWorkerRegister
  split
  · exact .refl s
  · split
    · exact .refl s
    -- the old record's downstream and idle timer go, and the new one takes an id
    · obtain ⟨timers, records, streams, out, heq⟩ := supersede_writes s (s.workerChannels.get id)
      simp only [heq]
      exact ⟨⟨Nat.le_succ _, rfl, rfl⟩, rfl, rfl, rfl⟩

theorem handleWorkerEventsStream_aside (s : ServerState) (id : SessionId) :
    Aside s (handleWorkerEventsStream s id).1 := by
  unfold handleWorkerEventsStream
  split
  · exact .refl s
  · split
    · exact .refl s
    -- two ids: the response's and its interval's
    · exact ⟨⟨Nat.le_succ_of_le (Nat.le_succ _), rfl, rfl⟩, rfl, rfl, rfl⟩

theorem closeWorkerStream_aside (s : ServerState) (res : Res) : Aside s (closeWorkerStream s res) := by
  unfold closeWorkerStream
  split
  · exact .refl s
  · simp only
    split
    -- the record still names the stream, so its eviction is armed
    · exact ⟨⟨Nat.le_succ _, rfl, rfl⟩, rfl, rfl, rfl⟩
    · exact ⟨⟨Nat.le_refl _, rfl, rfl⟩, rfl, rfl, rfl⟩

theorem writeClientEventFrame_aside (s : ServerState) (r : RecId) (payload : ClientPayload) :
    Aside s (writeClientEventFrame s r payload) := by
  unfold writeClientEventFrame
  split
  · exact .refl s
  · exact ⟨⟨Nat.le_refl _, rfl, rfl⟩, rfl, rfl, rfl⟩

theorem writeLivenessFrame_aside (s : ServerState) (r : RecId) (res : Res) :
    Aside s (writeLivenessFrame s r res) := by
  unfold writeLivenessFrame
  split
  · exact .refl s
  · exact writeClientEventFrame_aside s r _

/-- What is pushed to a worker ends its idleness and is written as a frame. -/
theorem pushClientEvent_aside {s s' : ServerState} {id : SessionId} {payload : ClientPayload}
    (h : pushClientEvent s id payload = some s') : Aside s s' := by
  unfold pushClientEvent at h
  split at h
  · cases h
  · rename_i r _
    split at h
    · cases h
    · cases h
      have hclear : Aside s (clearIdleTimer s r) := ⟨⟨Nat.le_refl _, rfl, rfl⟩, rfl, rfl, rfl⟩
      exact hclear.trans (writeClientEventFrame_aside _ r payload)

/-- A command takes an id whether it gets to the worker or not; an answer that did is struck from the questions. -/
theorem handleUiCommand_aside (s : ServerState) (id : SessionId) (body : Option Json) :
    Aside s (handleUiCommand s id body).1 := by
  have hmint : Aside s { s with next := s.next + 1 } := ⟨⟨Nat.le_succ _, rfl, rfl⟩, rfl, rfl, rfl⟩
  unfold handleUiCommand
  split
  · exact .refl s
  · split
    · split
      · exact .refl s
      · rename_i command _ _ _
        simp only
        split
        · exact .refl s
        · rename_i relayed hrel
          have hok : Aside s relayed := by
            unfold relayCommand at hrel
            split at hrel
            · cases hrel
              exact hmint
            · exact hmint.trans (pushClientEvent_aside hrel)
          simp only
          split
          · exact { hok with }
          · exact hok
    · exact .refl s

theorem closeSession_aside (s : ServerState) (id : SessionId) : Aside s (closeSession s id).1 := by
  obtain ⟨_, _, _, _, _, heq⟩ := closeSession_writes s id
  rw [heq]
  exact ⟨⟨Nat.le_refl _, rfl, rfl⟩, rfl, rfl, rfl⟩

theorem reapWorkerChannel_aside (s : ServerState) (id : SessionId) : Aside s (reapWorkerChannel s id) := by
  unfold reapWorkerChannel
  split
  · exact .refl s
  · exact ⟨⟨Nat.le_refl _, rfl, rfl⟩, rfl, rfl, rfl⟩

/-- The end of a stop takes the pending launch and the terminal, so it is not aside. -/
theorem concludeStop_onward (s : ServerState) (id : SessionId) (outcome : String) :
    Onward s (concludeStop s id outcome).1 := by
  rw [concludeStop_fst]
  obtain ⟨timers, pendingLaunches, heq⟩ :=
    consumePendingLaunch_writes { s with launchedSurfaces := s.launchedSurfaces.erase id } id
  rw [heq]
  have hwrites : Onward s { s with launchedSurfaces := s.launchedSurfaces.erase id, timers, pendingLaunches } :=
    ⟨Nat.le_refl _, rfl, rfl⟩
  exact hwrites.trans ((reapWorkerChannel_aside _ id).trans (closeSession_aside _ id)).toOnward

/-- An eviction that falls due keeps its session, evicts it, or is armed again. -/
theorem considerEviction_aside (s : ServerState) (id : SessionId) (r : RecId) :
    Aside s (considerEviction s id r) := by
  have hspent : Aside s (s.modifyRecord r fun record => { record with evictionTimer := none }) :=
    ⟨⟨Nat.le_refl _, rfl, rfl⟩, rfl, rfl, rfl⟩
  unfold considerEviction
  simp only
  split
  · exact hspent
  · split
    · exact hspent
    · split
      · exact hspent
      -- silent for the grace period, or heard of since the timer was armed
      · split
        · exact hspent.trans ((closeSession_aside _ id).trans (reapWorkerChannel_aside _ id))
        · exact hspent.trans ⟨⟨Nat.le_succ _, rfl, rfl⟩, rfl, rfl, rfl⟩

theorem fireIdleEvent_aside (s : ServerState) (id : SessionId) (r : RecId) : Aside s (fireIdleEvent s id r) := by
  unfold fireIdleEvent
  simp only
  split
  · exact ⟨⟨Nat.le_refl _, rfl, rfl⟩, rfl, rfl, rfl⟩
  · split
    · exact ⟨⟨Nat.le_refl _, rfl, rfl⟩, rfl, rfl, rfl⟩
    · split
      · exact ⟨⟨Nat.le_refl _, rfl, rfl⟩, rfl, rfl, rfl⟩
      · split <;> exact ⟨⟨Nat.le_refl _, rfl, rfl⟩, rfl, rfl, rfl⟩

/-- A launch nobody registered from: its record goes, and a reading of its terminal is parked. -/
theorem evictPendingLaunch_onward (s : ServerState) (id : SessionId) : Onward s (evictPendingLaunch s id) := by
  rcases evictPendingLaunch_writes s id with heq | ⟨ops, next, hle, heq⟩
  · rw [heq]
    exact .refl s
  · obtain ⟨_, _, hwrites⟩ := consumePendingLaunch_writes s id
    rw [hwrites] at hle heq
    rw [heq]
    exact ⟨hle, rfl, rfl⟩

/-- A timer that fires: an interval is set again, a timeout is spent, and the callback runs. -/
theorem fire_onward (s : ServerState) (t : TimerId) : Onward s (fire s t) := by
  have hclear : Onward s (s.clearTimeout (some t)) := ⟨Nat.le_refl _, rfl, rfl⟩
  unfold fire
  split
  · exact .refl s
  · split
    · exact .refl s
    -- by the callback, the interval's first
    · split
      · have hset : ∀ timers, Onward s { s with timers } := fun _ => ⟨Nat.le_refl _, rfl, rfl⟩
        exact (hset _).trans (writeLivenessFrame_aside _ _ _).toOnward
      · exact hclear.trans (evictPendingLaunch_onward _ _)
      · exact hclear.trans (considerEviction_aside _ _ _).toOnward
      · exact hclear.trans (fireIdleEvent_aside _ _ _).toOnward

/-- A launch that opened mints the session's id. -/
theorem launchOpened_onward (s : ServerState) (op : OpId) (options : SessionLaunchOptions)
    (hookInstall : Option HookInstall) (attachable : Bool) (hint : String) :
    Onward { s with next := s.next + 1 } (launchOpened s op options hookInstall attachable hint).1 := by
  rw [launchOpened_eq]
  exact ⟨Nat.le_succ _, rfl, rfl⟩

theorem handleSessionCreate_onward (s : ServerState) (cwd : Path) (mode : PermissionMode) :
    Onward { s with next := s.next + 1 } (handleSessionCreate s cwd mode).1 := by
  obtain ⟨_, _, _, _, _, heq⟩ := claimPendingLaunch_writes s cwd mode
  unfold handleSessionCreate
  simp only [heq]
  exact ⟨Nat.le_refl _, rfl, rfl⟩

/-- The events a launch, a registration or a stop is made of, and the timers. -/
def Event.launches : Event → Bool
  | .launchSession _ _ | .launchOpened _ _ _ | .launchFailed _ _ _ | .sessionCreate _ _ _ | .stopSession _ _
  | .livenessSettled _ _ | .closeSettled _ _ | .fire _ | .shutdown => true
  | _ => false

/-- What a worker or a browser sends, time passing and the disk leave the launches aside. -/
theorem aside_step (s : ServerState) {e : Event} (he : e.launches = false) : Aside s (step s e) := by
  cases e with
  | launchSession _ _ | launchOpened _ _ _ | launchFailed _ _ _ | sessionCreate _ _ _ | stopSession _ _
  | livenessSettled _ _ | closeSettled _ _ | fire _ | shutdown => cases he
  | advance ms => exact ⟨⟨Nat.le_refl _, rfl, rfl⟩, rfl, rfl, rfl⟩
  | changeDisk fs => exact ⟨⟨Nat.le_refl _, rfl, rfl⟩, rfl, rfl, rfl⟩
  | writeHookFile path entry => cases entry <;> exact ⟨⟨Nat.le_refl _, rfl, rfl⟩, rfl, rfl, rfl⟩
  | workerRegister id => exact handleWorkerRegister_aside s id
  | workerEventsStream id => exact handleWorkerEventsStream_aside s id
  | workerStreamClosed res => exact closeWorkerStream_aside s res
  | workerEvent id workerEpoch entry =>
    simp only [step, turn, handleWorkerEvent]
    split
    · exact .refl s
    · exact relayWorkerEvent_aside s _ id entry
  | workerStatus id body => exact handleWorkerStatus_aside s id body
  | workerHeartbeat id =>
    simp only [step, turn, handleWorkerHeartbeat]
    split
    · exact .refl s
    · split
      · exact .refl s
      · exact ⟨⟨Nat.le_refl _, rfl, rfl⟩, rfl, rfl, rfl⟩
  | uiEventStream id lastEventId =>
    simp only [step, turn, handleEventStream]
    split
    · exact ⟨⟨Nat.le_succ _, rfl, rfl⟩, rfl, rfl, rfl⟩
    · exact .refl s
  | uiStreamClosed id res => exact ⟨⟨Nat.le_refl _, rfl, rfl⟩, rfl, rfl, rfl⟩
  | uiCommand id body => exact handleUiCommand_aside s id body
  | injectTurn id prompt =>
    simp only [step, turn]
    cases hp : injectUserTurn s id prompt with
    | none => exact .refl s
    | some s' => exact pushClientEvent_aside hp

/-- Every turn but a shutdown goes on. Those that touch launches are looked at one by one; the others are aside. -/
theorem onward_step (s : ServerState) (e : Event) (hns : e ≠ .shutdown) : Onward s (step s e) := by
  have hmint : Onward s { s with next := s.next + 1 } := ⟨Nat.le_succ _, rfl, rfl⟩
  cases e with
  | launchSession options hookOk =>
    rcases launchSession_cases s options hookOk with ⟨_, _, _, heq⟩ | ⟨_, _, _, _, heq, hnext, -⟩
    · simp only [step, turn, heq]
      exact .refl s
    · simp only [step, turn, heq]
      exact ⟨Nat.le_of_lt hnext, rfl, rfl⟩
  | launchOpened op attachable hint =>
    simp only [step, turn, launchSettled]
    split
    · exact hmint.trans (launchOpened_onward s _ _ _ _ _)
    · exact .refl s
  | launchFailed op code message =>
    simp only [step, turn, launchSettled]
    split
    · rw [launchFailed_eq]
      exact ⟨Nat.le_refl _, rfl, rfl⟩
    · exact .refl s
  | sessionCreate terminal cwd mode => exact hmint.trans (handleSessionCreate_onward s cwd mode)
  | stopSession id force =>
    rcases stopSession_cases s id force with ⟨_, _, _, heq⟩ | ⟨_, -, -, heq⟩
    · simp only [step, turn, heq]
      exact .refl s
    · simp only [step, turn, heq]
      exact ⟨Nat.le_succ _, rfl, rfl⟩
  | livenessSettled op reading =>
    have hfinish : Onward s (s.finish op) := ⟨Nat.le_refl _, rfl, rfl⟩
    simp only [step, turn, livenessSettled]
    -- by the call that awaited the reading
    split
    · unfold evictRead
      split <;> exact ⟨Nat.le_refl _, rfl, rfl⟩
    · unfold stopRead
      simp only
      split
      · exact hfinish
      · exact hfinish.trans (concludeStop_onward _ _ _)
      · exact ⟨Nat.le_refl _, rfl, rfl⟩
    · unfold stopConfirmed
      split
      · exact hfinish
      · exact hfinish.trans (concludeStop_onward _ _ _)
    · unfold releaseRead
      split <;> exact ⟨Nat.le_refl _, rfl, rfl⟩
    · exact .refl s
  | closeSettled op fulfilled =>
    simp only [step, turn, closeSettled]
    split
    · exact ⟨Nat.le_refl _, rfl, rfl⟩
    · unfold stopClosed
      split <;> exact ⟨Nat.le_refl _, rfl, rfl⟩
    · exact ⟨Nat.le_refl _, rfl, rfl⟩
    · exact .refl s
  | fire t => exact fire_onward s t
  | shutdown => exact absurd rfl hns
  | advance _ | changeDisk _ | writeHookFile _ _ | workerRegister _ | workerEventsStream _ | workerStreamClosed _
  | workerEvent _ _ _ | workerStatus _ _ | workerHeartbeat _ | uiEventStream _ _ | uiStreamClosed _ _ | uiCommand _ _
  | injectTurn _ _ => exact (aside_step s rfl).toOnward

end Ccctl.Server
