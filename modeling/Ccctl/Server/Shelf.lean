import Ccctl.Server.Moves
/-
  Ccctl.Server.Shelf — what a turn leaves where a launch put it: the reservations, the hook installs
  and the captures standing at their handoff paths.

  Three kinds of turn put something there: a launch that begins, a launch that settles, and a hook that
  writes its file. Every other turn leaves the reservations as they are, and only takes from the
  rest (`shelved_step`).
-/

namespace Ccctl.Server

open Ccctl.Core Ccctl.Lib ServerState

/-- Nothing was put on the shelf, and no reservation taken off it. -/
structure Shelved (s s' : ServerState) : Prop where
  reserved : s'.launchReservations = s.launchReservations
  installs : ∀ id install, s'.hookInstalls.get id = some install → s.hookInstalls.get id = some install
  captures : ∀ path entry, s'.files.get path = some entry → s.files.get path = some entry

namespace Shelved

variable {s s' s'' : ServerState}

/-- A turn that writes none of the three. -/
theorem of_eq (hr : s'.launchReservations = s.launchReservations) (hi : s'.hookInstalls = s.hookInstalls)
    (hf : s'.files = s.files) : Shelved s s' where
  reserved := hr
  installs _ _ h := hi ▸ h
  captures _ _ h := hf ▸ h

theorem refl (s : ServerState) : Shelved s s := .of_eq rfl rfl rfl

theorem trans (h : Shelved s s') (h' : Shelved s' s'') : Shelved s s'' where
  reserved := h'.reserved.trans h.reserved
  installs id install hi := h.installs id install (h'.installs id install hi)
  captures path entry hf := h.captures path entry (h'.captures path entry hf)

/-- A file that goes. -/
theorem unlink (s : ServerState) (path : HookFile) : Shelved s (unlinkQuietly s path) where
  reserved := rfl
  installs _ _ h := h
  captures _ _ h := unlinked_get h

end Shelved

section Handlers

variable {s : ServerState}

theorem reconcileIdleTimer_shelved (s : ServerState) (id : SessionId) (session : Session) :
    Shelved s (reconcileIdleTimer s id session) := by
  obtain ⟨_, _, _, heq⟩ := reconcileIdleTimer_writes s id session
  rw [heq]
  exact .of_eq rfl rfl rfl

theorem reconcileNeedsInput_shelved (s : ServerState) (id : SessionId) (prev next : Session) :
    Shelved s (reconcileNeedsInput s id prev next) := by
  obtain ⟨_, _, heq⟩ := reconcileNeedsInput_writes s id prev next
  rw [heq]
  exact .of_eq rfl rfl rfl

/-- A capture that is read goes, where the disk lets it; one that is not stays as it was. -/
theorem consumeHookHandoffQuestions_shelved (s : ServerState) (path : HookFile) :
    Shelved s (consumeHookHandoffQuestions s path).1 := by
  rw [consumeHookHandoffQuestions_eq]
  exact ⟨rfl, fun _ _ h => h, fun _ _ h => consumed_get h⟩

theorem reconcileHookHandoff_shelved (s : ServerState) (id : SessionId) (prior next : Session) (sequence : Option Nat) :
    Shelved s (reconcileHookHandoff s id prior next sequence) := by
  unfold reconcileHookHandoff
  split
  -- in the block already, or not in it now
  · exact .refl s
  · split
    · rename_i install _
      have hconsume := consumeHookHandoffQuestions_shelved s install.handoffPath
      split
      · rename_i consumed heq
        rw [heq] at hconsume
        exact hconsume
      · rename_i consumed questions heq
        rw [heq] at hconsume
        rw [bufferInputRequestEnrichment_eq]
        exact hconsume.trans (.of_eq rfl rfl rfl)
    · exact .refl s

theorem reconcileEnrichmentBuffer_shelved (s : ServerState) (id : SessionId) (next : Session) :
    Shelved s (reconcileEnrichmentBuffer s id next) := by
  rw [reconcileEnrichmentBuffer_eq]
  exact .of_eq rfl rfl rfl

/-- The legs of a status in the order they run; only the last looks at a file. -/
theorem applied_shelved (s : ServerState) (id : SessionId) (session next : Session) (sequence : Option Nat) :
    Shelved s (applied s id session next sequence) := by
  have hstored : Shelved s { s with sessions := s.sessions.set id next } := .of_eq rfl rfl rfl
  have hidle := hstored.trans (reconcileIdleTimer_shelved _ id next)
  have hneeds := hidle.trans (reconcileNeedsInput_shelved _ id session next)
  have hbuffer := hneeds.trans (reconcileEnrichmentBuffer_shelved _ id next)
  exact hbuffer.trans (reconcileHookHandoff_shelved _ id session next sequence)

theorem recordStatusSequence_shelved (s : ServerState) (r : RecId) (sequence : Option Nat) :
    Shelved s (recordStatusSequence s r sequence) := by
  rw [recordStatusSequence_eq]
  exact .of_eq rfl rfl rfl

theorem relayWorkerEvent_shelved (s : ServerState) (r : RecId) (id : SessionId) (entry : Json) :
    Shelved s (relayWorkerEvent s r id entry) := by
  unfold relayWorkerEvent
  split
  · exact .refl s
  · rename_i payload _
    have hfold : Shelved s (foldWorkerStatus s r id payload).1 := by
      generalize hf : foldWorkerStatus s r id payload = folded
      have hc := foldWorkerStatus_cases s r id payload
      rw [hf] at hc
      cases hc with
      | noSession | stale | other => exact .refl s
      | status hs hevent hfresh => exact (recordStatusSequence_shelved s r _).trans (applied_shelved _ id _ _ _)
    simp only
    split
    · exact hfold
    · rw [bufferInputRequestEnrichment_eq]
      exact hfold.trans (.of_eq rfl rfl rfl)

theorem handleWorkerStatus_shelved (s : ServerState) (id : SessionId) (body : Json) :
    Shelved s (handleWorkerStatus s id body).1 := by
  unfold handleWorkerStatus
  split
  · split
    · exact .refl s
    · rename_i r _
      split
      · exact .refl s
      · simp only
        split
        · exact .refl s
        · split
          · exact .refl s
          · exact (recordStatusSequence_shelved s r _).trans (applied_shelved _ id _ _ _)
  · exact .refl s

theorem handleWorkerRegister_shelved (s : ServerState) (id : SessionId) :
    Shelved s (handleWorkerRegister s id).1 := by
  unfold handleWorkerRegister
  split
  · exact .refl s
  · split
    · exact .refl s
    · obtain ⟨_, _, _, _, heq⟩ := supersede_writes s (s.workerChannels.get id)
      simp only [heq]
      exact .of_eq rfl rfl rfl

theorem handleWorkerEventsStream_shelved (s : ServerState) (id : SessionId) :
    Shelved s (handleWorkerEventsStream s id).1 := by
  unfold handleWorkerEventsStream
  split
  · exact .refl s
  · split
    · exact .refl s
    · exact .of_eq rfl rfl rfl

theorem closeWorkerStream_shelved (s : ServerState) (res : Res) : Shelved s (closeWorkerStream s res) := by
  unfold closeWorkerStream
  split
  · exact .refl s
  · simp only
    split <;> exact .of_eq rfl rfl rfl

theorem handleWorkerHeartbeat_shelved (s : ServerState) (id : SessionId) :
    Shelved s (handleWorkerHeartbeat s id).1 := by
  unfold handleWorkerHeartbeat
  split
  · exact .refl s
  · split
    · exact .refl s
    · exact .of_eq rfl rfl rfl

theorem writeClientEventFrame_shelved (s : ServerState) (r : RecId) (payload : ClientPayload) :
    Shelved s (writeClientEventFrame s r payload) := by
  unfold writeClientEventFrame
  split
  · exact .refl s
  · exact .of_eq rfl rfl rfl

theorem writeLivenessFrame_shelved (s : ServerState) (r : RecId) (res : Res) :
    Shelved s (writeLivenessFrame s r res) := by
  unfold writeLivenessFrame
  split
  · exact .refl s
  · exact writeClientEventFrame_shelved s r _

theorem pushClientEvent_shelved {s' : ServerState} {id : SessionId} {payload : ClientPayload}
    (h : pushClientEvent s id payload = some s') : Shelved s s' := by
  unfold pushClientEvent at h
  split at h
  · cases h
  · rename_i r _
    split at h
    · cases h
    · cases h
      have hclear : Shelved s (clearIdleTimer s r) := .of_eq rfl rfl rfl
      exact hclear.trans (writeClientEventFrame_shelved _ r payload)

theorem handleUiCommand_shelved (s : ServerState) (id : SessionId) (body : Option Json) :
    Shelved s (handleUiCommand s id body).1 := by
  have hmint : Shelved s { s with next := s.next + 1 } := .of_eq rfl rfl rfl
  generalize hh : handleUiCommand s id body = handled
  have hc := handleUiCommand_cases s id body
  rw [hh] at hc
  cases hc with
  | refused reply _ => exact .refl s
  | relayed _ _ hpush =>
    have hpushed := hmint.trans (pushClientEvent_shelved hpush)
    simp only
    split
    · exact hpushed.trans (.of_eq rfl rfl rfl)
    · exact hpushed

theorem consumePendingLaunch_shelved (s : ServerState) (id : SessionId) :
    Shelved s (consumePendingLaunch s id).1 := by
  obtain ⟨_, _, heq⟩ := consumePendingLaunch_writes s id
  rw [heq]
  exact .of_eq rfl rfl rfl

/-- Both files of an install, the settings first. -/
theorem cleanupHookInstall_shelved (s : ServerState) (install : HookInstall) :
    Shelved s (cleanupHookInstall s install) :=
  (Shelved.unlink s install.settingsPath).trans (.unlink (unlinkQuietly s install.settingsPath) install.handoffPath)

theorem retireHookInstall_shelved (s : ServerState) (id : SessionId) : Shelved s (retireHookInstall s id) := by
  unfold retireHookInstall
  split
  · exact .refl s
  · rename_i install _
    refine (cleanupHookInstall_shelved s install).trans ⟨rfl, ?_, fun _ _ h => h⟩
    intro other install' h
    exact (OrdMap.get_erase_of_some h).2

/-- A session's end takes its hook install off the shelf. -/
theorem closeSession_shelved (s : ServerState) (id : SessionId) : Shelved s (closeSession s id).1 := by
  unfold closeSession
  split
  · exact .refl s
  · refine Shelved.trans ?_ (retireHookInstall_shelved _ id)
    exact .of_eq rfl rfl rfl

theorem reapWorkerChannel_shelved (s : ServerState) (id : SessionId) : Shelved s (reapWorkerChannel s id) := by
  unfold reapWorkerChannel
  split
  · exact .refl s
  · exact .of_eq rfl rfl rfl

theorem concludeStop_shelved (s : ServerState) (id : SessionId) (outcome : String) :
    Shelved s (concludeStop s id outcome).1 := by
  have herased : Shelved s { s with launchedSurfaces := s.launchedSurfaces.erase id } := .of_eq rfl rfl rfl
  have hconsumed := herased.trans (consumePendingLaunch_shelved _ id)
  rw [concludeStop_fst]
  exact hconsumed.trans ((reapWorkerChannel_shelved _ id).trans (closeSession_shelved _ id))

theorem considerEviction_shelved (s : ServerState) (id : SessionId) (r : RecId) :
    Shelved s (considerEviction s id r) := by
  have hspent : Shelved s (s.modifyRecord r fun record => { record with evictionTimer := none }) := .of_eq rfl rfl rfl
  unfold considerEviction
  simp only
  split
  · exact hspent
  · split
    · exact hspent
    · split
      · exact hspent
      · split
        · exact hspent.trans ((closeSession_shelved _ id).trans (reapWorkerChannel_shelved _ id))
        · exact hspent.trans (.of_eq rfl rfl rfl)

theorem fireIdleEvent_shelved (s : ServerState) (id : SessionId) (r : RecId) : Shelved s (fireIdleEvent s id r) := by
  unfold fireIdleEvent
  simp only
  split
  · exact .of_eq rfl rfl rfl
  · split
    · exact .of_eq rfl rfl rfl
    · split
      · exact .of_eq rfl rfl rfl
      · split <;> exact .of_eq rfl rfl rfl

/-- A launch that is given up keeps its install: the placeholder's drop does not look at it. -/
theorem evictPendingLaunch_shelved (s : ServerState) (id : SessionId) : Shelved s (evictPendingLaunch s id) := by
  have hdrop : Shelved s (dropPlaceholder (consumePendingLaunch s id).1 id) :=
    (consumePendingLaunch_shelved s id).trans (.of_eq rfl rfl rfl)
  rcases evictPendingLaunch_writes s id with heq | ⟨_, _, -, heq⟩
  · rw [heq]
    exact .refl s
  · rw [heq]
    exact hdrop.trans (.of_eq rfl rfl rfl)

/-- Whatever the callback: the timer itself is not on the shelf. -/
theorem fire_shelved (s : ServerState) (t : TimerId) : Shelved s (fire s t) := by
  have hclear : Shelved s (s.clearTimeout (some t)) := .of_eq rfl rfl rfl
  unfold fire
  split
  · exact .refl s
  · split
    · exact .refl s
    · split
      · have hset : ∀ timers, Shelved s { s with timers } := fun _ => .of_eq rfl rfl rfl
        exact (hset _).trans (writeLivenessFrame_shelved _ _ _)
      · exact hclear.trans (evictPendingLaunch_shelved _ _)
      · exact hclear.trans (considerEviction_shelved _ _ _)
      · exact hclear.trans (fireIdleEvent_shelved _ _ _)

theorem livenessSettled_shelved (s : ServerState) (op : OpId) (reading : Reading) :
    Shelved s (livenessSettled s op reading).1 := by
  have hfinish : Shelved s (s.finish op) := .of_eq rfl rfl rfl
  unfold livenessSettled
  -- by the call that awaited the reading; a stop's last one may end the session
  split
  · unfold evictRead
    split <;> exact .of_eq rfl rfl rfl
  · unfold stopRead
    simp only
    split
    · exact hfinish
    · exact hfinish.trans (concludeStop_shelved _ _ _)
    · exact .of_eq rfl rfl rfl
  · unfold stopConfirmed
    split
    · exact hfinish
    · exact hfinish.trans (concludeStop_shelved _ _ _)
  · unfold releaseRead
    split <;> exact .of_eq rfl rfl rfl
  · exact .refl s

theorem closeSettled_shelved (s : ServerState) (op : OpId) (fulfilled : Bool) :
    Shelved s (closeSettled s op fulfilled).1 := by
  unfold closeSettled
  split
  · exact .of_eq rfl rfl rfl
  · unfold stopClosed
    split <;> exact .of_eq rfl rfl rfl
  · exact .of_eq rfl rfl rfl
  · exact .refl s

/-- A registration may claim a pending launch, and leaves its install to the session. -/
theorem handleSessionCreate_shelved (s : ServerState) (cwd : Path) (mode : PermissionMode) :
    Shelved s (handleSessionCreate s cwd mode).1 := by
  obtain ⟨_, _, _, _, _, heq⟩ := claimPendingLaunch_writes s cwd mode
  unfold handleSessionCreate
  simp only [heq]
  exact .of_eq rfl rfl rfl

end Handlers

/-- The events that put something on the shelf, or take a reservation off it. -/
def Event.shelves : Event → Bool
  | .launchSession _ _ | .launchOpened _ _ _ | .launchFailed _ _ _ | .writeHookFile _ _ => true
  | _ => false

/-- Every turn that is none of these leaves the reservations, and at most takes installs and captures. -/
theorem shelved_step (s : ServerState) {e : Event} (he : e.shelves = false) : Shelved s (step s e) := by
  cases e with
  | launchSession _ _ | launchOpened _ _ _ | launchFailed _ _ _ | writeHookFile _ _ => cases he
  | advance _ | changeDisk _ | uiStreamClosed _ _ => exact .of_eq rfl rfl rfl
  | sessionCreate terminal cwd mode => exact handleSessionCreate_shelved s cwd mode
  | stopSession id force =>
    rcases stopSession_cases s id force with ⟨_, _, _, heq⟩ | ⟨_, -, -, heq⟩
    · simp only [step, turn, heq]
      exact .refl s
    · simp only [step, turn, heq]
      exact .of_eq rfl rfl rfl
  | livenessSettled op reading => exact livenessSettled_shelved s op reading
  | closeSettled op fulfilled => exact closeSettled_shelved s op fulfilled
  | fire t => exact fire_shelved s t
  | workerRegister id => exact handleWorkerRegister_shelved s id
  | workerEventsStream id => exact handleWorkerEventsStream_shelved s id
  | workerStreamClosed res => exact closeWorkerStream_shelved s res
  | workerEvent id workerEpoch entry =>
    simp only [step, turn, handleWorkerEvent]
    split
    · exact .refl s
    · exact relayWorkerEvent_shelved s _ id entry
  | workerStatus id body => exact handleWorkerStatus_shelved s id body
  | workerHeartbeat id => exact handleWorkerHeartbeat_shelved s id
  | uiEventStream id lastEventId =>
    simp only [step, turn, handleEventStream]
    split
    · exact .of_eq rfl rfl rfl
    · exact .refl s
  | uiCommand id body => exact handleUiCommand_shelved s id body
  | injectTurn id prompt =>
    simp only [step, turn]
    cases hp : injectUserTurn s id prompt with
    | none => exact .refl s
    | some s' => exact pushClientEvent_shelved hp
  | shutdown =>
    obtain ⟨_, _, _, _, _, _, heq, -⟩ := shutdown_eq s
    show Shelved s (shutdown s)
    rw [heq]
    exact .of_eq rfl rfl rfl

end Ccctl.Server
