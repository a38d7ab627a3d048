import Ccctl.Server.Relay
/-
  Ccctl.Server.Relayed — the server drives its relays by their own calls alone.

  Every turn is a run of the relay's machine (`relayed_step`): what a handler does to the relays is
  a broadcast, a subscription, a departure or a close, and the rest of the turn stands beside them.
  So the law of the relay holds in every state a server gets to (`Reachable.relays`).
-/

namespace Ccctl.Server

open Ccctl.Core Ccctl.Lib ServerState

/-- The relay's calls, and turns beside them, lead from `s` to `s'`. -/
def Relayed (s s' : ServerState) : Prop :=
  ∃ es, allowed relayStep relayAllowed s es ∧ runFrom relayStep s es = s'

namespace Relayed

variable {s s' s'' : ServerState}

theorem refl (s : ServerState) : Relayed s s := ⟨[], trivial, rfl⟩

theorem call (s : ServerState) (e : RelayEvent) (he : relayAllowed s e) : Relayed s (relayStep s e) :=
  ⟨[e], ⟨he, trivial⟩, rfl⟩

theorem beside (h : BesideRelays s s') : Relayed s s' := call s (.elsewhere s') h

theorem trans (h : Relayed s s') (h' : Relayed s' s'') : Relayed s s'' := by
  obtain ⟨es, hes, rfl⟩ := h
  obtain ⟨es', hes', rfl⟩ := h'
  exact ⟨es ++ es', allowed_append hes hes', runFrom_append es es'⟩

/-- A turn that leaves the relays alone and says nothing on them. -/
theorem quiet {kinds : List OutKind} (h : Speaks kinds s s') (hk : kinds ⊆ [.frame, .ended, .close, .work])
    (hrelays : s'.eventRelays = s.eventRelays) (hnext : s.next ≤ s'.next) : Relayed s s' :=
  beside ⟨hrelays, hnext, h.mono hk⟩

/-- Neither the relays nor what left the server: whatever else a turn writes. -/
theorem silent (hrelays : s'.eventRelays = s.eventRelays) (hout : s'.out = s.out) (hnext : s.next ≤ s'.next) :
    Relayed s s' := by
  have hsaid : Speaks [] s s' := .silent hout
  exact quiet hsaid (by simp) hrelays hnext

end Relayed

/-- A run of the relay goes on along its calls, watched. -/
theorem RelayRun.along {s : ServerState} {w : Streams} (h : RelayRun (s, w)) {es : List RelayEvent}
    (hes : allowed relayStep relayAllowed s es) : ∃ w', RelayRun (runFrom relayStep s es, w') := by
  induction es generalizing s w with
  | nil => exact ⟨w, h⟩
  | cons e es ih => exact ih (.step e h hes.1) hes.2

/-! ## The handlers that relay -/

theorem broadcastEvent_relayed (s : ServerState) (id : SessionId) (payload : Payload) :
    Relayed s (broadcastEvent s id payload) := .call s (.broadcast id payload) trivial

theorem retireHookInstall_relayed (s : ServerState) (id : SessionId) : Relayed s (retireHookInstall s id) := by
  obtain ⟨files, heq, -⟩ := retireHookInstall_eq s id
  rw [heq]
  exact .silent rfl rfl (Nat.le_refl _)

/-- A session's end broadcasts once and then closes the relay. -/
theorem closeSession_relayed (s : ServerState) (id : SessionId) : Relayed s (closeSession s id).1 := by
  cases hs : s.sessions.get id with
  | none =>
    have hsame : (closeSession s id).1 = s := by simp [closeSession, hs]
    rw [hsame]
    exact .refl s
  | some session =>
    simp only [closeSession, hs]
    have hrow : Relayed s { s with sessions := s.sessions.erase id } := .silent rfl rfl (Nat.le_refl _)
    refine (hrow.trans (broadcastEvent_relayed _ id (.closed id (markSessionClosed session).status))).trans ?_
    refine (Relayed.call _ (.close id) trivial).trans ?_
    refine Relayed.trans ?_ (retireHookInstall_relayed _ id)
    exact .silent rfl rfl (Nat.le_refl _)

theorem reconcileNeedsInput_relayed (s : ServerState) (id : SessionId) (prev next : Session) :
    Relayed s (reconcileNeedsInput s id prev next) := by
  unfold reconcileNeedsInput
  split
  · exact .refl s
  · split
    · split
      · exact .refl s
      · exact broadcastEvent_relayed s id _
    · exact .refl s

theorem reconcileIdleTimer_relayed (s : ServerState) (id : SessionId) (session : Session) :
    Relayed s (reconcileIdleTimer s id session) := by
  have hnext := (reconcileIdleTimer_aside s id session).next
  obtain ⟨timers, records, next, heq⟩ := reconcileIdleTimer_writes s id session
  rw [heq] at hnext ⊢
  exact .silent rfl rfl hnext

/-- The legs of a status in their order; only the alert broadcasts. -/
theorem applied_relayed (s : ServerState) (id : SessionId) (session next : Session) (sequence : Option Nat) :
    Relayed s (applied s id session next sequence) := by
  obtain ⟨files, heq⟩ := applied_eq s id session next sequence
  have hrow : Relayed s { s with sessions := s.sessions.set id next } := .silent rfl rfl (Nat.le_refl _)
  have hidle := reconcileIdleTimer_relayed { s with sessions := s.sessions.set id next } id next
  rw [heq]
  refine ((hrow.trans hidle).trans (reconcileNeedsInput_relayed _ id session next)).trans ?_
  exact .silent rfl rfl (Nat.le_refl _)

theorem report_relayed (s : ServerState) (r : RecId) (id : SessionId) (session next : Session) (sequence : Option Nat) :
    Relayed s (applied (recordStatusSequence s r sequence) id session next sequence) := by
  have hmark : Relayed s (recordStatusSequence s r sequence) := by
    rw [recordStatusSequence_eq]
    exact .silent rfl rfl (Nat.le_refl _)
  exact hmark.trans (applied_relayed _ id session next sequence)

/-- The entry itself is broadcast after what it folds into. -/
theorem relayWorkerEvent_relayed (s : ServerState) (r : RecId) (id : SessionId) (entry : Json) :
    Relayed s (relayWorkerEvent s r id entry) := by
  unfold relayWorkerEvent
  split
  · exact .refl s
  · rename_i payload _
    have hfold : Relayed s (foldWorkerStatus s r id payload).1 := by
      generalize hf : foldWorkerStatus s r id payload = folded
      have hc := foldWorkerStatus_cases s r id payload
      rw [hf] at hc
      cases hc with
      | noSession | stale | other => exact .refl s
      | status hs hevent hfresh => exact report_relayed s r id _ _ _
    simp only
    split
    · exact hfold
    · rw [bufferInputRequestEnrichment_eq]
      refine (hfold.trans ?_).trans (broadcastEvent_relayed _ id _)
      exact .silent rfl rfl (Nat.le_refl _)

theorem handleWorkerStatus_relayed (s : ServerState) (id : SessionId) (body : Json) :
    Relayed s (handleWorkerStatus s id body).1 := by
  unfold handleWorkerStatus
  split
  · split
    · exact .refl s
    · split
      · exact .refl s
      · simp only
        split
        · exact .refl s
        · split
          · exact .refl s
          · exact report_relayed s _ id _ _ _
  · exact .refl s

theorem reapWorkerChannel_relayed (s : ServerState) (id : SessionId) : Relayed s (reapWorkerChannel s id) := by
  refine .quiet (reapWorkerChannel_speaks s id) (by simp) ?_ (reapWorkerChannel_aside s id).next
  unfold reapWorkerChannel
  split <;> rfl

theorem consumePendingLaunch_relayed (s : ServerState) (id : SessionId) : Relayed s (consumePendingLaunch s id).1 := by
  obtain ⟨timers, pendingLaunches, heq⟩ := consumePendingLaunch_writes s id
  rw [heq]
  exact .silent rfl rfl (Nat.le_refl _)

theorem dropPlaceholder_relayed (s : ServerState) (id : SessionId) : Relayed s (dropPlaceholder s id) := by
  have hrow : Relayed s { s with sessions := s.sessions.erase id } := .silent rfl rfl (Nat.le_refl _)
  exact hrow.trans (.call _ (.close id) trivial)

theorem concludeStop_relayed (s : ServerState) (id : SessionId) (outcome : String) :
    Relayed s (concludeStop s id outcome).1 := by
  rw [concludeStop_fst]
  have hsurface : Relayed s { s with launchedSurfaces := s.launchedSurfaces.erase id } :=
    .silent rfl rfl (Nat.le_refl _)
  refine ((hsurface.trans (consumePendingLaunch_relayed _ id)).trans (reapWorkerChannel_relayed _ id)).trans ?_
  exact closeSession_relayed _ id

theorem considerEviction_relayed (s : ServerState) (id : SessionId) (r : RecId) :
    Relayed s (considerEviction s id r) := by
  have hspent : Relayed s (s.modifyRecord r fun record => { record with evictionTimer := none }) :=
    .silent rfl rfl (Nat.le_refl _)
  unfold considerEviction
  simp only
  split
  · exact hspent
  · split
    · exact hspent
    · split
      · exact hspent
      · split
        · exact (hspent.trans (closeSession_relayed _ id)).trans (reapWorkerChannel_relayed _ id)
        · exact hspent.trans (.silent rfl rfl (Nat.le_succ _))

/-- The nudge, where it is due, is one broadcast. -/
theorem fireIdleEvent_relayed (s : ServerState) (id : SessionId) (r : RecId) :
    Relayed s (fireIdleEvent s id r) := by
  have hspent : Relayed s (s.modifyRecord r fun record => { record with idleTimer := none }) :=
    .silent rfl rfl (Nat.le_refl _)
  unfold fireIdleEvent
  simp only
  split
  · exact hspent
  · split
    · exact hspent
    · split
      · exact hspent
      · split
        · exact hspent
        · exact hspent.trans (broadcastEvent_relayed _ id _)

theorem evictPendingLaunch_relayed (s : ServerState) (id : SessionId) : Relayed s (evictPendingLaunch s id) := by
  have hdrop := (consumePendingLaunch_relayed s id).trans (dropPlaceholder_relayed _ id)
  rcases evictPendingLaunch_writes s id with heq | ⟨_, _, hle, heq⟩
  · rw [heq]
    exact .refl s
  · rw [heq]
    exact hdrop.trans (.silent rfl rfl hle)

theorem writeLivenessFrame_relayed (s : ServerState) (r : RecId) (res : Res) :
    Relayed s (writeLivenessFrame s r res) := by
  refine .quiet (writeLivenessFrame_speaks s r res) (by simp) ?_ (writeLivenessFrame_aside s r res).next
  unfold writeLivenessFrame writeClientEventFrame
  split
  · rfl
  · split <;> rfl

theorem supersede_relays (s : ServerState) (prev : Option RecId) : (supersede s prev).eventRelays = s.eventRelays := by
  cases prev <;> rfl

theorem pushClientEvent_relays {s s' : ServerState} {id : SessionId} {payload : ClientPayload}
    (h : pushClientEvent s id payload = some s') : s'.eventRelays = s.eventRelays := by
  unfold pushClientEvent at h
  split at h
  · cases h
  · split at h
    · cases h
    · cases h
      unfold writeClientEventFrame
      split <;> rfl

/-- Whatever the callback. -/
theorem fire_relayed (s : ServerState) (t : TimerId) : Relayed s (fire s t) := by
  have htimers : ∀ timers, Relayed s { s with timers } := fun _ => .silent rfl rfl (Nat.le_refl _)
  unfold fire
  split
  · exact .refl s
  · split
    · exact .refl s
    · split
      · exact (htimers _).trans (writeLivenessFrame_relayed _ _ _)
      · exact (htimers _).trans (evictPendingLaunch_relayed _ _)
      · exact (htimers _).trans (considerEviction_relayed _ _ _)
      · exact (htimers _).trans (fireIdleEvent_relayed _ _ _)

theorem claimPendingLaunch_relayed (s : ServerState) (cwd : Path) (mode : PermissionMode) :
    Relayed s (claimPendingLaunch s cwd mode).1 := by
  rw [claimPendingLaunch_eq]
  split
  · exact .refl s
  · rename_i claimed _
    have hconsume := consumePendingLaunch_relayed s claimed.sessionId
    split
    · refine (hconsume.trans (dropPlaceholder_relayed _ claimed.sessionId)).trans ?_
      exact .silent rfl rfl (Nat.le_refl _)
    · exact hconsume

/-- Of the operations, only a stop that concludes closes a relay. -/
theorem livenessSettled_relayed (s : ServerState) (op : OpId) (reading : Reading) :
    Relayed s (livenessSettled s op reading).1 := by
  have hclose : ∀ {s' : ServerState} {surface : SurfaceId}, s'.out = s.out ++ [.closeSurface surface op] →
      s'.eventRelays = s.eventRelays → s'.next = s.next → Relayed s s' := fun h hr hn =>
    .quiet (.one (List.mem_singleton_self OutKind.close) h) (by simp) hr (Nat.le_of_eq hn.symm)
  have hfinish : Relayed s (s.finish op) := .silent rfl rfl (Nat.le_refl _)
  have hconclude : ∀ id outcome, Relayed s (concludeStop (s.finish op) id outcome).1 :=
    fun id outcome => hfinish.trans (concludeStop_relayed (s.finish op) id outcome)
  unfold livenessSettled
  split
  · unfold evictRead
    split
    · exact .silent rfl rfl (Nat.le_refl _)
    · exact .silent rfl rfl (Nat.le_refl _)
    · exact hclose rfl rfl rfl
  · unfold stopRead
    simp only
    split
    · exact hfinish
    · exact hconclude _ _
    · exact hclose rfl rfl rfl
  · unfold stopConfirmed
    split
    · exact hfinish
    · exact hconclude _ _
  · unfold releaseRead
    split
    · exact hclose rfl rfl rfl
    · exact hfinish
  · exact .refl s

/-- Every relay is closed; what follows says nothing to a browser. -/
theorem shutdown_relayed (s : ServerState) : Relayed s (shutdown s) := by
  refine (Relayed.call s .closeAll trivial).trans ?_
  obtain ⟨⟨timers, records, streams, held, heq⟩, -⟩ :=
    closeWorkerChannels_fold s.workerChannels.values (closeEventStreams s)
  have hchannels : closeWorkerChannels (closeEventStreams s) =
      { closeEventStreams s with
        timers, records, streams, out := (closeEventStreams s).out ++ List.map .ended held } := heq
  obtain ⟨ops, next, hrel, hle, -⟩ := startRelease_fold s.launchedSurfaces.values
    (clearPendingLaunches
      { closeEventStreams s with
        timers, records, streams, out := (closeEventStreams s).out ++ List.map .ended held })
  have hshut : shutdown s = { (clearPendingLaunches
      { closeEventStreams s with
        timers, records, streams, out := (closeEventStreams s).out ++ List.map .ended held }) with
        ops, next, launchedSurfaces := OrdMap.empty, closed := true } := by
    unfold shutdown releaseLaunchedSessions
    rw [hchannels]
    simp only [show (clearPendingLaunches
      { closeEventStreams s with
        timers, records, streams, out := (closeEventStreams s).out ++ List.map .ended held }).launchedSurfaces =
          s.launchedSurfaces from rfl]
    rw [hrel]
  rw [hshut]
  exact .quiet (ended_speaks held rfl) (by simp) rfl hle

/-! ## Every turn -/

/-- Each turn is a run of the relay's machine. -/
theorem relayed_step (s : ServerState) (e : Event) : Relayed s (step s e) := by
  have hnext := next_le_step s e
  have hspeaks := speaks_step s e
  -- Turns that leave the relays alone, by what they say.
  have hquiet : e.speaks ⊆ [.frame, .ended, .close, .work] → (step s e).eventRelays = s.eventRelays →
      Relayed s (step s e) := fun hk hrelays => .quiet hspeaks hk hrelays hnext
  cases e with
  | advance _ | changeDisk _ => exact hquiet (by simp [Event.speaks]) rfl
  | writeHookFile path entry => exact hquiet (by simp [Event.speaks]) (by cases entry <;> rfl)
  | launchSession options hookOk =>
    refine hquiet (by simp [Event.speaks]) ?_
    rcases launchSession_cases s options hookOk with ⟨_, _, _, heq⟩ | ⟨_, _, _, _, heq, -⟩
    · simp only [step, turn, heq]
    · simp only [step, turn, heq]
  | launchOpened op attachable hint =>
    refine hquiet (by simp [Event.speaks]) ?_
    simp only [step, turn, launchSettled]
    split
    · rw [launchOpened_eq]
    · rfl
  | launchFailed op code message =>
    refine hquiet (by simp [Event.speaks]) ?_
    simp only [step, turn, launchSettled]
    split
    · rw [launchFailed_eq]
    · rfl
  | sessionCreate terminal cwd mode =>
    have hclaim := claimPendingLaunch_relayed s cwd mode
    obtain ⟨_, _, _, _, _, hwrites⟩ := claimPendingLaunch_writes s cwd mode
    have hnext : (claimPendingLaunch s cwd mode).1.next = s.next := by rw [hwrites]
    refine hclaim.trans (.quiet (.one (List.mem_singleton_self OutKind.work) rfl) (by simp) rfl ?_)
    rw [hnext]
    exact Nat.le_succ _
  | stopSession id force =>
    refine hquiet (by simp [Event.speaks]) ?_
    rcases stopSession_cases s id force with ⟨_, _, _, heq⟩ | ⟨_, -, -, heq⟩
    · simp only [step, turn, heq]
    · simp only [step, turn, heq]
  | livenessSettled op reading => exact livenessSettled_relayed s op reading
  | closeSettled op fulfilled =>
    refine hquiet (by simp [Event.speaks]) ?_
    simp only [step, turn, closeSettled]
    split
    · rfl
    · unfold stopClosed
      split <;> rfl
    · rfl
    · rfl
  | fire t => exact fire_relayed s t
  | workerRegister id =>
    refine hquiet (by simp [Event.speaks]) ?_
    simp only [step, turn, handleWorkerRegister]
    split
    · rfl
    · split
      · rfl
      · exact supersede_relays s _
  | workerEventsStream id =>
    refine hquiet (by simp [Event.speaks]) ?_
    simp only [step, turn, handleWorkerEventsStream]
    split
    · rfl
    · split <;> rfl
  | workerStreamClosed res =>
    refine hquiet (by simp [Event.speaks]) ?_
    simp only [step, turn, closeWorkerStream]
    split
    · rfl
    · split <;> rfl
  | workerEvent id workerEpoch entry =>
    simp only [step, turn, handleWorkerEvent]
    split
    · exact .refl s
    · exact relayWorkerEvent_relayed s _ id entry
  | workerStatus id body => exact handleWorkerStatus_relayed s id body
  | workerHeartbeat id =>
    refine hquiet (by simp [Event.speaks]) ?_
    simp only [step, turn, handleWorkerHeartbeat]
    split
    · rfl
    · split <;> rfl
  | uiEventStream id lastEventId => exact .call s (.subscribe id lastEventId) trivial
  | uiStreamClosed id res => exact .call s (.disconnect id res) trivial
  | uiCommand id body =>
    refine hquiet (by simp [Event.speaks]) ?_
    have hc := handleUiCommand_cases s id body
    show (handleUiCommand s id body).1.eventRelays = s.eventRelays
    generalize handleUiCommand s id body = result at hc ⊢
    cases hc with
    | refused reply hne => rfl
    | relayed hparse hok hpush =>
      have hrelays := pushClientEvent_relays hpush
      simp only
      split
      · exact hrelays
      · exact hrelays
  | injectTurn id prompt =>
    refine hquiet (by simp [Event.speaks]) ?_
    simp only [step, turn]
    cases hp : injectUserTurn s id prompt with
    | none => rfl
    | some s' => exact pushClientEvent_relays hp
  | shutdown => exact shutdown_relayed s

/-- So a server's state is one the relay's machine gets to. -/
theorem Reachable.relays {s : ServerState} (h : Reachable s) : ∃ w, RelayRun (s, w) := by
  induction h with
  | start hs =>
    obtain ⟨image, rfl⟩ := hs
    exact ⟨Streams.empty, .start ⟨fun _ => rfl, rfl, rfl⟩⟩
  | @step s e _ _ ih =>
    obtain ⟨w, hw⟩ := ih
    obtain ⟨es, hes, heq⟩ := relayed_step s e
    rw [← heq]
    exact hw.along hes

end Ccctl.Server
