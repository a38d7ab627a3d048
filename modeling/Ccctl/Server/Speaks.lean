import Ccctl.Server.Launches
/-
  Ccctl.Server.Speaks — what kinds of output a turn adds.

  `Speaks kinds s s'`: the turn from `s` to `s'` appends to what left the server, and only outputs of
  `kinds`. One lemma for each handler; from it, that a turn which does not speak a kind leaves the
  outputs of that kind as they were (`Speaks.quiet`). Frames come from commands, injected turns and
  liveness intervals alone (`speaks_step`), and terminals are closed after readings alone.
-/

namespace Ccctl.Server

open Ccctl.Core Ccctl.Lib ServerState

/-- To a browser, to a worker, a response's end, a terminal's close, an item of work. -/
inductive OutKind where
  | relay | frame | ended | close | work
  deriving DecidableEq

def Out.kind : Out → OutKind
  | .broadcast _ _ _ _ => .relay
  | .replay _ _ => .relay
  | .clientEvent _ _ _ => .frame
  | .ended _ => .ended
  | .closeSurface _ _ => .close
  | .enqueueWork _ => .work

/-- The outputs of one kind, in order. -/
def spoken (out : List Out) (k : OutKind) : List Out := out.filter fun o => o.kind = k

/-- What left the server in the turn is of the kinds. -/
def Speaks (kinds : List OutKind) (s s' : ServerState) : Prop :=
  ∃ said, s'.out = s.out ++ said ∧ ∀ o ∈ said, o.kind ∈ kinds

namespace Speaks

variable {kinds kinds' : List OutKind} {s s' s'' : ServerState}

theorem silent (h : s'.out = s.out) : Speaks kinds s s' := ⟨[], by rw [h, List.append_nil], by simp⟩

theorem refl (s : ServerState) : Speaks kinds s s := silent rfl

theorem one {o : Out} (ho : o.kind ∈ kinds) (h : s'.out = s.out ++ [o]) : Speaks kinds s s' :=
  ⟨[o], h, by simpa using ho⟩

theorem trans (h : Speaks kinds s s') (h' : Speaks kinds s' s'') : Speaks kinds s s'' := by
  obtain ⟨said, heq, hk⟩ := h
  obtain ⟨said', heq', hk'⟩ := h'
  refine ⟨said ++ said', ?_, ?_⟩
  · rw [heq', heq, List.append_assoc]
  · intro o ho
    rcases List.mem_append.mp ho with ho | ho
    · exact hk o ho
    · exact hk' o ho

theorem mono (h : Speaks kinds s s') (hsub : kinds ⊆ kinds') : Speaks kinds' s s' := by
  obtain ⟨said, heq, hk⟩ := h
  exact ⟨said, heq, fun o ho => hsub (hk o ho)⟩

/-- Only what was said matters, not how the rest of the state got there. -/
theorem of_out {t t' : ServerState} (h : Speaks kinds s s') (ht : t.out = s.out) (ht' : t'.out = s'.out) :
    Speaks kinds t t' := by
  unfold Speaks
  rw [ht, ht']
  exact h

/-- A kind that is not among them is as it was. -/
theorem quiet (h : Speaks kinds s s') {k : OutKind} (hk : k ∉ kinds) : spoken s'.out k = spoken s.out k := by
  obtain ⟨said, heq, hkinds⟩ := h
  have hnone : spoken said k = [] := by
    refine List.filter_eq_nil_iff.mpr fun o ho hsame => hk ?_
    rw [← of_decide_eq_true hsame]
    exact hkinds o ho
  rw [heq, spoken, List.filter_append]
  show spoken s.out k ++ spoken said k = spoken s.out k
  rw [hnone, List.append_nil]

end Speaks

/-! ## The relay -/

theorem broadcastEvent_speaks (s : ServerState) (id : SessionId) (payload : Payload) :
    Speaks [.relay] s (broadcastEvent s id payload) := .one (by simp [Out.kind]) rfl

theorem ended_speaks {s s' : ServerState} (responses : List Res) (h : s'.out = s.out ++ responses.map .ended) :
    Speaks [.ended] s s' := by
  refine ⟨_, h, ?_⟩
  intro o ho
  obtain ⟨res, -, rfl⟩ := List.mem_map.mp ho
  exact List.mem_singleton_self _

theorem closeSessionRelay_speaks (s : ServerState) (id : SessionId) : Speaks [.ended] s (closeSessionRelay s id) :=
  ended_speaks _ rfl

theorem closeEventStreams_speaks (s : ServerState) : Speaks [.ended] s (closeEventStreams s) :=
  ended_speaks (s.eventRelays.values.flatMap (·.subscribers)) (by simp [closeEventStreams, List.map_flatMap])

theorem handleEventStream_speaks (s : ServerState) (id : SessionId) (lastEventId : Option Int) :
    Speaks [.relay] s (handleEventStream s id lastEventId).1 := by
  unfold handleEventStream
  split
  · exact .one (by simp [Out.kind]) rfl
  · exact .refl s

/-- The end of a session: its browsers are told, and then their responses end. -/
theorem closeSession_speaks (s : ServerState) (id : SessionId) : Speaks [.relay, .ended] s (closeSession s id).1 := by
  cases hs : s.sessions.get id with
  | none =>
    have hsame : (closeSession s id).1 = s := by simp [closeSession, hs]
    rw [hsame]
    exact .refl s
  | some session =>
    obtain ⟨eventRelays, files, heq, -⟩ := closeSession_eq hs
    rw [heq]
    refine ⟨_, rfl, ?_⟩
    intro o ho
    rcases List.mem_cons.mp ho with rfl | ho
    · simp [Out.kind]
    · obtain ⟨res, -, rfl⟩ := List.mem_map.mp ho
      simp [Out.kind]

/-! ## The worker channel -/

/-- The response that the record names, if it names one. -/
theorem endDownstream_speaks (s : ServerState) (r : RecId) : Speaks [.ended] s (endDownstream s r) := by
  refine ended_speaks (s.records r).downstream.toList ?_
  cases hd : (s.records r).downstream <;> simp [hd]

theorem supersede_speaks (s : ServerState) (prev : Option RecId) : Speaks [.ended] s (supersede s prev) := by
  cases prev with
  | none => exact .refl s
  | some r => exact endDownstream_speaks s r

theorem reapWorkerChannel_speaks (s : ServerState) (id : SessionId) : Speaks [.ended] s (reapWorkerChannel s id) := by
  unfold reapWorkerChannel
  split
  · exact .refl s
  · exact (endDownstream_speaks s _).of_out rfl rfl

theorem handleWorkerRegister_speaks (s : ServerState) (id : SessionId) :
    Speaks [.ended] s (handleWorkerRegister s id).1 := by
  unfold handleWorkerRegister
  split
  · exact .refl s
  · split
    · exact .refl s
    · exact (supersede_speaks s _).of_out rfl rfl

theorem handleWorkerEventsStream_speaks (s : ServerState) (id : SessionId) :
    Speaks [.ended] s (handleWorkerEventsStream s id).1 := by
  unfold handleWorkerEventsStream
  split
  · exact .refl s
  · split
    · exact .refl s
    · exact (endDownstream_speaks s _).of_out rfl rfl

theorem closeWorkerStream_out (s : ServerState) (res : Res) : (closeWorkerStream s res).out = s.out := by
  unfold closeWorkerStream
  split
  · rfl
  · simp only
    split <;> rfl

theorem reconcileIdleTimer_out (s : ServerState) (id : SessionId) (session : Session) :
    (reconcileIdleTimer s id session).out = s.out := by
  obtain ⟨timers, records, next, heq⟩ := reconcileIdleTimer_writes s id session
  rw [heq]

/-- A nudge is a broadcast. -/
theorem reconcileNeedsInput_speaks (s : ServerState) (id : SessionId) (prev next : Session) :
    Speaks [.relay] s (reconcileNeedsInput s id prev next) := by
  unfold reconcileNeedsInput
  split
  · exact .refl s
  · split
    · split
      · exact .refl s
      · exact broadcastEvent_speaks s id _
    · exact .refl s

theorem applied_speaks (s : ServerState) (id : SessionId) (session next : Session) (sequence : Option Nat) :
    Speaks [.relay] s (applied s id session next sequence) := by
  obtain ⟨files, heq⟩ := applied_eq s id session next sequence
  rw [heq]
  have hout := reconcileIdleTimer_out { s with sessions := s.sessions.set id next } id next
  exact (reconcileNeedsInput_speaks _ id session next).of_out hout.symm rfl

theorem recordStatusSequence_out (s : ServerState) (r : RecId) (sequence : Option Nat) :
    (recordStatusSequence s r sequence).out = s.out := by
  rw [recordStatusSequence_eq]
  rfl

/-- A report that is applied, after its number is recorded. -/
theorem report_speaks (s : ServerState) (r : RecId) (id : SessionId) (session next : Session) (sequence : Option Nat) :
    Speaks [.relay] s (applied (recordStatusSequence s r sequence) id session next sequence) :=
  (applied_speaks _ id session next sequence).of_out (recordStatusSequence_out s r sequence).symm rfl

/-- The nudge of a status, and the entry itself. -/
theorem relayWorkerEvent_speaks (s : ServerState) (r : RecId) (id : SessionId) (entry : Json) :
    Speaks [.relay] s (relayWorkerEvent s r id entry) := by
  unfold relayWorkerEvent
  split
  · exact .refl s
  · rename_i payload _
    have hfold : Speaks [.relay] s (foldWorkerStatus s r id payload).1 := by
      generalize hf : foldWorkerStatus s r id payload = folded
      have hc := foldWorkerStatus_cases s r id payload
      rw [hf] at hc
      cases hc with
      | noSession | stale | other => exact .refl s
      | status hs hevent hfresh => exact report_speaks s r id _ _ _
    simp only
    split
    · exact hfold
    · rw [bufferInputRequestEnrichment_eq]
      exact hfold.trans (.one (by simp [Out.kind]) rfl)

theorem handleWorkerStatus_speaks (s : ServerState) (id : SessionId) (body : Json) :
    Speaks [.relay] s (handleWorkerStatus s id body).1 := by
  unfold handleWorkerStatus
  split
  · split
    · exact .refl s
    · split
      · exact .refl s
      · simp only
        split
        · exact .refl s
        · split
          · exact .refl s
          · exact report_speaks s _ id _ _ _
  · exact .refl s

/-! ## Frames -/

theorem writeClientEventFrame_speaks (s : ServerState) (r : RecId) (payload : ClientPayload) :
    Speaks [.frame] s (writeClientEventFrame s r payload) := by
  unfold writeClientEventFrame
  split
  · exact .refl s
  · exact .one (by simp [Out.kind]) rfl

/-- One frame, to the current record's downstream. -/
theorem pushClientEvent_speaks {s s' : ServerState} {id : SessionId} {payload : ClientPayload}
    (h : pushClientEvent s id payload = some s') : Speaks [.frame] s s' := by
  unfold pushClientEvent at h
  split at h
  · cases h
  · split at h
    · cases h
    · cases h
      exact (writeClientEventFrame_speaks (clearIdleTimer s _) _ payload).of_out rfl rfl

theorem handleUiCommand_speaks (s : ServerState) (id : SessionId) (body : Option Json) :
    Speaks [.frame] s (handleUiCommand s id body).1 := by
  have hc := handleUiCommand_cases s id body
  generalize handleUiCommand s id body = result at hc ⊢
  cases hc with
  | refused reply hne => exact .refl s
  | relayed hparse hok hpush =>
    have hsay := (pushClientEvent_speaks hpush).of_out (t := s) rfl rfl
    simp only
    split
    · exact hsay.of_out rfl rfl
    · exact hsay

theorem writeLivenessFrame_speaks (s : ServerState) (r : RecId) (res : Res) :
    Speaks [.frame] s (writeLivenessFrame s r res) := by
  unfold writeLivenessFrame
  split
  · exact .refl s
  · exact writeClientEventFrame_speaks s r _

/-! ## Timers -/

theorem fireIdleEvent_speaks (s : ServerState) (id : SessionId) (r : RecId) :
    Speaks [.relay] s (fireIdleEvent s id r) := by
  unfold fireIdleEvent
  simp only
  split
  · exact .silent rfl
  · split
    · exact .silent rfl
    · split
      · exact .silent rfl
      · split
        · exact .silent rfl
        · exact (broadcastEvent_speaks _ id _).of_out rfl rfl

/-- An eviction ends the session as a stop does. -/
theorem considerEviction_speaks (s : ServerState) (id : SessionId) (r : RecId) :
    Speaks [.relay, .ended] s (considerEviction s id r) := by
  unfold considerEviction
  simp only
  split
  · exact .silent rfl
  · split
    · exact .silent rfl
    · split
      · exact .silent rfl
      · split
        · have hclose := closeSession_speaks (s.modifyRecord r fun record => { record with evictionTimer := none }) id
          exact (hclose.of_out rfl rfl).trans ((reapWorkerChannel_speaks _ id).mono (by simp))
        · exact .silent rfl

theorem consumePendingLaunch_out (s : ServerState) (id : SessionId) : (consumePendingLaunch s id).1.out = s.out := by
  obtain ⟨timers, pendingLaunches, heq⟩ := consumePendingLaunch_writes s id
  rw [heq]

/-- A placeholder's browsers are cut off, and told nothing. -/
theorem dropPlaceholder_speaks (s : ServerState) (id : SessionId) : Speaks [.ended] s (dropPlaceholder s id) :=
  (closeSessionRelay_speaks { s with sessions := s.sessions.erase id } id).of_out rfl rfl

theorem evictPendingLaunch_speaks (s : ServerState) (id : SessionId) : Speaks [.ended] s (evictPendingLaunch s id) := by
  have hdrop := (dropPlaceholder_speaks (consumePendingLaunch s id).1 id).of_out (consumePendingLaunch_out s id).symm rfl
  rcases evictPendingLaunch_writes s id with heq | ⟨_, _, -, heq⟩
  · rw [heq]
    exact .refl s
  · rw [heq]
    exact hdrop.of_out rfl rfl

/-- By the callback: an interval writes a frame, the others tell browsers or cut them off. -/
theorem fire_speaks (s : ServerState) (t : TimerId) : Speaks [.relay, .frame, .ended] s (fire s t) := by
  unfold fire
  split
  · exact .refl s
  · split
    · exact .refl s
    · split
      · exact ((writeLivenessFrame_speaks _ _ _).of_out rfl rfl).mono (by simp)
      · exact ((evictPendingLaunch_speaks _ _).of_out rfl rfl).mono (by simp)
      · exact ((considerEviction_speaks _ _ _).of_out rfl rfl).mono (by simp)
      · exact ((fireIdleEvent_speaks _ _ _).of_out rfl rfl).mono (by simp)

/-! ## Launches, stops and the shutdown -/

theorem claimPendingLaunch_speaks (s : ServerState) (cwd : Path) (mode : PermissionMode) :
    Speaks [.ended] s (claimPendingLaunch s cwd mode).1 := by
  rw [claimPendingLaunch_eq]
  split
  · exact .refl s
  · rename_i claimed _
    have hout := consumePendingLaunch_out s claimed.sessionId
    split
    · exact (dropPlaceholder_speaks _ claimed.sessionId).of_out hout.symm rfl
    · exact .silent hout

/-- An ambiguous claim drops the placeholder; the work is handed out in any case. -/
theorem handleSessionCreate_speaks (s : ServerState) (cwd : Path) (mode : PermissionMode) :
    Speaks [.ended, .work] s (handleSessionCreate s cwd mode).1 := by
  have hclaim : Speaks [.ended, .work] s (claimPendingLaunch s cwd mode).1 :=
    (claimPendingLaunch_speaks s cwd mode).mono (by simp)
  unfold handleSessionCreate
  exact hclaim.trans (.one (by simp [Out.kind]) rfl)

theorem launchOpened_out (s : ServerState) (op : OpId) (options : SessionLaunchOptions)
    (hookInstall : Option HookInstall) (attachable : Bool) (hint : String) :
    (launchOpened s op options hookInstall attachable hint).1.out = s.out := by
  rw [launchOpened_eq]

/-- The channel's downstream ends before the browsers are told. -/
theorem concludeStop_speaks (s : ServerState) (id : SessionId) (outcome : String) :
    Speaks [.relay, .ended] s (concludeStop s id outcome).1 := by
  rw [concludeStop_fst]
  have hout := consumePendingLaunch_out { s with launchedSurfaces := s.launchedSurfaces.erase id } id
  have hreap := (reapWorkerChannel_speaks
    (consumePendingLaunch { s with launchedSurfaces := s.launchedSurfaces.erase id } id).1 id).of_out hout.symm rfl
  exact (hreap.mono (by simp)).trans (closeSession_speaks _ id)

/-- A reading has a terminal closed, or ends the session, or does neither. -/
theorem livenessSettled_speaks (s : ServerState) (op : OpId) (reading : Reading) :
    Speaks [.relay, .ended, .close] s (livenessSettled s op reading).1 := by
  have hclose : ∀ {s' : ServerState} {surface : SurfaceId}, s'.out = s.out ++ [.closeSurface surface op] →
      Speaks [.relay, .ended, .close] s s' := fun h => .one (by simp [Out.kind]) h
  have hconclude : ∀ id outcome, Speaks [.relay, .ended, .close] s (concludeStop (s.finish op) id outcome).1 :=
    fun id outcome => ((concludeStop_speaks (s.finish op) id outcome).of_out rfl rfl).mono (by simp)
  unfold livenessSettled
  split
  · unfold evictRead
    split
    · exact .silent rfl
    · exact .silent rfl
    · exact hclose rfl
  · unfold stopRead
    simp only
    split
    · exact .silent rfl
    · exact hconclude _ _
    · exact hclose rfl
  · unfold stopConfirmed
    split
    · exact .silent rfl
    · exact hconclude _ _
  · unfold releaseRead
    split
    · exact hclose rfl
    · exact .silent rfl
  · exact .refl s

theorem closeSettled_out (s : ServerState) (op : OpId) (fulfilled : Bool) :
    (closeSettled s op fulfilled).1.out = s.out := by
  unfold closeSettled
  split
  · rfl
  · unfold stopClosed
    split <;> rfl
  · rfl
  · rfl

theorem shutdown_speaks (s : ServerState) : Speaks [.ended] s (shutdown s) := by
  obtain ⟨timers, records, streams, responses, ops, next, heq, -⟩ := shutdown_eq s
  rw [heq]
  exact ended_speaks responses rfl

/-! ## Every turn -/

/-- The kinds a turn may speak. -/
def Event.speaks : Event → List OutKind
  | .workerEvent _ _ _ | .workerStatus _ _ | .uiEventStream _ _ => [.relay]
  | .workerRegister _ | .workerEventsStream _ | .shutdown => [.ended]
  | .uiCommand _ _ | .injectTurn _ _ => [.frame]
  | .fire _ => [.relay, .frame, .ended]
  | .sessionCreate _ _ _ => [.ended, .work]
  | .livenessSettled _ _ => [.relay, .ended, .close]
  | _ => []

/-- Every turn speaks its kinds only. -/
theorem speaks_step (s : ServerState) (e : Event) : Speaks e.speaks s (step s e) := by
  cases e with
  | advance ms => exact .refl s
  | changeDisk fs => exact .silent rfl
  | writeHookFile path entry => cases entry <;> exact .silent rfl
  | launchSession options hookOk =>
    rcases launchSession_cases s options hookOk with ⟨_, _, _, heq⟩ | ⟨_, _, _, _, heq, -⟩
    · simp only [step, turn, heq]
      exact .refl s
    · simp only [step, turn, heq]
      exact .silent rfl
  | launchOpened op attachable hint =>
    simp only [step, turn, launchSettled]
    split
    · exact .silent (launchOpened_out s _ _ _ _ _)
    · exact .refl s
  | launchFailed op code message =>
    simp only [step, turn, launchSettled]
    split
    · rw [launchFailed_eq]
      exact .silent rfl
    · exact .refl s
  | sessionCreate terminal cwd mode => exact handleSessionCreate_speaks s cwd mode
  | stopSession id force =>
    rcases stopSession_cases s id force with ⟨_, _, _, heq⟩ | ⟨_, -, -, heq⟩
    · simp only [step, turn, heq]
      exact .refl s
    · simp only [step, turn, heq]
      exact .silent rfl
  | livenessSettled op reading => exact livenessSettled_speaks s op reading
  | closeSettled op fulfilled => exact .silent (closeSettled_out s op fulfilled)
  | fire t => exact fire_speaks s t
  | workerRegister id => exact handleWorkerRegister_speaks s id
  | workerEventsStream id => exact handleWorkerEventsStream_speaks s id
  | workerStreamClosed res => exact .silent (closeWorkerStream_out s res)
  | workerEvent id workerEpoch entry =>
    simp only [step, turn, handleWorkerEvent]
    split
    · exact .refl s
    · exact relayWorkerEvent_speaks s _ id entry
  | workerStatus id body => exact handleWorkerStatus_speaks s id body
  | workerHeartbeat id =>
    simp only [step, turn, handleWorkerHeartbeat]
    split
    · exact .refl s
    · split <;> exact .silent rfl
  | uiEventStream id lastEventId => exact handleEventStream_speaks s id lastEventId
  | uiStreamClosed id res => exact .silent rfl
  | uiCommand id body => exact handleUiCommand_speaks s id body
  | injectTurn id prompt =>
    simp only [step, turn]
    cases hp : injectUserTurn s id prompt with
    | none => exact .refl s
    | some s' => exact pushClientEvent_speaks hp
  | shutdown => exact shutdown_speaks s

end Ccctl.Server
