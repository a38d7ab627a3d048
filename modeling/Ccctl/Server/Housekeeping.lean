import Ccctl.Server.Moves
/-
  Ccctl.Server.Housekeeping — what a turn leaves behind of a session.

  `Houses id s s'`: the turn from `s` to `s'` took neither the row nor the channel of `id`, made it
  no relay and no hook install unless it has a row, and armed no timer of its worker's unless it
  has a channel. Each handler houses every session, except the one it ends, and except where a
  worker stream closes whose session's channel is gone. It is shown here handler by handler; how a
  session ends, and what that leaves, is `Retire`.

  Two more facts go with it. A relay's subscribers are distinct and were minted (`Seated`), and
  only an end sends a `closed` frame (`closedSent`).
-/

namespace Ccctl.Server

open Ccctl.Core Ccctl.Lib ServerState

/-! ## What a session has -/

/-- The record a worker's timer works on. -/
def TimerCallback.record : TimerCallback → Option RecId
  | .evictPendingLaunch _ => none
  | .writeLivenessFrame r _ => some r
  | .considerEviction _ r => some r
  | .fireIdleEvent _ r => some r

/-- The browsers listening on a session's relay. -/
def attached (s : ServerState) (id : SessionId) : List Res := (relayFor s id).subscribers

/-- No relay and no hook install. -/
def Vacant (s : ServerState) (id : SessionId) : Prop :=
  s.eventRelays.get id = none ∧ s.hookInstalls.get id = none

/-- No timer of a worker of the session. -/
def Unarmed (timers : OrdMap TimerId (Timer TimerCallback)) (id : SessionId) : Prop :=
  ∀ t timer, timers.get t = some timer → ∀ r, timer.callback.record = some r → r.sessionId ≠ id

def Seated (s : ServerState) (id : SessionId) : Prop := (attached s id).Nodup ∧ ∀ res ∈ attached s id, res < s.next

/-- How often an output sends `res` the end of the session `id`. -/
def closedTo (id : SessionId) (res : Res) : Out → Nat
  | .broadcast sessionId _ (.closed _ _) recipients => if sessionId = id then recipients.count res else 0
  | _ => 0

/-- How often `res` was sent the end of the session. -/
def closedSent (out : List Out) (id : SessionId) (res : Res) : Nat :=
  match out with
  | [] => 0
  | o :: out => closedTo id res o + closedSent out id res

theorem closedSent_append (out out' : List Out) (id : SessionId) (res : Res) :
    closedSent (out ++ out') id res = closedSent out id res + closedSent out' id res := by
  induction out with
  | nil => simp [closedSent]
  | cons o out ih => simp only [List.cons_append, closedSent, ih, Nat.add_assoc]

/-- An output that is no `closed` frame. -/
theorem closedSent_quiet {o : Out} {id : SessionId} {res : Res} (ho : closedTo id res o = 0) (out : List Out) :
    closedSent (out ++ [o]) id res = closedSent out id res := by
  simp [closedSent_append, closedSent, ho]

theorem closedSent_ended (out : List Out) (responses : List Res) (id : SessionId) (res : Res) :
    closedSent (out ++ responses.map .ended) id res = closedSent out id res := by
  have hnone : closedSent (responses.map .ended) id res = 0 := by
    induction responses with
    | nil => rfl
    | cons response responses ih => simpa [closedSent, closedTo] using ih
  rw [closedSent_append, hnone, Nat.add_zero]

namespace Unarmed

variable {timers : OrdMap TimerId (Timer TimerCallback)} {id : SessionId}

theorem sub {timers' : OrdMap TimerId (Timer TimerCallback)} (h : Unarmed timers id)
    (hsub : ∀ t timer, timers'.get t = some timer → timers.get t = some timer) : Unarmed timers' id :=
  fun t timer ht => h t timer (hsub t timer ht)

theorem cleared (h : Unarmed timers id) (o : Option TimerId) : Unarmed (cleared timers o) id :=
  h.sub fun _ _ ht => cleared_get ht

theorem arm (h : Unarmed timers id) {k : TimerCallback} (hk : ∀ r, k.record = some r → r.sessionId ≠ id)
    (t : TimerId) (due : Nat) : Unarmed (timers.set t ⟨due, k⟩) id := by
  intro u timer hu r hr
  rw [OrdMap.get_set] at hu
  split at hu
  · cases hu
    exact hk r hr
  · exact h u timer hu r hr

end Unarmed

theorem Seated.mono {s s' : ServerState} {id : SessionId} (h : Seated s id) (hsame : attached s' id = attached s id)
    (hle : s.next ≤ s'.next) : Seated s' id := by
  unfold Seated
  rw [hsame]
  exact ⟨h.1, fun res hres => (h.2 res hres).trans_le hle⟩

/-! ## Housing -/

/-- A turn that takes neither row nor channel of `id`, and adds to neither when it is not there. -/
structure Houses (id : SessionId) (s s' : ServerState) : Prop where
  row : s'.sessions.get id = none → s.sessions.get id = none
  channel : s'.workerChannels.get id = none → s.workerChannels.get id = none
  vacant : s'.sessions.get id = none → Vacant s id → Vacant s' id
  unarmed : s'.workerChannels.get id = none → Unarmed s.timers id → Unarmed s'.timers id
  seated : Seated s id → Seated s' id
  said : ∀ res, closedSent s'.out id res = closedSent s.out id res

namespace Houses

variable {id : SessionId} {s s' s'' : ServerState}

theorem refl (id : SessionId) (s : ServerState) : Houses id s s :=
  ⟨fun h => h, fun h => h, fun _ h => h, fun _ h => h, fun h => h, fun _ => rfl⟩

theorem trans (h : Houses id s s') (h' : Houses id s' s'') : Houses id s s'' where
  row hnone := h.row (h'.row hnone)
  channel hnone := h.channel (h'.channel hnone)
  vacant hnone hv := h'.vacant hnone (h.vacant (h'.row hnone) hv)
  unarmed hnone hu := h'.unarmed hnone (h.unarmed (h'.channel hnone) hu)
  seated hs := h'.seated (h.seated hs)
  said res := (h'.said res).trans (h.said res)

/-- Ids minted for something else. -/
theorem mint (id : SessionId) (s : ServerState) {n : Nat} (hle : s.next ≤ n) : Houses id s { s with next := n } :=
  { refl id s with seated := fun h => h.mono rfl hle }

/-- A row stored. -/
theorem store (id : SessionId) (s : ServerState) (sessionId : SessionId) (row : Session) :
    Houses id s { s with sessions := s.sessions.set sessionId row } :=
  { refl id s with
    row := fun hnone => (OrdMap.get_set_of_none hnone).2
    vacant := fun _ hv => hv }

end Houses

variable {id : SessionId}

/-! ## The worker's handlers -/

theorem endDownstream_houses (s : ServerState) (r : RecId) : Houses id s (endDownstream s r) :=
  { Houses.refl id s with
    unarmed := fun _ h => ((h.cleared _).cleared _).cleared _
    said := fun res => by
      cases hd : (s.records r).downstream with
      | none => simp [endDownstream, hd]
      | some d =>
        rw [endDownstream_out, hd]
        exact closedSent_quiet rfl _ }

theorem supersede_houses (s : ServerState) (prev : Option RecId) : Houses id s (supersede s prev) := by
  cases prev with
  | none => exact .refl id s
  | some r => exact endDownstream_houses s r

/-- A timer of the current worker armed. -/
theorem armed_houses {s : ServerState} {sessionId : SessionId} {r : RecId}
    (hr : s.workerChannels.get sessionId = some r) (hid : r.sessionId = sessionId) {k : TimerCallback}
    (hk : k.record = some r) (due : Nat) (records : RecId → WorkerChannelRecord) :
    Houses id s { s with timers := s.timers.set s.next ⟨due, k⟩, next := s.next + 1, records } :=
  { Houses.mint id s (Nat.le_succ s.next) with
    unarmed := fun hnone hu => hu.arm (fun r' hr' => by
      obtain rfl : r = r' := Option.some.inj (hk.symm.trans hr')
      intro heq
      subst heq
      rw [hid] at hnone
      cases hnone.symm.trans hr) _ _ }

/-- The idle check is armed for a session that has its row. -/
theorem reconcileIdleTimer_houses {s : ServerState} {sessionId : SessionId}
    (hnamed : ∀ r, s.workerChannels.get sessionId = some r → r.sessionId = sessionId) (session : Session) :
    Houses id s (reconcileIdleTimer s sessionId session) := by
  unfold reconcileIdleTimer armIdleTimer
  split
  · exact .refl id s
  · rename_i r hr
    split
    · split
      · exact .refl id s
      · exact armed_houses hr (hnamed r hr) rfl _ _
    · exact { Houses.refl id s with unarmed := fun _ h => h.cleared _ }

theorem attached_broadcast (s : ServerState) (sessionId : SessionId) (payload : Payload) (id : SessionId) :
    attached (broadcastEvent s sessionId payload) id = attached s id := by
  by_cases hid : id = sessionId
  · subst hid
    simp [attached, relayFor]
  · simp [attached, relayFor, OrdMap.get_set_ne _ _ hid]

/-- What is broadcast for a session that is there. -/
theorem broadcastEvent_houses {s : ServerState} {sessionId : SessionId} (hrow : s.sessions.get sessionId ≠ none)
    {payload : Payload} (hp : ∀ res n rs, closedTo id res (.broadcast sessionId n payload rs) = 0) :
    Houses id s (broadcastEvent s sessionId payload) :=
  { Houses.refl id s with
    vacant := fun hnone hv => by
      have hne : id ≠ sessionId := by
        intro heq
        subst heq
        exact hrow hnone
      exact ⟨(OrdMap.get_set_ne _ _ hne).trans hv.1, hv.2⟩
    seated := fun h => h.mono (attached_broadcast s sessionId payload id) (Nat.le_refl _)
    said := fun res => closedSent_quiet (hp res _ _) _ }

theorem reconcileNeedsInput_houses {s : ServerState} {sessionId : SessionId}
    (hrow : s.sessions.get sessionId ≠ none) (prev next : Session) :
    Houses id s (reconcileNeedsInput s sessionId prev next) := by
  unfold reconcileNeedsInput
  split
  · exact .refl id s
  · split
    · split
      · exact .refl id s
      · exact broadcastEvent_houses hrow fun _ _ _ => rfl
    · exact .refl id s

theorem applied_houses {s : ServerState} {sessionId : SessionId}
    (hnamed : ∀ r, s.workerChannels.get sessionId = some r → r.sessionId = sessionId) (session next : Session)
    (sequence : Option Nat) : Houses id s (applied s sessionId session next sequence) := by
  have hidle : ∀ id, Houses id { s with sessions := s.sessions.set sessionId next }
      (reconcileIdleTimer { s with sessions := s.sessions.set sessionId next } sessionId next) :=
    fun id => reconcileIdleTimer_houses (s := { s with sessions := s.sessions.set sessionId next }) hnamed next
  have hrow : (reconcileIdleTimer { s with sessions := s.sessions.set sessionId next } sessionId next).sessions.get
      sessionId ≠ none := by
    intro hnone
    exact (OrdMap.get_set_of_none ((hidle sessionId).row hnone)).1 rfl
  have hneeds := ((Houses.store id s sessionId next).trans (hidle id)).trans
    (reconcileNeedsInput_houses hrow session next)
  obtain ⟨files, heq⟩ := applied_eq s sessionId session next sequence
  rw [heq]
  exact { hneeds with }

theorem recordStatusSequence_houses (s : ServerState) (r : RecId) (sequence : Option Nat) :
    Houses id s (recordStatusSequence s r sequence) := by
  rw [recordStatusSequence_eq]
  exact { Houses.refl id s with }

/-- A report let through, on either leg. -/
theorem report_houses {s : ServerState} (h : TimersOk s) (r : RecId) (sessionId : SessionId) (session next : Session)
    (sequence : Option Nat) :
    Houses id s (applied (recordStatusSequence s r sequence) sessionId session next sequence) := by
  refine (recordStatusSequence_houses s r sequence).trans (applied_houses ?_ session next sequence)
  rw [recordStatusSequence_eq]
  exact named h sessionId

/-- An entry is folded into the session and relayed; the row that was there still is. -/
theorem relayWorkerEvent_houses {s : ServerState} (h : TimersOk s) {sessionId : SessionId}
    (hrow : s.sessions.get sessionId ≠ none) (r : RecId) (entry : Json) :
    Houses id s (relayWorkerEvent s r sessionId entry) := by
  unfold relayWorkerEvent
  split
  · exact .refl id s
  · rename_i payload _
    have hfold : ∀ id, Houses id s (foldWorkerStatus s r sessionId payload).1 := by
      intro id
      generalize hf : foldWorkerStatus s r sessionId payload = folded
      have hc := foldWorkerStatus_cases s r sessionId payload
      rw [hf] at hc
      cases hc with
      | noSession | stale | other => exact .refl id s
      | status hs hevent hfresh => exact report_houses h r sessionId _ _ _
    simp only
    split
    · exact hfold id
    · rw [bufferInputRequestEnrichment_eq]
      have hbuffer : ∀ enrichments, Houses id s
          { (foldWorkerStatus s r sessionId payload).1 with requiresActionEnrichments := enrichments } :=
        fun _ => { hfold id with }
      refine (hbuffer _).trans (broadcastEvent_houses ?_ fun _ _ _ => rfl)
      exact fun hnone => hrow ((hfold sessionId).row hnone)

theorem handleWorkerStatus_houses {s : ServerState} (h : TimersOk s) (sessionId : SessionId) (body : Json) :
    Houses id s (handleWorkerStatus s sessionId body).1 := by
  unfold handleWorkerStatus
  split
  · split
    · exact .refl id s
    · rename_i r _
      split
      · exact .refl id s
      · simp only
        split
        · exact .refl id s
        · split
          · exact .refl id s
          · exact report_houses h r sessionId _ _ _
  · exact .refl id s

theorem handleWorkerRegister_houses (s : ServerState) (sessionId : SessionId) :
    Houses id s (handleWorkerRegister s sessionId).1 := by
  unfold handleWorkerRegister
  split
  · exact .refl id s
  · split
    · exact .refl id s
    · have hsup : Houses id s (supersede s (s.workerChannels.get sessionId)) := supersede_houses s _
      obtain ⟨timers, records, streams, out, heq⟩ := supersede_writes s (s.workerChannels.get sessionId)
      rw [heq] at hsup
      simp only [heq]
      exact { hsup with
        channel := fun hnone => (OrdMap.get_set_of_none hnone).2
        unarmed := fun hnone hu => hsup.unarmed (OrdMap.get_set_of_none hnone).2 hu
        seated := fun hs => (hsup.seated hs).mono rfl (Nat.le_succ _) }

theorem handleWorkerEventsStream_houses {s : ServerState} (h : TimersOk s) (sessionId : SessionId) :
    Houses id s (handleWorkerEventsStream s sessionId).1 := by
  unfold handleWorkerEventsStream
  split
  · exact .refl id s
  · rename_i session _
    split
    · exact .refl id s
    · rename_i r hr
      have hend : Houses id s (endDownstream s r) := endDownstream_houses s r
      have hmint := hend.trans (.mint id (endDownstream s r) (Nat.le_succ s.next))
      have hstore := hmint.trans (.store id _ sessionId (markSessionReady session))
      have harm := hstore.trans (armed_houses
        (s := { endDownstream s r with
          next := s.next + 1, sessions := s.sessions.set sessionId (markSessionReady session) })
        (k := .writeLivenessFrame r s.next) hr (h.channel sessionId r hr).1 rfl
        (s.now + timeoutDelay s.config.workerLivenessIntervalMs) s.records)
      exact { harm with }

/-- A stream of a session whose channel is still there, or one its record has moved on from. -/
theorem closeWorkerStream_houses {s : ServerState} (h : TimersOk s) {res : Res}
    (hlate : ∀ stream, s.streams.get res = some stream → s.workerChannels.get stream.sessionId = none →
      (s.records stream.record).downstream ≠ some res) : Houses id s (closeWorkerStream s res) := by
  unfold closeWorkerStream
  split
  · exact .refl id s
  · rename_i stream hst
    simp only
    split
    · rename_i hd
      refine { Houses.mint id s (Nat.le_succ s.next) with
        unarmed := fun hnone hu => (hu.cleared (some stream.timer)).arm (fun r hr => ?_) _ _ }
      cases hr
      rw [(h.stream res stream hst).1]
      intro heq
      subst heq
      exact hlate stream hst hnone hd
    · exact { Houses.refl id s with unarmed := fun _ h => h.cleared _ }

theorem handleWorkerHeartbeat_houses (s : ServerState) (sessionId : SessionId) :
    Houses id s (handleWorkerHeartbeat s sessionId).1 := by
  unfold handleWorkerHeartbeat
  split
  · exact .refl id s
  · split
    · exact .refl id s
    · exact .store id s sessionId _

/-! ## Frames down the stream, and the browsers -/

theorem writeClientEventFrame_houses (s : ServerState) (r : RecId) (payload : ClientPayload) :
    Houses id s (writeClientEventFrame s r payload) := by
  unfold writeClientEventFrame
  split
  · exact .refl id s
  · exact { Houses.refl id s with said := fun _ => closedSent_quiet rfl _ }

theorem pushClientEvent_houses {s s' : ServerState} {sessionId : SessionId} {payload : ClientPayload}
    (h : pushClientEvent s sessionId payload = some s') : Houses id s s' := by
  unfold pushClientEvent at h
  split at h
  · cases h
  · rename_i r _
    split at h
    · cases h
    · cases h
      have hclear : Houses id s (clearIdleTimer s r) :=
        { Houses.refl id s with unarmed := fun _ h => h.cleared _ }
      exact hclear.trans (writeClientEventFrame_houses _ r payload)

theorem handleUiCommand_houses (s : ServerState) (sessionId : SessionId) (body : Option Json) :
    Houses id s (handleUiCommand s sessionId body).1 := by
  have hc := handleUiCommand_cases s sessionId body
  generalize handleUiCommand s sessionId body = result at hc ⊢
  cases hc with
  | refused reply hne => exact .refl id s
  | relayed hparse hok hpush =>
    have hpushed := (Houses.mint id s (Nat.le_succ s.next)).trans (pushClientEvent_houses hpush)
    simp only
    split
    · exact { hpushed with }
    · exact hpushed

/-- A browser joins the relay of a session that has its row, under a response of its own. -/
theorem handleEventStream_houses (s : ServerState) (sessionId : SessionId) (lastEventId : Option Int) :
    Houses id s (handleEventStream s sessionId lastEventId).1 := by
  unfold handleEventStream
  split
  · rename_i hhas
    obtain ⟨row, hrow⟩ := OrdMap.has_eq_true.mp hhas
    refine { Houses.mint id s (Nat.le_succ s.next) with
      vacant := fun hnone hv => ?_, seated := fun hs => ?_, said := fun res => closedSent_quiet rfl _ }
    · have hne : id ≠ sessionId := by
        intro heq
        subst heq
        cases hnone.symm.trans hrow
      exact ⟨(OrdMap.get_set_ne _ _ hne).trans hv.1, hv.2⟩
    · by_cases hid : id = sessionId
      · subst hid
        simp only [Seated, attached, relayFor, OrdMap.get_set_self, Option.getD_some] at hs ⊢
        refine ⟨List.nodup_append.mpr ⟨hs.1, List.nodup_singleton _, ?_⟩, ?_⟩
        · intro res hres _ hnew hsame
          subst hsame
          rw [List.mem_singleton] at hnew
          exact Nat.lt_irrefl _ (hnew ▸ hs.2 res hres)
        · intro res hres
          rcases List.mem_append.mp hres with hres | hres
          · exact Nat.lt_succ_of_lt (hs.2 res hres)
          · rw [List.mem_singleton.mp hres]
            exact Nat.lt_succ_self _
      · refine hs.mono ?_ (Nat.le_succ _)
        simp [attached, relayFor, OrdMap.get_set_ne _ _ hid]
  · exact .refl id s

/-- Relays rewritten where they stand, none with a new subscriber. -/
theorem relays_houses (s : ServerState) {f : SessionId → EventStreamState → EventStreamState}
    (hf : ∀ id relay, (f id relay).subscribers.Sublist relay.subscribers) :
    Houses id s { s with eventRelays := s.eventRelays.mapVals f } := by
  refine { Houses.refl id s with vacant := fun _ hv => ⟨?_, hv.2⟩, seated := fun hs => ?_ }
  · rw [OrdMap.get_mapVals, hv.1]
    rfl
  · have hsub : (attached { s with eventRelays := s.eventRelays.mapVals f } id).Sublist (attached s id) := by
      simp only [attached, relayFor, OrdMap.get_mapVals]
      cases s.eventRelays.get id with
      | none => exact List.Sublist.refl _
      | some relay => exact hf id relay
    exact ⟨hs.1.sublist hsub, fun res hres => hs.2 res (hsub.subset hres)⟩

/-! ## The timers -/

theorem writeLivenessFrame_houses (s : ServerState) (r : RecId) (res : Res) :
    Houses id s (writeLivenessFrame s r res) := by
  unfold writeLivenessFrame
  split
  · exact .refl id s
  · exact writeClientEventFrame_houses s r _

theorem fireIdleEvent_houses (s : ServerState) (sessionId : SessionId) (r : RecId) :
    Houses id s (fireIdleEvent s sessionId r) := by
  have hspent : Houses id s (s.modifyRecord r fun record => { record with idleTimer := none }) :=
    { Houses.refl id s with }
  unfold fireIdleEvent
  simp only
  split
  · exact hspent
  · split
    · exact hspent
    · rename_i session hs
      split
      · exact hspent
      · split
        · exact hspent
        · refine hspent.trans (broadcastEvent_houses ?_ fun _ _ _ => rfl)
          rw [hs]
          exact Option.some_ne_none session

/-! ## The ends, seen by the others -/

theorem closeSessionRelay_houses {s : ServerState} {sessionId : SessionId} (hne : id ≠ sessionId) :
    Houses id s (closeSessionRelay s sessionId) :=
  { Houses.refl id s with
    vacant := fun _ hv => ⟨(OrdMap.get_erase_ne _ hne).trans hv.1, hv.2⟩
    seated := fun hs => hs.mono (by simp [attached, relayFor, OrdMap.get_erase_ne _ hne]) (Nat.le_refl _)
    said := fun res => closedSent_ended _ _ _ _ }

theorem dropPlaceholder_houses {s : ServerState} {sessionId : SessionId} (hne : id ≠ sessionId) :
    Houses id s (dropPlaceholder s sessionId) := by
  have hrow : Houses id s { s with sessions := s.sessions.erase sessionId } :=
    { Houses.refl id s with
      row := fun hnone => (OrdMap.get_erase_ne _ hne).symm.trans hnone
      vacant := fun _ hv => hv }
  exact hrow.trans (closeSessionRelay_houses hne)

theorem reapWorkerChannel_houses {s : ServerState} {sessionId : SessionId} (hne : id ≠ sessionId) :
    Houses id s (reapWorkerChannel s sessionId) := by
  unfold reapWorkerChannel
  split
  · exact .refl id s
  · rename_i r _
    have hend : Houses id s (endDownstream s r) := endDownstream_houses s r
    have hgone : ∀ hnone : (s.workerChannels.erase sessionId).get id = none, s.workerChannels.get id = none :=
      fun hnone => (OrdMap.get_erase_ne _ hne).symm.trans hnone
    exact { hend with channel := hgone, unarmed := fun hnone => hend.unarmed (hgone hnone) }

/-- The end of another session. -/
theorem closeSession_houses {s : ServerState} {sessionId : SessionId} (hne : id ≠ sessionId) :
    Houses id s (closeSession s sessionId).1 := by
  cases hs : s.sessions.get sessionId with
  | none =>
    simp only [closeSession, hs]
    exact .refl id s
  | some session =>
    obtain ⟨eventRelays, files, heq, -, hrelays, -⟩ := closeSession_eq hs
    rw [heq]
    refine { Houses.refl id s with
      row := fun hnone => (OrdMap.get_erase_ne _ hne).symm.trans hnone
      vacant := fun _ hv => ⟨(hrelays id hne).trans hv.1, (OrdMap.get_erase_ne _ hne).trans hv.2⟩
      seated := fun h => h.mono (by simp [attached, relayFor, hrelays id hne]) (Nat.le_refl _)
      said := fun res => ?_ }
    rw [List.append_cons, closedSent_ended]
    refine closedSent_quiet ?_ _
    exact if_neg (Ne.symm hne)

theorem consumePendingLaunch_houses (s : ServerState) (sessionId : SessionId) :
    Houses id s (consumePendingLaunch s sessionId).1 := by
  unfold consumePendingLaunch
  split
  · exact .refl id s
  · exact { Houses.refl id s with unarmed := fun _ h => h.cleared _ }

theorem reapWorkerChannel_sessions (s : ServerState) (sessionId : SessionId) :
    (reapWorkerChannel s sessionId).sessions = s.sessions := by
  unfold reapWorkerChannel
  split <;> rfl

theorem closeSession_sessions (s : ServerState) (sessionId : SessionId) :
    (closeSession s sessionId).1.sessions = s.sessions.erase sessionId := by
  obtain ⟨_, _, _, _, _, heq⟩ := closeSession_writes s sessionId
  rw [heq]

theorem consumePendingLaunch_sessions (s : ServerState) (sessionId : SessionId) :
    (consumePendingLaunch s sessionId).1.sessions = s.sessions := by
  obtain ⟨_, _, heq⟩ := consumePendingLaunch_writes s sessionId
  rw [heq]

theorem concludeStop_sessions (s : ServerState) (sessionId : SessionId) (outcome : String) :
    (concludeStop s sessionId outcome).1.sessions = s.sessions.erase sessionId := by
  rw [concludeStop_fst, closeSession_sessions, reapWorkerChannel_sessions, consumePendingLaunch_sessions]

theorem evictPendingLaunch_sessions {s : ServerState} {sessionId : SessionId} {p : PendingLaunch}
    (hp : s.pendingLaunches.get sessionId = some p) :
    (evictPendingLaunch s sessionId).sessions = s.sessions.erase sessionId := by
  have hdropped : (dropPlaceholder (consumePendingLaunch s sessionId).1 sessionId).sessions =
      s.sessions.erase sessionId := congrArg (·.erase sessionId) (consumePendingLaunch_sessions s sessionId)
  rcases evictPendingLaunch_cases s sessionId with ⟨hnone, -⟩ | ⟨_, -, ⟨-, heq⟩ | ⟨-, heq⟩⟩
  · cases hnone.symm.trans hp
  · rw [heq, hdropped]
  · rw [heq]
    exact hdropped

/-- A stop that finds the session gone. -/
theorem concludeStop_late {s : ServerState} (hrow : s.sessions.get id = none)
    (hchannel : s.workerChannels.get id = none)
    (outcome : String) : Houses id s (concludeStop s id outcome).1 := by
  rw [concludeStop_fst]
  have hsurface : Houses id s { s with launchedSurfaces := s.launchedSurfaces.erase id } := { Houses.refl id s with }
  have hconsume := hsurface.trans (consumePendingLaunch_houses _ id)
  obtain ⟨timers, pendings, heq⟩ := consumePendingLaunch_writes
    { s with launchedSurfaces := s.launchedSurfaces.erase id } id
  rw [heq] at hconsume ⊢
  simp only [reapWorkerChannel, hchannel, closeSession, hrow]
  exact hconsume

theorem concludeStop_houses {s : ServerState} {sessionId : SessionId} (hne : id ≠ sessionId) (outcome : String) :
    Houses id s (concludeStop s sessionId outcome).1 := by
  rw [concludeStop_fst]
  have hsurface : Houses id s { s with launchedSurfaces := s.launchedSurfaces.erase sessionId } :=
    { Houses.refl id s with }
  exact ((hsurface.trans (consumePendingLaunch_houses _ sessionId)).trans (reapWorkerChannel_houses hne)).trans
    (closeSession_houses hne)

theorem considerEviction_houses {s : ServerState} {sessionId : SessionId} {r : RecId}
    (hid : r.sessionId = sessionId)
    (hkeep : (considerEviction s sessionId r).sessions.get id = none → s.sessions.get id = none) :
    Houses id s (considerEviction s sessionId r) := by
  have hspent : Houses id s (s.modifyRecord r fun record => { record with evictionTimer := none }) :=
    { Houses.refl id s with }
  unfold considerEviction at hkeep ⊢
  simp only at hkeep ⊢
  split
  · exact hspent
  · rename_i hcur
    rw [if_neg hcur] at hkeep
    split
    · exact hspent
    · rename_i hd
      rw [if_neg hd] at hkeep
      split
      · exact hspent
      · rename_i session hs
        simp only [hs] at hkeep
        split
        · rename_i hstale
          rw [if_pos hstale] at hkeep
          by_cases hne : id = sessionId
          · -- it would lose its row
            rw [reapWorkerChannel_sessions, closeSession_sessions, hne] at hkeep
            cases (hkeep (OrdMap.get_erase_self _ _)).symm.trans hs
          · exact hspent.trans ((closeSession_houses hne).trans (reapWorkerChannel_houses hne))
        · have hr : s.workerChannels.get sessionId = some r := by simpa using hcur
          have harm := hspent.trans (armed_houses
            (s := s.modifyRecord r fun record => { record with evictionTimer := none })
            (k := .considerEviction sessionId r) hr hid rfl (s.now + timeoutDelay s.config.sessionEvictionGraceMs) s.records)
          exact { harm with }

theorem evictPendingLaunch_houses {s : ServerState} {sessionId : SessionId} (hne : id ≠ sessionId) :
    Houses id s (evictPendingLaunch s sessionId) := by
  have hdrop : Houses id s (dropPlaceholder (consumePendingLaunch s sessionId).1 sessionId) :=
    (consumePendingLaunch_houses s sessionId).trans (dropPlaceholder_houses hne)
  rcases evictPendingLaunch_writes s sessionId with heq | ⟨ops, next, hle, heq⟩
  · rw [heq]
    exact .refl id s
  · rw [heq]
    have hmint := hdrop.trans (Houses.mint id _ hle)
    exact { hmint with }

/-! ## Launches -/

/-- A launch that opened makes the row of a new session, and arms its timeout. -/
theorem launchOpened_houses (s : ServerState) (op : OpId) (options : SessionLaunchOptions)
    (hookInstall : Option HookInstall) (attachable : Bool) (hint : String) :
    Houses id s (launchOpened s op options hookInstall attachable hint).1 := by
  have hstore := (Houses.mint id s (Nat.le_succ s.next)).trans
    (.store id _ s.next (createRegisteringSession s.next options.permissionMode s.now))
  have htimer : Houses id s
      { s with
        next := s.next + 1 + 1
        sessions := s.sessions.set s.next (createRegisteringSession s.next options.permissionMode s.now)
        timers := s.timers.set (s.next + 1) ⟨s.now + timeoutDelay s.config.registrationTimeoutMs, .evictPendingLaunch s.next⟩ } :=
    { hstore.trans (.mint id _ (Nat.le_succ (s.next + 1))) with
      unarmed := fun _ hu => hu.arm (fun r hr => by cases hr) _ _ }
  rw [launchOpened_eq]
  refine { htimer with vacant := fun hnone hv => ?_ }
  have hbefore := htimer.vacant hnone hv
  refine ⟨hbefore.1, ?_⟩
  cases hookInstall with
  | none => exact hbefore.2
  | some install =>
    have hne : id ≠ s.next := by
      intro heq
      subst heq
      cases (OrdMap.get_set_self _ _ _).symm.trans hnone
    exact (OrdMap.get_set_ne _ _ hne).trans hbefore.2

theorem handleSessionCreate_houses {s : ServerState} (hg : Grounded s) (cwd : Path) (mode : PermissionMode)
    (hkeep : (handleSessionCreate s cwd mode).1.sessions.get id = none → s.sessions.get id = none) :
    Houses id s (handleSessionCreate s cwd mode).1 := by
  have hclaim : Houses id s (claimPendingLaunch s cwd mode).1 := by
    have hrow := congrArg Chan.row (handleSessionCreate_moves hg.timers cwd mode id)
    simp only [observeCreate] at hrow
    rw [claimPendingLaunch_eq]
    cases hm : matched s cwd mode with
    | none => exact .refl id s
    | some claimed =>
      have hconsume : Houses id s (consumePendingLaunch s claimed.sessionId).1 :=
        consumePendingLaunch_houses s claimed.sessionId
      simp only [hm] at hrow ⊢
      by_cases hamb : claimed.ambiguous = true
      · simp only [hamb, if_true] at hrow ⊢
        have hne : id ≠ claimed.sessionId := by
          intro hid
          rw [if_pos hid] at hrow
          have hpending : s.pendingLaunches.has id = true :=
            OrdMap.has_eq_true.mpr ⟨claimed, hid ▸ (matched_spec hg.timers hm).1⟩
          obtain ⟨row, hs, -⟩ := (hg.ok id).placeholder hpending
          cases (hkeep hrow).symm.trans hs
        exact { hconsume.trans (dropPlaceholder_houses hne) with }
      · simp only [hamb]
        exact hconsume
  obtain ⟨_, _, _, _, _, heq⟩ := claimPendingLaunch_writes s cwd mode
  have hcreate := (hclaim.trans (.mint id _ (n := s.next + 1) (by rw [heq]; exact Nat.le_succ _))).trans
    (.store id _ ((claimPendingLaunch s cwd mode).2.getD s.next)
      (createSession ((claimPendingLaunch s cwd mode).2.getD s.next) mode s.now))
  exact { hcreate with said := fun res => (closedSent_quiet rfl _).trans (hcreate.said res) }

/-! ## A turn -/

/-- Without a row, no channel. -/
theorem channel_of_rowless {s : ServerState} (hg : Grounded s) (hrow : s.sessions.get id = none) :
    s.workerChannels.get id = none := by
  cases hr : s.workerChannels.get id with
  | none => rfl
  | some r => cases ((hg.ok id).rowless hrow).2.1.symm.trans (link_of_current hr)

/-- A reading that settles takes no row but by concluding a stop, and a stop concluded late finds the row gone and its
    channel with it. -/
theorem livenessSettled_houses {s : ServerState} (hg : Grounded s) (op : OpId) (reading : Reading)
    (hkeep : (livenessSettled s op reading).1.sessions.get id = none → s.sessions.get id = none) :
    Houses id s (livenessSettled s op reading).1 := by
  have hconcluded : ∀ sessionId outcome,
      ((concludeStop (s.finish op) sessionId outcome).1.sessions.get id = none → s.sessions.get id = none) →
        Houses id s (concludeStop (s.finish op) sessionId outcome).1 := by
    intro sessionId outcome hkeep
    have hfinish : Houses id s (s.finish op) := { Houses.refl id s with }
    by_cases hne : id = sessionId
    · subst hne
      rw [concludeStop_sessions] at hkeep
      have hrow := hkeep (OrdMap.get_erase_self _ _)
      have hchannel := channel_of_rowless hg hrow
      exact hfinish.trans (concludeStop_late (s := s.finish op) hrow hchannel outcome)
    · exact hfinish.trans (concludeStop_houses hne outcome)
  have hclose : ∀ surface at_, Houses id s ((s.emit (.closeSurface surface op)).park op at_) :=
    fun _ _ => { Houses.refl id s with said := fun _ => closedSent_quiet rfl _ }
  unfold livenessSettled at hkeep ⊢
  cases hop : s.ops.get op with
  | none => exact .refl id s
  | some parked =>
    rw [hop] at hkeep
    cases parked with
    | evictReading sessionId launched =>
      simp only [evictRead]
      split
      · exact { Houses.refl id s with }
      · exact { Houses.refl id s with }
      · exact hclose _ _
    | stopReading sessionId launched force =>
      simp only [stopRead] at hkeep ⊢
      split
      · exact { Houses.refl id s with }
      · rename_i hd
        rw [hd] at hkeep
        exact hconcluded sessionId _ hkeep
      · exact hclose _ _
    | stopVerdict sessionId launched force liveness =>
      simp only [stopConfirmed] at hkeep ⊢
      split
      · exact { Houses.refl id s with }
      · rename_i hu
        rw [if_neg hu] at hkeep
        exact hconcluded sessionId _ hkeep
    | releaseReading launched =>
      simp only [releaseRead]
      split
      · exact hclose _ _
      · exact { Houses.refl id s with }
    | launching _ _ | evictClosing _ _ | stopClosing _ _ _ _ | releaseClosing _ => exact .refl id s

/-- A timer that fires: the two callbacks that may take a row take another session's, or none. -/
theorem fire_houses {s : ServerState} (hg : Grounded s) (t : TimerId)
    (hkeep : (fire s t).sessions.get id = none → s.sessions.get id = none) : Houses id s (fire s t) := by
  have hclear : Houses id s (s.clearTimeout (some t)) :=
    { Houses.refl id s with unarmed := fun _ h => h.cleared (some t) }
  unfold fire at hkeep ⊢
  cases ht : s.timers.get t with
  | none => exact .refl id s
  | some timer =>
    obtain ⟨due, callback⟩ := timer
    have hown := hg.timers.armed.owner_of_get ht
    simp only [ht] at hkeep ⊢
    split
    · exact .refl id s
    · rename_i hdue
      rw [if_neg hdue] at hkeep
      cases callback with
      | writeLivenessFrame r res =>
        refine Houses.trans ?_ (writeLivenessFrame_houses _ r res)
        exact { Houses.refl id s with
          unarmed := fun _ hu => hu.arm (fun r' hr' => hu t _ ht r' hr') _ _ }
      | evictPendingLaunch sessionId =>
        refine hclear.trans (evictPendingLaunch_houses ?_)
        intro heq
        subst heq
        obtain ⟨p, hp, -⟩ := Option.map_eq_some_iff.mp hown
        simp only at hkeep
        rw [evictPendingLaunch_sessions (s := s.clearTimeout (some t)) hp] at hkeep
        obtain ⟨row, hs, -⟩ := (hg.ok id).placeholder (OrdMap.has_eq_true.mpr ⟨p, hp⟩)
        cases (hkeep (OrdMap.get_erase_self _ _)).symm.trans hs
      | considerEviction sessionId r =>
        simp only [owner, Option.ite_none_right_eq_some] at hown
        exact hclear.trans (considerEviction_houses (s := s.clearTimeout (some t)) hown.1.symm hkeep)
      | fireIdleEvent sessionId r => exact hclear.trans (fireIdleEvent_houses _ sessionId r)

theorem shutdown_houses {s : ServerState} (h : TimersOk s) : Houses id s (shutdown s) := by
  have hafter := shutdown_timersOk h
  have hrelays : Houses id s
      { s with eventRelays := s.eventRelays.mapVals fun _ relay => { relay with subscribers := [] } } :=
    relays_houses s fun _ _ => List.nil_sublist _
  obtain ⟨timers, records, streams, responses, ops, next, heq, hrec, hle, -⟩ := shutdown_eq s
  rw [heq] at hafter ⊢
  refine { hrelays with
    unarmed := fun _ hu t timer ht r hr => ?_
    seated := fun hs => (hrelays.seated hs).mono rfl hle
    said := fun res => closedSent_ended _ _ _ _ }
  -- a handle that is still kept was kept before
  have hkept : ∀ k, k.record = some r → owner records OrdMap.empty k = some t →
      owner s.records s.pendingLaunches k = some t := by
    intro k hk hown
    by_cases hin : r ∈ s.workerChannels.values
    · have hhalted := hrec r
      rw [if_pos hin] at hhalted
      cases k with
      | evictPendingLaunch _ => cases hk
      | writeLivenessFrame _ _ | considerEviction _ _ | fireIdleEvent _ _ =>
        cases hk
        simp [owner, hhalted, halted] at hown
    · have hsame := hrec r
      rw [if_neg hin] at hsame
      cases k with
      | evictPendingLaunch _ => cases hk
      | writeLivenessFrame _ _ | considerEviction _ _ | fireIdleEvent _ _ =>
        cases hk
        simpa only [owner, hsame] using hown
  obtain ⟨due, hdue⟩ := h.armed.get_of_owner (hkept timer.callback hr (hafter.armed.owner_of_get ht))
  exact hu t ⟨due, timer.callback⟩ hdue r hr

/-- A turn that takes no row houses the session, a late close apart. -/
theorem houses_step {s : ServerState} (hg : Grounded s) (e : Event)
    (hlate : ∀ res stream, e = .workerStreamClosed res → s.streams.get res = some stream →
      s.workerChannels.get stream.sessionId = none → (s.records stream.record).downstream ≠ some res)
    (hkeep : (step s e).sessions.get id = none → s.sessions.get id = none) : Houses id s (step s e) := by
  cases e with
  | advance ms => exact { Houses.refl id s with }
  | changeDisk fs => exact { Houses.refl id s with }
  | writeHookFile path entry => cases entry <;> exact { Houses.refl id s with }
  | launchSession options hookOk =>
    rcases launchSession_cases s options hookOk with ⟨_, _, _, heq⟩ | ⟨_, _, _, _, heq, hnext, -⟩
    · simp only [step, turn, heq]
      exact .refl id s
    · simp only [step, turn, heq]
      exact { Houses.mint id s (Nat.le_of_lt hnext) with }
  | launchOpened op attachable hint =>
    simp only [step, turn, launchSettled]
    split
    · exact launchOpened_houses s _ _ _ _ _
    · exact .refl id s
  | launchFailed op code message =>
    simp only [step, turn, launchSettled]
    split
    · rw [launchFailed_eq]
      exact { Houses.refl id s with }
    · exact .refl id s
  | sessionCreate terminal cwd mode => exact handleSessionCreate_houses hg cwd mode hkeep
  | stopSession sessionId force =>
    rcases stopSession_cases s sessionId force with ⟨_, _, _, heq⟩ | ⟨_, -, -, heq⟩
    · simp only [step, turn, heq]
      exact .refl id s
    · simp only [step, turn, heq]
      exact { Houses.mint id s (Nat.le_succ s.next) with }
  | livenessSettled op reading => exact livenessSettled_houses hg op reading hkeep
  | closeSettled op fulfilled =>
    simp only [step, turn, closeSettled]
    split
    · exact { Houses.refl id s with }
    · unfold stopClosed
      split <;> exact { Houses.refl id s with }
    · exact { Houses.refl id s with }
    · exact .refl id s
  | fire t => exact fire_houses hg t hkeep
  | workerRegister sessionId => exact handleWorkerRegister_houses s sessionId
  | workerEventsStream sessionId => exact handleWorkerEventsStream_houses hg.timers sessionId
  | workerStreamClosed res => exact closeWorkerStream_houses hg.timers fun stream => hlate res stream rfl
  | workerEvent sessionId workerEpoch entry =>
    simp only [step, turn, handleWorkerEvent]
    cases hr : readWorkerBody s sessionId workerEpoch with
    | none => exact .refl id s
    | some r =>
      refine relayWorkerEvent_houses hg.timers (fun hrow => ?_) r entry
      cases (channel_of_rowless hg hrow).symm.trans (readWorkerBody_some hr).1
  | workerStatus sessionId body => exact handleWorkerStatus_houses hg.timers sessionId body
  | workerHeartbeat sessionId => exact handleWorkerHeartbeat_houses s sessionId
  | uiEventStream sessionId lastEventId => exact handleEventStream_houses s sessionId lastEventId
  | uiStreamClosed sessionId res =>
    refine relays_houses s fun id' relay => ?_
    split
    · exact List.filter_sublist
    · exact List.Sublist.refl _
  | uiCommand sessionId body => exact handleUiCommand_houses s sessionId body
  | injectTurn sessionId prompt =>
    simp only [step, turn]
    cases hp : injectUserTurn s sessionId prompt with
    | none => exact .refl id s
    | some s' => exact pushClientEvent_houses hp
  | shutdown => exact shutdown_houses hg.timers

end Ccctl.Server
