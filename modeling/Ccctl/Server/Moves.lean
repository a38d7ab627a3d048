import Ccctl.Server.Observe
import Ccctl.Server.Onward
/-
  Ccctl.Server.Moves — the server moves every session as `Chan.step` says.

  A handler works on one session. `Elsewhere id s s'` says that all others are as they were, and
  `Moves s s' id act` adds that `id` made the move `act`. From one such lemma for each handler,
  `chan_step`: one turn of the server is one move of each session. With it, what the tables agree
  on in every state reached (`Reachable.ok`), and the rule by which a fact about one session,
  carried by its moves, holds over whole runs of the server (`watched_session`).
-/

namespace Ccctl.Server

open Ccctl.Core Ccctl.Lib ServerState

/-! ## The others -/

/-- All sessions but `id` are as they were. -/
structure Elsewhere (id : SessionId) (s s' : ServerState) : Prop where
  row : ∀ id', id' ≠ id → s'.sessions.get id' = s.sessions.get id'
  pending : ∀ id', id' ≠ id → s'.pendingLaunches.has id' = s.pendingLaunches.has id'
  channel : ∀ id', id' ≠ id → s'.workerChannels.get id' = s.workerChannels.get id'
  record : ∀ r : RecId, r.sessionId ≠ id → s'.records r = s.records r
  question : ∀ id', id' ≠ id → s'.requiresActionEnrichments.get id' = s.requiresActionEnrichments.get id'
  raised : ∀ id', id' ≠ id → raisedTo s'.out id' = raisedTo s.out id'

namespace Elsewhere

variable {id : SessionId} {s s' s'' : ServerState}

theorem refl (id : SessionId) (s : ServerState) : Elsewhere id s s :=
  ⟨fun _ _ => rfl, fun _ _ => rfl, fun _ _ => rfl, fun _ _ => rfl, fun _ _ => rfl, fun _ _ => rfl⟩

theorem trans (h : Elsewhere id s s') (h' : Elsewhere id s' s'') : Elsewhere id s s'' :=
  ⟨fun i hi => (h'.row i hi).trans (h.row i hi), fun i hi => (h'.pending i hi).trans (h.pending i hi),
    fun i hi => (h'.channel i hi).trans (h.channel i hi), fun r hr => (h'.record r hr).trans (h.record r hr),
    fun i hi => (h'.question i hi).trans (h.question i hi), fun i hi => (h'.raised i hi).trans (h.raised i hi)⟩

/-- A session elsewhere is seen as it was: its current record is one of its own. -/
theorem chan (h : Elsewhere id s s') (hnamed : ∀ id r, s.workerChannels.get id = some r → r.sessionId = id)
    {id' : SessionId} (hid : id' ≠ id) : chan s' id' = chan s id' := by
  have hrec : s'.channel id' = s.channel id' := by
    unfold ServerState.channel
    rw [h.channel id' hid]
    cases hr : s.workerChannels.get id' with
    | none => rfl
    | some r =>
      have hne : r.sessionId ≠ id := by
        rw [hnamed id' r hr]
        exact hid
      simp [h.record r hne]
  simp only [Server.chan, h.row id' hid, h.pending id' hid, hrec, h.question id' hid, h.raised id' hid]

/-- Writing the record of one of `id`'s workers. -/
theorem of_record {r : RecId} (hr : r.sessionId = id) (x : WorkerChannelRecord) :
    Elsewhere id s { s with records := Function.update s.records r x } := by
  refine ⟨fun _ _ => rfl, fun _ _ => rfl, fun _ _ => rfl, ?_, fun _ _ => rfl, fun _ _ => rfl⟩
  intro r' hne
  have hrr : r' ≠ r := by
    intro he
    exact hne (he ▸ hr)
  exact Function.update_of_ne hrr _ _

end Elsewhere

/-! ## Moves -/

theorem raisedTo_append (out out' : List Out) (id : SessionId) :
    raisedTo (out ++ out') id = raisedTo out id ++ raisedTo out' id := List.filterMap_append

theorem raisedTo_ended (responses : List Res) (id : SessionId) : raisedTo (responses.map .ended) id = [] := by
  simp [raisedTo, attentionTo, List.filterMap_map, Function.comp_def]

/-- `id` made the move `act`, and no other session moved. -/
structure Moves (s s' : ServerState) (id : SessionId) (act : Act) : Prop where
  elsewhere : Elsewhere id s s'
  chan : chan s' id = (chan s id).step act

theorem Moves.still (s : ServerState) (id : SessionId) : Moves s s id .other := ⟨.refl id s, rfl⟩

/-- A current record carries its session's name. -/
theorem named {s : ServerState} (h : TimersOk s) (id : SessionId) (r : RecId) (hr : s.workerChannels.get id = some r) :
    r.sessionId = id := (h.channel id r hr).1

/-- One move of `id`, seen from any session. -/
theorem Moves.all {s s' : ServerState} {id : SessionId} {act : Act} (h : Moves s s' id act)
    (hnamed : ∀ id r, s.workerChannels.get id = some r → r.sessionId = id) (id' : SessionId) :
    Server.chan s' id' = (Server.chan s id').step (if id = id' then act else .other) := by
  by_cases hid : id = id'
  · rw [if_pos hid, ← hid]
    exact h.chan
  · rw [if_neg hid]
    exact h.elsewhere.chan hnamed (Ne.symm hid)

theorem link_of_current {s : ServerState} {id : SessionId} {r : RecId} (hr : s.workerChannels.get id = some r) :
    (chan s id).link = some (Link.of (s.records r)) := by
  simp [chan, ServerState.channel, hr]

theorem link_none {s : ServerState} {id : SessionId} (hr : s.workerChannels.get id = none) :
    (chan s id).link = none := by
  simp [chan, ServerState.channel, hr]

/-- Writing the record of a worker that is not current. -/
theorem chan_of_other_record {s : ServerState} {id : SessionId} {r : RecId} (hr : s.workerChannels.get id ≠ some r)
    (x : WorkerChannelRecord) : chan { s with records := Function.update s.records r x } id = chan s id := by
  cases hc : s.workerChannels.get id with
  | none => simp [chan, ServerState.channel, hc]
  | some r' =>
    have hne : r' ≠ r := fun he => hr (by rw [hc, he])
    simp [chan, ServerState.channel, hc, Function.update_of_ne hne]

theorem clearIdleTimer_moves {s : ServerState} (h : TimersOk s) {id : SessionId} {r : RecId}
    (hr : s.workerChannels.get id = some r) : Moves s (clearIdleTimer s r) id .steered where
  elsewhere := { Elsewhere.of_record (h.channel id r hr).1 _ with }
  chan := by
    have hlink : (chan (clearIdleTimer s r) id).link = some (Link.of { s.records r with idleTimer := none }) := by
      simp [chan, ServerState.channel, hr]
    refine Chan.ext rfl rfl ?_ rfl rfl
    rw [hlink]
    simp [Chan.step, Chan.mapLink, link_of_current hr, Link.of]

theorem endDownstream_raised (s : ServerState) (r : RecId) (id : SessionId) :
    raisedTo (endDownstream s r).out id = raisedTo s.out id := by
  cases hd : (s.records r).downstream with
  | none => simp [hd]
  | some res => simp [hd, raisedTo, attentionTo]

theorem endDownstream_elsewhere (s : ServerState) {id : SessionId} {r : RecId} (hr : r.sessionId = id) :
    Elsewhere id s (endDownstream s r) :=
  { Elsewhere.of_record hr _ with raised := fun id' _ => endDownstream_raised s r id' }

theorem supersede_elsewhere {s : ServerState} (h : TimersOk s) (id : SessionId) :
    Elsewhere id s (supersede s (s.workerChannels.get id)) := by
  cases hr : s.workerChannels.get id with
  | none => exact .refl id s
  | some r => exact endDownstream_elsewhere s (h.channel id r hr).1

theorem supersede_raised (s : ServerState) (prev : Option RecId) (id : SessionId) :
    raisedTo (supersede s prev).out id = raisedTo s.out id := by
  cases prev with
  | none => rfl
  | some r => exact endDownstream_raised s r id

/-! ## The worker's handlers -/

/-- A registration: the record it supersedes is the session's own, and the fresh one takes its epoch over. -/
theorem handleWorkerRegister_moves {s : ServerState} (h : TimersOk s) (id : SessionId) :
    Moves s (handleWorkerRegister s id).1 id (observe s (.workerRegister id) id) := by
  unfold handleWorkerRegister
  simp only [observe, if_true]
  cases hs : s.sessions.get id with
  | none => exact .still s id
  | some session =>
    simp only
    by_cases hreg : session.status = .registering
    · simp only [if_pos hreg]
      exact .still s id
    · simp only [if_neg hreg]
      have hsup := supersede_elsewhere h id
      have hraised := supersede_raised s (s.workerChannels.get id) id
      obtain ⟨timers, records, streams, out, heq⟩ := supersede_writes s (s.workerChannels.get id)
      rw [heq] at hsup hraised
      simp only [heq]
      refine ⟨?_, ?_⟩
      · refine { hsup with channel := fun id' hid => ?_, record := fun r hr => ?_ }
        · exact OrdMap.get_set_ne _ _ hid
        · have hne : r ≠ ⟨id, s.next⟩ := by
            intro he
            exact hr (by rw [he])
          exact (Function.update_of_ne hne _ _).trans (hsup.record r hr)
      · refine Chan.ext rfl rfl ?_ rfl hraised
        simp only [chan, ServerState.channel, OrdMap.get_set_self, Option.map_some, Function.update_self, Chan.step,
          freshLink, Link.of, freshRecord, Option.map_map]
        rfl

/-- A downstream opened clears the record's timers, the idle check among them. -/
theorem handleWorkerEventsStream_moves {s : ServerState} (h : TimersOk s) (id : SessionId) :
    Moves s (handleWorkerEventsStream s id).1 id (observe s (.workerEventsStream id) id) := by
  unfold handleWorkerEventsStream
  simp only [observe, true_and, OrdMap.has]
  cases hs : s.sessions.get id with
  | none => exact .still s id
  | some session =>
    cases hr : s.workerChannels.get id with
    | none => exact .still s id
    | some r =>
      have hid := (h.channel id r hr).1
      have hend := endDownstream_elsewhere s hid
      refine ⟨?_, ?_⟩
      · refine { hend with row := fun id' hid' => ?_, record := fun r' hr' => ?_ }
        · exact OrdMap.get_set_ne _ _ hid'
        · have hne : r' ≠ r := by
            intro he
            exact hr' (by rw [he, hid])
          simp [Function.update_of_ne hne]
      · refine Chan.ext ?_ rfl ?_ rfl (endDownstream_raised s r id)
        · simp [chan, Chan.step, hs]
        · simp [chan, ServerState.channel, Chan.step, hr, Link.of]

theorem scheduleEviction_chan {s : ServerState} {id : SessionId} {r : RecId} (id' : SessionId) :
    chan (scheduleEviction s id r) id' = chan s id' := by
  refine Chan.ext rfl rfl ?_ rfl rfl
  cases hc : s.workerChannels.get id' with
  | none => simp [chan, ServerState.channel, scheduleEviction, hc]
  | some r' =>
    by_cases hr : r' = r
    · simp [chan, ServerState.channel, scheduleEviction, hc, hr, Link.of]
    · simp [chan, ServerState.channel, scheduleEviction, hc, hr]

theorem scheduleEviction_elsewhere {s : ServerState} {id : SessionId} {r : RecId} (hr : r.sessionId = id) :
    Elsewhere id s (scheduleEviction s id r) :=
  { Elsewhere.of_record hr _ with }

/-- A stream's `close` is the session's move only where the record is current and still holds that response. -/
theorem closeWorkerStream_moves {s : ServerState} (h : TimersOk s) {res : Res} {stream : WorkerStream}
    (hst : s.streams.get res = some stream) :
    Moves s (closeWorkerStream s res) stream.sessionId (observe s (.workerStreamClosed res) stream.sessionId) := by
  have hid := (h.stream res stream hst).1
  unfold closeWorkerStream
  simp only [observe, hst, clearTimeout_records]
  by_cases hd : (s.records stream.record).downstream = some res
  · simp only [hd, if_true, and_true]
    refine ⟨Elsewhere.trans ?_ (scheduleEviction_elsewhere hid), ?_⟩
    · exact { Elsewhere.of_record hid _ with }
    · rw [scheduleEviction_chan]
      by_cases hc : s.workerChannels.get stream.sessionId = some stream.record
      · rw [if_pos hc]
        refine Chan.ext rfl rfl ?_ rfl rfl
        simp [chan, ServerState.channel, Chan.step, Chan.mapLink, hc, Link.of]
      · rw [if_neg hc]
        exact chan_of_other_record hc _
  · simp only [hd, if_false, and_false]
    exact ⟨{ Elsewhere.refl _ s with }, rfl⟩

/-! ## The status legs -/

theorem recordStatusSequence_elsewhere (s : ServerState) {id : SessionId} {r : RecId} (hr : r.sessionId = id)
    (sequence : Option Nat) : Elsewhere id s (recordStatusSequence s r sequence) := by
  rw [recordStatusSequence_eq]
  exact Elsewhere.of_record hr _

theorem reconcileIdleTimer_elsewhere {s : ServerState} {id : SessionId}
    (h : ∀ r, s.workerChannels.get id = some r → r.sessionId = id) (session : Session) :
    Elsewhere id s (reconcileIdleTimer s id session) := by
  unfold reconcileIdleTimer armIdleTimer
  cases hr : s.workerChannels.get id with
  | none => exact .refl id s
  | some r =>
    simp only
    split
    · split
      · exact .refl id s
      · exact { Elsewhere.of_record (h r hr) _ with }
    · exact { Elsewhere.of_record (h r hr) _ with }

/-- The current record's idle timer is armed exactly when the session is idle. -/
theorem reconcileIdleTimer_link {s : ServerState} {id : SessionId} {r : RecId}
    (hr : s.workerChannels.get id = some r) (session : Session) :
    Link.of ((reconcileIdleTimer s id session).records r) =
      { Link.of (s.records r) with idleArmed := decide (session.activity = .idle) } := by
  unfold reconcileIdleTimer armIdleTimer
  simp only [hr]
  by_cases hidle : session.activity = .idle
  · rw [if_pos hidle]
    by_cases harmed : (s.records r).idleTimer = none
    · simp [harmed, hidle, Link.of]
    · simp [harmed, hidle, Link.of, Option.isSome_iff_ne_none.mpr harmed]
  · simp [hidle, Link.of]

/-- The alert of the move from `prev` to `next`, as `reconcileNeedsInput` broadcasts it. -/
def needsInputAlert (s : ServerState) (prev next : Session) : List Attention :=
  if isInputAwaited prev.activity then []
  else
    match next.activity with
    | .requiresAction detail =>
      if isSessionStale next s.now s.config.sessionEvictionGraceMs then [] else [.needsInput detail]
    | _ => []

/-- What a status raises: the one alert, and to its own session only. -/
theorem reconcileNeedsInput_raised (s : ServerState) (id : SessionId) (prev next : Session) (id' : SessionId) :
    raisedTo (reconcileNeedsInput s id prev next).out id' =
      raisedTo s.out id' ++ if id' = id then needsInputAlert s prev next else [] := by
  unfold reconcileNeedsInput needsInputAlert
  by_cases hp : isInputAwaited prev.activity
  · simp [hp]
  · simp only [hp]
    cases hn : next.activity with
    | running => simp
    | idle => simp
    | requiresAction detail =>
      by_cases hstale : isSessionStale next s.now s.config.sessionEvictionGraceMs = true
      · simp [hstale]
      · by_cases hid : id' = id
        · simp [hstale, hid, raisedTo, attentionTo]
        · simp [hstale, hid, raisedTo, attentionTo, Ne.symm hid]

/-- The three legs of a status touch its own session. -/
theorem applied_elsewhere {s : ServerState} {id : SessionId}
    (h : ∀ r, s.workerChannels.get id = some r → r.sessionId = id) (session next : Session) (sequence : Option Nat) :
    Elsewhere id s (applied s id session next sequence) := by
  obtain ⟨files, heq⟩ := applied_eq s id session next sequence
  -- the row is stored before anything is reconciled
  have hidle := reconcileIdleTimer_elsewhere (s := { s with sessions := s.sessions.set id next }) h next
  have hraised := reconcileNeedsInput_raised
    (reconcileIdleTimer { s with sessions := s.sessions.set id next } id next) id session next
  obtain ⟨timers, records, nextId, h1⟩ :=
    reconcileIdleTimer_writes { s with sessions := s.sessions.set id next } id next
  rw [h1] at heq hidle hraised
  obtain ⟨eventRelays, out, h2⟩ := reconcileNeedsInput_writes
    { s with sessions := s.sessions.set id next, timers, records, next := nextId } id session next
  rw [h2] at heq hraised
  rw [heq]
  refine ⟨?_, fun _ _ => rfl, fun _ _ => rfl, hidle.record, ?_, ?_⟩
  · intro id' hid'
    exact OrdMap.get_set_ne _ _ hid'
  · intro id' hid'
    simp only [stored_get, if_neg hid']
    split
    · rfl
    · exact OrdMap.get_erase_ne _ hid'
  · intro id' hid'
    rw [hraised id', if_neg hid', List.append_nil]

/-- A status applied is the session's report, read leg by leg. -/
theorem applied_chan {s : ServerState} {id : SessionId} {r : RecId} (hr : s.workerChannels.get id = some r)
    (session next : Session) (sequence : Option Nat) :
    chan (applied s id session next sequence) id =
      { row := some next
        pending := s.pendingLaunches.has id
        link := some { Link.of (s.records r) with idleArmed := decide (next.activity = .idle) }
        question := (handoff session.activity next.activity (hookCapture s.fs s.hookInstalls s.files id sequence)).or
          (if isInputAwaited next.activity then s.requiresActionEnrichments.get id else none)
        raised := raisedTo s.out id ++ needsInputAlert s session next } := by
  obtain ⟨files, heq⟩ := applied_eq s id session next sequence
  have hlink := reconcileIdleTimer_link (s := { s with sessions := s.sessions.set id next }) hr next
  have hraised := reconcileNeedsInput_raised
    (reconcileIdleTimer { s with sessions := s.sessions.set id next } id next) id session next id
  obtain ⟨timers, records, nextId, h1⟩ :=
    reconcileIdleTimer_writes { s with sessions := s.sessions.set id next } id next
  rw [h1] at heq hlink hraised
  obtain ⟨eventRelays, out, h2⟩ := reconcileNeedsInput_writes
    { s with sessions := s.sessions.set id next, timers, records, next := nextId } id session next
  rw [h2] at heq hraised
  rw [if_pos rfl] at hraised
  rw [heq]
  refine Chan.ext ?_ rfl ?_ ?_ hraised
  · exact OrdMap.get_set_self _ _ _
  · have hcur : (chan { s with sessions := s.sessions.set id next, timers, records, next := nextId } id).link =
        some (Link.of (records r)) := link_of_current hr
    exact hcur.trans (congrArg some hlink)
  · refine (stored_get _ id _ id).trans ?_
    rw [if_pos rfl]
    split
    · rfl
    · rw [OrdMap.get_erase_self]

theorem recordStatusSequence_now (s : ServerState) (r : RecId) (sequence : Option Nat) :
    (recordStatusSequence s r sequence).now = s.now := by
  rw [recordStatusSequence_eq]
  rfl

/-- A report let through, on either leg. -/
theorem report_moves {s : ServerState} (h : TimersOk s) {id : SessionId} {r : RecId} {session : Session}
    (hr : s.workerChannels.get id = some r) (hs : s.sessions.get id = some session) (status : WorkerStatus)
    (detail : Option JsString) {sequence : Option Nat}
    (hfresh : isStaleWorkerStatusSequence sequence (s.records r).highestStatusSeq = false) :
    Moves s (applied (recordStatusSequence s r sequence) id session (applyWorkerStatus session status detail s.now)
      sequence) id (.report (reportOf s id status detail sequence)) := by
  have hid := (h.channel id r hr).1
  have hrec := recordStatusSequence_elsewhere s hid sequence
  have hcur : ∀ r', (recordStatusSequence s r sequence).workerChannels.get id = some r' → r'.sessionId = id := by
    rw [recordStatusSequence_eq]
    exact fun r' hr' => (h.channel id r' hr').1
  have hr' : (recordStatusSequence s r sequence).workerChannels.get id = some r := by
    rw [recordStatusSequence_eq]
    exact hr
  refine ⟨hrec.trans (applied_elsewhere hcur _ _ _), ?_⟩
  have hrow : (chan s id).row = some session := hs
  have hfresh' : (reportOf s id status detail sequence).refused (Link.of (s.records r)) = false := hfresh
  simp only [Chan.step, hrow, link_of_current hr, hfresh', Chan.reported]
  refine (applied_chan hr' _ _ _).trans ?_
  rw [recordStatusSequence_eq, modifyRecord_records, Function.update_self]
  rfl

theorem broadcastWorker_moves (s : ServerState) (id : SessionId) (payload : Json) :
    Moves s (broadcastEvent s id (.worker payload)) id .other := by
  have hraised : ∀ id', raisedTo (broadcastEvent s id (.worker payload)).out id' = raisedTo s.out id' := by
    intro id'
    simp [raisedTo, attentionTo]
  exact ⟨{ Elsewhere.refl id s with raised := fun id' _ => hraised id' }, Chan.ext rfl rfl rfl rfl (hraised id)⟩

theorem bufferInputRequestEnrichment_moves (s : ServerState) (id : SessionId) (payload : Json) :
    Moves s (bufferInputRequestEnrichment s id payload) id
      (match requiresActionEnrichmentFromFrame payload with
        | some q => .asked q
        | none => .other) := by
  rw [bufferInputRequestEnrichment_eq]
  cases hq : requiresActionEnrichmentFromFrame payload with
  | none => exact .still s id
  | some q =>
    refine ⟨{ Elsewhere.refl id s with question := fun id' hid' => OrdMap.get_set_ne _ _ hid' }, ?_⟩
    exact Chan.ext rfl rfl rfl (OrdMap.get_set_self _ _ _) rfl

/-- A move, and then one nobody sees. -/
theorem Moves.then_still {s s' s'' : ServerState} {id : SessionId} {act : Act} (h : Moves s s' id act)
    (h' : Moves s' s'' id .other) : Moves s s'' id act :=
  ⟨h.elsewhere.trans h'.elsewhere, h'.chan.trans h.chan⟩

theorem Moves.still_then {s s' s'' : ServerState} {id : SessionId} {act : Act} (h : Moves s s' id .other)
    (h' : Moves s' s'' id act) : Moves s s'' id act :=
  ⟨h.elsewhere.trans h'.elsewhere, by rw [h'.chan, h.chan]; rfl⟩

/-- A report that was refused, or that finds no row. -/
theorem report_still {s : ServerState} {id : SessionId} {r : RecId} (hr : s.workerChannels.get id = some r)
    {report : Report} (h : (chan s id).row = none ∨
      isStaleWorkerStatusSequence report.sequence (s.records r).highestStatusSeq = true) :
    Moves s s id (.report report) := by
  refine ⟨.refl id s, ?_⟩
  rcases h with hrow | hstale
  · simp only [Chan.step, hrow]
  · have hrefused : report.refused (Link.of (s.records r)) = true := hstale
    cases hrow : (chan s id).row with
    | none => simp only [Chan.step, hrow]
    | some row => simp only [Chan.step, hrow, link_of_current hr, hrefused, if_true]

/-- An entry is a report where it is a fresh status, and else no move. -/
theorem relayWorkerEvent_moves {s : ServerState} (h : TimersOk s) {id : SessionId} {r : RecId}
    (hr : s.workerChannels.get id = some r) (entry : Json) :
    Moves s (relayWorkerEvent s r id entry) id (observeEntry s id entry) := by
  unfold observeEntry
  cases hp : entry.get (js "payload") with
  | none =>
    rw [relayWorkerEvent_none hp]
    exact .still s id
  | some payload =>
    simp only [relayWorkerEvent, hp]
    generalize hf : foldWorkerStatus s r id payload = folded
    have hc := foldWorkerStatus_cases s r id payload
    rw [hf] at hc
    cases hev : workerStatusEvent payload with
    | none =>
      -- not a status: nothing was folded, and the entry may be a question
      have hsame : folded = (s, false) := by
        cases hc with
        | noSession => rfl
        | other => rfl
        | stale hs hstale => simp [workerStatusSequenceFromFrame, hev, isStaleWorkerStatusSequence] at hstale
        | status hs hevent hfresh => simp [hev] at hevent
      subst hsame
      exact (bufferInputRequestEnrichment_moves s id payload).then_still (broadcastWorker_moves _ id payload)
    | some event =>
      obtain ⟨status, body⟩ := event
      have hquiet : ∀ s', Moves s' (broadcastEvent (bufferInputRequestEnrichment s' id payload) id (.worker payload)) id
          .other := by
        intro s'
        have hq := bufferInputRequestEnrichment_moves s' id payload
        rw [question_of_statusEvent hev] at hq
        exact hq.then_still (broadcastWorker_moves _ id payload)
      have hseq : workerStatusSequenceFromFrame payload = asWorkerStatusSequence (body.get (js "sequence_num")) := by
        simp [workerStatusSequenceFromFrame, hev]
      cases hc with
      | noSession hs => exact (report_still hr (Or.inl hs)).then_still (hquiet s)
      | stale hs hstale =>
        rw [hseq] at hstale
        exact report_still hr (Or.inr hstale)
      | other hevent => simp [hev] at hevent
      | status hs hevent hfresh =>
        rw [hev, Option.some.injEq, Prod.mk.injEq] at hevent
        obtain ⟨rfl, rfl⟩ := hevent
        exact (report_moves h hr hs status _ hfresh).then_still (hquiet _)

theorem readWorkerBody_some {s : ServerState} {id : SessionId} {workerEpoch : Option Json} {r : RecId}
    (h : readWorkerBody s id workerEpoch = some r) :
    s.workerChannels.get id = some r ∧ sameEpoch workerEpoch (s.records r).epoch = true := by
  rwa [readWorkerBody, Option.filter_eq_some_iff] at h

theorem handleWorkerEvent_moves {s : ServerState} (h : TimersOk s) (id : SessionId) (workerEpoch : Option Json)
    (entry : Json) :
    Moves s (handleWorkerEvent s id workerEpoch entry) id (observe s (.workerEvent id workerEpoch entry) id) := by
  unfold handleWorkerEvent
  simp only [observe, true_and]
  cases hr : readWorkerBody s id workerEpoch with
  | none => exact .still s id
  | some r => exact relayWorkerEvent_moves h (readWorkerBody_some hr).1 entry

/-- The entries of a `worker/events` body, each an event of its own. -/
def batch (id : SessionId) (body : Json) : List Event :=
  if body.isPlainObject then
    ((Json.asArray (body.get (js "events"))).getD []).map (.workerEvent id (body.get (js "worker_epoch")))
  else []

/-- The handler of a whole batch does what its entries do one after the other. -/
theorem handleWorkerEvents_run (s : ServerState) (id : SessionId) (body : Json) :
    (handleWorkerEvents s id body).1 = runFrom step s (batch id body) := by
  have hturned : ∀ workerEpoch, readWorkerBody s id workerEpoch = none → ∀ entries : List Json,
      runFrom step s (entries.map (.workerEvent id workerEpoch)) = s := by
    intro workerEpoch hr entries
    induction entries with
    | nil => rfl
    | cons entry entries ih =>
      have hstep : step s (.workerEvent id workerEpoch entry) = s := by simp only [step, turn, handleWorkerEvent, hr]
      rw [List.map_cons, runFrom, List.foldl_cons, hstep]
      exact ih
  have hrelayed : ∀ workerEpoch r (entries : List Json) (s : ServerState), readWorkerBody s id workerEpoch = some r →
      entries.foldl (fun s entry => relayWorkerEvent s r id entry) s =
        runFrom step s (entries.map (.workerEvent id workerEpoch)) := by
    intro workerEpoch r entries
    induction entries with
    | nil => exact fun _ _ => rfl
    | cons entry entries ih =>
      intro s hr
      have hstep : step s (.workerEvent id workerEpoch entry) = relayWorkerEvent s r id entry := by
        simp only [step, turn, handleWorkerEvent, hr]
      have hgate := relayWorkerEvent_gate s r id entry
      have hnext : readWorkerBody (relayWorkerEvent s r id entry) id workerEpoch = some r := by
        simp only [readWorkerBody, hgate.1, hgate.2]
        exact hr
      rw [List.foldl_cons, List.map_cons, runFrom, List.foldl_cons, hstep]
      exact ih _ hnext
  unfold handleWorkerEvents batch
  by_cases hobj : body.isPlainObject = true
  · simp only [hobj, if_true]
    cases hr : readWorkerBody s id (body.get (js "worker_epoch")) with
    | none => exact (hturned _ hr _).symm
    | some r =>
      cases hevents : Json.asArray (body.get (js "events")) with
      | none => rfl
      | some events => exact hrelayed _ r events s hr
  · simp only [hobj]
    rfl

/-- Likewise of a status `PUT`. -/
theorem handleWorkerStatus_moves {s : ServerState} (h : TimersOk s) (id : SessionId) (body : Json) :
    Moves s (handleWorkerStatus s id body).1 id (observe s (.workerStatus id body) id) := by
  unfold handleWorkerStatus
  simp only [observe, if_true, observeStatus]
  by_cases hobj : body.isPlainObject = true
  · simp only [hobj, true_and]
    cases hr : readWorkerBody s id (body.get (js "worker_epoch")) with
    | none => exact .still s id
    | some r =>
      have hcur := (readWorkerBody_some hr).1
      simp only [Option.isSome_some, if_true]
      cases hst : asWorkerStatus (body.get (js "worker_status")) with
      | none => exact .still s id
      | some status =>
        simp only
        cases hs : s.sessions.get id with
        | none => exact report_still hcur (Or.inl hs)
        | some session =>
          simp only
          split
          · rename_i hstale
            exact report_still hcur (Or.inr hstale)
          · rename_i hfresh
            rw [recordStatusSequence_now]
            exact report_moves h hcur hs status none (by simpa using hfresh)
  · simp only [hobj]
    exact .still s id

/-- A report finds its row: refused, it changes nothing; let through, it is applied, and broadcast if it is a frame. -/
theorem report_turn {s : ServerState} {e : Event} {id : SessionId} {r : Report} {row : Session}
    (h : observe s e id = .report r) (hrow : s.sessions.get id = some row) :
    ∃ rec, s.workerChannels.get id = some rec ∧
      (isStaleWorkerStatusSequence r.sequence (s.records rec).highestStatusSeq = true → step s e = s) ∧
      (isStaleWorkerStatusSequence r.sequence (s.records rec).highestStatusSeq = false → ∃ eventRelays out, step s e =
        { applied (recordStatusSequence s rec r.sequence) id row (r.row row) r.sequence with eventRelays, out }) := by
  rcases observe_report h with ⟨workerEpoch, entry, rfl⟩ | ⟨body, rfl⟩
  · simp only [observe, true_and] at h
    split at h
    · rename_i hgate
      obtain ⟨rec, hrec⟩ := Option.isSome_iff_exists.mp hgate
      refine ⟨rec, (readWorkerBody_some hrec).1, ?_⟩
      have hstep : step s (.workerEvent id workerEpoch entry) = relayWorkerEvent s rec id entry := by
        simp only [step, turn, handleWorkerEvent, hrec]
      rw [hstep]
      unfold observeEntry at h
      cases hp : entry.get (js "payload") with
      | none =>
        rw [hp] at h
        cases h
      | some payload =>
        simp only [hp] at h
        simp only [relayWorkerEvent, hp]
        cases hev : workerStatusEvent payload with
        | none =>
          simp only [hev] at h
          split at h <;> cases h
        | some event =>
          obtain ⟨status, body⟩ := event
          simp only [hev, Act.report.injEq] at h
          subst h
          have hseq : workerStatusSequenceFromFrame payload =
              asWorkerStatusSequence (body.get (js "sequence_num")) := by
            simp [workerStatusSequenceFromFrame, hev]
          generalize hf : foldWorkerStatus s rec id payload = folded
          have hc := foldWorkerStatus_cases s rec id payload
          rw [hf] at hc
          cases hc with
          | noSession hs => cases hrow.symm.trans hs
          | other hevent => cases hev.symm.trans hevent
          | stale hs hstale =>
            rw [hseq] at hstale
            exact ⟨fun _ => rfl, fun hfresh => by cases hstale.symm.trans hfresh⟩
          | status hs hevent hfresh =>
            cases hrow.symm.trans hs
            rw [hev, Option.some.injEq, Prod.mk.injEq] at hevent
            obtain ⟨rfl, rfl⟩ := hevent
            refine ⟨fun hstale => absurd (hstale.symm.trans hfresh) (by decide), fun _ => ?_⟩
            rw [if_neg Bool.false_ne_true, bufferInputRequestEnrichment_eq, question_of_statusEvent hev]
            exact ⟨_, _, rfl⟩
    · cases h
  · simp only [observe, if_true, observeStatus] at h
    split at h
    · rename_i hgate
      obtain ⟨rec, hrec⟩ := Option.isSome_iff_exists.mp hgate.2
      refine ⟨rec, (readWorkerBody_some hrec).1, ?_⟩
      have hstep : step s (.workerStatus id body) = (handleWorkerStatus s id body).1 := rfl
      rw [hstep]
      simp only [handleWorkerStatus, hgate.1, if_true, hrec]
      cases hst : asWorkerStatus (body.get (js "worker_status")) with
      | none =>
        rw [hst] at h
        cases h
      | some status =>
        simp only [hst, Act.report.injEq] at h
        subst h
        simp only [hrow, recordStatusSequence_now]
        split
        · rename_i hstale
          exact ⟨fun _ => rfl, fun hfresh => by cases hstale.symm.trans hfresh⟩
        · rename_i hfresh
          exact ⟨fun hstale => absurd hstale hfresh, fun _ => ⟨_, _, rfl⟩⟩
    · cases h

theorem handleWorkerHeartbeat_moves (s : ServerState) (id : SessionId) :
    Moves s (handleWorkerHeartbeat s id).1 id (observe s (.workerHeartbeat id) id) := by
  unfold handleWorkerHeartbeat
  simp only [observe, if_true]
  cases hs : s.sessions.get id with
  | none => exact .still s id
  | some session =>
    simp only
    by_cases hreg : session.status = .registering
    · simp only [if_pos hreg]
      exact .still s id
    · simp only [if_neg hreg]
      refine ⟨{ Elsewhere.refl id s with row := fun id' hid' => OrdMap.get_set_ne _ _ hid' }, ?_⟩
      refine Chan.ext ?_ rfl rfl rfl rfl
      simp [chan, Chan.step, hs]

/-! ## What goes down the stream -/

theorem writeClientEventFrame_moves (s : ServerState) {id : SessionId} {r : RecId} (hid : r.sessionId = id)
    (payload : ClientPayload) : Moves s (writeClientEventFrame s r payload) id .other := by
  unfold writeClientEventFrame
  cases hd : (s.records r).downstream with
  | none => exact .still s id
  | some res =>
    have hraised : ∀ id', raisedTo (s.out ++ [.clientEvent res (s.records r).nextSeq payload]) id' =
        raisedTo s.out id' := by
      intro id'
      simp [raisedTo, attentionTo]
    have hrec : chan (s.modifyRecord r fun record => { record with nextSeq := record.nextSeq + 1 }) id = chan s id := by
      by_cases hr : s.workerChannels.get id = some r
      · refine Chan.ext rfl rfl ?_ rfl rfl
        simp [chan, ServerState.channel, hr, Link.of]
      · exact chan_of_other_record hr _
    have helse := Elsewhere.of_record (s := s) hid { s.records r with nextSeq := (s.records r).nextSeq + 1 }
    refine ⟨{ helse with raised := fun id' _ => hraised id' }, ?_⟩
    refine Chan.ext rfl rfl ?_ rfl (hraised id)
    have hlink := congrArg Chan.link hrec
    exact hlink

/-- A frame that went down the stream cleared the idle timer. -/
theorem pushClientEvent_moves {s s' : ServerState} (h : TimersOk s) {id : SessionId} {payload : ClientPayload}
    (hs : pushClientEvent s id payload = some s') : Moves s s' id .steered := by
  unfold pushClientEvent at hs
  cases hr : s.workerChannels.get id with
  | none => simp [hr] at hs
  | some r =>
    simp only [hr] at hs
    split at hs
    · cases hs
    · cases hs
      exact (clearIdleTimer_moves h hr).then_still (writeClientEventFrame_moves _ (h.channel id r hr).1 payload)

theorem mint_moves (s : ServerState) (id : SessionId) (n : Nat) : Moves s { s with next := n } id .other :=
  ⟨{ Elsewhere.refl id s with }, rfl⟩

/-- Steered, and the question consumed. -/
theorem consume_moves {s s' : ServerState} {id : SessionId} (h : Moves s s' id .steered) (echoed : Option Nat) :
    Moves s (consumeInputRequestEnrichment s' id) id (.answered echoed) where
  elsewhere := h.elsewhere.trans
    { Elsewhere.refl id s' with question := fun id' hid' => OrdMap.get_erase_ne _ hid' }
  chan := by
    have hrow := congrArg Chan.row h.chan
    have hpending := congrArg Chan.pending h.chan
    have hlink := congrArg Chan.link h.chan
    have hraised := congrArg Chan.raised h.chan
    exact Chan.ext hrow hpending hlink (OrdMap.get_erase_self _ _) hraised

theorem answerRejection_error {s : ServerState} {id : SessionId} {command : UiCommand} {refusal : Reply}
    (h : answerRejection s id command = some refusal) : ∃ status message, refusal = .error status message := by
  unfold answerRejection at h
  split at h
  · cases h
    exact ⟨_, _, rfl⟩
  · split at h
    · cases h
      exact ⟨_, _, rfl⟩
    · obtain ⟨reason, -, rfl⟩ := Option.map_eq_some_iff.mp h
      exact ⟨_, _, rfl⟩

theorem commandRefusal_error {s : ServerState} {id : SessionId} {command : UiCommand} {refusal : Reply}
    (h : commandRefusal s id command = some refusal) : ∃ status message, refusal = .error status message := by
  unfold commandRefusal at h
  split at h
  · split at h
    · cases h
      exact ⟨_, _, rfl⟩
    · split at h
      · cases h
        exact ⟨_, _, rfl⟩
      · cases h
  · split at h
    · exact answerRejection_error h
    · cases h

/-- An answer that is not refused answers the question the session holds. -/
theorem answerRejection_none {s : ServerState} {id : SessionId} {command : UiCommand}
    (h : answerRejection s id command = none) : ∃ envelope q, answerEnvelopeFromValue command.payload = some envelope ∧
      s.requiresActionEnrichments.get id = some q ∧
      validateAnswerAgainstEnrichment q envelope command.echoed = none := by
  unfold answerRejection at h
  cases he : answerEnvelopeFromValue command.payload with
  | none => simp [he] at h
  | some envelope =>
    cases hq : s.requiresActionEnrichments.get id with
    | none => simp [he, hq] at h
    | some q => exact ⟨envelope, q, rfl, rfl, by simpa [he, hq] using h⟩

/-- A command that is not refused has something to relay. -/
theorem relayedPayload_ne_none {s : ServerState} {id : SessionId} {command : UiCommand}
    (h : commandRefusal s id command = none) (n : Nat) : relayedPayload n command ≠ none := by
  unfold relayedPayload
  by_cases hinput : command.subtype = INPUT_SUBTYPE
  · simp [hinput]
  · by_cases hanswer : command.subtype = ANSWER_SUBTYPE
    · simp only [commandRefusal, if_neg hinput, if_pos hanswer] at h
      obtain ⟨envelope, q, he, -, -⟩ := answerRejection_none h
      simp [if_neg hinput, if_pos hanswer, he]
    · simp [hinput, hanswer]

/-- What a command does: it is relayed, or nothing happens. -/
inductive Commanded (s : ServerState) (id : SessionId) (body : Option Json) : ServerState × Reply → Prop where
  | refused (reply : Reply) (h : ∀ n, reply ≠ .accepted n) : Commanded s id body (s, reply)
  | relayed {command : UiCommand} {payload : ClientPayload} {relayed : ServerState}
      (hparse : parseUiCommand body = some command) (hok : commandRefusal s id command = none)
      (hpush : pushClientEvent { s with next := s.next + 1 } id payload = some relayed) :
      Commanded s id body
        (if command.subtype = ANSWER_SUBTYPE then consumeInputRequestEnrichment relayed id else relayed,
          .accepted s.next)

/-- A command is refused and changes nothing, or its payload was pushed. -/
theorem handleUiCommand_cases (s : ServerState) (id : SessionId) (body : Option Json) :
    Commanded s id body (handleUiCommand s id body) := by
  unfold handleUiCommand
  cases hp : parseUiCommand body with
  | none => exact .refused _ fun n h => by cases h
  | some command =>
    simp only
    split
    · cases hr : commandRefusal s id command with
      | some refusal =>
        obtain ⟨status, message, rfl⟩ := commandRefusal_error hr
        exact .refused _ fun n h => by cases h
      | none =>
        simp only
        cases hrel : relayCommand { s with next := s.next + 1 } id s.next command with
        | none => exact .refused _ fun n h => by cases h
        | some relayed =>
          unfold relayCommand at hrel
          cases hpay : relayedPayload s.next command with
          | some payload =>
            simp only [hpay] at hrel
            exact .relayed hp hr hrel
          | none =>
            -- an answer without an envelope was refused
            exact absurd hpay (relayedPayload_ne_none hr _)
    · exact .refused _ fun n h => by cases h

/-- A command that went down is a steer, an answer a move of its own; a refusal moves nothing. -/
theorem handleUiCommand_moves {s : ServerState} (h : TimersOk s) (id : SessionId) (body : Option Json) :
    Moves s (handleUiCommand s id body).1 id (observe s (.uiCommand id body) id) := by
  have hc := handleUiCommand_cases s id body
  simp only [observe, if_true, observeCommand]
  generalize handleUiCommand s id body = result at hc ⊢
  cases hc with
  | refused reply hne =>
    simp only
    split
    · exact absurd rfl (hne _)
    · exact .still s id
  | relayed hparse hok hpush =>
    rename_i command payload relayed
    have hmint : TimersOk { s with next := s.next + 1 } := h.mono (Nat.le_succ _)
    have hsteer : Moves s relayed id .steered :=
      (mint_moves s id (s.next + 1)).still_then (pushClientEvent_moves hmint hpush)
    simp only [hparse]
    split
    · exact consume_moves hsteer _
    · exact hsteer

/-! ## Launches and their end -/

theorem consumePendingLaunch_elsewhere (s : ServerState) (id : SessionId) :
    Elsewhere id s (consumePendingLaunch s id).1 := by
  unfold consumePendingLaunch
  cases hp : s.pendingLaunches.get id with
  | none => exact .refl id s
  | some p =>
    refine { Elsewhere.refl id s with pending := fun id' hid' => ?_ }
    simp only [OrdMap.has]
    rw [OrdMap.get_erase_ne _ hid']

theorem consumePendingLaunch_chan (s : ServerState) (id : SessionId) :
    chan (consumePendingLaunch s id).1 id = { chan s id with pending := false } := by
  unfold consumePendingLaunch
  cases hp : s.pendingLaunches.get id with
  | none => exact Chan.ext rfl (OrdMap.has_eq_false.mpr hp) rfl rfl rfl
  | some p => exact Chan.ext rfl (OrdMap.has_eq_false.mpr (OrdMap.get_erase_self _ _)) rfl rfl rfl

theorem closeSessionRelay_raised (s : ServerState) (id id' : SessionId) :
    raisedTo (closeSessionRelay s id).out id' = raisedTo s.out id' := by
  rw [closeSessionRelay_out, raisedTo_append, raisedTo_ended, List.append_nil]

theorem dropPlaceholder_elsewhere (s : ServerState) (id : SessionId) : Elsewhere id s (dropPlaceholder s id) :=
  { Elsewhere.refl id s with
    row := fun _ hid' => OrdMap.get_erase_ne _ hid'
    raised := fun id' _ => closeSessionRelay_raised { s with sessions := s.sessions.erase id } id id' }

theorem dropPlaceholder_chan (s : ServerState) (id : SessionId) :
    chan (dropPlaceholder s id) id = { chan s id with row := none } :=
  Chan.ext (OrdMap.get_erase_self _ _) rfl rfl rfl
    (closeSessionRelay_raised { s with sessions := s.sessions.erase id } id id)

/-- The placeholder of a pending launch, consumed and dropped. -/
theorem drop_moves (s : ServerState) (id : SessionId) :
    Moves s (dropPlaceholder (consumePendingLaunch s id).1 id) id .dropped where
  elsewhere := (consumePendingLaunch_elsewhere s id).trans (dropPlaceholder_elsewhere _ id)
  chan := by
    rw [dropPlaceholder_chan, consumePendingLaunch_chan]
    rfl

/-- A launch given up drops its placeholder; the reading that may follow moves no session. -/
theorem evictPendingLaunch_moves {s : ServerState} {id : SessionId} {p : PendingLaunch}
    (hp : s.pendingLaunches.get id = some p) : Moves s (evictPendingLaunch s id) id .dropped := by
  have hdrop := drop_moves s id
  rcases evictPendingLaunch_cases s id with ⟨hnone, -⟩ | ⟨_, -, ⟨-, heq⟩ | ⟨-, heq⟩⟩
  · cases hnone.symm.trans hp
  · rw [heq]
    exact hdrop
  · rw [heq]
    refine hdrop.then_still ⟨?_, rfl⟩
    exact { Elsewhere.refl id (dropPlaceholder (consumePendingLaunch s id).1 id) with }

/-- Marking entries of the pending table shows in no session. -/
theorem chan_remarked (s : ServerState) (f : SessionId → PendingLaunch → PendingLaunch) (id : SessionId) :
    chan { s with pendingLaunches := s.pendingLaunches.mapVals f } id = chan s id := by
  refine Chan.ext rfl ?_ rfl rfl rfl
  simp [chan, OrdMap.has, OrdMap.get_mapVals]

theorem raisedTo_closed (out : List Out) (id : SessionId) (n : Nat) (status : SessionStatus) (subscribers : List Res)
    (id' : SessionId) :
    raisedTo (out ++ .broadcast id n (.closed id status) subscribers :: subscribers.map .ended) id' =
      raisedTo out id' := by
  have hclosed : attentionTo id' (.broadcast id n (.closed id status) subscribers) = none := rfl
  rw [raisedTo_append]
  have hended := raisedTo_ended subscribers id'
  simp only [raisedTo, List.filterMap_cons, hclosed] at hended ⊢
  rw [hended, List.append_nil]

theorem closeSession_elsewhere (s : ServerState) (id : SessionId) : Elsewhere id s (closeSession s id).1 := by
  cases hs : s.sessions.get id with
  | none =>
    simp only [closeSession, hs]
    exact .refl id s
  | some session =>
    obtain ⟨eventRelays, files, heq, -⟩ := closeSession_eq hs
    rw [heq]
    exact { Elsewhere.refl id s with
      row := fun _ hid' => OrdMap.get_erase_ne _ hid'
      question := fun _ hid' => OrdMap.get_erase_ne _ hid'
      raised := fun id' _ => raisedTo_closed _ _ _ _ _ id' }

theorem reapWorkerChannel_elsewhere {s : ServerState} (h : TimersOk s) (id : SessionId) :
    Elsewhere id s (reapWorkerChannel s id) := by
  unfold reapWorkerChannel
  cases hr : s.workerChannels.get id with
  | none => exact .refl id s
  | some r =>
    exact { endDownstream_elsewhere s (h.channel id r hr).1 with channel := fun _ hid' => OrdMap.get_erase_ne _ hid' }

theorem reapWorkerChannel_chan (s : ServerState) (id : SessionId) :
    chan (reapWorkerChannel s id) id = { chan s id with link := none } := by
  unfold reapWorkerChannel
  cases hr : s.workerChannels.get id with
  | none => exact Chan.ext rfl rfl (link_none hr) rfl rfl
  | some r =>
    refine Chan.ext rfl rfl ?_ rfl (endDownstream_raised s r id)
    exact link_none (OrdMap.get_erase_self _ _)

theorem closeSession_chan {s : ServerState} {id : SessionId} {session : Session}
    (hs : s.sessions.get id = some session) :
    chan (closeSession s id).1 id = { chan s id with row := none, question := none } := by
  obtain ⟨eventRelays, files, heq, -⟩ := closeSession_eq hs
  rw [heq]
  exact Chan.ext (OrdMap.get_erase_self _ _) rfl rfl (OrdMap.get_erase_self _ _) (raisedTo_closed _ _ _ _ _ id)

/-- The eviction of a silent worker's session. -/
theorem evict_moves {s : ServerState} (h : TimersOk s) {id : SessionId} {session : Session}
    (hs : s.sessions.get id = some session) (hp : s.pendingLaunches.has id = false) :
    Moves s (reapWorkerChannel (closeSession s id).1 id) id .ended where
  elsewhere := (closeSession_elsewhere s id).trans (reapWorkerChannel_elsewhere (closeSession_timersOk h id) id)
  chan := by
    rw [reapWorkerChannel_chan, closeSession_chan hs]
    exact Chan.ext rfl hp rfl rfl rfl

/-- The end of a stop, of a session that may be gone already. -/
theorem concludeStop_moves {s : ServerState} (h : TimersOk s) {id : SessionId} (hok : (chan s id).Ok s.closed)
    (outcome : String) : Moves s (concludeStop s id outcome).1 id .ended := by
  rw [concludeStop_fst]
  have h0 : TimersOk { s with launchedSurfaces := s.launchedSurfaces.erase id } := h
  have h1 := consumePendingLaunch_timersOk h0 id
  have hconsume := consumePendingLaunch_elsewhere { s with launchedSurfaces := s.launchedSurfaces.erase id } id
  have hchan := consumePendingLaunch_chan { s with launchedSurfaces := s.launchedSurfaces.erase id } id
  generalize (consumePendingLaunch { s with launchedSurfaces := s.launchedSurfaces.erase id } id).1 = s₁ at *
  have hreap := reapWorkerChannel_elsewhere h1 id
  have hgone := reapWorkerChannel_chan s₁ id
  generalize reapWorkerChannel s₁ id = s₂ at *
  have hbefore : chan s₂ id = { chan s id with pending := false, link := none } := by
    rw [hgone, hchan]
    rfl
  refine ⟨?_, ?_⟩
  · exact { hconsume.trans (hreap.trans (closeSession_elsewhere s₂ id)) with }
  · cases hs : s₂.sessions.get id with
    | some session =>
      rw [closeSession_chan hs, hbefore]
      rfl
    | none =>
      have hrow : (chan s id).row = none := by
        have hrow₂ := congrArg Chan.row hbefore
        exact hrow₂.symm.trans hs
      obtain ⟨-, -, hq⟩ := hok.rowless hrow
      simp only [closeSession, hs]
      rw [hbefore]
      exact Chan.ext hrow rfl rfl hq rfl

/-! ## Timers -/

theorem clearTimeout_moves (s : ServerState) (t : Option TimerId) (id : SessionId) :
    Moves s (s.clearTimeout t) id .other := ⟨{ Elsewhere.refl id s with }, rfl⟩

theorem modifyEviction_moves (s : ServerState) {id : SessionId} {r : RecId} (hid : r.sessionId = id)
    (x : Option TimerId) : Moves s (s.modifyRecord r fun record => { record with evictionTimer := x }) id .other := by
  refine ⟨Elsewhere.of_record hid _, ?_⟩
  by_cases hr : s.workerChannels.get id = some r
  · refine Chan.ext rfl rfl ?_ rfl rfl
    simp [chan, ServerState.channel, hr, Link.of, Chan.step]
  · exact chan_of_other_record hr _

/-- An eviction check ends the session when it is stale, and only where the record is current and disconnected. -/
theorem considerEviction_moves {s : ServerState} {r : RecId} (h : TimersOk s)
    (hn : (s.records r).evictionTimer = none) (hok : (chan s r.sessionId).Ok s.closed) :
    Moves s (considerEviction s r.sessionId r) r.sessionId
      (if s.workerChannels.get r.sessionId = some r ∧ (s.records r).downstream = none then
        match s.sessions.get r.sessionId with
        | none => .other
        | some session => if isSessionStale session s.now s.config.sessionEvictionGraceMs then .ended else .other
      else .other) := by
  have hsame : s.modifyRecord r (fun record => { record with evictionTimer := none }) = s := by
    simp [modifyRecord, ← hn]
  unfold considerEviction
  simp only [hsame]
  by_cases hc : s.workerChannels.get r.sessionId = some r
  · by_cases hd : (s.records r).downstream = none
    · simp only [hc, hd, not_true_eq_false, if_false, if_true, and_self, ne_eq]
      cases hs : s.sessions.get r.sessionId with
      | none => exact .still s _
      | some session =>
        simp only
        split
        · refine evict_moves h hs ?_
          -- a session with a worker has no launch pending
          rw [Bool.eq_false_iff]
          intro hp
          have hl := hok.no_link hp
          rw [link_of_current hc] at hl
          cases hl
        · exact ⟨scheduleEviction_elsewhere rfl, scheduleEviction_chan _⟩
    · simp only [hc, hd, not_true_eq_false, if_false, if_true, and_false, ne_eq, not_false_eq_true]
      exact .still s _
  · simp only [hc, if_false, if_true, false_and, ne_eq, not_false_eq_true]
    exact .still s _

/-- The idle check clears the timer and nudges, where the record is current and the session still idle and not stale. -/
theorem fireIdleEvent_moves (s : ServerState) {id : SessionId} {r : RecId} (hid : r.sessionId = id) :
    Moves s (fireIdleEvent s id r) id
      (if s.workerChannels.get id = some r then
        .idleFired s.now s.config.sessionEvictionGraceMs s.config.sessionIdleThresholdMs
      else .other) := by
  have helse := Elsewhere.of_record (s := s) hid { s.records r with idleTimer := none }
  unfold fireIdleEvent
  by_cases hc : s.workerChannels.get id = some r
  · have hlink : (chan (s.modifyRecord r fun record => { record with idleTimer := none }) id) =
        (chan s id).mapLink fun link => { link with idleArmed := false } := by
      refine Chan.ext rfl rfl ?_ rfl rfl
      simp [chan, ServerState.channel, hc, Link.of, Chan.mapLink]
    rw [if_pos hc]
    simp only [modifyRecord_workerChannels, hc, ne_eq, not_true_eq_false, if_false, modifyRecord_sessions,
      modifyRecord_now, modifyRecord_config]
    -- each early return is a check that raises nothing
    have hquiet : idleAlert (s.sessions.get id) s.now s.config.sessionEvictionGraceMs
        s.config.sessionIdleThresholdMs = [] →
        Moves s (s.modifyRecord r fun record => { record with idleTimer := none }) id
          (.idleFired s.now s.config.sessionEvictionGraceMs s.config.sessionIdleThresholdMs) := by
      intro hnone
      refine ⟨helse, hlink.trans ?_⟩
      refine Chan.ext rfl rfl rfl rfl ?_
      exact (List.append_nil _).symm.trans (congrArg _ hnone.symm)
    cases hs : s.sessions.get id with
    | none => exact hquiet (by rw [hs]; rfl)
    | some session =>
      simp only
      by_cases hidle : session.activity = .idle
      · by_cases hstale : isSessionStale session s.now s.config.sessionEvictionGraceMs = true
        · simp only [hidle, not_true_eq_false, if_false, hstale, if_true]
          exact hquiet (by simp [hs, idleAlert, hstale])
        · simp only [hidle, not_true_eq_false, if_false, hstale]
          refine ⟨helse.trans { Elsewhere.refl id _ with raised := fun id' hid' => ?_ }, ?_⟩
          · simp [raisedTo, attentionTo, Ne.symm hid']
          · refine Chan.ext rfl rfl ?_ rfl ?_
            · have hl := congrArg Chan.link hlink
              exact hl
            · have halert : idleAlert (s.sessions.get id) s.now s.config.sessionEvictionGraceMs
                  s.config.sessionIdleThresholdMs = [.idle s.config.sessionIdleThresholdMs] := by
                simp [hs, idleAlert, hidle, hstale]
              have hraised : raisedTo (s.out ++ [.broadcast id (relayFor s id).nextEventId
                  (.idle id s.config.sessionIdleThresholdMs) (relayFor s id).subscribers]) id =
                  raisedTo s.out id ++ [.idle s.config.sessionIdleThresholdMs] := by
                simp [raisedTo, attentionTo]
              exact hraised.trans (congrArg _ halert.symm)
      · simp only [hidle, not_false_eq_true, if_true]
        exact hquiet (by simp [hs, idleAlert, hidle])
  · rw [if_neg hc]
    simp only [modifyRecord_workerChannels, hc, ne_eq, not_false_eq_true, if_true]
    exact ⟨helse, chan_of_other_record hc _⟩

/-- A timer that fires is one move of the session its callback works on: an armed timer has an owner, and that names
    the session. -/
theorem fire_moves {s : ServerState} (h : TimersOk s) (hok : ∀ id, (chan s id).Ok s.closed) (t : TimerId)
    (id : SessionId) : chan (fire s t) id = (chan s id).step (observeFire s t id) := by
  unfold fire observeFire
  cases ht : s.timers.get t with
  | none => rfl
  | some timer =>
    simp only
    by_cases hdue : s.now < timer.due
    · simp only [if_pos hdue]
      rfl
    · simp only [if_neg hdue]
      obtain ⟨due, callback⟩ := timer
      have hown := h.armed.owner_of_get ht
      cases callback with
      | writeLivenessFrame r res =>
        simp only [writeLivenessFrame]
        split
        · rfl
        · have hmoves := (writeClientEventFrame_moves { s with
            timers := s.timers.set t ⟨due + timeoutDelay s.config.workerLivenessIntervalMs, .writeLivenessFrame r res⟩ }
            (rfl : r.sessionId = r.sessionId) .liveness).all (fun i r' hr => named h i r' hr) id
          rw [ite_self] at hmoves
          exact hmoves
      | evictPendingLaunch sessionId =>
        obtain ⟨p, hp, rfl⟩ := Option.map_eq_some_iff.mp hown
        simp only [evictPendingLaunch_spent hp]
        exact (evictPendingLaunch_moves hp).all (named h) id
      | considerEviction sessionId r =>
        simp only [owner, Option.ite_none_right_eq_some] at hown
        obtain ⟨rfl, he⟩ := hown
        -- the handle is cleared before the check; what the check does is read in the state after
        have hclr := h.clear_eviction r
        rw [he] at hclr
        have hpre := (clearTimeout_moves s (some t) r.sessionId).then_still (modifyEviction_moves _ rfl none)
        have hmoves := hpre.still_then (considerEviction_moves hclr (by simp) (by
          rw [hpre.chan]
          exact hok r.sessionId))
        have hspent := considerEviction_spent (s.clearTimeout (some t)) r.sessionId r
        refine (congrArg (fun s' => chan s' id) hspent.symm).trans ((hmoves.all (named h) id).trans ?_)
        by_cases hid : r.sessionId = id
        · subst hid
          simp only [if_true, true_and, modifyRecord_records, Function.update_self]
          rfl
        · simp only [hid, if_false, false_and]
      | fireIdleEvent sessionId r =>
        simp only [owner, Option.ite_none_right_eq_some] at hown
        obtain ⟨rfl, he⟩ := hown
        have hmoves := ((clearTimeout_moves s (some t) r.sessionId).still_then
          (fireIdleEvent_moves (s.clearTimeout (some t)) rfl)).all (named h) id
        refine hmoves.trans ?_
        by_cases hid : r.sessionId = id
        · subst hid
          simp only [if_true, true_and]
          rfl
        · simp only [hid, if_false, false_and]

/-! ## Readings and launches -/

/-- A reading that settles ends a session only where it concludes a stop. -/
theorem livenessSettled_moves {s : ServerState} (h : TimersOk s) (hok : ∀ id, (chan s id).Ok s.closed) (op : OpId)
    (reading : Reading) (id : SessionId) :
    chan (livenessSettled s op reading).1 id = (chan s id).step (observeReading s op reading id) := by
  unfold livenessSettled observeReading
  have hfinish : TimersOk (s.finish op) := h
  cases hop : s.ops.get op with
  | none => rfl
  | some parked =>
    cases parked with
    | evictReading sessionId launched =>
      simp only [evictRead]
      split
      · rfl
      · rfl
      · refine Chan.ext rfl rfl rfl rfl ?_
        simp [chan, raisedTo, attentionTo, Chan.step]
    | stopReading sessionId launched force =>
      simp only [stopRead]
      split
      · rename_i hd
        simp only [hd, and_false, if_false, reduceCtorEq]
        rfl
      · rename_i hd
        simp only [hd, and_true]
        exact (concludeStop_moves (s := s.finish op) hfinish (hok sessionId) _).all (named h) id
      · rename_i hd
        simp only [hd, and_false, if_false, reduceCtorEq]
        refine Chan.ext rfl rfl rfl rfl ?_
        simp [chan, raisedTo, attentionTo, Chan.step]
    | stopVerdict sessionId launched force liveness =>
      simp only [stopConfirmed]
      split
      · rename_i hu
        simp only [hu, and_false, if_false, Bool.true_eq_false]
        rfl
      · rename_i hu
        rw [Bool.not_eq_true] at hu
        simp only [hu, and_true]
        exact (concludeStop_moves (s := s.finish op) hfinish (hok sessionId) _).all (named h) id
    | releaseReading launched =>
      simp only [releaseRead]
      split
      · refine Chan.ext rfl rfl rfl rfl ?_
        simp [chan, raisedTo, attentionTo, Chan.step]
      · rfl
    | launching options hookInstall => rfl
    | evictClosing sessionId launched => rfl
    | stopClosing sessionId launched force liveness => rfl
    | releaseClosing launched => rfl

/-- Marking a group does not change who is pending. -/
theorem ambiguated_has (pendings : OrdMap SessionId PendingLaunch) (cwd : Path) (mode : PermissionMode)
    (id : SessionId) : (ambiguated pendings cwd mode).has id = pendings.has id := by
  unfold ambiguated
  split
  · rfl
  · simp [OrdMap.has, OrdMap.get_mapVals]

/-- A launch that opened places the new session; who shares its pair becomes ambiguous, which shows in no session. -/
theorem launchOpened_moves (s : ServerState) (op : OpId) (options : SessionLaunchOptions)
    (hookInstall : Option HookInstall) (attachable : Bool) (hint : String) (id : SessionId) :
    chan (launchOpened s op options hookInstall attachable hint).1 id =
      (chan s id).step (if id = s.next then .placed (createRegisteringSession id options.permissionMode s.now)
        else .other) := by
  rw [launchOpened_eq]
  by_cases hid : id = s.next
  · subst hid
    rw [if_pos rfl]
    refine Chan.ext (OrdMap.get_set_self _ _ _) ((ambiguated_has _ _ _ _).trans ?_) rfl rfl rfl
    simp [OrdMap.has, Chan.step]
  · rw [if_neg hid]
    refine Chan.ext (OrdMap.get_set_ne _ _ hid) ((ambiguated_has _ _ _ _).trans ?_) rfl rfl rfl
    simp [chan, OrdMap.has, Chan.step, OrdMap.get_set_ne _ _ hid]

theorem first_named {s : ServerState} (h : TimersOk s) {cwd : Path} {mode : PermissionMode} {p : PendingLaunch}
    (hp : oldestPendingLaunch s cwd mode = some p) : s.pendingLaunches.get p.sessionId = some p := by
  obtain ⟨-, id, hid⟩ := OrdMap.first_spec hp
  rwa [(h.launch id p hid).1]

/-- A registration is matched with a launch pending on its pair. -/
theorem matched_spec {s : ServerState} (h : TimersOk s) {cwd : Path} {mode : PermissionMode} {p : PendingLaunch}
    (hm : matched s cwd mode = some p) :
    s.pendingLaunches.get p.sessionId = some p ∧ p.onPair (canonicalCwd s.fs cwd) mode = true := by
  unfold matched at hm
  split at hm
  · exact ⟨first_named h hm, (OrdMap.first_spec hm).1⟩
  · cases hm

/-- The claim, by what it matched: nothing, an ambiguous launch (its placeholder dropped, its group marked), or the
    launch itself. -/
theorem claimPendingLaunch_eq (s : ServerState) (cwd : Path) (mode : PermissionMode) :
    claimPendingLaunch s cwd mode =
      match matched s cwd mode with
      | none => (s, none)
      | some claimed =>
        if claimed.ambiguous then
          (markGroupMayHoldLiveWorker (dropPlaceholder (consumePendingLaunch s claimed.sessionId).1 claimed.sessionId)
            (canonicalCwd s.fs cwd) claimed.permissionMode, none)
        else ((consumePendingLaunch s claimed.sessionId).1, some claimed.sessionId) := by
  unfold claimPendingLaunch matched
  by_cases habs : isAbsolute cwd = true
  · cases oldestPendingLaunch s (canonicalCwd s.fs cwd) mode with
    | none => simp only [habs, if_true]
    | some claimed => simp only [habs, if_true]
  · simp only [habs, Bool.false_eq_true, if_false]

/-- A registration makes the session `n`. -/
theorem create_chan (s : ServerState) {n : SessionId} (row : Session) (out : List Out)
    (hout : ∀ id, raisedTo out id = raisedTo s.out id) (next : Nat) (id : SessionId) :
    chan { s with next, sessions := s.sessions.set n row, out } id =
      (chan s id).step (if id = n then .created row else .other) := by
  by_cases hid : id = n
  · subst hid
    rw [if_pos rfl]
    exact Chan.ext (OrdMap.get_set_self _ _ _) rfl rfl rfl (hout id)
  · rw [if_neg hid]
    exact Chan.ext (OrdMap.get_set_ne _ _ hid) rfl rfl rfl (hout id)

/-- A registration makes a session, under the id it claimed or a fresh one; an ambiguous claim drops another. -/
theorem handleSessionCreate_moves {s : ServerState} (h : TimersOk s) (cwd : Path) (mode : PermissionMode)
    (id : SessionId) :
    chan (handleSessionCreate s cwd mode).1 id = (chan s id).step (observeCreate s cwd mode id) := by
  have hwork : ∀ (out : List Out) (n id' : SessionId), raisedTo (out ++ [.enqueueWork n]) id' = raisedTo out id' := by
    intro out n id'
    simp [raisedTo, attentionTo]
  unfold handleSessionCreate observeCreate
  rw [claimPendingLaunch_eq]
  cases hm : matched s cwd mode with
  | none =>
    refine (create_chan s _ _ (hwork s.out s.next) _ id).trans ?_
    by_cases hid : id = s.next
    · simp [hid]
    · simp [hid]
  | some claimed =>
    have hget : s.pendingLaunches.get claimed.sessionId = some claimed := (matched_spec h hm).1
    have hlt := (h.launch _ _ hget).2
    by_cases hamb : claimed.ambiguous = true
    · simp only [hamb, if_true, Option.getD_none]
      have hdrop := (drop_moves s claimed.sessionId).all (named h) id
      have hmark := chan_remarked (dropPlaceholder (consumePendingLaunch s claimed.sessionId).1 claimed.sessionId)
        (fun _ pending => if pending.onPair (canonicalCwd s.fs cwd) claimed.permissionMode then
          { pending with mayHoldLiveWorker := true } else pending) id
      refine (create_chan (markGroupMayHoldLiveWorker _ _ _) _ _ (hwork _ s.next) _ id).trans ?_
      rw [show chan (markGroupMayHoldLiveWorker _ _ _) id = _ from hmark.trans hdrop]
      by_cases hid : id = claimed.sessionId
      · have hne : id ≠ s.next := hid ▸ Nat.ne_of_lt hlt
        simp only [hid ▸ hne, hid, if_true, if_false]
        rfl
      · simp only [hid, Ne.symm hid, if_false]
        by_cases hnext : id = s.next
        · simp only [hnext, if_true]
          rfl
        · simp only [hnext, if_false]
          rfl
    · simp only [hamb, Bool.false_eq_true, if_false, Option.getD_some]
      refine (create_chan (consumePendingLaunch s claimed.sessionId).1 _ _ (hwork _ claimed.sessionId) _ id).trans ?_
      by_cases hid : id = claimed.sessionId
      · simp only [hid, if_true, consumePendingLaunch_chan]
        rfl
      · simp only [hid, if_false]
        exact (consumePendingLaunch_elsewhere s claimed.sessionId).chan (named h) hid

/-! ## Shutdown -/

/-- The record after `closeWorkerChannels` went through it. -/
def halted (record : WorkerChannelRecord) : WorkerChannelRecord :=
  { record with downstream := none, livenessTimer := none, evictionTimer := none, idleTimer := none }

theorem closeWorkerChannels_fold (rs : List RecId) (s : ServerState) :
    let s' := rs.foldl
      (fun s r => (endDownstream s r).modifyRecord r fun record => { record with downstream := none }) s
    (∃ timers records streams responses,
      s' = { s with timers, records, streams, out := s.out ++ List.map .ended responses }) ∧
      ∀ r, s'.records r = if r ∈ rs then halted (s.records r) else s.records r := by
  induction rs generalizing s with
  | nil => exact ⟨⟨_, _, _, [], by rw [List.map_nil, List.append_nil]; rfl⟩, fun _ => rfl⟩
  | cons r rs ih =>
    obtain ⟨⟨timers, records, streams, responses, heq⟩, hrec⟩ :=
      ih ((endDownstream s r).modifyRecord r fun record => { record with downstream := none })
    simp only [List.foldl_cons] at *
    refine ⟨⟨timers, records, streams, (s.records r).downstream.toList ++ responses, ?_⟩, ?_⟩
    · rw [heq]
      cases hd : (s.records r).downstream <;> simp [endDownstream, modifyRecord, hd]
    · intro r'
      rw [hrec r']
      by_cases hr : r' = r
      · subst hr
        simp [halted]
      · simp [hr]

theorem startRelease_fold (launches : List LaunchedSession) (s : ServerState) :
    ∃ ops next, launches.foldl startRelease s = { s with ops, next } ∧ s.next ≤ next ∧
      ∀ op at_, ops.get op = some at_ →
        s.ops.get op = some at_ ∨ (∃ launched, at_ = .releaseReading launched) ∧ s.next ≤ op ∧ op < next := by
  induction launches generalizing s with
  | nil => exact ⟨_, _, rfl, Nat.le_refl _, fun _ _ hop => Or.inl hop⟩
  | cons l ls ih =>
    obtain ⟨ops, next, heq, hle, hops⟩ := ih (startRelease s l)
    refine ⟨ops, next, by rw [List.foldl_cons, heq]; rfl, Nat.le_of_succ_le hle, ?_⟩
    intro op at_ hop
    rcases hops op at_ hop with hold | hnew
    · have hset : (s.ops.set s.next (.releaseReading l)).get op = some at_ := hold
      rw [OrdMap.get_set] at hset
      split at hset
      · rename_i hid
        subst hid
        cases hset
        exact Or.inr ⟨⟨l, rfl⟩, Nat.le_refl _, hle⟩
      · exact Or.inl hset
    · obtain ⟨hrelease, hlow, hhigh⟩ := hnew
      exact Or.inr ⟨hrelease, Nat.le_of_succ_le hlow, hhigh⟩

/-- A shutdown ends every stream, disarms every timer kept by a channel or a launch, and starts a release of each
    surface still open. -/
theorem shutdown_eq (s : ServerState) : ∃ timers records streams responses ops next, shutdown s =
    { s with
      eventRelays := s.eventRelays.mapVals fun _ relay => { relay with subscribers := [] }
      timers, records, streams, ops, next
      out := s.out ++ List.map .ended responses
      pendingLaunches := OrdMap.empty, launchedSurfaces := OrdMap.empty
      closed := true } ∧
    (∀ r, records r = if r ∈ s.workerChannels.values then halted (s.records r) else s.records r) ∧ s.next ≤ next ∧
    ∀ op at_, ops.get op = some at_ →
      s.ops.get op = some at_ ∨ (∃ launched, at_ = .releaseReading launched) ∧ s.next ≤ op ∧ op < next := by
  obtain ⟨⟨timers, records, streams, held, heq⟩, hrec⟩ :=
    closeWorkerChannels_fold s.workerChannels.values (closeEventStreams s)
  rw [heq] at hrec
  obtain ⟨responses, hchannels⟩ : ∃ responses, closeWorkerChannels (closeEventStreams s) =
      { closeEventStreams s with timers, records, streams, out := s.out ++ List.map .ended responses } := by
    refine ⟨s.eventRelays.values.flatMap (·.subscribers) ++ held, heq.trans ?_⟩
    simp [List.map_flatMap]
  obtain ⟨ops, next, hrel, hle, hops⟩ := startRelease_fold s.launchedSurfaces.values
    (clearPendingLaunches
      { closeEventStreams s with timers, records, streams, out := s.out ++ List.map .ended responses })
  refine ⟨(clearPendingLaunches { closeEventStreams s with timers, records, streams }).timers, records, streams,
    responses, ops, next, ?_, hrec, hle, hops⟩
  have hsurfaces : (clearPendingLaunches
      { closeEventStreams s with timers, records, streams, out := s.out ++ List.map .ended responses }).launchedSurfaces =
        s.launchedSurfaces := rfl
  unfold shutdown releaseLaunchedSessions
  rw [hchannels]
  simp only [hsurfaces]
  rw [hrel]
  rfl

/-- A shutdown halts every session alike. -/
theorem shutdown_moves (s : ServerState) (id : SessionId) : chan (shutdown s) id = (chan s id).step .halted := by
  obtain ⟨timers, records, streams, responses, ops, next, heq, hrec, -, -⟩ := shutdown_eq s
  have hraised : raisedTo (s.out ++ responses.map .ended) id = raisedTo s.out id := by
    rw [raisedTo_append, raisedTo_ended, List.append_nil]
  rw [heq]
  refine Chan.ext rfl rfl ?_ rfl hraised
  have hchan : ∀ r, s.workerChannels.get id = some r → records r = halted (s.records r) := by
    intro r hr
    have hin := hrec r
    rwa [if_pos (OrdMap.mem_values.mpr ⟨id, hr⟩)] at hin
  cases hr : s.workerChannels.get id with
  | none => simp [chan, ServerState.channel, Chan.step, Chan.mapLink, hr]
  | some r => simp [chan, ServerState.channel, Chan.step, Chan.mapLink, hr, hchan r hr, halted, Link.of]

/-! ## The simulation -/

/-- An event that is an act to one session only. -/
theorem seen_by {s : ServerState} (h : TimersOk s) (e : Event) (sessionId : SessionId)
    (hm : Moves s (step s e) sessionId (observe s e sessionId))
    (hother : ∀ id, sessionId ≠ id → observe s e id = .other) (id : SessionId) :
    chan (step s e) id = (chan s id).step (observe s e id) := by
  by_cases hid : sessionId = id
  · rw [← hid]
    exact hm.chan
  · rw [hother id hid]
    exact hm.elsewhere.chan (named h) (Ne.symm hid)

theorem launchSession_moves (s : ServerState) (options : SessionLaunchOptions) (hookOk : Bool) (id : SessionId) :
    chan (launchSession s options hookOk).1 id = chan s id := by
  rcases launchSession_cases s options hookOk with ⟨_, _, _, heq⟩ | ⟨_, _, _, _, heq, -⟩
  · rw [heq]
  · rw [heq]
    rfl

/-- One turn of the server is one move of each session. -/
theorem chan_step {s : ServerState} (h : TimersOk s) (hok : ∀ id, (chan s id).Ok s.closed) (e : Event)
    (id : SessionId) : chan (step s e) id = (chan s id).step (observe s e id) := by
  cases e with
  | advance ms => rfl
  | changeDisk fs => rfl
  | writeHookFile path entry => cases entry <;> rfl
  | launchSession options hookOk => exact launchSession_moves s options hookOk id
  | launchOpened op attachable hint =>
    simp only [step, turn, launchSettled, observe]
    cases hop : s.ops.get op with
    | none => rfl
    | some parked =>
      cases parked with
      | launching options hookInstall => exact launchOpened_moves s op options hookInstall attachable hint id
      | _ => rfl
  | launchFailed op code message =>
    simp only [step, turn, launchSettled, observe]
    cases hop : s.ops.get op with
    | none => rfl
    | some parked =>
      cases parked with
      | launching options hookInstall => cases hookInstall <;> rfl
      | _ => rfl
  | sessionCreate terminal cwd mode => exact handleSessionCreate_moves h cwd mode id
  | stopSession sessionId force =>
    rcases stopSession_cases s sessionId force with ⟨_, _, _, heq⟩ | ⟨_, -, -, heq⟩
    · simp only [step, turn, heq, observe]
      rfl
    · simp only [step, turn, heq, observe]
      rfl
  | livenessSettled op reading => exact livenessSettled_moves h hok op reading id
  | closeSettled op fulfilled =>
    simp only [step, turn, closeSettled, observe]
    cases hop : s.ops.get op with
    | none => rfl
    | some parked =>
      cases parked with
      | stopClosing sessionId launched force liveness => cases fulfilled <;> rfl
      | _ => rfl
  | fire t => exact fire_moves h hok t id
  | workerRegister sessionId =>
    exact seen_by h (.workerRegister sessionId) sessionId (handleWorkerRegister_moves h sessionId)
      (fun id' hid => by simp only [observe, if_neg hid]) id
  | workerEventsStream sessionId =>
    exact seen_by h (.workerEventsStream sessionId) sessionId (handleWorkerEventsStream_moves h sessionId)
      (fun id' hid => by simp [observe, hid]) id
  | workerStreamClosed res =>
    cases hst : s.streams.get res with
    | none => simp only [step, turn, closeWorkerStream, observe, hst]; rfl
    | some stream =>
      refine seen_by h (.workerStreamClosed res) stream.sessionId (closeWorkerStream_moves h hst) (fun id' hid => ?_) id
      simp only [observe, hst]
      refine if_neg fun hcur => hid ?_
      exact (h.stream res stream hst).1.symm.trans (named h id' stream.record hcur.1)
  | workerEvent sessionId workerEpoch entry =>
    exact seen_by h (.workerEvent sessionId workerEpoch entry) sessionId
      (handleWorkerEvent_moves h sessionId workerEpoch entry) (fun id' hid => by simp [observe, hid]) id
  | workerStatus sessionId body =>
    exact seen_by h (.workerStatus sessionId body) sessionId (handleWorkerStatus_moves h sessionId body)
      (fun id' hid => by simp only [observe, if_neg hid]) id
  | workerHeartbeat sessionId =>
    exact seen_by h (.workerHeartbeat sessionId) sessionId (handleWorkerHeartbeat_moves s sessionId)
      (fun id' hid => by simp only [observe, if_neg hid]) id
  | uiEventStream sessionId lastEventId =>
    simp only [step, turn, handleEventStream, observe]
    split
    · refine Chan.ext rfl rfl rfl rfl ?_
      simp [chan, raisedTo, attentionTo, Chan.step]
    · rfl
  | uiStreamClosed sessionId res => rfl
  | uiCommand sessionId body =>
    exact seen_by h (.uiCommand sessionId body) sessionId (handleUiCommand_moves h sessionId body)
      (fun id' hid => by simp only [observe, if_neg hid]) id
  | injectTurn sessionId prompt =>
    refine seen_by h (.injectTurn sessionId prompt) sessionId ?_ (fun id' hid => by simp [observe, hid]) id
    simp only [step, turn, observe, true_and]
    cases hp : injectUserTurn s sessionId prompt with
    | none => exact .still s sessionId
    | some s' => exact pushClientEvent_moves h hp
  | shutdown => exact shutdown_moves s id

theorem next_le_step (s : ServerState) (e : Event) : s.next ≤ (step s e).next := by
  by_cases he : e = .shutdown
  · subst he
    obtain ⟨timers, records, streams, responses, ops, next, heq, -, hle, -⟩ := shutdown_eq s
    show s.next ≤ (shutdown s).next
    rw [heq]
    exact hle
  · exact (onward_step s e he).next

/-! ## What the handlers checked -/

theorem pushClientEvent_link {s s' : ServerState} {id : SessionId} {payload : ClientPayload}
    (h : pushClientEvent s id payload = some s') : (chan s id).link ≠ none := by
  unfold pushClientEvent at h
  cases hr : s.workerChannels.get id with
  | none => simp [hr] at h
  | some r => simp [link_of_current hr]

theorem readWorkerBody_link {s : ServerState} {id : SessionId} {workerEpoch : Option Json}
    (h : (readWorkerBody s id workerEpoch).isSome = true) : (chan s id).link ≠ none := by
  obtain ⟨r, hr⟩ := Option.isSome_iff_exists.mp h
  simp [link_of_current (readWorkerBody_some hr).1]

theorem observeCreate_enabled {s : ServerState} (h : TimersOk s) (cwd : Path) (mode : PermissionMode)
    (id : SessionId) : (observeCreate s cwd mode id).Enabled (chan s id) := by
  unfold observeCreate
  cases hm : matched s cwd mode with
  | none =>
    simp only
    split
    · exact ⟨rfl, rfl⟩
    · trivial
  | some claimed =>
    have hpending : s.pendingLaunches.has claimed.sessionId = true :=
      OrdMap.has_eq_true.mpr ⟨claimed, (matched_spec h hm).1⟩
    simp only
    split
    · split
      · rename_i hid
        subst hid
        exact hpending
      · split
        · exact ⟨rfl, rfl⟩
        · trivial
    · split
      · rename_i hid
        subst hid
        exact ⟨hpending, rfl, rfl⟩
      · trivial

theorem observeCommand_enabled (s : ServerState) (id : SessionId) (body : Option Json) :
    (observeCommand s id body).Enabled (chan s id) := by
  have hc := handleUiCommand_cases s id body
  unfold observeCommand
  generalize handleUiCommand s id body = result at hc ⊢
  cases hc with
  | refused reply hne =>
    simp only
    split
    · exact absurd rfl (hne _)
    · trivial
  | relayed hparse hok hpush =>
    rename_i command payload relayed
    simp only [hparse]
    split
    · rename_i hanswer
      have hninput : ¬ command.subtype = INPUT_SUBTYPE := by
        rw [hanswer]
        decide
      simp only [commandRefusal, if_neg hninput, if_pos hanswer] at hok
      obtain ⟨envelope, q, -, hq, hval⟩ := answerRejection_none hok
      exact ⟨q, hq, validateAnswer_seq hval⟩
    · have hlink := pushClientEvent_link hpush
      exact hlink

theorem observeFire_enabled {s : ServerState} (h : TimersOk s) (t : TimerId) (id : SessionId) :
    (observeFire s t id).Enabled (chan s id) := by
  unfold observeFire
  cases ht : s.timers.get t with
  | none => trivial
  | some timer =>
    obtain ⟨due, callback⟩ := timer
    have hown := h.armed.owner_of_get ht
    simp only
    split
    · trivial
    · cases callback with
      | writeLivenessFrame r res => trivial
      | evictPendingLaunch sessionId =>
        simp only
        split
        · rename_i hid
          subst hid
          obtain ⟨p, hp, -⟩ := Option.map_eq_some_iff.mp hown
          exact OrdMap.has_eq_true.mpr ⟨p, hp⟩
        · trivial
      | considerEviction sessionId r =>
        simp only
        split
        · split
          · trivial
          · split <;> trivial
        · trivial
      | fireIdleEvent sessionId r =>
        simp only
        split
        · rename_i hcur
          obtain ⟨rfl, hr⟩ := hcur
          simp only [owner, Option.ite_none_right_eq_some] at hown
          exact ⟨_, link_of_current hr, by simp [Link.of, hown.2]⟩
        · trivial

theorem observe_enabled {s : ServerState} (h : TimersOk s) (e : Event) (id : SessionId) :
    (observe s e id).Enabled (chan s id) := by
  cases e with
  | launchOpened op attachable hint =>
    simp only [observe]
    split
    · split
      · exact ⟨rfl, rfl⟩
      · trivial
    · trivial
  | sessionCreate terminal cwd mode => exact observeCreate_enabled h cwd mode id
  | livenessSettled op reading =>
    simp only [observe, observeReading]
    split
    · split <;> trivial
    · split <;> trivial
    · trivial
  | fire t => exact observeFire_enabled h t id
  | workerRegister sessionId =>
    simp only [observe]
    split
    · cases hs : s.sessions.get id with
      | none => trivial
      | some session =>
        simp only
        split
        · trivial
        · rename_i hreg
          exact ⟨session, hs, hreg⟩
    · trivial
  | workerEventsStream sessionId =>
    simp only [observe]
    split
    · rename_i hhas
      obtain ⟨r, hr⟩ := OrdMap.has_eq_true.mp hhas.2.2
      show (chan s id).link ≠ none
      simp [link_of_current hr]
    · trivial
  | workerStreamClosed res =>
    simp only [observe]
    split
    · trivial
    · split
      · rename_i hcur
        show (chan s id).link ≠ none
        simp [link_of_current hcur.1]
      · trivial
  | workerEvent sessionId workerEpoch entry =>
    simp only [observe]
    split
    · rename_i hgate
      have hlink := readWorkerBody_link hgate.2
      unfold observeEntry
      split
      · trivial
      · split
        · exact ⟨hlink, fun q hq => hookCapture_seq hq⟩
        · split
          · exact hlink
          · trivial
    · trivial
  | workerStatus sessionId body =>
    simp only [observe, observeStatus]
    split
    · split
      · rename_i hgate
        have hlink := readWorkerBody_link hgate.2
        split
        · trivial
        · exact ⟨hlink, fun q hq => hookCapture_seq hq⟩
      · trivial
    · trivial
  | workerHeartbeat sessionId =>
    simp only [observe]
    split
    · cases hs : s.sessions.get id with
      | none => trivial
      | some session =>
        simp only
        split <;> trivial
    · trivial
  | uiCommand sessionId body =>
    simp only [observe]
    split
    · exact observeCommand_enabled s id body
    · trivial
  | injectTurn sessionId prompt =>
    simp only [observe]
    split
    · rename_i hpush
      obtain ⟨s', hs'⟩ := Option.isSome_iff_exists.mp hpush.2
      exact pushClientEvent_link hs'
    · trivial
  | _ => trivial

/-- The events that may make a session. -/
def Event.makes : Event → Bool
  | .launchOpened _ _ _ | .sessionCreate _ _ _ => true
  | _ => false

theorem observe_plain {s : ServerState} {e : Event} (id : SessionId) (hs : e ≠ .shutdown) (hm : e.makes = false) :
    (observe s e id).plain = true := by
  cases e with
  | launchOpened op attachable hint => cases hm
  | sessionCreate terminal cwd mode => cases hm
  | shutdown => exact absurd rfl hs
  | livenessSettled op reading =>
    simp only [observe, observeReading]
    repeat' split
    all_goals rfl
  | fire t =>
    simp only [observe, observeFire]
    repeat' split
    all_goals rfl
  | workerEvent sessionId workerEpoch entry =>
    simp only [observe, observeEntry]
    repeat' split
    all_goals rfl
  | workerStatus sessionId body =>
    simp only [observe, observeStatus]
    repeat' split
    all_goals rfl
  | uiCommand sessionId body =>
    simp only [observe, observeCommand]
    repeat' split
    all_goals rfl
  | _ =>
    simp only [observe]
    repeat' split
    all_goals rfl

theorem observe_made {s : ServerState} {e : Event} (id : SessionId) (hm : e.makes = true) :
    observe s e id ≠ .halted := by
  cases e with
  | launchOpened op attachable hint =>
    simp only [observe]
    repeat' split
    all_goals simp
  | sessionCreate terminal cwd mode =>
    simp only [observe, observeCreate]
    repeat' split
    all_goals simp
  | _ => cases hm

/-- A session is born under the id the turn minted. -/
theorem observe_births {s : ServerState} {e : Event} {id : SessionId} (h : (observe s e id).births = true) :
    id = s.next ∧ s.next < (step s e).next := by
  have hs : e ≠ .shutdown := by
    intro heq
    subst heq
    cases h
  have hm : e.makes = true := by
    by_contra hm
    rw [Bool.not_eq_true] at hm
    rw [Act.births_of_plain (observe_plain id hs hm)] at h
    cases h
  cases e with
  | launchOpened op attachable hint =>
    simp only [observe] at h
    split at h
    · rename_i options hookInstall hop
      split at h
      · rename_i hid
        have hon : s.next < (launchOpened s op options hookInstall attachable hint).1.next :=
          (launchOpened_onward s op options hookInstall attachable hint).next
        exact ⟨hid, by simpa [step, turn, launchSettled, hop] using hon⟩
      · cases h
    · cases h
  | sessionCreate terminal cwd mode =>
    refine ⟨?_, (handleSessionCreate_onward s cwd mode).next⟩
    simp only [observe, observeCreate] at h
    split at h
    · split at h
      · assumption
      · cases h
    · split at h
      · split at h
        · cases h
        · split at h
          · assumption
          · cases h
      · split at h <;> cases h
  | _ => cases hm

/-- An id the turn has not minted either. -/
theorem observe_unborn {s : ServerState} {e : Event} {id : SessionId} (hid : (step s e).next ≤ id) :
    (observe s e id).births = false := by
  rw [Bool.eq_false_iff]
  intro hb
  obtain ⟨rfl, hlt⟩ := observe_births hb
  exact absurd hid (Nat.not_le.mpr hlt)

theorem observe_ne_halted {s : ServerState} {e : Event} (id : SessionId) (hs : e ≠ .shutdown) :
    observe s e id ≠ .halted := by
  by_cases hm : e.makes = true
  · exact observe_made id hm
  · rw [Bool.not_eq_true] at hm
    exact Act.ne_halted_of_plain (observe_plain id hs hm)

/-! ## Over whole runs -/

/-- An act that makes nothing of a session that is not there. -/
theorem blank_step {act : Act} (he : act.Enabled .blank) (hb : act.births = false) : Chan.blank.step act = .blank := by
  cases act with
  | created row => cases hb
  | placed row => cases hb
  | claimed row => cases he.1
  | registered =>
    obtain ⟨row, hrow, -⟩ := he
    cases hrow
  | asked q => exact absurd rfl he
  | _ => rfl

/-- What every state reached is known to satisfy. -/
structure Grounded (s : ServerState) : Prop where
  timers : TimersOk s
  ok : ∀ id, (chan s id).Ok s.closed
  /-- No session has an id that was not minted yet. -/
  unminted : ∀ id, s.next ≤ id → chan s id = .blank

/-- A birth finds nothing under its id. -/
theorem Grounded.blank_of_births {s : ServerState} (h : Grounded s) {e : Event} {id : SessionId}
    (hb : (observe s e id).births = true) : chan s id = .blank :=
  h.unminted id (Nat.le_of_eq (observe_births hb).1.symm)

/-- Whatever the turn. -/
theorem Grounded.step {s : ServerState} (h : Grounded s) (e : Event) : Grounded (step s e) := by
  have hmove := chan_step h.timers h.ok e
  refine ⟨handles_step h.timers e, ?_, ?_⟩
  · intro id
    rw [hmove id]
    by_cases hs : e = .shutdown
    · subst hs
      exact (h.ok id).halt
    · rw [(onward_step s e hs).closed]
      refine (h.ok id).step (observe_enabled h.timers e id) (fun hb => ?_) (observe_ne_halted id hs)
      rw [h.blank_of_births hb]
      rfl
  · intro id hid
    have hle := (next_le_step s e).trans hid
    have hb := observe_unborn hid
    have he := observe_enabled h.timers e id
    rw [hmove id, h.unminted id hle] at *
    exact blank_step he hb

theorem startServer_grounded (image : BootImage) : Grounded (startServer image) where
  timers := startServer_timersOk image
  ok id := by
    refine ⟨?_, ?_, ?_, ?_⟩
    · intro h
      cases h
    · intro _ row hrow hs
      exact absurd hs (image.kept id row hrow).1
    · intro h
      exact absurd rfl h
    · intro h
      exact absurd rfl h
  unminted id hid := by
    refine Chan.ext ?_ rfl rfl rfl rfl
    cases hrow : image.sessions.get id with
    | none => exact hrow
    | some row => exact absurd (image.kept id row hrow).2 (Nat.not_lt.mpr hid)

theorem Reachable.grounded {s : ServerState} (h : Reachable s) : Grounded s := by
  refine h.inv ?_ fun s e hs _ => hs.step e
  intro s hex
  obtain ⟨image, rfl⟩ := hex
  exact startServer_grounded image

end Ccctl.Server
