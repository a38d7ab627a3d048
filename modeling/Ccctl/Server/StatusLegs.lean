import Ccctl.Server.WorkerChannel
/-
  Ccctl.Server.StatusLegs — what each part of a status leg writes.

  The parts that keep or drop the pending question are given as equations on the whole state
  (`bufferInputRequestEnrichment_eq`, `reconcileEnrichmentBuffer_eq`, `reconcileHookHandoff_eq`);
  the idle timer and the notification by the fields they may write (`reconcileIdleTimer_writes`,
  `reconcileNeedsInput_writes`). From them, what an applied report does whole (`applied_eq`) and
  all that a fold can do (`foldWorkerStatus_cases`).

  `hookCapture` is the question the hook's file holds for a report's number; `handoff` says that
  only the report that opens a block stores it.
-/

namespace Ccctl.Server

open Ccctl.Core Ccctl.Lib ServerState

/-! ## The pending question -/

/-- The buffer after storing a question, if there is one to store. -/
def stored (buffer : OrdMap SessionId RequiresActionEnrichment) (sessionId : SessionId) :
    Option RequiresActionEnrichment → OrdMap SessionId RequiresActionEnrichment
  | none => buffer
  | some enrichment => buffer.set sessionId enrichment

theorem stored_get (buffer : OrdMap SessionId RequiresActionEnrichment) (id : SessionId)
    (q : Option RequiresActionEnrichment) (id' : SessionId) :
    (stored buffer id q).get id' = if id' = id then q.or (buffer.get id) else buffer.get id' := by
  cases q with
  | none =>
    by_cases h : id' = id
    · simp [stored, h]
    · simp [stored, h]
  | some e => simp [stored, OrdMap.get_set]

theorem fromFrame_object {payload : Json} {q : RequiresActionEnrichment}
    (h : requiresActionEnrichmentFromFrame payload = some q) : payload.isPlainObject = true := by
  cases payload with
  | obj fields => rfl
  | _ => cases h

theorem bufferInputRequestEnrichment_eq (s : ServerState) (id : SessionId) (payload : Json) :
    bufferInputRequestEnrichment s id payload =
      { s with requiresActionEnrichments :=
          stored s.requiresActionEnrichments id (requiresActionEnrichmentFromFrame payload) } := by
  unfold bufferInputRequestEnrichment
  cases hq : requiresActionEnrichmentFromFrame payload with
  | none => split <;> rfl
  | some q =>
    rw [if_pos (fromFrame_object hq)]
    rfl

theorem reconcileEnrichmentBuffer_eq (s : ServerState) (id : SessionId) (next : Session) :
    reconcileEnrichmentBuffer s id next =
      { s with requiresActionEnrichments :=
          if isInputAwaited next.activity then s.requiresActionEnrichments
            else s.requiresActionEnrichments.erase id } := by
  unfold reconcileEnrichmentBuffer
  split <;> rfl

/-- What a hook path holds that can be read as a capture. -/
def capturedQuestions : Option FileEntry → Option Json
  | some (.regular size parsed) => if MAX_HOOK_HANDOFF_BYTES < size then none else parsed.bind extractHandoffQuestions
  | _ => none

/-- The disk answers for the path, to its bytes. -/
def FileSystem.yields (fs : FileSystem) (path : HookFile) : Bool := fs.resolves path && fs.reads path

/-- The hook files after the path was looked at. -/
def consumed (fs : FileSystem) (files : OrdMap HookFile FileEntry) (path : HookFile) : OrdMap HookFile FileEntry :=
  if fs.resolves path then unlinked fs files path else files

theorem consumeHookHandoffQuestions_eq (s : ServerState) (path : HookFile) :
    consumeHookHandoffQuestions s path =
      ({ s with files := consumed s.fs s.files path },
        if s.fs.yields path then capturedQuestions (s.files.get path) else none) := by
  unfold consumeHookHandoffQuestions consumed FileSystem.yields
  cases hf : s.files.get path with
  | none =>
    have hsame : unlinked s.fs s.files path = s.files := by rw [unlinked, OrdMap.erase_of_none hf, ite_self]
    simp only [hsame, capturedQuestions, ite_self]
  | some entry =>
    cases hresolves : s.fs.resolves path with
    | false => rfl
    | true =>
      cases entry with
      | redirect =>
        simp only [capturedQuestions, ite_self]
        rfl
      | regular size parsed =>
        cases hreads : s.fs.reads path with
        | false =>
          simp only [Bool.and_false, Bool.false_eq_true, if_true, if_false, ite_self]
          rfl
        | true =>
          simp only [capturedQuestions, Bool.and_self, if_true]
          split <;> rfl

theorem consumed_get {fs : FileSystem} {files : OrdMap HookFile FileEntry} {path other : HookFile} {entry : FileEntry}
    (h : (consumed fs files path).get other = some entry) : files.get other = some entry := by
  unfold consumed at h
  split at h
  · exact unlinked_get h
  · exact h

theorem consumed_self {fs : FileSystem} {files : OrdMap HookFile FileEntry} {path : HookFile}
    (hresolves : fs.resolves path = true) (hunlinks : fs.unlinks path = true) :
    (consumed fs files path).get path = none := by
  rw [consumed, if_pos hresolves, unlinked_self hunlinks]

/-- The question a hook left for the session, as a report numbered `sequence` would store it. -/
def hookCapture (fs : FileSystem) (hookInstalls : OrdMap SessionId HookInstall) (files : OrdMap HookFile FileEntry)
    (sessionId : SessionId) (sequence : Option Nat) : Option RequiresActionEnrichment :=
  match sequence, hookInstalls.get sessionId with
  | some n, some install =>
    (if fs.yields install.handoffPath then capturedQuestions (files.get install.handoffPath) else none).bind
      fun questions => requiresActionEnrichmentFromFrame (handoffFrame n questions)
  | _, _ => none

/-- The capture is stored by the report that moves the session from `prior` into the block only. -/
def handoff (prior next : SessionActivity) (capture : Option RequiresActionEnrichment) :
    Option RequiresActionEnrichment :=
  if isInputAwaited prior || !isInputAwaited next then none else capture

theorem reconcileHookHandoff_eq (s : ServerState) (id : SessionId) (prior next : Session) (sequence : Option Nat) :
    ∃ files, reconcileHookHandoff s id prior next sequence =
      { s with
        files
        requiresActionEnrichments := stored s.requiresActionEnrichments id
          (handoff prior.activity next.activity (hookCapture s.fs s.hookInstalls s.files id sequence)) } := by
  unfold reconcileHookHandoff handoff hookCapture
  split
  · exact ⟨s.files, rfl⟩
  · cases sequence with
    | none => exact ⟨s.files, rfl⟩
    | some n =>
      cases hi : s.hookInstalls.get id with
      | none => exact ⟨s.files, rfl⟩
      | some install =>
        simp only [consumeHookHandoffQuestions_eq]
        cases hq : if s.fs.yields install.handoffPath then capturedQuestions (s.files.get install.handoffPath)
            else none with
        | none => exact ⟨_, rfl⟩
        | some questions =>
          refine ⟨consumed s.fs s.files install.handoffPath, ?_⟩
          simp only [bufferInputRequestEnrichment_eq]
          rfl

theorem asWorkerStatusSequence_num {n m : Nat} (h : asWorkerStatusSequence (some (.num n)) = some m) : n = m := by
  simp only [asWorkerStatusSequence] at h
  split at h
  · simpa using h
  · cases h

theorem handoffFrame_seq {n : Nat} {questions : Json} {q : RequiresActionEnrichment}
    (h : requiresActionEnrichmentFromFrame (handoffFrame n questions) = some q) : some n = some q.sequenceNum := by
  have hframe : requiresActionEnrichmentFromFrame (handoffFrame n questions) =
      requiresActionEnrichmentFromValue (.obj [(js "sequence_num", .num n), (js "questions", questions)]) := rfl
  rw [hframe] at h
  have hget : Json.get (.obj [(js "sequence_num", .num n), (js "questions", questions)]) (js "sequence_num") =
      some (.num n) := rfl
  have hseq := enrichmentFromValue_seq h
  rw [hget] at hseq
  rw [asWorkerStatusSequence_num hseq]

/-- A capture carries the number of the report that stores it. -/
theorem hookCapture_seq {fs : FileSystem} {hookInstalls : OrdMap SessionId HookInstall} {files : OrdMap HookFile FileEntry}
    {id : SessionId} {sequence : Option Nat} {q : RequiresActionEnrichment}
    (h : hookCapture fs hookInstalls files id sequence = some q) : sequence = some q.sequenceNum := by
  unfold hookCapture at h
  cases sequence with
  | none => cases h
  | some n =>
    cases hi : hookInstalls.get id with
    | none => simp [hi] at h
    | some install =>
      simp only [hi] at h
      obtain ⟨questions, -, hq⟩ := Option.bind_eq_some_iff.mp h
      exact handoffFrame_seq hq

/-! ## What the other parts write -/

theorem reconcileIdleTimer_writes (s : ServerState) (id : SessionId) (session : Session) :
    ∃ timers records next, reconcileIdleTimer s id session = { s with timers, records, next } := by
  unfold reconcileIdleTimer armIdleTimer
  split
  · exact ⟨_, _, _, rfl⟩
  · split
    · split <;> exact ⟨_, _, _, rfl⟩
    · exact ⟨_, _, _, rfl⟩

theorem reconcileIdleTimer_record (s : ServerState) (id : SessionId) (session : Session) (r : RecId) :
    ∃ x, (reconcileIdleTimer s id session).records r = { s.records r with idleTimer := x } := by
  have hsame : ∃ x, s.records r = { s.records r with idleTimer := x } := ⟨(s.records r).idleTimer, rfl⟩
  have hupd : ∀ (r' : RecId) (y : Option TimerId),
      ∃ x, Function.update s.records r' { s.records r' with idleTimer := y } r =
        { s.records r with idleTimer := x } := by
    intro r' y
    by_cases hr : r = r'
    · subst hr
      exact ⟨y, by rw [Function.update_self]⟩
    · rw [Function.update_of_ne hr]
      exact hsame
  unfold reconcileIdleTimer armIdleTimer
  split
  · exact hsame
  · split
    · split
      · exact hsame
      · exact hupd _ _
    · exact hupd _ _

theorem reconcileNeedsInput_writes (s : ServerState) (id : SessionId) (prev next : Session) :
    ∃ eventRelays out, reconcileNeedsInput s id prev next = { s with eventRelays, out } := by
  unfold reconcileNeedsInput
  split
  · exact ⟨_, _, rfl⟩
  · split
    · split <;> exact ⟨_, _, rfl⟩
    · exact ⟨_, _, rfl⟩

/-- The ordering mark after a frame that was applied. -/
def advanced (sequence highest : Option Nat) : Option Nat :=
  match sequence, highest with
  | some n, none => some n
  | some n, some h => if h < n then some n else some h
  | none, h => h

theorem recordStatusSequence_eq (s : ServerState) (r : RecId) (sequence : Option Nat) :
    recordStatusSequence s r sequence = s.modifyRecord r fun record =>
      { record with highestStatusSeq := advanced sequence (s.records r).highestStatusSeq } := by
  have hsame : ∀ h, (s.records r).highestStatusSeq = h →
      s = s.modifyRecord r fun record => { record with highestStatusSeq := h } := by
    intro h heq
    subst heq
    simp [modifyRecord]
  unfold recordStatusSequence
  cases sequence with
  | none => exact hsame _ rfl
  | some n =>
    cases hh : (s.records r).highestStatusSeq with
    | none => rfl
    | some h =>
      simp only [advanced]
      split
      · rfl
      · exact hsame _ hh

/-- The mark never goes back. -/
theorem advanced_le {sequence highest : Option Nat} {h : Nat} (hh : highest = some h) :
    ∃ h', advanced sequence highest = some h' ∧ h ≤ h' := by
  subst hh
  cases sequence with
  | none => exact ⟨h, rfl, Nat.le_refl h⟩
  | some n =>
    simp only [advanced]
    split
    · exact ⟨n, rfl, by omega⟩
    · exact ⟨h, rfl, Nat.le_refl h⟩

/-- A frame that is not stale brings the mark to its own number. -/
theorem advanced_fresh {sequence highest : Option Nat} {n : Nat}
    (h : isStaleWorkerStatusSequence sequence highest = false) (hn : sequence = some n) :
    advanced sequence highest = some n ∧ ∀ m, highest = some m → m ≤ n := by
  subst hn
  cases highest with
  | none => exact ⟨rfl, fun m hm => by cases hm⟩
  | some m =>
    have hle : m ≤ n := by simpa [isStaleWorkerStatusSequence] using h
    refine ⟨?_, fun m' hm' => by cases hm'; exact hle⟩
    simp only [advanced]
    split
    · rfl
    · rw [Option.some.injEq]
      omega

/-! ## The legs whole -/

theorem applied_eq (s : ServerState) (id : SessionId) (session next : Session) (sequence : Option Nat) :
    ∃ files, applied s id session next sequence =
      { reconcileNeedsInput (reconcileIdleTimer { s with sessions := s.sessions.set id next } id next) id session next with
        files
        requiresActionEnrichments := stored
          (if isInputAwaited next.activity then s.requiresActionEnrichments else s.requiresActionEnrichments.erase id)
          id (handoff session.activity next.activity (hookCapture s.fs s.hookInstalls s.files id sequence)) } := by
  unfold applied
  obtain ⟨timers, records, nextId, h1⟩ :=
    reconcileIdleTimer_writes { s with sessions := s.sessions.set id next } id next
  obtain ⟨eventRelays, out, h2⟩ := reconcileNeedsInput_writes
    { s with sessions := s.sessions.set id next, timers, records, next := nextId } id session next
  simp only [h1, h2, reconcileEnrichmentBuffer_eq]
  generalize hb : (if isInputAwaited next.activity then s.requiresActionEnrichments
    else s.requiresActionEnrichments.erase id) = buffer
  obtain ⟨files, h3⟩ := reconcileHookHandoff_eq
    { s with sessions := s.sessions.set id next, timers, records, next := nextId, eventRelays, out
             requiresActionEnrichments := buffer } id session next sequence
  exact ⟨files, h3⟩

theorem applied_writes (s : ServerState) (id : SessionId) (session next : Session) (sequence : Option Nat) :
    ∃ timers records nextId eventRelays out files enrichments, applied s id session next sequence =
      { s with
        timers, records, next := nextId, eventRelays, out, files
        sessions := s.sessions.set id next
        requiresActionEnrichments := enrichments } := by
  obtain ⟨files, h⟩ := applied_eq s id session next sequence
  obtain ⟨timers, records, nextId, h1⟩ :=
    reconcileIdleTimer_writes { s with sessions := s.sessions.set id next } id next
  obtain ⟨eventRelays, out, h2⟩ := reconcileNeedsInput_writes
    { s with sessions := s.sessions.set id next, timers, records, next := nextId } id session next
  rw [h, h1, h2]
  exact ⟨_, _, _, _, _, _, _, rfl⟩

/-- Of a record, an applied report writes the idle timer's handle only. -/
theorem applied_record (s : ServerState) (id : SessionId) (session next : Session) (sequence : Option Nat) (r : RecId) :
    ∃ x, (applied s id session next sequence).records r = { s.records r with idleTimer := x } := by
  obtain ⟨files, h⟩ := applied_eq s id session next sequence
  obtain ⟨eventRelays, out, h2⟩ := reconcileNeedsInput_writes
    (reconcileIdleTimer { s with sessions := s.sessions.set id next } id next) id session next
  rw [h, h2]
  exact reconcileIdleTimer_record { s with sessions := s.sessions.set id next } id next r

/-- Refused, not a status, or applied: all a fold does. -/
inductive Folded (s : ServerState) (r : RecId) (id : SessionId) (payload : Json) : ServerState × Bool → Prop where
  | noSession (h : s.sessions.get id = none) : Folded s r id payload (s, false)
  | stale {session : Session} (h : s.sessions.get id = some session)
      (hstale : isStaleWorkerStatusSequence (workerStatusSequenceFromFrame payload) (s.records r).highestStatusSeq) :
      Folded s r id payload (s, true)
  | other (h : workerStatusEvent payload = none) : Folded s r id payload (s, false)
  | status {session : Session} {workerStatus : WorkerStatus} {body : Json} (h : s.sessions.get id = some session)
      (hevent : workerStatusEvent payload = some (workerStatus, body))
      (hfresh : isStaleWorkerStatusSequence (asWorkerStatusSequence (body.get (js "sequence_num")))
        (s.records r).highestStatusSeq = false) :
      Folded s r id payload
        (applied (recordStatusSequence s r (asWorkerStatusSequence (body.get (js "sequence_num")))) id session
          (applyWorkerStatus session workerStatus (Json.asString (body.get (js "detail"))) s.now)
          (asWorkerStatusSequence (body.get (js "sequence_num"))), false)

theorem workerStatusEvent_object {payload : Json} (h : payload.isPlainObject = false) :
    workerStatusEvent payload = none := by
  cases payload with
  | obj fields => cases h
  | _ => rfl

theorem foldWorkerStatus_cases (s : ServerState) (r : RecId) (id : SessionId) (payload : Json) :
    Folded s r id payload (foldWorkerStatus s r id payload) := by
  unfold foldWorkerStatus
  split
  · cases hs : s.sessions.get id with
    | none => exact .noSession hs
    | some session =>
      simp only
      split
      · exact .stale hs ‹_›
      · rename_i hfresh
        rw [Bool.not_eq_true] at hfresh
        cases hev : workerStatusEvent payload with
        | none =>
          have hseq : workerStatusSequenceFromFrame payload = none := by simp [workerStatusSequenceFromFrame, hev]
          simp only [applyWorkerStatusFrame, hev, hseq, recordStatusSequence]
          exact .other hev
        | some ev =>
          obtain ⟨workerStatus, body⟩ := ev
          have hseq : workerStatusSequenceFromFrame payload =
              asWorkerStatusSequence (body.get (js "sequence_num")) := by
            simp [workerStatusSequenceFromFrame, hev]
          have hnow : (recordStatusSequence s r (asWorkerStatusSequence (body.get (js "sequence_num")))).now =
              s.now := by
            rw [recordStatusSequence_eq]
            rfl
          rw [hseq] at hfresh
          simp only [applyWorkerStatusFrame, hev, hseq, hnow]
          exact .status hs hev hfresh
  · rename_i hobj
    exact .other (workerStatusEvent_object (by simpa using hobj))

theorem relayWorkerEvent_none {s : ServerState} {r : RecId} {id : SessionId} {entry : Json}
    (h : entry.get (js "payload") = none) : relayWorkerEvent s r id entry = s := by
  simp [relayWorkerEvent, h]

/-- An entry leaves the channel table, and every record's epoch, as they are. -/
theorem relayWorkerEvent_gate (s : ServerState) (r : RecId) (id : SessionId) (entry : Json) :
    (relayWorkerEvent s r id entry).workerChannels = s.workerChannels ∧
      ∀ r', ((relayWorkerEvent s r id entry).records r').epoch = (s.records r').epoch := by
  cases hp : entry.get (js "payload") with
  | none =>
    rw [relayWorkerEvent_none hp]
    exact ⟨rfl, fun _ => rfl⟩
  | some payload =>
    have hfold : (foldWorkerStatus s r id payload).1.workerChannels = s.workerChannels ∧
        ∀ r', ((foldWorkerStatus s r id payload).1.records r').epoch = (s.records r').epoch := by
      generalize hf : foldWorkerStatus s r id payload = folded
      have hc := foldWorkerStatus_cases s r id payload
      rw [hf] at hc
      cases hc with
      | noSession | stale | other => exact ⟨rfl, fun _ => rfl⟩
      | status h hevent hfresh =>
        rename_i session workerStatus body
        generalize asWorkerStatusSequence (body.get (js "sequence_num")) = sequence
        rw [recordStatusSequence_eq]
        constructor
        · obtain ⟨timers, records, nextId, eventRelays, out, files, enrichments, heq⟩ := applied_writes
            (s.modifyRecord r fun record =>
              { record with highestStatusSeq := advanced sequence (s.records r).highestStatusSeq }) id session
            (applyWorkerStatus session workerStatus (Json.asString (body.get (js "detail"))) s.now) sequence
          rw [heq]
          rfl
        · intro r'
          obtain ⟨x, hx⟩ := applied_record
            (s.modifyRecord r fun record =>
              { record with highestStatusSeq := advanced sequence (s.records r).highestStatusSeq }) id session
            (applyWorkerStatus session workerStatus (Json.asString (body.get (js "detail"))) s.now) sequence r'
          rw [hx, modifyRecord_records]
          by_cases hr : r' = r
          · subst hr
            rw [Function.update_self]
          · rw [Function.update_of_ne hr]
    simp only [relayWorkerEvent, hp]
    split
    · exact hfold
    · rw [bufferInputRequestEnrichment_eq]
      exact hfold

end Ccctl.Server
