import Ccctl.Server.Chan
import Ccctl.Server.Step
/-
  Ccctl.Server.Observe — one session in the server's tables, and what an event is to it.

  `chan s id` is the session `id` as the tables of `s` have it, `observe s e id` what the event `e`
  does to it. An event is an act only where the handler lets it be one: a body of a superseded
  epoch, a refused command or a timer that is not due is `.other`.
-/

namespace Ccctl.Server

open Ccctl.Core Ccctl.Lib ServerState

/-! ## One session in the tables -/

def Link.of (record : WorkerChannelRecord) : Link :=
  ⟨record.epoch, record.highestStatusSeq, record.downstream.isSome, record.idleTimer.isSome⟩

/-- The attention an output is to a session, if it is one. -/
def attentionTo (id : SessionId) : Out → Option Attention
  | .broadcast sessionId _ (.needsInput _ detail) _ => if sessionId = id then some (.needsInput detail) else none
  | .broadcast sessionId _ (.idle _ thresholdMs) _ => if sessionId = id then some (.idle thresholdMs) else none
  | _ => none

def raisedTo (out : List Out) (id : SessionId) : List Attention := out.filterMap (attentionTo id)

def chan (s : ServerState) (id : SessionId) : Chan :=
  { row := s.sessions.get id
    pending := s.pendingLaunches.has id
    link := (s.channel id).map Link.of
    question := s.requiresActionEnrichments.get id
    raised := raisedTo s.out id }

/-! ## What an event is to a session -/

/-- The launch a registration is matched with. -/
def matched (s : ServerState) (cwd : Path) (permissionMode : PermissionMode) : Option PendingLaunch :=
  if isAbsolute cwd then oldestPendingLaunch s (canonicalCwd s.fs cwd) permissionMode else none

def observeCreate (s : ServerState) (cwd : Path) (permissionMode : PermissionMode) (id : SessionId) : Act :=
  match matched s cwd permissionMode with
  | none => if id = s.next then .created (createSession id permissionMode s.now) else .other
  | some claimed =>
    if claimed.ambiguous then
      if id = claimed.sessionId then .dropped
      else if id = s.next then .created (createSession id permissionMode s.now) else .other
    else if id = claimed.sessionId then .claimed (createSession id permissionMode s.now) else .other

/-- The report a frame or a body makes. -/
def reportOf (s : ServerState) (id : SessionId) (status : WorkerStatus) (detail : Option JsString)
    (sequence : Option Nat) : Report :=
  { status, detail, sequence
    capture := hookCapture s.fs s.hookInstalls s.files id sequence
    now := s.now
    graceMs := s.config.sessionEvictionGraceMs }

def observeEntry (s : ServerState) (id : SessionId) (entry : Json) : Act :=
  match entry.get (js "payload") with
  | none => .other
  | some payload =>
    match workerStatusEvent payload with
    | some (status, body) =>
      .report (reportOf s id status (Json.asString (body.get (js "detail")))
        (asWorkerStatusSequence (body.get (js "sequence_num"))))
    | none =>
      match requiresActionEnrichmentFromFrame payload with
      | some q => .asked q
      | none => .other

def observeStatus (s : ServerState) (id : SessionId) (body : Json) : Act :=
  if body.isPlainObject ∧ (readWorkerBody s id (body.get (js "worker_epoch"))).isSome then
    match asWorkerStatus (body.get (js "worker_status")) with
    | none => .other
    | some status => .report (reportOf s id status none (asWorkerStatusSequence (body.get (js "sequence_num"))))
  else .other

def observeCommand (s : ServerState) (id : SessionId) (body : Option Json) : Act :=
  match parseUiCommand body, (handleUiCommand s id body).2 with
  | some command, .accepted _ => if command.subtype = ANSWER_SUBTYPE then .answered command.echoed else .steered
  | _, _ => .other

def observeFire (s : ServerState) (t : TimerId) (id : SessionId) : Act :=
  match s.timers.get t with
  | none => .other
  | some timer =>
    if s.now < timer.due then .other
    else
      match timer.callback with
      | .evictPendingLaunch sessionId => if sessionId = id then .dropped else .other
      | .considerEviction sessionId r =>
        if sessionId = id ∧ s.workerChannels.get id = some r ∧ (s.records r).downstream = none then
          match s.sessions.get id with
          | none => .other
          | some session => if isSessionStale session s.now s.config.sessionEvictionGraceMs then .ended else .other
        else .other
      | .fireIdleEvent sessionId r =>
        if sessionId = id ∧ s.workerChannels.get id = some r then
          .idleFired s.now s.config.sessionEvictionGraceMs s.config.sessionIdleThresholdMs
        else .other
      | .writeLivenessFrame _ _ => .other

def observeReading (s : ServerState) (op : OpId) (reading : Reading) (id : SessionId) : Act :=
  match s.ops.get op with
  | some (.stopReading sessionId _ force) =>
    if sessionId = id ∧ decideStop (readLiveness reading) force = .noOp then .ended else .other
  | some (.stopVerdict sessionId _ _ liveness) =>
    if sessionId = id ∧ unconfirmed liveness (readLiveness reading) = false then .ended else .other
  | _ => .other

def observe (s : ServerState) (e : Event) (id : SessionId) : Act :=
  match e with
  | .launchOpened op _ _ =>
    match s.ops.get op with
    | some (.launching options _) =>
      if id = s.next then .placed (createRegisteringSession id options.permissionMode s.now) else .other
    | _ => .other
  | .sessionCreate _ cwd permissionMode => observeCreate s cwd permissionMode id
  | .livenessSettled op reading => observeReading s op reading id
  | .fire t => observeFire s t id
  | .workerRegister sessionId =>
    if sessionId = id then
      match s.sessions.get id with
      | none => .other
      | some session => if session.status = .registering then .other else .registered
    else .other
  | .workerEventsStream sessionId =>
    if sessionId = id ∧ s.sessions.has id ∧ s.workerChannels.has id then .streamOpened else .other
  | .workerStreamClosed res =>
    match s.streams.get res with
    | none => .other
    | some stream =>
      if s.workerChannels.get id = some stream.record ∧ (s.records stream.record).downstream = some res then
        .streamClosed
      else .other
  | .workerEvent sessionId workerEpoch entry =>
    if sessionId = id ∧ (readWorkerBody s id workerEpoch).isSome then observeEntry s id entry else .other
  | .workerStatus sessionId body => if sessionId = id then observeStatus s id body else .other
  | .workerHeartbeat sessionId =>
    if sessionId = id then
      match s.sessions.get id with
      | none => .other
      | some session => if session.status = .registering then .other else .beat s.now
    else .other
  | .uiCommand sessionId body => if sessionId = id then observeCommand s id body else .other
  | .injectTurn sessionId prompt =>
    if sessionId = id ∧ (injectUserTurn s id prompt).isSome then .steered else .other
  | .shutdown => .halted
  | _ => .other

/-! ## The reports -/

/-- Only a worker's status, on either leg, is a report. -/
theorem observe_report {s : ServerState} {e : Event} {id : SessionId} {r : Report} (h : observe s e id = .report r) :
    (∃ workerEpoch entry, e = .workerEvent id workerEpoch entry) ∨ ∃ body, e = .workerStatus id body := by
  cases e with
  | workerEvent sessionId workerEpoch entry =>
    simp only [observe] at h
    split at h
    · rename_i hgate
      exact Or.inl ⟨workerEpoch, entry, by rw [hgate.1]⟩
    · cases h
  | workerStatus sessionId body =>
    simp only [observe] at h
    split at h
    · rename_i hid
      exact Or.inr ⟨body, by rw [hid]⟩
    · cases h
  | livenessSettled op reading =>
    exfalso
    simp only [observe, observeReading] at h
    repeat' split at h
    all_goals cases h
  | fire t =>
    exfalso
    simp only [observe, observeFire] at h
    repeat' split at h
    all_goals cases h
  | sessionCreate terminal cwd mode =>
    exfalso
    simp only [observe, observeCreate] at h
    repeat' split at h
    all_goals cases h
  | uiCommand sessionId body =>
    exfalso
    simp only [observe, observeCommand] at h
    repeat' split at h
    all_goals cases h
  | _ =>
    exfalso
    simp only [observe] at h
    repeat' split at h
    all_goals cases h

/-- What a report says is the worker's, the rest is the server's. -/
theorem observe_reportOf {s : ServerState} {e : Event} {id : SessionId} {r : Report} (h : observe s e id = .report r) :
    ∃ status detail sequence, r = reportOf s id status detail sequence := by
  rcases observe_report h with ⟨workerEpoch, entry, rfl⟩ | ⟨body, rfl⟩
  · simp only [observe, observeEntry] at h
    repeat' split at h
    all_goals cases h
    exact ⟨_, _, _, rfl⟩
  · simp only [observe, observeStatus] at h
    repeat' split at h
    all_goals cases h
    exact ⟨_, _, _, rfl⟩

end Ccctl.Server
