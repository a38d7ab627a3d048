import Ccctl.Server.SessionClose
/-
  Ccctl.Server.WorkerChannel — the per-session worker channel
  (`packages/server/src/worker-channel.ts`: `handleWorkerRegister`, `handleWorkerEventsStream`,
  `readWorkerBody`, `foldWorkerStatus`, `handleWorkerEvents`, `handleWorkerStatus`,
  `handleWorkerDelivery`, `handleWorkerHeartbeat`, the reconciles both status legs run, the three timers, and
  `reapWorkerChannel`).

  A handler is the continuation that runs when its request's body is complete: the checks a
  request passes on arrival are made again on the state the continuation finds, except the
  404 of `readWorkerBody`, which only ever turns a request away earlier. A request with the
  wrong method is answered 405 before anything is read, and is not modelled.

  `applied` is the tail `foldWorkerStatus` and `handleWorkerStatus` both spell out: store the
  row, then the idle timer, the needs-input notification, the buffered question and the hook's
  capture, in that order.
-/

namespace Ccctl.Server

open Ccctl.Core Ccctl.Lib ServerState

/-! ## Records and their timers -/

/-- `downstream.end()`. -/
def endedStream (streams : OrdMap Res WorkerStream) (downstream : Option Res) : OrdMap Res WorkerStream :=
  streams.mapVals fun res stream => if downstream = some res then { stream with writableEnded := true } else stream

/-- The record's three timers cleared and its stream ended; `downstream` stays set. -/
@[simps]
def endDownstream (s : ServerState) (r : RecId) : ServerState :=
  { s with
    timers := cleared (cleared (cleared s.timers (s.records r).livenessTimer) (s.records r).evictionTimer)
      (s.records r).idleTimer
    records := Function.update s.records r
      { s.records r with livenessTimer := none, evictionTimer := none, idleTimer := none }
    streams := endedStream s.streams (s.records r).downstream
    out := s.out ++ ((s.records r).downstream.map Out.ended).toList }

@[simps]
def clearIdleTimer (s : ServerState) (r : RecId) : ServerState :=
  { s with
    timers := cleared s.timers (s.records r).idleTimer
    records := Function.update s.records r { s.records r with idleTimer := none } }

def armIdleTimer (s : ServerState) (sessionId : SessionId) (r : RecId) : ServerState :=
  if (s.records r).idleTimer ≠ none then s
  else
    (s.setTimeout s.config.sessionIdleThresholdMs (.fireIdleEvent sessionId r)).modifyRecord r fun record =>
      { record with idleTimer := some s.next }

def scheduleEviction (s : ServerState) (sessionId : SessionId) (r : RecId) : ServerState :=
  (s.setTimeout s.config.sessionEvictionGraceMs (.considerEviction sessionId r)).modifyRecord r fun record =>
    { record with evictionTimer := some s.next }

/-! ## The reconciles -/

def reconcileIdleTimer (s : ServerState) (sessionId : SessionId) (session : Session) : ServerState :=
  match s.workerChannels.get sessionId with
  | none => s
  | some r => if session.activity = .idle then armIdleTimer s sessionId r else clearIdleTimer s r

def reconcileNeedsInput (s : ServerState) (sessionId : SessionId) (prev next : Session) : ServerState :=
  if isInputAwaited prev.activity then s
  else
    match next.activity with
    | .requiresAction detail =>
      if isSessionStale next s.now s.config.sessionEvictionGraceMs then s
      else broadcastEvent s sessionId (.needsInput sessionId detail)
    | _ => s

def bufferInputRequestEnrichment (s : ServerState) (sessionId : SessionId) (payload : Json) : ServerState :=
  if payload.isPlainObject then
    match requiresActionEnrichmentFromFrame payload with
    | none => s
    | some enrichment => { s with requiresActionEnrichments := s.requiresActionEnrichments.set sessionId enrichment }
  else s

def reconcileEnrichmentBuffer (s : ServerState) (sessionId : SessionId) (next : Session) : ServerState :=
  if isInputAwaited next.activity then s
  else { s with requiresActionEnrichments := s.requiresActionEnrichments.erase sessionId }

@[simps]
def consumeInputRequestEnrichment (s : ServerState) (sessionId : SessionId) : ServerState :=
  { s with requiresActionEnrichments := s.requiresActionEnrichments.erase sessionId }

def MAX_HOOK_HANDOFF_BYTES : Nat := 1024 * 1024

def extractHandoffQuestions (parsed : Json) : Option Json :=
  if parsed.isPlainObject then parsed.get (js "questions") else none

/-- The captured `questions`. Nothing there, or a `realpathSync` or `statSync` that throws, leaves the
    path as it is; every way past them unlinks it. -/
def consumeHookHandoffQuestions (s : ServerState) (handoffPath : HookFile) : ServerState × Option Json :=
  match s.files.get handoffPath with
  | none => (s, none)
  | some entry =>
    if s.fs.resolves handoffPath then
      match entry with
      | .redirect => (unlinkQuietly s handoffPath, none)
      | .regular size parsed =>
        if MAX_HOOK_HANDOFF_BYTES < size then (unlinkQuietly s handoffPath, none)
        else if s.fs.reads handoffPath then (unlinkQuietly s handoffPath, parsed.bind extractHandoffQuestions)
        else (unlinkQuietly s handoffPath, none)
    else (s, none)

/-- The frame a capture is fed through the `input_request` pipeline as. -/
def handoffFrame (sequence : Nat) (questions : Json) : Json :=
  .obj [(js "type", .str (js "control_event")), (js "subtype", .str (js "input_request")),
    (js "payload", .obj [(js "sequence_num", .num sequence), (js "questions", questions)])]

def reconcileHookHandoff (s : ServerState) (sessionId : SessionId) (prior next : Session) (sequence : Option Nat) :
    ServerState :=
  if isInputAwaited prior.activity || !isInputAwaited next.activity then s
  else
    match sequence, s.hookInstalls.get sessionId with
    | some n, some install =>
      match consumeHookHandoffQuestions s install.handoffPath with
      | (s, none) => s
      | (s, some questions) => bufferInputRequestEnrichment s sessionId (handoffFrame n questions)
    | _, _ => s

/-- What both status legs do once `next` is decided. -/
def applied (s : ServerState) (sessionId : SessionId) (session next : Session) (sequence : Option Nat) : ServerState :=
  let s := { s with sessions := s.sessions.set sessionId next }
  let s := reconcileIdleTimer s sessionId next
  let s := reconcileNeedsInput s sessionId session next
  let s := reconcileEnrichmentBuffer s sessionId next
  reconcileHookHandoff s sessionId session next sequence

/-! ## The status legs -/

def recordStatusSequence (s : ServerState) (r : RecId) (sequence : Option Nat) : ServerState :=
  match sequence, (s.records r).highestStatusSeq with
  | some n, none => s.modifyRecord r fun record => { record with highestStatusSeq := some n }
  | some n, some h => if h < n then s.modifyRecord r fun record => { record with highestStatusSeq := some n } else s
  | none, _ => s

/-- The state after, and whether the frame was refused as stale. -/
def foldWorkerStatus (s : ServerState) (r : RecId) (sessionId : SessionId) (payload : Json) : ServerState × Bool :=
  if payload.isPlainObject then
    match s.sessions.get sessionId with
    | none => (s, false)
    | some session =>
      let sequence := workerStatusSequenceFromFrame payload
      if isStaleWorkerStatusSequence sequence (s.records r).highestStatusSeq then (s, true)
      else
        let s := recordStatusSequence s r sequence
        match applyWorkerStatusFrame session payload s.now with
        | none => (s, false)
        | some next => (applied s sessionId session next sequence, false)
  else (s, false)

/-- One entry of a `worker/events` batch; one without a payload is skipped. -/
def relayWorkerEvent (s : ServerState) (r : RecId) (sessionId : SessionId) (entry : Json) : ServerState :=
  match entry.get (js "payload") with
  | none => s
  | some payload =>
    let folded := foldWorkerStatus s r sessionId payload
    if folded.2 then folded.1
    else broadcastEvent (bufferInputRequestEnrichment folded.1 sessionId payload) sessionId (.worker payload)

/-- `body.worker_epoch === record.epoch`. -/
def sameEpoch (workerEpoch : Option Json) (epoch : Nat) : Bool :=
  match workerEpoch with
  | some (.num q) => q = epoch
  | _ => false

/-- The record a body stamped `workerEpoch` is let through to, or `none` for the 409. -/
def readWorkerBody (s : ServerState) (sessionId : SessionId) (workerEpoch : Option Json) : Option RecId :=
  (s.workerChannels.get sessionId).filter fun r => sameEpoch workerEpoch (s.records r).epoch

def supersededReply (sessionId : SessionId) : Reply :=
  .error 409 s!"ccctl: worker channel epoch superseded for session {sessionId}"

def notAnObjectReply : Reply := .error 400 "ccctl: worker channel body must be a JSON object"

def handleWorkerEvents (s : ServerState) (sessionId : SessionId) (body : Json) : ServerState × Reply :=
  if body.isPlainObject then
    match readWorkerBody s sessionId (body.get (js "worker_epoch")) with
    | none => (s, supersededReply sessionId)
    | some r =>
      match Json.asArray (body.get (js "events")) with
      | none => (s, .error 400 "ccctl: worker-events body `events` must be an array")
      | some events => (events.foldl (fun s entry => relayWorkerEvent s r sessionId entry) s, .empty)
  else (s, notAnObjectReply)

def handleWorkerStatus (s : ServerState) (sessionId : SessionId) (body : Json) : ServerState × Reply :=
  if body.isPlainObject then
    match readWorkerBody s sessionId (body.get (js "worker_epoch")) with
    | none => (s, supersededReply sessionId)
    | some r =>
      match asWorkerStatus (body.get (js "worker_status")) with
      | none => (s, .error 400 "ccctl: worker-status body carries an unknown `worker_status` (drift)")
      | some workerStatus =>
        let sequence := asWorkerStatusSequence (body.get (js "sequence_num"))
        match s.sessions.get sessionId with
        | none => (s, .empty)
        | some session =>
          if isStaleWorkerStatusSequence sequence (s.records r).highestStatusSeq then (s, .empty)
          else
            let s := recordStatusSequence s r sequence
            (applied s sessionId session (applyWorkerStatus session workerStatus none s.now) sequence, .empty)
  else (s, notAnObjectReply)

/-- The acks are checked and dropped. -/
def handleWorkerDelivery (s : ServerState) (sessionId : SessionId) (body : Json) : ServerState × Reply :=
  if body.isPlainObject then
    match readWorkerBody s sessionId (body.get (js "worker_epoch")) with
    | none => (s, supersededReply sessionId)
    | some _ =>
      match Json.asArray (body.get (js "updates")) with
      | none => (s, .error 400 "ccctl: worker-delivery body `updates` must be an array")
      | some _ => (s, .empty)
  else (s, notAnObjectReply)

/-! ## Registration, downstream and heartbeat -/

def unknownSessionReply (sessionId : SessionId) : Reply := .error 404 s!"ccctl: no session {sessionId}"

/-- `rejectIfRegistering`. -/
def registeringReply (sessionId : SessionId) : Reply :=
  .error 409 s!"ccctl: session {sessionId} has not registered over the bridge yet"

/-- The fresh record of a registration that supersedes `prev`. -/
def freshRecord (prev : Option WorkerChannelRecord) : WorkerChannelRecord :=
  { epoch := (prev.map (·.epoch)).getD 0 + 1
    downstream := none
    nextSeq := (prev.map (·.nextSeq)).getD 1
    highestStatusSeq := none
    livenessTimer := none
    evictionTimer := none
    idleTimer := none }

/-- The superseded record's stream and timers, if there is one. -/
def supersede (s : ServerState) (prev : Option RecId) : ServerState :=
  match prev with
  | none => s
  | some r => endDownstream s r

/-- The new record's serial is the `next` of the state before. -/
def handleWorkerRegister (s : ServerState) (sessionId : SessionId) : ServerState × Reply :=
  match s.sessions.get sessionId with
  | none => (s, unknownSessionReply sessionId)
  | some session =>
    if session.status = .registering then (s, registeringReply sessionId)
    else
      let record := freshRecord (s.channel sessionId)
      let r : RecId := ⟨sessionId, s.next⟩
      let s := supersede s (s.workerChannels.get sessionId)
      ({ s with
        next := s.next + 1
        workerChannels := s.workerChannels.set sessionId r
        records := Function.update s.records r record }, .workerEpoch record.epoch)

/-- The downstream response is the `next` of the state before, its liveness interval the one after. -/
def handleWorkerEventsStream (s : ServerState) (sessionId : SessionId) : ServerState × Reply :=
  match s.sessions.get sessionId with
  | none => (s, unknownSessionReply sessionId)
  | some session =>
    match s.workerChannels.get sessionId with
    | none => (s, .error 409 s!"ccctl: session {sessionId} worker must register before opening the events stream")
    | some r =>
      let s := endDownstream s r
      let res := s.next
      let s := { s with next := s.next + 1 }
      let s := s.modifyRecord r fun record => { record with downstream := some res }
      let s := { s with sessions := s.sessions.set sessionId (markSessionReady session) }
      let timer := s.next
      let s := s.setTimeout s.config.workerLivenessIntervalMs (.writeLivenessFrame r res)
      let s := s.modifyRecord r fun record => { record with livenessTimer := some timer }
      ({ s with streams := s.streams.set res ⟨sessionId, r, timer, false⟩ }, .stream res)

/-- The `close` event of a worker downstream. A late one, of a stream its record moved on from,
    clears its own interval and nothing else. -/
def closeWorkerStream (s : ServerState) (res : Res) : ServerState :=
  match s.streams.get res with
  | none => s
  | some stream =>
    let s := { s with streams := s.streams.erase res }
    let s := s.clearTimeout (some stream.timer)
    if (s.records stream.record).downstream = some res then
      let s := s.modifyRecord stream.record fun record => { record with downstream := none, livenessTimer := none }
      scheduleEviction s stream.sessionId stream.record
    else s

def handleWorkerHeartbeat (s : ServerState) (sessionId : SessionId) : ServerState × Reply :=
  match s.sessions.get sessionId with
  | none => (s, unknownSessionReply sessionId)
  | some session =>
    if session.status = .registering then (s, registeringReply sessionId)
    else ({ s with sessions := s.sessions.set sessionId (recordHeartbeat session s.now) }, .empty)

/-! ## Frames down the stream -/

def writeClientEventFrame (s : ServerState) (r : RecId) (payload : ClientPayload) : ServerState :=
  match (s.records r).downstream with
  | none => s
  | some res =>
    (s.modifyRecord r fun record => { record with nextSeq := record.nextSeq + 1 }).emit
      (.clientEvent res (s.records r).nextSeq payload)

/-- `none` is the throw: no live downstream. -/
def pushClientEvent (s : ServerState) (sessionId : SessionId) (payload : ClientPayload) : Option ServerState :=
  match s.workerChannels.get sessionId with
  | none => none
  | some r =>
    if (s.records r).downstream = none then none else some (writeClientEventFrame (clearIdleTimer s r) r payload)

def injectUserTurn (s : ServerState) (sessionId : SessionId) (prompt : JsString) : Option ServerState :=
  pushClientEvent s sessionId (.user prompt)

def hasLiveWorkerChannel (s : ServerState) (sessionId : SessionId) : Bool :=
  match s.channel sessionId with
  | none => false
  | some record => record.downstream.isSome

def writeLivenessFrame (s : ServerState) (r : RecId) (res : Res) : ServerState :=
  if (s.records r).downstream ≠ some res ∨ ((s.streams.get res).map (·.writableEnded)).getD true then s
  else writeClientEventFrame s r .liveness

/-! ## The timers' callbacks -/

def fireIdleEvent (s : ServerState) (sessionId : SessionId) (r : RecId) : ServerState :=
  let s := s.modifyRecord r fun record => { record with idleTimer := none }
  if s.workerChannels.get sessionId ≠ some r then s
  else
    match s.sessions.get sessionId with
    | none => s
    | some session =>
      if session.activity ≠ .idle then s
      else if isSessionStale session s.now s.config.sessionEvictionGraceMs then s
      else broadcastEvent s sessionId (.idle sessionId s.config.sessionIdleThresholdMs)

def reapWorkerChannel (s : ServerState) (sessionId : SessionId) : ServerState :=
  match s.workerChannels.get sessionId with
  | none => s
  | some r =>
    let s := endDownstream s r
    { s with workerChannels := s.workerChannels.erase sessionId }

def considerEviction (s : ServerState) (sessionId : SessionId) (r : RecId) : ServerState :=
  let s := s.modifyRecord r fun record => { record with evictionTimer := none }
  if s.workerChannels.get sessionId ≠ some r then s
  else if (s.records r).downstream ≠ none then s
  else
    match s.sessions.get sessionId with
    | none => s
    | some session =>
      if isSessionStale session s.now s.config.sessionEvictionGraceMs then
        reapWorkerChannel (closeSession s sessionId).1 sessionId
      else scheduleEviction s sessionId r

/-- `closeWorkerChannels`, at shutdown. -/
def closeWorkerChannels (s : ServerState) : ServerState :=
  s.workerChannels.values.foldl (fun s r =>
    (endDownstream s r).modifyRecord r fun record => { record with downstream := none }) s

end Ccctl.Server
