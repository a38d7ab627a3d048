import Ccctl.Core.Enrichment
import Ccctl.Lib.Timers
import Mathlib.Tactic.Simps.Basic
/-
  Ccctl.Server.State — the per-server state every handler reads and updates
  (`packages/server/src/index.ts`: `ServerState`; `worker-channel.ts`:
  `WorkerChannelRecord`, `WorkerChannelState`; `event-stream.ts`: `EventStreamState`;
  `pending-launch.ts`: `PendingLaunch`; `hook-settings-installer.ts`: `HookInstall`;
  `session-launcher.ts`: `LaunchedSession`), and the four host facilities they lean on: the
  timer wheel, the files the hook hands over, the suspended `async` functions, and the open
  responses.

  A `WorkerChannelRecord` is an object, and closures keep it after a re-registration took it out
  of the map. So records live in a heap `records`, `workerChannels` maps a session to the one
  that is current, and a timer or a stream names the record its closure captured.

  `timers` holds what `setTimeout` and `setInterval` armed and nothing cleared. `ops` holds what an
  `async` function does after the `await` it is parked on. `streams` holds the worker downstreams
  whose `close` event has not come. `out` is what left the server, oldest first. One counter,
  `next`, numbers everything the server mints.

  Logging is left out: no line of it is read back.
-/

namespace Ccctl.Server

open Ccctl.Core Ccctl.Lib

/-- A worker channel record: the session it was made for, and its place in the order of minting. -/
structure RecId where
  sessionId : SessionId
  serial : Nat
  deriving DecidableEq, Repr

abbrev TimerId := Nat

/-- A response held open. -/
abbrev Res := Nat

/-- A suspended call of an `async` function. -/
abbrev OpId := Nat

/-- The terminal a launch opens, by the call that launches it. -/
abbrev SurfaceId := OpId

abbrev Path := JsString

/-! ## Launches -/

inductive SurfaceLiveness where
  | aliveServerOwned | takenOver | exited | hostUnreachable | surfaceIndeterminate
  deriving DecidableEq, Repr

/-- The handle a launcher answers with. -/
structure LaunchedSession where
  surface : SurfaceId
  attachable : Bool
  hint : String
  deriving DecidableEq, Repr

structure SessionLaunchOptions where
  cwd : Path
  permissionMode : PermissionMode
  project : Option JsString
  initialPrompt : Option JsString
  deriving DecidableEq, Repr

structure PendingLaunch where
  sessionId : SessionId
  cwd : Path
  permissionMode : PermissionMode
  launched : LaunchedSession
  timer : TimerId
  ambiguous : Bool
  mayHoldLiveWorker : Bool
  deriving DecidableEq, Repr

/-! ## Hook files -/

inductive HookInstallFileKind where
  | settings | handoff
  deriving DecidableEq, Repr

/-- `hookInstallFileName` under the hook state directory; the token is a fresh uuid. -/
structure HookFile where
  token : Nat
  kind : HookInstallFileKind
  deriving DecidableEq, Repr

structure HookInstall where
  settingsPath : HookFile
  handoffPath : HookFile
  deriving DecidableEq, Repr

/-- The disk as `realpathSync.native`, `statSync`, `readFileSync` and `unlinkSync` meet it. -/
structure FileSystem where
  /-- `process.cwd()`. -/
  base : Path
  realpath : Path → Option Path
  isDirectory : Path → Bool
  /-- Of a hook path that stands, `realpathSync.native` and `statSync` do not throw. -/
  resolves : HookFile → Bool
  /-- Nor does `readFileSync`. -/
  reads : HookFile → Bool
  /-- Nor does `unlinkSync`. -/
  unlinks : HookFile → Bool

/-- What stands at a hook path: a regular file with its size and what `JSON.parse` makes of it, or
    an entry that resolves outside the hook state directory. -/
inductive FileEntry where
  | regular (size : Nat) (parsed : Option Json)
  | redirect

/-! ## Streams -/

/-- What is broadcast on a session's relay: a worker's payload verbatim, or one of the server's own. -/
inductive Payload where
  | worker (payload : Json)
  | needsInput (sessionId : SessionId) (detail : JsString)
  | idle (sessionId : SessionId) (thresholdMs : Nat)
  | closed (sessionId : SessionId) (status : SessionStatus)

structure EventStreamState where
  subscribers : List Res
  /-- The last `EVENT_REPLAY_BUFFER_SIZE` events with their ids. -/
  buffer : List (Nat × Payload)
  nextEventId : Nat

/-- What a `client_event` frame carries. -/
inductive ClientPayload where
  | user (text : JsString)
  | command (id : Nat) (subtype : JsString) (payload : Option Json)
  | answer (id : Nat) (envelope : AnswerEnvelope)
  | liveness

structure WorkerChannelRecord where
  epoch : Nat
  downstream : Option Res
  nextSeq : Nat
  highestStatusSeq : Option Nat
  livenessTimer : Option TimerId
  evictionTimer : Option TimerId
  idleTimer : Option TimerId
  deriving DecidableEq, Repr

/-- A worker downstream and what its `close` listener captured. -/
structure WorkerStream where
  sessionId : SessionId
  record : RecId
  timer : TimerId
  writableEnded : Bool
  deriving DecidableEq, Repr

/-! ## Timers and suspended calls -/

inductive TimerCallback where
  | evictPendingLaunch (sessionId : SessionId)
  | writeLivenessFrame (record : RecId) (res : Res)
  | considerEviction (sessionId : SessionId) (record : RecId)
  | fireIdleEvent (sessionId : SessionId) (record : RecId)
  deriving DecidableEq, Repr

/-- Where a suspended call stands: the `await` it is parked on and what it holds. -/
inductive Op where
  /-- `launchSession`, in `launcher.launch`; the call holds a reservation. -/
  | launching (options : SessionLaunchOptions) (hookInstall : Option HookInstall)
  /-- `evictPendingLaunch`, in the release's liveness reading. -/
  | evictReading (sessionId : SessionId) (launched : LaunchedSession)
  /-- `evictPendingLaunch`, in the release's close. -/
  | evictClosing (sessionId : SessionId) (launched : LaunchedSession)
  /-- `stopSession`, in its first liveness reading. -/
  | stopReading (sessionId : SessionId) (launched : LaunchedSession) (force : Bool)
  /-- `stopSession`, in the close. -/
  | stopClosing (sessionId : SessionId) (launched : LaunchedSession) (force : Bool) (liveness : SurfaceLiveness)
  /-- `stopSession`, in the reading after the close. -/
  | stopVerdict (sessionId : SessionId) (launched : LaunchedSession) (force : Bool) (liveness : SurfaceLiveness)
  /-- A release of the server's shutdown, in its liveness reading. -/
  | releaseReading (launched : LaunchedSession)
  /-- A release of the server's shutdown, in its close. -/
  | releaseClosing (launched : LaunchedSession)
  deriving DecidableEq, Repr

/-! ## What leaves the server -/

inductive Out where
  /-- `broadcastEvent`: the event's id, and the subscribers it was written to. -/
  | broadcast (sessionId : SessionId) (eventId : Nat) (payload : Payload) (recipients : List Res)
  /-- The buffered events replayed to a new subscriber. -/
  | replay (res : Res) (events : List (Nat × Payload))
  /-- A `client_event` frame down a worker's stream. -/
  | clientEvent (res : Res) (sequenceNum : Nat) (payload : ClientPayload)
  /-- `res.end()`. -/
  | ended (res : Res)
  /-- `launched.close()`, called by the suspended call `by`. -/
  | closeSurface (surface : SurfaceId) (caller : OpId)
  /-- `enqueueSessionWork`. -/
  | enqueueWork (sessionId : SessionId)

structure ServerConfig where
  /-- Whether a launcher is configured. -/
  launcher : Bool
  maxSessions : Nat
  registrationTimeoutMs : Nat
  workerLivenessIntervalMs : Nat
  sessionEvictionGraceMs : Nat
  sessionIdleThresholdMs : Nat
  deriving DecidableEq, Repr

structure ServerState where
  config : ServerConfig
  now : Nat
  next : Nat
  sessions : OrdMap SessionId Session
  workerChannels : OrdMap SessionId RecId
  records : RecId → WorkerChannelRecord
  eventRelays : OrdMap SessionId EventStreamState
  requiresActionEnrichments : OrdMap SessionId RequiresActionEnrichment
  hookInstalls : OrdMap SessionId HookInstall
  launchedSurfaces : OrdMap SessionId LaunchedSession
  launchReservations : List OpId
  pendingLaunches : OrdMap SessionId PendingLaunch
  timers : OrdMap TimerId (Timer TimerCallback)
  ops : OrdMap OpId Op
  streams : OrdMap Res WorkerStream
  files : OrdMap HookFile FileEntry
  fs : FileSystem
  /-- `close()` has run. -/
  closed : Bool
  out : List Out

/-- What a request is answered with. -/
inductive Reply where
  /-- Nothing yet: the call is suspended, or it was not a request. -/
  | none
  | error (status : Nat) (message : String)
  /-- A refused launch or stop: `{ error, code }`. -/
  | failure (status : Nat) (code : String) (message : String)
  /-- `200 {}`. -/
  | empty
  | workerEpoch (epoch : Nat)
  | stream (res : Res)
  /-- `202`, the command's correlation id. -/
  | accepted (id : Nat)
  /-- `201`, the registered session. -/
  | created (sessionId : SessionId)
  | launched (sessionId : SessionId) (attachable : Bool) (hint : String)
  | stopped (sessionId : SessionId) (outcome : String) (status : SessionStatus)
  deriving DecidableEq, Repr

namespace ServerState

/-! ## The host -/

/-- `setTimeout(callback, delay)`; the handle is the `next` of the state before. -/
@[simps]
def setTimeout (s : ServerState) (delay : Nat) (callback : TimerCallback) : ServerState :=
  { s with timers := s.timers.set s.next ⟨s.now + timeoutDelay delay, callback⟩, next := s.next + 1 }

/-- `clearTimeout` and `clearInterval`, of a handle that may be null. -/
@[simps]
def clearTimeout (s : ServerState) (timer : Option TimerId) : ServerState :=
  { s with timers := cleared s.timers timer }

/-- Park a call on its next `await`. -/
@[simps]
def park (s : ServerState) (op : OpId) (at_ : Op) : ServerState := { s with ops := s.ops.set op at_ }

/-- A call that returned. -/
@[simps]
def finish (s : ServerState) (op : OpId) : ServerState := { s with ops := s.ops.erase op }

@[simps]
def emit (s : ServerState) (o : Out) : ServerState := { s with out := s.out ++ [o] }

/-- Assign fields of a record object. -/
@[simps]
def modifyRecord (s : ServerState) (r : RecId) (f : WorkerChannelRecord → WorkerChannelRecord) : ServerState :=
  { s with records := Function.update s.records r (f (s.records r)) }

/-- The current record of a session's channel. -/
def channel (s : ServerState) (sessionId : SessionId) : Option WorkerChannelRecord :=
  (s.workerChannels.get sessionId).map s.records

end ServerState

end Ccctl.Server
