import Ccctl.Lib.Reach
import Ccctl.Server.SessionLaunch
import Ccctl.Server.SessionStop
import Ccctl.Server.UiCommand
/-
  Ccctl.Server.Step — every turn of the server's event loop as one event
  (`packages/server/src/index.ts`: `handleRequest`, `createHandle`, `startServer`).

  A turn runs to its end before the next begins, so the interleavings of requests, timers and
  settled promises are the sequences of events. What the outside decides is in the event: the
  clock's advance, the disk, how a launch, a reading or a close settles, which timer fires of
  those due.

  A `worker/events` batch is delivered one entry at a time: `handleWorkerEvents_run` says the
  handler's own turn is that run of entries, so every run of the server is a run here, and here
  another event may also come between two entries.

  A server boots with empty tables, except the rows kept from the last run, none of which is
  `registering` (`session-reconcile.ts`: `rehydrateRetainedSessions`).
-/

namespace Ccctl.Server

open Ccctl.Core Ccctl.Lib ServerState

inductive Event where
  /-- Time passes. -/
  | advance (ms : Nat)
  /-- The disk changes. -/
  | changeDisk (fs : FileSystem)
  /-- A hook path is written, or removed, by someone else. -/
  | writeHookFile (path : HookFile) (entry : Option FileEntry)
  | launchSession (options : SessionLaunchOptions) (hookOk : Bool)
  | launchOpened (op : OpId) (attachable : Bool) (hint : String)
  | launchFailed (op : OpId) (code : LaunchFailureCode) (message : String)
  /-- A bridge registration; `terminal` is the surface the registering worker runs in, which the
      request does not say. -/
  | sessionCreate (terminal : Option SurfaceId) (cwd : Path) (permissionMode : PermissionMode)
  | stopSession (sessionId : SessionId) (force : Bool)
  /-- A liveness reading settles. -/
  | livenessSettled (op : OpId) (reading : Reading)
  /-- A close settles, or its timeout runs out first. -/
  | closeSettled (op : OpId) (fulfilled : Bool)
  | fire (timer : TimerId)
  | workerRegister (sessionId : SessionId)
  | workerEventsStream (sessionId : SessionId)
  | workerStreamClosed (res : Res)
  /-- One entry of a `worker/events` body stamped `workerEpoch`. -/
  | workerEvent (sessionId : SessionId) (workerEpoch : Option Json) (entry : Json)
  | workerStatus (sessionId : SessionId) (body : Json)
  | workerHeartbeat (sessionId : SessionId)
  | uiEventStream (sessionId : SessionId) (lastEventId : Option Int)
  | uiStreamClosed (sessionId : SessionId) (res : Res)
  | uiCommand (sessionId : SessionId) (body : Option Json)
  | injectTurn (sessionId : SessionId) (prompt : JsString)
  | shutdown

/-- A timer that is armed and due runs its callback; a one-shot is spent, an interval goes on. -/
def fire (s : ServerState) (t : TimerId) : ServerState :=
  match s.timers.get t with
  | none => s
  | some timer =>
    if s.now < timer.due then s
    else
      match timer.callback with
      | .writeLivenessFrame r res =>
        writeLivenessFrame { s with
          timers := s.timers.set t ⟨timer.due + timeoutDelay s.config.workerLivenessIntervalMs, .writeLivenessFrame r res⟩ } r res
      | .evictPendingLaunch sessionId => evictPendingLaunch (s.clearTimeout (some t)) sessionId
      | .considerEviction sessionId r => considerEviction (s.clearTimeout (some t)) sessionId r
      | .fireIdleEvent sessionId r => fireIdleEvent (s.clearTimeout (some t)) sessionId r

def launchSettled (s : ServerState) (op : OpId)
    (then_ : SessionLaunchOptions → Option HookInstall → ServerState × Reply) : ServerState × Reply :=
  match s.ops.get op with
  | some (.launching options hookInstall) => then_ options hookInstall
  | _ => (s, .none)

def livenessSettled (s : ServerState) (op : OpId) (reading : Reading) : ServerState × Reply :=
  match s.ops.get op with
  | some (.evictReading sessionId launched) => (evictRead s op sessionId launched reading, .none)
  | some (.stopReading sessionId launched force) => stopRead s op sessionId launched force reading
  | some (.stopVerdict sessionId _ _ liveness) => stopConfirmed s op sessionId liveness reading
  | some (.releaseReading launched) => (releaseRead s op launched reading, .none)
  | _ => (s, .none)

def closeSettled (s : ServerState) (op : OpId) (fulfilled : Bool) : ServerState × Reply :=
  match s.ops.get op with
  | some (.evictClosing sessionId _) => (evictClosed s op sessionId, .none)
  | some (.stopClosing sessionId launched force liveness) => stopClosed s op sessionId launched force liveness fulfilled
  | some (.releaseClosing _) => (s.finish op, .none)
  | _ => (s, .none)

def handleWorkerEvent (s : ServerState) (sessionId : SessionId) (workerEpoch : Option Json) (entry : Json) :
    ServerState :=
  match readWorkerBody s sessionId workerEpoch with
  | none => s
  | some r => relayWorkerEvent s r sessionId entry

def shutdown (s : ServerState) : ServerState :=
  { releaseLaunchedSessions (closeWorkerChannels (closeEventStreams s)) with closed := true }

/-- The state after a turn, and what its request is answered. -/
def turn (s : ServerState) : Event → ServerState × Reply
  | .advance ms => ({ s with now := s.now + ms }, .none)
  | .changeDisk fs => ({ s with fs := fs }, .none)
  | .writeHookFile path none => ({ s with files := s.files.erase path }, .none)
  | .writeHookFile path (some entry) => ({ s with files := s.files.set path entry }, .none)
  | .launchSession options hookOk => launchSession s options hookOk
  | .launchOpened op attachable hint =>
    launchSettled s op fun options hookInstall => launchOpened s op options hookInstall attachable hint
  | .launchFailed op code message =>
    launchSettled s op fun _ hookInstall => launchFailed s op hookInstall code message
  | .sessionCreate _ cwd permissionMode => handleSessionCreate s cwd permissionMode
  | .stopSession sessionId force => stopSession s sessionId force
  | .livenessSettled op reading => livenessSettled s op reading
  | .closeSettled op fulfilled => closeSettled s op fulfilled
  | .fire t => (fire s t, .none)
  | .workerRegister sessionId => handleWorkerRegister s sessionId
  | .workerEventsStream sessionId => handleWorkerEventsStream s sessionId
  | .workerStreamClosed res => (closeWorkerStream s res, .none)
  | .workerEvent sessionId workerEpoch entry => (handleWorkerEvent s sessionId workerEpoch entry, .none)
  | .workerStatus sessionId body => handleWorkerStatus s sessionId body
  | .workerHeartbeat sessionId => handleWorkerHeartbeat s sessionId
  | .uiEventStream sessionId lastEventId => handleEventStream s sessionId lastEventId
  | .uiStreamClosed sessionId res => (closeSubscriber s sessionId res, .none)
  | .uiCommand sessionId body => handleUiCommand s sessionId body
  | .injectTurn sessionId prompt => ((injectUserTurn s sessionId prompt).getD s, .none)
  | .shutdown => (shutdown s, .none)

def step (s : ServerState) (e : Event) : ServerState := (turn s e).1

def reply (s : ServerState) (e : Event) : Reply := (turn s e).2

/-! ## Booting -/

/-- What a server starts from. -/
structure BootImage where
  config : ServerConfig
  fs : FileSystem
  now : Nat
  /-- Above every id of an earlier run. -/
  next : Nat
  sessions : OrdMap SessionId Session
  /-- No kept row awaits its registration. -/
  kept : ∀ id row, sessions.get id = some row → row.status ≠ .registering ∧ id < next
  files : OrdMap HookFile FileEntry
  /-- Hook files left behind carry tokens of an earlier run. -/
  stale : ∀ path entry, files.get path = some entry → path.token < next

def startServer (image : BootImage) : ServerState :=
  { config := image.config
    now := image.now
    next := image.next
    sessions := image.sessions
    workerChannels := OrdMap.empty
    records := fun _ => freshRecord none
    eventRelays := OrdMap.empty
    requiresActionEnrichments := OrdMap.empty
    hookInstalls := OrdMap.empty
    launchedSurfaces := OrdMap.empty
    launchReservations := []
    pendingLaunches := OrdMap.empty
    timers := OrdMap.empty
    ops := OrdMap.empty
    streams := OrdMap.empty
    files := image.files
    fs := image.fs
    closed := false
    out := [] }

def Booted (s : ServerState) : Prop := ∃ image, s = startServer image

/-- Every state a server gets to. -/
abbrev Reachable (s : ServerState) : Prop := Reach step Booted anyEvent s

/-! ## A fresh server, and what its workers and browsers send -/

def DEFAULT_REGISTRATION_TIMEOUT_MS : Nat := 10000

def DEFAULT_WORKER_LIVENESS_INTERVAL_MS : Nat := 20000

def DEFAULT_SESSION_EVICTION_GRACE_MS : Nat := 30000

def DEFAULT_SESSION_IDLE_THRESHOLD_MS : Nat := 120000

def DEFAULT_MAX_SESSIONS : Nat := 8

/-- Nothing kept from an earlier run, on a disk where every path is a directory of its own. -/
def freshImage : BootImage where
  config :=
    { launcher := true
      maxSessions := DEFAULT_MAX_SESSIONS
      registrationTimeoutMs := DEFAULT_REGISTRATION_TIMEOUT_MS
      workerLivenessIntervalMs := DEFAULT_WORKER_LIVENESS_INTERVAL_MS
      sessionEvictionGraceMs := DEFAULT_SESSION_EVICTION_GRACE_MS
      sessionIdleThresholdMs := DEFAULT_SESSION_IDLE_THRESHOLD_MS }
  fs :=
    { base := js "/"
      realpath := some
      isDirectory := fun _ => true
      resolves := fun _ => true
      reads := fun _ => true
      unlinks := fun _ => true }
  now := 0
  next := 0
  sessions := OrdMap.empty
  kept _ _ h := by cases h
  files := OrdMap.empty
  stale _ _ h := by cases h

def freshServer : ServerState := startServer freshImage

theorem freshServer_booted : Booted freshServer := ⟨freshImage, rfl⟩

theorem freshServer_run (es : List Event) : Reachable (runFrom step freshServer es) :=
  (Reach.start freshServer_booted).run

/-- A `PUT …/worker` body. -/
def statusBody (epoch : Nat) (status : String) (sequence : Nat) : Json :=
  .obj [(js "worker_epoch", .num epoch), (js "worker_status", .str (js status)), (js "sequence_num", .num sequence)]

/-- A `worker_status` entry of a `worker/events` body. -/
def statusEntry (status : String) (sequence : Nat) (detail : JsString) : Json :=
  .obj [(js "payload", .obj [(js "type", .str (js "control_event")), (js "subtype", .str (js "worker_status")),
    (js "payload", .obj [(js "status", .str (js status)), (js "sequence_num", .num sequence),
      (js "detail", .str detail)])])]

/-- An `input_request` entry: one question with one option. -/
def questionEntry (sequence : Nat) : Json :=
  .obj [(js "payload", .obj [(js "type", .str (js "control_event")), (js "subtype", .str (js "input_request")),
    (js "payload", .obj [(js "sequence_num", .num sequence), (js "questions", .arr [.obj
      [(js "question", .str (js "Go on?")), (js "options", .arr [.obj [(js "label", .str (js "Yes"))]])]])])])]

/-- The answer to it, as a browser sends it. -/
def answerBody (sequence : Nat) : Json :=
  .obj [(js "subtype", .str (js "answer")), (js "payload", .obj [(js "sequence_num", .num sequence),
    (js "answers", .obj [(js "q0", .arr [.str (js "Yes")])])])]

end Ccctl.Server
