import Ccctl.Server.SessionRelease
import Ccctl.Server.WorkerChannel
/-
  Ccctl.Server.SessionStop — the operator's stop (`packages/server/src/ui-session-stop.ts`:
  `stopSession`, `refusal`; `session-release.ts`: `stopLaunchedSession`, `closeWithinTimeout`).

  Three awaits: the reading, the close, the reading that confirms it. The gates, the ambiguity
  mark among them, are looked at before the first.
-/

namespace Ccctl.Server

open Ccctl.Core Ccctl.Lib ServerState

/-! ## Refusals -/

inductive StopFailureCode where
  | unknownSession | noSurface | ambiguousSurface | takenOver | livenessUnknown | livenessIndeterminate
  | malformedRequest | stopFailed
  deriving DecidableEq, Repr

def StopFailureCode.wire : StopFailureCode → String
  | .unknownSession => "unknown-session"
  | .noSurface => "no-surface"
  | .ambiguousSurface => "ambiguous-surface"
  | .takenOver => "taken-over"
  | .livenessUnknown => "liveness-unknown"
  | .livenessIndeterminate => "liveness-indeterminate"
  | .malformedRequest => "malformed-request"
  | .stopFailed => "stop-failed"

def STOP_FAILURE_STATUS : StopFailureCode → Nat
  | .unknownSession => 404
  | .malformedRequest => 400
  | .stopFailed => 502
  | _ => 409

def writeStopFailure (code : StopFailureCode) (message : String) : Reply :=
  .failure (STOP_FAILURE_STATUS code) code.wire message

def unknownSessionReason (sessionId : SessionId) : String := s!"ccctl: no session {sessionId}"

def noSurfaceReason (sessionId : SessionId) : String :=
  s!"ccctl: session {sessionId} was not launched by this server, so it holds no handle to that session's " ++
  "terminal and cannot stop it. End it at the terminal it is running in, or steer it with an `interrupt`."

def takenOverReason (sessionId : SessionId) (hint : String) : String :=
  s!"ccctl: session {sessionId} has been taken over — it is being driven at a terminal, and this server " ++
  s!"will not kill a session someone is working in. Reach it with `{hint}`, or re-send this stop with " ++
  "`\x7b force: true \x7d` if you are sure."

def livenessUnknownReason (sessionId : SessionId) : String :=
  s!"ccctl: session {sessionId}'s terminal could not be read — its backend could not reach the host that " ++
  "would know, so this server cannot tell whether the surface is still there or who has it, and will not " ++
  "kill what it cannot see. Forcing would not help: the kill would travel the same unreachable path. " ++
  "If the backend itself is gone, the terminal went with it."

def livenessIndeterminateReason (sessionId : SessionId) : String :=
  s!"ccctl: session {sessionId}'s terminal could not be read — its backend reached the host but got no " ++
  "usable answer back, so this server cannot tell whether the surface is still there or who has it, and " ++
  "will not kill what it cannot see without being asked to. The host itself is reachable, so a forced " ++
  "stop would really reach the terminal: re-send this stop with `\x7b force: true \x7d` if you are sure."

def ambiguousSurfaceReason (sessionId : SessionId) : String :=
  s!"ccctl: session {sessionId} was launched alongside another in the same directory under the same " ++
  "permission mode, and a worker has since registered from one of them — so this server cannot tell which " ++
  "of those terminals is which, and killing this one may kill the other session's live worker. Not even " ++
  "`force` overrides this: it authorizes stopping the session you named, not one you did not. End this " ++
  "terminal by hand."

def unexplainedRefusalReason (sessionId : SessionId) : String := s!"ccctl: session {sessionId} could not be stopped"

/-- `REFUSAL_BY_LIVENESS`. -/
def refusal (sessionId : SessionId) (hint : String) : SurfaceLiveness → Reply
  | .aliveServerOwned => writeStopFailure .stopFailed (unexplainedRefusalReason sessionId)
  | .takenOver => writeStopFailure .takenOver (takenOverReason sessionId hint)
  | .exited => writeStopFailure .stopFailed (unexplainedRefusalReason sessionId)
  | .hostUnreachable => writeStopFailure .livenessUnknown (livenessUnknownReason sessionId)
  | .surfaceIndeterminate => writeStopFailure .livenessIndeterminate (livenessIndeterminateReason sessionId)

/-- `toStopFailure` of an error that carries no code of its own. -/
def stopFailed : Reply := writeStopFailure .stopFailed "ccctl: the session's terminal could not be torn down"

/-! ## The stop, from one await to the next -/

/-- Whether the launch is still pending and marked. -/
def markedLaunch (s : ServerState) (sessionId : SessionId) : Bool :=
  ((s.pendingLaunches.get sessionId).map (·.mayHoldLiveWorker)).getD false

/-- Up to the first `await`; the suspended call is the `next` of the state before. -/
def stopSession (s : ServerState) (sessionId : SessionId) (force : Bool) : ServerState × Reply :=
  if s.sessions.has sessionId then
    match s.launchedSurfaces.get sessionId with
    | none => (s, writeStopFailure .noSurface (noSurfaceReason sessionId))
    | some launched =>
      if markedLaunch s sessionId then (s, writeStopFailure .ambiguousSurface (ambiguousSurfaceReason sessionId))
      else ({ s with ops := s.ops.set s.next (.stopReading sessionId launched force), next := s.next + 1 }, .none)
  else (s, writeStopFailure .unknownSession (unknownSessionReason sessionId))

/-- The tail of a stop that is not refused: every table gives the session up. -/
def concludeStop (s : ServerState) (sessionId : SessionId) (outcome : String) : ServerState × Reply :=
  let s := { s with launchedSurfaces := s.launchedSurfaces.erase sessionId }
  let s := (consumePendingLaunch s sessionId).1
  let s := reapWorkerChannel s sessionId
  match closeSession s sessionId with
  | (s, none) => (s, writeStopFailure .unknownSession (unknownSessionReason sessionId))
  | (s, some session) => (s, .stopped sessionId outcome session.status)

/-- The first reading arrived. -/
def stopRead (s : ServerState) (op : OpId) (sessionId : SessionId) (launched : LaunchedSession) (force : Bool)
    (reading : Reading) : ServerState × Reply :=
  let liveness := readLiveness reading
  match decideStop liveness force with
  | .leaveRunning => (s.finish op, refusal sessionId launched.hint liveness)
  | .noOp => concludeStop (s.finish op) sessionId "already-exited"
  | .tearDown =>
    ((s.emit (.closeSurface launched.surface op)).park op (.stopClosing sessionId launched force liveness), .none)

/-- The close settled, or `STOP_TEARDOWN_TIMEOUT_MS` ran out. -/
def stopClosed (s : ServerState) (op : OpId) (sessionId : SessionId) (launched : LaunchedSession) (force : Bool)
    (liveness : SurfaceLiveness) (fulfilled : Bool) : ServerState × Reply :=
  if fulfilled then (s.park op (.stopVerdict sessionId launched force liveness), .none)
  else (s.finish op, stopFailed)

/-- Whether the reading after the close leaves the stop unconfirmed. -/
def unconfirmed (liveness verdict : SurfaceLiveness) : Bool :=
  verdict = .aliveServerOwned || verdict = .takenOver || verdict = .hostUnreachable ||
  (liveness = .surfaceIndeterminate && verdict ≠ .exited)

/-- The second reading arrived. -/
def stopConfirmed (s : ServerState) (op : OpId) (sessionId : SessionId) (liveness : SurfaceLiveness)
    (reading : Reading) : ServerState × Reply :=
  if unconfirmed liveness (readLiveness reading) then (s.finish op, stopFailed)
  else concludeStop (s.finish op) sessionId "stopped"

end Ccctl.Server
