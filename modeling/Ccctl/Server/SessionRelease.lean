import Ccctl.Server.PendingLaunch
/-
  Ccctl.Server.SessionRelease — what a liveness reading authorizes, and the release of a launch
  nobody registered from (`packages/server/src/session-release.ts`: `decideRelease`, `decideStop`,
  `readLiveness`, `releaseLaunchedSession`; `pending-launch.ts`: `evictPendingLaunch`;
  `ui-session-launch.ts`: `releaseLaunchedSessions`).

  `evictPendingLaunch` consumes the pending record and drops the row at once, then awaits the
  reading: what happens after an `await` is a function of its own here, on the state the
  continuation finds, and it looks at nothing but the reading.
-/

namespace Ccctl.Server

open Ccctl.Core Ccctl.Lib ServerState

inductive ReleaseDisposition where
  | tearDown | leaveRunning | noOp
  deriving DecidableEq, Repr

def RELEASE_BY_LIVENESS : SurfaceLiveness → ReleaseDisposition
  | .aliveServerOwned => .tearDown
  | .takenOver => .leaveRunning
  | .exited => .noOp
  | .hostUnreachable => .leaveRunning
  | .surfaceIndeterminate => .leaveRunning

def decideRelease (liveness : SurfaceLiveness) : ReleaseDisposition := RELEASE_BY_LIVENESS liveness

def FORCED_STOP_BY_LIVENESS : SurfaceLiveness → ReleaseDisposition
  | .aliveServerOwned => .tearDown
  | .takenOver => .tearDown
  | .exited => .noOp
  | .hostUnreachable => .leaveRunning
  | .surfaceIndeterminate => .tearDown

def decideStop (liveness : SurfaceLiveness) (force : Bool) : ReleaseDisposition :=
  if force then FORCED_STOP_BY_LIVENESS liveness else decideRelease liveness

/-- How `launched.liveness()` settles. -/
inductive Reading where
  | threw
  | answered (word : JsString)
  deriving DecidableEq, Repr

/-- `isSurfaceLiveness`, answering with the reading it recognized. -/
def asSurfaceLiveness (word : JsString) : Option SurfaceLiveness :=
  if word = js "alive-server-owned" then some .aliveServerOwned
  else if word = js "taken-over" then some .takenOver
  else if word = js "exited" then some .exited
  else if word = js "host-unreachable" then some .hostUnreachable
  else if word = js "surface-indeterminate" then some .surfaceIndeterminate
  else none

/-- A throw and an unknown word both read as an unreachable host. -/
def readLiveness : Reading → SurfaceLiveness
  | .threw => .hostUnreachable
  | .answered word => (asSurfaceLiveness word).getD .hostUnreachable

/-! ## Evicting a launch -/

/-- Up to the first `await`; the suspended call is the `next` of the state before. -/
def evictPendingLaunch (s : ServerState) (sessionId : SessionId) : ServerState :=
  match consumePendingLaunch s sessionId with
  | (s, none) => s
  | (s, some pending) =>
    let s := dropPlaceholder s sessionId
    if pending.mayHoldLiveWorker then s
    else { s with ops := s.ops.set s.next (.evictReading sessionId pending.launched), next := s.next + 1 }

/-- The reading arrived. -/
def evictRead (s : ServerState) (op : OpId) (sessionId : SessionId) (launched : LaunchedSession) (reading : Reading) :
    ServerState :=
  match decideRelease (readLiveness reading) with
  | .leaveRunning => s.finish op
  | .noOp => { s.finish op with launchedSurfaces := s.launchedSurfaces.erase sessionId }
  | .tearDown => (s.emit (.closeSurface launched.surface op)).park op (.evictClosing sessionId launched)

/-- The close settled, either way: its error is swallowed. -/
@[simps!]
def evictClosed (s : ServerState) (op : OpId) (sessionId : SessionId) : ServerState :=
  { s.finish op with launchedSurfaces := s.launchedSurfaces.erase sessionId }

/-! ## Releasing at shutdown -/

def releaseRead (s : ServerState) (op : OpId) (launched : LaunchedSession) (reading : Reading) : ServerState :=
  match decideRelease (readLiveness reading) with
  | .tearDown => (s.emit (.closeSurface launched.surface op)).park op (.releaseClosing launched)
  | _ => s.finish op

def startRelease (s : ServerState) (launched : LaunchedSession) : ServerState :=
  { s with ops := s.ops.set s.next (.releaseReading launched), next := s.next + 1 }

def releaseLaunchedSessions (s : ServerState) : ServerState :=
  let s := clearPendingLaunches s
  { s.launchedSurfaces.values.foldl startRelease s with launchedSurfaces := OrdMap.empty }

end Ccctl.Server
