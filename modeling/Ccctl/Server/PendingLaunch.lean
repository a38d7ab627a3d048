import Ccctl.Server.EventStream
/-
  Ccctl.Server.PendingLaunch — the launches whose worker has not registered
  (`packages/server/src/pending-launch.ts`: `canonicalCwd`, `resolveLaunchCwd`,
  `trackPendingLaunch`, `consumePendingLaunch`, `markAmbiguousGroup`, `claimPendingLaunch`,
  `markGroupMayHoldLiveWorker`, `dropPlaceholder`, `clearPendingLaunches`).

  A registration names no launch. It is matched by (cwd, mode) alone, to the oldest launch
  pending on that pair. `ambiguous` is set on every launch that ever shared its pair while
  pending, and stays when the others are gone.
-/

namespace Ccctl.Server

open Ccctl.Core Ccctl.Lib ServerState

/-! ## Paths -/

def isAbsolute (path : Path) : Bool := path.head? = some 0x2F

/-- The segments of a path, `.` and empty ones dropped and `..` resolved, innermost first. -/
def resolveSegments : (stack : List Path) → (current : Path) → Path → List Path
  | stack, current, [] => closeSegment stack current.reverse
  | stack, current, u :: rest =>
    if u = 0x2F then resolveSegments (closeSegment stack current.reverse) [] rest
    else resolveSegments stack (u :: current) rest
where
  closeSegment (stack : List Path) (segment : Path) : List Path :=
    if segment = [] ∨ segment = [0x2E] then stack
    else if segment = [0x2E, 0x2E] then stack.tail
    else segment :: stack

/-- `path.resolve(cwd)`. -/
def resolve (fs : FileSystem) (cwd : Path) : Path :=
  let full := if isAbsolute cwd then cwd else fs.base ++ 0x2F :: cwd
  match (resolveSegments [] [] full).reverse with
  | [] => [0x2F]
  | segments => segments.flatMap fun segment => 0x2F :: segment

def canonicalCwd (fs : FileSystem) (cwd : Path) : Path :=
  match fs.realpath (resolve fs cwd) with
  | some resolved => resolved
  | none => resolve fs cwd

def resolveLaunchCwd (fs : FileSystem) (cwd : Path) : Option Path :=
  match fs.realpath (resolve fs cwd) with
  | some resolved => if fs.isDirectory resolved then some resolved else none
  | none => none

/-! ## The pair -/

/-- The pair a registration is matched on. -/
def PendingLaunch.onPair (cwd : Path) (permissionMode : PermissionMode) (pending : PendingLaunch) : Bool :=
  pending.cwd = cwd && pending.permissionMode = permissionMode

def markAmbiguousGroup (s : ServerState) (cwd : Path) (permissionMode : PermissionMode) : ServerState :=
  if (s.pendingLaunches.values.filter (PendingLaunch.onPair cwd permissionMode)).length < 2 then s
  else
    { s with pendingLaunches := s.pendingLaunches.mapVals fun _ pending =>
        if pending.onPair cwd permissionMode then { pending with ambiguous := true } else pending }

@[simps]
def markGroupMayHoldLiveWorker (s : ServerState) (cwd : Path) (permissionMode : PermissionMode) : ServerState :=
  { s with pendingLaunches := s.pendingLaunches.mapVals fun _ pending =>
      if pending.onPair cwd permissionMode then { pending with mayHoldLiveWorker := true } else pending }

def oldestPendingLaunch (s : ServerState) (cwd : Path) (permissionMode : PermissionMode) : Option PendingLaunch :=
  s.pendingLaunches.first (PendingLaunch.onPair cwd permissionMode)

/-! ## In and out of the table -/

/-- The timer is the `next` of the state before. -/
def trackPendingLaunch (s : ServerState) (sessionId : SessionId) (options : SessionLaunchOptions)
    (launched : LaunchedSession) : ServerState :=
  let cwd := canonicalCwd s.fs options.cwd
  let s := { s with
    sessions := s.sessions.set sessionId (createRegisteringSession sessionId options.permissionMode s.now)
    launchedSurfaces := s.launchedSurfaces.set sessionId launched }
  let timer := s.next
  let s := s.setTimeout s.config.registrationTimeoutMs (.evictPendingLaunch sessionId)
  let s := { s with
    pendingLaunches := s.pendingLaunches.set sessionId
      { sessionId, cwd, permissionMode := options.permissionMode, launched, timer
        ambiguous := false, mayHoldLiveWorker := false } }
  markAmbiguousGroup s cwd options.permissionMode

def consumePendingLaunch (s : ServerState) (sessionId : SessionId) : ServerState × Option PendingLaunch :=
  match s.pendingLaunches.get sessionId with
  | none => (s, none)
  | some pending =>
    ({ s.clearTimeout (some pending.timer) with pendingLaunches := s.pendingLaunches.erase sessionId }, some pending)

/-- The placeholder's row and its relay, and nothing else. -/
@[simps!]
def dropPlaceholder (s : ServerState) (sessionId : SessionId) : ServerState :=
  closeSessionRelay { s with sessions := s.sessions.erase sessionId } sessionId

/-- The id whose placeholder the registering worker takes, or `none` for a fresh one. -/
def claimPendingLaunch (s : ServerState) (cwd : Path) (permissionMode : PermissionMode) :
    ServerState × Option SessionId :=
  if isAbsolute cwd then
    match oldestPendingLaunch s (canonicalCwd s.fs cwd) permissionMode with
    | none => (s, none)
    | some claimed =>
      let consumed := (consumePendingLaunch s claimed.sessionId).1
      if claimed.ambiguous then
        (markGroupMayHoldLiveWorker (dropPlaceholder consumed claimed.sessionId) (canonicalCwd s.fs cwd)
          claimed.permissionMode, none)
      else (consumed, some claimed.sessionId)
  else (s, none)

/-- `clearPendingLaunches`, at shutdown: the timers disarmed, the rows kept. -/
def clearPendingLaunches (s : ServerState) : ServerState :=
  { s with
    timers := s.pendingLaunches.values.foldl (fun timers pending => timers.erase pending.timer) s.timers
    pendingLaunches := OrdMap.empty }

end Ccctl.Server
