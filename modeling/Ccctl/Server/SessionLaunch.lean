import Ccctl.Server.PendingLaunch
import Ccctl.Server.SessionClose
/-
  Ccctl.Server.SessionLaunch — a launch from the request to the pending row, and the
  registration that answers it (`packages/server/src/ui-session-launch.ts`: `launchSession`,
  `liveSessionCount`; `environments-bridge.ts`: `handleSessionCreate`).

  The slot is reserved before the launcher is awaited and given back in the same turn the row
  appears, or the launch fails.
-/

namespace Ccctl.Server

open Ccctl.Core Ccctl.Lib ServerState

inductive LaunchFailureCode where
  | launcherAbsent | atCapacity | malformedRequest | invalidCwd | workerNotFound | backendUnavailable | spawnFailed
  deriving DecidableEq, Repr

def LaunchFailureCode.wire : LaunchFailureCode → String
  | .launcherAbsent => "launcher-absent"
  | .atCapacity => "at-capacity"
  | .malformedRequest => "malformed-request"
  | .invalidCwd => "invalid-cwd"
  | .workerNotFound => "worker-not-found"
  | .backendUnavailable => "backend-unavailable"
  | .spawnFailed => "spawn-failed"

def LAUNCH_FAILURE_STATUS : LaunchFailureCode → Nat
  | .launcherAbsent => 501
  | .atCapacity => 429
  | .malformedRequest => 400
  | .invalidCwd => 400
  | .workerNotFound => 502
  | .backendUnavailable => 502
  | .spawnFailed => 502

def writeLaunchFailure (code : LaunchFailureCode) (message : String) : Reply :=
  .failure (LAUNCH_FAILURE_STATUS code) code.wire message

def atCapacityReason (live cap : Nat) : String :=
  let sessions := if live = 1 then "1 session is" else s!"{live} sessions are"
  s!"ccctl: at capacity — {sessions} live and the cap is {cap}, so this server will not launch another. " ++
  "End a session to free a slot, or raise the cap (`maxSessions`)."

/-- A path as the text of an error shows it. -/
def shownPath (path : Path) : String := String.ofList ((codePoints path).map Char.ofNat)

def invalidCwdReason (cwd : Path) : String :=
  "ccctl: cannot launch a session at `" ++ shownPath cwd ++ "` — it is not an existing directory"

def liveSessionCount (s : ServerState) : Nat := s.sessions.size + s.launchReservations.length

/-- The hook install of a launch: none when writing its settings failed. -/
def installHook (s : ServerState) (hookOk : Bool) : ServerState × Option HookInstall :=
  if hookOk then (installAskUserQuestionHookSettings s, some (hookInstallOf s.next)) else (s, none)

/-- Up to `launcher.launch`; the suspended call and its reservation are the `next` of the state before. -/
def launchSession (s : ServerState) (options : SessionLaunchOptions) (hookOk : Bool) : ServerState × Reply :=
  if s.config.launcher then
    if s.config.maxSessions ≤ liveSessionCount s then
      (s, writeLaunchFailure .atCapacity (atCapacityReason (liveSessionCount s) s.config.maxSessions))
    else
      match resolveLaunchCwd s.fs options.cwd with
      | none => (s, writeLaunchFailure .invalidCwd (invalidCwdReason options.cwd))
      | some cwd =>
        let op := s.next
        let s := { s with next := s.next + 1, launchReservations := s.launchReservations ++ [op] }
        let installed := installHook s hookOk
        (installed.1.park op (.launching { options with cwd } installed.2), .none)
  else
    (s, writeLaunchFailure .launcherAbsent
      "ccctl: no session launcher is configured — this server cannot launch sessions")

def releaseReservation (s : ServerState) (op : OpId) : ServerState :=
  { s with launchReservations := s.launchReservations.filter (· ≠ op) }

/-- The launcher opened the terminal; the session is the `next` of the state before. -/
def launchOpened (s : ServerState) (op : OpId) (options : SessionLaunchOptions) (hookInstall : Option HookInstall)
    (attachable : Bool) (hint : String) : ServerState × Reply :=
  let sessionId := s.next
  let s := { s with next := s.next + 1 }
  let s := trackPendingLaunch s sessionId options ⟨op, attachable, hint⟩
  let s := match hookInstall with
    | none => s
    | some install => { s with hookInstalls := s.hookInstalls.set sessionId install }
  ((releaseReservation s op).finish op, .launched sessionId attachable hint)

def launchFailed (s : ServerState) (op : OpId) (hookInstall : Option HookInstall) (code : LaunchFailureCode)
    (message : String) : ServerState × Reply :=
  let s := match hookInstall with
    | none => s
    | some install => cleanupHookInstall s install
  ((releaseReservation s op).finish op, writeLaunchFailure code message)

/-- A fresh id is the `next` of the state before. -/
def handleSessionCreate (s : ServerState) (cwd : Path) (permissionMode : PermissionMode) : ServerState × Reply :=
  let claim := claimPendingLaunch s cwd permissionMode
  let sessionId := claim.2.getD s.next
  ({ claim.1 with
    next := s.next + 1
    sessions := claim.1.sessions.set sessionId (createSession sessionId permissionMode s.now)
    out := claim.1.out ++ [.enqueueWork sessionId] }, .created sessionId)

end Ccctl.Server
