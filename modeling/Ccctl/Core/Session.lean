import Ccctl.Core.Json
/-
  Ccctl.Core.Session — the session row and its pure transitions
  (`packages/core/src/index.ts`: `createSession`, `applyWorkerStatus`,
  `applyWorkerStatusFrame`, `recordHeartbeat`, `markSessionReady`, `markSessionClosed`,
  `isSessionStale`, `isInputAwaited`, and the `worker_status` frame guards).

  Every transition returns a new row. `applyWorkerStatusFrame` returns the row it was given
  for anything that is not a well-formed `worker_status`, and the server tests that by object
  identity: here that answer is `none`.

  A status decides the activity's kind by itself (`applyWorkerStatus_awaited`,
  `applyWorkerStatus_idle`). The detail of a `requires_action` goes through the normalizer
  twice, once in `applyWorkerStatus` and once in `sessionActivityFromStatus`, and each
  re-affirmation without a detail of its own sends the kept line through it again.
-/

namespace Ccctl.Core

/-- A `randomUUID()`, numbered by the order of minting. -/
abbrev SessionId := Nat

inductive SessionStatus where
  | registering | connecting | ready | busy | closed | errored
  deriving DecidableEq, Repr

inductive WorkerStatus where
  | running | requiresAction | idle
  deriving DecidableEq, Repr

inductive SessionActivity where
  | running
  | requiresAction (detail : JsString)
  | idle
  deriving DecidableEq, Repr

inductive PermissionMode where
  | default | acceptEdits | bypassPermissions | plan | dontAsk | auto
  deriving DecidableEq, Repr

def NON_PROMPTING_PERMISSION_MODES : List PermissionMode := [.acceptEdits, .bypassPermissions, .dontAsk, .auto]

def isNonPromptingPermissionMode (mode : PermissionMode) : Bool := NON_PROMPTING_PERMISSION_MODES.contains mode

structure Session where
  id : SessionId
  status : SessionStatus
  activity : SessionActivity
  autoResolvesPermissions : Bool
  createdAt : Nat
  lastActivityAt : Nat
  lastHeartbeatAt : Nat
  deriving DecidableEq, Repr

def createSession (id : SessionId) (permissionMode : PermissionMode) (now : Nat) : Session :=
  { id
    status := .connecting
    activity := .idle
    autoResolvesPermissions := isNonPromptingPermissionMode permissionMode
    createdAt := now
    lastActivityAt := now
    lastHeartbeatAt := now }

def createRegisteringSession (id : SessionId) (permissionMode : PermissionMode) (now : Nat) : Session :=
  { createSession id permissionMode now with status := .registering }

/-! ## `worker_status` frames -/

/-- `isWorkerStatus`, answering with the status it recognized. -/
def asWorkerStatus (value : Option Json) : Option WorkerStatus :=
  if Json.isText value (js "running") then some .running
  else if Json.isText value (js "requires_action") then some .requiresAction
  else if Json.isText value (js "idle") then some .idle
  else none

/-- The payload of a frame whose `type` is `control_event` and whose `subtype` is the given one. -/
def controlEventPayload (frame : Json) (subtype : JsString) : Option Json :=
  if Json.isText (frame.get (js "type")) (js "control_event") && Json.isText (frame.get (js "subtype")) subtype then
    frame.get (js "payload")
  else none

/-- `isWorkerStatusEvent`, answering with the status and the payload it rides in. -/
def workerStatusEvent (frame : Json) : Option (WorkerStatus × Json) := do
  let payload ← controlEventPayload frame (js "worker_status")
  let status ← asWorkerStatus (payload.get (js "status"))
  return (status, payload)

def MAX_SAFE_INTEGER : Int := 9007199254740991

/-- `Number.isSafeInteger(value) && value >= 0`. -/
def asWorkerStatusSequence : Option Json → Option Nat
  | some (.num q) => if q.den = 1 ∧ 0 ≤ q.num ∧ q.num ≤ MAX_SAFE_INTEGER then some q.num.toNat else none
  | _ => none

def workerStatusSequenceFromFrame (frame : Json) : Option Nat :=
  match workerStatusEvent frame with
  | some (_, payload) => asWorkerStatusSequence (payload.get (js "sequence_num"))
  | none => none

def isStaleWorkerStatusSequence (sequence highestApplied : Option Nat) : Bool :=
  match sequence, highestApplied with
  | some n, some h => n < h
  | _, _ => false

/-! ## Transitions -/

def sessionActivityFromStatus (status : WorkerStatus) (detail : Option JsString) : SessionActivity :=
  match status with
  | .running => .running
  | .requiresAction => .requiresAction (requiresActionDetail detail)
  | .idle => .idle

def isInputAwaited : SessionActivity → Bool
  | .requiresAction _ => true
  | _ => false

def isSessionStale (session : Session) (now staleAfterMs : Nat) : Bool := staleAfterMs < now - session.lastHeartbeatAt

/-- A re-affirmed `requires_action` keeps the line the row already carries. -/
def capturedRequiresActionDetail (session : Session) (status : WorkerStatus) : Option JsString :=
  match status, session.activity with
  | .requiresAction, .requiresAction detail => some detail
  | _, _ => none

def applyWorkerStatus (session : Session) (status : WorkerStatus) (detail : Option JsString) (now : Nat) : Session :=
  let resolved := (displayableDetail detail MAX_REQUIRES_ACTION_DETAIL_LENGTH).or
    (capturedRequiresActionDetail session status)
  { session with activity := sessionActivityFromStatus status resolved, lastActivityAt := now }

/-- `none`: the very row it was given. -/
def applyWorkerStatusFrame (session : Session) (frame : Json) (now : Nat) : Option Session :=
  match workerStatusEvent frame with
  | some (status, payload) => some (applyWorkerStatus session status (Json.asString (payload.get (js "detail"))) now)
  | none => none

def recordHeartbeat (session : Session) (now : Nat) : Session := { session with lastHeartbeatAt := now }

def markSessionReady (session : Session) : Session :=
  if session.status ≠ .connecting then session else { session with status := .ready }

def markSessionClosed (session : Session) : Session :=
  if session.status = .closed ∨ session.status = .errored then session else { session with status := .closed }

/-! ## What a status decides -/

@[simp] theorem isInputAwaited_fromStatus (status : WorkerStatus) (detail : Option JsString) :
    isInputAwaited (sessionActivityFromStatus status detail) = decide (status = .requiresAction) := by
  cases status <;> rfl

@[simp] theorem fromStatus_idle (status : WorkerStatus) (detail : Option JsString) :
    sessionActivityFromStatus status detail = .idle ↔ status = .idle := by
  cases status <;> simp [sessionActivityFromStatus]

theorem applyWorkerStatus_awaited (session : Session) (status : WorkerStatus) (detail : Option JsString) (now : Nat) :
    isInputAwaited (applyWorkerStatus session status detail now).activity = decide (status = .requiresAction) := by
  simp [applyWorkerStatus]

theorem applyWorkerStatus_idle (session : Session) (status : WorkerStatus) (detail : Option JsString) (now : Nat) :
    (applyWorkerStatus session status detail now).activity = .idle ↔ status = .idle := by
  simp [applyWorkerStatus]

@[simp] theorem markSessionReady_activity (session : Session) :
    (markSessionReady session).activity = session.activity := by
  unfold markSessionReady
  split <;> rfl

theorem markSessionReady_registering (session : Session) :
    (markSessionReady session).status = .registering ↔ session.status = .registering := by
  unfold markSessionReady
  split
  · rfl
  · rename_i h
    simp only [not_not] at h
    simp [h]

/-- A frame is stale exactly when it is stamped below a mark that exists. -/
theorem isStale_iff {sequence highest : Option Nat} :
    isStaleWorkerStatusSequence sequence highest = true ↔ ∃ n h, sequence = some n ∧ highest = some h ∧ n < h := by
  cases sequence <;> cases highest <;> simp [isStaleWorkerStatusSequence]

/-! ## The detail under repeated normalization -/

theorem requiresActionDetail_of_fixed {line : JsString}
    (h : displayableDetail (some line) MAX_REQUIRES_ACTION_DETAIL_LENGTH = some line) :
    requiresActionDetail (some line) = line := by
  simp [requiresActionDetail, h]

theorem requiresActionDetail_default :
    requiresActionDetail (some DEFAULT_REQUIRES_ACTION_DETAIL) = DEFAULT_REQUIRES_ACTION_DETAIL := by decide

/-- Either the default, or shorter than `line`: where a line with a format point ends up. -/
def Worn (line shown : JsString) : Prop := shown = DEFAULT_REQUIRES_ACTION_DETAIL ∨ shown.length < line.length

theorem worn_once {line : JsString} (h : ¬ FormatFree line) : Worn line (requiresActionDetail (some line)) := by
  cases hd : displayableDetail (some line) MAX_REQUIRES_ACTION_DETAIL_LENGTH with
  | none => exact Or.inl (by simp [requiresActionDetail, hd])
  | some shown =>
    refine Or.inr ?_
    rw [requiresActionDetail, hd, Option.getD_some]
    exact displayableDetail_shrinks (by decide) h hd

theorem Worn.again {line shown : JsString} (h : Worn line shown) : Worn line (requiresActionDetail (some shown)) := by
  rcases h with rfl | h
  · exact Or.inl requiresActionDetail_default
  · cases hd : displayableDetail (some shown) MAX_REQUIRES_ACTION_DETAIL_LENGTH with
    | none => exact Or.inl (by simp [requiresActionDetail, hd])
    | some next =>
      refine Or.inr ?_
      rw [requiresActionDetail, hd, Option.getD_some]
      exact ((displayableDetail_length_le (by decide) hd).trans (dropFormat_length_le shown)).trans_lt h

theorem Worn.ne {line shown : JsString} (h : Worn line shown) (hf : ¬ FormatFree line) : shown ≠ line := by
  intro heq
  subst heq
  rcases h with rfl | h
  · exact hf (by decide)
  · omega

end Ccctl.Core
