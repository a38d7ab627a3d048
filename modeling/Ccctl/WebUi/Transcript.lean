import Ccctl.Server.Frames
/-
  Ccctl.WebUi.Transcript — what the page makes of one event of its stream
  (`packages/web-ui/src/transcript.js`).

  The page reads a relayed frame for itself, from its text, with decoders of its own. They agree with
  the server's: what the server folded into a session as a status the page renders as one, with the
  same stamp, and as nothing else; the server's terminal frame is the only thing of the server's that
  ends the page's stream; and the two decoders never both accept (`instruction_relayed`).
-/

namespace Ccctl.WebUi

open Ccctl.Core Ccctl.Lib
open Ccctl.Server (Payload Uuids sessionClosedEvent statusText SESSION_NEEDS_INPUT_EVENT_TYPE SESSION_IDLE_EVENT_TYPE)

def CONTROL_EVENT_TYPE : JsString := js "control_event"

def WORKER_STATUS_SUBTYPE : JsString := js "worker_status"

def WORKER_STATUSES : List JsString := [js "running", js "requires_action", js "idle"]

def DEFAULT_REQUIRES_ACTION_DETAIL : JsString := js "Awaiting input."

def SESSION_CLOSED_EVENT_TYPE : JsString := js "ccctl_session_closed"

def TERMINAL_SESSION_STATUSES : List JsString := [js "closed", js "errored"]

/-- `list.includes(value)`, of texts. -/
def includesText (list : List JsString) (value : Option Json) : Bool :=
  match value with
  | some (.str s) => s ∈ list
  | _ => false

section
variable (host : JsonHost)

def decodeControlEvent (data : JsString) : Option Json :=
  match Json.parse host data with
  | none => none
  | some value =>
    if value.isPlainObject = false then none
    else if Json.isText (value.get (js "type")) CONTROL_EVENT_TYPE = false then none
    else
      match Json.asString (value.get (js "subtype")) with
      | none | some [] => none
      | some _ => some value

/-- The status it reports. -/
def decodeSessionClosed (data : JsString) : Option JsString :=
  match Json.parse host data with
  | none => none
  | some value =>
    if value.isPlainObject = false then none
    else if Json.isText (value.get (js "type")) SESSION_CLOSED_EVENT_TYPE = false ∨
        includesText TERMINAL_SESSION_STATUSES (value.get (js "status")) = false then none
    else Json.asString (value.get (js "status"))

def closedText (status : JsString) : JsString :=
  if status = js "errored" then js "Session ended — errored." else js "Session ended."

def isWorkerStatusEvent (event : Json) : Bool :=
  Json.isText (event.get (js "subtype")) WORKER_STATUS_SUBTYPE &&
    match event.get (js "payload") with
    | some payload => payload.isPlainObject && includesText WORKER_STATUSES (payload.get (js "status"))
    | none => false

def activityText (status : JsString) (detail : Option Json) : JsString :=
  if status = js "running" then js "Running…"
  else if status = js "requires_action" then
    match Json.asString detail with
    | some detail => if trim detail ≠ [] then detail else DEFAULT_REQUIRES_ACTION_DETAIL
    | none => DEFAULT_REQUIRES_ACTION_DETAIL
  else if status = js "idle" then js "Idle"
  else status

structure Activity where
  status : JsString
  text : JsString
  sequenceNum : Option Nat
  deriving DecidableEq

def activityFromEvent (event : Json) : Option Activity :=
  if isWorkerStatusEvent event then
    match event.get (js "payload") with
    | some payload =>
      (Json.asString (payload.get (js "status"))).map fun status =>
        { status, text := activityText status (payload.get (js "detail"))
          sequenceNum := asWorkerStatusSequence (payload.get (js "sequence_num")) }
    | none => none
  else none

def summarizePayload (payload : Option Json) : JsString :=
  match payload with
  | some (.obj fields) =>
    match Json.asString ((Json.obj fields).get (js "text")), Json.asString ((Json.obj fields).get (js "message")) with
    | some text, _ => text
    | none, some message => message
    | none, none => Json.stringify host (.obj fields)
  | some (.arr items) => Json.stringify host (.arr items)
  | _ => []

inductive Instruction where
  | activity (activity : Activity)
  | transcript (subtype summary : JsString)
  | closed (status text : JsString)
  | unparsed (raw : JsString)
  deriving DecidableEq

def processEventData (data : JsString) : Instruction :=
  match decodeControlEvent host data with
  | some event =>
    match activityFromEvent event with
    | some activity => .activity activity
    | none =>
      .transcript ((Json.asString (event.get (js "subtype"))).getD []) (summarizePayload host (event.get (js "payload")))
  | none =>
    match decodeSessionClosed host data with
    | some status => .closed status (closedText status)
    | none => .unparsed data

end

/-! ## The decoders -/

section
variable {host : JsonHost} {data : JsString} {frame : Json}

theorem isText_iff {value : Option Json} {text : JsString} : Json.isText value text = true ↔ value = some (.str text) := by
  unfold Json.isText
  split <;> simp_all

theorem isPlainObject_of_get {key : JsString} {value : Json} (h : frame.get key = some value) : frame.isPlainObject = true := by
  cases frame with
  | obj fields => rfl
  | _ => simp [Json.get, Json.entries] at h

/-- A text that reads as a control event, of a frame read back from it. -/
theorem decodeControlEvent_iff (hparse : Json.parse host data = some frame) {event : Json} :
    decodeControlEvent host data = some event ↔
      event = frame ∧ frame.get (js "type") = some (.str CONTROL_EVENT_TYPE) ∧
        ∃ u rest, frame.get (js "subtype") = some (.str (u :: rest)) := by
  simp only [decodeControlEvent, hparse]
  by_cases htype : frame.get (js "type") = some (.str CONTROL_EVENT_TYPE)
  · have hobject := isPlainObject_of_get htype
    rw [if_neg (by simp [hobject]), if_neg (by simp [isText_iff.mpr htype])]
    cases hsubtype : frame.get (js "subtype") with
    | none => simp [Json.asString]
    | some value =>
      cases value with
      | str text => cases text <;> simp [Json.asString, htype, eq_comm]
      | _ => simp [Json.asString]
  · have hnot : Json.isText (frame.get (js "type")) CONTROL_EVENT_TYPE = false := by
      rw [Bool.eq_false_iff]
      exact fun h => htype (isText_iff.mp h)
    simp [hnot, htype]

theorem includesText_iff {list : List JsString} {value : Option Json} :
    includesText list value = true ↔ ∃ s ∈ list, value = some (.str s) := by
  unfold includesText
  split <;> simp_all

theorem decodeSessionClosed_iff (hparse : Json.parse host data = some frame) {status : JsString} :
    decodeSessionClosed host data = some status ↔
      frame.get (js "type") = some (.str SESSION_CLOSED_EVENT_TYPE) ∧ status ∈ TERMINAL_SESSION_STATUSES ∧
        frame.get (js "status") = some (.str status) := by
  simp only [decodeSessionClosed, hparse]
  by_cases htype : frame.get (js "type") = some (.str SESSION_CLOSED_EVENT_TYPE)
  · have hobject := isPlainObject_of_get htype
    rw [if_neg (by simp [hobject])]
    by_cases hstatus : includesText TERMINAL_SESSION_STATUSES (frame.get (js "status")) = true
    · rw [if_neg (by simp [isText_iff.mpr htype, hstatus])]
      obtain ⟨s, hs, hget⟩ := includesText_iff.mp hstatus
      rw [hget]
      constructor
      · intro h
        obtain rfl : s = status := Option.some.inj h
        exact ⟨htype, hs, rfl⟩
      · intro h
        exact congrArg some (Json.str.inj (Option.some.inj h.2.2))
    · rw [if_pos (.inr (Bool.eq_false_iff.mpr hstatus))]
      refine iff_of_false (by simp) fun h => hstatus (includesText_iff.mpr ⟨status, h.2.1, h.2.2⟩)
  · have hnot : Json.isText (frame.get (js "type")) SESSION_CLOSED_EVENT_TYPE = false := by
      rw [Bool.eq_false_iff]
      exact fun h => htype (isText_iff.mp h)
    simp [hnot, htype]

/-! ## The server's reading and the page's -/

def workerStatusText : WorkerStatus → JsString
  | .running => js "running"
  | .requiresAction => js "requires_action"
  | .idle => js "idle"

theorem asWorkerStatus_iff {value : Option Json} {status : WorkerStatus} :
    asWorkerStatus value = some status ↔ value = some (.str (workerStatusText status)) := by
  have hdistinct : js "running" ≠ js "requires_action" ∧ js "running" ≠ js "idle" ∧ js "requires_action" ≠ js "idle" := by
    decide
  unfold asWorkerStatus
  split
  case isTrue h =>
    rw [isText_iff.mp h]
    cases status <;> simp [workerStatusText, hdistinct.1, hdistinct.2.1]
  case isFalse hrunning =>
    split
    case isTrue h =>
      rw [isText_iff.mp h]
      cases status <;> simp [workerStatusText, hdistinct.1.symm, hdistinct.2.2]
    case isFalse haction =>
      split
      case isTrue h =>
        rw [isText_iff.mp h]
        cases status <;> simp [workerStatusText, hdistinct.2.1.symm, hdistinct.2.2.symm]
      case isFalse hidle =>
        rw [isText_iff] at hrunning haction hidle
        cases status <;> simp_all [workerStatusText]

/-- The status of a frame's event, as the page renders it. -/
def rendered (status : WorkerStatus) (payload : Json) : Activity :=
  { status := workerStatusText status
    text := activityText (workerStatusText status) (payload.get (js "detail"))
    sequenceNum := asWorkerStatusSequence (payload.get (js "sequence_num")) }

theorem workerStatusEvent_iff {status : WorkerStatus} {payload : Json} :
    workerStatusEvent frame = some (status, payload) ↔
      frame.get (js "type") = some (.str CONTROL_EVENT_TYPE) ∧
        frame.get (js "subtype") = some (.str WORKER_STATUS_SUBTYPE) ∧ frame.get (js "payload") = some payload ∧
        payload.get (js "status") = some (.str (workerStatusText status)) := by
  have hpayload : ∀ payload, controlEventPayload frame (js "worker_status") = some payload ↔
      frame.get (js "type") = some (.str CONTROL_EVENT_TYPE) ∧
        frame.get (js "subtype") = some (.str WORKER_STATUS_SUBTYPE) ∧ frame.get (js "payload") = some payload := by
    intro payload
    unfold controlEventPayload
    split
    case isTrue h =>
      rw [Bool.and_eq_true, isText_iff, isText_iff] at h
      exact ⟨fun hget => ⟨h.1, h.2, hget⟩, fun hall => hall.2.2⟩
    case isFalse h =>
      rw [Bool.and_eq_true, isText_iff, isText_iff] at h
      exact iff_of_false (by simp) fun hall => h ⟨hall.1, hall.2.1⟩
  simp only [workerStatusEvent, Option.bind_eq_bind, Option.bind_eq_some_iff, Option.pure_def, Option.some.injEq,
    Prod.mk.injEq, asWorkerStatus_iff, hpayload]
  constructor
  · intro hex
    obtain ⟨payload', ⟨htype, hsubtype, hget⟩, status', hstatus, rfl, rfl⟩ := hex
    exact ⟨htype, hsubtype, hget, hstatus⟩
  · intro hparts
    obtain ⟨htype, hsubtype, hget, hstatus⟩ := hparts
    exact ⟨payload, ⟨htype, hsubtype, hget⟩, status, hstatus, rfl, rfl⟩

theorem mem_workerStatuses {text : JsString} : text ∈ WORKER_STATUSES ↔ ∃ status, text = workerStatusText status := by
  constructor
  · intro h
    simp only [WORKER_STATUSES, List.mem_cons, List.not_mem_nil, or_false] at h
    rcases h with rfl | rfl | rfl
    · exact ⟨.running, rfl⟩
    · exact ⟨.requiresAction, rfl⟩
    · exact ⟨.idle, rfl⟩
  · intro hex
    obtain ⟨status, rfl⟩ := hex
    cases status <;> simp [WORKER_STATUSES, workerStatusText]

theorem isWorkerStatusEvent_iff : isWorkerStatusEvent frame = true ↔
    frame.get (js "subtype") = some (.str WORKER_STATUS_SUBTYPE) ∧
      ∃ status payload, frame.get (js "payload") = some payload ∧
        payload.get (js "status") = some (.str (workerStatusText status)) := by
  unfold isWorkerStatusEvent
  rw [Bool.and_eq_true, isText_iff]
  refine and_congr_right fun _ => ?_
  cases hpayload : frame.get (js "payload") with
  | none => simp
  | some payload =>
    simp only [Bool.and_eq_true, includesText_iff, Option.some.injEq, exists_eq_left', mem_workerStatuses]
    constructor
    · intro hparts
      obtain ⟨-, s, ⟨status, rfl⟩, hget⟩ := hparts
      exact ⟨status, hget⟩
    · intro hex
      obtain ⟨status, hget⟩ := hex
      exact ⟨isPlainObject_of_get hget, _, ⟨status, rfl⟩, hget⟩

theorem activityFromEvent_iff {activity : Activity} :
    activityFromEvent frame = some activity ↔ frame.get (js "subtype") = some (.str WORKER_STATUS_SUBTYPE) ∧
      ∃ status payload, frame.get (js "payload") = some payload ∧
        payload.get (js "status") = some (.str (workerStatusText status)) ∧ activity = rendered status payload := by
  unfold activityFromEvent
  split
  case isTrue h =>
    obtain ⟨hsubtype, status, payload, hpayload, hstatus⟩ := isWorkerStatusEvent_iff.mp h
    simp only [hpayload, hstatus, Json.asString, Option.map_some, Option.some.injEq, hsubtype, true_and]
    constructor
    · intro heq
      subst heq
      exact ⟨status, payload, rfl, hstatus, rfl⟩
    · intro hex
      obtain ⟨status', payload', rfl, hstatus', rfl⟩ := hex
      rw [hstatus] at hstatus'
      have hsame := Json.str.inj (Option.some.inj hstatus')
      simp only [rendered, hsame]
  case isFalse h =>
    refine iff_of_false (by simp) ?_
    intro hparts
    obtain ⟨hsubtype, status, payload, hpayload, hstatus, -⟩ := hparts
    exact h (isWorkerStatusEvent_iff.mpr ⟨hsubtype, status, payload, hpayload, hstatus⟩)

/-- The page renders a status exactly where the server reads one. -/
theorem processEventData_activity (hparse : Json.parse host data = some frame) (activity : Activity) :
    processEventData host data = .activity activity ↔
      ∃ status payload, workerStatusEvent frame = some (status, payload) ∧ activity = rendered status payload := by
  simp only [workerStatusEvent_iff]
  unfold processEventData
  cases hevent : decodeControlEvent host data with
  | none =>
    have hnone : ∀ status text, Instruction.closed status text ≠ .activity activity := fun _ _ => by simp
    refine iff_of_false (fun h => ?_) ?_
    · cases hclosed : decodeSessionClosed host data <;> simp [hclosed] at h
    · intro hex
      obtain ⟨status, payload, ⟨htype, hsubtype, -⟩, -⟩ := hex
      have hsome := (decodeControlEvent_iff hparse).mpr ⟨rfl, htype, _, _, hsubtype⟩
      rw [hevent] at hsome
      cases hsome
  | some event =>
    obtain ⟨rfl, htype, -⟩ := (decodeControlEvent_iff hparse).mp hevent
    cases hactivity : activityFromEvent event with
    | none =>
      refine iff_of_false (by simp [hactivity]) ?_
      intro hex
      obtain ⟨status, payload, ⟨-, hsubtype, hpayload, hstatus⟩, rfl⟩ := hex
      have hsome := activityFromEvent_iff.mpr ⟨hsubtype, status, payload, hpayload, hstatus, rfl⟩
      rw [hactivity] at hsome
      cases hsome
    | some found =>
      obtain ⟨hsubtype, status, payload, hpayload, hstatus, rfl⟩ := activityFromEvent_iff.mp hactivity
      simp only [hactivity, Instruction.activity.injEq]
      constructor
      · intro heq
        subst heq
        exact ⟨status, payload, ⟨htype, hsubtype, hpayload, hstatus⟩, rfl⟩
      · intro hex
        obtain ⟨status', payload', ⟨-, -, hpayload', hstatus'⟩, rfl⟩ := hex
        have hsome := activityFromEvent_iff.mpr ⟨hsubtype, status', payload', hpayload', hstatus', rfl⟩
        rw [hactivity] at hsome
        exact Option.some.inj hsome

/-- The two decoders never both accept, so the one that is asked first decides nothing. -/
theorem decoders_disjoint (hparse : Json.parse host data = some frame) {status : JsString}
    (hclosed : decodeSessionClosed host data = some status) : decodeControlEvent host data = none := by
  have htype := ((decodeSessionClosed_iff hparse).mp hclosed).1
  by_contra hsome
  obtain ⟨event, hevent⟩ := Option.ne_none_iff_exists'.mp hsome
  have hother := ((decodeControlEvent_iff hparse).mp hevent).2.1
  rw [htype] at hother
  exact absurd (Json.str.inj (Option.some.inj hother)) (by decide)

theorem processEventData_closed (hparse : Json.parse host data = some frame) (status text : JsString) :
    processEventData host data = .closed status text ↔
      (frame.get (js "type") = some (.str SESSION_CLOSED_EVENT_TYPE) ∧ status ∈ TERMINAL_SESSION_STATUSES ∧
        frame.get (js "status") = some (.str status)) ∧ text = closedText status := by
  rw [← decodeSessionClosed_iff hparse]
  unfold processEventData
  cases hclosed : decodeSessionClosed host data with
  | none =>
    refine iff_of_false (fun h => ?_) (by simp)
    cases hevent : decodeControlEvent host data with
    | none => simp [hevent] at h
    | some event => cases hactivity : activityFromEvent event <;> simp [hevent, hactivity] at h
  | some found =>
    rw [decoders_disjoint hparse hclosed]
    simp only [Instruction.closed.injEq, Option.some.injEq]
    constructor
    · intro hboth
      obtain ⟨rfl, rfl⟩ := hboth
      exact ⟨rfl, rfl⟩
    · intro hand
      obtain ⟨rfl, rfl⟩ := hand
      exact ⟨rfl, rfl⟩

end

/-! ## What was relayed -/

/-- A relayed frame, as the page reads it. -/
structure Relayed (payload : Payload) (instruction : Instruction) : Prop where
  /-- A worker's frame is rendered as a status exactly when the server folded it as one, with its stamp. -/
  activity : ∀ frame, payload = .worker frame → ∀ activity, instruction = .activity activity ↔
    ∃ status event, workerStatusEvent frame = some (status, event) ∧ activity = rendered status event
  /-- The server's terminal frame is the end of the stream. -/
  closed : ∀ id status, payload = .closed id status → status = .closed ∨ status = .errored →
    instruction = .closed (statusText status) (closedText (statusText status))
  /-- Nothing else of the server's is, nor a worker's frame that does not pose as it. -/
  open_ : (∀ id status, payload ≠ .closed id status) →
    (∀ frame, payload = .worker frame → frame.get (js "type") ≠ some (.str SESSION_CLOSED_EVENT_TYPE)) →
    ∀ status text, instruction ≠ .closed status text

theorem instruction_relayed (host : JsonHost) (uuids : Uuids) (payload : Payload)
    (hwell : (payload.value uuids).WellFormed host) :
    Relayed payload (processEventData host (Json.stringify host (payload.value uuids))) := by
  have hparse := Json.parse_stringify hwell
  refine ⟨fun frame hframe activity => ?_, fun id status hclosed hterminal => ?_, fun hother htype status text hclosed => ?_⟩
  · subst hframe
    exact processEventData_activity hparse activity
  · subst hclosed
    refine (processEventData_closed hparse _ _).mpr ⟨⟨?_, ?_, ?_⟩, rfl⟩
    · simp [Server.Payload.value, sessionClosedEvent, Json.get_cons, Server.SESSION_CLOSED_EVENT_TYPE,
        SESSION_CLOSED_EVENT_TYPE]
    · rcases hterminal with rfl | rfl <;> simp [TERMINAL_SESSION_STATUSES, statusText]
    · simp +decide [Server.Payload.value, sessionClosedEvent, Json.get_cons]
  · obtain ⟨⟨htyped, -⟩, -⟩ := (processEventData_closed hparse status text).mp hclosed
    cases payload with
    | worker frame => exact htype frame rfl htyped
    | closed id status => exact hother id status rfl
    | needsInput id detail =>
      simp +decide [Server.Payload.value, Server.needsInputEvent, Json.get_cons] at htyped
    | idle id threshold => simp +decide [Server.Payload.value, Server.idleEvent, Json.get_cons] at htyped

/-- A worker blocked on its operator, with the stamp of its block. -/
def blockedFrame : Json :=
  .obj [(js "type", .str CONTROL_EVENT_TYPE), (js "subtype", .str WORKER_STATUS_SUBTYPE),
    (js "payload", .obj [(js "status", .str (js "requires_action")), (js "detail", .str (js "Go on?")),
      (js "sequence_num", .num 7)])]

theorem blockedFrame_wellFormed : blockedFrame.WellFormed integerHost := by
  refine .names [js "type", js "subtype", js "payload"] rfl (by decide) (by decide) fun f hf => ?_
  simp only [List.mem_cons, List.not_mem_nil, or_false] at hf
  rcases hf with rfl | rfl | rfl
  · exact .str _
  · exact .str _
  · refine .names [js "status", js "detail", js "sequence_num"] rfl (by decide) (by decide) fun f hf => ?_
    simp only [List.mem_cons, List.not_mem_nil, or_false] at hf
    rcases hf with rfl | rfl | rfl
    · exact .str _
    · exact .str _
    · exact .num (integerHost.safe 7 (by decide) (by decide))

theorem instruction_relayed_blocked :
    processEventData integerHost (Json.stringify integerHost blockedFrame) =
        .activity ⟨js "requires_action", js "Go on?", some 7⟩ ∧
      Relayed (.worker blockedFrame) (processEventData integerHost (Json.stringify integerHost blockedFrame)) := by
  have hrelayed := instruction_relayed integerHost Server.digitUuids (.worker blockedFrame) blockedFrame_wellFormed
  refine ⟨?_, hrelayed⟩
  have hevent : workerStatusEvent blockedFrame = some (.requiresAction, .obj [(js "status", .str (js "requires_action")),
      (js "detail", .str (js "Go on?")), (js "sequence_num", .num 7)]) := rfl
  exact (hrelayed.activity blockedFrame rfl _).mpr ⟨_, _, hevent, by decide +kernel⟩

end Ccctl.WebUi
