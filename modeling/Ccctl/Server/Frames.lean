import Ccctl.Core.ControlFrame
import Ccctl.Core.JsonReadBack
import Ccctl.Core.Spelt
import Ccctl.Lib.EventSource
import Ccctl.Server.Relay
/-
  Ccctl.Server.Frames — what the event streams put on the wire
  (`packages/server/src/event-stream.ts`: `encodeSseEvent`, `writeChunk`, the greeting of
  `handleEventStream`, `parseLastEventId`; `worker-channel.ts`: `needsInputEvent`, `idleEvent`,
  `BLOCKING_NOTIFICATION`, `INFORMATIONAL_NOTIFICATION`; `session-close.ts`: `sessionClosedEvent`).

  A subscription is the greeting, a comment, and then one frame an event: its id, its JSON as
  `data` lines, an empty line. The text is spelt, so the bytes are the text, and a browser that has
  read any prefix of them in any chunks has been handed the events whose frames are in that prefix,
  each once, under its id and with its JSON, and nothing of the frame after (`subscriber_reads`).
-/

namespace Ccctl.Server

open Ccctl.Core Ccctl.Lib ServerState

/-! ## What is written -/

/-- A unit of a UUID: a digit, `a` to `f`, or the hyphen. -/
def isUuidUnit (u : UInt16) : Bool := isDigit u || (0x61 ≤ u.toNat && u.toNat ≤ 0x66) || u == 0x2D

/-- `randomUUID()`: the text of what was minted under a number. -/
structure Uuids where
  text : Nat → JsString
  units : ∀ n, ∀ u ∈ text n, isUuidUnit u = true
  ne_nil : ∀ n, text n ≠ []
  injective : Function.Injective text

def statusText : SessionStatus → JsString
  | .registering => js "registering"
  | .connecting => js "connecting"
  | .ready => js "ready"
  | .busy => js "busy"
  | .closed => js "closed"
  | .errored => js "errored"

def SESSION_IDLE_EVENT_TYPE : JsString := js "ccctl_session_idle"

def SESSION_NEEDS_INPUT_EVENT_TYPE : JsString := js "ccctl_session_needs_input"

def SESSION_CLOSED_EVENT_TYPE : JsString := js "ccctl_session_closed"

def BLOCKING_NOTIFICATION : Json.Fields :=
  [(js "notification_class", .str (js "blocking")), (js "urgency", .str (js "high")), (js "renudge", .bool true),
    (js "batchable", .bool false)]

def INFORMATIONAL_NOTIFICATION : Json.Fields :=
  [(js "notification_class", .str (js "informational")), (js "urgency", .str (js "low")), (js "renudge", .bool false),
    (js "batchable", .bool true)]

section
variable (uuids : Uuids)

def needsInputEvent (sessionId : SessionId) (detail : JsString) : Json :=
  .obj ([(js "type", .str SESSION_NEEDS_INPUT_EVENT_TYPE), (js "session_id", .str (uuids.text sessionId)),
    (js "detail", .str detail)] ++ BLOCKING_NOTIFICATION)

def idleEvent (sessionId : SessionId) (thresholdMs : Nat) : Json :=
  .obj ([(js "type", .str SESSION_IDLE_EVENT_TYPE), (js "session_id", .str (uuids.text sessionId)),
    (js "idle_threshold_ms", .num thresholdMs)] ++ INFORMATIONAL_NOTIFICATION)

def sessionClosedEvent (sessionId : SessionId) (status : SessionStatus) : Json :=
  .obj [(js "type", .str SESSION_CLOSED_EVENT_TYPE), (js "session_id", .str (uuids.text sessionId)),
    (js "status", .str (statusText status))]

/-- The JSON of a broadcast. -/
def Payload.value : Payload → Json
  | .worker payload => payload
  | .needsInput sessionId detail => needsInputEvent uuids sessionId detail
  | .idle sessionId thresholdMs => idleEvent uuids sessionId thresholdMs
  | .closed sessionId status => sessionClosedEvent uuids sessionId status

end

section
variable (host : JsonHost)

def encodeSseEvent (id : Nat) (payload : Json) : JsString :=
  let dataLines := [0x0A].intercalate (((Json.stringify host payload).splitOn 0x0A).map fun line => js "data: " ++ line)
  js "id: " ++ digitsText id ++ [0x0A] ++ dataLines ++ [0x0A, 0x0A]

def STREAM_GREETING : JsString := js ": ccctl event stream" ++ [0x0A, 0x0A]

/-- Everything written to a subscriber's response, from its greeting on. -/
def subscriptionText (uuids : Uuids) (events : List (Nat × Payload)) : JsString :=
  STREAM_GREETING ++ events.flatMap fun e => encodeSseEvent host e.1 (e.2.value uuids)

/-- What an event is handed out as. -/
def message (uuids : Uuids) (e : Nat × Payload) : Dispatched :=
  ⟨[], codePoints (Json.stringify host (e.2.value uuids)), codePoints (digitsText e.1)⟩

end

/-- What `Number(text)` makes of a text, `none` for NaN; a safe integer's digits are that integer. -/
structure NumberReader where
  value : JsString → Option Rat
  digits : ∀ n : Nat, n ≤ 9007199254740991 → value (digitsText n) = some n

def parseLastEventId (number : NumberReader) (header : Option JsString) : Option Int :=
  match header with
  | none => none
  | some value =>
    if trim value = [] then none
    else
      match number.value value with
      | none => none
      | some parsed => if parsed.den = 1 then some parsed.num else none

/-! ## The frames as blocks -/

/-- A field list of the format. -/
abbrev EventFields := List (List Nat × List Nat)

def greetingFields : EventFields := [([], ascii "ccctl event stream")]

def eventFields (host : JsonHost) (id : Nat) (payload : Json) : EventFields :=
  (ascii "id", codePoints (digitsText id)) :: EventReader.dataFields (codePoints (Json.stringify host payload))

theorem oneLine_spelt {text : JsString} (h : Spelt text) : EventReader.OneLine (codePoints text) := by
  intro p hp
  have hspace := (h.printable p hp).2
  unfold LF CR
  omega

theorem dataFields_spelt {text : JsString} (h : Spelt text) :
    EventReader.dataFields (codePoints text) = [(ascii "data", codePoints text)] := by
  have hnot : LF ∉ codePoints text := fun hmem => (oneLine_spelt h LF hmem).1 rfl
  rw [EventReader.dataFields, List.splitOn_eq_singleton hnot, List.map_singleton]

section
variable (host : JsonHost)

theorem eventFields_eq (id : Nat) (payload : Json) : eventFields host id payload =
    [(ascii "id", codePoints (digitsText id)), (ascii "data", codePoints (Json.stringify host payload))] := by
  rw [eventFields, dataFields_spelt (Json.spelt_stringify host payload)]

theorem encodeSseEvent_eq (id : Nat) (payload : Json) :
    encodeSseEvent host id payload = encode (EventReader.block (eventFields host id payload)) := by
  have hline := (Json.spelt_stringify host payload).noLineFeed
  have hcolon : encode [COLON, SPACE] = js ": " := rfl
  have hends : encode [LF] = [0x0A] := rfl
  have hid : encode (ascii "id") ++ encode [COLON, SPACE] = js "id: " := by decide
  have hdata : encode (ascii "data") ++ encode [COLON, SPACE] = js "data: " := by decide
  have hfield : ∀ name value : List Nat, EventReader.ended (EventReader.fieldLine (name, value)) =
      (name ++ [COLON, SPACE]) ++ value ++ [LF] := fun name value => by
    simp [EventReader.ended, EventReader.fieldLine]
  rw [eventFields_eq, EventReader.block, List.flatMap_cons, List.flatMap_cons, List.flatMap_nil, hfield, hfield]
  simp only [encode_append, hid, hdata, hends, encode_codePoints, List.append_nil]
  rw [encodeSseEvent, List.splitOn_eq_singleton hline]
  simp [List.intercalate]

theorem greeting_eq : STREAM_GREETING = encode (EventReader.block greetingFields) := by decide

theorem subscriptionText_eq (uuids : Uuids) (events : List (Nat × Payload)) :
    subscriptionText host uuids events =
      encode ((greetingFields :: events.map fun e => eventFields host e.1 (e.2.value uuids)).flatMap EventReader.block) := by
  have htail : ∀ events : List (Nat × Payload), (events.flatMap fun e => encodeSseEvent host e.1 (e.2.value uuids)) =
      encode ((events.map fun e => eventFields host e.1 (e.2.value uuids)).flatMap EventReader.block) := by
    intro events
    induction events with
    | nil => rfl
    | cons e events ih => rw [List.flatMap_cons, List.map_cons, List.flatMap_cons, encode_append, ih, encodeSseEvent_eq]
  rw [subscriptionText, greeting_eq, htail, List.flatMap_cons, encode_append]

theorem written_event (id : Nat) (payload : Json) : ∀ f ∈ eventFields host id payload, EventReader.Written f := by
  have hname : ∀ name ∈ [ascii "id", ascii "data"], EventReader.OneLine name ∧ COLON ∉ name := by
    unfold EventReader.OneLine
    decide
  rw [eventFields_eq]
  intro f hf
  rcases List.mem_cons.mp hf with rfl | hf
  · exact ⟨(hname _ (by simp)).1, (hname _ (by simp)).2, oneLine_spelt (spelt_digitsText id)⟩
  · rw [List.mem_singleton.mp hf]
    exact ⟨(hname _ (by simp)).1, (hname _ (by simp)).2, oneLine_spelt (Json.spelt_stringify host payload)⟩

theorem written_greeting : ∀ f ∈ greetingFields, EventReader.Written f := by
  intro f hf
  rw [List.mem_singleton.mp hf]
  refine ⟨by simp [EventReader.OneLine], by simp, ?_⟩
  unfold EventReader.OneLine
  decide

/-- Lines and separators of scalar values. -/
theorem scalar_block {fields : EventFields}
    (h : ∀ f ∈ fields, (∀ p ∈ f.1, isScalar p = true) ∧ ∀ p ∈ f.2, isScalar p = true) :
    ∀ p ∈ EventReader.block fields, isScalar p = true := by
  have hmarks : ∀ p ∈ [COLON, SPACE, LF], isScalar p = true := by decide
  intro p hp
  rcases List.mem_append.mp hp with hp | hp
  · obtain ⟨f, hf, hp⟩ := List.mem_flatMap.mp hp
    rcases List.mem_append.mp hp with hp | hp
    · rcases List.mem_append.mp hp with hp | hp
      · exact (h f hf).1 p hp
      · rcases List.mem_cons.mp hp with rfl | hp
        · exact hmarks _ (by simp)
        · rcases List.mem_cons.mp hp with rfl | hp
          · exact hmarks _ (by simp)
          · exact (h f hf).2 p hp
    · exact hmarks p (by simp [List.mem_singleton.mp hp])
  · exact hmarks p (by simp [List.mem_singleton.mp hp])

theorem scalar_event (id : Nat) (payload : Json) :
    ∀ p ∈ EventReader.block (eventFields host id payload), isScalar p = true := by
  have hname : ∀ name ∈ [ascii "id", ascii "data"], ∀ p ∈ name, isScalar p = true := by decide
  refine scalar_block fun f hf => ?_
  rw [eventFields_eq] at hf
  rcases List.mem_cons.mp hf with rfl | hf
  · exact ⟨hname _ (by simp), fun p hp => ((spelt_digitsText id).printable p hp).1⟩
  · rw [List.mem_singleton.mp hf]
    exact ⟨hname _ (by simp), fun p hp => ((Json.spelt_stringify host payload).printable p hp).1⟩

theorem scalar_greeting : ∀ p ∈ EventReader.block greetingFields, isScalar p = true := by decide

/-! ## What a browser makes of them -/

variable (uuids : Uuids)

def fieldsOf (e : Nat × Payload) : EventFields := eventFields host e.1 (e.2.value uuids)

variable {host uuids}

theorem gathered_event {r : EventReader} (hr : r.AtRest) (e : Nat × Payload) :
    r.gathered (fieldsOf host uuids e) =
      { r with
        idBuffer := codePoints (digitsText e.1)
        data := codePoints (Json.stringify host (e.2.value uuids)) ++ [LF] } := by
  have hid : 0 ∉ codePoints (digitsText e.1) := fun hmem =>
    absurd ((spelt_digitsText e.1).printable 0 hmem).2 (by decide)
  rw [fieldsOf, eventFields, EventReader.gathered, List.foldl_cons, EventReader.field_id hid]
  refine (EventReader.gathered_data _).trans ?_
  rw [hr.data, List.nil_append]

theorem dispatch_event {r : EventReader} (hr : r.AtRest) (e : Nat × Payload) :
    (r.gathered (fieldsOf host uuids e)).dispatch =
      ({ r with idBuffer := codePoints (digitsText e.1), lastEventId := codePoints (digitsText e.1) },
        [message host uuids e]) := by
  rw [gathered_event hr, EventReader.dispatch, if_neg (by simp)]
  simp only [message, hr.name, hr.data, List.dropLast_concat]

/-- The last event id after these events, from what it was before. -/
def idAfter (before : List Nat) (events : List (Nat × Payload)) : List Nat :=
  (events.getLast?.map fun e => codePoints (digitsText e.1)).getD before

theorem idAfter_cons (before : List Nat) (e : Nat × Payload) (events : List (Nat × Payload)) :
    idAfter (codePoints (digitsText e.1)) events = idAfter before (e :: events) := by
  unfold idAfter
  rw [List.getLast?_cons]
  cases events.getLast? <;> rfl

theorem told_events {r : EventReader} (hr : r.AtRest) (events : List (Nat × Payload)) :
    (r.told (events.map (fieldsOf host uuids))).2 = events.map (message host uuids) ∧
      (r.told (events.map (fieldsOf host uuids))).1.lastEventId = idAfter r.lastEventId events := by
  induction events generalizing r with
  | nil => exact ⟨rfl, rfl⟩
  | cons e events ih =>
    have hrest : EventReader.AtRest
        { r with idBuffer := codePoints (digitsText e.1), lastEventId := codePoints (digitsText e.1) } :=
      ⟨⟨hr.begun, hr.line, hr.feed⟩, hr.name, hr.data⟩
    obtain ⟨htold, hid⟩ := ih hrest
    rw [List.map_cons, EventReader.told, dispatch_event hr, htold, hid]
    exact ⟨rfl, idAfter_cons r.lastEventId e events⟩

/-- The empty line of the greeting dispatches nothing, and sets the last event id from the buffer. -/
theorem dispatch_greeting {r : EventReader} (hr : r.AtRest) :
    (r.gathered greetingFields).dispatch = ({ r with lastEventId := r.idBuffer }, []) := by
  have hsame : r.gathered greetingFields = r := by
    show r.field [] (ascii "ccctl event stream") = r
    rw [EventReader.field, if_neg (by decide), if_neg (by decide), if_neg (by decide)]
  rw [hsame, EventReader.dispatch, if_pos hr.data]
  simp only [hr.name, hr.data]

end

/-! ## A subscription, read -/

section
variable (host : JsonHost) (uuids : Uuids)

/-- The bytes of a subscription that was sent these events. -/
def subscriptionBytes (events : List (Nat × Payload)) : List Nat := formBytes (subscriptionText host uuids events)

/-- The bytes hold the greeting and the frames of the first `k` events, and not the next one's. -/
structure Framed (events : List (Nat × Payload)) (bytes : List Nat) (k : Nat) : Prop where
  count : k ≤ events.length
  whole : subscriptionBytes host uuids (events.take k) <+: bytes
  partial_ : k < events.length → ¬ subscriptionBytes host uuids (events.take (k + 1)) <+: bytes

end

variable {host : JsonHost} {uuids : Uuids}

theorem subscriptionBytes_eq (events : List (Nat × Payload)) :
    subscriptionBytes host uuids events = EventReader.wire (greetingFields :: events.map (fieldsOf host uuids)) := by
  have hscalar : ∀ p ∈ (greetingFields :: events.map (fieldsOf host uuids)).flatMap EventReader.block,
      isScalar p = true := by
    intro p hp
    obtain ⟨fields, hfields, hp⟩ := List.mem_flatMap.mp hp
    rcases List.mem_cons.mp hfields with rfl | hfields
    · exact scalar_greeting p hp
    · obtain ⟨e, -, rfl⟩ := List.mem_map.mp hfields
      exact scalar_event host _ _ p hp
  rw [subscriptionBytes, subscriptionText_eq]
  exact formBytes_encode hscalar

/-- A subscription's later bytes follow its earlier ones. -/
theorem subscriptionBytes_grows {events later : List (Nat × Payload)} (h : events <+: later) :
    subscriptionBytes host uuids events <+: subscriptionBytes host uuids later := by
  obtain ⟨more, rfl⟩ := h
  rw [subscriptionBytes_eq, subscriptionBytes_eq, EventReader.wire, EventReader.wire, List.map_append, ← List.cons_append,
    List.flatMap_append, List.flatMap_append]
  exact List.prefix_append _ _

theorem isSpace_digit {u : UInt16} (h : isDigit u = true) : isSpace u = false := by
  simp only [isDigit, Bool.and_eq_true, decide_eq_true_eq] at h
  have hall : ∀ n < 0x3A, 0x30 ≤ n → isSpace (UInt16.ofNat n) = false := by decide
  rw [← UInt16.ofNat_toNat (x := u)]
  exact hall u.toNat (by omega) h.1

theorem parseLastEventId_digits (number : NumberReader) {n : Nat} (h : n ≤ 9007199254740991) :
    parseLastEventId number (some (digitsText n)) = some (n : Int) := by
  obtain ⟨d, rest, htext, hdigit, -⟩ := digitsText_shape n
  have hread : trim (digitsText n) ≠ [] := by
    rw [htext]
    exact trim_ne_nil List.mem_cons_self (isSpace_digit hdigit)
  simp only [parseLastEventId, hread, if_false, number.digits n h]
  rfl

/-- Of the bytes that have come, nothing before the greeting is whole; after it, the events whose frames
    are whole, and the last event id is the last one's. -/
theorem opened_reads (events : List (Nat × Payload)) (idBuffer lastEventId : List Nat) {bytes : List Nat}
    (hpre : bytes <+: subscriptionBytes host uuids events) :
    (¬ subscriptionBytes host uuids [] <+: bytes ∧ ((Connection.opened idBuffer lastEventId).receive bytes).2 = [] ∧
      ((Connection.opened idBuffer lastEventId).receive bytes).1.reader.lastEventId = lastEventId) ∨
    ∃ k, Framed host uuids events bytes k ∧
      ((Connection.opened idBuffer lastEventId).receive bytes).2 = (events.take k).map (message host uuids) ∧
      ((Connection.opened idBuffer lastEventId).receive bytes).1.reader.lastEventId = idAfter idBuffer (events.take k) := by
  have hwritten : ∀ b ∈ greetingFields :: events.map (fieldsOf host uuids), ∀ f ∈ b, EventReader.Written f := by
    intro b hb
    rcases List.mem_cons.mp hb with rfl | hb
    · exact written_greeting
    · obtain ⟨e, -, rfl⟩ := List.mem_map.mp hb
      exact written_event host _ _
  have hscalar : ∀ b ∈ greetingFields :: events.map (fieldsOf host uuids), ∀ p ∈ EventReader.block b,
      isScalar p = true := by
    intro b hb
    rcases List.mem_cons.mp hb with rfl | hb
    · exact scalar_greeting
    · obtain ⟨e, -, rfl⟩ := List.mem_map.mp hb
      exact scalar_event host _ _
  rw [subscriptionBytes_eq] at hpre
  obtain ⟨k, harrived, htold, hid⟩ := EventReader.receive_opened hwritten hscalar idBuffer lastEventId
    (by rw [List.flatMap_cons]; simp [greetingFields, EventReader.block, EventReader.ended, EventReader.fieldLine, COLON, BYTE_ORDER_MARK]) hpre
  rw [htold, hid]
  cases k with
  | zero =>
    refine .inl ⟨?_, rfl, rfl⟩
    have hnot := harrived.partial_ (Nat.succ_pos _)
    rwa [subscriptionBytes_eq]
  | succ k =>
    refine .inr ⟨k, ⟨?_, ?_, ?_⟩, ?_⟩
    · simpa using harrived.count
    · rw [subscriptionBytes_eq, List.map_take]
      exact harrived.whole
    · intro hk
      rw [subscriptionBytes_eq, List.map_take]
      exact harrived.partial_ (by simpa using hk)
    · have hbegun : EventReader.AtRest { EventReader.opened idBuffer lastEventId with begun := true } :=
        ⟨⟨rfl, rfl, rfl⟩, rfl, rfl⟩
      rw [List.take_succ_cons, EventReader.told, dispatch_greeting hbegun, ← List.map_take]
      have hread : EventReader.AtRest
          { EventReader.opened idBuffer lastEventId with begun := true, lastEventId := idBuffer } :=
        ⟨⟨rfl, rfl, rfl⟩, rfl, rfl⟩
      obtain ⟨htold, hid⟩ := told_events hread (events.take k)
      exact ⟨htold, hid⟩

/-! ## Over a run -/

section
variable (host uuids)

/-- What a browser was handed of these events, from these bytes: those whose frames have come whole. -/
structure Handed (events : List (Nat × Payload)) (bytes : List Nat) (told : List Dispatched) (k : Nat) : Prop where
  count : k ≤ events.length
  told : told = (events.take k).map (message host uuids)
  whole : 0 < k → subscriptionBytes host uuids (events.take k) <+: bytes
  partial_ : k < events.length → ¬ subscriptionBytes host uuids (events.take (k + 1)) <+: bytes

end

variable (host uuids) in
theorem opened_handed (events : List (Nat × Payload)) (idBuffer lastEventId : List Nat) {bytes : List Nat}
    (hpre : bytes <+: subscriptionBytes host uuids events) :
    ∃ k, Handed host uuids events bytes ((Connection.opened idBuffer lastEventId).receive bytes).2 k := by
  rcases opened_reads events idBuffer lastEventId hpre with ⟨hgreeting, hnone, -⟩ | ⟨k, hframed, htold, -⟩
  · refine ⟨0, Nat.zero_le _, hnone, fun hpos => absurd hpos (Nat.lt_irrefl 0), fun _ hwhole => hgreeting ?_⟩
    exact (subscriptionBytes_grows List.nil_prefix).trans hwhole
  · exact ⟨k, hframed.count, htold, fun _ => hframed.whole, hframed.partial_⟩

/-- The JSON of an event is read back. -/
theorem message_value (e : Nat × Payload) (h : (e.2.value uuids).WellFormed host) :
    Json.parse host (encode (message host uuids e).data) = some (e.2.value uuids) := by
  rw [message, encode_codePoints]
  exact Json.parse_stringify h

/-- In every run, whatever pieces of a subscription's bytes have come, in whatever chunks. -/
theorem subscriber_reads {s : ServerState} {w : Streams} (h : RelayRun (s, w)) {sub : Subscription}
    (hsub : sub ∈ w.subscriptions) (idBuffer lastEventId : List Nat) {chunks : List (List Nat)}
    (hchunks : chunks.flatten <+: subscriptionBytes host uuids (received s.out sub.res)) :
    (∃ k, Handed host uuids sub.window chunks.flatten
      ((Connection.opened idBuffer lastEventId).receiveAll chunks).2 k) ∧
    ∀ e ∈ sub.window, (e.2.value uuids).WellFormed host →
      Json.parse host (encode (message host uuids e).data) = some (e.2.value uuids) := by
  rw [h.ok.window sub hsub] at hchunks
  rw [Connection.receiveAll_eq]
  exact ⟨opened_handed host uuids _ _ _ hchunks, fun e _ hvalue => message_value e hvalue⟩

/-- Numbers for UUIDs. -/
def digitUuids : Uuids where
  text := digitsText
  units n u hu := by
    obtain ⟨d, rest, htext, hd, hrest, -⟩ := digitsText_shape n
    rw [htext] at hu
    have hdigit : isDigit u = true := by
      rcases List.mem_cons.mp hu with rfl | hu
      · exact hd
      · exact hrest u hu
    rw [isUuidUnit, hdigit]
    rfl
  ne_nil n := by
    obtain ⟨d, rest, htext, -⟩ := digitsText_shape n
    rw [htext]
    exact List.cons_ne_nil d rest
  injective n m h := by
    rw [← digitsValue_digitsText n, h, digitsValue_digitsText]

/-- The subscriber of `watching`, after the first frame and some of the second, in two chunks. -/
theorem subscriber_reads_watching :
    let p := runFrom (watched relayStep streamsWatch) (housing, Streams.empty) watching
    let bytes := subscriptionBytes integerHost digitUuids (received p.1.out 3)
    let sub : Subscription := ⟨3, 1, some 1, 2, [.worker (.num 1), .worker (.num 2), .worker (.num 3)], false⟩
    (∃ k, Handed integerHost digitUuids sub.window [bytes.take 25, (bytes.drop 25).take 20].flatten
      ((Connection.opened [] []).receiveAll [bytes.take 25, (bytes.drop 25).take 20]).2 k) ∧
    ∀ e ∈ sub.window, (e.2.value digitUuids).WellFormed integerHost →
      Json.parse integerHost (encode (message integerHost digitUuids e).data) = some (e.2.value digitUuids) := by
  intro p bytes sub
  have hstart : RelayStart (housing, Streams.empty) := ⟨fun _ => rfl, rfl, rfl⟩
  have hrun : RelayRun (p.1, p.2) := (Reach.start hstart).run_allowed (by simp [watching, allowed, relayAllowed])
  have hsub : sub ∈ p.2.subscriptions := List.mem_singleton.mpr rfl
  have hcut : [bytes.take 25, (bytes.drop 25).take 20].flatten = bytes.take 45 := by
    rw [List.flatten_cons, List.flatten_cons, List.flatten_nil, List.append_nil, ← List.take_add]
  exact subscriber_reads hrun hsub [] [] (hcut ▸ List.take_prefix 45 bytes)

end Ccctl.Server
