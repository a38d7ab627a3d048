import Ccctl.Server.WorkerChannel
/-
  Ccctl.Server.UiCommand — a browser's steer (`packages/server/src/ui-command.ts`:
  `parseUiCommand`, `handleUiCommand`, `answerRejection`, `relayCommand`).

  An answer is checked for shape, then against the buffered question, then relayed, and only a
  relay that went through consumes the question. The session's activity is read nowhere on the
  way.
-/

namespace Ccctl.Server

open Ccctl.Core Ccctl.Lib ServerState

def INPUT_SUBTYPE : JsString := js "prompt"

def ANSWER_SUBTYPE : JsString := js "answer"

structure UiCommand where
  subtype : JsString
  payload : Option Json

/-- `body` is `none` when the text is not JSON. -/
def parseUiCommand (body : Option Json) : Option UiCommand :=
  match body with
  | none => none
  | some value =>
    match Json.asString (value.get (js "subtype")) with
    | none => none
    | some subtype =>
      if subtype = [] then none
      else
        match value.get (js "payload") with
        | none => some { subtype, payload := none }
        | some payload => if payload.isPlainObject then some { subtype, payload := some payload } else none

/-- `command.payload?.field`. -/
def UiCommand.field (command : UiCommand) (key : JsString) : Option Json := command.payload.bind (·.get key)

/-- The number an `answer` echoes. -/
def UiCommand.echoed (command : UiCommand) : Option Nat :=
  asWorkerStatusSequence (command.field (js "sequence_num"))

def rejectionReason : AnswerRejection → String
  | .staleDecision => "stale-decision"
  | .unknownQuestion => "unknown-question"
  | .unofferedLabel => "unoffered-label"
  | .cardinality => "cardinality"

def refusedAnswer (sessionId : SessionId) (reason : String) : Reply :=
  .error 409 s!"ccctl: answer refused ({reason}) — it does not match session {sessionId}'s outstanding decision"

/-- `none`: the answer is well formed and answers the buffered question. -/
def answerRejection (s : ServerState) (sessionId : SessionId) (command : UiCommand) : Option Reply :=
  match answerEnvelopeFromValue command.payload with
  | none => some (.error 400 "ccctl: an `answer` command requires a well-formed `payload` AnswerEnvelope")
  | some envelope =>
    match s.requiresActionEnrichments.get sessionId with
    | none => some (.error 409 s!"ccctl: session {sessionId} has no outstanding AskUserQuestion to answer")
    | some enrichment =>
      (validateAnswerAgainstEnrichment enrichment envelope command.echoed).map fun reason =>
        refusedAnswer sessionId (rejectionReason reason)

/-- What a command puts in the `client_event`; an answer goes down normalized. -/
def relayedPayload (id : Nat) (command : UiCommand) : Option ClientPayload :=
  if command.subtype = INPUT_SUBTYPE then
    some (.user ((Json.asString (command.field (js "text"))).getD []))
  else if command.subtype = ANSWER_SUBTYPE then
    (answerEnvelopeFromValue command.payload).map fun answer => .answer id answer
  else some (.command id command.subtype command.payload)

/-- `none` is the throw. -/
def relayCommand (s : ServerState) (sessionId : SessionId) (id : Nat) (command : UiCommand) : Option ServerState :=
  match relayedPayload id command with
  | none => some s
  | some payload => pushClientEvent s sessionId payload

/-- The refusal before anything is relayed, if any. -/
def commandRefusal (s : ServerState) (sessionId : SessionId) (command : UiCommand) : Option Reply :=
  if command.subtype = INPUT_SUBTYPE then
    match Json.asString (command.field (js "text")) with
    | none => some (.error 400 "ccctl: a `prompt` command requires a non-empty `payload.text`")
    | some text =>
      if trim text = [] then some (.error 400 "ccctl: a `prompt` command requires a non-empty `payload.text`") else none
  else if command.subtype = ANSWER_SUBTYPE then answerRejection s sessionId command
  else none

/-- The correlation id is the `next` of the state before. -/
def handleUiCommand (s : ServerState) (sessionId : SessionId) (body : Option Json) : ServerState × Reply :=
  match parseUiCommand body with
  | none => (s, .error 400 "ccctl: malformed command (expected JSON `\x7b subtype, payload? \x7d`)")
  | some command =>
    if s.sessions.has sessionId then
      match commandRefusal s sessionId command with
      | some refusal => (s, refusal)
      | none =>
        let id := s.next
        match relayCommand { s with next := s.next + 1 } sessionId id command with
        | none => (s, .error 409 s!"ccctl: session {sessionId} has no live worker channel")
        | some relayed =>
          (if command.subtype = ANSWER_SUBTYPE then consumeInputRequestEnrichment relayed sessionId else relayed,
            .accepted id)
    else (s, unknownSessionReply sessionId)

end Ccctl.Server
