import Ccctl.Core.Session
/-
  Ccctl.Core.Enrichment — the pending question a browser may answer
  (`packages/core/src/index.ts`: `requiresActionEnrichmentFromValue`,
  `requiresActionEnrichmentFromFrame`, `answerEnvelopeFromValue`,
  `validateAnswerAgainstEnrichment`).

  Every guard fails closed to `none`: one bad option, label or question drops the whole. The
  only link between an answer and the block it answers is the number: validation asks that the
  echoed `sequence_num` equal the stored one (`validateAnswer_seq`), before it looks at labels.
-/

namespace Ccctl.Core

def MAX_ENRICHMENT_TEXT_LENGTH : Nat := MAX_REQUIRES_ACTION_DETAIL_LENGTH

def MAX_ENRICHMENT_QUESTIONS : Nat := 16

def MAX_ENRICHMENT_OPTIONS : Nat := 32

structure EnrichmentOption where
  label : JsString
  description : Option JsString
  deriving DecidableEq, Repr

structure EnrichmentQuestion where
  questionId : JsString
  prompt : JsString
  header : Option JsString
  options : List EnrichmentOption
  multiSelect : Bool
  deriving DecidableEq, Repr

structure RequiresActionEnrichment where
  sequenceNum : Nat
  questions : List EnrichmentQuestion
  deriving DecidableEq, Repr

/-- `Record<questionId, labels>`, in the order of its keys. -/
structure AnswerEnvelope where
  answers : List (JsString × List JsString)
  deriving DecidableEq, Repr

inductive AnswerRejection where
  | staleDecision | unknownQuestion | unofferedLabel | cardinality
  deriving DecidableEq, Repr

def enrichmentQuestionId (index : Nat) : JsString := js "q" ++ js (toString index)

/-- `/^q(?:0|[1-9][0-9]*)$/`. -/
def isEnrichmentQuestionId : JsString → Bool
  | [0x71, 0x30] => true
  | 0x71 :: d :: rest => isDigit d && d != 0x30 && rest.all isDigit
  | _ => false

def enrichmentText (value : Option Json) : Option JsString :=
  displayableDetail (Json.asString value) MAX_ENRICHMENT_TEXT_LENGTH

/-! ## Parsing a question -/

def enrichmentOptionFromValue (value : Json) : Option EnrichmentOption :=
  if value.isPlainObject then
    match enrichmentText (value.get (js "label")) with
    | none => none
    | some label => some { label, description := enrichmentText (value.get (js "description")) }
  else none

/-- The loop over `options`; `seenLabels` are those of the options before. -/
def enrichmentOptions (seenLabels : List JsString) : List Json → Option (List EnrichmentOption)
  | [] => some []
  | value :: rest =>
    match enrichmentOptionFromValue value with
    | none => none
    | some next =>
      if next.label ∈ seenLabels then none
      else (enrichmentOptions (next.label :: seenLabels) rest).map (next :: ·)

/-- Absent is single-select; present but not a boolean is drift. -/
def selectMode : Option Json → Option Bool
  | none => some false
  | some (.bool b) => some b
  | some _ => none

def enrichmentQuestionFromValue (value : Json) (index : Nat) : Option EnrichmentQuestion :=
  if value.isPlainObject then
    match enrichmentText (value.get (js "question")), selectMode (value.get (js "multiSelect")),
        Json.asArray (value.get (js "options")) with
    | some prompt, some multiSelect, some options =>
      if options.length = 0 ∨ MAX_ENRICHMENT_OPTIONS < options.length then none
      else
        match enrichmentOptions [] options with
        | none => none
        | some parsed =>
          some { questionId := enrichmentQuestionId index, prompt, header := enrichmentText (value.get (js "header"))
                 options := parsed, multiSelect }
    | _, _, _ => none
  else none

/-- The loop over `questions.entries()`, from `index`. -/
def enrichmentQuestions (index : Nat) : List Json → Option (List EnrichmentQuestion)
  | [] => some []
  | value :: rest =>
    match enrichmentQuestionFromValue value index with
    | none => none
    | some next => (enrichmentQuestions (index + 1) rest).map (next :: ·)

def requiresActionEnrichmentFromValue (value : Json) : Option RequiresActionEnrichment :=
  if value.isPlainObject then
    match asWorkerStatusSequence (value.get (js "sequence_num")), Json.asArray (value.get (js "questions")) with
    | some sequenceNum, some questions =>
      if questions.length = 0 ∨ MAX_ENRICHMENT_QUESTIONS < questions.length then none
      else (enrichmentQuestions 0 questions).map fun parsed => { sequenceNum, questions := parsed }
    | _, _ => none
  else none

/-- `isInputRequestEvent` and the payload's guard. -/
def requiresActionEnrichmentFromFrame (frame : Json) : Option RequiresActionEnrichment :=
  (controlEventPayload frame (js "input_request")).bind requiresActionEnrichmentFromValue

/-! ## Answers -/

/-- The inner loop of `answerEnvelopeFromValue`: every label normalized, or nothing. -/
def selectionLabels : List Json → Option (List JsString)
  | [] => some []
  | label :: rest =>
    match enrichmentText (some label) with
    | none => none
    | some displayLabel => (selectionLabels rest).map (displayLabel :: ·)

/-- The outer loop, over `Object.entries(answers)`. -/
def answerEntries : List (JsString × Json) → Option (List (JsString × List JsString))
  | [] => some []
  | (questionId, selection) :: rest =>
    if isEnrichmentQuestionId questionId then
      match Json.asArray (some selection) with
      | none => none
      | some labels =>
        if labels.length = 0 ∨ MAX_ENRICHMENT_OPTIONS < labels.length then none
        else
          match selectionLabels labels, answerEntries rest with
          | some parsed, some tail => some ((questionId, parsed) :: tail)
          | _, _ => none
    else none

/-- `value` is `none` for a command without a payload. -/
def answerEnvelopeFromValue (value : Option Json) : Option AnswerEnvelope :=
  match value.bind (·.get (js "answers")) with
  | some (.obj entries) =>
    if entries.length = 0 ∨ MAX_ENRICHMENT_QUESTIONS < entries.length then none
    else (answerEntries entries).map fun answers => ⟨answers⟩
  | _ => none

/-- One selection against its question: cardinality, then each label in order. -/
def selectionRejection (offered : List JsString) : (chosen : List JsString) → List JsString → Option AnswerRejection
  | _, [] => none
  | chosen, label :: rest =>
    if label ∉ offered then some .unofferedLabel
    else if label ∈ chosen then some .cardinality
    else selectionRejection offered (label :: chosen) rest

/-- `byId` keeps the last question of an id. -/
def questionRejection (questions : List EnrichmentQuestion) : List (JsString × List JsString) → Option AnswerRejection
  | [] => none
  | (questionId, selection) :: rest =>
    match questions.reverse.find? fun question => question.questionId = questionId with
    | none => some .unknownQuestion
    | some question =>
      if !question.multiSelect && selection.length != 1 then some .cardinality
      else
        match selectionRejection (question.options.map (·.label)) [] selection with
        | some reason => some reason
        | none => questionRejection questions rest

/-- `none` is `{ ok: true }`. -/
def validateAnswerAgainstEnrichment (enrichment : RequiresActionEnrichment) (envelope : AnswerEnvelope)
    (submittedSequenceNum : Option Nat) : Option AnswerRejection :=
  if submittedSequenceNum ≠ some enrichment.sequenceNum then some .staleDecision
  else questionRejection enrichment.questions envelope.answers

/-- An accepted answer echoes exactly the stored number. -/
theorem validateAnswer_seq {enrichment : RequiresActionEnrichment} {envelope : AnswerEnvelope} {submitted : Option Nat}
    (h : validateAnswerAgainstEnrichment enrichment envelope submitted = none) :
    submitted = some enrichment.sequenceNum := by
  unfold validateAnswerAgainstEnrichment at h
  split at h
  · cases h
  · rename_i hne
    simpa using hne

/-- A question's number is the one its frame carries. -/
theorem enrichmentFromValue_seq {value : Json} {enrichment : RequiresActionEnrichment}
    (h : requiresActionEnrichmentFromValue value = some enrichment) :
    asWorkerStatusSequence (value.get (js "sequence_num")) = some enrichment.sequenceNum := by
  unfold requiresActionEnrichmentFromValue at h
  split at h
  · split at h
    · rename_i n qs hn hq
      split at h
      · cases h
      · obtain ⟨parsed, -, rfl⟩ := Option.map_eq_some_iff.mp h
        exact hn
    · cases h
  · cases h

/-- A status frame carries no question. -/
theorem question_of_statusEvent {frame : Json} {status : WorkerStatus} {payload : Json}
    (h : workerStatusEvent frame = some (status, payload)) : requiresActionEnrichmentFromFrame frame = none := by
  have hstatus : Json.isText (frame.get (js "subtype")) (js "worker_status") = true := by
    by_contra hne
    simp [workerStatusEvent, controlEventPayload, hne] at h
  have hquestion : Json.isText (frame.get (js "subtype")) (js "input_request") = false := by
    cases hs : frame.get (js "subtype") with
    | none => rfl
    | some value =>
      rw [hs] at hstatus
      cases value with
      | str subtype =>
        obtain rfl : subtype = js "worker_status" := of_decide_eq_true hstatus
        decide
      | _ => rfl
  simp [requiresActionEnrichmentFromFrame, controlEventPayload, hquestion]

end Ccctl.Core
