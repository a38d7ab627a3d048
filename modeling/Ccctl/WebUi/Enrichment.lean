import Ccctl.Core.Answering
import Ccctl.Server.UiCommand
/-
  Ccctl.WebUi.Enrichment — the browser's half of a question and its answer
  (`packages/web-ui/src/enrichment.js`: `decodeEnrichment`, `answerFromSelections`;
  `packages/web-ui/src/command.js`: `answerCommand`).

  What the core parses, the browser decodes from its JSON text to the same value
  (`decodeEnrichment_text`): the decoder asks less of it than the parser guarantees. An answer
  is built exactly when every question is answered within its cardinality
  (`answerFromSelections_some`), and it then is a selection in the core's sense, so the core's
  own condition decides whether the server accepts it (`mirror_agrees`).
-/

namespace Ccctl.WebUi

open Ccctl.Core Ccctl.Lib
open Ccctl.Server (UiCommand parseUiCommand)

def MAX_ENRICHMENT_QUESTIONS : Nat := 16

def MAX_ENRICHMENT_OPTIONS : Nat := 32

def ANSWER_SUBTYPE : JsString := js "answer"

/-! ## Decoding -/

def displayString : Option Json → Option JsString
  | some (.str s) => if trim s ≠ [] then some s else none
  | _ => none

def decodeEnrichmentOption (value : Json) : Option EnrichmentOption :=
  if value.isPlainObject then
    match displayString (value.get (js "label")) with
    | none => none
    | some label => some { label, description := displayString (value.get (js "description")) }
  else none

/-- The loop over `options`. -/
def decodeOptions : List Json → Option (List EnrichmentOption)
  | [] => some []
  | value :: rest =>
    match decodeEnrichmentOption value with
    | none => none
    | some decoded => (decodeOptions rest).map (decoded :: ·)

def asBoolean : Option Json → Option Bool
  | some (.bool b) => some b
  | _ => none

def decodeEnrichmentQuestion (value : Json) : Option EnrichmentQuestion :=
  if value.isPlainObject then
    match displayString (value.get (js "questionId")), displayString (value.get (js "prompt")),
        asBoolean (value.get (js "multiSelect")), Json.asArray (value.get (js "options")) with
    | some questionId, some prompt, some multiSelect, some options =>
      if options.length = 0 ∨ MAX_ENRICHMENT_OPTIONS < options.length then none
      else
        match decodeOptions options with
        | none => none
        | some parsed =>
          some { questionId, prompt, header := displayString (value.get (js "header")), options := parsed, multiSelect }
    | _, _, _, _ => none
  else none

/-- The loop over `questions`. -/
def decodeQuestions : List Json → Option (List EnrichmentQuestion)
  | [] => some []
  | value :: rest =>
    match decodeEnrichmentQuestion value with
    | none => none
    | some decoded => (decodeQuestions rest).map (decoded :: ·)

/-- `none` is `undefined`. -/
def decodeEnrichment (value : Option Json) : Option RequiresActionEnrichment :=
  match value with
  | none => none
  | some value =>
    if value.isPlainObject then
      match asWorkerStatusSequence (value.get (js "sequenceNum")), Json.asArray (value.get (js "questions")) with
      | some sequenceNum, some questions =>
        if questions.length = 0 ∨ MAX_ENRICHMENT_QUESTIONS < questions.length then none
        else (decodeQuestions questions).map fun parsed => { sequenceNum, questions := parsed }
      | _, _ => none
    else none

/-! ## Answering -/

/-- The labels chosen for one question, each offered and none twice. -/
def distinctOffered (offered : List JsString) : (seen : List JsString) → List Json → Option (List JsString)
  | _, [] => some []
  | seen, .str label :: rest =>
    if label ∉ offered ∨ label ∈ seen then none else (distinctOffered offered (label :: seen) rest).map (label :: ·)
  | _, _ :: _ => none

def chosenLabels (question : EnrichmentQuestion) (chosen : Option Json) : Option (List JsString) :=
  match Json.asArray chosen with
  | none => none
  | some chosen =>
    if chosen.length = 0 then none
    else if !question.multiSelect && chosen.length != 1 then none
    else distinctOffered (question.options.map (·.label)) [] chosen

/-- The loop over `enrichment.questions`. -/
def answersFrom (selections : Json) (answers : Json.Fields) : List EnrichmentQuestion → Option Json.Fields
  | [] => some answers
  | question :: rest =>
    match chosenLabels question (selections.get question.questionId) with
    | none => none
    | some chosen =>
      answersFrom selections (Json.setProp answers question.questionId (.arr (chosen.map .str))) rest

/-- `none` is `null` or `undefined`, of both arguments. -/
def answerFromSelections (enrichment : Option RequiresActionEnrichment) (selections : Option Json) : Option Json.Fields :=
  match enrichment, selections with
  | some enrichment, some selections =>
    if selections.isPlainObject then answersFrom selections [] enrichment.questions else none
  | _, _ => none

/-- A nonempty array of nonblank strings. -/
def answerable : Json → Bool
  | .arr labels => !labels.isEmpty && labels.all fun label => (displayString (some label)).isSome
  | _ => false

def answerCommand (sequenceNum answers : Json) : Option Json :=
  if (asWorkerStatusSequence (some sequenceNum)).isSome then
    match answers with
    | .obj entries =>
      if entries ≠ [] ∧ entries.all (fun entry => answerable entry.2) then
        some (.obj [(js "subtype", .str ANSWER_SUBTYPE),
          (js "payload", .obj [(js "answers", .obj entries), (js "sequence_num", sequenceNum)])])
      else none
    | _ => none
  else none

/-! ## The text of a question -/

def optionJson (option : EnrichmentOption) : Json :=
  .obj ((js "label", .str option.label) :: (option.description.map fun text => (js "description", Json.str text)).toList)

def questionJson (question : EnrichmentQuestion) : Json :=
  .obj ([(js "questionId", .str question.questionId), (js "prompt", .str question.prompt),
    (js "options", .arr (question.options.map optionJson)), (js "multiSelect", .bool question.multiSelect)] ++
    (question.header.map fun text => (js "header", Json.str text)).toList)

/-- The value the server sends of a question. -/
def enrichmentJson (enrichment : RequiresActionEnrichment) : Json :=
  .obj [(js "sequenceNum", .num enrichment.sequenceNum), (js "questions", .arr (enrichment.questions.map questionJson))]

/-! ## The text is decoded to the question -/

@[simp] theorem displayString_none : displayString none = none := rfl

theorem displayString_tidy {maxLength : Nat} {text : JsString} (h : Tidy maxLength text) :
    displayString (some (.str text)) = some text := by
  have htrim : trim text ≠ [] := by
    rw [trim_of_trimmed h.head h.last]
    exact h.nonempty
  rw [displayString, if_pos htrim]

theorem decodeOption_json {option : EnrichmentOption} (h : option.Sound) :
    decodeEnrichmentOption (optionJson option) = some option := by
  obtain ⟨label, description⟩ := option
  cases description with
  | none =>
    simp +decide [decodeEnrichmentOption, optionJson, Json.isPlainObject, Json.get_cons, displayString_tidy h.label]
  | some text =>
    simp +decide [decodeEnrichmentOption, optionJson, Json.isPlainObject, Json.get_cons, displayString_tidy h.label,
      displayString_tidy (h.description text rfl)]

theorem decodeOptions_json {options : List EnrichmentOption} (h : ∀ option ∈ options, option.Sound) :
    decodeOptions (options.map optionJson) = some options := by
  induction options with
  | nil => rfl
  | cons option rest ih =>
    rw [List.map_cons, decodeOptions, decodeOption_json (h option List.mem_cons_self),
      ih fun o ho => h o (List.mem_cons_of_mem _ ho)]
    rfl

/-- A minted id is not blank. -/
theorem displayString_minted : ∀ index < Core.MAX_ENRICHMENT_QUESTIONS,
    displayString (some (.str (enrichmentQuestionId index))) = some (enrichmentQuestionId index) := by
  intro index hindex
  have htrim : ∀ i < Core.MAX_ENRICHMENT_QUESTIONS, trim (enrichmentQuestionId i) ≠ [] := by decide
  rw [displayString, if_pos (htrim index hindex)]

theorem decodeQuestion_json {question : EnrichmentQuestion} (h : question.Sound) {index : Nat}
    (hindex : index < Core.MAX_ENRICHMENT_QUESTIONS) (hid : question.questionId = enrichmentQuestionId index) :
    decodeEnrichmentQuestion (questionJson question) = some question := by
  obtain ⟨questionId, prompt, header, options, multiSelect⟩ := question
  dsimp only at hid
  subst hid
  have hcount : ¬ (options.length = 0 ∨ MAX_ENRICHMENT_OPTIONS < options.length) := by
    have hcap := h.capped
    have hpos := List.length_pos_iff.mpr h.offers
    dsimp only at hcap hpos
    unfold MAX_ENRICHMENT_OPTIONS
    unfold Core.MAX_ENRICHMENT_OPTIONS at hcap
    omega
  have hoptions := decodeOptions_json h.options
  have hprompt := displayString_tidy h.prompt
  dsimp only at hoptions hprompt
  cases header with
  | none =>
    simp +decide only [decodeEnrichmentQuestion, questionJson, Json.isPlainObject, Json.get_cons, Option.map_none,
      Option.toList_none, List.append_nil, displayString_minted index hindex, hprompt, asBoolean, Json.asArray, if_true,
      if_false, List.length_map, hcount, hoptions, Json.get_nil]
    rfl
  | some text =>
    have hheader := displayString_tidy (h.header text rfl)
    simp +decide only [decodeEnrichmentQuestion, questionJson, Json.isPlainObject, Json.get_cons, Option.map_some,
      Option.toList_some, List.cons_append, List.nil_append, displayString_minted index hindex, hprompt, asBoolean,
      Json.asArray, if_true, if_false, List.length_map, hcount, hoptions, hheader]

theorem decodeQuestions_json {questions : List EnrichmentQuestion} (h : ∀ question ∈ questions, question.Sound)
    (hids : ∀ question ∈ questions, ∃ index < Core.MAX_ENRICHMENT_QUESTIONS,
      question.questionId = enrichmentQuestionId index) :
    decodeQuestions (questions.map questionJson) = some questions := by
  induction questions with
  | nil => rfl
  | cons question rest ih =>
    obtain ⟨index, hindex, hid⟩ := hids question List.mem_cons_self
    rw [List.map_cons, decodeQuestions, decodeQuestion_json (h question List.mem_cons_self) hindex hid,
      ih (fun q hq => h q (List.mem_cons_of_mem _ hq)) fun q hq => hids q (List.mem_cons_of_mem _ hq)]
    rfl

/-- A safe number comes back through the guard. -/
theorem asWorkerStatusSequence_nat {n : Nat} (h : (n : Int) ≤ MAX_SAFE_INTEGER) :
    asWorkerStatusSequence (some (.num n)) = some n := by
  simp [asWorkerStatusSequence, h]

theorem decodeEnrichment_json {enrichment : RequiresActionEnrichment} (h : enrichment.Sound) :
    decodeEnrichment (some (enrichmentJson enrichment)) = some enrichment := by
  have hcount : ¬ (enrichment.questions.length = 0 ∨ MAX_ENRICHMENT_QUESTIONS < enrichment.questions.length) := by
    have hcap := h.capped
    have hpos := List.length_pos_iff.mpr h.asks
    unfold MAX_ENRICHMENT_QUESTIONS
    unfold Core.MAX_ENRICHMENT_QUESTIONS at hcap
    omega
  have hquestions := decodeQuestions_json h.questions fun q hq => h.id_minted hq
  simp +decide only [decodeEnrichment, enrichmentJson, Json.isPlainObject, Json.get_cons, if_true, if_false,
    asWorkerStatusSequence_nat h.stamped, Json.asArray, List.length_map, hcount, hquestions, Option.map_some]

/-! ## The text is well formed -/

section
variable (host : JsonHost)

theorem optionJson_wellFormed (option : EnrichmentOption) : (optionJson option).WellFormed host := by
  obtain ⟨label, description⟩ := option
  cases description with
  | none => exact .names [js "label"] rfl (by decide) (by decide) (List.forall_mem_singleton.mpr (.str _))
  | some text =>
    exact .names [js "label", js "description"] rfl (by decide) (by decide)
      (List.forall_mem_cons.mpr ⟨.str _, List.forall_mem_singleton.mpr (.str _)⟩)

theorem questionJson_wellFormed (question : EnrichmentQuestion) : (questionJson question).WellFormed host := by
  obtain ⟨questionId, prompt, header, options, multiSelect⟩ := question
  have hoptions : (Json.arr (options.map optionJson)).WellFormed host := by
    refine .arr fun v hv => ?_
    obtain ⟨option, -, rfl⟩ := List.mem_map.mp hv
    exact optionJson_wellFormed host option
  cases header with
  | none =>
    refine .names [js "questionId", js "prompt", js "options", js "multiSelect"] rfl (by decide) (by decide) ?_
    exact List.forall_mem_cons.mpr ⟨.str _, List.forall_mem_cons.mpr ⟨.str _, List.forall_mem_cons.mpr
      ⟨hoptions, List.forall_mem_singleton.mpr (.bool _)⟩⟩⟩
  | some text =>
    refine .names [js "questionId", js "prompt", js "options", js "multiSelect", js "header"] rfl (by decide)
      (by decide) ?_
    exact List.forall_mem_cons.mpr ⟨.str _, List.forall_mem_cons.mpr ⟨.str _, List.forall_mem_cons.mpr
      ⟨hoptions, List.forall_mem_cons.mpr ⟨.bool _, List.forall_mem_singleton.mpr (.str _)⟩⟩⟩⟩

theorem safe_nat {n : Nat} (h : (n : Int) ≤ MAX_SAFE_INTEGER) : (Json.num n).WellFormed host := by
  have hsafe := host.safe n (by omega) h
  exact .num (by simpa using hsafe)

theorem enrichmentJson_wellFormed {enrichment : RequiresActionEnrichment} (h : enrichment.Sound) :
    (enrichmentJson enrichment).WellFormed host := by
  refine .names [js "sequenceNum", js "questions"] rfl (by decide) (by decide) ?_
  refine List.forall_mem_cons.mpr ⟨safe_nat host h.stamped, List.forall_mem_singleton.mpr (.arr fun v hv => ?_)⟩
  obtain ⟨question, -, rfl⟩ := List.mem_map.mp hv
  exact questionJson_wellFormed host question

/-- The browser decodes a parsed question from its text to the same value. -/
theorem decodeEnrichment_text {enrichment : RequiresActionEnrichment} (h : enrichment.Sound) :
    decodeEnrichment (Json.parse host (Json.stringify host (enrichmentJson enrichment))) = some enrichment := by
  rw [Json.parse_stringify (enrichmentJson_wellFormed host h), decodeEnrichment_json h]

end

/-! ## When an answer is built -/

theorem strings_injective {xs ys : List JsString} (h : xs.map Json.str = ys.map Json.str) : xs = ys :=
  List.map_injective_iff.mpr (fun _ _ => Json.str.inj) h

theorem distinctOffered_some {offered seen : List JsString} {chosen : List Json} {labels : List JsString} :
    distinctOffered offered seen chosen = some labels ↔
      chosen = labels.map .str ∧ labels ⊆ offered ∧ labels.Nodup ∧ ∀ label ∈ labels, label ∉ seen := by
  induction chosen generalizing seen labels with
  | nil =>
    cases labels with
    | nil => simp [distinctOffered]
    | cons label rest => simp [distinctOffered]
  | cons value rest ih =>
    cases value with
    | str label =>
      rw [distinctOffered]
      split
      · rename_i hbad
        refine iff_of_false (by simp) ?_
        intro hparts
        obtain ⟨heq, hsub, -, hseen⟩ := hparts
        cases labels with
        | nil => cases heq
        | cons l labels =>
          obtain rfl := Json.str.inj (List.cons.inj heq).1
          rcases hbad with hno | hagain
          · exact hno (hsub List.mem_cons_self)
          · exact hseen label List.mem_cons_self hagain
      · rename_i hgood
        simp only [not_or, not_not] at hgood
        rw [Option.map_eq_some_iff]
        constructor
        · intro hex
          obtain ⟨tail, htail, rfl⟩ := hex
          obtain ⟨rfl, hsub, hnodup, hseen⟩ := ih.mp htail
          exact ⟨rfl, List.cons_subset.mpr ⟨hgood.1, hsub⟩,
            List.nodup_cons.mpr ⟨fun hmem => hseen label hmem List.mem_cons_self, hnodup⟩,
            List.forall_mem_cons.mpr ⟨hgood.2, fun l hl hmem => hseen l hl (List.mem_cons_of_mem _ hmem)⟩⟩
        · intro hfacts
          obtain ⟨heq, hsub, hnodup, hseen⟩ := hfacts
          cases labels with
          | nil => cases heq
          | cons l labels =>
            obtain ⟨hl, hrest⟩ := List.cons.inj heq
            obtain rfl := Json.str.inj hl
            obtain ⟨hnew, hnodup⟩ := List.nodup_cons.mp hnodup
            refine ⟨labels, ih.mpr ⟨hrest, (List.cons_subset.mp hsub).2, hnodup, fun m hm hmem => ?_⟩, rfl⟩
            rcases List.mem_cons.mp hmem with rfl | hmem
            · exact hnew hm
            · exact hseen m (List.mem_cons_of_mem _ hm) hmem
    | _ =>
      refine iff_of_false (by simp [distinctOffered]) ?_
      intro hboth
      obtain ⟨heq, -⟩ := hboth
      cases labels with
      | nil => cases heq
      | cons l labels => cases (List.cons.inj heq).1

/-- The labels that `selections` holds for a question, when they are an answer to it. -/
def Picked (selections : Json) (question : EnrichmentQuestion) (labels : List JsString) : Prop :=
  selections.get question.questionId = some (.arr (labels.map .str)) ∧ labels ≠ [] ∧ question.Selects labels

theorem chosenLabels_some {selections : Json} {question : EnrichmentQuestion} {labels : List JsString} :
    chosenLabels question (selections.get question.questionId) = some labels ↔ Picked selections question labels := by
  unfold chosenLabels Picked
  cases hget : selections.get question.questionId with
  | none => simp [Json.asArray]
  | some value =>
    cases value with
    | arr chosen =>
      simp only [Json.asArray, Option.some.injEq, Json.arr.injEq]
      split
      · rename_i hzero
        refine iff_of_false (by simp) ?_
        intro hparts
        obtain ⟨rfl, hne, -⟩ := hparts
        exact hne (by simpa using hzero)
      · rename_i hpos
        split
        · rename_i hcard
          simp only [Bool.and_eq_true, Bool.not_eq_eq_eq_not, Bool.not_true, bne_iff_ne] at hcard
          refine iff_of_false (by simp) ?_
          intro hfacts
          obtain ⟨rfl, -, hsel⟩ := hfacts
          exact hcard.2 (by rw [List.length_map, hsel.single hcard.1])
        · rename_i hcard
          rw [distinctOffered_some]
          constructor
          · intro hex
            obtain ⟨rfl, hsub, hnodup, -⟩ := hex
            refine ⟨rfl, by simpa using hpos, hsub, hnodup, fun hmulti => ?_⟩
            by_contra hlen
            exact hcard (by simp [hmulti, hlen])
          · intro hex
            obtain ⟨rfl, -, hsel⟩ := hex
            exact ⟨rfl, hsel.offered, hsel.distinct, by simp⟩
    | _ =>
      refine iff_of_false (by simp [Json.asArray]) ?_
      intro hboth
      obtain ⟨heq, -⟩ := hboth
      cases heq

/-- One question's entry of the answer. -/
def answerEntry (s : JsString × List JsString) : JsString × Json := (s.1, .arr (s.2.map .str))

/-- The picks of a complete selection state, in the order of the questions. -/
def PickedAll (selections : Json) (questions : List EnrichmentQuestion) (picks : List (JsString × List JsString)) : Prop :=
  List.Forall₂ (fun question s => s.1 = question.questionId ∧ Picked selections question s.2) questions picks

theorem answersFrom_some {selections : Json} {answers out : Json.Fields} {questions : List EnrichmentQuestion}
    (hnew : (answers.map Prod.fst ++ questions.map (·.questionId)).Nodup)
    (hname : ∀ question ∈ questions, arrayIndex question.questionId = none) :
    answersFrom selections answers questions = some out ↔
      ∃ picks, PickedAll selections questions picks ∧ out = answers ++ picks.map answerEntry := by
  induction questions generalizing answers with
  | nil => simp [answersFrom, PickedAll, eq_comm]
  | cons question rest ih =>
    rw [answersFrom]
    split
    · rename_i hnone
      refine iff_of_false (by simp) ?_
      intro hex
      obtain ⟨picks, hpicks, -⟩ := hex
      obtain ⟨s, _, ⟨-, hpicked⟩, -, -⟩ := List.forall₂_cons_left_iff.mp hpicks
      rw [chosenLabels_some.mpr hpicked] at hnone
      cases hnone
    · rename_i labels hlabels
      have hpicked := chosenLabels_some.mp hlabels
      have hfresh : question.questionId ∉ answers.map Prod.fst := by
        intro hmem
        exact (List.nodup_append.mp hnew).2.2 _ hmem _ (by simp) rfl
      have hset : Json.setProp answers question.questionId (.arr (labels.map .str)) =
          answers ++ [answerEntry (question.questionId, labels)] := by
        rw [Json.setProp, if_neg hfresh, hname question List.mem_cons_self]
        rfl
      rw [hset, ih (by simpa [answerEntry] using hnew) fun q hq => hname q (List.mem_cons_of_mem _ hq)]
      constructor
      · intro hex
        obtain ⟨picks, hpicks, rfl⟩ := hex
        exact ⟨(question.questionId, labels) :: picks, .cons ⟨rfl, hpicked⟩ hpicks, by simp⟩
      · intro hex
        obtain ⟨picks, hpicks, rfl⟩ := hex
        obtain ⟨s, picks', ⟨hid, hpicked'⟩, hrest, rfl⟩ := List.forall₂_cons_left_iff.mp hpicks
        obtain rfl : s = (question.questionId, labels) := by
          refine Prod.ext hid (strings_injective ?_)
          have hsame := hpicked'.1.symm.trans hpicked.1
          exact Json.arr.inj (Option.some.inj hsame)
        exact ⟨picks', hrest, by simp⟩

/-- Every question is answered with distinct offered labels, within its cardinality. -/
def Complete (enrichment : RequiresActionEnrichment) (selections : Json) : Prop :=
  ∀ question ∈ enrichment.questions, ∃ labels, Picked selections question labels

theorem arrayIndex_minted : ∀ index < Core.MAX_ENRICHMENT_QUESTIONS, arrayIndex (enrichmentQuestionId index) = none := by
  decide

theorem id_named {enrichment : RequiresActionEnrichment} (he : enrichment.Sound) {question : EnrichmentQuestion}
    (hq : question ∈ enrichment.questions) : arrayIndex question.questionId = none := by
  obtain ⟨index, hindex, hid⟩ := he.id_minted hq
  rw [hid]
  exact arrayIndex_minted index hindex

theorem answerFromSelections_some {enrichment : RequiresActionEnrichment} (he : enrichment.Sound) {selections : Json}
    {answers : Json.Fields} :
    answerFromSelections (some enrichment) (some selections) = some answers ↔
      ∃ picks, PickedAll selections enrichment.questions picks ∧ answers = picks.map answerEntry := by
  have hnodup : (([] : Json.Fields).map Prod.fst ++ enrichment.questions.map (·.questionId)).Nodup := he.ids_nodup
  have hfrom : answersFrom selections [] enrichment.questions = some answers ↔
      ∃ picks, PickedAll selections enrichment.questions picks ∧ answers = picks.map answerEntry :=
    answersFrom_some hnodup fun q hq => id_named he hq
  rw [answerFromSelections]
  split
  · exact hfrom
  · rename_i hobject
    -- a value that is no object answers no question, and there is one
    refine iff_of_false (by simp) ?_
    intro hex
    obtain ⟨picks, hpicks, -⟩ := hex
    obtain ⟨question, rest, hquestions⟩ := List.exists_cons_of_ne_nil he.asks
    rw [PickedAll, hquestions] at hpicks
    obtain ⟨s, _, ⟨-, hget, -⟩, -, -⟩ := List.forall₂_cons_left_iff.mp hpicks
    cases selections with
    | obj fields => exact hobject rfl
    | _ => cases hget

/-- An answer is built exactly from a complete selection state. -/
theorem complete_iff_picked {enrichment : RequiresActionEnrichment} {selections : Json} :
    (∃ picks, PickedAll selections enrichment.questions picks) ↔ Complete enrichment selections := by
  unfold PickedAll Complete
  induction enrichment.questions with
  | nil => simp
  | cons question rest ih =>
    rw [List.forall_mem_cons, ← ih]
    constructor
    · intro hex
      obtain ⟨picks, hpicks⟩ := hex
      obtain ⟨s, picks', ⟨-, hpicked⟩, hrest, -⟩ := List.forall₂_cons_left_iff.mp hpicks
      exact ⟨⟨s.2, hpicked⟩, picks', hrest⟩
    · intro hex
      obtain ⟨⟨labels, hpicked⟩, picks, hrest⟩ := hex
      exact ⟨(question.questionId, labels) :: picks, .cons ⟨rfl, hpicked⟩ hrest⟩

/-! ## What the server makes of it -/

/-- The envelope the server reads from the command's text and accepts. -/
def serverAnswer (host : JsonHost) (enrichment : RequiresActionEnrichment) (command : Json) : Option AnswerEnvelope :=
  match parseUiCommand (Json.parse host (Json.stringify host command)) with
  | none => none
  | some read =>
    match answerEnvelopeFromValue read.payload with
    | none => none
    | some envelope =>
      if validateAnswerAgainstEnrichment enrichment envelope read.echoed = none then some envelope else none

theorem PickedAll.ids {selections : Json} {questions : List EnrichmentQuestion} {picks : List (JsString × List JsString)}
    (h : PickedAll selections questions picks) : picks.map Prod.fst = questions.map (·.questionId) := by
  induction h with
  | nil => rfl
  | cons hpick _ ih => rw [List.map_cons, List.map_cons, ih, hpick.1]

/-- Each pick is that of a question, and each question has one. -/
theorem PickedAll.mem {selections : Json} {questions : List EnrichmentQuestion}
    {picks : List (JsString × List JsString)} (h : PickedAll selections questions picks) :
    (∀ s ∈ picks, ∃ question ∈ questions, s.1 = question.questionId ∧ Picked selections question s.2) ∧
    (∀ question ∈ questions, ∃ s ∈ picks, s.1 = question.questionId ∧ Picked selections question s.2) := by
  induction h with
  | nil => simp
  | cons hpick _ ih =>
    refine ⟨List.forall_mem_cons.mpr ⟨⟨_, List.mem_cons_self, hpick⟩, fun s hs => ?_⟩,
      List.forall_mem_cons.mpr ⟨⟨_, List.mem_cons_self, hpick⟩, fun q hq => ?_⟩⟩
    · obtain ⟨question, hq, hs⟩ := ih.1 s hs
      exact ⟨question, List.mem_cons_of_mem _ hq, hs⟩
    · obtain ⟨s, hs, hq⟩ := ih.2 q hq
      exact ⟨s, List.mem_cons_of_mem _ hs, hq⟩

/-- A complete selection state is a selection in the core's sense. -/
def PickedAll.selection {enrichment : RequiresActionEnrichment} (he : enrichment.Sound) {selections : Json}
    {picks : List (JsString × List JsString)} (h : PickedAll selections enrichment.questions picks) : Selection enrichment where
  chosen := picks
  answers := by
    intro heq
    subst heq
    exact he.asks (List.map_eq_nil_iff.mp h.ids.symm)
  ids := h.ids ▸ he.ids_nodup
  nonempty s hs := by
    obtain ⟨_, -, -, -, hne, -⟩ := h.mem.1 s hs
    exact hne
  answered s hs := by
    obtain ⟨question, hq, hid, -, -, hsel⟩ := h.mem.1 s hs
    exact ⟨question, hq, hid.symm, hsel⟩

/-- The command's payload. -/
def answerPayload (sequenceNum : Nat) (picks : List (JsString × List JsString)) : Json :=
  .obj [(js "answers", answersValue picks), (js "sequence_num", .num sequenceNum)]

theorem answerCommand_picks {enrichment : RequiresActionEnrichment} (he : enrichment.Sound)
    (selection : Selection enrichment) :
    answerCommand (.num enrichment.sequenceNum) (.obj (selection.chosen.map answerEntry)) =
      some (.obj [(js "subtype", .str ANSWER_SUBTYPE),
        (js "payload", answerPayload enrichment.sequenceNum selection.chosen)]) := by
  have hall : (selection.chosen.map answerEntry).all (fun entry => answerable entry.2) = true := by
    rw [List.all_map, List.all_eq_true]
    intro s hs
    have hne := selection.nonempty s hs
    obtain ⟨question, hq, -, hsel⟩ := selection.answered s hs
    have hlabels : ∀ label ∈ s.2, (displayString (some (.str label))).isSome = true := by
      intro label hl
      rw [displayString_tidy ((he.questions question hq).tidy (hsel.offered hl))]
      rfl
    simpa [answerEntry, answerable, hne] using hlabels
  have hne : selection.chosen.map answerEntry ≠ [] := by simpa using selection.answers
  rw [answerCommand, asWorkerStatusSequence_nat he.stamped]
  simp only [Option.isSome_some, if_true, hall, and_true]
  rw [if_pos hne]
  rfl

theorem command_wellFormed (host : JsonHost) {enrichment : RequiresActionEnrichment} (he : enrichment.Sound)
    (selection : Selection enrichment) :
    (Json.obj [(js "subtype", .str ANSWER_SUBTYPE),
      (js "payload", answerPayload enrichment.sequenceNum selection.chosen)]).WellFormed host := by
  have hanswers : (answersValue selection.chosen).WellFormed host := by
    refine .names (selection.chosen.map Prod.fst) (by simp [Function.comp_def]) selection.ids (fun key hkey => ?_)
      fun f hf => ?_
    · obtain ⟨s, hs, rfl⟩ := List.mem_map.mp hkey
      obtain ⟨question, hq, hid, -⟩ := selection.answered s hs
      exact hid ▸ id_named he hq
    · obtain ⟨s, -, rfl⟩ := List.mem_map.mp hf
      refine .arr fun v hv => ?_
      obtain ⟨label, -, rfl⟩ := List.mem_map.mp hv
      exact .str label
  refine .names [js "subtype", js "payload"] rfl (by decide) (by decide) ?_
  refine List.forall_mem_cons.mpr ⟨.str _, List.forall_mem_singleton.mpr ?_⟩
  refine .names [js "answers", js "sequence_num"] rfl (by decide) (by decide) ?_
  exact List.forall_mem_cons.mpr ⟨hanswers, List.forall_mem_singleton.mpr (safe_nat host he.stamped)⟩

theorem serverAnswer_picks (host : JsonHost) {enrichment : RequiresActionEnrichment} (he : enrichment.Sound)
    (selection : Selection enrichment) {envelope : AnswerEnvelope} :
    serverAnswer host enrichment (.obj [(js "subtype", .str ANSWER_SUBTYPE),
      (js "payload", answerPayload enrichment.sequenceNum selection.chosen)]) = some envelope ↔
      answerEnvelopeFromValue (some (answerPayload enrichment.sequenceNum selection.chosen)) = some envelope ∧
        Answered enrichment envelope.answers := by
  have hread : parseUiCommand (some (.obj [(js "subtype", .str ANSWER_SUBTYPE),
      (js "payload", answerPayload enrichment.sequenceNum selection.chosen)])) =
      some ⟨ANSWER_SUBTYPE, some (answerPayload enrichment.sequenceNum selection.chosen)⟩ := by
    simp +decide [parseUiCommand, Json.get_cons, Json.asString, ANSWER_SUBTYPE, answerPayload, Json.isPlainObject]
  have hseq : (UiCommand.mk ANSWER_SUBTYPE
      (some (answerPayload enrichment.sequenceNum selection.chosen))).echoed = some enrichment.sequenceNum := by
    simp +decide [UiCommand.echoed, UiCommand.field, answerPayload, Json.get_cons, asWorkerStatusSequence_nat he.stamped]
  rw [serverAnswer, Json.parse_stringify (command_wellFormed host he selection), hread]
  dsimp only
  rw [hseq]
  split
  · rename_i hnone
    simp [hnone]
  · rename_i found hfound
    rw [hfound, Option.some.injEq]
    split
    · rename_i hok
      have hanswered := ((validate_none he).mp hok).2
      rw [Option.some.injEq]
      exact ⟨fun heq => ⟨heq, heq ▸ hanswered⟩, fun h => h.1⟩
    · rename_i hno
      refine iff_of_false (by simp) ?_
      intro hboth
      obtain ⟨rfl, hanswered⟩ := hboth
      exact hno ((validate_none he).mpr ⟨rfl, hanswered⟩)

/-- The chosen labels, normalized once more, are still a choice of the question's. -/
def ReadsAsChoice (question : EnrichmentQuestion) (labels : List JsString) : Prop :=
  ∃ texts, List.Forall₂ LabelRead (labels.map .str) texts ∧ question.Selects texts

/-- A list has a partner list exactly when each of its items has a partner. -/
theorem forall₂_exists {α β : Type} {R : α → β → Prop} {P : β → Prop} {xs : List α} :
    (∃ ys, List.Forall₂ R xs ys ∧ ∀ y ∈ ys, P y) ↔ ∀ x ∈ xs, ∃ y, R x y ∧ P y := by
  induction xs with
  | nil => simp
  | cons x xs ih =>
    rw [List.forall_mem_cons, ← ih]
    constructor
    · intro hex
      obtain ⟨ys, hys, hP⟩ := hex
      obtain ⟨y, rest, hxy, hrest, rfl⟩ := List.forall₂_cons_left_iff.mp hys
      obtain ⟨hy, hall⟩ := List.forall_mem_cons.mp hP
      exact ⟨⟨y, hxy, hy⟩, rest, hrest, hall⟩
    · intro hex
      obtain ⟨⟨y, hxy, hy⟩, ys, hys, hP⟩ := hex
      exact ⟨y :: ys, .cons hxy hys, List.forall_mem_cons.mpr ⟨hy, hP⟩⟩

/-- Some envelope is read from a selection and accepted exactly when each question's labels
    still are a choice once they are read. -/
theorem envelope_accepted {enrichment : RequiresActionEnrichment} (he : enrichment.Sound)
    (selection : Selection enrichment) {payload : Json}
    (hget : payload.get (js "answers") = some (answersValue selection.chosen)) :
    (∃ envelope, answerEnvelopeFromValue (some payload) = some envelope ∧ Answered enrichment envelope.answers) ↔
      ∀ s ∈ selection.chosen, ∀ question ∈ enrichment.questions, question.questionId = s.1 →
        ReadsAsChoice question s.2 := by
  obtain ⟨hcount, hlabels⟩ := selection.answered.capped he selection.ids
  have hentries : (∃ envelope, answerEnvelopeFromValue (some payload) = some envelope ∧
        Answered enrichment envelope.answers) ↔
      ∃ answers, List.Forall₂ EntryRead (selection.chosen.map answerEntry) answers ∧ Answered enrichment answers := by
    simp only [answerEnvelope_some, hget, answersValue, Option.some.injEq, Json.obj.injEq, exists_eq_left']
    constructor
    · intro hex
      obtain ⟨envelope, ⟨-, -, hread⟩, hanswered⟩ := hex
      exact ⟨envelope.answers, hread, hanswered⟩
    · intro hex
      obtain ⟨answers, hread, hanswered⟩ := hex
      exact ⟨⟨answers⟩, ⟨by simpa using selection.answers, by simpa using hcount, hread⟩, hanswered⟩
  rw [hentries]
  unfold Answered
  rw [forall₂_exists, List.forall_mem_map]
  refine forall₂_congr fun s hs => ?_
  obtain ⟨asked, hasked, hid, -⟩ := selection.answered s hs
  constructor
  · rintro ⟨answer, ⟨hsame, -, labels, heq, -, -, hread⟩, question, hq, hquestion, hsel⟩ question' hq' hid'
    obtain rfl := List.inj_on_of_nodup_map he.ids_nodup hq hq' (hquestion.trans (hsame.trans hid'.symm))
    obtain rfl := Json.arr.inj heq
    exact ⟨answer.2, hread, hsel⟩
  · intro h
    obtain ⟨texts, hread, hsel⟩ := h asked hasked hid
    have hminted : isEnrichmentQuestionId s.1 = true := by
      obtain ⟨index, hindex, hmint⟩ := he.id_minted hasked
      rw [← hid, hmint]
      exact enrichmentQuestionId_minted index hindex
    exact ⟨(s.1, texts), ⟨rfl, hminted, _, rfl, by simpa using selection.nonempty s hs,
      by simpa using hlabels s hs, hread⟩, asked, hasked, hid, hsel⟩

/-! ## The mirror -/

/-- A parsed question reaches the browser as it is; an answer is built exactly from a complete
    selection; and the server accepts it exactly when the chosen labels still are a choice once
    they are normalized again, as they were chosen exactly when none carries a format point. -/
theorem mirror_agrees (host : JsonHost) {value : Json} {enrichment : RequiresActionEnrichment}
    (h : requiresActionEnrichmentFromValue value = some enrichment) :
    decodeEnrichment (Json.parse host (Json.stringify host (enrichmentJson enrichment))) = some enrichment ∧
    (∀ selections, (answerFromSelections (some enrichment) selections).isSome = true ↔
      ∃ s, selections = some s ∧ Complete enrichment s) ∧
    (∀ selections answers, answerFromSelections (some enrichment) (some selections) = some answers →
      ∃ command, answerCommand (.num enrichment.sequenceNum) (.obj answers) = some command ∧
        ((serverAnswer host enrichment command).isSome = true ↔
          ∀ question ∈ enrichment.questions, ∀ labels, Picked selections question labels →
            ReadsAsChoice question labels) ∧
        ∃ chosen, answersValue chosen = .obj answers ∧
          (serverAnswer host enrichment command = some ⟨chosen⟩ ↔
            ∀ question ∈ enrichment.questions, ∀ labels, Picked selections question labels →
              ∀ label ∈ labels, FormatFree label)) := by
  have he := enrichment_sound h
  refine ⟨decodeEnrichment_text host he, fun selections => ?_, fun selections answers hanswers => ?_⟩
  · cases selections with
    | none => simp [answerFromSelections]
    | some s =>
      simp only [Option.isSome_iff_exists, answerFromSelections_some he, Option.some.injEq, exists_eq_left',
        ← complete_iff_picked]
      constructor
      · intro hex
        obtain ⟨_, picks, hpicks, -⟩ := hex
        exact ⟨picks, hpicks⟩
      · intro hex
        obtain ⟨picks, hpicks⟩ := hex
        exact ⟨_, picks, hpicks, rfl⟩
  · obtain ⟨picks, hpicks, rfl⟩ := (answerFromSelections_some he).mp hanswers
    obtain ⟨hquestion, hpick⟩ := hpicks.mem
    have hget : (answerPayload enrichment.sequenceNum picks).get (js "answers") = some (answersValue picks) := by
      simp [answerPayload, Json.get_cons]
    -- a property of every pick is one of whatever the selections hold for a question
    have hall : ∀ P : EnrichmentQuestion → List JsString → Prop,
        (∀ s ∈ picks, ∀ question ∈ enrichment.questions, question.questionId = s.1 → P question s.2) ↔
          ∀ question ∈ enrichment.questions, ∀ labels, Picked selections question labels → P question labels := by
      refine fun P => ⟨fun hP question hq labels hlabels => ?_, fun hP s hs question hq hid => ?_⟩
      · obtain ⟨s, hs, hid, hpicked⟩ := hpick question hq
        have hsame : labels = s.2 := strings_injective (Json.arr.inj (Option.some.inj (hlabels.1.symm.trans hpicked.1)))
        exact hsame ▸ hP s hs question hq hid.symm
      · obtain ⟨asked, hasked, hid', hpicked⟩ := hquestion s hs
        obtain rfl := List.inj_on_of_nodup_map he.ids_nodup hq hasked (hid.trans hid')
        exact hP question hq s.2 hpicked
    refine ⟨_, answerCommand_picks he (hpicks.selection he), ?_, picks, rfl, ?_⟩
    · rw [Option.isSome_iff_exists, ← hall]
      simp only [serverAnswer_picks host he (hpicks.selection he)]
      exact envelope_accepted he (hpicks.selection he) hget
    · refine (serverAnswer_picks host he (hpicks.selection he)).trans
        ((and_iff_left (hpicks.selection he).answered).trans ?_)
      rw [← hall fun _ labels => ∀ label ∈ labels, FormatFree label]
      refine (answerEnvelope_selection he (hpicks.selection he) hget).trans ?_
      constructor
      · exact fun hfree s hs _ _ _ => hfree s hs
      · intro hfree s hs
        obtain ⟨question, hq, hid, -⟩ := hquestion s hs
        exact hfree s hs question hq hid.symm

/-- What the operator tapped: the first option of `q0`. -/
def tapped (label : JsString) : Json := .obj [(js "q0", .arr [.str label])]

/-- The command that a tap builds. -/
def tapCommand (label : JsString) : Json :=
  .obj [(js "subtype", .str ANSWER_SUBTYPE), (js "payload", answerPayload 3 [(js "q0", [label])])]

theorem mirror_agrees_yes :
    decodeEnrichment (Json.parse integerHost (Json.stringify integerHost (enrichmentJson (askEnrichment (js "Yes"))))) =
      some (askEnrichment (js "Yes")) ∧
    (answerFromSelections (some (askEnrichment (js "Yes"))) (some (tapped (js "Yes")))).isSome = true ∧
    ∃ command, answerCommand (.num 3) (.obj [(js "q0", .arr [.str (js "Yes")])]) = some command ∧
      (serverAnswer integerHost (askEnrichment (js "Yes")) command).isSome = true := by
  have hparsed : requiresActionEnrichmentFromValue (askValue (js "Yes")) = some (askEnrichment (js "Yes")) := by decide
  obtain ⟨hdecode, -, haccept⟩ := mirror_agrees integerHost hparsed
  obtain ⟨command, hcommand, hiff, -⟩ := haccept (tapped (js "Yes")) [(js "q0", .arr [.str (js "Yes")])] rfl
  refine ⟨hdecode, rfl, command, hcommand, hiff.mpr fun question hq labels hlabels => ?_⟩
  obtain rfl : question = ⟨js "q0", js "Go on?", none, [⟨js "Yes", none⟩, ⟨js "No", none⟩], false⟩ := by
    simpa [askEnrichment] using hq
  obtain rfl : [js "Yes"] = labels := strings_injective (by simpa [tapped, Json.get_cons] using hlabels.1)
  refine ⟨[js "Yes"], ?_, hlabels.2.2⟩
  exact .cons (by unfold LabelRead; decide) .nil

/-- The tap on a label that carries a joined format point is refused. -/
theorem joined_tap_refused :
    ¬ ∀ (host : JsonHost) value enrichment, requiresActionEnrichmentFromValue value = some enrichment →
      ∀ selections answers command, answerFromSelections (some enrichment) (some selections) = some answers →
        answerCommand (.num enrichment.sequenceNum) (.obj answers) = some command →
        (serverAnswer host enrichment command).isSome = true := by
  intro h
  have hparsed : requiresActionEnrichmentFromValue (askValue [0x41, 0xDB40, 0x200B, 0xDC01, 0x42]) =
      some (askEnrichment [0x41, 0xDB40, 0xDC01, 0x42]) := by decide
  have hsome := h integerHost _ _ hparsed (tapped [0x41, 0xDB40, 0xDC01, 0x42]) _
    (tapCommand [0x41, 0xDB40, 0xDC01, 0x42]) rfl rfl
  have he := enrichment_sound hparsed
  obtain ⟨envelope, henvelope⟩ := Option.isSome_iff_exists.mp hsome
  obtain ⟨hread, hanswered⟩ := (serverAnswer_picks integerHost he (firstOption _)).mp henvelope
  have hother : answerEnvelopeFromValue (some (answerPayload 3 [(js "q0", [[0x41, 0xDB40, 0xDC01, 0x42]])])) =
      some ⟨[(js "q0", [[0x41, 0x42]])]⟩ := by decide
  obtain rfl : ⟨[(js "q0", [[0x41, 0x42]])]⟩ = envelope := Option.some.inj (hother.symm.trans hread)
  obtain ⟨question, hq, -, hsel⟩ := hanswered _ List.mem_cons_self
  obtain rfl : question = _ := List.mem_singleton.mp hq
  exact absurd (hsel.offered List.mem_cons_self) (by decide)

end Ccctl.WebUi
