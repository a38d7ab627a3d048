import Ccctl.Core.Displayable
import Ccctl.Core.JsonReads
/-
  Ccctl.Core.Answering — a question, an answer and the validator between them
  (`packages/core/src/index.ts`: `requiresActionEnrichmentFromValue`,
  `answerEnvelopeFromValue`, `validateAnswerAgainstEnrichment`).

  A parsed question offers distinct tidy labels, under positional ids (`Sound`). An answer's
  labels are normalized once more on the way in. A label without a format point comes through
  as it was offered (`enrichmentText_fixed`); one that carries a format point, which the first
  pass can leave behind (`Ccctl.Core.Displayable`), does not. So a selection is accepted as it
  was made exactly when its labels carry none (`selection_accepted_iff`). What the validator
  lets through is always a selection of offered labels.
-/

namespace Ccctl.Core

/-! ## What the parser guarantees -/

structure EnrichmentOption.Sound (option : EnrichmentOption) : Prop where
  label : Tidy MAX_ENRICHMENT_TEXT_LENGTH option.label
  description : ∀ text, option.description = some text → Tidy MAX_ENRICHMENT_TEXT_LENGTH text

def EnrichmentQuestion.labels (question : EnrichmentQuestion) : List JsString := question.options.map (·.label)

structure EnrichmentQuestion.Sound (question : EnrichmentQuestion) : Prop where
  prompt : Tidy MAX_ENRICHMENT_TEXT_LENGTH question.prompt
  header : ∀ text, question.header = some text → Tidy MAX_ENRICHMENT_TEXT_LENGTH text
  options : ∀ option ∈ question.options, option.Sound
  distinct : question.labels.Nodup
  offers : question.options ≠ []
  capped : question.options.length ≤ MAX_ENRICHMENT_OPTIONS

structure RequiresActionEnrichment.Sound (enrichment : RequiresActionEnrichment) : Prop where
  ids : enrichment.questions.map (·.questionId) = (List.range enrichment.questions.length).map enrichmentQuestionId
  questions : ∀ question ∈ enrichment.questions, question.Sound
  asks : enrichment.questions ≠ []
  capped : enrichment.questions.length ≤ MAX_ENRICHMENT_QUESTIONS
  stamped : (enrichment.sequenceNum : Int) ≤ MAX_SAFE_INTEGER

theorem enrichmentText_tidy {value : Option Json} {text : JsString} (h : enrichmentText value = some text) :
    Tidy MAX_ENRICHMENT_TEXT_LENGTH text := displayableDetail_tidy (by decide) h

/-- A tidy text is its own normal form exactly when it carries no format point. -/
theorem enrichmentText_fixed {text : JsString} (ht : Tidy MAX_ENRICHMENT_TEXT_LENGTH text) :
    enrichmentText (some (.str text)) = some text ↔ FormatFree text := by
  constructor
  · intro h
    by_contra hf
    exact absurd (displayableDetail_shrinks (by decide) hf h) (Nat.lt_irrefl _)
  · exact displayableDetail_of_formatFree ht

theorem enrichmentOption_sound {value : Json} {option : EnrichmentOption} (h : enrichmentOptionFromValue value = some option) :
    option.Sound := by
  unfold enrichmentOptionFromValue at h
  split at h
  · split at h
    · cases h
    · rename_i label hlabel
      cases h
      exact ⟨enrichmentText_tidy hlabel, fun text htext => enrichmentText_tidy htext⟩
  · cases h

theorem enrichmentOptions_sound {seen : List JsString} {values : List Json} {parsed : List EnrichmentOption}
    (h : enrichmentOptions seen values = some parsed) :
    parsed.length = values.length ∧ (∀ option ∈ parsed, option.Sound) ∧
      (parsed.map (·.label)).Nodup ∧ ∀ option ∈ parsed, option.label ∉ seen := by
  induction values generalizing seen parsed with
  | nil =>
    cases h
    simp
  | cons value rest ih =>
    rw [enrichmentOptions] at h
    split at h
    · cases h
    · rename_i next hnext
      split at h
      · cases h
      · rename_i hfresh
        obtain ⟨tail, htail, rfl⟩ := Option.map_eq_some_iff.mp h
        obtain ⟨hlen, hsound, hnodup, hseen⟩ := ih htail
        refine ⟨by simp [hlen], List.forall_mem_cons.mpr ⟨enrichmentOption_sound hnext, hsound⟩,
          List.nodup_cons.mpr ⟨?_, hnodup⟩, List.forall_mem_cons.mpr ⟨hfresh, fun option hoption => ?_⟩⟩
        · intro hmem
          obtain ⟨option, hoption, heq⟩ := List.mem_map.mp hmem
          exact hseen option hoption (by simp [heq])
        · exact fun hmem => hseen option hoption (List.mem_cons_of_mem _ hmem)

theorem enrichmentQuestion_sound {value : Json} {index : Nat} {question : EnrichmentQuestion}
    (h : enrichmentQuestionFromValue value index = some question) :
    question.questionId = enrichmentQuestionId index ∧ question.Sound := by
  unfold enrichmentQuestionFromValue at h
  split at h
  · split at h
    · rename_i prompt multiSelect options hprompt _ _
      split at h
      · cases h
      · rename_i hcount
        split at h
        · cases h
        · rename_i parsed hparsed
          cases h
          obtain ⟨hlen, hsound, hnodup, -⟩ := enrichmentOptions_sound hparsed
          have hpos : parsed ≠ [] := by
            intro heq
            subst heq
            exact hcount (Or.inl (by simpa using hlen.symm))
          exact ⟨rfl, enrichmentText_tidy hprompt, fun text htext => enrichmentText_tidy htext, hsound, hnodup, hpos,
            by dsimp only; omega⟩
    · cases h
  · cases h

theorem enrichmentQuestions_sound {index : Nat} {values : List Json} {parsed : List EnrichmentQuestion}
    (h : enrichmentQuestions index values = some parsed) :
    parsed.length = values.length ∧ (∀ question ∈ parsed, question.Sound) ∧
      parsed.map (·.questionId) = (List.range' index parsed.length).map enrichmentQuestionId := by
  induction values generalizing index parsed with
  | nil =>
    cases h
    simp
  | cons value rest ih =>
    rw [enrichmentQuestions] at h
    split at h
    · cases h
    · rename_i next hnext
      obtain ⟨tail, htail, rfl⟩ := Option.map_eq_some_iff.mp h
      obtain ⟨hlen, hsound, hids⟩ := ih htail
      obtain ⟨hid, hquestion⟩ := enrichmentQuestion_sound hnext
      refine ⟨by simp [hlen], List.forall_mem_cons.mpr ⟨hquestion, hsound⟩, ?_⟩
      rw [List.map_cons, hid, hids, List.length_cons, List.range'_succ, List.map_cons]

/-- Everything the parser returns. -/
theorem enrichment_sound {value : Json} {enrichment : RequiresActionEnrichment}
    (h : requiresActionEnrichmentFromValue value = some enrichment) : enrichment.Sound := by
  have hseq := enrichmentFromValue_seq h
  unfold requiresActionEnrichmentFromValue at h
  split at h
  · split at h
    · rename_i sequenceNum questions _ _
      split at h
      · cases h
      · rename_i hcount
        obtain ⟨parsed, hparsed, rfl⟩ := Option.map_eq_some_iff.mp h
        obtain ⟨hlen, hsound, hids⟩ := enrichmentQuestions_sound hparsed
        have hpos : parsed ≠ [] := by
          intro heq
          subst heq
          exact hcount (Or.inl (by simpa using hlen.symm))
        refine ⟨by rw [hids, List.range_eq_range'], hsound, hpos, by dsimp only; omega, ?_⟩
        unfold asWorkerStatusSequence at hseq
        split at hseq
        · split at hseq
          · rename_i hsafe
            rw [← Option.some.inj hseq]
            omega
          · cases hseq
        · cases hseq
    · cases h
  · cases h

/-! ## The ids -/

theorem enrichmentQuestionId_minted : ∀ index < MAX_ENRICHMENT_QUESTIONS,
    isEnrichmentQuestionId (enrichmentQuestionId index) = true := by decide

theorem enrichmentQuestionId_injective : ∀ i < MAX_ENRICHMENT_QUESTIONS, ∀ j < MAX_ENRICHMENT_QUESTIONS,
    enrichmentQuestionId i = enrichmentQuestionId j → i = j := by decide

theorem RequiresActionEnrichment.Sound.id_minted {enrichment : RequiresActionEnrichment} (h : enrichment.Sound)
    {question : EnrichmentQuestion} (hq : question ∈ enrichment.questions) :
    ∃ index < MAX_ENRICHMENT_QUESTIONS, question.questionId = enrichmentQuestionId index := by
  have hmem : question.questionId ∈ enrichment.questions.map (·.questionId) := List.mem_map_of_mem hq
  rw [h.ids] at hmem
  obtain ⟨index, hindex, heq⟩ := List.mem_map.mp hmem
  have hcap := h.capped
  exact ⟨index, by have := List.mem_range.mp hindex; omega, heq.symm⟩

theorem RequiresActionEnrichment.Sound.ids_nodup {enrichment : RequiresActionEnrichment} (h : enrichment.Sound) :
    (enrichment.questions.map (·.questionId)).Nodup := by
  rw [h.ids]
  have hcap := h.capped
  refine List.Nodup.map_on (fun i hi j hj heq => ?_) List.nodup_range
  have := List.mem_range.mp hi
  have := List.mem_range.mp hj
  exact enrichmentQuestionId_injective i (by omega) j (by omega) heq

/-! ## What the validator lets through -/

/-- A choice is a set of offered labels; a single-select is a set of one. -/
structure EnrichmentQuestion.Selects (question : EnrichmentQuestion) (labels : List JsString) : Prop where
  offered : labels ⊆ question.labels
  distinct : labels.Nodup
  single : question.multiSelect = false → labels.length = 1

/-- Each id names a question of the enrichment, and its labels are a choice of that question's. -/
def Answered (enrichment : RequiresActionEnrichment) (answers : List (JsString × List JsString)) : Prop :=
  ∀ s ∈ answers, ∃ question ∈ enrichment.questions, question.questionId = s.1 ∧ question.Selects s.2

theorem selectionRejection_none {offered chosen labels : List JsString} :
    selectionRejection offered chosen labels = none ↔
      labels ⊆ offered ∧ labels.Nodup ∧ ∀ label ∈ labels, label ∉ chosen := by
  induction labels generalizing chosen with
  | nil => simp [selectionRejection]
  | cons label rest ih =>
    rw [selectionRejection]
    split
    · rename_i hno
      refine iff_of_false (by simp) fun h => hno (h.1 List.mem_cons_self)
    · rename_i hoffered
      split
      · rename_i hagain
        refine iff_of_false (by simp) fun h => h.2.2 label List.mem_cons_self hagain
      · rename_i hnew
        rw [ih, List.cons_subset, List.nodup_cons, List.forall_mem_cons]
        simp only [List.mem_cons, not_or, not_not] at hoffered ⊢
        constructor
        · intro hparts
          obtain ⟨hsub, hnodup, hfresh⟩ := hparts
          exact ⟨⟨hoffered, hsub⟩, ⟨fun hmem => (hfresh label hmem).1 rfl, hnodup⟩, hnew, fun l hl => (hfresh l hl).2⟩
        · intro hex
          obtain ⟨⟨-, hsub⟩, ⟨hout, hnodup⟩, -, hfresh⟩ := hex
          exact ⟨hsub, hnodup, fun l hl => ⟨fun heq => hout (heq ▸ hl), hfresh l hl⟩⟩

/-- Looking an id up among distinct ones finds the question that has it. -/
theorem find_question {questions : List EnrichmentQuestion} (hids : (questions.map (·.questionId)).Nodup)
    {question : EnrichmentQuestion} (hq : question ∈ questions) :
    (questions.reverse.find? fun q => q.questionId = question.questionId) = some question := by
  cases hfind : questions.reverse.find? fun q => q.questionId = question.questionId with
  | none =>
    have := List.find?_eq_none.mp hfind question (List.mem_reverse.mpr hq)
    simp at this
  | some found =>
    have hid : found.questionId = question.questionId := by simpa using List.find?_some hfind
    have hmem : found ∈ questions := List.mem_reverse.mp (List.mem_of_find?_eq_some hfind)
    rw [List.inj_on_of_nodup_map hids hmem hq hid]

theorem questionRejection_none {questions : List EnrichmentQuestion} (hids : (questions.map (·.questionId)).Nodup)
    {answers : List (JsString × List JsString)} :
    questionRejection questions answers = none ↔
      ∀ s ∈ answers, ∃ question ∈ questions, question.questionId = s.1 ∧ question.Selects s.2 := by
  induction answers with
  | nil => simp [questionRejection]
  | cons s rest ih =>
    obtain ⟨questionId, selection⟩ := s
    rw [questionRejection, List.forall_mem_cons, ← ih]
    split
    · rename_i hfind
      refine iff_of_false (by simp) ?_
      intro hex
      obtain ⟨⟨question, hq, rfl, -⟩, -⟩ := hex
      rw [find_question hids hq] at hfind
      cases hfind
    · rename_i question hfind
      have hid : question.questionId = questionId := by simpa using List.find?_some hfind
      have hmem : question ∈ questions := List.mem_reverse.mp (List.mem_of_find?_eq_some hfind)
      have hone : (∃ q ∈ questions, q.questionId = questionId ∧ q.Selects selection) ↔ question.Selects selection := by
        constructor
        · intro hex
          obtain ⟨q, hq, rfl, hsel⟩ := hex
          rwa [← List.inj_on_of_nodup_map hids hq hmem hid.symm]
        · exact fun hsel => ⟨question, hmem, hid, hsel⟩
      rw [hone]
      split
      · rename_i hcard
        refine iff_of_false (by simp) fun h => ?_
        simp only [Bool.and_eq_true, Bool.not_eq_eq_eq_not, Bool.not_true, bne_iff_ne] at hcard
        exact hcard.2 (h.1.single hcard.1)
      · rename_i hcard
        have hsingle : question.multiSelect = false → selection.length = 1 := by
          intro hmulti
          by_contra hlen
          exact hcard (by simp [hmulti, hlen])
        split
        · rename_i reason hreason
          refine iff_of_false (by simp) fun h => ?_
          have hnone : selectionRejection (question.options.map (·.label)) [] selection = none :=
            selectionRejection_none.mpr ⟨h.1.offered, h.1.distinct, by simp⟩
          rw [hnone] at hreason
          cases hreason
        · rename_i hreason
          obtain ⟨hsub, hnodup, -⟩ := selectionRejection_none.mp hreason
          exact (and_iff_right ⟨hsub, hnodup, hsingle⟩).symm

/-- The validator's whole verdict. -/
theorem validate_none {enrichment : RequiresActionEnrichment} (h : enrichment.Sound) {envelope : AnswerEnvelope}
    {submitted : Option Nat} :
    validateAnswerAgainstEnrichment enrichment envelope submitted = none ↔
      submitted = some enrichment.sequenceNum ∧ Answered enrichment envelope.answers := by
  unfold validateAnswerAgainstEnrichment
  split
  · rename_i hne
    exact iff_of_false (by simp) fun hok => hne hok.1
  · rename_i heq
    rw [questionRejection_none h.ids_nodup]
    exact (and_iff_right (not_not.mp heq)).symm

/-! ## What the answer parser reads -/

/-- A label and what it is read as. -/
def LabelRead (label : Json) (text : JsString) : Prop := enrichmentText (some label) = some text

theorem selectionLabels_some {labels : List Json} {texts : List JsString} :
    selectionLabels labels = some texts ↔ List.Forall₂ LabelRead labels texts := by
  induction labels generalizing texts with
  | nil => cases texts <;> simp [selectionLabels]
  | cons label rest ih =>
    rw [selectionLabels]
    split
    · rename_i hnone
      refine iff_of_false (by simp) fun h => ?_
      obtain ⟨text, rest', hread, -, -⟩ := List.forall₂_cons_left_iff.mp h
      rw [LabelRead, hnone] at hread
      cases hread
    · rename_i text hsome
      rw [Option.map_eq_some_iff, List.forall₂_cons_left_iff]
      constructor
      · intro hex
        obtain ⟨rest', hrest, rfl⟩ := hex
        exact ⟨text, rest', hsome, ih.mp hrest, rfl⟩
      · intro hex
        obtain ⟨text', rest', hread, hrest, rfl⟩ := hex
        rw [LabelRead, hsome, Option.some.injEq] at hread
        exact ⟨rest', ih.mpr hrest, by rw [hread]⟩

/-- An entry of `answers` and what it is read as. -/
def EntryRead (entry : JsString × Json) (answer : JsString × List JsString) : Prop :=
  answer.1 = entry.1 ∧ isEnrichmentQuestionId entry.1 = true ∧
    ∃ labels, entry.2 = .arr labels ∧ labels ≠ [] ∧ labels.length ≤ MAX_ENRICHMENT_OPTIONS ∧
      List.Forall₂ LabelRead labels answer.2

theorem answerEntries_some {entries : List (JsString × Json)} {answers : List (JsString × List JsString)} :
    answerEntries entries = some answers ↔ List.Forall₂ EntryRead entries answers := by
  induction entries generalizing answers with
  | nil => cases answers <;> simp [answerEntries]
  | cons entry rest ih =>
    obtain ⟨questionId, selection⟩ := entry
    rw [answerEntries, List.forall₂_cons_left_iff]
    split
    · rename_i hid
      cases selection with
      | arr labels =>
        simp only [Json.asArray]
        split
        · rename_i hcount
          refine iff_of_false (by simp) ?_
          intro hex
          obtain ⟨answer, tail, ⟨-, -, labels', heq, hne, hlen, -⟩, -⟩ := hex
          obtain rfl := Json.arr.inj heq
          rcases hcount with h0 | h32
          · exact hne (List.length_eq_zero_iff.mp h0)
          · exact absurd hlen (by omega)
        · rename_i hcount
          have hcap : labels ≠ [] ∧ labels.length ≤ MAX_ENRICHMENT_OPTIONS := by
            refine ⟨?_, by omega⟩
            intro hsame
            subst hsame
            exact hcount (Or.inl rfl)
          constructor
          · intro h
            split at h
            · rename_i parsed tail hparsed htail
              cases h
              exact ⟨(questionId, parsed), tail,
                ⟨rfl, hid, labels, rfl, hcap.1, hcap.2, selectionLabels_some.mp hparsed⟩, ih.mp htail, rfl⟩
            · cases h
          · intro hex
            obtain ⟨⟨id, texts⟩, tail, ⟨rfl, -, labels', heq, -, -, hread⟩, htail, rfl⟩ := hex
            obtain rfl := Json.arr.inj heq
            rw [selectionLabels_some.mpr hread, ih.mpr htail]
      | _ =>
        refine iff_of_false (by simp [Json.asArray]) ?_
        intro hex
        obtain ⟨answer, tail, ⟨-, -, labels, heq, -⟩, -⟩ := hex
        cases heq
    · rename_i hid
      refine iff_of_false (by simp) ?_
      intro hex
      obtain ⟨answer, tail, ⟨-, hid', -⟩, -⟩ := hex
      exact hid hid'

theorem answerEnvelope_some {payload : Json} {envelope : AnswerEnvelope} :
    answerEnvelopeFromValue (some payload) = some envelope ↔
      ∃ entries, payload.get (js "answers") = some (.obj entries) ∧ entries ≠ [] ∧
        entries.length ≤ MAX_ENRICHMENT_QUESTIONS ∧ List.Forall₂ EntryRead entries envelope.answers := by
  unfold answerEnvelopeFromValue
  rw [Option.bind_some]
  split
  · rename_i entries hget
    simp only [hget, Option.some.injEq, Json.obj.injEq, exists_eq_left']
    split
    · rename_i hcount
      refine iff_of_false (by simp) ?_
      intro hparts
      obtain ⟨hne, hlen, -⟩ := hparts
      rcases hcount with h0 | h16
      · exact hne (List.length_eq_zero_iff.mp h0)
      · exact absurd hlen (by omega)
    · rename_i hcount
      have hcap : entries ≠ [] ∧ entries.length ≤ MAX_ENRICHMENT_QUESTIONS := by
        refine ⟨?_, by omega⟩
        intro heq
        subst heq
        exact hcount (Or.inl rfl)
      rw [Option.map_eq_some_iff, ← answerEntries_some]
      constructor
      · intro hex
        obtain ⟨answers, hanswers, rfl⟩ := hex
        exact ⟨hcap.1, hcap.2, hanswers⟩
      · intro hfacts
        obtain ⟨-, -, hanswers⟩ := hfacts
        exact ⟨envelope.answers, hanswers, rfl⟩
  · rename_i hno
    refine iff_of_false (by simp) ?_
    intro hex
    obtain ⟨entries, hget, -⟩ := hex
    exact hno entries hget

/-! ## Selections -/

/-- Offered labels chosen for some of the questions, each question within its cardinality. -/
structure Selection (enrichment : RequiresActionEnrichment) where
  chosen : List (JsString × List JsString)
  answers : chosen ≠ []
  ids : (chosen.map Prod.fst).Nodup
  nonempty : ∀ s ∈ chosen, s.2 ≠ []
  answered : Answered enrichment chosen

/-- `{ [questionId]: labels }`. -/
def answersValue (chosen : List (JsString × List JsString)) : Json :=
  .obj (chosen.map fun s => (s.1, .arr (s.2.map .str)))

/-- A selection as an answer envelope. -/
def envelopeValue (chosen : List (JsString × List JsString)) : Json := .obj [(js "answers", answersValue chosen)]

theorem EnrichmentQuestion.Sound.tidy {question : EnrichmentQuestion} (h : question.Sound) {label : JsString}
    (hl : label ∈ question.labels) : Tidy MAX_ENRICHMENT_TEXT_LENGTH label := by
  obtain ⟨option, hoption, rfl⟩ := List.mem_map.mp hl
  exact (h.options option hoption).label

/-- Within the caps of the envelope parser. -/
theorem Answered.capped {enrichment : RequiresActionEnrichment} (he : enrichment.Sound)
    {chosen : List (JsString × List JsString)} (h : Answered enrichment chosen) (hids : (chosen.map Prod.fst).Nodup) :
    chosen.length ≤ MAX_ENRICHMENT_QUESTIONS ∧ ∀ s ∈ chosen, s.2.length ≤ MAX_ENRICHMENT_OPTIONS := by
  constructor
  · have hsub : chosen.map Prod.fst ⊆ enrichment.questions.map (·.questionId) := by
      intro id hid
      obtain ⟨s, hs, rfl⟩ := List.mem_map.mp hid
      obtain ⟨question, hq, heq, -⟩ := h s hs
      exact heq ▸ List.mem_map_of_mem hq
    have hle := (hids.subperm hsub).length_le
    have hcap := he.capped
    simp only [List.length_map] at hle
    omega
  · intro s hs
    obtain ⟨question, hq, -, hsel⟩ := h s hs
    have hle := (hsel.distinct.subperm hsel.offered).length_le
    have hcap := (he.questions question hq).capped
    rw [EnrichmentQuestion.labels, List.length_map] at hle
    omega

/-- An offered label is read back as it was offered exactly when it carries no format point. -/
theorem labelRead_offered {enrichment : RequiresActionEnrichment} (he : enrichment.Sound)
    {chosen : List (JsString × List JsString)} (h : Answered enrichment chosen) {s : JsString × List JsString}
    (hs : s ∈ chosen) {label : JsString} (hl : label ∈ s.2) : LabelRead (.str label) label ↔ FormatFree label := by
  obtain ⟨question, hq, -, hsel⟩ := h s hs
  exact enrichmentText_fixed ((he.questions question hq).tidy (hsel.offered hl))

/-- A payload that carries a selection is read as that selection exactly under the same condition. -/
theorem answerEnvelope_selection {enrichment : RequiresActionEnrichment} (he : enrichment.Sound)
    (selection : Selection enrichment) {payload : Json}
    (hget : payload.get (js "answers") = some (answersValue selection.chosen)) :
    answerEnvelopeFromValue (some payload) = some ⟨selection.chosen⟩ ↔
      ∀ s ∈ selection.chosen, ∀ label ∈ s.2, FormatFree label := by
  obtain ⟨hcount, hlabels⟩ := selection.answered.capped he selection.ids
  have hread : List.Forall₂ EntryRead (selection.chosen.map fun s => (s.1, Json.arr (s.2.map .str))) selection.chosen ↔
      ∀ s ∈ selection.chosen, ∀ label ∈ s.2, FormatFree label := by
    rw [List.forall₂_map_left_iff, List.forall₂_same]
    refine forall₂_congr fun s hs => ?_
    have hid : isEnrichmentQuestionId s.1 = true := by
      obtain ⟨question, hq, heq, -⟩ := selection.answered s hs
      obtain ⟨index, hindex, hminted⟩ := he.id_minted hq
      rw [← heq, hminted]
      exact enrichmentQuestionId_minted index hindex
    have hall : List.Forall₂ LabelRead (s.2.map .str) s.2 ↔ ∀ label ∈ s.2, FormatFree label := by
      rw [List.forall₂_map_left_iff, List.forall₂_same]
      exact forall₂_congr fun label hl => labelRead_offered he selection.answered hs hl
    rw [← hall]
    constructor
    · intro hparts
      obtain ⟨-, -, labels, heq, -, -, hforall⟩ := hparts
      obtain rfl := Json.arr.inj heq
      exact hforall
    · exact fun hforall => ⟨rfl, hid, _, rfl, by simpa using selection.nonempty s hs, by simpa using hlabels s hs, hforall⟩
  rw [answerEnvelope_some, ← hread, hget]
  simp only [answersValue, Option.some.injEq, Json.obj.injEq, exists_eq_left', List.length_map, ne_eq,
    List.map_eq_nil_iff]
  exact ⟨fun h => h.2.2, fun h => ⟨selection.answers, hcount, h⟩⟩

theorem entryRead_ids {entries : List (JsString × Json)} {answers : List (JsString × List JsString)}
    (h : List.Forall₂ EntryRead entries answers) : answers.map Prod.fst = entries.map Prod.fst := by
  induction h with
  | nil => rfl
  | cons hentry _ ih => rw [List.map_cons, List.map_cons, ih, hentry.1]

/-- The keys of a read envelope are those of the value's `answers`. -/
theorem envelope_ids {payload : Json} (hkeys : payload.UniqueKeys) {envelope : AnswerEnvelope}
    (h : answerEnvelopeFromValue (some payload) = some envelope) : (envelope.answers.map Prod.fst).Nodup := by
  obtain ⟨entries, hget, -, -, hread⟩ := answerEnvelope_some.mp h
  rw [entryRead_ids hread]
  cases payload with
  | obj fields =>
    cases hkeys with
    | obj _ hvalues =>
      obtain ⟨f, hf, hval⟩ := Option.map_eq_some_iff.mp hget
      have hunique := hvalues f (List.mem_of_find?_eq_some hf)
      rw [hval] at hunique
      cases hunique with
      | obj hnodup _ => exact hnodup
  | _ => cases hget

/-- A selection of offered labels is accepted as it was made exactly when no chosen label
    carries a format point; and whatever is accepted is such a selection, if its objects list each
    key once, as those of a text that was read do. -/
theorem selection_accepted_iff {value : Json} {enrichment : RequiresActionEnrichment}
    (h : requiresActionEnrichmentFromValue value = some enrichment) :
    (∀ selection : Selection enrichment,
      (answerEnvelopeFromValue (some (envelopeValue selection.chosen)) = some ⟨selection.chosen⟩ ∧
        validateAnswerAgainstEnrichment enrichment ⟨selection.chosen⟩ (some enrichment.sequenceNum) = none) ↔
      ∀ s ∈ selection.chosen, ∀ label ∈ s.2, FormatFree label) ∧
    (∀ payload envelope submitted, payload.UniqueKeys → answerEnvelopeFromValue (some payload) = some envelope →
      validateAnswerAgainstEnrichment enrichment envelope submitted = none →
      submitted = some enrichment.sequenceNum ∧ (envelope.answers.map Prod.fst).Nodup ∧
        Answered enrichment envelope.answers) ∧
    ∀ (host : JsonHost) text payload, Json.parse host text = some payload → payload.UniqueKeys := by
  have he := enrichment_sound h
  refine ⟨fun selection => ?_, fun payload envelope submitted hkeys hread hok => ?_,
    fun host _ _ hparse => Json.parse_uniqueKeys host hparse⟩
  · rw [answerEnvelope_selection he selection (by simp [envelopeValue, Json.get, Json.entries])]
    exact and_iff_left ((validate_none he).mpr ⟨rfl, selection.answered⟩)
  · obtain ⟨hseq, hanswered⟩ := (validate_none he).mp hok
    exact ⟨hseq, envelope_ids hkeys hread, hanswered⟩

/-- One question with two options, the first labelled `label`. -/
def askValue (label : JsString) : Json :=
  .obj [(js "sequence_num", .num 3), (js "questions", .arr [.obj [(js "question", .str (js "Go on?")),
    (js "options", .arr [.obj [(js "label", .str label)], .obj [(js "label", .str (js "No"))]])]])]

def askEnrichment (label : JsString) : RequiresActionEnrichment :=
  ⟨3, [⟨js "q0", js "Go on?", none, [⟨label, none⟩, ⟨js "No", none⟩], false⟩]⟩

def firstOption (label : JsString) : Selection (askEnrichment label) where
  chosen := [(js "q0", [label])]
  answers := by simp
  ids := by simp
  nonempty := by simp
  answered := by
    intro s hs
    obtain rfl : s = (js "q0", [label]) := by simpa using hs
    exact ⟨_, List.mem_cons_self, rfl, by simp [EnrichmentQuestion.labels], by simp, fun _ => rfl⟩

theorem selection_accepted_iff_yes :
    answerEnvelopeFromValue (some (envelopeValue [(js "q0", [js "Yes"])])) = some ⟨[(js "q0", [js "Yes"])]⟩ ∧
      validateAnswerAgainstEnrichment (askEnrichment (js "Yes")) ⟨[(js "q0", [js "Yes"])]⟩ (some 3) = none :=
  have hparsed : requiresActionEnrichmentFromValue (askValue (js "Yes")) = some (askEnrichment (js "Yes")) := by decide
  ((selection_accepted_iff hparsed).1 (firstOption (js "Yes"))).mpr (by decide)

/-- A label that the format pass left a format point in is offered, and is not accepted back. -/
theorem joined_label_refused :
    ¬ ∀ value enrichment, requiresActionEnrichmentFromValue value = some enrichment →
      ∀ selection : Selection enrichment,
        answerEnvelopeFromValue (some (envelopeValue selection.chosen)) = some ⟨selection.chosen⟩ ∧
          validateAnswerAgainstEnrichment enrichment ⟨selection.chosen⟩ (some enrichment.sequenceNum) = none := by
  intro h
  have hread := (h (askValue [0x41, 0xDB40, 0x200B, 0xDC01, 0x42]) (askEnrichment [0x41, 0xDB40, 0xDC01, 0x42])
    (by decide) (firstOption _)).1
  exact absurd hread (by decide)

end Ccctl.Core
