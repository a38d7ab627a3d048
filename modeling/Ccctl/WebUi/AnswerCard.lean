import Ccctl.WebUi.Enrichment
import Ccctl.WebUi.Transcript
/-
  Ccctl.WebUi.AnswerCard — the panel a question is answered from
  (`packages/web-ui/src/app.js`: `updateBlockFromActivity`, `renderEnrichment`, `paintEnrichment`,
  `onOptionTap`, `toggleSelection`, `submitAnswer`, and what `selectSession`, `loadSessions` and
  `renderSessionClosed` do to it; `enrichment.js`: `enrichmentMatchesBlock`, `submitsOnTap`).

  The question comes with the polled list and the block it belongs to over the stream, each in its own
  time, and a session may be left and another opened between any two of them. The panel's buttons keep
  the question they were built for.

  - `card_lawful`: in every run the panel is up exactly when the question of the session in view is
    stamped with its current block and has not been answered, and what it shows is stamped so too; the
    send button is enabled exactly when the selection answers every question.
  - `answer_sent`: an event of such a run sends nothing, or it sends one complete answer to the panel's
    question, under its block's stamp, to the session in view, and the panel goes.
  - `answers_apart`: no block is answered twice in a row without a frame that ends it or a session
    opened in between.
-/

namespace Ccctl.WebUi

open Ccctl.Core Ccctl.Lib

/-- One question with one choice. -/
def submitsOnTap (enrichment : RequiresActionEnrichment) : Bool :=
  match enrichment.questions with
  | [question] => !question.multiSelect
  | _ => false

def enrichmentMatchesBlock (enrichment : RequiresActionEnrichment) (blockSequenceNum : Option Nat) : Bool :=
  blockSequenceNum = some enrichment.sequenceNum

/-- What is handed to `steer`, and the session it is for. -/
structure SentAnswer where
  sessionId : Option JsString
  command : Json

structure AnswerCard where
  currentSessionId : Option JsString
  currentBlockSequenceNum : Option Nat
  viewedEnrichment : Option RequiresActionEnrichment
  answeredSequenceNum : Option Nat
  renderedEnrichmentSeq : Option Nat
  /-- The question the panel's buttons were built for; `none` when it is hidden and empty. -/
  painted : Option RequiresActionEnrichment
  /-- `questionId` to the labels chosen, in the order they were. -/
  enrichmentSelections : OrdMap JsString (List JsString)
  /-- Of the send button. -/
  enabled : Bool
  sent : List SentAnswer

/-- `listed` is the `enrichment` of the session's row in the latest list, if it has one. -/
inductive CardEvent where
  | select (sessionId : JsString) (listed : Option Json)
  | cleared
  | polled (listed : Option Json)
  | message (data : JsString)
  /-- An option's button of the painted panel, by its place. -/
  | tap (question option : Nat)
  | send

namespace AnswerCard

def new : AnswerCard := ⟨none, none, none, none, none, none, .empty, false, []⟩

def hide (s : AnswerCard) : AnswerCard :=
  if s.renderedEnrichmentSeq.isSome then
    { s with painted := none, enrichmentSelections := .empty, renderedEnrichmentSeq := none }
  else s

/-- The panel built for a question: nothing chosen, and the send button disabled. -/
def paintEnrichment (s : AnswerCard) (enrichment : RequiresActionEnrichment) : AnswerCard :=
  { s with painted := some enrichment, enabled := false }

def renderEnrichment (s : AnswerCard) : AnswerCard :=
  match s.viewedEnrichment with
  | none => s.hide
  | some enrichment =>
    if enrichmentMatchesBlock enrichment s.currentBlockSequenceNum ∧
        s.answeredSequenceNum ≠ some enrichment.sequenceNum then
      if s.renderedEnrichmentSeq = some enrichment.sequenceNum then s
      else
        { s with enrichmentSelections := .empty, renderedEnrichmentSeq := some enrichment.sequenceNum }.paintEnrichment
          enrichment
    else s.hide

def selectionsObject (s : AnswerCard) : Json :=
  .obj (s.enrichmentSelections.entries.foldl (fun object e => Json.setProp object e.1 (.arr (e.2.map .str))) [])

def toggled (question : EnrichmentQuestion) (label : JsString) (selected : List JsString) : List JsString :=
  if question.multiSelect then if label ∈ selected then selected.filter (· ≠ label) else selected ++ [label]
  else [label]

def toggleSelection (s : AnswerCard) (question : EnrichmentQuestion) (label : JsString) : AnswerCard :=
  { s with
    enrichmentSelections := s.enrichmentSelections.set question.questionId
      (toggled question label ((s.enrichmentSelections.get question.questionId).getD [])) }

def reflectAnswerSubmitState (s : AnswerCard) (enrichment : RequiresActionEnrichment) : AnswerCard :=
  { s with enabled := (answerFromSelections (some enrichment) (some s.selectionsObject)).isSome }

def submitAnswer (s : AnswerCard) (enrichment : RequiresActionEnrichment) (selections : Json) : AnswerCard :=
  match answerFromSelections (some enrichment) (some selections) with
  | none => s
  | some answers =>
    match answerCommand (.num enrichment.sequenceNum) (.obj answers) with
    | none => s
    | some command =>
      let s := { s with answeredSequenceNum := some enrichment.sequenceNum }.renderEnrichment
      { s with sent := s.sent ++ [⟨s.currentSessionId, command⟩] }

def onOptionTap (s : AnswerCard) (enrichment : RequiresActionEnrichment) (question : EnrichmentQuestion)
    (label : JsString) : AnswerCard :=
  if submitsOnTap enrichment then s.submitAnswer enrichment (.obj [(question.questionId, .arr [.str label])])
  else (s.toggleSelection question label).reflectAnswerSubmitState enrichment

def updateBlockFromActivity (s : AnswerCard) (activity : Activity) : AnswerCard :=
  if activity.status = js "requires_action" then
    { s with currentBlockSequenceNum := activity.sequenceNum }.renderEnrichment
  else { s with currentBlockSequenceNum := none, answeredSequenceNum := none }.renderEnrichment

/-- What the end of the session and its absence from the list leave of the panel. -/
def moot (s : AnswerCard) : AnswerCard :=
  { s with currentBlockSequenceNum := none, viewedEnrichment := none }.renderEnrichment

def selectSession (s : AnswerCard) (sessionId : JsString) (listed : Option Json) : AnswerCard :=
  if s.currentSessionId = some sessionId then s
  else
    { s with
      currentSessionId := some sessionId
      currentBlockSequenceNum := none
      answeredSequenceNum := none
      viewedEnrichment := decodeEnrichment listed }.renderEnrichment

def tap (s : AnswerCard) (i j : Nat) : AnswerCard :=
  match s.painted with
  | none => s
  | some enrichment =>
    match enrichment.questions[i]? with
    | none => s
    | some question =>
      match question.options[j]? with
      | none => s
      | some option => s.onOptionTap enrichment question option.label

/-- The send button stands under every question but one that a tap answers. -/
def send (s : AnswerCard) : AnswerCard :=
  match s.painted with
  | none => s
  | some enrichment =>
    if submitsOnTap enrichment ∨ s.enabled = false then s else s.submitAnswer enrichment s.selectionsObject

variable (host : JsonHost)

def step (s : AnswerCard) : CardEvent → AnswerCard
  | .select sessionId listed => s.selectSession sessionId listed
  | .cleared => { s with currentSessionId := none }.moot
  | .polled listed =>
    match s.currentSessionId with
    | none => s
    | some _ => { s with viewedEnrichment := decodeEnrichment listed }.renderEnrichment
  | .message data =>
    match processEventData host data with
    | .activity activity => s.updateBlockFromActivity activity
    | .closed _ _ => s.moot
    | .transcript _ _ | .unparsed _ => s
  | .tap question option => s.tap question option
  | .send => s.send

/-- The server mints the ids of its questions, `q0` and on. `__proto__` is none of them: an object that is
    assigned it gets no such key. -/
def minted (_ : AnswerCard) : CardEvent → Prop
  | .select _ listed | .polled listed =>
    ∀ enrichment, decodeEnrichment listed = some enrichment →
      ∀ question ∈ enrichment.questions, question.questionId ≠ js "__proto__"
  | .cleared | .message _ | .tap _ _ | .send => True

abbrev CardRun : AnswerCard → Prop := Reach (step host) (· = new) minted

/-! ## The invariant -/

/-- What the browser's decoder vouches for. -/
structure Decoded (enrichment : RequiresActionEnrichment) : Prop where
  stamp : (asWorkerStatusSequence (some (.num enrichment.sequenceNum))).isSome = true
  asks : enrichment.questions ≠ []
  labels : ∀ question ∈ enrichment.questions, ∀ option ∈ question.options, trim option.label ≠ []

/-- The panel is to be up, for this question. -/
def Due (s : AnswerCard) (enrichment : RequiresActionEnrichment) : Prop :=
  s.viewedEnrichment = some enrichment ∧ s.currentBlockSequenceNum = some enrichment.sequenceNum ∧
    s.answeredSequenceNum ≠ some enrichment.sequenceNum

/-- Everything but what the panel shows. -/
structure Held (s : AnswerCard) : Prop where
  decoded : ∀ enrichment, s.viewedEnrichment = some enrichment ∨ s.painted = some enrichment → Decoded enrichment
  viewing : s.currentSessionId = none → s.viewedEnrichment = none
  rendered : s.painted.map (·.sequenceNum) = s.renderedEnrichmentSeq
  enabled : ∀ enrichment, s.painted = some enrichment → submitsOnTap enrichment = false →
    s.enabled = (answerFromSelections (some enrichment) (some s.selectionsObject)).isSome

structure Lawful (s : AnswerCard) : Prop extends Held s where
  up : ∀ enrichment, s.Due enrichment → s.painted.map (·.sequenceNum) = some enrichment.sequenceNum
  due : ∀ enrichment, s.painted = some enrichment →
    ∃ viewed, s.Due viewed ∧ viewed.sequenceNum = enrichment.sequenceNum

/-! ## Rendering -/

section
variable {s : AnswerCard}

/-- What rendering leaves alone. -/
structure Aside (s s' : AnswerCard) : Prop where
  session : s'.currentSessionId = s.currentSessionId
  block : s'.currentBlockSequenceNum = s.currentBlockSequenceNum
  viewed : s'.viewedEnrichment = s.viewedEnrichment
  answered : s'.answeredSequenceNum = s.answeredSequenceNum
  sent : s'.sent = s.sent

theorem Aside.due {s' : AnswerCard} (h : Aside s s') (enrichment : RequiresActionEnrichment) :
    s'.Due enrichment ↔ s.Due enrichment := by
  unfold Due
  rw [h.viewed, h.block, h.answered]

theorem hide_aside (s : AnswerCard) : Aside s s.hide := by
  unfold hide
  split <;> exact ⟨rfl, rfl, rfl, rfl, rfl⟩

theorem hide_painted (h : s.painted.map (·.sequenceNum) = s.renderedEnrichmentSeq) :
    s.hide.painted = none ∧ s.hide.renderedEnrichmentSeq = none := by
  unfold hide
  split
  case isTrue => exact ⟨rfl, rfl⟩
  case isFalse hnone =>
    rw [Option.not_isSome_iff_eq_none] at hnone
    rw [hnone] at h
    exact ⟨Option.map_eq_none_iff.mp h, hnone⟩

theorem render_aside (s : AnswerCard) : Aside s s.renderEnrichment := by
  unfold renderEnrichment
  split
  · exact hide_aside s
  · split
    · split <;> exact ⟨rfl, rfl, rfl, rfl, rfl⟩
    · exact hide_aside s

/-- A hidden panel is lawful when nothing is due. -/
theorem Held.hidden (h : Held s) (hdue : ∀ enrichment, ¬ s.Due enrichment) : Lawful s.hide := by
  have haside := hide_aside s
  obtain ⟨hpainted, hseq⟩ := hide_painted h.rendered
  refine ⟨⟨fun enrichment hor => ?_, ?_, ?_, ?_⟩, fun enrichment hd => ?_, ?_⟩
  · rw [haside.viewed, hpainted] at hor
    exact h.decoded enrichment (.inl (hor.resolve_right (by simp)))
  · rw [haside.session, haside.viewed]
    exact h.viewing
  · rw [hpainted, hseq]
    rfl
  · simp [hpainted]
  · exact absurd ((haside.due enrichment).mp hd) (hdue enrichment)
  · simp [hpainted]

/-- Nothing is chosen in a panel just built, and the question asks something. -/
theorem unanswered_empty {enrichment : RequiresActionEnrichment} (h : enrichment.questions ≠ []) :
    answerFromSelections (some enrichment) (some (.obj [])) = none := by
  obtain ⟨question, rest, hquestions⟩ := List.exists_cons_of_ne_nil h
  have hobject : (Json.obj []).isPlainObject = true := rfl
  simp only [answerFromSelections, hobject, if_true, hquestions, answersFrom]
  rfl

theorem Held.render (h : Held s) : Lawful s.renderEnrichment := by
  unfold renderEnrichment
  split
  case h_1 hviewed => exact h.hidden fun enrichment hdue => by simp [Due, hviewed] at hdue
  case h_2 viewed hviewed =>
    have honly : ∀ enrichment, s.Due enrichment → enrichment = viewed := fun enrichment hdue =>
      (Option.some.inj (hviewed.symm.trans hdue.1)).symm
    split
    case isTrue hjoin =>
      have hdue : s.Due viewed := ⟨hviewed, by simpa [enrichmentMatchesBlock] using hjoin.1, hjoin.2⟩
      split
      case isTrue hsame =>
        refine ⟨h, fun enrichment hd => ?_, fun enrichment hpainted => ⟨viewed, hdue, ?_⟩⟩
        · rw [h.rendered, hsame, honly enrichment hd]
        · have hrendered := h.rendered
          rw [hpainted, hsame] at hrendered
          exact (Option.some.inj hrendered).symm
      case isFalse =>
        refine ⟨⟨fun enrichment hor => ?_, h.viewing, rfl, fun enrichment hpainted _ => ?_⟩, fun enrichment hd => ?_,
          fun enrichment hpainted => ⟨viewed, hdue, ?_⟩⟩
        · exact h.decoded enrichment (.inl (hor.elim id fun hpainted => hviewed.trans hpainted))
        · obtain rfl : viewed = enrichment := Option.some.inj hpainted
          exact (congrArg Option.isSome (unanswered_empty (h.decoded viewed (.inl hviewed)).asks)).symm
        · rw [honly enrichment hd]
          rfl
        · exact congrArg (·.sequenceNum) (Option.some.inj hpainted)
    case isFalse hjoin =>
      refine h.hidden fun enrichment hdue => hjoin ?_
      obtain rfl := honly enrichment hdue
      exact ⟨by simpa [enrichmentMatchesBlock] using hdue.2.1, hdue.2.2⟩

end

/-! ## Answers -/

theorem decodeOptions_labels {values : List Json} {options : List EnrichmentOption}
    (h : decodeOptions values = some options) : ∀ option ∈ options, trim option.label ≠ [] := by
  induction values generalizing options with
  | nil =>
    obtain rfl : [] = options := Option.some.inj h
    simp
  | cons value rest ih =>
    rw [decodeOptions] at h
    split at h
    · cases h
    · rename_i decoded hdecoded
      obtain ⟨tail, htail, rfl⟩ := Option.map_eq_some_iff.mp h
      refine List.forall_mem_cons.mpr ⟨?_, ih htail⟩
      unfold decodeEnrichmentOption at hdecoded
      split at hdecoded
      · split at hdecoded
        · cases hdecoded
        · rename_i label hlabel
          obtain rfl := Option.some.inj hdecoded
          unfold displayString at hlabel
          split at hlabel
          · split at hlabel
            · rename_i htrim
              exact Option.some.inj hlabel ▸ htrim
            · cases hlabel
          · cases hlabel
      · cases hdecoded

theorem decodeQuestion_labels {value : Json} {question : EnrichmentQuestion}
    (h : decodeEnrichmentQuestion value = some question) : ∀ option ∈ question.options, trim option.label ≠ [] := by
  unfold decodeEnrichmentQuestion at h
  split at h
  · split at h
    · split at h
      · cases h
      · split at h
        · cases h
        · rename_i parsed hparsed
          obtain rfl := Option.some.inj h
          exact decodeOptions_labels hparsed
    · cases h
  · cases h

theorem decodeQuestions_labels {values : List Json} {questions : List EnrichmentQuestion}
    (h : decodeQuestions values = some questions) : questions.length = values.length ∧
      ∀ question ∈ questions, ∀ option ∈ question.options, trim option.label ≠ [] := by
  induction values generalizing questions with
  | nil =>
    obtain rfl : [] = questions := Option.some.inj h
    simp
  | cons value rest ih =>
    rw [decodeQuestions] at h
    split at h
    · cases h
    · rename_i decoded hdecoded
      obtain ⟨tail, htail, rfl⟩ := Option.map_eq_some_iff.mp h
      obtain ⟨hlength, hlabels⟩ := ih htail
      exact ⟨by simp [hlength], List.forall_mem_cons.mpr ⟨decodeQuestion_labels hdecoded, hlabels⟩⟩

/-- A stamp that was read is one. -/
theorem stamp_read {value : Option Json} {n : Nat} (h : asWorkerStatusSequence value = some n) :
    (asWorkerStatusSequence (some (.num n))).isSome = true := by
  unfold asWorkerStatusSequence at h
  split at h
  · split at h
    · rename_i q hq
      obtain rfl := Option.some.inj h
      have hsafe : ((q.num.toNat : Nat) : Int) ≤ MAX_SAFE_INTEGER := by
        rw [Int.toNat_of_nonneg hq.2.1]
        exact hq.2.2
      rw [asWorkerStatusSequence_nat hsafe]
      rfl
    · cases h
  · cases h

theorem decodeEnrichment_decoded {listed : Option Json} {enrichment : RequiresActionEnrichment}
    (h : decodeEnrichment listed = some enrichment) : Decoded enrichment := by
  unfold decodeEnrichment at h
  split at h
  · cases h
  · split at h
    · split at h
      · rename_i sequenceNum questions hstamp _
        split at h
        · cases h
        · rename_i hcount
          obtain ⟨parsed, hparsed, rfl⟩ := Option.map_eq_some_iff.mp h
          obtain ⟨hlength, hlabels⟩ := decodeQuestions_labels hparsed
          refine ⟨stamp_read hstamp, fun hnil => ?_, hlabels⟩
          · have hnil : parsed = [] := hnil
            rw [hnil] at hlength
            exact hcount (.inl hlength.symm)
      · cases h
    · cases h

theorem answerable_chosen {question : EnrichmentQuestion} (hlabels : ∀ option ∈ question.options, trim option.label ≠ [])
    {selections : Json} {labels : List JsString} (h : Picked selections question labels) :
    answerable (.arr (labels.map .str)) = true := by
  obtain ⟨-, hne, hselects⟩ := h
  have hall : ∀ label ∈ labels, trim label ≠ [] := by
    intro label hlabel
    obtain ⟨option, hoption, rfl⟩ := List.mem_map.mp (hselects.offered hlabel)
    exact hlabels option hoption
  simp only [answerable, Bool.and_eq_true, Bool.not_eq_true', List.isEmpty_eq_false_iff, ne_eq, List.map_eq_nil_iff,
    List.all_eq_true, List.mem_map]
  refine ⟨hne, ?_⟩
  intro value hex
  obtain ⟨label, hlabel, rfl⟩ := hex
  rw [displayString, if_pos (hall label hlabel)]
  rfl

/-- The entries built for a decoded question are what a command takes. -/
theorem answersFrom_answerable {selections : Json} {answers out : Json.Fields} {questions : List EnrichmentQuestion}
    (hlabels : ∀ question ∈ questions, ∀ option ∈ question.options, trim option.label ≠ [])
    (hold : ∀ entry ∈ answers, answerable entry.2 = true) (h : answersFrom selections answers questions = some out) :
    (∀ entry ∈ out, answerable entry.2 = true) ∧ (questions ≠ [] ∨ answers ≠ [] → out ≠ []) := by
  induction questions generalizing answers with
  | nil =>
    obtain rfl : answers = out := Option.some.inj h
    exact ⟨hold, fun hor => hor.resolve_left (by simp)⟩
  | cons question rest ih =>
    rw [answersFrom] at h
    split at h
    · cases h
    · rename_i labels hchosen
      have hpicked := chosenLabels_some.mp hchosen
      have hset : Json.setProp answers question.questionId (.arr (labels.map .str)) ≠ [] := by
        intro hnil
        have hkeys := Json.keys_setProp answers question.questionId (.arr (labels.map .str))
        rw [hnil] at hkeys
        split at hkeys
        · rename_i hmem
          rw [List.map_nil, List.nil_perm] at hkeys
          rw [hkeys] at hmem
          cases hmem
        · exact absurd hkeys.symm (by simp)
      have hentries : ∀ entry ∈ Json.setProp answers question.questionId (.arr (labels.map .str)),
          answerable entry.2 = true := by
        intro entry hentry
        rcases Json.mem_setProp hentry with rfl | hentry
        · exact answerable_chosen (hlabels question List.mem_cons_self) hpicked
        · exact hold entry hentry
      obtain ⟨hall, hne⟩ := ih (fun q hq => hlabels q (List.mem_cons_of_mem _ hq)) hentries h
      exact ⟨hall, fun _ => hne (.inr hset)⟩

/-- A complete selection makes a command. -/
theorem Decoded.command {enrichment : RequiresActionEnrichment} (h : Decoded enrichment) {selections : Json}
    {answers : Json.Fields} (hanswers : answerFromSelections (some enrichment) (some selections) = some answers) :
    ∃ command, answerCommand (.num enrichment.sequenceNum) (.obj answers) = some command := by
  have hfrom : answersFrom selections [] enrichment.questions = some answers := by
    rw [answerFromSelections] at hanswers
    split at hanswers
    · exact hanswers
    · cases hanswers
  obtain ⟨hall, hne⟩ := answersFrom_answerable h.labels (by simp) hfrom
  have hentries : answers ≠ [] ∧ (answers.all fun entry => answerable entry.2) = true :=
    ⟨hne (.inl h.asks), List.all_eq_true.mpr hall⟩
  have hcommand : (answerCommand (.num enrichment.sequenceNum) (.obj answers)).isSome = true := by
    rw [answerCommand, if_pos h.stamp]
    simp [hentries]
  exact Option.isSome_iff_exists.mp hcommand

/-! ## What each event keeps -/

section
variable {host : JsonHost} {s : AnswerCard}

/-- A command is built for the question, and the panel rendered over the answer. -/
theorem submitAnswer_some {enrichment : RequiresActionEnrichment} {selections command : Json} {answers : Json.Fields}
    (hanswers : answerFromSelections (some enrichment) (some selections) = some answers)
    (hcommand : answerCommand (.num enrichment.sequenceNum) (.obj answers) = some command) :
    s.submitAnswer enrichment selections =
      { { s with answeredSequenceNum := some enrichment.sequenceNum }.renderEnrichment with
        sent := s.sent ++ [⟨s.currentSessionId, command⟩] } := by
  have haside := render_aside { s with answeredSequenceNum := some enrichment.sequenceNum }
  simp only [submitAnswer, hanswers, hcommand, haside.sent, haside.session]

theorem submitAnswer_eq (enrichment : RequiresActionEnrichment) (selections : Json) :
    s.submitAnswer enrichment selections = s ∨ ∃ command,
      s.submitAnswer enrichment selections =
        { { s with answeredSequenceNum := some enrichment.sequenceNum }.renderEnrichment with
          sent := s.sent ++ [⟨s.currentSessionId, command⟩] } := by
  cases hanswers : answerFromSelections (some enrichment) (some selections) with
  | none => exact .inl (by simp only [submitAnswer, hanswers])
  | some answers =>
    cases hcommand : answerCommand (.num enrichment.sequenceNum) (.obj answers) with
    | none => exact .inl (by simp only [submitAnswer, hanswers, hcommand])
    | some command => exact .inr ⟨command, submitAnswer_some hanswers hcommand⟩

theorem Lawful.submit (h : Lawful s) (enrichment : RequiresActionEnrichment) (selections : Json) :
    Lawful (s.submitAnswer enrichment selections) := by
  rcases submitAnswer_eq (s := s) enrichment selections with hsame | ⟨command, heq⟩
  · rwa [hsame]
  · have hheld : Held { s with answeredSequenceNum := some enrichment.sequenceNum } :=
      ⟨h.decoded, h.viewing, h.rendered, h.enabled⟩
    have hrendered := hheld.render
    rw [heq]
    exact ⟨⟨hrendered.decoded, hrendered.viewing, hrendered.rendered, hrendered.enabled⟩, hrendered.up, hrendered.due⟩

theorem Lawful.toggle (h : Lawful s) {enrichment : RequiresActionEnrichment} (hpainted : s.painted = some enrichment)
    (question : EnrichmentQuestion) (label : JsString) :
    Lawful ((s.toggleSelection question label).reflectAnswerSubmitState enrichment) := by
  refine ⟨⟨h.decoded, h.viewing, h.rendered, fun other hother _ => ?_⟩, h.up, h.due⟩
  obtain rfl : enrichment = other := Option.some.inj (hpainted.symm.trans hother)
  rfl

theorem Lawful.tapped (h : Lawful s) (i j : Nat) : Lawful (s.tap i j) := by
  unfold tap
  split
  · exact h
  · rename_i enrichment hpainted
    split
    · exact h
    · split
      · exact h
      · unfold onOptionTap
        split
        · exact h.submit _ _
        · exact h.toggle hpainted _ _

theorem Lawful.send (h : Lawful s) : Lawful s.send := by
  unfold AnswerCard.send
  split
  · exact h
  · split
    · exact h
    · exact h.submit _ _

theorem Lawful.moot (h : Held { s with viewedEnrichment := none }) : Lawful s.moot :=
  Held.render ⟨h.decoded, h.viewing, h.rendered, h.enabled⟩

theorem Lawful.selected (h : Lawful s) (sessionId : JsString) (listed : Option Json) :
    Lawful (s.selectSession sessionId listed) := by
  unfold selectSession
  split
  · exact h
  · refine Held.render ⟨fun enrichment hor => ?_, fun hnone => (by cases hnone), h.rendered, h.enabled⟩
    rcases hor with hviewed | hpainted
    · exact decodeEnrichment_decoded hviewed
    · exact h.decoded enrichment (.inr hpainted)

theorem Lawful.updated (h : Lawful s) (activity : Activity) : Lawful (s.updateBlockFromActivity activity) := by
  unfold updateBlockFromActivity
  split <;> exact Held.render ⟨h.decoded, h.viewing, h.rendered, h.enabled⟩

theorem Held.unviewed (h : Held s) (sessionId : Option JsString) :
    Held { s with currentSessionId := sessionId, viewedEnrichment := none } :=
  ⟨fun enrichment hor => h.decoded enrichment (.inr (hor.resolve_left (by simp))), fun _ => rfl, h.rendered, h.enabled⟩

theorem Lawful.step (h : Lawful s) (e : CardEvent) : Lawful (AnswerCard.step host s e) := by
  cases e with
  | select sessionId listed => exact h.selected sessionId listed
  | cleared => exact Lawful.moot (h.toHeld.unviewed none)
  | polled listed =>
    simp only [AnswerCard.step]
    split
    · exact h
    · rename_i hcurrent
      refine Held.render ⟨fun enrichment hor => ?_, fun hnone => ?_, h.rendered, h.enabled⟩
      · rcases hor with hviewed | hpainted
        · exact decodeEnrichment_decoded hviewed
        · exact h.decoded enrichment (.inr hpainted)
      · have hnone : s.currentSessionId = none := hnone
        rw [hcurrent] at hnone
        cases hnone
  | message data =>
    simp only [AnswerCard.step]
    split
    · exact h.updated _
    · exact Lawful.moot (h.toHeld.unviewed s.currentSessionId)
    · exact h
    · exact h
  | tap i j => exact h.tapped i j
  | send => exact h.send

theorem CardRun.lawful (h : CardRun host s) : Lawful s := by
  refine h.inv (fun s hstart => ?_) fun s e hs _ => hs.step e
  subst hstart
  exact ⟨⟨by simp [new], fun _ => rfl, rfl, by simp [new]⟩, by simp [new, Due], by simp [new]⟩

/-! ## The panel and its answers -/

/-- In every run. -/
theorem card_lawful (h : CardRun host s) :
    (s.painted.isSome = true ↔ ∃ enrichment, s.Due enrichment) ∧
      ∀ enrichment, s.painted = some enrichment →
        (∃ sessionId, s.currentSessionId = some sessionId) ∧
        s.currentBlockSequenceNum = some enrichment.sequenceNum ∧
        s.answeredSequenceNum ≠ some enrichment.sequenceNum ∧
        (submitsOnTap enrichment = false →
          s.enabled = (answerFromSelections (some enrichment) (some s.selectionsObject)).isSome) := by
  have hlawful := h.lawful
  refine ⟨⟨fun hup => ?_, fun ⟨enrichment, hdue⟩ => ?_⟩, fun enrichment hpainted => ?_⟩
  · obtain ⟨enrichment, hpainted⟩ := Option.isSome_iff_exists.mp hup
    obtain ⟨viewed, hdue, -⟩ := hlawful.due enrichment hpainted
    exact ⟨viewed, hdue⟩
  · have hup := hlawful.up enrichment hdue
    cases hpainted : s.painted with
    | none => simp [hpainted] at hup
    | some painted => rfl
  · obtain ⟨viewed, ⟨hviewed, hblock, hanswered⟩, hsame⟩ := hlawful.due enrichment hpainted
    rw [hsame] at hblock hanswered
    refine ⟨Option.ne_none_iff_exists'.mp fun hnone => ?_, hblock, hanswered, hlawful.enabled enrichment hpainted⟩
    rw [hlawful.viewing hnone] at hviewed
    cases hviewed

/-- One question of two choices. -/
def choice (sequenceNum : Nat) (multiSelect : Bool) : RequiresActionEnrichment :=
  ⟨sequenceNum, [⟨js "q0", js "Which?", none, [⟨js "a", none⟩, ⟨js "b", none⟩], multiSelect⟩]⟩

def blockedOn (sequenceNum : Nat) : JsString :=
  Json.stringify integerHost (.obj [(js "type", .str CONTROL_EVENT_TYPE), (js "subtype", .str WORKER_STATUS_SUBTYPE),
    (js "payload", .obj [(js "status", .str (js "requires_action")), (js "sequence_num", .num sequenceNum)])])

theorem choice_minted (s : AnswerCard) (sequenceNum : Nat) (multiSelect : Bool)
    (h : decodeEnrichment (some (enrichmentJson (choice sequenceNum multiSelect))) = some (choice sequenceNum multiSelect)) :
    minted s (.polled (some (enrichmentJson (choice sequenceNum multiSelect)))) := by
  intro enrichment hdecoded question hquestion
  obtain rfl := Option.some.inj (h.symm.trans hdecoded)
  obtain rfl := List.mem_singleton.mp hquestion
  have hids : js "q0" ≠ js "__proto__" := by decide
  exact hids

/-- The list comes in before the block it asks about, and both choices are taken. -/
def chosen : List CardEvent :=
  [.select (js "s") (some (enrichmentJson (choice 7 true))), .message (blockedOn 7), .tap 0 1, .tap 0 0]

theorem run_chosen : CardRun integerHost (runFrom (step integerHost) new chosen) := by
  have hstart : CardRun integerHost new := .start rfl
  exact hstart.run_allowed ⟨choice_minted new 7 true (by decide +kernel), trivial, trivial, trivial, trivial⟩

theorem card_lawful_chosen :
    let s := runFrom (step integerHost) new chosen
    s.painted = some (choice 7 true) ∧ s.enabled = true ∧
      s.enabled = (answerFromSelections (some (choice 7 true)) (some s.selectionsObject)).isSome := by
  have hpainted : (runFrom (step integerHost) new chosen).painted = some (choice 7 true) := by decide +kernel
  exact ⟨hpainted, by decide +kernel, ((card_lawful run_chosen).2 _ hpainted).2.2.2 rfl⟩

/-- What one event sends: an answer to the panel's question, complete, under the stamp of the block, for
    the session in view. -/
structure Sends (s s' : AnswerCard) (enrichment : RequiresActionEnrichment) (sessionId : JsString) (command : Json) :
    Prop where
  painted : s.painted = some enrichment
  session : s.currentSessionId = some sessionId
  block : s.currentBlockSequenceNum = some enrichment.sequenceNum
  unanswered : s.answeredSequenceNum ≠ some enrichment.sequenceNum
  complete : ∃ selections answers, answerFromSelections (some enrichment) (some selections) = some answers ∧
    answerCommand (.num enrichment.sequenceNum) (.obj answers) = some command
  sent : s'.sent = s.sent ++ [⟨some sessionId, command⟩]
  hidden : s'.painted = none
  answered : s'.answeredSequenceNum = some enrichment.sequenceNum

theorem submit_sends (h : CardRun host s) {enrichment : RequiresActionEnrichment} (hpainted : s.painted = some enrichment)
    (selections : Json) :
    (s.submitAnswer enrichment selections = s ∧ answerFromSelections (some enrichment) (some selections) = none) ∨
      ∃ sessionId command, Sends s (s.submitAnswer enrichment selections) enrichment sessionId command := by
  obtain ⟨viewed, ⟨hviewed, hblock, hanswered⟩, hsame⟩ := h.lawful.due enrichment hpainted
  rw [hsame] at hblock hanswered
  obtain ⟨sessionId, hsession⟩ := Option.ne_none_iff_exists'.mp fun hnone => by
    rw [h.lawful.viewing hnone] at hviewed
    cases hviewed
  cases hanswers : answerFromSelections (some enrichment) (some selections) with
  | none => exact .inl ⟨by simp only [submitAnswer, hanswers], rfl⟩
  | some answers =>
    obtain ⟨command, hcommand⟩ := (h.lawful.decoded enrichment (.inr hpainted)).command hanswers
    have haside := render_aside { s with answeredSequenceNum := some enrichment.sequenceNum }
    have hafter := h.lawful.submit enrichment selections
    have heq := submitAnswer_some (s := s) hanswers hcommand
    have hnow : (s.submitAnswer enrichment selections).answeredSequenceNum = some enrichment.sequenceNum := by
      rw [heq]
      exact haside.answered
    refine .inr ⟨sessionId, command, hpainted, hsession, hblock, hanswered, ⟨selections, answers, hanswers, hcommand⟩,
      by rw [heq, hsession], ?_, hnow⟩
    cases hstill : (s.submitAnswer enrichment selections).painted with
    | none => rfl
    | some painted =>
      -- still up, it would be due, and its block is the one just answered
      obtain ⟨due, ⟨-, hdueBlock, hdueAnswered⟩, -⟩ := hafter.due painted hstill
      have hkept : (s.submitAnswer enrichment selections).currentBlockSequenceNum = s.currentBlockSequenceNum := by
        rw [heq]
        exact haside.block
      rw [hkept, hblock] at hdueBlock
      rw [hnow, hdueBlock] at hdueAnswered
      exact absurd rfl hdueAnswered

theorem render_sent (s : AnswerCard) : s.renderEnrichment.sent = s.sent := (render_aside s).sent

/-- Neither a tap nor the send button. -/
def passive : CardEvent → Bool
  | .tap _ _ | .send => false
  | .select _ _ | .cleared | .polled _ | .message _ => true

theorem passive_sent (s : AnswerCard) {e : CardEvent} (he : passive e = true) : (step host s e).sent = s.sent := by
  cases e with
  | select sessionId listed =>
    simp only [step, selectSession]
    split
    · rfl
    · exact render_sent _
  | cleared => exact render_sent _
  | polled listed =>
    simp only [step]
    split
    · rfl
    · exact render_sent _
  | message data =>
    simp only [step]
    split
    · unfold updateBlockFromActivity
      split <;> exact render_sent _
    · exact render_sent _
    · rfl
    · rfl
  | tap i j => cases he
  | send => cases he

theorem passive_run (s : AnswerCard) {es : List CardEvent} (hes : es.all passive = true) :
    (runFrom (step host) s es).sent = s.sent := by
  induction es generalizing s with
  | nil => rfl
  | cons e es ih =>
    rw [List.all_cons, Bool.and_eq_true] at hes
    exact (ih _ hes.2).trans (passive_sent s hes.1)

theorem sends_or_same (h : CardRun host s) (e : CardEvent) : (step host s e).sent = s.sent ∨
    ∃ enrichment sessionId command, Sends s (step host s e) enrichment sessionId command := by
  cases e with
  | select | cleared | polled | message => exact .inl (passive_sent s rfl)
  | tap i j =>
    simp only [step, tap]
    split
    · exact .inl rfl
    · rename_i enrichment hpainted
      split
      · exact .inl rfl
      · split
        · exact .inl rfl
        · unfold onOptionTap
          split
          · rcases submit_sends h hpainted _ with ⟨hsame, -⟩ | ⟨sessionId, command, hsends⟩
            · exact .inl (congrArg AnswerCard.sent hsame)
            · exact .inr ⟨enrichment, sessionId, command, hsends⟩
          · exact .inl rfl
  | send =>
    simp only [step, AnswerCard.send]
    split
    · exact .inl rfl
    · rename_i enrichment hpainted
      split
      · exact .inl rfl
      · rcases submit_sends h hpainted _ with ⟨hsame, -⟩ | ⟨sessionId, command, hsends⟩
        · exact .inl (congrArg AnswerCard.sent hsame)
        · exact .inr ⟨enrichment, sessionId, command, hsends⟩

/-- Only a tap and the send button send, and an enabled send button does. -/
theorem answer_sent (h : CardRun host s) (e : CardEvent) :
    ((step host s e).sent = s.sent ∨
      ∃ enrichment sessionId command, Sends s (step host s e) enrichment sessionId command) ∧
    ∀ enrichment, s.painted = some enrichment → submitsOnTap enrichment = false → s.enabled = true →
      ∃ sessionId command, Sends s (step host s .send) enrichment sessionId command := by
  refine ⟨sends_or_same h e, fun enrichment hpainted htap henabled => ?_⟩
  have hcomplete := h.lawful.enabled enrichment hpainted htap
  have hsend : step host s .send = s.submitAnswer enrichment s.selectionsObject := by
    simp [step, AnswerCard.send, hpainted, htap, henabled]
  rw [hsend]
  rcases submit_sends h hpainted s.selectionsObject with ⟨-, hnone⟩ | hsends
  · rw [hnone, henabled] at hcomplete
    cases hcomplete
  · exact hsends

theorem answer_sent_chosen :
    let s := runFrom (step integerHost) new chosen
    ∃ sessionId command, Sends s (step integerHost s .send) (choice 7 true) sessionId command := by
  have hpainted : (runFrom (step integerHost) new chosen).painted = some (choice 7 true) := by decide +kernel
  have henabled : (runFrom (step integerHost) new chosen).enabled = true := by decide +kernel
  exact (answer_sent run_chosen .send).2 (choice 7 true) hpainted rfl henabled

/-! ## A block is answered once -/

/-- What lets a block be answered again: another session in view, or a frame that ends the block. -/
def Reopens (host : JsonHost) (s : AnswerCard) : CardEvent → Prop
  | .select sessionId _ => s.currentSessionId ≠ some sessionId
  | .message data => ∃ activity, processEventData host data = .activity activity ∧ activity.status ≠ js "requires_action"
  | .cleared | .polled _ | .tap _ _ | .send => False

theorem submitted_kept (enrichment : RequiresActionEnrichment) (selections : Json) :
    (s.submitAnswer enrichment selections).answeredSequenceNum = s.answeredSequenceNum ∨
      s.sent.length < (s.submitAnswer enrichment selections).sent.length := by
  rcases submitAnswer_eq (s := s) enrichment selections with hsame | ⟨command, heq⟩
  · exact .inl (congrArg answeredSequenceNum hsame)
  · right
    rw [heq]
    simp

/-- An event that does not reopen the block keeps it answered, or sends. -/
theorem answered_kept (s : AnswerCard) {e : CardEvent} (he : ¬ Reopens host s e) :
    (step host s e).answeredSequenceNum = s.answeredSequenceNum ∨ s.sent.length < (step host s e).sent.length := by
  cases e with
  | select sessionId listed =>
    left
    have hsame : s.currentSessionId = some sessionId := by simpa [Reopens] using he
    simp only [step, selectSession, if_pos hsame]
  | cleared => exact .inl (render_aside _).answered
  | polled listed =>
    left
    simp only [step]
    split
    · rfl
    · exact (render_aside _).answered
  | message data =>
    left
    simp only [step]
    split
    · rename_i activity hactivity
      have hblocked : activity.status = js "requires_action" := by
        by_contra hne
        exact he ⟨activity, hactivity, hne⟩
      unfold updateBlockFromActivity
      rw [if_pos hblocked]
      exact (render_aside _).answered
    · exact (render_aside _).answered
    · rfl
    · rfl
  | tap i j =>
    simp only [step, tap]
    split
    · exact .inl rfl
    · split
      · exact .inl rfl
      · split
        · exact .inl rfl
        · unfold onOptionTap
          split
          · exact submitted_kept _ _
          · exact .inl rfl
  | send =>
    simp only [step, AnswerCard.send]
    split
    · exact .inl rfl
    · split
      · exact .inl rfl
      · exact submitted_kept _ _

theorem sent_grows (h : CardRun host s) (e : CardEvent) : s.sent.length ≤ (step host s e).sent.length := by
  rcases (sends_or_same h e) with hsame | ⟨enrichment, sessionId, command, hsends⟩
  · rw [hsame]
  · rw [hsends.sent]
    simp

theorem answered_run (h : CardRun host s) {es : List CardEvent} (hminted : allowed (step host) minted s es)
    (hes : allowed (step host) (fun s e => ¬ Reopens host s e) s es) :
    s.sent.length ≤ (runFrom (step host) s es).sent.length ∧
      ((runFrom (step host) s es).answeredSequenceNum = s.answeredSequenceNum ∨
        s.sent.length < (runFrom (step host) s es).sent.length) := by
  induction es generalizing s with
  | nil => exact ⟨le_rfl, .inl rfl⟩
  | cons e es ih =>
    have hgrows := sent_grows h e
    obtain ⟨hlater, hkept⟩ := ih (.step e h hminted.1) hminted.2 hes.2
    refine ⟨hgrows.trans hlater, ?_⟩
    rcases answered_kept s hes.1 with hnow | hsent
    · rcases hkept with hkept | hsent
      · exact .inl (hkept.trans hnow)
      · exact .inr (hgrows.trans_lt hsent)
    · exact .inr (hsent.trans_le hlater)

/-- After an answer, and whatever follows it without reopening its block or sending another, the next
    answer is to another block. -/
theorem answers_apart (h : CardRun host s) {e next : CardEvent} {es : List CardEvent}
    {first second : RequiresActionEnrichment} {sessionId sessionId' : JsString} {command command' : Json}
    (hminted : allowed (step host) minted s (e :: es))
    (hfirst : Sends s (step host s e) first sessionId command)
    (hes : allowed (step host) (fun s e => ¬ Reopens host s e) (step host s e) es)
    (hnone : (runFrom (step host) (step host s e) es).sent = (step host s e).sent)
    (hsecond : Sends (runFrom (step host) (step host s e) es) (step host (runFrom (step host) (step host s e) es) next)
      second sessionId' command') :
    second.sequenceNum ≠ first.sequenceNum := by
  intro hsame
  have hrun : CardRun host (step host s e) := .step e h hminted.1
  have hanswered : (runFrom (step host) (step host s e) es).answeredSequenceNum = some first.sequenceNum := by
    rcases (answered_run hrun hminted.2 hes).2 with hkept | hsent
    · exact hkept.trans hfirst.answered
    · exact absurd (congrArg List.length hnone) hsent.ne'
  exact hsecond.unanswered (hanswered.trans (congrArg some hsame.symm))

def asked : List CardEvent := [.select (js "s") (some (enrichmentJson (choice 7 false))), .message (blockedOn 7)]

/-- The next block follows with no frame between them. -/
def between : List CardEvent := [.polled (some (enrichmentJson (choice 8 false))), .message (blockedOn 8)]

theorem between_keeps (s : AnswerCard) : allowed (step integerHost) (fun s e => ¬ Reopens integerHost s e) s between := by
  refine ⟨id, ?_, trivial⟩
  intro hex
  obtain ⟨activity, hactivity, hended⟩ := hex
  have hblocked : processEventData integerHost (blockedOn 8) =
      .activity ⟨js "requires_action", js "Awaiting input.", some 8⟩ := by
    decide +kernel
  rw [hblocked] at hactivity
  cases hactivity
  exact hended rfl

theorem answers_apart_between :
    let s := runFrom (step integerHost) new asked
    let later := runFrom (step integerHost) (step integerHost s (.tap 0 0)) between
    ∃ first second sessionId sessionId' command command',
      Sends s (step integerHost s (.tap 0 0)) first sessionId command ∧
        Sends later (step integerHost later (.tap 0 0)) second sessionId' command' ∧
        second.sequenceNum ≠ first.sequenceNum := by
  have hstart : CardRun integerHost new := .start rfl
  have hrun : CardRun integerHost (runFrom (step integerHost) new asked) :=
    hstart.run_allowed ⟨choice_minted new 7 false (by decide +kernel), trivial, trivial⟩
  have hfirst : (step integerHost (runFrom (step integerHost) new asked) (.tap 0 0)).sent.length ≠
      (runFrom (step integerHost) new asked).sent.length := by
    decide +kernel
  have hsecond : (step integerHost (runFrom (step integerHost) (step integerHost
        (runFrom (step integerHost) new asked) (.tap 0 0)) between) (.tap 0 0)).sent.length ≠
      (runFrom (step integerHost) (step integerHost (runFrom (step integerHost) new asked) (.tap 0 0))
        between).sent.length := by
    decide +kernel
  generalize runFrom (step integerHost) new asked = s at hrun hfirst hsecond ⊢
  have hminted : allowed (step integerHost) minted s (.tap 0 0 :: between) :=
    ⟨trivial, choice_minted _ 8 false (by decide +kernel), trivial, trivial⟩
  have htapped : CardRun integerHost (step integerHost s (.tap 0 0)) := .step _ hrun trivial
  have hlater : CardRun integerHost (runFrom (step integerHost) (step integerHost s (.tap 0 0)) between) :=
    htapped.run_allowed hminted.2
  obtain ⟨first, sessionId, command, hsends⟩ :=
    (sends_or_same hrun (.tap 0 0)).resolve_left fun hsame => hfirst (congrArg List.length hsame)
  obtain ⟨second, sessionId', command', hsends'⟩ :=
    (sends_or_same hlater (.tap 0 0)).resolve_left fun hsame => hsecond (congrArg List.length hsame)
  exact ⟨first, second, sessionId, sessionId', command, command', hsends, hsends',
    answers_apart hrun hminted hsends (between_keeps _) (passive_run _ rfl) hsends'⟩

end

end AnswerCard

end Ccctl.WebUi
