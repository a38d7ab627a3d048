import Ccctl.WebUi.Client
/-
  Ccctl.WebUi.StaleGuard — the viewed cursor that arms the stale guard, over every run of the
  client.

  `Seen` watches a run for what the operator can have looked at: the head a session was known
  to have when it was last selected (by the first poll, for one selected before it), the
  highest one it was known to have at the submission of a steer it accepted, and the highest
  event of its stream while it was viewed. As long as the events are `Timely` the viewed
  cursor is covered by these, so a steer that goes out directly goes out with all the client
  knows of covered (`viewed_covered`); and while a session stays listed its two cursors only grow,
  in every run.

  Two events are not timely (`viewed_uncovered`). An accepted POST moves the cursor to the head
  as it is when the answer comes, past what came in while it was out. And the one-shot
  initialisation, which is for a deep link followed before the first poll, also takes a
  session that was selected while its head was 0 or not known yet.
-/

namespace Ccctl.WebUi

open Ccctl.Core Ccctl.Lib

/-! ## What the operator has looked at -/

structure Seen where
  polled : Bool
  selected : JsString → Nat
  steered : JsString → Nat
  delivered : JsString → Nat

def Seen.nothing : Seen := ⟨false, fun _ => 0, fun _ => 0, fun _ => 0⟩

def Seen.covered (seen : Seen) (sessionId : JsString) : Nat :=
  max (seen.selected sessionId) (max (seen.steered sessionId) (seen.delivered sessionId))

def Seen.select (seen : Seen) (sessionId : JsString) (head : Nat) : Seen :=
  { seen with selected := Function.update seen.selected sessionId head }

def Seen.steer (seen : Seen) (sessionId : JsString) (head : Nat) : Seen :=
  { seen with steered := Function.update seen.steered sessionId (max (seen.steered sessionId) head) }

def Seen.deliver (seen : Seen) (sessionId : JsString) (lastEventId : Option Rat) : Seen :=
  { seen with
    delivered := Function.update seen.delivered sessionId (laterCursor (seen.delivered sessionId) lastEventId) }

/-- The session a poll is the first look at: the one it selects, and at the first poll the one
    selected before. -/
def looked (s : Client) (polled : Bool) (sessions : List SessionSummary) : Option JsString :=
  if polled then
    match nextSelection s.currentSessionId sessions with
    | .select id => some id
    | _ => none
  else (relisted s sessions).currentSessionId

def see (s : Client) (e : Event) (seen : Seen) : Seen :=
  match e with
  | .select sessionId => if s.currentSessionId = some sessionId then seen else seen.select sessionId (s.head sessionId)
  | .poll sessions =>
    match looked s seen.polled sessions with
    | some sessionId => { seen with polled := true }.select sessionId ((relisted s sessions).head sessionId)
    | none => { seen with polled := true }
  | .message lastEventId =>
    match s.currentSessionId with
    | some sessionId => seen.deliver sessionId lastEventId
    | none => seen
  | .settled number true =>
    match s.flight number with
    | some post => seen.steer post.sessionId post.submission.head
    | none => seen
  | _ => seen

/-- No message came in while an accepted POST to the viewed session was out, and past the first
    poll the one-shot initialises nothing but a session without messages. -/
def Timely (p : Client × Seen) : Event → Prop
  | .poll sessions => p.2.polled = true → ∀ sessionId ∈ (relisted p.1 sessions).currentSessionId,
      (relisted p.1 sessions).viewedCursors.has sessionId = false → (relisted p.1 sessions).head sessionId = 0
  | .settled number true => ∀ post ∈ p.1.flight number, p.1.currentSessionId = some post.sessionId →
      p.1.head post.sessionId ≤ p.1.viewed post.sessionId ∨ p.1.head post.sessionId ≤ post.submission.head
  | _ => True

instance (p : Client × Seen) : (e : Event) → Decidable (Timely p e)
  | .poll sessions => inferInstanceAs (Decidable (_ → ∀ sessionId ∈ (relisted p.1 sessions).currentSessionId, _))
  | .settled number true => inferInstanceAs (Decidable (∀ post ∈ p.1.flight number, _))
  | .settled _ false | .steer _ | .select _ | .pollFailed | .streamOpen | .streamError | .message _ | .cancel _
  | .sendAnyway _ => inferInstanceAs (Decidable True)

/-! ## What an event does to the cursors -/

def Client.cursors (s : Client) : Cursors × Cursors := (s.sessionCursors, s.viewedCursors)

theorem head_of_cursors {s s' : Client} (h : s'.cursors = s.cursors) (sessionId : JsString) :
    s'.head sessionId = s.head sessionId := congrArg (fun c : Cursors × Cursors => c.1.of sessionId) h

theorem viewed_of_cursors {s s' : Client} (h : s'.cursors = s.cursors) (sessionId : JsString) :
    s'.viewed sessionId = s.viewed sessionId := congrArg (fun c : Cursors × Cursors => c.2.of sessionId) h

theorem cursors_fire (s : Client) : (fireSteerQueue s).cursors = s.cursors := by
  unfold fireSteerQueue
  split
  · rfl
  · dsimp only
    split <;> rfl

theorem cursors_drain (s : Client) : (drainOn s).cursors = s.cursors := by
  unfold drainOn
  split
  · rfl
  · rfl
  · split
    · rfl
    · exact cursors_fire _

theorem cursors_load (s : Client) (sessions : List SessionSummary) :
    (loadSessions s sessions).cursors = (initViewed (relisted s sessions)).cursors := by
  unfold loadSessions
  dsimp only
  split
  · exact cursors_fire _
  · rfl

theorem cursors_steer (s : Client) (command : Option Json) : (steer s command).cursors = s.cursors := by
  unfold steer
  split
  · dsimp only
    split
    · unfold enqueueSteer
      split <;> rfl
    · split
      · unfold holdStaleSteer
        split <;> rfl
      · rfl
  · rfl

theorem cursors_sendAnyway (s : Client) (id : Nat) : (sendSteerAnyway s id).cursors = s.cursors := by
  unfold sendSteerAnyway
  split <;> rfl

section
variable (s : Client) (sessionId : JsString)

theorem head_select (id : JsString) : (selectSession s id).head sessionId = s.head sessionId := by
  unfold selectSession
  split <;> rfl

theorem viewed_select (id : JsString) :
    (selectSession s id).viewed sessionId =
      if sessionId = id ∧ s.currentSessionId ≠ some id then max (s.viewed sessionId) (s.head sessionId)
      else s.viewed sessionId := by
  have hviewed : Cursors.of (if s.sessionCursors.has id then bumpCursor s.viewedCursors id (some (s.head id))
      else s.viewedCursors) sessionId =
      if sessionId = id then max (s.viewed sessionId) (s.head sessionId) else s.viewed sessionId := by
    cases hknown : s.sessionCursors.has id with
    | true =>
      rw [if_pos rfl, bumpCursor_nat]
      by_cases hthis : sessionId = id
      · rw [hthis]
        rfl
      · rw [if_neg hthis, if_neg hthis]
        rfl
    | false =>
      rw [if_neg Bool.false_ne_true]
      split
      · rename_i hthis
        have hzero : s.head sessionId = 0 := hthis ▸ of_not_has hknown
        rw [hzero, Nat.max_zero]
        rfl
      · rfl
  unfold selectSession
  by_cases hsame : s.currentSessionId = some id
  · simp [hsame]
  · rw [if_neg hsame]
    refine hviewed.trans ?_
    simp [hsame]

theorem head_init : (initViewed s).head sessionId = s.head sessionId := by
  unfold initViewed
  split
  · rfl
  · split <;> rfl

theorem viewed_init :
    (initViewed s).viewed sessionId = s.viewed sessionId ∨
      (s.currentSessionId = some sessionId ∧ s.viewedCursors.has sessionId = false ∧
        (initViewed s).viewed sessionId = s.head sessionId) := by
  unfold initViewed
  split
  · exact Or.inl rfl
  · rename_i current hcurrent
    split
    · exact Or.inl rfl
    · rename_i hnone
      by_cases hthis : sessionId = current
      · subst hthis
        refine Or.inr ⟨hcurrent, by simpa using hnone, ?_⟩
        show Cursors.of (s.viewedCursors.set sessionId (s.head sessionId)) sessionId = s.head sessionId
        rw [Cursors.of, OrdMap.get_set_self]
        rfl
      · refine Or.inl ?_
        show Cursors.of (s.viewedCursors.set current (s.head current)) sessionId = s.viewed sessionId
        rw [Cursors.of, OrdMap.get_set_ne _ _ hthis]
        rfl

theorem of_bumped (map : Cursors) (sessions : List SessionSummary) :
    map.of sessionId ≤ Cursors.of (sessions.foldl (fun map session =>
      bumpCursor map session.id (some (sessionCursor session))) map) sessionId := by
  induction sessions generalizing map with
  | nil => exact le_refl _
  | cons session rest ih => exact (le_bumpCursor map session.id sessionId _).trans (ih _)

/-- A session keeps its cursors through a poll that lists it again, the head growing; one that is
    taken off has none. -/
theorem cursors_listed (sessions : List SessionSummary) :
    ((applySessionList s sessions).head sessionId = 0 ∧ (applySessionList s sessions).viewed sessionId = 0 ∧
      (sessions = [] ∨ sessionId ∈ removedSessions s.renderedSessions sessions)) ∨
    (s.head sessionId ≤ (applySessionList s sessions).head sessionId ∧
      (applySessionList s sessions).viewed sessionId = s.viewed sessionId) := by
  unfold applySessionList
  by_cases hempty : sessions = []
  · rw [if_pos hempty]
    exact Or.inl ⟨rfl, rfl, Or.inl hempty⟩
  · rw [if_neg hempty]
    dsimp only [Client.head, Client.viewed]
    rw [of_eraseAll, of_eraseAll]
    by_cases hremoved : sessionId ∈ removedSessions s.renderedSessions sessions
    · rw [if_pos hremoved, if_pos hremoved]
      exact Or.inl ⟨rfl, rfl, Or.inr hremoved⟩
    · rw [if_neg hremoved, if_neg hremoved]
      exact Or.inr ⟨of_bumped sessionId s.sessionCursors sessions, rfl⟩

end

section
variable {s : Client}

theorem current_select (s : Client) (id : JsString) : (selectSession s id).currentSessionId = some id := by
  unfold selectSession
  split
  · assumption
  · rfl

theorem relisted_eq (s : Client) (sessions : List SessionSummary) :
    relisted s sessions =
      applySelection (applySessionList { s with pollState := .ok } sessions)
        (nextSelection s.currentSessionId sessions) := by
  have hcurrent : (applySessionList { s with pollState := .ok } sessions).currentSessionId = s.currentSessionId := by
    unfold applySessionList
    split <;> rfl
  rw [relisted, hcurrent]

/-- What a poll learns of a session, and what it takes as viewed when it selects one. -/
theorem viewed_relisted (hknown : ∀ id, s.viewed id ≤ s.head id) (sessions : List SessionSummary)
    (sessionId : JsString) :
    (relisted s sessions).viewed sessionId ≤ (relisted s sessions).head sessionId ∧
      ((relisted s sessions).viewed sessionId ≤ s.viewed sessionId ∨
        nextSelection s.currentSessionId sessions = .select sessionId) := by
  have hlisted := cursors_listed { s with pollState := .ok } sessionId sessions
  have hold : s.viewed sessionId ≤ s.head sessionId := hknown sessionId
  have hkept : (applySessionList { s with pollState := .ok } sessions).viewed sessionId ≤ s.viewed sessionId ∧
      (applySessionList { s with pollState := .ok } sessions).viewed sessionId ≤
        (applySessionList { s with pollState := .ok } sessions).head sessionId := by
    rcases hlisted with ⟨-, hviewed, -⟩ | ⟨hhead, hviewed⟩
    · omega
    · have hsame : (applySessionList { s with pollState := .ok } sessions).viewed sessionId = s.viewed sessionId :=
        hviewed
      have hgrown : s.head sessionId ≤ (applySessionList { s with pollState := .ok } sessions).head sessionId := hhead
      omega
  rw [relisted_eq]
  cases hnext : nextSelection s.currentSessionId sessions with
  | keep => exact ⟨hkept.2, Or.inl hkept.1⟩
  | clear => exact ⟨hkept.2, Or.inl hkept.1⟩
  | select id =>
    show (selectSession _ id).viewed sessionId ≤ (selectSession _ id).head sessionId ∧
      ((selectSession _ id).viewed sessionId ≤ s.viewed sessionId ∨ _)
    rw [head_select, viewed_select]
    split
    · rename_i hthis
      exact ⟨by omega, Or.inr (congrArg ViewMove.select hthis.1.symm)⟩
    · exact ⟨hkept.2, Or.inl hkept.1⟩

/-- After a poll the viewed cursor is where it was, or the session was first looked at, or the
    one-shot took its head. -/
theorem viewed_loaded (hknown : ∀ id, s.viewed id ≤ s.head id) (sessions : List SessionSummary) (sessionId : JsString) :
    (loadSessions s sessions).head sessionId = (relisted s sessions).head sessionId ∧
      (loadSessions s sessions).viewed sessionId ≤ (relisted s sessions).head sessionId ∧
      ((loadSessions s sessions).viewed sessionId ≤ s.viewed sessionId ∨
        nextSelection s.currentSessionId sessions = .select sessionId ∨
        ((relisted s sessions).currentSessionId = some sessionId ∧
          (relisted s sessions).viewedCursors.has sessionId = false)) := by
  have hcursors := cursors_load s sessions
  obtain ⟨hle, hwhy⟩ := viewed_relisted hknown sessions sessionId
  rw [head_of_cursors hcursors, viewed_of_cursors hcursors, head_init]
  rcases viewed_init (relisted s sessions) sessionId with hviewed | ⟨hcurrent, hnone, hviewed⟩
  · rw [hviewed]
    exact ⟨rfl, hle, hwhy.imp id Or.inl⟩
  · rw [hviewed]
    exact ⟨rfl, le_refl _, Or.inr (Or.inr ⟨hcurrent, hnone⟩)⟩

theorem laterCursor_mono {a b : Nat} (h : a ≤ b) (incoming : Option Rat) :
    laterCursor a incoming ≤ laterCursor b incoming := by
  rw [laterCursor_eq, laterCursor_eq]
  cases incoming.bind asCursor with
  | none => simpa using h
  | some n =>
    rw [Option.getD_some, Option.getD_some]
    omega

end

/-! ## The viewed cursor is covered -/

structure Guarded (p : Client × Seen) : Prop where
  known : ∀ sessionId, p.1.viewed sessionId ≤ p.1.head sessionId
  covered : ∀ sessionId, p.1.viewed sessionId ≤ p.2.covered sessionId

theorem covered_select (seen : Seen) (id sessionId : JsString) (head : Nat) :
    (sessionId = id → head ≤ (seen.select id head).covered sessionId) ∧
      (sessionId ≠ id → (seen.select id head).covered sessionId = seen.covered sessionId) := by
  constructor
  · intro heq
    subst heq
    simp [Seen.covered, Seen.select]
  · intro hother
    simp [Seen.covered, Seen.select, Function.update_of_ne hother]

theorem covered_steer (seen : Seen) (id sessionId : JsString) (head : Nat) :
    seen.covered sessionId ≤ (seen.steer id head).covered sessionId ∧
      (sessionId = id → head ≤ (seen.steer id head).covered sessionId) := by
  by_cases hthis : sessionId = id
  · subst hthis
    simp only [Seen.covered, Seen.steer, Function.update_self]
    omega
  · simp [Seen.covered, Seen.steer, hthis]

theorem covered_deliver (seen : Seen) (id sessionId : JsString) (lastEventId : Option Rat) :
    seen.covered sessionId ≤ (seen.deliver id lastEventId).covered sessionId ∧
      (sessionId = id →
        laterCursor (seen.covered sessionId) lastEventId ≤ (seen.deliver id lastEventId).covered sessionId) := by
  by_cases hthis : sessionId = id
  · subst hthis
    simp only [Seen.covered, Seen.deliver, Function.update_self, laterCursor_eq]
    cases lastEventId.bind asCursor with
    | none =>
      simp only [Option.getD_none]
      omega
    | some n =>
      simp only [Option.getD_some]
      omega
  · simp [Seen.covered, Seen.deliver, hthis]

theorem Guarded.still {p : Client × Seen} (h : Guarded p) {s : Client} (hs : s.cursors = p.1.cursors) :
    Guarded (s, p.2) := by
  refine ⟨fun sessionId => ?_, fun sessionId => ?_⟩
  · show s.viewed sessionId ≤ s.head sessionId
    rw [viewed_of_cursors hs, head_of_cursors hs]
    exact h.known sessionId
  · show s.viewed sessionId ≤ _
    rw [viewed_of_cursors hs]
    exact h.covered sessionId

theorem guarded_select {p : Client × Seen} (h : Guarded p) (id : JsString) :
    Guarded (watched step see p (.select id)) := by
  have hknown := h.known
  by_cases hsame : p.1.currentSessionId = some id
  · have hstay : watched step see p (.select id) = p := by simp [watched, step, see, selectSession, hsame]
    rwa [hstay]
  · have hseen : see p.1 (.select id) p.2 = p.2.select id (p.1.head id) := if_neg hsame
    refine ⟨fun sessionId => ?_, fun sessionId => ?_⟩
    · show (selectSession p.1 id).viewed sessionId ≤ (selectSession p.1 id).head sessionId
      have hold := hknown sessionId
      rw [viewed_select, head_select]
      split <;> omega
    · show (selectSession p.1 id).viewed sessionId ≤ (see p.1 (.select id) p.2).covered sessionId
      rw [viewed_select, hseen]
      obtain ⟨hthis, hother⟩ := covered_select p.2 id sessionId (p.1.head id)
      by_cases hid : sessionId = id
      · have hold := hknown sessionId
        have hnew := hthis hid
        rw [if_pos ⟨hid, hsame⟩]
        rw [hid] at hold ⊢
        rw [hid] at hnew
        omega
      · rw [if_neg fun h => hid h.1, hother hid]
        exact h.covered sessionId

theorem guarded_poll {p : Client × Seen} (h : Guarded p) {sessions : List SessionSummary}
    (htimely : Timely p (.poll sessions)) : Guarded (watched step see p (.poll sessions)) := by
  refine ⟨fun sessionId => ?_, fun sessionId => ?_⟩ <;>
    obtain ⟨hhead, hle, hwhy⟩ := viewed_loaded h.known sessions sessionId
  · show (loadSessions p.1 sessions).viewed sessionId ≤ (loadSessions p.1 sessions).head sessionId
    omega
  · show (loadSessions p.1 sessions).viewed sessionId ≤ (see p.1 (.poll sessions) p.2).covered sessionId
    have hold := h.covered sessionId
    by_cases hlooked : looked p.1 p.2.polled sessions = some sessionId
    · have hseen : see p.1 (.poll sessions) p.2 =
          { p.2 with polled := true }.select sessionId ((relisted p.1 sessions).head sessionId) := by
        simp only [see, hlooked]
      rw [hseen]
      exact hle.trans ((covered_select _ sessionId sessionId _).1 rfl)
    · -- Neither the poll's own selection nor, at the first poll, the current one.
      have hsame : p.2.covered sessionId ≤ (see p.1 (.poll sessions) p.2).covered sessionId := by
        unfold see
        dsimp only
        split
        · rename_i id hid
          have hne : sessionId ≠ id := by
            intro heq
            subst heq
            exact hlooked hid
          rw [(covered_select _ id sessionId _).2 hne]
          exact le_refl _
        · exact le_refl _
      rcases hwhy with hkept | hselected | ⟨hcurrent, hnone⟩
      · omega
      · refine absurd ?_ hlooked
        unfold looked
        split
        · rw [hselected]
        · rw [relisted_eq, hselected]
          exact current_select _ _
      · cases hpolled : p.2.polled with
        | false => exact absurd (by simpa [looked, hpolled] using hcurrent) hlooked
        | true =>
          have hzero := htimely hpolled sessionId hcurrent hnone
          omega

theorem guarded_message {p : Client × Seen} (h : Guarded p) (lastEventId : Option Rat) :
    Guarded (watched step see p (.message lastEventId)) := by
  cases hcurrent : p.1.currentSessionId with
  | none =>
    have hstay : watched step see p (.message lastEventId) = p := by simp [watched, step, see, onStream, hcurrent]
    rwa [hstay]
  | some id =>
    have hstep : watched step see p (.message lastEventId) =
        (recordViewedEvent p.1 id lastEventId, p.2.deliver id lastEventId) := by
      simp [watched, step, see, onStream, hcurrent]
    rw [hstep]
    refine ⟨fun sessionId => ?_, fun sessionId => ?_⟩
    · show (bumpCursor p.1.viewedCursors id lastEventId).of sessionId ≤
        (bumpCursor p.1.sessionCursors id lastEventId).of sessionId
      rw [of_bumpCursor, of_bumpCursor]
      split
      · exact laterCursor_mono (h.known id) lastEventId
      · exact h.known sessionId
    · show (bumpCursor p.1.viewedCursors id lastEventId).of sessionId ≤ (p.2.deliver id lastEventId).covered sessionId
      obtain ⟨hgrown, hthis⟩ := covered_deliver p.2 id sessionId lastEventId
      rw [of_bumpCursor]
      split
      · rename_i hid
        have hmono := laterCursor_mono (h.covered id) lastEventId
        subst hid
        exact hmono.trans (hthis rfl)
      · exact (h.covered sessionId).trans hgrown

/-- A settlement bumps the viewed session to its head, if the POST was to it and accepted. -/
theorem cursors_settle (s : Client) (number : Nat) (accepted : Bool) (sessionId : JsString) :
    (settlePost s number accepted).head sessionId = s.head sessionId ∧
      ((settlePost s number accepted).viewed sessionId = s.viewed sessionId ∨
        (accepted = true ∧ s.currentSessionId = some sessionId ∧
          (settlePost s number accepted).viewed sessionId = max (s.viewed sessionId) (s.head sessionId) ∧
          ∃ post, s.flight number = some post ∧ post.sessionId = sessionId)) := by
  unfold settlePost
  split
  · exact ⟨rfl, Or.inl rfl⟩
  · rename_i post hflight
    dsimp only
    have hcursors : ∀ s : Client, (if post.route = .drain then drainOn s else s).cursors = s.cursors := by
      intro s
      split
      · exact cursors_drain s
      · rfl
    rw [head_of_cursors (hcursors _), viewed_of_cursors (hcursors _)]
    unfold steerAnswered
    split
    · rename_i haccepted
      refine ⟨rfl, ?_⟩
      by_cases hthis : sessionId = post.sessionId
      · refine Or.inr ⟨haccepted.1, hthis ▸ haccepted.2, ?_, post, hflight, hthis.symm⟩
        show (bumpCursor s.viewedCursors post.sessionId (some (s.head post.sessionId))).of sessionId = _
        rw [bumpCursor_nat, if_pos hthis, hthis]
        rfl
      · refine Or.inl ?_
        show (bumpCursor s.viewedCursors post.sessionId (some (s.head post.sessionId))).of sessionId = _
        rw [bumpCursor_nat, if_neg hthis]
        rfl
    · exact ⟨rfl, Or.inl rfl⟩

theorem guarded_settled {p : Client × Seen} (h : Guarded p) {number : Nat} {accepted : Bool}
    (htimely : Timely p (.settled number accepted)) : Guarded (watched step see p (.settled number accepted)) := by
  have hgrown : ∀ sessionId, p.2.covered sessionId ≤ (see p.1 (.settled number accepted) p.2).covered sessionId := by
    intro sessionId
    cases accepted with
    | false => exact le_refl _
    | true =>
      unfold see
      dsimp only
      split
      · exact (covered_steer p.2 _ sessionId _).1
      · exact le_refl _
  refine ⟨fun sessionId => ?_, fun sessionId => ?_⟩ <;>
    obtain ⟨hhead, hviewed⟩ := cursors_settle p.1 number accepted sessionId
  · show (settlePost p.1 number accepted).viewed sessionId ≤ (settlePost p.1 number accepted).head sessionId
    have hold := h.known sessionId
    rcases hviewed with hsame | ⟨-, -, hbumped, -⟩ <;> omega
  · show (settlePost p.1 number accepted).viewed sessionId ≤ (see p.1 (.settled number accepted) p.2).covered sessionId
    have hold := h.covered sessionId
    have hcovered := hgrown sessionId
    rcases hviewed with hsame | ⟨haccepted, hcurrent, hbumped, post, hflight, hpost⟩
    · omega
    · subst haccepted hpost
      have hseen : see p.1 (.settled number true) p.2 = p.2.steer post.sessionId post.submission.head := by
        simp only [see, hflight]
      have hsteered := (covered_steer p.2 post.sessionId post.sessionId post.submission.head).2 rfl
      rw [← hseen] at hsteered
      rcases htimely post hflight hcurrent with hviewed | hsubmitted <;> omega

theorem guarded_step {p : Client × Seen} {e : Event} (h : Guarded p) (htimely : Timely p e) :
    Guarded (watched step see p e) := by
  cases e with
  | select id => exact guarded_select h id
  | poll sessions => exact guarded_poll h htimely
  | pollFailed => exact h.still rfl
  | streamOpen => exact h.still (by simp only [step, onStream]; split <;> rfl)
  | streamError => exact h.still (by simp only [step, onStream]; split <;> rfl)
  | message lastEventId => exact guarded_message h lastEventId
  | steer command => exact h.still (cursors_steer p.1 command)
  | cancel id => exact h.still rfl
  | sendAnyway id => exact h.still (cursors_sendAnyway p.1 id)
  | settled number accepted => exact guarded_settled h htimely

theorem guarded_reach {p : Client × Seen} (h : Reach (watched step see) (· = (.new, .nothing)) Timely p) :
    Guarded p := by
  refine h.inv (fun p hp => ?_) fun p e hp htimely => guarded_step hp htimely
  rw [hp]
  exact ⟨fun _ => le_refl _, fun _ => Nat.zero_le _⟩

/-- A steer goes out at once only if its session reads as not moved on. -/
theorem direct_fresh {s : Client} {command : Option Json} {post : Post}
    (h : (steer s command).posted = s.posted ++ [post]) : s.head post.sessionId ≤ s.viewed post.sessionId := by
  have hnone : s.posted ≠ s.posted ++ [post] := fun heq => by simpa using congrArg List.length heq
  unfold steer at h
  split at h
  · rename_i command sessionId _
    dsimp only at h
    split at h
    · unfold enqueueSteer at h
      split at h <;> exact absurd h hnone
    · split at h
      · unfold holdStaleSteer at h
        split at h <;> exact absurd h hnone
      · rename_i hfresh
        have hpost := List.append_cancel_left h
        obtain rfl := List.head_eq_of_cons_eq hpost
        exact Nat.le_of_not_lt fun hlt => hfresh (decide_eq_true hlt)
  · exact absurd h hnone

/-! ## A listed session's cursors grow -/

def Listed (s : Client) (sessionId : JsString) : Prop := sessionId ∈ s.renderedSessions.map SessionSummary.id

/-- The session is listed before the event and after it. -/
def StaysListed (sessionId : JsString) (s : Client) (e : Event) : Prop :=
  Listed s sessionId ∧ Listed (step s e) sessionId

theorem rendered_load (s : Client) (sessions : List SessionSummary) :
    (loadSessions s sessions).renderedSessions = sessions := by
  have hfire : ∀ s : Client, (fireSteerQueue s).renderedSessions = s.renderedSessions := by
    intro s
    unfold fireSteerQueue
    split
    · rfl
    · dsimp only
      split <;> rfl
  have hinit : ∀ s : Client, (initViewed s).renderedSessions = s.renderedSessions := by
    intro s
    unfold initViewed
    split
    · rfl
    · split <;> rfl
  have hselect : ∀ (s : Client) selection, (applySelection s selection).renderedSessions = s.renderedSessions := by
    intro s selection
    cases selection with
    | select id =>
      show (selectSession s id).renderedSessions = s.renderedSessions
      unfold selectSession
      split <;> rfl
    | clear => rfl
    | keep => rfl
  have happly : ∀ s : Client, (applySessionList s sessions).renderedSessions = sessions := by
    intro s
    unfold applySessionList
    split
    · rename_i hempty
      exact hempty.symm
    · rfl
  unfold loadSessions
  dsimp only
  split
  · rw [hfire, hinit, relisted, hselect, happly]
  · rw [hinit, relisted, hselect, happly]

theorem grow_poll {s : Client} {sessions : List SessionSummary} {sessionId : JsString}
    (h : StaysListed sessionId s (.poll sessions)) :
    s.head sessionId ≤ (loadSessions s sessions).head sessionId ∧
      s.viewed sessionId ≤ (loadSessions s sessions).viewed sessionId := by
  have hlisted : sessionId ∈ sessions.map SessionSummary.id := by
    have hafter : Listed (loadSessions s sessions) sessionId := h.2
    rwa [Listed, rendered_load] at hafter
  have hcursors := cursors_load s sessions
  have hinit : (relisted s sessions).viewed sessionId ≤ (initViewed (relisted s sessions)).viewed sessionId := by
    rcases viewed_init (relisted s sessions) sessionId with hsame | ⟨-, hnone, -⟩
    · omega
    · rw [Client.viewed, of_not_has hnone]
      exact Nat.zero_le _
  have happly : s.head sessionId ≤ (applySessionList { s with pollState := .ok } sessions).head sessionId ∧
      (applySessionList { s with pollState := .ok } sessions).viewed sessionId = s.viewed sessionId := by
    rcases cursors_listed { s with pollState := .ok } sessionId sessions with ⟨-, -, hgone⟩ | hkept
    · rcases hgone with rfl | hremoved
      · cases hlisted
      · exact absurd hlisted (by simpa using (List.mem_filter.mp hremoved).2)
    · exact hkept
  have hselect : ∀ (s : Client) selection, (applySelection s selection).head sessionId = s.head sessionId ∧
      s.viewed sessionId ≤ (applySelection s selection).viewed sessionId := by
    intro s selection
    cases selection with
    | select id =>
      refine ⟨head_select s sessionId id, ?_⟩
      show _ ≤ (selectSession s id).viewed sessionId
      rw [viewed_select]
      split <;> omega
    | clear => exact ⟨rfl, le_refl _⟩
    | keep => exact ⟨rfl, le_refl _⟩
  obtain ⟨hhead, hviewed⟩ := hselect (applySessionList { s with pollState := .ok } sessions)
    (nextSelection s.currentSessionId sessions)
  rw [← relisted_eq] at hhead hviewed
  rw [head_of_cursors hcursors, viewed_of_cursors hcursors, head_init]
  omega

theorem cursors_grow {s : Client} {e : Event} {sessionId : JsString} (h : StaysListed sessionId s e) :
    s.head sessionId ≤ (step s e).head sessionId ∧ s.viewed sessionId ≤ (step s e).viewed sessionId := by
  have hstill : ∀ s' : Client, s'.cursors = s.cursors →
      s.head sessionId ≤ s'.head sessionId ∧ s.viewed sessionId ≤ s'.viewed sessionId := by
    intro s' hs
    rw [head_of_cursors hs, viewed_of_cursors hs]
    exact ⟨le_refl _, le_refl _⟩
  cases e with
  | select id =>
    show _ ≤ (selectSession s id).head sessionId ∧ _ ≤ (selectSession s id).viewed sessionId
    rw [head_select, viewed_select]
    refine ⟨le_refl _, ?_⟩
    split <;> omega
  | poll sessions => exact grow_poll h
  | pollFailed => exact hstill _ rfl
  | streamOpen => exact hstill _ (by simp only [step, onStream]; split <;> rfl)
  | streamError => exact hstill _ (by simp only [step, onStream]; split <;> rfl)
  | message lastEventId =>
    show _ ≤ (onStream s _).head sessionId ∧ _ ≤ (onStream s _).viewed sessionId
    unfold onStream
    split
    · exact hstill _ rfl
    · exact ⟨le_bumpCursor s.sessionCursors _ sessionId lastEventId,
        le_bumpCursor s.viewedCursors _ sessionId lastEventId⟩
  | steer command => exact hstill _ (cursors_steer s command)
  | cancel id => exact hstill _ rfl
  | sendAnyway id => exact hstill _ (cursors_sendAnyway s id)
  | settled number accepted =>
    obtain ⟨hhead, hviewed⟩ := cursors_settle s number accepted sessionId
    show _ ≤ (settlePost s number accepted).head sessionId ∧ _ ≤ (settlePost s number accepted).viewed sessionId
    rcases hviewed with hsame | ⟨-, -, hbumped, -⟩ <;> omega

/-- In a timely run the viewed cursor is covered, and with it all that is known of a session when
    a steer to it goes out at once. In any run a listed session's cursors do not decrease. -/
theorem viewed_covered (sessionId : JsString) :
    (∀ p, Reach (watched step see) (· = (.new, .nothing)) Timely p →
      p.1.viewed sessionId ≤ p.2.covered sessionId ∧
      ∀ command post, (step p.1 (.steer command)).posted = p.1.posted ++ [post] →
        p.1.head post.sessionId ≤ p.2.covered post.sessionId) ∧
    (∀ s events, allowed step (StaysListed sessionId) s events →
      s.head sessionId ≤ (runFrom step s events).head sessionId ∧
      s.viewed sessionId ≤ (runFrom step s events).viewed sessionId) := by
  constructor
  · intro p h
    have hguarded := guarded_reach h
    refine ⟨hguarded.covered sessionId, fun command post hpost => ?_⟩
    exact (direct_fresh hpost).trans (hguarded.covered post.sessionId)
  · intro s events hlisted
    induction events generalizing s with
    | nil => exact ⟨le_refl _, le_refl _⟩
    | cons e events ih =>
      obtain ⟨hhead, hviewed⟩ := cursors_grow hlisted.1
      obtain ⟨hheads, hvieweds⟩ := ih (step s e) hlisted.2
      exact ⟨hhead.trans hheads, hviewed.trans hvieweds⟩

/-- A steer is accepted and a message delivered. -/
def keptUp : List Event :=
  [.poll [rowAt (js "a") 5], .steer (some approval), .settled 0 true, .streamOpen, .message (some 6),
    .poll [rowAt (js "a") 6]]

theorem viewed_covered_keptUp :
    let p := runFrom (watched step see) (.new, .nothing) keptUp
    p.1.viewed (js "a") ≤ p.2.covered (js "a") ∧ p.1.viewed (js "a") = 6 ∧ p.1.head (js "a") = 6 := by
  have htimely : allowed (watched step see) Timely (.new, .nothing) keptUp := by decide
  have hnew : Reach (watched step see) (· = (.new, .nothing)) Timely (.new, .nothing) := .start rfl
  exact ⟨((viewed_covered (js "a")).1 _ (hnew.run_allowed htimely)).1, by decide⟩

/-- Messages 6 to 9 come while a steer is out. -/
def outran : List Event := [.poll [rowAt (js "a") 5], .steer (some approval), .poll [rowAt (js "a") 9], .settled 0 true]

/-- A session without messages is selected, and four come before the next poll. -/
def emptyThenFour : List Event :=
  [.poll [rowAt (js "a") 0, rowAt (js "b") 0], .select (js "b"), .poll [rowAt (js "a") 0, rowAt (js "b") 4]]

/-- In both, the next steer goes out at once with messages known that nobody looked at. -/
theorem viewed_uncovered :
    let late := runFrom (watched step see) (.new, .nothing) outran
    let cold := runFrom (watched step see) (.new, .nothing) emptyThenFour
    (late.2.covered (js "a") = 5 ∧ late.1.viewed (js "a") = 9 ∧
      (step late.1 (.steer (some approval))).posted.length = late.1.posted.length + 1) ∧
    (cold.2.covered (js "b") = 0 ∧ cold.1.viewed (js "b") = 4 ∧
      (step cold.1 (.steer (some approval))).posted.length = cold.1.posted.length + 1) := by
  decide

end Ccctl.WebUi
