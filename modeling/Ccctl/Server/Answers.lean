import Ccctl.Server.SessionWatch
/-
  Ccctl.Server.Answers — what question an answer is matched with.

  The question a session holds and the activity of its row are two tables, written by different
  frames: a question frame is stored whatever the activity, in whatever order it comes, and a
  registration leaves it where it is. Two histories of one session say when that is harmless.

  `Asking` is the present block of `requires_action` under the present epoch, with the numbers of
  the report that opened it and of the last that re-affirmed it. In a run whose frames come
  `InOrder`, an accepted answer is to a question of that block (`answer_fresh`). `Answered` is
  the list of the answers relayed. In a run where no frame stores a question already answered,
  none is answered twice (`answered_once`).
-/

namespace Ccctl.Server

open Ccctl.Core Ccctl.Lib

/-! ## What an act does to the question and the channel -/

/-- The question an act stores. -/
def Chan.stores (c : Chan) : Act → Option RequiresActionEnrichment
  | .asked q => some q
  | .report r =>
    match c.row, c.link with
    | some row, some link =>
      if r.refused link then none else handoff row.activity (r.row row).activity r.capture
    | _, _ => none
  | _ => none

/-- A question held afterwards was stored by the act or held before. -/
theorem Chan.question_from {c : Chan} {act : Act} {q : RequiresActionEnrichment} (h : (c.step act).question = some q) :
    c.stores act = some q ∨ c.stores act = none ∧ c.question = some q := by
  cases act with
  | asked q' => exact Or.inl h
  | ended | answered _ => cases h
  | report r =>
    simp only [Chan.step, Chan.stores] at h ⊢
    cases hrow : c.row with
    | none =>
      simp only [hrow] at h ⊢
      exact Or.inr ⟨trivial, h⟩
    | some row =>
      cases hlink : c.link with
      | none =>
        simp only [hrow, hlink] at h ⊢
        exact Or.inr ⟨trivial, h⟩
      | some link =>
        simp only [hrow, hlink] at h ⊢
        by_cases href : r.refused link = true
        · rw [if_pos href] at h ⊢
          exact Or.inr ⟨rfl, h⟩
        · rw [if_neg href] at h ⊢
          simp only [Chan.reported, Report.question] at h
          cases hs : handoff row.activity (r.row row).activity r.capture with
          | some stored =>
            rw [hs, Option.some_or] at h
            exact Or.inl h
          | none =>
            rw [hs, Option.none_or] at h
            split at h
            · exact Or.inr ⟨rfl, h⟩
            · cases h
  | _ => exact Or.inr ⟨rfl, h⟩

/-- An answer that is accepted is the act of answering the question held. -/
theorem accepted_answer {s : ServerState} (h : TimersOk s) {id : SessionId} {body : Option Json} {command : UiCommand}
    {n : Nat} (hparse : parseUiCommand body = some command) (hanswer : command.subtype = ANSWER_SUBTYPE)
    (hreply : reply s (.uiCommand id body) = .accepted n) :
    observe s (.uiCommand id body) id = .answered command.echoed ∧
      ∃ q, s.requiresActionEnrichments.get id = some q ∧ command.echoed = some q.sequenceNum := by
  have hact : observe s (.uiCommand id body) id = .answered command.echoed := by
    have haccepted : (handleUiCommand s id body).2 = .accepted n := hreply
    simp only [observe, if_true, observeCommand, hparse, haccepted, hanswer]
  have he := observe_enabled h (.uiCommand id body) id
  rw [hact] at he
  exact ⟨hact, he⟩

/-! ## The block a question belongs to -/

/-- A block of `requires_action` under one epoch. -/
structure Block where
  /-- The number of the report that opened it. -/
  opened : Option Nat
  /-- The number of the last report that affirmed it. -/
  last : Option Nat
  /-- Whether a question was stored since it opened. -/
  asked : Bool
  deriving DecidableEq, Repr

def Block.numbered (b : Block) (n : Nat) : Prop := b.opened = some n ∨ b.last = some n

instance (b : Block) (n : Nat) : Decidable (b.numbered n) := by
  unfold Block.numbered
  infer_instance

structure Asking where
  /-- The present block of the present epoch. -/
  block : Option Block
  /-- The greatest number of a question stored under the present epoch. -/
  newest : Option Nat
  deriving DecidableEq, Repr

namespace Asking

def blank : Asking := ⟨none, none⟩

def affirmed (g : Asking) (sequence : Option Nat) : Asking :=
  { g with block := some (match g.block with
      | none => ⟨sequence, sequence, false⟩
      | some b => { b with last := sequence }) }

def stored (g : Asking) : Option RequiresActionEnrichment → Asking
  | none => g
  | some q =>
    { block := g.block.map fun b => { b with asked := true }
      newest := some (max (g.newest.getD 0) q.sequenceNum) }

def see (c : Chan) (act : Act) (_ : Chan) (g : Asking) : Asking :=
  match act with
  | .ended | .registered => blank
  | .report r =>
    match c.row, c.link with
    | some _, some link =>
      if r.refused link then g
      else if r.status = .requiresAction then (g.affirmed r.sequence).stored (c.stores act)
      else { g with block := none }
    | _, _ => g
  | _ => g.stored (c.stores act)

/-- A question comes inside a block, under a number of that block and not below one already stored; a
    report that re-affirms a block finds no question but one numbered as the block's opening or as itself; a
    registration finds no question. -/
def InOrder (c : Chan) (act : Act) (g : Asking) : Prop :=
  match act with
  | .asked q => (∃ b ∈ g.block, b.numbered q.sequenceNum) ∧ ∀ n ∈ g.newest, n ≤ q.sequenceNum
  | .report r =>
    r.status = .requiresAction → ∀ link ∈ c.link, r.refused link = false → ∀ b ∈ g.block, ∀ q ∈ c.question,
      b.opened = some q.sequenceNum ∨ r.sequence = some q.sequenceNum
  | .registered => c.question = none
  | _ => True

instance (c : Chan) (act : Act) (g : Asking) : Decidable (InOrder c act g) := by
  unfold InOrder
  split <;> infer_instance

/-- The mark of the channel is at or past `n`. -/
def Reported (c : Chan) (n : Nat) : Prop := ∃ link h, c.link = some link ∧ link.highest = some h ∧ n ≤ h

/-- The question held belongs to the present block, and none stored under the epoch is newer. -/
structure Inv (c : Chan) (g : Asking) : Prop where
  held : ∀ q, c.question = some q →
    ∃ b, g.block = some b ∧ b.asked = true ∧ b.numbered q.sequenceNum ∧ g.newest = some q.sequenceNum
  inside : g.block ≠ none → c.link ≠ none ∧ ∃ row, c.row = some row ∧ isInputAwaited row.activity = true
  below : ∀ n, g.newest = some n → Reported c n
  marks : ∀ b n, g.block = some b → b.numbered n → Reported c n

theorem Reported.step {c : Chan} {act : Act} {n : Nat} (h : Reported c n) (hreg : act ≠ .registered)
    (hend : act ≠ .ended) : Reported (c.step act) n := by
  obtain ⟨link, m, hlink, hm, hle⟩ := h
  cases hl : (c.step act).link with
  | none =>
    have hnone := Chan.step_linked hend hl
    rw [hlink] at hnone
    cases hnone
  | some link' =>
    obtain ⟨link₀, hlink₀, -, hmark⟩ := Chan.step_link hreg hl
    rw [hlink, Option.some.injEq] at hlink₀
    subst hlink₀
    obtain ⟨m', hm', hle'⟩ := hmark m hm
    exact ⟨link', m', hl, hm', hle.trans hle'⟩

theorem Inv.blank {c : Chan} (h : c.question = none) : Inv c blank where
  held q hq := by
    rw [h] at hq
    cases hq
  inside hb := absurd rfl hb
  below n hn := by cases hn
  marks b n hb := by cases hb

/-- Acts that store nothing and keep the row's activity. -/
theorem Inv.quiet {c : Chan} {act : Act} {g : Asking} (h : Inv c g) (hkeeps : act.keeps = true)
    (hq : c.stores act = none) : Inv (c.step act) g := by
  have hreg : act ≠ .registered := by
    intro heq
    subst heq
    cases hkeeps
  have hend : act ≠ .ended := by
    intro heq
    subst heq
    cases hkeeps
  refine ⟨fun q hheld => ?_, fun hb => ?_, fun n hn => (h.below n hn).step hreg hend,
    fun b n hb hn => (h.marks b n hb hn).step hreg hend⟩
  · rcases Chan.question_from hheld with hs | ⟨-, hkept⟩
    · rw [hq] at hs
      cases hs
    · exact h.held q hkept
  · obtain ⟨hl, row, hr, hw⟩ := h.inside hb
    obtain ⟨row', hr', hact⟩ := Chan.kept_row hkeeps hr
    exact ⟨fun hnone => hl (Chan.step_linked hend hnone), row', hr', by rwa [hact]⟩

/-- Without a channel there is no block, whatever becomes of the row. -/
theorem Inv.unlinked {c c' : Chan} {g : Asking} (h : Inv c g) (hl : c.link = none) (hq : c'.question = c.question) :
    Inv c' g := by
  have hblock : g.block = none := by
    by_contra hb
    exact (h.inside hb).1 hl
  have hnewest : g.newest = none := by
    cases hn : g.newest with
    | none => rfl
    | some n =>
      obtain ⟨link, _, hlink, -⟩ := h.below n hn
      rw [hl] at hlink
      cases hlink
  refine ⟨?_, fun hb => absurd hblock hb, ?_, ?_⟩
  · intro q hheld
    rw [hq] at hheld
    exact h.held q hheld |>.elim fun b hb => by rw [hblock] at hb; cases hb.1
  · intro n hn
    rw [hnewest] at hn
    cases hn
  · intro b n hb
    rw [hblock] at hb
    cases hb

theorem Inv.asked {c : Chan} {q : RequiresActionEnrichment} {g : Asking} (h : Inv c g) (hok : InOrder c (.asked q) g) :
    Inv (c.step (.asked q)) (g.stored (some q)) := by
  obtain ⟨⟨b, hb, hnum⟩, hnew⟩ := hok
  obtain hb : g.block = some b := hb
  have hmax : max (g.newest.getD 0) q.sequenceNum = q.sequenceNum := by
    cases hg : g.newest with
    | none => exact Nat.zero_max _
    | some n => exact Nat.max_eq_right (hnew n hg)
  have hblock : (g.stored (some q)).block = some { b with asked := true } := by simp [stored, hb]
  have hnewest : (g.stored (some q)).newest = some q.sequenceNum := by simp only [stored, hmax]
  refine ⟨?_, fun _ => h.inside (by simp [hb]), ?_, ?_⟩
  · intro q' hq'
    cases hq'
    exact ⟨_, hblock, rfl, hnum, hnewest⟩
  · intro n hn
    rw [hnewest, Option.some.injEq] at hn
    subst hn
    exact h.marks b _ hb hnum
  · intro b' n hb' hn
    rw [hblock, Option.some.injEq] at hb'
    subst hb'
    exact h.marks b n hb hn

/-- A report that is let through to a session with no open block, and leaves it in `requires_action`. -/
theorem Inv.opened {c : Chan} {r : Report} {g : Asking} {row : Session} {link : Link} (h : Inv c g)
    (hseq : ∀ q, r.capture = some q → r.sequence = some q.sequenceNum) (hrow : c.row = some row)
    (hlink : c.link = some link) (href : r.refused link = false) (hra : r.status = .requiresAction)
    (hblock : g.block = none) :
    Inv (c.step (.report r)) ((g.affirmed r.sequence).stored (c.stores (.report r))) := by
  have hstep := Chan.step_reported hrow hlink href
  have hrow' : (c.step (.report r)).row = some (r.row row) := by rw [hstep]; rfl
  have hawait : isInputAwaited (r.row row).activity = true := by simp [Report.row, applyWorkerStatus_awaited, hra]
  have hlinked : (c.step (.report r)).link ≠ none := by rw [hstep]; exact Option.some_ne_none _
  have hmark : ∀ n, r.sequence = some n → Reported (c.step (.report r)) n := by
    intro n hn
    rw [hstep]
    exact ⟨_, n, rfl, (advanced_fresh href hn).1, Nat.le_refl n⟩
  have hnone : c.question = none := by
    cases hq : c.question with
    | none => rfl
    | some q =>
      obtain ⟨b, hb, -⟩ := h.held q hq
      rw [hblock] at hb
      cases hb
  have hheld : ∀ q, (c.step (.report r)).question = some q → c.stores (.report r) = some q := by
    intro q hq
    rcases Chan.question_from hq with hs | ⟨-, hkept⟩
    · exact hs
    · rw [hnone] at hkept
      cases hkept
  have haffirmed : (g.affirmed r.sequence).block = some ⟨r.sequence, r.sequence, false⟩ := by simp [affirmed, hblock]
  cases hs : c.stores (.report r) with
  | none =>
    refine ⟨?_, fun _ => ⟨hlinked, _, hrow', hawait⟩, ?_, ?_⟩
    · intro q hq
      have hstored := hheld q hq
      rw [hs] at hstored
      cases hstored
    · intro n hn
      exact (h.below n hn).step (by simp) (by simp)
    · intro b n hb hn
      rw [stored, haffirmed, Option.some.injEq] at hb
      subst hb
      exact hmark n (hn.elim id id)
  | some q =>
    have hcapture : r.sequence = some q.sequenceNum := by
      refine hseq q ?_
      simp only [Chan.stores, hrow, hlink, href, Bool.false_eq_true, if_false, handoff] at hs
      split at hs
      · cases hs
      · exact hs
    have hmax : max (g.newest.getD 0) q.sequenceNum = q.sequenceNum := by
      cases hg : g.newest with
      | none => exact Nat.zero_max _
      | some n =>
        obtain ⟨link', m, hl', hm, hle⟩ := h.below n hg
        rw [hlink, Option.some.injEq] at hl'
        subst hl'
        exact Nat.max_eq_right (hle.trans ((advanced_fresh href hcapture).2 m hm))
    have hblock' : ((g.affirmed r.sequence).stored (some q)).block = some ⟨r.sequence, r.sequence, true⟩ := by
      simp [stored, haffirmed]
    have hnewest' : ((g.affirmed r.sequence).stored (some q)).newest = some q.sequenceNum := by
      simp only [stored, affirmed, hmax]
    refine ⟨?_, fun _ => ⟨hlinked, _, hrow', hawait⟩, ?_, ?_⟩
    · intro q' hq'
      have hstored := hheld q' hq'
      rw [hs, Option.some.injEq] at hstored
      subst hstored
      exact ⟨_, hblock', rfl, Or.inl hcapture, hnewest'⟩
    · intro n hn
      rw [hnewest', Option.some.injEq] at hn
      subst hn
      exact hmark _ hcapture
    · intro b n hb hn
      rw [hblock', Option.some.injEq] at hb
      subst hb
      exact hmark n (hn.elim id id)

/-- A report that is let through inside an open block and re-affirms it. -/
theorem Inv.reaffirmed {c : Chan} {r : Report} {g : Asking} {row : Session} {link : Link} {b : Block} (h : Inv c g)
    (hok : InOrder c (.report r) g) (hrow : c.row = some row) (hlink : c.link = some link)
    (href : r.refused link = false) (hra : r.status = .requiresAction) (hblock : g.block = some b) :
    Inv (c.step (.report r)) ((g.affirmed r.sequence).stored (c.stores (.report r))) := by
  have hstep := Chan.step_reported hrow hlink href
  have hrow' : (c.step (.report r)).row = some (r.row row) := by rw [hstep]; rfl
  have hawait : isInputAwaited (r.row row).activity = true := by simp [Report.row, applyWorkerStatus_awaited, hra]
  have hlinked : (c.step (.report r)).link ≠ none := by rw [hstep]; exact Option.some_ne_none _
  have hs : c.stores (.report r) = none := by
    obtain ⟨-, row₀, hr₀, hw₀⟩ := h.inside (by simp [hblock])
    rw [hrow, Option.some.injEq] at hr₀
    subst hr₀
    simp [Chan.stores, hrow, hlink, href, handoff, hw₀]
  have haffirmed : (g.affirmed r.sequence).block = some { b with last := r.sequence } := by simp [affirmed, hblock]
  rw [hs]
  refine ⟨?_, fun _ => ⟨hlinked, _, hrow', hawait⟩, ?_, ?_⟩
  · intro q hq
    rcases Chan.question_from hq with hstored | ⟨-, hkept⟩
    · rw [hs] at hstored
      cases hstored
    · obtain ⟨b₀, hb₀, hasked, -, hnew⟩ := h.held q hkept
      rw [hblock, Option.some.injEq] at hb₀
      subst hb₀
      exact ⟨_, haffirmed, hasked, hok hra link hlink href b hblock q hkept, hnew⟩
  · intro n hn
    exact (h.below n hn).step (by simp) (by simp)
  · intro b' n hb' hn
    rw [stored, haffirmed, Option.some.injEq] at hb'
    subst hb'
    rcases hn with hopened | hlast
    · exact (h.marks b n hblock (Or.inl hopened)).step (by simp) (by simp)
    · rw [hstep]
      exact ⟨_, n, rfl, (advanced_fresh href hlast).1, Nat.le_refl n⟩

/-- A report of another status: the block is over and its question dropped. -/
theorem Inv.over {c : Chan} {r : Report} {g : Asking} {row : Session} {link : Link} (h : Inv c g)
    (hrow : c.row = some row) (hlink : c.link = some link) (href : r.refused link = false)
    (hra : r.status ≠ .requiresAction) : Inv (c.step (.report r)) { g with block := none } := by
  have hquestion : (c.step (.report r)).question = none := by
    rw [Chan.step_reported hrow hlink href]
    simp [Chan.reported, Report.question, Report.row, handoff, applyWorkerStatus_awaited, hra]
  refine ⟨?_, fun hne => absurd rfl hne, ?_, ?_⟩
  · intro q hq
    rw [hquestion] at hq
    cases hq
  · intro n hn
    exact (h.below n hn).step (by simp) (by simp)
  · intro b n hb
    cases hb

theorem Inv.step {c : Chan} {act : Act} {g : Asking} (h : Inv c g) (hok : InOrder c act g) (he : act.Enabled c)
    (hb : act.births = true → c = .blank) (hc : c.Ok true) : Inv (c.step act) (see c act (c.step act) g) := by
  cases act with
  | created row => exact h.unlinked (by rw [hb rfl]; rfl) rfl
  | placed row => exact h.unlinked (by rw [hb rfl]; rfl) rfl
  | claimed row => exact h.unlinked (hc.no_link he.1) rfl
  | dropped => exact h.unlinked (hc.no_link he) rfl
  | ended => exact .blank rfl
  | registered => exact .blank hok
  | asked q => exact h.asked hok
  | other | streamOpened | streamClosed | beat _ | answered _ | steered | idleFired _ _ _ | halted =>
    exact h.quiet rfl rfl
  | report r =>
    cases hlink : c.link with
    | none => exact absurd hlink he.1
    | some link =>
      obtain ⟨row, hrow, -⟩ := hc.linked (by simp [hlink])
      by_cases href : r.refused link = true
      · have hsee : see c (.report r) (c.step (.report r)) g = g := by simp [see, hrow, hlink, href]
        rw [hsee, Chan.step_refused hlink href]
        exact h
      · rw [Bool.not_eq_true] at href
        by_cases hra : r.status = .requiresAction
        · have hsee : see c (.report r) (c.step (.report r)) g =
              (g.affirmed r.sequence).stored (c.stores (.report r)) := by simp [see, hrow, hlink, href, hra]
          rw [hsee]
          cases hblock : g.block with
          | none => exact h.opened he.2 hrow hlink href hra hblock
          | some b => exact h.reaffirmed hok hrow hlink href hra hblock
        · have hsee : see c (.report r) (c.step (.report r)) g = { g with block := none } := by
            simp [see, hrow, hlink, href, hra]
          rw [hsee]
          exact h.over hrow hlink href hra

theorem blank_quiet {act : Act} (he : act.Enabled .blank) : see .blank act .blank blank = blank := by
  cases act with
  | asked q => exact absurd rfl he
  | report r => rfl
  | _ => rfl

end Asking

/-- The server watched for the blocks of `id`, its frames in order. -/
abbrev AskRun (id : SessionId) : ServerState × Asking → Prop :=
  SessionRun id Asking.see Asking.blank fun p e => Asking.InOrder (chan p.1 id) (observe p.1 e id) p.2

/-- An accepted answer finds the session in `requires_action`, and echoes the number of a report of the
    present block of the present epoch: that of the question held, which was stored in that block, and no
    question stored under the epoch is newer. -/
theorem answer_fresh {id : SessionId} {p : ServerState × Asking} (h : AskRun id p) {body : Option Json}
    {command : UiCommand} {n : Nat} (hparse : parseUiCommand body = some command)
    (hanswer : command.subtype = ANSWER_SUBTYPE) (hreply : reply p.1 (.uiCommand id body) = .accepted n) :
    (∃ row, p.1.sessions.get id = some row ∧ isInputAwaited row.activity = true) ∧
      ∃ q b, p.1.requiresActionEnrichments.get id = some q ∧ command.echoed = some q.sequenceNum ∧
        p.2.block = some b ∧ (b.opened = command.echoed ∨ b.last = command.echoed) ∧ b.asked = true ∧
        p.2.newest = command.echoed := by
  have hinv : Asking.Inv (chan p.1 id) p.2 := by
    refine h.inv (I := Asking.Inv) (fun act he _ => Asking.blank_quiet he) (fun c hc => .blank hc.2.2.1)
      fun q e hok hborn he hc hi => hi.step hok he (fun hb => (hborn hb).1) hc
  obtain ⟨-, q, hq, hecho⟩ := accepted_answer h.reachable.grounded.timers hparse hanswer hreply
  obtain ⟨b, hb, hasked, hnum, hnew⟩ := hinv.held q hq
  obtain ⟨-, row, hrow, hwait⟩ := hinv.inside (by simp [hb])
  rw [hecho]
  exact ⟨⟨row, hrow, hwait⟩, q, b, hq, rfl, hb, hnum, hasked, hnew⟩

/-- A connected worker blocks and asks. -/
def askedInOrder : List Event :=
  [.sessionCreate none (js "/w") .default, .workerRegister 0, .workerEventsStream 0,
    .workerStatus 0 (statusBody 1 "requires_action" 5), .workerEvent 0 (some (.num 1)) (questionEntry 5)]

theorem answer_fresh_asked :
    let p := runFrom (watched step (sessionWatch 0 Asking.see)) (freshServer, Asking.blank) askedInOrder
    reply p.1 (.uiCommand 0 (some (answerBody 5))) = .accepted 4 ∧
      (∃ row, p.1.sessions.get 0 = some row ∧ isInputAwaited row.activity = true) ∧
      ∃ q b, p.1.requiresActionEnrichments.get 0 = some q ∧ some 5 = some q.sequenceNum ∧ p.2.block = some b ∧
        (b.opened = some 5 ∨ b.last = some 5) ∧ b.asked = true ∧ p.2.newest = some 5 :=
  ⟨by decide, answer_fresh ((Reach.start ⟨freshServer_booted, rfl⟩).run_allowed (by decide))
    (show parseUiCommand (some (answerBody 5)) = some ⟨ANSWER_SUBTYPE, _⟩ from rfl) rfl
    (n := 4) (by decide)⟩

/-- A question that comes while the session is idle is stored, and an answer to it relayed. -/
theorem answer_phantom :
    let s := runFrom step freshServer
      [.sessionCreate none (js "/w") .default, .workerRegister 0, .workerEventsStream 0,
        .workerEvent 0 (some (.num 1)) (questionEntry 5)]
    (s.sessions.get 0).map (·.activity) = some .idle ∧
      reply s (.uiCommand 0 (some (answerBody 5))) = .accepted 4 := by
  decide

/-! ## The answers relayed -/

namespace Answered

/-- The epoch and the number of each answer relayed, oldest first. -/
def see (c : Chan) (act : Act) (_ : Chan) (answered : List (Nat × Nat)) : List (Nat × Nat) :=
  match act, c.link with
  | .answered (some n), some link => answered ++ [(link.epoch, n)]
  | _, _ => answered

/-- No question is stored under a number already answered in the epoch. -/
def Unanswered (c : Chan) (act : Act) (answered : List (Nat × Nat)) : Prop :=
  ∀ q ∈ c.stores act, ∀ link ∈ c.link, (link.epoch, q.sequenceNum) ∉ answered

instance (c : Chan) (act : Act) (answered : List (Nat × Nat)) : Decidable (Unanswered c act answered) := by
  unfold Unanswered
  infer_instance

/-- The question held is not among the answered, and no answer is of an epoch to come. -/
structure Inv (c : Chan) (answered : List (Nat × Nat)) : Prop where
  nodup : answered.Nodup
  past : ∀ key ∈ answered, ∀ link, c.link = some link → key.1 ≤ link.epoch
  open_ : ∀ q link, c.question = some q → c.link = some link → (link.epoch, q.sequenceNum) ∉ answered
  unlinked : c.row ≠ none → c.link = none → answered = []

/-- Acts other than a registration and an answer. -/
theorem Inv.keep {c : Chan} {act : Act} {answered : List (Nat × Nat)} (h : Inv c answered)
    (hok : Unanswered c act answered) (hreg : act ≠ .registered)
    (hrow : (c.step act).row ≠ none → c.row ≠ none ∧ act ≠ .ended) : Inv (c.step act) answered where
  nodup := h.nodup
  past key hkey link hlink := by
    obtain ⟨link₀, hlink₀, hepoch, -⟩ := Chan.step_link hreg hlink
    rw [hepoch]
    exact h.past key hkey link₀ hlink₀
  open_ q link hq hlink := by
    obtain ⟨link₀, hlink₀, hepoch, -⟩ := Chan.step_link hreg hlink
    rw [hepoch]
    rcases Chan.question_from hq with hs | ⟨-, hkept⟩
    · exact hok q hs link₀ hlink₀
    · exact h.open_ q link₀ hkept hlink₀
  unlinked hr hl := by
    obtain ⟨hr₀, hend⟩ := hrow hr
    exact h.unlinked hr₀ (Chan.step_linked hend hl)

theorem Inv.registered {c : Chan} {answered : List (Nat × Nat)} (h : Inv c answered) (he : Act.registered.Enabled c) :
    Inv (c.step .registered) answered := by
  obtain ⟨row, hrow, -⟩ := he
  have hfresh : ∀ key ∈ answered, key.1 < (freshLink c.link).epoch := by
    intro key hkey
    cases hlink : c.link with
    | none =>
      rw [h.unlinked (by simp [hrow]) hlink] at hkey
      cases hkey
    | some link =>
      have hle := h.past key hkey link hlink
      simp only [freshLink, Option.map_some, Option.getD_some]
      omega
  refine ⟨h.nodup, ?_, ?_, fun _ hlink => by cases hlink⟩
  · intro key hkey link hlink
    cases hlink
    exact Nat.le_of_lt (hfresh key hkey)
  · intro q link _ hlink hkey
    cases hlink
    exact Nat.lt_irrefl _ (hfresh _ hkey)

theorem Inv.answered {c : Chan} {echoed : Option Nat} {answered : List (Nat × Nat)} (h : Inv c answered)
    (he : (Act.answered echoed).Enabled c) (hc : c.Ok true) :
    Inv (c.step (.answered echoed)) (see c (.answered echoed) (c.step (.answered echoed)) answered) := by
  obtain ⟨q, hq, rfl⟩ := he
  obtain ⟨link, hlink⟩ := Option.ne_none_iff_exists'.mp (hc.asked (by simp [hq]))
  have hsee : see c (.answered (some q.sequenceNum)) (c.step (.answered (some q.sequenceNum))) answered =
      answered ++ [(link.epoch, q.sequenceNum)] := by simp [see, hlink]
  have hlink' : (c.step (.answered (some q.sequenceNum))).link = some { link with idleArmed := false } := by
    simp [Chan.step, Chan.mapLink, hlink]
  rw [hsee]
  refine ⟨?_, ?_, fun q' link' hq' => (by cases hq'), ?_⟩
  · rw [List.nodup_append]
    refine ⟨h.nodup, List.nodup_singleton _, ?_⟩
    intro key hkey key' hkey' heq
    obtain rfl := List.mem_singleton.mp hkey'
    exact h.open_ q link hq hlink (heq ▸ hkey)
  · intro key hkey link' hl'
    rw [hlink', Option.some.injEq] at hl'
    subst hl'
    rcases List.mem_append.mp hkey with hold | hnew
    · exact h.past key hold link hlink
    · rw [List.mem_singleton.mp hnew]
  · intro _ hl'
    rw [hlink'] at hl'
    cases hl'

theorem Inv.step {c : Chan} {act : Act} {answered : List (Nat × Nat)} (h : Inv c answered)
    (hok : Unanswered c act answered) (he : act.Enabled c) (hb : act.births = true → answered = []) (hc : c.Ok true)
    (hlinked : act.births = true → c.link = none) : Inv (c.step act) (see c act (c.step act) answered) := by
  have hborn : act.births = true → act ≠ .registered → Inv (c.step act) answered := by
    intro hbirth hreg
    rw [hb hbirth]
    refine ⟨List.nodup_nil, fun _ hkey => (by cases hkey), ?_, fun _ _ => rfl⟩
    intro q link _ hlink
    obtain ⟨link₀, hl₀, -⟩ := Chan.step_link hreg hlink
    rw [hlinked hbirth] at hl₀
    cases hl₀
  cases act with
  | created row => exact hborn rfl (by simp)
  | placed row => exact hborn rfl (by simp)
  | claimed row =>
    refine h.keep hok (by simp) fun _ => ⟨?_, by simp⟩
    obtain ⟨placeholder, hrow, -⟩ := hc.placeholder he.1
    simp [hrow]
  | dropped => exact h.keep hok (by simp) fun hr => absurd rfl hr
  | ended => exact h.keep hok (by simp) fun hr => absurd rfl hr
  | registered => exact h.registered he
  | answered echoed => exact h.answered he hc
  | streamOpened | beat _ =>
    refine h.keep hok (by simp) fun hr => ⟨fun hnone => hr ?_, by simp⟩
    simp [Chan.step, hnone]
  | report r =>
    refine h.keep hok (by simp) fun hr => ⟨fun hnone => hr ?_, by simp⟩
    simp [Chan.step, hnone]
  | other | streamClosed | asked _ | steered | idleFired _ _ _ | halted =>
    exact h.keep hok (by simp) fun hr => ⟨hr, by simp⟩

theorem Inv.start {c : Chan} (h : c.Resting) : Inv c [] where
  nodup := List.nodup_nil
  past _ hkey := by cases hkey
  open_ q _ hq := by
    rw [h.2.2.1] at hq
    cases hq
  unlinked _ _ := rfl

end Answered

/-- The server watched for the answers relayed to `id`, no question stored under a number already answered. -/
abbrev AnswerRun (id : SessionId) : ServerState × List (Nat × Nat) → Prop :=
  SessionRun id Answered.see [] fun p e => Answered.Unanswered (chan p.1 id) (observe p.1 e id) p.2

/-- No two answers were relayed under one epoch and number, and one that was relayed is not accepted again. -/
theorem answered_once {id : SessionId} {p : ServerState × List (Nat × Nat)} (h : AnswerRun id p) :
    p.2.Nodup ∧ ∀ body command link n k, parseUiCommand body = some command → command.subtype = ANSWER_SUBTYPE →
      (chan p.1 id).link = some link → command.echoed = some n → (link.epoch, n) ∈ p.2 →
      reply p.1 (.uiCommand id body) ≠ .accepted k := by
  have hinv : Answered.Inv (chan p.1 id) p.2 := by
    refine h.inv (I := Answered.Inv) (fun act he _ => ?_) (fun c hc => .start hc) fun q e hok hborn he hc hi =>
      hi.step hok he (fun hb => (hborn hb).2) hc fun hb => by rw [(hborn hb).1]; rfl
    cases act with
    | answered echoed =>
      obtain ⟨q, hq, -⟩ := he
      cases hq
    | _ => rfl
  refine ⟨hinv.nodup, ?_⟩
  intro body command link n k hparse hanswer hlink hecho hkey hreply
  obtain ⟨-, q, hq, hnum⟩ := accepted_answer h.reachable.grounded.timers hparse hanswer hreply
  rw [hecho, Option.some.injEq] at hnum
  subst hnum
  exact hinv.open_ q link hq hlink hkey

/-- The question is asked and answered. -/
def askedAndAnswered : List Event := askedInOrder ++ [.uiCommand 0 (some (answerBody 5))]

theorem answered_once_asked :
    let p := runFrom (watched step (sessionWatch 0 Answered.see)) (freshServer, []) askedAndAnswered
    p.2 = [(1, 5)] ∧ p.2.Nodup ∧ ∀ body command link n k, parseUiCommand body = some command →
      command.subtype = ANSWER_SUBTYPE → (chan p.1 0).link = some link → command.echoed = some n →
      (link.epoch, n) ∈ p.2 → reply p.1 (.uiCommand 0 body) ≠ .accepted k :=
  ⟨by decide, answered_once ((Reach.start ⟨freshServer_booted, rfl⟩).run_allowed (by decide))⟩

/-- The frame that carried the question comes twice, and two answers to it are relayed. -/
theorem answered_twice :
    (runFrom (watched step (sessionWatch 0 Answered.see)) (freshServer, [])
      (askedAndAnswered ++ [.workerEvent 0 (some (.num 1)) (questionEntry 5), .uiCommand 0 (some (answerBody 5))])).2 =
      [(1, 5), (1, 5)] := by
  decide

end Ccctl.Server
