import Ccctl.WebUi.Client
import Mathlib.Data.List.Perm.Lattice
import Mathlib.Logic.Relation
/-
  Ccctl.WebUi.SteerQueue — what becomes of a submitted steer, over every run of the client.

  Steering touches four parts of the state, its `Books`, and only by the few `Move`s: every
  event is a row of them (`step_moves`). In any run a submission is POSTed at most once, and
  never after its cancellation. That a held steer waits for its own confirmation, and that
  a session's steers go out in their order, holds as long as the events are `Calm`: no drain
  finds a held item whose session reads as not moved on, and no steer goes out directly while
  an earlier one of its session waits (`steers_kept`).

  `steers_lost` has the two runs that are not: the cursors of a session that left the list are
  gone, so its held steers read as fresh at the next drain; and a drain sends one POST at a
  time, beside which a direct steer does not wait.
-/

namespace Ccctl.WebUi

open Ccctl.Core Ccctl.Lib

def QueuedSteer.post (item : QueuedSteer) (route : Route) : Post :=
  ⟨item.sessionId, item.command, route, item.submission⟩

def QueuedSteer.number (item : QueuedSteer) : Nat := item.submission.number

def Post.number (post : Post) : Nat := post.submission.number

def QueuedSteer.hold (item : QueuedSteer) : QueuedSteer := { item with status := .stale }

/-! ## The books -/

structure Books where
  posted : List Post
  firing : Option (List QueuedSteer)
  queue : List QueuedSteer
  submitted : Nat

def Client.books (s : Client) : Books := ⟨s.posted, s.firing, s.steerQueue, s.submitted⟩

/-- What is to go out without a confirmation: what the drain has yet to send, then what is
    pending. -/
def Books.waiting (b : Books) : List QueuedSteer :=
  b.firing.getD [] ++ b.queue.filter fun item => item.status = .pending

inductive Move (calm : Prop) : Books → Books → Prop
  /-- A submission that is no usable steer. -/
  | refused (b : Books) : Move calm b { b with submitted := b.submitted + 1 }
  | queued (b : Books) (item : QueuedSteer) : item.number = b.submitted →
      Move calm b { b with queue := b.queue ++ [item], submitted := b.submitted + 1 }
  | direct (b : Books) (post : Post) : post.number = b.submitted →
      (calm → ∀ item ∈ b.waiting, item.sessionId ≠ post.sessionId) →
      Move calm b { b with posted := b.posted ++ [post], submitted := b.submitted + 1 }
  | cancelled (b : Books) (id : Nat) : Move calm b { b with queue := cancelQueued b.queue id }
  | confirmed (b : Books) (item : QueuedSteer) : item ∈ b.queue →
      Move calm b { b with queue := cancelQueued b.queue item.id, posted := b.posted ++ [item.post (.anyway item.id)] }
  | parted (b : Books) (isStale : QueuedSteer → Bool) : b.firing = none →
      (calm → ∀ item ∈ b.queue, item.status = .stale → isStale item = true) →
      Move calm b { b with
        firing := some (b.queue.filter fun item => !isStale item)
        queue := (b.queue.filter isStale).map QueuedSteer.hold }
  | sent (b : Books) (item : QueuedSteer) (rest : List QueuedSteer) : b.firing = some (item :: rest) →
      Move calm b { b with firing := some rest, posted := b.posted ++ [item.post .drain] }
  | drained (b : Books) : b.firing = some [] → Move calm b { b with firing := none }

abbrev Moves (calm : Prop) : Books → Books → Prop := Relation.ReflTransGen (Move calm)

/-! ## Calm events -/

/-- Every held item's session still reads as moved on. -/
def KeepsHeld (s : Client) : Prop :=
  ∀ item ∈ s.steerQueue, item.status = .stale → sessionMovedOn item.cursor (s.head item.sessionId) = true

instance (s : Client) : Decidable (KeepsHeld s) := inferInstanceAs (Decidable (∀ item ∈ s.steerQueue, _))

/-- A steer to this session would go out at once, past one that waits. -/
def Overtakes (s : Client) (sessionId : JsString) : Prop :=
  s.offline = false ∧ sessionMovedOn (s.viewed sessionId) (s.head sessionId) = false ∧
    ∃ item ∈ s.books.waiting, item.sessionId = sessionId

instance (s : Client) (sessionId : JsString) : Decidable (Overtakes s sessionId) :=
  inferInstanceAs (Decidable (_ ∧ _ ∧ ∃ item ∈ s.books.waiting, _))

/-- The settlement ends the drain with the link up, so that it starts over. -/
def Redrains (s : Client) (number : Nat) : Prop :=
  (s.flight number).any (fun post => post.route = .drain) = true ∧ s.firing.any List.isEmpty = true ∧ s.offline = false

instance (s : Client) (number : Nat) : Decidable (Redrains s number) := inferInstanceAs (Decidable (_ ∧ _ ∧ _))

def Calm (s : Client) : Event → Prop
  | .steer (some _) => ∀ sessionId ∈ s.currentSessionId, ¬ Overtakes s sessionId
  | .poll sessions => s.pollState ≠ .ok → s.firing.isNone → KeepsHeld (relisted s sessions)
  | .settled number _ => Redrains s number → KeepsHeld s
  | _ => True

instance (s : Client) : (e : Event) → Decidable (Calm s e)
  | .steer (some _) => inferInstanceAs (Decidable (∀ sessionId ∈ s.currentSessionId, ¬ Overtakes s sessionId))
  | .poll sessions => inferInstanceAs (Decidable (_ → _ → KeepsHeld (relisted s sessions)))
  | .settled number _ => inferInstanceAs (Decidable (Redrains s number → KeepsHeld s))
  | .steer none | .select _ | .pollFailed | .streamOpen | .streamError | .message _ | .cancel _ | .sendAnyway _ =>
    inferInstanceAs (Decidable True)

/-! ## Every event is a row of moves -/

section
variable {calm : Prop} {s : Client}

theorem books_listed (s : Client) (sessions : List SessionSummary) :
    (initViewed (relisted s sessions)).books = s.books ∧ (initViewed (relisted s sessions)).firing = s.firing ∧
      (KeepsHeld (initViewed (relisted s sessions)) ↔ KeepsHeld (relisted s sessions)) := by
  have hinit : ∀ s : Client, (initViewed s).books = s.books ∧ (initViewed s).firing = s.firing ∧
      (KeepsHeld (initViewed s) ↔ KeepsHeld s) := by
    intro s
    unfold initViewed
    split
    · exact ⟨rfl, rfl, Iff.rfl⟩
    · split <;> exact ⟨rfl, rfl, Iff.rfl⟩
  have happly : ∀ s : Client, (applySessionList s sessions).books = s.books ∧
      (applySessionList s sessions).firing = s.firing := by
    intro s
    unfold applySessionList
    split <;> exact ⟨rfl, rfl⟩
  have hselect : ∀ (s : Client) selection, (applySelection s selection).books = s.books ∧
      (applySelection s selection).firing = s.firing := by
    intro s selection
    cases selection with
    | select id =>
      show (selectSession s id).books = s.books ∧ (selectSession s id).firing = s.firing
      unfold selectSession
      split <;> exact ⟨rfl, rfl⟩
    | clear => exact ⟨rfl, rfl⟩
    | keep => exact ⟨rfl, rfl⟩
  refine ⟨?_, ?_, (hinit _).2.2⟩
  · rw [(hinit _).1, relisted, (hselect _ _).1, (happly _).1]
    rfl
  · rw [(hinit _).2.1, relisted, (hselect _ _).2, (happly _).2]

/-- A drain sets aside what is stale and sends the first of the rest. -/
theorem moves_fire (h : calm → s.firing = none → KeepsHeld s) : Moves calm s.books (fireSteerQueue s).books := by
  have hheld : calm → s.firing = none → ∀ item ∈ s.steerQueue, item.status = .stale →
      (fun item : QueuedSteer => sessionMovedOn item.cursor (s.head item.sessionId)) item = true := h
  unfold fireSteerQueue
  generalize (fun item : QueuedSteer => sessionMovedOn item.cursor (s.head item.sessionId)) = isStale at hheld ⊢
  split
  · exact .refl
  · rename_i hidle
    have hnone : s.firing = none := by
      have hnot := not_or.mp hidle
      simpa using hnot.1
    have hparted : Move calm s.books _ := .parted s.books isStale hnone fun hcalm => hheld hcalm hnone
    dsimp only
    split
    · rename_i hsend
      have hbooks : ({ s with steerQueue := (partitionQueueForFire s.steerQueue isStale).2 } : Client).books =
          { s.books with firing := none, queue := (s.steerQueue.filter isStale).map QueuedSteer.hold } := by
        rw [Client.books, hnone]
        rfl
      rw [hbooks]
      exact (Relation.ReflTransGen.single hparted).tail (.drained _ (congrArg some hsend))
    · rename_i item rest hsend
      exact (Relation.ReflTransGen.single hparted).tail (.sent _ item rest (congrArg some hsend))

theorem moves_drain (h : calm → s.firing = some [] → s.offline = false → KeepsHeld s) :
    Moves calm s.books (drainOn s).books := by
  unfold drainOn
  split
  · exact .refl
  · rename_i item rest hfiring
    exact .single (Move.sent s.books item rest hfiring)
  · rename_i hfiring
    have hdone : Move calm s.books _ := .drained s.books hfiring
    split
    · exact .single hdone
    · rename_i honline
      have hfire :
          Moves calm { s with firing := none : Client }.books (fireSteerQueue { s with firing := none }).books :=
        moves_fire fun hcalm _ => h hcalm hfiring (by simpa using honline)
      exact (Relation.ReflTransGen.single hdone).trans hfire

theorem queuedSteer_some {id : Nat} {sessionId : JsString} {command : Json} {cursor : Nat} {submission : Submission}
    {item : QueuedSteer} (h : queuedSteer id sessionId command cursor submission = some item) :
    item.submission = submission ∧ item.sessionId = sessionId := by
  unfold queuedSteer at h
  split at h
  · cases h
  · split at h
    · cases h
    · cases h
      exact ⟨rfl, rfl⟩

theorem moves_steer (command : Option Json) (h : calm → Calm s (.steer command)) :
    Moves calm s.books (steer s command).books := by
  unfold steer
  split
  · rename_i command sessionId hcurrent
    dsimp only
    split
    · refine .single ?_
      unfold enqueueSteer
      split
      · exact .refused s.books
      · rename_i item hitem
        refine .queued s.books item ?_
        rw [QueuedSteer.number, (queuedSteer_some hitem).1]
        rfl
    · rename_i honline
      split
      · refine .single ?_
        unfold holdStaleSteer
        split
        · exact .refused s.books
        · rename_i item hitem
          refine .queued s.books item.hold ?_
          rw [QueuedSteer.number, QueuedSteer.hold, (queuedSteer_some hitem).1]
          rfl
      · rename_i hfresh
        refine .single (.direct s.books _ rfl fun hcalm item hitem hsame => ?_)
        rw [Bool.not_eq_true] at honline hfresh
        exact h hcalm sessionId hcurrent ⟨honline, hfresh, item, hitem, hsame⟩
  · exact .refl

theorem moves_settle (number : Nat) (accepted : Bool) (h : calm → Redrains s number → KeepsHeld s) :
    Moves calm s.books (settlePost s number accepted).books := by
  unfold settlePost
  split
  · exact .refl
  · rename_i post hflight
    have hanswered : ∀ s : Client, (steerAnswered s post accepted).books = s.books ∧
        (steerAnswered s post accepted).firing = s.firing ∧ (steerAnswered s post accepted).offline = s.offline ∧
        (KeepsHeld (steerAnswered s post accepted) ↔ KeepsHeld s) := by
      intro s
      unfold steerAnswered
      split <;> exact ⟨rfl, rfl, rfl, Iff.rfl⟩
    obtain ⟨hbooks, hfiring, hoffline, hheld⟩ :=
      hanswered { s with inFlight := s.inFlight.filter fun p => p.submission.number ≠ number }
    have hsame : s.books = (steerAnswered { s with inFlight := s.inFlight.filter fun p => p.submission.number ≠ number }
      post accepted).books := hbooks.symm
    dsimp only
    rw [hsame]
    split
    · rename_i hroute
      refine moves_drain fun hcalm hlast honline => hheld.mpr (h hcalm ⟨?_, ?_, ?_⟩)
      · simp [hflight, hroute]
      · have hempty : s.firing = some [] := hfiring.symm.trans hlast
        rw [hempty]
        rfl
      · rw [hoffline] at honline
        exact honline
    · exact .refl

/-- Every event is a row of moves, and of calm ones when it is calm. -/
theorem step_moves (calm : Prop) (s : Client) (e : Event) (h : calm → Calm s e) :
    Moves calm s.books (step s e).books := by
  have hstream : ∀ act : JsString → Client, (∀ id, (act id).books = s.books) →
      Moves calm s.books (onStream s act).books := by
    intro act hact
    unfold onStream
    split
    · exact .refl
    · rw [hact]
  cases e with
  | select sessionId =>
    show Moves calm s.books (selectSession s sessionId).books
    unfold selectSession
    split <;> exact .refl
  | poll sessions =>
    obtain ⟨hbooks, hfiring, hheld⟩ := books_listed s sessions
    show Moves calm s.books (loadSessions s sessions).books
    unfold loadSessions
    rw [← hbooks]
    dsimp only
    split
    · rename_i hreconnected
      refine moves_fire fun hcalm hnone => hheld.mpr (h hcalm hreconnected ?_)
      rw [hfiring] at hnone
      simp [hnone]
    · exact .refl
  | pollFailed => exact .refl
  | streamOpen => exact hstream _ fun _ => rfl
  | streamError => exact hstream _ fun _ => rfl
  | message lastEventId => exact hstream _ fun _ => rfl
  | steer command => exact moves_steer command h
  | cancel id => exact .single (.cancelled s.books id)
  | sendAnyway id =>
    show Moves calm s.books (sendSteerAnyway s id).books
    unfold sendSteerAnyway
    split
    · exact .refl
    · rename_i item hitem
      have hid : item.id = id := by simpa using List.find?_some hitem
      subst hid
      exact .single (.confirmed s.books item (List.mem_of_find?_eq_some hitem))
  | settled number accepted => exact moves_settle number accepted h

end

/-! ## Numbers -/

/-- The submissions that were POSTed or still may be. -/
def Books.numbers (b : Books) : List Nat :=
  b.posted.map Post.number ++ (b.firing.getD [] ++ b.queue).map QueuedSteer.number

def Route.confirmed : Route → Bool
  | .anyway _ => true
  | _ => false

def unconfirmed (sessionId : JsString) (post : Post) : Bool := post.sessionId = sessionId ∧ post.route.confirmed = false

/-- The submissions for a session in the order they went out or will go out without a
    confirmation. -/
def Books.line (b : Books) (sessionId : JsString) : List Nat :=
  (b.posted.filter (unconfirmed sessionId)).map Post.number ++
    (b.waiting.filter fun item => item.sessionId = sessionId).map QueuedSteer.number

section
variable {calm : Prop} {b b' : Books}

/-- A move loses numbers, or adds the next submission's. -/
theorem Move.numbers (h : Move calm b b') :
    (b'.numbers.Subperm b.numbers ∧ b.submitted ≤ b'.submitted) ∨
      (b'.numbers.Perm (b.numbers ++ [b.submitted]) ∧ b'.submitted = b.submitted + 1) := by
  cases h with
  | refused => exact Or.inl ⟨List.Subperm.refl _, Nat.le_succ _⟩
  | queued item hnumber =>
    refine Or.inr ⟨List.Perm.of_eq ?_, rfl⟩
    simp [Books.numbers, hnumber]
  | direct post hnumber =>
    refine Or.inr ⟨?_, rfl⟩
    simp only [Books.numbers, List.map_append, List.map_singleton, hnumber, List.append_assoc]
    refine List.Perm.append_left _ ?_
    exact List.perm_append_comm.trans (List.Perm.of_eq (List.append_assoc _ _ _))
  | cancelled id =>
    refine Or.inl ⟨List.Sublist.subperm ?_, le_refl _⟩
    exact ((List.filter_sublist.append_left _).map _).append_left _
  | confirmed item hitem =>
    refine Or.inl ⟨?_, le_refl _⟩
    have hcons : (item :: cancelQueued b.queue item.id).Subperm b.queue :=
      List.cons_subperm_of_not_mem_of_mem (by simp [cancelQueued]) hitem List.filter_sublist.subperm
    have hperm : (b.firing.getD [] ++ item :: cancelQueued b.queue item.id).Perm
        (item :: (b.firing.getD [] ++ cancelQueued b.queue item.id)) := List.perm_middle
    have hmoved : (item :: (b.firing.getD [] ++ cancelQueued b.queue item.id)).Subperm (b.firing.getD [] ++ b.queue) :=
      hperm.symm.subperm.trans ((List.subperm_append_left _).mpr hcons)
    obtain ⟨l, hl, hsub⟩ := hmoved
    have hnumbers : ((item :: (b.firing.getD [] ++ cancelQueued b.queue item.id)).map QueuedSteer.number).Subperm
        ((b.firing.getD [] ++ b.queue).map QueuedSteer.number) := ⟨l.map _, hl.map _, hsub.map _⟩
    rw [List.map_cons] at hnumbers
    replace hnumbers := (List.subperm_append_left (b.posted.map Post.number)).mpr hnumbers
    simp only [Books.numbers, List.map_append, List.map_singleton, List.append_assoc,
      List.singleton_append] at hnumbers ⊢
    exact hnumbers
  | parted isStale hidle =>
    refine Or.inl ⟨List.Perm.subperm (List.Perm.append_left _ ?_), le_refl _⟩
    have hhold : ((b.queue.filter isStale).map QueuedSteer.hold).map QueuedSteer.number =
        (b.queue.filter isStale).map QueuedSteer.number := by
      rw [List.map_map]
      rfl
    rw [hidle, Option.getD_some, Option.getD_none, List.nil_append, List.map_append, hhold, ← List.map_append]
    exact (List.perm_append_comm.trans (List.filter_append_perm isStale b.queue)).map _
  | sent item rest hfiring =>
    refine Or.inl ⟨List.Perm.subperm (List.Perm.of_eq ?_), le_refl _⟩
    simp [Books.numbers, hfiring, QueuedSteer.post, Post.number, QueuedSteer.number]
  | drained hfiring =>
    refine Or.inl ⟨List.Perm.subperm (List.Perm.of_eq ?_), le_refl _⟩
    simp [Books.numbers, hfiring]

/-- A calm move shortens a session's line, or adds the next submission at its end. -/
theorem Move.line (h : Move calm b b') (hcalm : calm) (sessionId : JsString) :
    ((b'.line sessionId).Sublist (b.line sessionId) ∧ b.submitted ≤ b'.submitted) ∨
      (b'.line sessionId = b.line sessionId ++ [b.submitted] ∧ b'.submitted = b.submitted + 1) := by
  cases h with
  | refused => exact Or.inl ⟨List.Sublist.refl _, Nat.le_succ _⟩
  | queued item hnumber =>
    by_cases hthis : item.status = .pending ∧ item.sessionId = sessionId
    · refine Or.inr ⟨?_, rfl⟩
      simp [Books.line, Books.waiting, hthis.1, hthis.2, hnumber]
    · have hsame : ({ b with queue := b.queue ++ [item], submitted := b.submitted + 1 } : Books).line sessionId =
          b.line sessionId := by
        rcases not_and_or.mp hthis with hno | hno
        · simp [Books.line, Books.waiting, hno]
        · by_cases hpending : item.status = .pending <;> simp [Books.line, Books.waiting, hno, hpending]
      exact Or.inl ⟨hsame ▸ List.Sublist.refl _, Nat.le_succ _⟩
  | direct post hnumber hpast =>
    by_cases hthis : unconfirmed sessionId post = true
    · have hsession : post.sessionId = sessionId := by
        simp only [unconfirmed, decide_eq_true_eq] at hthis
        exact hthis.1
      have hnone : (b.waiting.filter fun item => item.sessionId = sessionId) = [] := by
        rw [List.filter_eq_nil_iff]
        intro item hitem
        simpa [hsession] using hpast hcalm item hitem
      refine Or.inr ⟨?_, rfl⟩
      show ((b.posted ++ [post]).filter (unconfirmed sessionId)).map Post.number ++
        (b.waiting.filter fun item => item.sessionId = sessionId).map QueuedSteer.number = _
      simp [Books.line, hnone, List.filter_append, hthis, hnumber]
    · have hposted : (b.posted ++ [post]).filter (unconfirmed sessionId) = b.posted.filter (unconfirmed sessionId) := by
        simp [List.filter_append, hthis]
      refine Or.inl ⟨?_, Nat.le_succ _⟩
      rw [Books.line, Books.line, hposted]
      exact List.Sublist.refl _
  | cancelled id =>
    refine Or.inl ⟨?_, le_refl _⟩
    have hqueue : (cancelQueued b.queue id).Sublist b.queue := List.filter_sublist
    exact (((hqueue.filter _).append_left _).filter _ |>.map _).append_left _
  | confirmed item =>
    refine Or.inl ⟨?_, le_refl _⟩
    have hqueue : (cancelQueued b.queue item.id).Sublist b.queue := List.filter_sublist
    have hposted : (b.posted ++ [item.post (.anyway item.id)]).filter (unconfirmed sessionId) =
        b.posted.filter (unconfirmed sessionId) := by
      simp [List.filter_append, unconfirmed, QueuedSteer.post, Route.confirmed]
    rw [Books.line, Books.line, hposted]
    exact (((hqueue.filter _).append_left _).filter _ |>.map _).append_left _
  | parted isStale hidle hheld =>
    refine Or.inl ⟨?_, le_refl _⟩
    have hnone : (((b.queue.filter isStale).map QueuedSteer.hold).filter fun item => item.status = .pending) = [] := by
      simp [List.filter_map, Function.comp_def, QueuedSteer.hold]
    have hsend : (b.queue.filter fun item => !isStale item).Sublist
        (b.queue.filter fun item => item.status = .pending) := by
      have hpending : ∀ item ∈ b.queue, (!isStale item) = (!isStale item && decide (item.status = .pending)) := by
        intro item hitem
        cases hfresh : isStale item with
        | true => rfl
        | false =>
          have hstatus : item.status ≠ .stale := by
            intro hstale
            rw [hheld hcalm item hitem hstale] at hfresh
            cases hfresh
          cases hs : item.status with
          | pending => rfl
          | stale => exact absurd hs hstatus
      rw [List.filter_congr hpending, ← List.filter_filter]
      exact List.filter_sublist
    rw [Books.line, Books.line, Books.waiting, Books.waiting, hidle, Option.getD_some, Option.getD_none, hnone,
      List.append_nil, List.nil_append]
    exact ((hsend.filter _).map _).append_left _
  | sent item rest hfiring =>
    have hsame : ({ b with firing := some rest, posted := b.posted ++ [item.post .drain] } : Books).line sessionId =
        b.line sessionId := by
      by_cases hthis : item.sessionId = sessionId
      · simp [Books.line, Books.waiting, hfiring, unconfirmed, QueuedSteer.post, hthis, Post.number, QueuedSteer.number,
          Route.confirmed]
      · simp [Books.line, Books.waiting, hfiring, unconfirmed, QueuedSteer.post, hthis]
    exact Or.inl ⟨hsame ▸ List.Sublist.refl _, le_refl _⟩
  | drained hfiring =>
    have hsame : ({ b with firing := none } : Books).line sessionId = b.line sessionId := by
      simp [Books.line, Books.waiting, hfiring]
    exact Or.inl ⟨hsame ▸ List.Sublist.refl _, le_refl _⟩

end

/-! ## What a row of moves keeps -/

section
variable {calm : Prop} {b b' : Books}

/-- Those made so far and the next one are made once the next one is. -/
theorem made_next {l : List Nat} {next : Nat} (h : ∀ n ∈ l, n < next) : ∀ n ∈ l ++ [next], n < next + 1 := by
  intro n hn
  rcases List.mem_append.mp hn with hold | hnew
  · exact (h n hold).trans (Nat.lt_succ_self _)
  · rw [List.mem_singleton.mp hnew]
    exact Nat.lt_succ_self _

/-- No submission is there twice, and none is there before it is made. -/
structure Counted (b : Books) : Prop where
  once : b.numbers.Nodup
  made : ∀ n ∈ b.numbers, n < b.submitted

theorem Move.counted (h : Move calm b b') (hb : Counted b) : Counted b' := by
  rcases h.numbers with ⟨hsub, hle⟩ | ⟨hperm, hnext⟩
  · refine ⟨?_, fun n hn => (hb.made n (hsub.subset hn)).trans_le hle⟩
    obtain ⟨l, hl, hfewer⟩ := hsub
    exact hl.nodup_iff.mp (hb.once.sublist hfewer)
  · refine ⟨hperm.nodup_iff.mpr ?_, fun n hn => ?_⟩
    · refine List.nodup_append.mpr ⟨hb.once, List.nodup_singleton _, fun n hn m hm => ?_⟩
      have hbelow := hb.made n hn
      have hm' := List.mem_singleton.mp hm
      omega
    · rw [hnext]
      exact made_next hb.made n (hperm.subset hn)

/-- A submission that was made and is nowhere: it will not be POSTed. -/
structure Gone (n : Nat) (b : Books) : Prop where
  made : n < b.submitted
  absent : n ∉ b.numbers

theorem Move.gone {n : Nat} (h : Move calm b b') (hb : Gone n b) : Gone n b' := by
  rcases h.numbers with ⟨hsub, hle⟩ | ⟨hperm, hnext⟩
  · exact ⟨hb.made.trans_le hle, fun hn => hb.absent (hsub.subset hn)⟩
  · refine ⟨by have := hb.made; omega, fun hn => ?_⟩
    rcases List.mem_append.mp (hperm.subset hn) with hold | hnew
    · exact hb.absent hold
    · have hmade := hb.made
      have hn' := List.mem_singleton.mp hnew
      omega

/-- A session's steers without a confirmation are in the order of their submissions. -/
structure InOrder (sessionId : JsString) (b : Books) : Prop where
  ascending : (b.line sessionId).Pairwise (· < ·)
  made : ∀ n ∈ b.line sessionId, n < b.submitted

theorem Move.inOrder {sessionId : JsString} (h : Move calm b b') (hcalm : calm) (hb : InOrder sessionId b) :
    InOrder sessionId b' := by
  rcases h.line hcalm sessionId with ⟨hsub, hle⟩ | ⟨heq, hnext⟩
  · exact ⟨hb.ascending.sublist hsub, fun n hn => (hb.made n (hsub.subset hn)).trans_le hle⟩
  · refine ⟨?_, fun n hn => ?_⟩
    · rw [heq]
      refine List.pairwise_append.mpr ⟨hb.ascending, List.pairwise_singleton _ _, fun n hn m hm => ?_⟩
      have hbelow := hb.made n hn
      have hm' := List.mem_singleton.mp hm
      omega
    · rw [heq] at hn
      rw [hnext]
      exact made_next hb.made n hn

/-- The submission `n` is held under the handle `id`, or was confirmed there. -/
structure HeldAt (n id : Nat) (b : Books) : Prop where
  made : n < b.submitted
  unsent : ∀ item ∈ b.firing.getD [], item.number ≠ n
  held : ∀ item ∈ b.queue, item.number = n → item.status = .stale ∧ item.id = id
  confirmed : ∀ post ∈ b.posted, post.number = n → post.route = .anyway id

theorem Move.heldAt {n id : Nat} (h : Move calm b b') (hcalm : calm) (hb : HeldAt n id b) : HeldAt n id b' := by
  cases h with
  | refused => exact ⟨hb.made.trans (Nat.lt_succ_self _), hb.unsent, hb.held, hb.confirmed⟩
  | queued item hnumber =>
    refine ⟨hb.made.trans (Nat.lt_succ_self _), hb.unsent, fun q hq hn => ?_, hb.confirmed⟩
    rcases List.mem_append.mp hq with hold | hnew
    · exact hb.held q hold hn
    · rw [List.mem_singleton.mp hnew] at hn
      have hmade := hb.made
      omega
  | direct post hnumber =>
    refine ⟨hb.made.trans (Nat.lt_succ_self _), hb.unsent, hb.held, fun p hp hn => ?_⟩
    rcases List.mem_append.mp hp with hold | hnew
    · exact hb.confirmed p hold hn
    · rw [List.mem_singleton.mp hnew] at hn
      have hmade := hb.made
      omega
  | cancelled => exact ⟨hb.made, hb.unsent, fun q hq => hb.held q (List.mem_filter.mp hq).1, hb.confirmed⟩
  | confirmed item hitem =>
    refine ⟨hb.made, hb.unsent, fun q hq => hb.held q (List.mem_filter.mp hq).1, fun p hp hn => ?_⟩
    rcases List.mem_append.mp hp with hold | hnew
    · exact hb.confirmed p hold hn
    · rw [List.mem_singleton.mp hnew] at hn ⊢
      show Route.anyway item.id = .anyway id
      rw [(hb.held item hitem hn).2]
  | parted isStale hidle hkept =>
    refine ⟨hb.made, fun q hq hn => ?_, fun q hq hn => ?_, hb.confirmed⟩
    · obtain ⟨hmem, hfresh⟩ := List.mem_filter.mp hq
      have hstale := hkept hcalm q hmem (hb.held q hmem hn).1
      rw [hstale] at hfresh
      cases hfresh
    · obtain ⟨item, hitem, rfl⟩ := List.mem_map.mp hq
      exact ⟨rfl, (hb.held item (List.mem_filter.mp hitem).1 hn).2⟩
  | sent item rest hfiring =>
    have hunsent : ∀ q ∈ item :: rest, q.number ≠ n := fun q hq => hb.unsent q (by simpa [hfiring] using hq)
    refine ⟨hb.made, fun q hq => hunsent q (List.mem_cons_of_mem _ hq), hb.held, fun p hp hn => ?_⟩
    rcases List.mem_append.mp hp with hold | hnew
    · exact hb.confirmed p hold hn
    · rw [List.mem_singleton.mp hnew] at hn
      exact absurd hn (hunsent item List.mem_cons_self)
  | drained hfiring => exact ⟨hb.made, by simp, hb.held, hb.confirmed⟩

theorem Moves.keep {P : Books → Prop} (hmove : ∀ b b', Move calm b b' → P b → P b') (h : Moves calm b b') (hb : P b) :
    P b' := by
  induction h with
  | refl => exact hb
  | tail _ hlast ih => exact hmove _ _ hlast ih

end

/-! ## Runs -/

section
variable {s : Client}

theorem counted_reach (h : Reach step (· = .new) anyEvent s) : Counted s.books := by
  refine h.inv (P := fun s => Counted s.books) (fun s hs => ?_) fun s e hs _ => ?_
  · rw [hs]
    exact ⟨List.nodup_nil, by simp [Books.numbers, Client.books, Client.new]⟩
  · exact Moves.keep (fun _ _ hm hb => hm.counted hb) (step_moves False s e False.elim) hs

theorem inOrder_reach (h : Reach step (· = .new) Calm s) (sessionId : JsString) : InOrder sessionId s.books := by
  refine h.inv (P := fun s => InOrder sessionId s.books) (fun s hs => ?_) fun s e hs hcalm => ?_
  · rw [hs]
    exact ⟨List.Pairwise.nil, by simp [Books.line, Books.waiting, Client.books, Client.new]⟩
  · exact Moves.keep (fun _ _ hm hb => hm.inOrder trivial hb) (step_moves True s e fun _ => hcalm) hs

theorem gone_run {n : Nat} (h : Gone n s.books) (events : List Event) : Gone n (runFrom step s events).books := by
  induction events generalizing s with
  | nil => exact h
  | cons e events ih =>
    exact ih (Moves.keep (fun _ _ hm hb => hm.gone hb) (step_moves False s e False.elim) h)

theorem heldAt_run {n id : Nat} (h : HeldAt n id s.books) {events : List Event} (hcalm : allowed step Calm s events) :
    HeldAt n id (runFrom step s events).books := by
  induction events generalizing s with
  | nil => exact h
  | cons e events ih =>
    refine ih ?_ hcalm.2
    exact Moves.keep (fun _ _ hm hb => hm.heldAt trivial hb) (step_moves True s e fun _ => hcalm.1) h

/-- One number, one place in the books. -/
theorem queue_unique (h : Counted s.books) {item : QueuedSteer} (hitem : item ∈ s.steerQueue) :
    (∀ post ∈ s.posted, post.number ≠ item.number) ∧ (∀ q ∈ s.firing.getD [], q.number ≠ item.number) ∧
      ∀ q ∈ s.steerQueue, q.number = item.number → q = item := by
  have honce := h.once
  rw [Books.numbers, List.map_append, List.nodup_append, List.nodup_append] at honce
  obtain ⟨-, ⟨-, hqueue, hfiring⟩, hposted⟩ := honce
  have hmem : item.number ∈ s.steerQueue.map QueuedSteer.number := List.mem_map_of_mem hitem
  refine ⟨fun post hpost => ?_, fun q hq => ?_, fun q hq hsame => ?_⟩
  · exact hposted _ (List.mem_map_of_mem hpost) _ (List.mem_append_right _ hmem)
  · exact hfiring _ (List.mem_map_of_mem hq) _ hmem
  · exact List.inj_on_of_nodup_map hqueue hq hitem hsame

theorem gone_of_cancel (h : Counted s.books) {item : QueuedSteer} (hitem : item ∈ s.steerQueue) :
    Gone item.number (cancelSteerQueued s item.id).books := by
  obtain ⟨hposted, hfiring, hqueue⟩ := queue_unique h hitem
  refine ⟨h.made _ ?_, fun hn => ?_⟩
  · exact List.mem_append_right _ (List.mem_map_of_mem (List.mem_append_right _ hitem))
  · rcases List.mem_append.mp hn with hn | hn
    · obtain ⟨post, hpost, hsame⟩ := List.mem_map.mp hn
      exact hposted post hpost hsame
    · obtain ⟨q, hq, hsame⟩ := List.mem_map.mp hn
      rcases List.mem_append.mp hq with hq | hq
      · exact hfiring q hq hsame
      · obtain ⟨hq, hid⟩ := List.mem_filter.mp hq
        rw [hqueue q hq hsame] at hid
        simp at hid

theorem heldAt_of_stale (h : Counted s.books) {item : QueuedSteer} (hitem : item ∈ s.steerQueue)
    (hstale : item.status = .stale) : HeldAt item.number item.id s.books := by
  obtain ⟨hposted, hfiring, hqueue⟩ := queue_unique h hitem
  refine ⟨h.made _ ?_, hfiring, fun q hq hsame => ?_, fun post hpost hsame => absurd hsame (hposted post hpost)⟩
  · exact List.mem_append_right _ (List.mem_map_of_mem (List.mem_append_right _ hitem))
  · obtain rfl := hqueue q hq hsame
    exact ⟨hstale, rfl⟩

end

/-- In every run a submission is POSTed at most once, and not after it was cancelled in the
    queue. In a calm run a held one is POSTed only by its own "Send anyway", and what goes out
    for a session without one goes out in the order submitted. -/
theorem steers_kept (s : Client) :
    (Reach step (· = .new) anyEvent s → (s.posted.map Post.number).Nodup) ∧
    (∀ events, Reach step (· = .new) anyEvent s → ∀ item ∈ s.steerQueue,
      ∀ post ∈ (runFrom step s (.cancel item.id :: events)).posted, post.number ≠ item.number) ∧
    (∀ events, Reach step (· = .new) Calm s → allowed step Calm s events → ∀ item ∈ s.steerQueue,
      item.status = .stale → ∀ post ∈ (runFrom step s events).posted, post.number = item.number →
        post.route = .anyway item.id) ∧
    (Reach step (· = .new) Calm s → ∀ sessionId,
      ((s.posted.filter (unconfirmed sessionId)).map Post.number).Pairwise (· < ·)) := by
  refine ⟨fun h => ?_, fun events h item hitem post hpost hsame => ?_, fun events h hcalm item hitem hstale => ?_,
    fun h sessionId => ?_⟩
  · exact (List.nodup_append.mp (counted_reach h).once).1
  · have hgone := gone_run (gone_of_cancel (counted_reach h) hitem) events
    exact hgone.absent (List.mem_append_left _ (List.mem_map.mpr ⟨post, hpost, hsame⟩))
  · have hcounted := counted_reach (h.mono fun _ _ _ => trivial)
    exact (heldAt_run (heldAt_of_stale hcounted hitem hstale) hcalm).confirmed
  · exact (List.pairwise_append.mp (inOrder_reach h sessionId).ascending).1

/-- The session moves on under the operator, and the steer is held. -/
def movedOn : List Event := [.poll [rowAt (js "a") 5], .poll [rowAt (js "a") 7], .steer (some approval)]

theorem steers_kept_confirmed :
    let held := runFrom step .new movedOn
    (∀ item ∈ held.steerQueue, item.status = .stale → ∀ post ∈ (runFrom step held [.sendAnyway 1]).posted,
      post.number = item.number → post.route = .anyway item.id) ∧
    held.steerQueue.map QueuedSteer.number = [0] ∧ (runFrom step held [.sendAnyway 1]).posted.map Post.number = [0] := by
  have hquiet : allowed step Calm .new movedOn := by decide
  have hnew : Reach step (· = .new) Calm .new := .start rfl
  have hcalm := hnew.run_allowed hquiet
  exact ⟨(steers_kept _).2.2.1 [.sendAnyway 1] hcalm (by decide), by decide⟩

/-- Two steers made offline, and one made while the first of them is under way. -/
def overtaken : List Event :=
  [.poll [rowAt (js "a") 5], .pollFailed, .steer (some approval), .steer (some approval), .poll [rowAt (js "a") 5],
    .steer (some approval), .settled 0 true]

/-- A held steer goes out by a drain, once its session has left the list; and a session's third
    steer goes out before its second. -/
theorem steers_lost :
    (∃ item ∈ (runFrom step .new movedOn).steerQueue, item.status = .stale ∧
      ∃ post ∈ (runFrom step .new (movedOn ++ [.pollFailed, .poll [rowAt (js "b") 1]])).posted,
        post.number = item.number ∧ post.route = .drain) ∧
    ((runFrom step .new overtaken).posted.filter (unconfirmed (js "a"))).map Post.number = [0, 2, 1] := by
  decide

end Ccctl.WebUi
