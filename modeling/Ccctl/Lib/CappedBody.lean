import Ccctl.Lib.Reach
/-
  Ccctl.Lib.CappedBody — a body read chunk by chunk under a cap, and answered once.

  The reader keeps the chunks until the body ends, breaks, or outgrows the cap, and answers at the
  first of these; what comes later is passed over. A break may be answered with nothing.

  In every order of events the answers are the verdict of the events (`answers_eq`), so there is at
  most one, and what is kept is never more than the cap (`kept_le`). The verdict of a body that ends
  depends on its bytes alone, not on how they were cut (`verdict_ended`).
-/

namespace Ccctl.Lib.CappedBody

variable {β α : Type}

structure Rules (β α : Type) where
  cap : Nat
  tooLong : α
  whole : List β → α
  broken : Option α

inductive Event (β : Type) where
  | data (chunk : List β)
  | ended
  | broken

structure Reader (β α : Type) where
  chunks : List (List β)
  size : Nat
  settled : Bool
  answers : List α
  destroyed : Bool

def Reader.new : Reader β α := ⟨[], 0, false, [], false⟩

variable (rules : Rules β α)

def step (s : Reader β α) (e : Event β) : Reader β α :=
  if s.settled then s
  else
    match e with
    | .data chunk =>
      let s := { s with size := s.size + chunk.length }
      if rules.cap < s.size then { s with settled := true, answers := s.answers ++ [rules.tooLong], destroyed := true }
      else { s with chunks := s.chunks ++ [chunk] }
    | .ended => { s with settled := true, answers := s.answers ++ [rules.whole s.chunks.flatten] }
    | .broken => { s with settled := true, answers := s.answers ++ rules.broken.toList }

/-- What is answered, after the bytes taken so far. -/
def verdict (taken : List β) : List (Event β) → Option α
  | [] => none
  | .data chunk :: events =>
    if rules.cap < (taken ++ chunk).length then some rules.tooLong else verdict (taken ++ chunk) events
  | .ended :: _ => some (rules.whole taken)
  | .broken :: _ => rules.broken

variable {rules}

theorem step_settled {s : Reader β α} (h : s.settled = true) (e : Event β) : step rules s e = s := if_pos h

theorem run_settled {s : Reader β α} (h : s.settled = true) (events : List (Event β)) :
    runFrom (step rules) s events = s := by
  induction events with
  | nil => rfl
  | cons e events ih =>
    show runFrom (step rules) (step rules s e) events = s
    rw [step_settled h, ih]

/-- Nothing is answered yet, and every chunk is kept. -/
structure Open (s : Reader β α) : Prop where
  open_ : s.settled = false
  none : s.answers = []
  size : s.size = s.chunks.flatten.length

theorem new_open : Open (Reader.new : Reader β α) := ⟨rfl, rfl, rfl⟩

theorem step_data {s : Reader β α} (h : Open s) (chunk : List β) :
    step rules s (.data chunk) =
      if rules.cap < (s.chunks.flatten ++ chunk).length then
        { s with size := s.size + chunk.length, settled := true, answers := [rules.tooLong], destroyed := true }
      else { s with size := s.size + chunk.length, chunks := s.chunks ++ [chunk] } := by
  have hsize : s.size + chunk.length = (s.chunks.flatten ++ chunk).length := by rw [h.size, List.length_append]
  simp only [step, h.open_, h.none, hsize, List.nil_append, Bool.false_eq_true, if_false]

theorem Open.data {s : Reader β α} (h : Open s) (chunk : List β) :
    Open { s with size := s.size + chunk.length, chunks := s.chunks ++ [chunk] } := by
  refine ⟨h.open_, h.none, ?_⟩
  simp [h.size]

theorem Open.answers {s : Reader β α} (h : Open s) (events : List (Event β)) :
    (runFrom (step rules) s events).answers = (verdict rules s.chunks.flatten events).toList := by
  induction events generalizing s with
  | nil => exact h.none
  | cons e events ih =>
    show (runFrom (step rules) (step rules s e) events).answers = _
    cases e with
    | data chunk =>
      rw [step_data h, verdict]
      split
      · rw [run_settled rfl]
        rfl
      · rw [ih (h.data chunk)]
        simp
    | ended =>
      have hstep : step rules s .ended = { s with settled := true, answers := [rules.whole s.chunks.flatten] } := by
        simp [step, h.open_, h.none]
      rw [hstep, run_settled rfl]
      rfl
    | broken =>
      have hstep : step rules s .broken = { s with settled := true, answers := rules.broken.toList } := by
        simp [step, h.open_, h.none]
      rw [hstep, run_settled rfl]
      rfl

theorem answers_eq (rules : Rules β α) (events : List (Event β)) :
    (runFrom (step rules) Reader.new events).answers = (verdict rules [] events).toList := new_open.answers events

/-- What is kept fits. -/
structure Fits (rules : Rules β α) (s : Reader β α) : Prop where
  kept : s.chunks.flatten.length ≤ rules.cap
  size : s.settled = false → s.size = s.chunks.flatten.length
  destroyed : s.destroyed = true → rules.tooLong ∈ s.answers

theorem Fits.step {s : Reader β α} (h : Fits rules s) (e : Event β) : Fits rules (step rules s e) := by
  unfold CappedBody.step
  split
  · exact h
  · rename_i hopen
    have hsize := h.size (Bool.not_eq_true _ ▸ hopen)
    cases e with
    | data chunk =>
      dsimp only
      split
      · exact ⟨h.kept, fun hnot => (by cases hnot), fun _ => by simp⟩
      · rename_i hcap
        have hlength : (s.chunks ++ [chunk]).flatten.length = s.size + chunk.length := by simp [hsize]
        refine ⟨?_, fun _ => hlength.symm, h.destroyed⟩
        rw [hlength]
        exact Nat.le_of_not_lt hcap
    | ended =>
      exact ⟨h.kept, fun hnot => (by cases hnot), fun hdestroyed => List.mem_append_left _ (h.destroyed hdestroyed)⟩
    | broken =>
      exact ⟨h.kept, fun hnot => (by cases hnot), fun hdestroyed => List.mem_append_left _ (h.destroyed hdestroyed)⟩

theorem run_fits (rules : Rules β α) (events : List (Event β)) : Fits rules (runFrom (step rules) Reader.new events) := by
  have hstart : Reach (step rules) (· = Reader.new) anyEvent Reader.new := .start rfl
  refine hstart.run.inv (fun s hs => ?_) fun s e hs _ => hs.step e
  subst hs
  exact ⟨Nat.zero_le _, fun _ => rfl, fun hdestroyed => (by cases hdestroyed)⟩

/-- However the bytes of an ended body are cut. -/
theorem verdict_ended (taken : List β) (chunks : List (List β)) (later : List (Event β))
    (htaken : taken.length ≤ rules.cap) :
    verdict rules taken (chunks.map .data ++ .ended :: later) =
      some (if rules.cap < (taken ++ chunks.flatten).length then rules.tooLong else rules.whole (taken ++ chunks.flatten)) := by
  induction chunks generalizing taken with
  | nil =>
    rw [List.flatten_nil, List.append_nil, if_neg (Nat.not_lt.mpr htaken)]
    rfl
  | cons chunk chunks ih =>
    rw [List.map_cons, List.cons_append, verdict, List.flatten_cons, ← List.append_assoc]
    split
    · rename_i hcap
      have hlong : rules.cap < (taken ++ chunk ++ chunks.flatten).length := by
        rw [List.length_append]
        omega
      rw [if_pos hlong]
    · rename_i hcap
      exact ih (taken ++ chunk) (Nat.le_of_not_lt hcap)

/-- Only chunks within the cap, or a break that is answered with nothing. -/
inductive Silent (rules : Rules β α) : List (Event β) → Prop where
  | waiting {chunks : List (List β)} : chunks.flatten.length ≤ rules.cap → Silent rules (chunks.map .data)
  | broken {chunks : List (List β)} (later : List (Event β)) : rules.broken = none → chunks.flatten.length ≤ rules.cap →
      Silent rules (chunks.map .data ++ .broken :: later)

theorem verdict_none_cases {taken : List β} {events : List (Event β)} (htaken : taken.length ≤ rules.cap)
    (h : verdict rules taken events = none) :
    ∃ chunks : List (List β), (taken ++ chunks.flatten).length ≤ rules.cap ∧
      (events = chunks.map .data ∨ rules.broken = none ∧ ∃ later, events = chunks.map .data ++ .broken :: later) := by
  induction events generalizing taken with
  | nil => exact ⟨[], by simpa using htaken, .inl rfl⟩
  | cons e events ih =>
    cases e with
    | data chunk =>
      rw [verdict] at h
      split at h
      · cases h
      · rename_i hcap
        obtain ⟨chunks, hfits, hevents⟩ := ih (Nat.le_of_not_lt hcap) h
        refine ⟨chunk :: chunks, by simpa using hfits, ?_⟩
        rcases hevents with rfl | ⟨hbroken, later, rfl⟩
        · exact .inl rfl
        · exact .inr ⟨hbroken, later, rfl⟩
    | ended => cases h
    | broken => exact ⟨[], by simpa using htaken, .inr ⟨h, events, rfl⟩⟩

theorem verdict_data {taken : List β} {chunks : List (List β)} (h : (taken ++ chunks.flatten).length ≤ rules.cap)
    (events : List (Event β)) :
    verdict rules taken (chunks.map .data ++ events) = verdict rules (taken ++ chunks.flatten) events := by
  induction chunks generalizing taken with
  | nil => simp
  | cons chunk chunks ih =>
    rw [List.flatten_cons, ← List.append_assoc] at h
    have hfits : ¬ rules.cap < (taken ++ chunk).length := by
      rw [List.length_append] at h
      omega
    rw [List.map_cons, List.cons_append, verdict, if_neg hfits, ih h, List.flatten_cons, List.append_assoc]

theorem verdict_none_iff (events : List (Event β)) : verdict rules [] events = none ↔ Silent rules events := by
  constructor
  · intro h
    obtain ⟨chunks, hfits, hevents⟩ := verdict_none_cases (Nat.zero_le _) h
    rcases hevents with rfl | ⟨hbroken, later, rfl⟩
    · exact .waiting hfits
    · exact .broken later hbroken hfits
  · intro h
    cases h with
    | @waiting chunks hfits =>
      have hfits : ([] ++ chunks.flatten).length ≤ rules.cap := hfits
      have hrun := verdict_data hfits []
      rwa [List.append_nil] at hrun
    | @broken chunks later hbroken hfits =>
      have hfits : ([] ++ chunks.flatten).length ≤ rules.cap := hfits
      rw [verdict_data hfits]
      exact hbroken

end Ccctl.Lib.CappedBody
