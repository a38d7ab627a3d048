import Mathlib.Data.List.Pairwise
import Mathlib.Tactic.Common
/-
  Ccctl.Lib.Feed — a feed of numbered items with a bounded tail kept for those who come back.

  A feed is the list of everything it carried; item `i` (from 1) has the number `i` (`numbered`).
  `retained bound` is what a bounded buffer of it holds. A reader joins at some length and may
  bring the number of the last item it saw; `readFrom` is the first number it is to see.

  The rules: pushing and then shifting past the bound retains the longer feed (`retained_push`);
  what a buffer replays past a cursor is the feed from `readFrom` on (`replayed_eq`), and what
  comes after extends it with no seam (`numbered_append`, `drop_numbered_append`). An item keeps its
  place as the feed grows (`getElem?_kept`, `getElem?_concat_cases`), and of two items of an
  ordered feed one comes first (`pairwise_either`).
-/

namespace Ccctl.Lib

variable {α : Type}

/-- Consecutive numbers from `n`. -/
def numbered (n : Nat) (feed : List α) : List (Nat × α) := (feed.zipIdx n).map Prod.swap

/-- The last `bound` items of the feed. -/
def retained (bound : Nat) (feed : List α) : List (Nat × α) := (numbered 1 feed).drop (feed.length - bound)

/-- A cursor within the feed resumes after itself, or at the oldest item retained; without one, or
    past the end, the reader starts with what comes next. -/
def readFrom (bound joined : Nat) : Option Int → Nat
  | none => joined + 1
  | some cursor => if cursor ≤ joined then max (cursor + 1).toNat (joined - bound + 1) else joined + 1

theorem getElem?_kept {feed later : List α} (h : feed <+: later) {i : Nat} {a : α} (hi : feed[i]? = some a) :
    later[i]? = some a := by
  obtain ⟨rest, rfl⟩ := h
  rw [List.getElem?_append_left (List.getElem?_eq_some_iff.mp hi).1, hi]

/-- An item of a feed that grew by one was there, or is the one. -/
theorem getElem?_concat_cases {feed : List α} {last a : α} {i : Nat} (h : (feed ++ [last])[i]? = some a) :
    feed[i]? = some a ∨ i = feed.length ∧ last = a := by
  rcases Nat.lt_trichotomy i feed.length with hlt | rfl | hgt
  · exact .inl (by rwa [List.getElem?_append_left hlt] at h)
  · exact .inr ⟨rfl, by simpa using h⟩
  · rw [List.getElem?_append_right (by omega), List.getElem?_eq_none (by simp; omega)] at h
    cases h

/-- Of two items of an ordered feed, one comes first. -/
theorem pairwise_either {R : α → α → Prop} {feed : List α} (h : feed.Pairwise R) {a b : α} (ha : a ∈ feed) (hb : b ∈ feed)
    (hne : a ≠ b) : R a b ∨ R b a := by
  have hsymm : Std.Symm fun a b => R a b ∨ R b a := ⟨fun _ _ => Or.symm⟩
  have heither : feed.Pairwise fun a b => R a b ∨ R b a := h.imp Or.inl
  exact heither.forall ha hb hne

theorem numbered_cons (n : Nat) (a : α) (feed : List α) :
    numbered n (a :: feed) = (n, a) :: numbered (n + 1) feed := rfl

@[simp] theorem length_numbered (n : Nat) (feed : List α) : (numbered n feed).length = feed.length := by
  simp [numbered]

theorem numbered_append (n : Nat) (feed later : List α) :
    numbered n (feed ++ later) = numbered n feed ++ numbered (n + feed.length) later := by
  simp [numbered, List.zipIdx_append]

/-- The numbers are consecutive. -/
theorem numbered_fst (n : Nat) (feed : List α) : (numbered n feed).map Prod.fst = List.range' n feed.length := by
  simp [numbered, List.map_map, Function.comp_def]

/-- The last item's number is the feed's length. -/
theorem getLast_numbered (before : List (Nat × α)) {feed : List α} (hne : feed ≠ []) :
    (before ++ numbered 1 feed).getLast?.map Prod.fst = some feed.length := by
  rcases List.eq_nil_or_concat feed with hnil | ⟨init, a, rfl⟩
  · exact absurd hnil hne
  · rw [List.concat_eq_append, numbered_append, ← List.append_assoc]
    show ((before ++ numbered 1 init) ++ [(1 + init.length, a)]).getLast?.map Prod.fst = _
    rw [List.getLast?_append, List.length_append, Nat.add_comm 1]
    rfl

theorem drop_numbered (n k : Nat) (feed : List α) : (numbered n feed).drop k = numbered (n + k) (feed.drop k) := by
  induction feed generalizing n k with
  | nil => simp [numbered]
  | cons a feed ih =>
    cases k with
    | zero => rfl
    | succ k =>
      rw [numbered_cons, List.drop_succ_cons, List.drop_succ_cons, ih]
      congr 1
      omega

/-- A reader that has not fallen behind the end sees the next item at its own end. -/
theorem drop_numbered_append (feed : List α) (a : α) {k : Nat} (hk : k ≤ feed.length) :
    (numbered 1 (feed ++ [a])).drop k = (numbered 1 feed).drop k ++ [(feed.length + 1, a)] := by
  rw [numbered_append, List.drop_append_of_le_length (by simpa using hk)]
  show _ ++ [(1 + feed.length, a)] = _
  rw [Nat.add_comm 1]

theorem retained_push (bound : Nat) (feed : List α) (a : α) :
    (let pushed := retained bound feed ++ [(feed.length + 1, a)]
     if bound < pushed.length then pushed.tail else pushed) = retained bound (feed ++ [a]) := by
  have hpushed : retained bound feed ++ [(feed.length + 1, a)] =
      (numbered 1 (feed ++ [a])).drop (feed.length - bound) :=
    (drop_numbered_append feed a (Nat.sub_le _ _)).symm
  have hlength : ((numbered 1 (feed ++ [a])).drop (feed.length - bound)).length =
      feed.length + 1 - (feed.length - bound) := by
    simp
  show (if bound < _ then _ else _) = _
  rw [hpushed, hlength]
  unfold retained
  rw [List.length_append, List.length_singleton]
  split
  case isTrue hover =>
    rw [List.tail_drop]
    congr 1
    omega
  case isFalse hroom =>
    congr 1
    omega

/-- Past a cursor there is the feed from the next number on. -/
theorem filter_numbered (n : Nat) (cursor : Int) (feed : List α) :
    ((numbered n feed).filter fun e => cursor < e.1) = (numbered n feed).drop ((cursor + 1).toNat - n) := by
  induction feed generalizing n with
  | nil => simp [numbered]
  | cons a feed ih =>
    rw [numbered_cons]
    by_cases hc : cursor < n
    · have hall : ((cursor + 1).toNat - n) = 0 := by omega
      have hall' : ((cursor + 1).toNat - (n + 1)) = 0 := by omega
      rw [List.filter_cons_of_pos (by simpa using hc), ih, hall, hall']
      rfl
    · obtain ⟨k, hk⟩ : ∃ k, (cursor + 1).toNat - n = k + 1 := ⟨(cursor + 1).toNat - n - 1, by omega⟩
      have hk' : (cursor + 1).toNat - (n + 1) = k := by omega
      rw [List.filter_cons_of_neg (by simpa using hc), ih, hk, hk', List.drop_succ_cons]

theorem readFrom_pos (bound joined : Nat) (cursor : Option Int) : 0 < readFrom bound joined cursor := by
  cases cursor with
  | none => exact Nat.succ_pos _
  | some cursor =>
    simp only [readFrom]
    split <;> omega

theorem readFrom_le (bound joined : Nat) (cursor : Option Int) : readFrom bound joined cursor ≤ joined + 1 := by
  cases cursor with
  | none => exact Nat.le_refl _
  | some cursor =>
    simp only [readFrom]
    split <;> omega

/-- What the buffer replays to a reader, whatever cursor it brings. -/
theorem replayed_eq (bound : Nat) (feed : List α) (cursor : Option Int) :
    (match cursor with
      | none => []
      | some last => (retained bound feed).filter fun e => last < e.1)
      = (numbered 1 feed).drop (readFrom bound feed.length cursor - 1) := by
  have hend {k : Nat} (hk : feed.length ≤ k) : (numbered 1 feed).drop k = [] :=
    List.drop_eq_nil_of_le (by simpa using hk)
  cases cursor with
  | none => exact (hend (Nat.le_refl _)).symm
  | some last =>
    show (retained bound feed).filter _ = _
    simp only [retained, readFrom]
    rw [drop_numbered, filter_numbered, ← drop_numbered, List.drop_drop]
    split
    case isTrue hin =>
      congr 1
      omega
    case isFalse hpast =>
      rw [hend (by omega), hend (by omega)]

end Ccctl.Lib
