import Mathlib.Data.List.Basic
/-
  Ccctl.Lib.ShellWords — the words a shell reads off a command line, where the line tells them.

  Plain units, blanks and double quotes are read, as POSIX has them. Between the quotes a backslash
  goes before the units it can escape and stays before any other. Of a line that holds anything else
  (what may begin an expansion, an operator, another quote) nothing is said here: it has none.
-/

namespace Ccctl.Lib.ShellWords

abbrev Word := List UInt16

def isBlank (u : UInt16) : Bool := u == 0x20 || u == 0x09

/-- Letters, digits, what paths and options are made of, and all that is not ASCII. -/
def isPlain (u : UInt16) : Bool :=
  (0x61 ≤ u.toNat && u.toNat ≤ 0x7A) || (0x41 ≤ u.toNat && u.toNat ≤ 0x5A) || (0x2B ≤ u.toNat && u.toNat ≤ 0x3A) ||
    u == 0x5F || u == 0x25 || u == 0x40 || 0x80 ≤ u.toNat

/-- A dollar or a backquote may begin an expansion, quoted or not. -/
def expands (u : UInt16) : Bool := u == 0x24 || u == 0x60

/-- What a backslash escapes between quotes; a line feed goes with it. -/
def isEscapable (u : UInt16) : Bool := expands u || u == 0x22 || u == 0x5C

inductive Place where
  | between
  | bare (word : Word)
  | quoted (word : Word)
  | escaped (word : Word)
  deriving DecidableEq

structure Reader where
  words : List Word
  place : Place
  deriving DecidableEq

def started : Reader := ⟨[], .between⟩

/-- A unit of a word, outside quotes. -/
def enter (word : Word) (u : UInt16) : Option Place :=
  if u = 0x22 then some (.quoted word) else if isPlain u then some (.bare (word ++ [u])) else none

def step (r : Reader) (u : UInt16) : Option Reader :=
  match r.place with
  | .between => if isBlank u then some r else (enter [] u).map (⟨r.words, ·⟩)
  | .bare word => if isBlank u then some ⟨r.words ++ [word], .between⟩ else (enter word u).map (⟨r.words, ·⟩)
  | .quoted word =>
    if u = 0x22 then some ⟨r.words, .bare word⟩
    else if u = 0x5C then some ⟨r.words, .escaped word⟩
    else if expands u then none
    else some ⟨r.words, .quoted (word ++ [u])⟩
  | .escaped word =>
    if u = 0x0A then some ⟨r.words, .quoted word⟩
    else if isEscapable u then some ⟨r.words, .quoted (word ++ [u])⟩
    else some ⟨r.words, .quoted (word ++ [0x5C, u])⟩

def read (r : Reader) (line : List UInt16) : Option Reader := line.foldlM step r

/-- The words, when no quote is open at the end. -/
def Reader.ended (r : Reader) : Option (List Word) :=
  match r.place with
  | .between => some r.words
  | .bare word => some (r.words ++ [word])
  | .quoted _ | .escaped _ => none

def shellWords (line : List UInt16) : Option (List Word) := (read started line).bind Reader.ended

theorem read_append (r : Reader) (line later : List UInt16) :
    read r (line ++ later) = (read r line).bind fun r => read r later := List.foldlM_append

section
variable {words : List Word} {word : Word}

/-- Between quotes, units that stand for themselves. -/
theorem read_quoted {text : List UInt16} (h : ∀ u ∈ text, isEscapable u = false) :
    read ⟨words, .quoted word⟩ text = some ⟨words, .quoted (word ++ text)⟩ := by
  induction text generalizing word with
  | nil => simp [read]
  | cons u rest ih =>
    obtain ⟨hu, hrest⟩ := List.forall_mem_cons.mp h
    simp only [isEscapable, Bool.or_eq_false_iff, beq_eq_false_iff_ne] at hu
    have hstep : step ⟨words, .quoted word⟩ u = some ⟨words, .quoted (word ++ [u])⟩ := by
      simp [step, hu]
    rw [read, List.foldlM_cons, hstep]
    exact (ih hrest).trans (by rw [List.append_assoc]; rfl)

/-- An escape between quotes. -/
theorem read_escape {u : UInt16} (h : isEscapable u = true) :
    read ⟨words, .quoted word⟩ [0x5C, u] = some ⟨words, .quoted (word ++ [u])⟩ := by
  have hfeed : u ≠ 0x0A := by
    intro heq
    subst heq
    cases h
  simp [read, step, h, hfeed]

/-- A backslash that escapes nothing. -/
theorem read_backslash {u : UInt16} (h : isEscapable u = false) (hfeed : u ≠ 0x0A) :
    read ⟨words, .quoted word⟩ [0x5C, u] = some ⟨words, .quoted (word ++ [0x5C, u])⟩ := by
  simp [read, step, h, hfeed]

end

/-- Pieces between quotes, each read to what it stands for. -/
theorem read_pieces {α : Type} {piece heard : α → List UInt16} {items : List α} {words : List Word}
    (hread : ∀ a ∈ items, ∀ word, read ⟨words, .quoted word⟩ (piece a) = some ⟨words, .quoted (word ++ heard a)⟩)
    (word : Word) :
    read ⟨words, .quoted word⟩ (items.flatMap piece) = some ⟨words, .quoted (word ++ items.flatMap heard)⟩ := by
  induction items generalizing word with
  | nil => simp [read]
  | cons a items ih =>
    obtain ⟨ha, hitems⟩ := List.forall_mem_cons.mp hread
    rw [List.flatMap_cons, read_append, ha word, Option.bind_some, ih hitems, List.flatMap_cons, List.append_assoc]

end Ccctl.Lib.ShellWords
