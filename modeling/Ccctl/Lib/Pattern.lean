import Mathlib.Data.List.Basic
import Mathlib.Tactic.Common
/-
  Ccctl.Lib.Pattern — regular expressions matched by backtracking, over units of any kind.

  `succeeds` lists every way a pattern takes a front of a text, in the order a backtracking matcher
  tries them: the left branch first, the longer run first. `exec` is the first of these that takes
  the whole text, as `^…$` asks. `Parses` says what a pattern means with no order in it.

  - `mem_succeeds`: the two agree.
  - `exec_parses`, `exec_eq_none`: what `exec` answers is a parse, and it finds one if there is one.
  - `exec_settled`: where the text leaves no choice of groups, `exec` answers those.
-/

namespace Ccctl.Lib

inductive Pattern (α : Type) where
  | done
  | unit (p : α → Bool)
  /-- `p*`, greedy. -/
  | run (p : α → Bool)
  | seq (a b : Pattern α)
  | alt (a b : Pattern α)
  | group (a : Pattern α)

/-- One way to take a front of a text: what was taken, what its groups hold, what is left. -/
structure Success (α : Type) where
  text : List α
  groups : List (List α)
  rest : List α

/-- The runs of units of `p`, the longest first. -/
def runs {α : Type} (p : α → Bool) : List α → List (Success α)
  | [] => [⟨[], [], []⟩]
  | u :: rest =>
    (if p u then (runs p rest).map fun x => { x with text := u :: x.text } else []) ++ [⟨[], [], u :: rest⟩]

namespace Pattern

variable {α : Type}

def succeeds : Pattern α → List α → List (Success α)
  | .done, s => [⟨[], [], s⟩]
  | .unit _, [] => []
  | .unit p, u :: rest => if p u then [⟨[u], [], rest⟩] else []
  | .run p, s => runs p s
  | .seq a b, s => (a.succeeds s).flatMap fun x =>
      (b.succeeds x.rest).map fun y => ⟨x.text ++ y.text, x.groups ++ y.groups, y.rest⟩
  | .alt a b, s => a.succeeds s ++ b.succeeds s
  | .group a, s => (a.succeeds s).map fun x => { x with groups := x.text :: x.groups }

/-- `/^r$/.exec(s)`: the groups, in the order they open. -/
def exec (r : Pattern α) (s : List α) : Option (List (List α)) :=
  ((r.succeeds s).find? fun x => x.rest.isEmpty).map Success.groups

def Parses : Pattern α → List α → List (List α) → Prop
  | .done, s, gs => s = [] ∧ gs = []
  | .unit p, s, gs => gs = [] ∧ ∃ u, p u = true ∧ s = [u]
  | .run p, s, gs => gs = [] ∧ ∀ u ∈ s, p u = true
  | .seq a b, s, gs => ∃ s₁ s₂ gs₁ gs₂, s = s₁ ++ s₂ ∧ gs = gs₁ ++ gs₂ ∧ a.Parses s₁ gs₁ ∧ b.Parses s₂ gs₂
  | .alt a b, s, gs => a.Parses s gs ∨ b.Parses s gs
  | .group a, s, gs => ∃ inner, gs = s :: inner ∧ a.Parses s inner

variable {a b : Pattern α} {p : α → Bool} {s : List α} {gs : List (List α)}

theorem parses_done : (done : Pattern α).Parses s gs ↔ s = [] ∧ gs = [] := Iff.rfl

theorem parses_unit : (unit p).Parses s gs ↔ gs = [] ∧ ∃ u, p u = true ∧ s = [u] := Iff.rfl

theorem parses_run : (run p).Parses s gs ↔ gs = [] ∧ ∀ u ∈ s, p u = true := Iff.rfl

theorem parses_seq : (seq a b).Parses s gs ↔
    ∃ s₁ s₂ gs₁ gs₂, s = s₁ ++ s₂ ∧ gs = gs₁ ++ gs₂ ∧ a.Parses s₁ gs₁ ∧ b.Parses s₂ gs₂ := Iff.rfl

theorem parses_alt : (alt a b).Parses s gs ↔ a.Parses s gs ∨ b.Parses s gs := Iff.rfl

theorem parses_group : (group a).Parses s gs ↔ ∃ inner, gs = s :: inner ∧ a.Parses s inner := Iff.rfl

/-! ## The order changes nothing -/

theorem mem_runs {p : α → Bool} {s : List α} {x : Success α} :
    x ∈ runs p s ↔ x.text ++ x.rest = s ∧ x.groups = [] ∧ ∀ u ∈ x.text, p u = true := by
  induction s generalizing x with
  | nil =>
    obtain ⟨text, groups, rest⟩ := x
    simp only [runs, List.mem_singleton, Success.mk.injEq, List.append_eq_nil_iff]
    constructor
    · intro hparts
      obtain ⟨rfl, rfl, rfl⟩ := hparts
      exact ⟨⟨rfl, rfl⟩, rfl, by simp⟩
    · intro hex
      obtain ⟨⟨rfl, rfl⟩, rfl, -⟩ := hex
      exact ⟨rfl, rfl, rfl⟩
  | cons u s ih =>
    obtain ⟨text, groups, rest⟩ := x
    rw [runs, List.mem_append, List.mem_singleton]
    constructor
    · intro h
      rcases h with h | h
      · split at h
        · rename_i hu
          obtain ⟨y, hy, hmk⟩ := List.mem_map.mp h
          obtain ⟨htext, hgroups, hall⟩ := ih.mp hy
          cases hmk
          refine ⟨congrArg (u :: ·) htext, hgroups, fun w hw => ?_⟩
          rcases List.mem_cons.mp hw with rfl | hw
          · exact hu
          · exact hall w hw
        · cases h
      · cases h
        exact ⟨rfl, rfl, by simp⟩
    · intro hfacts
      obtain ⟨htext, hgroups, hall⟩ := hfacts
      cases text with
      | nil => exact Or.inr (by simpa using And.intro hgroups htext)
      | cons w text =>
        obtain ⟨rfl, htail⟩ := List.cons.inj htext
        refine Or.inl ?_
        rw [if_pos (hall w (by simp)), List.mem_map]
        exact ⟨⟨text, groups, rest⟩, ih.mpr ⟨htail, hgroups, fun v hv => hall v (by simp [hv])⟩, rfl⟩

theorem mem_succeeds {r : Pattern α} {s : List α} {x : Success α} :
    x ∈ r.succeeds s ↔ x.text ++ x.rest = s ∧ r.Parses x.text x.groups := by
  induction r generalizing s x with
  | done =>
    obtain ⟨text, groups, rest⟩ := x
    simp only [succeeds, parses_done, List.mem_singleton, Success.mk.injEq]
    constructor
    · intro hparts
      obtain ⟨rfl, rfl, rfl⟩ := hparts
      exact ⟨rfl, rfl, rfl⟩
    · intro hfacts
      obtain ⟨rfl, rfl, rfl⟩ := hfacts
      exact ⟨rfl, rfl, rfl⟩
  | unit p =>
    obtain ⟨text, groups, rest⟩ := x
    simp only [parses_unit]
    constructor
    · intro h
      cases s with
      | nil => cases h
      | cons u s =>
        rw [succeeds] at h
        split at h
        · rename_i hu
          cases List.mem_singleton.mp h
          exact ⟨rfl, rfl, u, hu, rfl⟩
        · cases h
    · intro hex
      obtain ⟨rfl, rfl, u, hu, rfl⟩ := hex
      rw [List.singleton_append, succeeds, if_pos hu]
      exact List.mem_singleton.mpr rfl
  | run p => exact mem_runs
  | seq a b iha ihb =>
    obtain ⟨text, groups, rest⟩ := x
    simp only [succeeds, parses_seq, List.mem_flatMap, List.mem_map]
    constructor
    · intro hex
      obtain ⟨y, hy, z, hz, hmk⟩ := hex
      obtain ⟨hsplit, ha⟩ := iha.mp hy
      obtain ⟨hrest, hb⟩ := ihb.mp hz
      cases hmk
      exact ⟨by rw [List.append_assoc, hrest, hsplit], _, _, _, _, rfl, rfl, ha, hb⟩
    · intro hex
      obtain ⟨hsplit, s₁, s₂, gs₁, gs₂, rfl, rfl, ha, hb⟩ := hex
      rw [List.append_assoc] at hsplit
      exact ⟨⟨s₁, gs₁, s₂ ++ rest⟩, iha.mpr ⟨hsplit, ha⟩, ⟨s₂, gs₂, rest⟩, ihb.mpr ⟨rfl, hb⟩, rfl⟩
  | alt a b iha ihb =>
    rw [succeeds, List.mem_append, iha, ihb, parses_alt]
    exact and_or_left.symm
  | group a ih =>
    obtain ⟨text, groups, rest⟩ := x
    simp only [succeeds, parses_group, List.mem_map]
    constructor
    · intro hex
      obtain ⟨y, hy, hmk⟩ := hex
      obtain ⟨hsplit, ha⟩ := ih.mp hy
      cases hmk
      exact ⟨hsplit, _, rfl, ha⟩
    · intro hex
      obtain ⟨hsplit, inner, rfl, ha⟩ := hex
      exact ⟨⟨text, inner, rest⟩, ih.mpr ⟨hsplit, ha⟩, rfl⟩

/-! ## `exec` -/

theorem exec_parses {r : Pattern α} {s : List α} {gs : List (List α)} (h : r.exec s = some gs) : r.Parses s gs := by
  obtain ⟨x, hx, rfl⟩ := Option.map_eq_some_iff.mp h
  have htaken := List.find?_some hx
  have hrest : x.rest = [] := List.isEmpty_iff.mp htaken
  obtain ⟨hsplit, hparses⟩ := mem_succeeds.mp (List.mem_of_find?_eq_some hx)
  rw [hrest, List.append_nil] at hsplit
  exact hsplit ▸ hparses

theorem exec_eq_none {r : Pattern α} {s : List α} : r.exec s = none ↔ ∀ gs, ¬ r.Parses s gs := by
  constructor
  · intro h gs hparses
    have hmem : (⟨s, gs, []⟩ : Success α) ∈ r.succeeds s := mem_succeeds.mpr ⟨List.append_nil s, hparses⟩
    rw [exec, Option.map_eq_none_iff, List.find?_eq_none] at h
    exact h _ hmem rfl
  · intro h
    cases hexec : r.exec s with
    | none => rfl
    | some gs => exact absurd (exec_parses hexec) (h gs)

theorem exec_settled {r : Pattern α} {s : List α} {gs : List (List α)} (h : r.Parses s gs)
    (hone : ∀ gs', r.Parses s gs' → gs' = gs) : r.exec s = some gs := by
  cases hexec : r.exec s with
  | none => exact absurd h (exec_eq_none.mp hexec gs)
  | some gs' => rw [hone gs' (exec_parses hexec)]

/-! ## Composed patterns -/

/-- `p+`. -/
def plus (p : α → Bool) : Pattern α := .seq (.unit p) (.run p)

/-- `(?:r)?`. -/
def optional (r : Pattern α) : Pattern α := .alt r .done

/-- `p{n}`. -/
def times (p : α → Bool) : Nat → Pattern α
  | 0 => .done
  | n + 1 => .seq (.unit p) (times p n)

def word [BEq α] : List α → Pattern α
  | [] => .done
  | u :: rest => .seq (.unit (· == u)) (word rest)

theorem parses_plus {p : α → Bool} {s : List α} {gs : List (List α)} :
    (plus p).Parses s gs ↔ gs = [] ∧ s ≠ [] ∧ ∀ u ∈ s, p u = true := by
  simp only [plus, parses_seq, parses_unit, parses_run]
  constructor
  · intro hex
    obtain ⟨_, s, _, _, rfl, rfl, ⟨rfl, u, hu, rfl⟩, rfl, hs⟩ := hex
    exact ⟨rfl, by simp, List.forall_mem_cons.mpr ⟨hu, hs⟩⟩
  · intro hparts
    obtain ⟨rfl, hne, hs⟩ := hparts
    cases s with
    | nil => exact absurd rfl hne
    | cons u s =>
      obtain ⟨hu, hs⟩ := List.forall_mem_cons.mp hs
      exact ⟨[u], s, [], [], rfl, rfl, ⟨rfl, u, hu, rfl⟩, rfl, hs⟩

theorem parses_times {p : α → Bool} {n : Nat} {s : List α} {gs : List (List α)} :
    (times p n).Parses s gs ↔ gs = [] ∧ s.length = n ∧ ∀ u ∈ s, p u = true := by
  induction n generalizing s gs with
  | zero =>
    rw [times, parses_done, List.length_eq_zero_iff]
    constructor
    · intro hboth
      obtain ⟨rfl, rfl⟩ := hboth
      exact ⟨rfl, rfl, by simp⟩
    · intro hparts
      obtain ⟨rfl, rfl, -⟩ := hparts
      exact ⟨rfl, rfl⟩
  | succ n ih =>
    simp only [times, parses_seq, parses_unit, ih]
    constructor
    · intro hex
      obtain ⟨_, s, _, _, rfl, rfl, ⟨rfl, u, hu, rfl⟩, rfl, hlen, hs⟩ := hex
      exact ⟨rfl, by simp [hlen], List.forall_mem_cons.mpr ⟨hu, hs⟩⟩
    · intro hfacts
      obtain ⟨rfl, hlen, hs⟩ := hfacts
      cases s with
      | nil => cases hlen
      | cons u s =>
        obtain ⟨hu, hs⟩ := List.forall_mem_cons.mp hs
        exact ⟨[u], s, [], [], rfl, rfl, ⟨rfl, u, hu, rfl⟩, rfl, Nat.succ.inj hlen, hs⟩

theorem parses_word [BEq α] [LawfulBEq α] {w s : List α} {gs : List (List α)} :
    (word w).Parses s gs ↔ s = w ∧ gs = [] := by
  induction w generalizing s gs with
  | nil => rfl
  | cons u w ih =>
    simp only [word, parses_seq, parses_unit, ih, beq_iff_eq]
    constructor
    · intro hex
      obtain ⟨_, _, _, _, rfl, rfl, ⟨rfl, v, rfl, rfl⟩, rfl, rfl⟩ := hex
      exact ⟨rfl, rfl⟩
    · intro hboth
      obtain ⟨rfl, rfl⟩ := hboth
      exact ⟨[u], w, [], [], rfl, rfl, ⟨rfl, u, rfl, rfl⟩, rfl, rfl⟩

theorem parses_optional {r : Pattern α} {s : List α} {gs : List (List α)} :
    (optional r).Parses s gs ↔ r.Parses s gs ∨ s = [] ∧ gs = [] := Iff.rfl

end Pattern

end Ccctl.Lib
