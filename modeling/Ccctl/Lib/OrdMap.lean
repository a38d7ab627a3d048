import Mathlib.Data.List.Nodup
import Mathlib.Data.List.Perm.Subperm
import Mathlib.Tactic.Common
/-
  Ccctl.Lib.OrdMap — an insertion-ordered map with unique keys, the shape of the
  language's own `Map`.

  `entries` is the iteration order. `set` on a key already present rewrites its value
  where it stands; on a new key it appends. `erase` keeps the order of the rest. The
  field `nodup` makes a repeated key unbuildable, so reading the map by `get` and
  reading it by its entries agree (`get_eq_some`).

  Two kinds of lemma: what `get` sees after each operation (`get_set`, `get_erase`,
  `get_mapVals`), and what an iteration finds (`first_spec`, `first_eq_none`, `two_le_filter`).
-/

namespace Ccctl.Lib

structure OrdMap (κ ν : Type) where
  entries : List (κ × ν)
  nodup : (entries.map Prod.fst).Nodup

namespace OrdMap

variable {κ ν : Type} [DecidableEq κ]

def empty : OrdMap κ ν := ⟨[], List.nodup_nil⟩

def get (m : OrdMap κ ν) (k : κ) : Option ν := (m.entries.find? fun e => e.1 = k).map Prod.snd

def has (m : OrdMap κ ν) (k : κ) : Bool := (m.get k).isSome

def keys (m : OrdMap κ ν) : List κ := m.entries.map Prod.fst

def values (m : OrdMap κ ν) : List ν := m.entries.map Prod.snd

def size (m : OrdMap κ ν) : Nat := m.entries.length

/-- Every value rewritten where it stands, with its key in hand. -/
def mapVals (f : κ → ν → ν) (m : OrdMap κ ν) : OrdMap κ ν :=
  ⟨m.entries.map fun e => (e.1, f e.1 e.2), by simpa [List.map_map, Function.comp_def] using m.nodup⟩

def erase (m : OrdMap κ ν) (k : κ) : OrdMap κ ν :=
  ⟨m.entries.filter fun e => e.1 ≠ k, m.nodup.sublist (List.filter_sublist.map _)⟩

theorem get_eq_some {m : OrdMap κ ν} {k : κ} {v : ν} : m.get k = some v ↔ (k, v) ∈ m.entries := by
  obtain ⟨es, hnd⟩ := m
  unfold get
  induction es with
  | nil => simp
  | cons e es ih =>
    obtain ⟨k', v'⟩ := e
    simp only [List.map_cons, List.nodup_cons, List.mem_map, not_exists, not_and] at hnd
    by_cases hk : k' = k
    · subst hk
      simp only [List.find?_cons_of_pos, Option.map_some, Option.some.injEq, List.mem_cons, Prod.mk.injEq,
        true_and, decide_true]
      refine ⟨fun h => Or.inl h.symm, fun h => h.elim Eq.symm fun hm => ?_⟩
      exact absurd rfl (hnd.1 (k', v) hm)
    · have hk' : k ≠ k' := fun h => hk h.symm
      simp only [hk, decide_false, Bool.false_eq_true, not_false_eq_true, List.find?_cons_of_neg, List.mem_cons,
        Prod.mk.injEq, hk', false_and, false_or]
      exact ih hnd.2

theorem get_eq_none {m : OrdMap κ ν} {k : κ} : m.get k = none ↔ ∀ v, (k, v) ∉ m.entries := by
  constructor
  · intro h v hv
    rw [get_eq_some.mpr hv] at h
    cases h
  · intro h
    cases hg : m.get k with
    | none => rfl
    | some v => exact absurd (get_eq_some.mp hg) (h v)

theorem mem_keys {m : OrdMap κ ν} {k : κ} : k ∈ m.keys ↔ ∃ v, m.get k = some v := by
  simp only [keys, List.mem_map, get_eq_some]
  constructor
  · intro hex
    obtain ⟨⟨_, v⟩, h, rfl⟩ := hex
    exact ⟨v, h⟩
  · intro hex
    obtain ⟨v, h⟩ := hex
    exact ⟨(k, v), h, rfl⟩

theorem not_mem_keys {m : OrdMap κ ν} {k : κ} (h : m.get k = none) : k ∉ m.keys := by
  rw [mem_keys, h]
  intro hex
  obtain ⟨_, h⟩ := hex
  cases h

/-- A key is there once, or not at all. -/
theorem count_keys [BEq κ] [LawfulBEq κ] (m : OrdMap κ ν) (k : κ) :
    m.keys.count k = if m.get k = none then 0 else 1 := by
  split
  · exact List.count_eq_zero_of_not_mem (not_mem_keys ‹_›)
  · obtain ⟨v, hv⟩ := Option.ne_none_iff_exists'.mp ‹_›
    exact List.count_eq_one_of_mem m.nodup (mem_keys.mpr ⟨v, hv⟩)

/-- A key already present keeps its place; a new one goes last. -/
def set (m : OrdMap κ ν) (k : κ) (v : ν) : OrdMap κ ν :=
  if h : m.get k = none then
    ⟨m.entries ++ [(k, v)], by
      rw [List.map_append, List.nodup_append]
      refine ⟨m.nodup, by simp, ?_⟩
      intro a ha b hb heq
      subst heq
      obtain rfl : a = k := by simpa using hb
      exact not_mem_keys h ha⟩
  else m.mapVals fun k' v' => if k' = k then v else v'

/-! ## What `get` sees -/

@[simp] theorem get_empty (k : κ) : (empty : OrdMap κ ν).get k = none := rfl

theorem get_mapVals (f : κ → ν → ν) (m : OrdMap κ ν) (k : κ) : (m.mapVals f).get k = (m.get k).map (f k) := by
  ext v
  simp only [get_eq_some, mapVals, List.mem_map, Prod.mk.injEq, Option.map_eq_some_iff]
  constructor
  · intro hex
    obtain ⟨⟨k', v'⟩, hm, rfl, rfl⟩ := hex
    exact ⟨v', hm, rfl⟩
  · intro hex
    obtain ⟨v', hm, rfl⟩ := hex
    exact ⟨(k, v'), hm, rfl, rfl⟩

theorem get_set (m : OrdMap κ ν) (k l : κ) (v : ν) : (m.set k v).get l = if l = k then some v else m.get l := by
  unfold set
  split
  · rename_i hk
    ext w
    rw [get_eq_some]
    by_cases hl : l = k
    · subst hl
      simp only [List.mem_append, List.mem_singleton, Prod.mk.injEq, true_and, if_true, Option.some.injEq]
      exact ⟨fun h => h.elim (fun h => absurd h (get_eq_none.mp hk w)) Eq.symm, fun h => Or.inr h.symm⟩
    · simp [hl, get_eq_some]
  · rename_i hk
    rw [get_mapVals]
    by_cases hl : l = k
    · subst hl
      obtain ⟨w, hw⟩ := Option.ne_none_iff_exists'.mp hk
      simp [hw]
    · simp [hl]

@[simp] theorem get_set_self (m : OrdMap κ ν) (k : κ) (v : ν) : (m.set k v).get k = some v := by
  simp [get_set]

theorem get_set_ne (m : OrdMap κ ν) {k l : κ} (v : ν) (h : l ≠ k) : (m.set k v).get l = m.get l := by
  simp [get_set, h]

theorem get_erase (m : OrdMap κ ν) (k l : κ) : (m.erase k).get l = if l = k then none else m.get l := by
  ext v
  rw [get_eq_some]
  by_cases hl : l = k
  · simp [erase, hl]
  · simp [erase, hl, get_eq_some]

@[simp] theorem get_erase_self (m : OrdMap κ ν) (k : κ) : (m.erase k).get k = none := by
  simp [get_erase]

theorem get_erase_ne (m : OrdMap κ ν) {k l : κ} (h : l ≠ k) : (m.erase k).get l = m.get l := by
  simp [get_erase, h]

theorem get_set_of_none {m : OrdMap κ ν} {k l : κ} {v : ν} (h : (m.set k v).get l = none) :
    l ≠ k ∧ m.get l = none := by
  rw [get_set] at h
  split at h
  · cases h
  · exact ⟨‹_›, h⟩

theorem get_erase_of_some {m : OrdMap κ ν} {k l : κ} {v : ν} (h : (m.erase k).get l = some v) :
    l ≠ k ∧ m.get l = some v := by
  rw [get_erase] at h
  split at h
  · cases h
  · exact ⟨‹_›, h⟩

/-- A key the map does not hold: erasing it changes nothing. -/
theorem erase_of_none {m : OrdMap κ ν} {k : κ} (h : m.get k = none) : m.erase k = m := by
  obtain ⟨es, hnd⟩ := m
  simp only [erase, mk.injEq, List.filter_eq_self]
  rintro ⟨k', v⟩ hm
  have hne : k' ≠ k := by
    intro heq
    subst heq
    exact get_eq_none.mp h v hm
  simpa using hne

theorem has_eq_true {m : OrdMap κ ν} {k : κ} : m.has k = true ↔ ∃ v, m.get k = some v := by
  rw [has, Option.isSome_iff_exists]

theorem has_eq_false {m : OrdMap κ ν} {k : κ} : m.has k = false ↔ m.get k = none := by
  rw [has, Option.isSome_eq_false_iff, Option.isNone_iff_eq_none]

/-! ## What an iteration finds -/

/-- The first value, in iteration order, that `p` accepts. -/
def first (m : OrdMap κ ν) (p : ν → Bool) : Option ν := m.values.find? p

theorem first_spec {m : OrdMap κ ν} {p : ν → Bool} {v : ν} (h : m.first p = some v) :
    p v = true ∧ ∃ k, m.get k = some v := by
  refine ⟨List.find?_some h, ?_⟩
  obtain ⟨⟨k, w⟩, hm, rfl⟩ := List.mem_map.mp (List.mem_of_find?_eq_some h)
  exact ⟨k, get_eq_some.mpr hm⟩

theorem first_eq_none {m : OrdMap κ ν} {p : ν → Bool} (h : m.first p = none) {k : κ} {v : ν}
    (hk : m.get k = some v) : p v = false := by
  have hv : v ∈ m.values := List.mem_map.mpr ⟨(k, v), get_eq_some.mp hk, rfl⟩
  simpa using List.find?_eq_none.mp h v hv

theorem mem_values {m : OrdMap κ ν} {v : ν} : v ∈ m.values ↔ ∃ k, m.get k = some v := by
  simp only [values, List.mem_map, Prod.exists, get_eq_some, exists_eq_right]

/-- Two keys with values that `p` accepts are two values that `p` accepts. -/
theorem two_le_filter {m : OrdMap κ ν} {p : ν → Bool} {k l : κ} {v w : ν} (hkl : k ≠ l) (hk : m.get k = some v)
    (hl : m.get l = some w) (hv : p v = true) (hw : p w = true) : 2 ≤ (m.values.filter p).length := by
  have hsub : [(k, v), (l, w)] ⊆ m.entries.filter fun e => p e.2 := by
    intro e he
    rcases List.mem_cons.mp he with rfl | he
    · exact List.mem_filter.mpr ⟨get_eq_some.mp hk, hv⟩
    · rw [List.mem_singleton.mp he]
      exact List.mem_filter.mpr ⟨get_eq_some.mp hl, hw⟩
  have hnd : [(k, v), (l, w)].Nodup := by simp [hkl]
  have hlen := (hnd.subperm hsub).length_le
  rw [values, List.filter_map, List.length_map]
  exact hlen

end OrdMap

end Ccctl.Lib
