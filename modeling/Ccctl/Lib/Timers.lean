import Ccctl.Lib.OrdMap
import Mathlib.Logic.Function.Basic
/-
  Ccctl.Lib.Timers — one-shot and interval timers, and the handles a program keeps to them.

  A host's table maps each armed timer's handle to when it is due and what it calls. A program
  stores handles in fields of its own, one per callback: `owner k` is what the field of `k` holds.
  `Armed owner timers next` says the two never drift apart: the field names a handle exactly when
  that handle is armed with that callback, and handles are minted below `next`. So no timer is
  armed that nobody can clear, and no field names a timer that is gone.

  The four ways to change both sides together: clear (`Armed.clear`), arm an empty field
  (`Armed.arm`), let an interval go on (`Armed.rearm`), mint for something else (`Armed.mono`).
-/

namespace Ccctl.Lib

structure Timer (κ : Type) where
  due : Nat
  callback : κ
  deriving DecidableEq, Repr

variable {κ : Type}

/-- The delay a host keeps: one it cannot count to is a single millisecond. -/
def timeoutDelay (ms : Nat) : Nat := if 1 ≤ ms ∧ ms ≤ 2147483647 then ms else 1

/-- Clearing a handle that may be null. -/
def cleared (timers : OrdMap Nat (Timer κ)) : Option Nat → OrdMap Nat (Timer κ)
  | none => timers
  | some t => timers.erase t

structure Armed (owner : κ → Option Nat) (timers : OrdMap Nat (Timer κ)) (next : Nat) : Prop where
  owned : ∀ k t, owner k = some t ↔ ∃ due, timers.get t = some ⟨due, k⟩
  fresh : ∀ t timer, timers.get t = some timer → t < next

namespace Armed

variable {owner : κ → Option Nat} {timers : OrdMap Nat (Timer κ)} {next : Nat}

theorem empty (next : Nat) : Armed (fun _ : κ => none) OrdMap.empty next :=
  ⟨fun k t => by simp, fun t timer h => by simp at h⟩

theorem get_of_owner (h : Armed owner timers next) {k : κ} {t : Nat} (hk : owner k = some t) :
    ∃ due, timers.get t = some ⟨due, k⟩ := (h.owned k t).mp hk

theorem owner_of_get (h : Armed owner timers next) {t due : Nat} {k : κ} (ht : timers.get t = some ⟨due, k⟩) :
    owner k = some t := (h.owned k t).mpr ⟨due, ht⟩

/-- A handle is in one field only. -/
theorem owner_inj (h : Armed owner timers next) {k l : κ} {t : Nat} (hk : owner k = some t) (hl : owner l = some t) :
    k = l := by
  obtain ⟨d, hd⟩ := h.get_of_owner hk
  obtain ⟨d', hd'⟩ := h.get_of_owner hl
  rw [hd] at hd'
  cases hd'
  rfl

theorem get_next (h : Armed owner timers next) : timers.get next = none := by
  cases hg : timers.get next with
  | none => rfl
  | some timer => exact absurd (h.fresh _ _ hg) (Nat.lt_irrefl _)

theorem mono (h : Armed owner timers next) {next' : Nat} (hle : next ≤ next') : Armed owner timers next' :=
  ⟨h.owned, fun t timer ht => Nat.lt_of_lt_of_le (h.fresh t timer ht) hle⟩

variable [DecidableEq κ]

theorem clear (h : Armed owner timers next) (k : κ) :
    Armed (Function.update owner k none) (cleared timers (owner k)) next := by
  cases hk : owner k with
  | none =>
    have hsame : Function.update owner k none = owner := by rw [← hk, Function.update_eq_self]
    rw [hsame]
    exact h
  | some t =>
    refine ⟨?_, fun u timer hu => h.fresh u timer (OrdMap.get_erase_of_some hu).2⟩
    intro l u
    have hget : (cleared timers (some t)).get u = if u = t then none else timers.get u := OrdMap.get_erase _ _ _
    rw [hget]
    by_cases hl : l = k
    · subst hl
      rw [Function.update_self]
      refine iff_of_false (by simp) ?_
      intro hex
      obtain ⟨due, hd⟩ := hex
      by_cases hu : u = t
      · rw [if_pos hu] at hd
        cases hd
      · rw [if_neg hu] at hd
        have hown := h.owner_of_get hd
        rw [hk, Option.some.injEq] at hown
        exact absurd hown.symm hu
    · rw [Function.update_of_ne hl, h.owned l u]
      by_cases hu : u = t
      · subst hu
        rw [if_pos rfl]
        refine iff_of_false (fun hd => hl (h.owner_inj ((h.owned l u).mpr hd) hk)) ?_
        intro hex
        obtain ⟨due, hd⟩ := hex
        cases hd
      · rw [if_neg hu]

omit [DecidableEq κ] in
/-- Clearing every field of `P` at once. -/
theorem clear_all (h : Armed owner timers next) (P : κ → Prop) [DecidablePred P] {timers' : OrdMap Nat (Timer κ)}
    (hget : ∀ t timer, timers'.get t = some timer ↔ timers.get t = some timer ∧ ¬ P timer.callback) :
    Armed (fun k => if P k then none else owner k) timers' next := by
  refine ⟨?_, fun t timer ht => h.fresh t timer ((hget t timer).mp ht).1⟩
  intro k t
  by_cases hk : P k
  · simp [hget, hk]
  · simp [hget, hk, h.owned k t]

theorem arm (h : Armed owner timers next) {k : κ} (hk : owner k = none) (due : Nat) :
    Armed (Function.update owner k (some next)) (timers.set next ⟨due, k⟩) (next + 1) := by
  refine ⟨?_, ?_⟩
  · intro l u
    rw [OrdMap.get_set]
    by_cases hl : l = k
    · subst hl
      rw [Function.update_self, Option.some.injEq]
      by_cases hu : u = next
      · simp [hu]
      · rw [if_neg hu]
        refine iff_of_false (fun hn => hu hn.symm) ?_
        intro hex
        obtain ⟨d, hd⟩ := hex
        rw [h.owner_of_get hd] at hk
        cases hk
    · rw [Function.update_of_ne hl, h.owned l u]
      by_cases hu : u = next
      · subst hu
        rw [if_pos rfl, h.get_next]
        refine iff_of_false (by simp) ?_
        intro hex
        obtain ⟨d, hd⟩ := hex
        simp only [Option.some.injEq, Timer.mk.injEq] at hd
        exact hl hd.2.symm
      · rw [if_neg hu]
  · intro u timer hu
    rw [OrdMap.get_set] at hu
    split at hu
    · omega
    · exact Nat.lt_succ_of_lt (h.fresh u timer hu)

omit [DecidableEq κ] in
theorem rearm (h : Armed owner timers next) {k : κ} {t : Nat} (hk : owner k = some t) (due : Nat) :
    Armed owner (timers.set t ⟨due, k⟩) next := by
  obtain ⟨d, hd⟩ := h.get_of_owner hk
  refine ⟨?_, ?_⟩
  · intro l u
    rw [h.owned l u, OrdMap.get_set]
    by_cases hu : u = t
    · subst hu
      simp [hd]
    · rw [if_neg hu]
  · intro u timer hu
    rw [OrdMap.get_set] at hu
    split at hu
    · rename_i hut
      subst hut
      exact h.fresh u _ hd
    · exact h.fresh u timer hu

end Armed

end Ccctl.Lib
