import Mathlib.Tactic.Common
/-
  Ccctl.Lib.Utf8 — UTF-8 over the scalar values, and a decoder that fails on no bytes.

  A byte is a number below 0x100. The decoder is the one of the web platform: a byte that cannot
  go on with the point begun ends it with a replacement and is read again as a first byte, and a
  point cut off by the end is a replacement too. What it makes of an encoded text is that text
  (`utf8Decode_encoded`).
-/

namespace Ccctl.Lib

def isSurrogate (p : Nat) : Bool := 0xD800 ≤ p && p ≤ 0xDFFF

def isScalar (p : Nat) : Bool := p < 0x110000 && !isSurrogate p

def utf8 (p : Nat) : List Nat :=
  if p < 0x80 then [p]
  else if p < 0x800 then [0xC0 + p / 0x40, 0x80 + p % 0x40]
  else if p < 0x10000 then [0xE0 + p / 0x1000, 0x80 + p / 0x40 % 0x40, 0x80 + p % 0x40]
  else [0xF0 + p / 0x40000, 0x80 + p / 0x1000 % 0x40, 0x80 + p / 0x40 % 0x40, 0x80 + p % 0x40]

/-! ## The decoder -/

/-- A point begun: its bits so far, the bytes it needs, and where the next of them may lie. -/
structure Begun where
  bits : Nat
  needed : Nat
  lower : Nat
  upper : Nat
  deriving DecidableEq

def replacement : Nat := 0xFFFD

/-- A first byte: a point of its own, or the begin of one. -/
def leadByte (b : Nat) : Nat ⊕ Begun :=
  if b < 0x80 then .inl b
  else if 0xC2 ≤ b ∧ b ≤ 0xDF then .inr ⟨b - 0xC0, 1, 0x80, 0xBF⟩
  else if 0xE0 ≤ b ∧ b ≤ 0xEF then
    .inr ⟨b - 0xE0, 2, if b = 0xE0 then 0xA0 else 0x80, if b = 0xED then 0x9F else 0xBF⟩
  else if 0xF0 ≤ b ∧ b ≤ 0xF4 then
    .inr ⟨b - 0xF0, 3, if b = 0xF0 then 0x90 else 0x80, if b = 0xF4 then 0x8F else 0xBF⟩
  else .inl replacement

def utf8DecodeFrom : Option Begun → List Nat → List Nat
  | none, [] => []
  | some _, [] => [replacement]
  | none, b :: rest =>
    match leadByte b with
    | .inl p => p :: utf8DecodeFrom none rest
    | .inr begun => utf8DecodeFrom (some begun) rest
  | some begun, b :: rest =>
    if begun.lower ≤ b ∧ b ≤ begun.upper then
      let bits := begun.bits * 0x40 + (b - 0x80)
      if begun.needed = 1 then bits :: utf8DecodeFrom none rest
      else utf8DecodeFrom (some ⟨bits, begun.needed - 1, 0x80, 0xBF⟩) rest
    else
      match leadByte b with
      | .inl p => replacement :: p :: utf8DecodeFrom none rest
      | .inr begun => replacement :: utf8DecodeFrom (some begun) rest

def utf8Decode (bytes : List Nat) : List Nat := utf8DecodeFrom none bytes

/-! ## What an encoded text decodes to -/

theorem decode_last {begun : Begun} {b : Nat} (h : begun.lower ≤ b ∧ b ≤ begun.upper) (hneeded : begun.needed = 1)
    (rest : List Nat) :
    utf8DecodeFrom (some begun) (b :: rest) = (begun.bits * 0x40 + (b - 0x80)) :: utf8DecodeFrom none rest := by
  rw [utf8DecodeFrom, if_pos h, if_pos hneeded]

theorem decode_more {begun : Begun} {b : Nat} (h : begun.lower ≤ b ∧ b ≤ begun.upper) (hneeded : begun.needed ≠ 1)
    (rest : List Nat) :
    utf8DecodeFrom (some begun) (b :: rest) =
      utf8DecodeFrom (some ⟨begun.bits * 0x40 + (b - 0x80), begun.needed - 1, 0x80, 0xBF⟩) rest := by
  rw [utf8DecodeFrom, if_pos h, if_neg hneeded]

theorem decode_begin {b : Nat} {begun : Begun} (h : leadByte b = .inr begun) (rest : List Nat) :
    utf8DecodeFrom none (b :: rest) = utf8DecodeFrom (some begun) rest := by
  rw [utf8DecodeFrom, h]

theorem decode_utf8 {p : Nat} (h : isScalar p = true) (rest : List Nat) :
    utf8DecodeFrom none (utf8 p ++ rest) = p :: utf8DecodeFrom none rest := by
  simp only [isScalar, isSurrogate, Bool.and_eq_true, decide_eq_true_eq, Bool.not_eq_true', Bool.and_eq_false_iff,
    decide_eq_false_iff_not] at h
  obtain ⟨hmax, hplain⟩ := h
  unfold utf8
  split
  · rename_i hp
    simp [utf8DecodeFrom, leadByte, hp]
  split
  · have hlead : leadByte (0xC0 + p / 0x40) = .inr ⟨p / 0x40, 1, 0x80, 0xBF⟩ := by
      have hle : 0xC2 ≤ 0xC0 + p / 0x40 ∧ 0xC0 + p / 0x40 ≤ 0xDF := by omega
      rw [leadByte, if_neg (by omega), if_pos hle, Nat.add_sub_cancel_left]
    rw [List.cons_append, decode_begin hlead, List.cons_append, decode_last (by dsimp only; omega) rfl]
    simp only [List.nil_append, List.cons.injEq, and_true]
    omega
  split
  · have hlead : leadByte (0xE0 + p / 0x1000) =
        .inr ⟨p / 0x1000, 2, if 0xE0 + p / 0x1000 = 0xE0 then 0xA0 else 0x80,
          if 0xE0 + p / 0x1000 = 0xED then 0x9F else 0xBF⟩ := by
      have hle : 0xE0 ≤ 0xE0 + p / 0x1000 ∧ 0xE0 + p / 0x1000 ≤ 0xEF := by omega
      rw [leadByte, if_neg (by omega), if_neg (by omega), if_pos hle, Nat.add_sub_cancel_left]
    rw [List.cons_append, decode_begin hlead, List.cons_append, decode_more ?_ (by simp), List.cons_append,
      decode_last (by dsimp only; omega) rfl]
    · simp only [List.nil_append, List.cons.injEq, and_true]
      omega
    · dsimp only
      split <;> split <;> omega
  · have hlead : leadByte (0xF0 + p / 0x40000) =
        .inr ⟨p / 0x40000, 3, if 0xF0 + p / 0x40000 = 0xF0 then 0x90 else 0x80,
          if 0xF0 + p / 0x40000 = 0xF4 then 0x8F else 0xBF⟩ := by
      have hle : 0xF0 ≤ 0xF0 + p / 0x40000 ∧ 0xF0 + p / 0x40000 ≤ 0xF4 := by omega
      rw [leadByte, if_neg (by omega), if_neg (by omega), if_neg (by omega), if_pos hle, Nat.add_sub_cancel_left]
    rw [List.cons_append, decode_begin hlead, List.cons_append, decode_more ?_ (by simp), List.cons_append,
      decode_more (by dsimp only; omega) (by simp), List.cons_append, decode_last (by dsimp only; omega) rfl]
    · simp only [List.nil_append, List.cons.injEq, and_true]
      omega
    · dsimp only
      split <;> split <;> omega

theorem utf8Decode_encoded {points : List Nat} (h : ∀ p ∈ points, isScalar p = true) :
    utf8Decode (points.flatMap utf8) = points := by
  induction points with
  | nil => rfl
  | cons p rest ih =>
    obtain ⟨hp, hrest⟩ := List.forall_mem_cons.mp h
    rw [List.flatMap_cons, utf8Decode, decode_utf8 hp, ← utf8Decode, ih hrest]

theorem utf8_ascii {p : Nat} (h : p < 0x80) : utf8 p = [p] := if_pos h

theorem utf8_lt {p : Nat} (h : isScalar p = true) : ∀ b ∈ utf8 p, b < 0x100 := by
  simp only [isScalar, Bool.and_eq_true, decide_eq_true_eq] at h
  unfold utf8
  split
  · simp only [List.mem_singleton, forall_eq]
    omega
  split
  · simp only [List.mem_cons, List.not_mem_nil, or_false, forall_eq_or_imp, forall_eq]
    omega
  split
  · simp only [List.mem_cons, List.not_mem_nil, or_false, forall_eq_or_imp, forall_eq]
    omega
  · simp only [List.mem_cons, List.not_mem_nil, or_false, forall_eq_or_imp, forall_eq]
    omega

/-! ## Byte by byte -/

/-- What one more byte completes, and the point then begun. -/
def utf8Step : Option Begun → Nat → List Nat × Option Begun
  | none, b =>
    match leadByte b with
    | .inl p => ([p], none)
    | .inr begun => ([], some begun)
  | some begun, b =>
    if begun.lower ≤ b ∧ b ≤ begun.upper then
      let bits := begun.bits * 0x40 + (b - 0x80)
      if begun.needed = 1 then ([bits], none) else ([], some ⟨bits, begun.needed - 1, 0x80, 0xBF⟩)
    else
      match leadByte b with
      | .inl p => ([replacement, p], none)
      | .inr begun => ([replacement], some begun)

/-- The points that the bytes so far complete. -/
def utf8Feed : Option Begun → List Nat → List Nat × Option Begun
  | begun, [] => ([], begun)
  | begun, b :: rest =>
    ((utf8Step begun b).1 ++ (utf8Feed (utf8Step begun b).2 rest).1, (utf8Feed (utf8Step begun b).2 rest).2)

theorem utf8Feed_append (begun : Option Begun) (bytes later : List Nat) :
    utf8Feed begun (bytes ++ later) =
      ((utf8Feed begun bytes).1 ++ (utf8Feed (utf8Feed begun bytes).2 later).1,
        (utf8Feed (utf8Feed begun bytes).2 later).2) := by
  induction bytes generalizing begun with
  | nil => simp [utf8Feed]
  | cons b bytes ih => simp only [List.cons_append, utf8Feed, ih, List.append_assoc]

/-- The decoder is the feed, and a replacement for what the end cuts off. -/
theorem utf8DecodeFrom_eq (begun : Option Begun) (bytes : List Nat) :
    utf8DecodeFrom begun bytes =
      (utf8Feed begun bytes).1 ++ (if (utf8Feed begun bytes).2.isSome then [replacement] else []) := by
  induction bytes generalizing begun with
  | nil => cases begun <;> rfl
  | cons b bytes ih =>
    have hfeed : utf8DecodeFrom begun (b :: bytes) =
        (utf8Step begun b).1 ++ utf8DecodeFrom (utf8Step begun b).2 bytes := by
      cases begun with
      | none => cases hlead : leadByte b <;> simp [utf8DecodeFrom, utf8Step, hlead]
      | some begun =>
        by_cases hin : begun.lower ≤ b ∧ b ≤ begun.upper
        · by_cases hlast : begun.needed = 1 <;> simp [utf8DecodeFrom, utf8Step, hin, hlast]
        · cases hlead : leadByte b <;> simp [utf8DecodeFrom, utf8Step, hin, hlead]
    rw [hfeed, ih, utf8Feed, List.append_assoc]

/-- A byte that leaves no point begun completed one. -/
theorem utf8Step_completes {begun : Option Begun} {b : Nat} (h : (utf8Step begun b).2 = none) :
    (utf8Step begun b).1 ≠ [] := by
  cases begun with
  | none =>
    rw [utf8Step] at h ⊢
    cases hlead : leadByte b with
    | inl p => simp
    | inr begun => simp [hlead] at h
  | some begun =>
    rw [utf8Step] at h ⊢
    split at h
    · rename_i hin
      rw [if_pos hin]
      dsimp only at h ⊢
      split at h
      · rename_i hlast
        simp [hlast]
      · cases h
    · rename_i hout
      rw [if_neg hout]
      cases hlead : leadByte b with
      | inl p => simp
      | inr begun => simp [hlead] at h

theorem utf8Feed_completes {begun : Option Begun} {bytes : List Nat} (hne : bytes ≠ [])
    (h : (utf8Feed begun bytes).2 = none) : (utf8Feed begun bytes).1 ≠ [] := by
  induction bytes generalizing begun with
  | nil => exact absurd rfl hne
  | cons b bytes ih =>
    intro hnil
    rw [utf8Feed] at h hnil
    obtain ⟨hfirst, hrest⟩ := List.append_eq_nil_iff.mp hnil
    rcases List.eq_nil_or_concat bytes with rfl | ⟨_, _, hcons⟩
    · exact utf8Step_completes h hfirst
    · exact ih (by simp [hcons]) h hrest

theorem utf8Feed_utf8 {p : Nat} (h : isScalar p = true) : utf8Feed none (utf8 p) = ([p], none) := by
  by_cases hp : p = replacement
  · rw [hp]
    decide
  · have hdecoded := decode_utf8 h []
    rw [List.append_nil, utf8DecodeFrom_eq, utf8DecodeFrom] at hdecoded
    cases hbegun : (utf8Feed none (utf8 p)).2 with
    | none =>
      rw [hbegun] at hdecoded
      exact Prod.ext (by simpa using hdecoded) hbegun
    | some begun =>
      have hlast := congrArg List.getLast? hdecoded
      rw [hbegun] at hlast
      simp [Ne.symm hp] at hlast

/-- A point cut short has not come. -/
theorem utf8Feed_cut {p : Nat} (h : isScalar p = true) {bytes rest : List Nat} (hsplit : bytes ++ rest = utf8 p)
    (hrest : rest ≠ []) : (utf8Feed none bytes).1 = [] := by
  have hfeed := utf8Feed_append none bytes rest
  rw [hsplit, utf8Feed_utf8 h, Prod.mk.injEq] at hfeed
  have hlater := utf8Feed_completes hrest hfeed.2.symm
  have hlength := congrArg List.length hfeed.1
  have hpos := List.length_pos_iff.mpr hlater
  rw [List.length_append, List.length_singleton] at hlength
  exact List.length_eq_zero_iff.mp (by omega)

theorem utf8Feed_points {points : List Nat} (h : ∀ p ∈ points, isScalar p = true) :
    utf8Feed none (points.flatMap utf8) = (points, none) := by
  induction points with
  | nil => rfl
  | cons p points ih =>
    obtain ⟨hp, hpoints⟩ := List.forall_mem_cons.mp h
    rw [List.flatMap_cons, utf8Feed_append, utf8Feed_utf8 hp, ih hpoints]
    rfl

/-- The bytes of a text, cut anywhere: the points so far are a prefix, and all of it only at the end. -/
theorem utf8Feed_take {points : List Nat} (h : ∀ p ∈ points, isScalar p = true) {bytes rest : List Nat}
    (hsplit : bytes ++ rest = points.flatMap utf8) (hrest : rest ≠ []) :
    ∃ k < points.length, (utf8Feed none bytes).1 = points.take k := by
  induction points generalizing bytes with
  | nil =>
    exact absurd (List.append_eq_nil_iff.mp hsplit).2 hrest
  | cons p points ih =>
    obtain ⟨hp, hpoints⟩ := List.forall_mem_cons.mp h
    rw [List.flatMap_cons] at hsplit
    rcases List.append_eq_append_iff.mp hsplit with ⟨more, hmore, hafter⟩ | ⟨more, hmore, hafter⟩
    · by_cases hnone : more = []
      · subst hnone
        rw [List.append_nil] at hmore
        rw [List.nil_append] at hafter
        refine ⟨1, ?_, ?_⟩
        · rcases points with _ | ⟨q, points⟩
          · exact absurd hafter hrest
          · simp
        · rw [← hmore, utf8Feed_utf8 hp]
          rfl
      · exact ⟨0, Nat.succ_pos _, utf8Feed_cut hp hmore.symm hnone⟩
    · obtain ⟨k, hk, hfeed⟩ := ih hpoints hafter.symm
      refine ⟨k + 1, Nat.succ_lt_succ hk, ?_⟩
      rw [hmore, utf8Feed_append, utf8Feed_utf8 hp, hfeed]
      rfl

/-! ## What is decoded is scalar -/

/-- Whatever bytes complete the sequence, within its bounds. -/
def Begun.Sound (begun : Begun) : Prop :=
  begun.needed = 1 ∧ (∀ b, begun.lower ≤ b → b ≤ begun.upper → isScalar (begun.bits * 0x40 + (b - 0x80)) = true) ∨
  begun.needed = 2 ∧ (∀ b c, begun.lower ≤ b → b ≤ begun.upper → 0x80 ≤ c → c ≤ 0xBF →
    isScalar ((begun.bits * 0x40 + (b - 0x80)) * 0x40 + (c - 0x80)) = true) ∨
  begun.needed = 3 ∧ ∀ b c d, begun.lower ≤ b → b ≤ begun.upper → 0x80 ≤ c → c ≤ 0xBF → 0x80 ≤ d → d ≤ 0xBF →
    isScalar (((begun.bits * 0x40 + (b - 0x80)) * 0x40 + (c - 0x80)) * 0x40 + (d - 0x80)) = true

theorem isScalar_iff {p : Nat} : isScalar p = true ↔ p < 0xD800 ∨ 0xDFFF < p ∧ p < 0x110000 := by
  simp only [isScalar, isSurrogate, Bool.and_eq_true, decide_eq_true_eq, Bool.not_eq_true', Bool.and_eq_false_iff,
    decide_eq_false_iff_not]
  omega

theorem leadByte_scalar {b p : Nat} (h : leadByte b = .inl p) : isScalar p = true := by
  unfold leadByte at h
  split at h
  · rename_i hascii
    obtain rfl := Sum.inl.inj h
    exact isScalar_iff.mpr (by omega)
  · split at h
    · cases h
    · split at h
      · cases h
      · split at h
        · cases h
        · obtain rfl := Sum.inl.inj h
          rfl

theorem leadByte_sound {b : Nat} {begun : Begun} (h : leadByte b = .inr begun) : begun.Sound := by
  unfold leadByte at h
  split at h
  · cases h
  · split at h
    · obtain rfl := Sum.inr.inj h
      refine .inl ⟨rfl, fun c hlower hupper => isScalar_iff.mpr ?_⟩
      dsimp only at hlower hupper ⊢
      omega
    · split at h
      · obtain rfl := Sum.inr.inj h
        refine .inr (.inl ⟨rfl, fun c d hlower hupper hd hd' => isScalar_iff.mpr ?_⟩)
        dsimp only at hlower hupper ⊢
        split at hlower <;> split at hupper <;> omega
      · split at h
        · obtain rfl := Sum.inr.inj h
          refine .inr (.inr ⟨rfl, fun c d e hlower hupper hd hd' he he' => isScalar_iff.mpr ?_⟩)
          dsimp only at hlower hupper ⊢
          split at hlower <;> split at hupper <;> omega
        · cases h

theorem Begun.Sound.more {begun : Begun} (h : begun.Sound) {b : Nat} (hb : begun.lower ≤ b ∧ b ≤ begun.upper)
    (hneeded : begun.needed ≠ 1) : Begun.Sound ⟨begun.bits * 0x40 + (b - 0x80), begun.needed - 1, 0x80, 0xBF⟩ := by
  rcases h with ⟨hone, -⟩ | ⟨htwo, hpoint⟩ | ⟨hthree, hpoint⟩
  · exact absurd hone hneeded
  · exact .inl ⟨by rw [htwo], fun c hc hc' => hpoint b c hb.1 hb.2 hc hc'⟩
  · exact .inr (.inl ⟨by rw [hthree], fun c d hc hc' hd hd' => hpoint b c d hb.1 hb.2 hc hc' hd hd'⟩)

theorem utf8DecodeFrom_scalar (bytes : List Nat) :
    ∀ begun, (∀ b, begun = some b → b.Sound) → ∀ p ∈ utf8DecodeFrom begun bytes, isScalar p = true := by
  induction bytes with
  | nil =>
    intro begun _ p hp
    cases begun with
    | none => cases hp
    | some b =>
      rw [utf8DecodeFrom] at hp
      rw [List.mem_singleton.mp hp]
      rfl
  | cons b rest ih =>
    have hnone := ih none fun _ h => by cases h
    have hlead : ∀ p, p ∈ utf8DecodeFrom none (b :: rest) → isScalar p = true := by
      intro p hp
      rw [utf8DecodeFrom] at hp
      split at hp
      · rename_i q hq
        rcases List.mem_cons.mp hp with rfl | hp
        · exact leadByte_scalar hq
        · exact hnone p hp
      · rename_i begun hbegun
        exact ih (some begun) (fun _ h => Option.some.inj h ▸ leadByte_sound hbegun) p hp
    intro begun hsound p hp
    cases begun with
    | none => exact hlead p hp
    | some begun =>
      have hsound := hsound begun rfl
      rw [utf8DecodeFrom] at hp
      split at hp
      · rename_i hb
        dsimp only at hp
        split at hp
        · rename_i hone
          rw [List.mem_cons] at hp
          rcases hp with hp | hp
          · rw [hp]
            rcases hsound with ⟨-, hpoint⟩ | ⟨htwo, -⟩ | ⟨hthree, -⟩
            · exact hpoint b hb.1 hb.2
            · omega
            · omega
          · exact hnone p hp
        · rename_i hneeded
          exact ih _ (fun _ h => Option.some.inj h ▸ hsound.more hb hneeded) p hp
      · -- the byte ends the point and is read again
        have hagain : p = replacement ∨ p ∈ utf8DecodeFrom none (b :: rest) := by
          rw [utf8DecodeFrom]
          split at hp <;> exact List.mem_cons.mp hp
        rcases hagain with rfl | hp
        · rfl
        · exact hlead p hp

theorem utf8Decode_scalar (bytes : List Nat) : ∀ p ∈ utf8Decode bytes, isScalar p = true :=
  utf8DecodeFrom_scalar bytes none fun _ h => by cases h

end Ccctl.Lib
