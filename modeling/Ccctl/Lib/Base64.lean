import Mathlib.Data.List.Basic
/-
  Ccctl.Lib.Base64 — base64 without padding, over an alphabet given by its last two symbols.

  Three bytes are four sextets; a last one or two bytes are two or three, the missing low bits zero.
  A reader gives back every whole byte and drops the bits after the last, so it undoes the writer
  (`decode_encode`) and ignores what the last sextet carries beyond it.
-/

namespace Ccctl.Lib.Base64

def encodeBytes : List Nat → List Nat
  | [] => []
  | [a] => [a / 4, a % 4 * 16]
  | [a, b] => [a / 4, a % 4 * 16 + b / 16, b % 16 * 4]
  | a :: b :: c :: rest => a / 4 :: (a % 4 * 16 + b / 16) :: (b % 16 * 4 + c / 64) :: c % 64 :: encodeBytes rest

def decodeSextets : List Nat → List Nat
  | [] => []
  | [_] => []
  | [w, x] => [w * 4 + x / 16]
  | [w, x, y] => [w * 4 + x / 16, x % 16 * 16 + y / 4]
  | w :: x :: y :: z :: rest => (w * 4 + x / 16) :: (x % 16 * 16 + y / 4) :: (y % 4 * 64 + z) :: decodeSextets rest

/-- A sextet's symbol. -/
def symbol (last : Nat × Nat) (n : Nat) : Nat :=
  if n < 26 then 0x41 + n
  else if n < 52 then 0x61 + (n - 26)
  else if n < 62 then 0x30 + (n - 52)
  else if n = 62 then last.1
  else last.2

def sextet (last : Nat × Nat) (u : Nat) : Option Nat :=
  if 0x41 ≤ u ∧ u ≤ 0x5A then some (u - 0x41)
  else if 0x61 ≤ u ∧ u ≤ 0x7A then some (u - 0x61 + 26)
  else if 0x30 ≤ u ∧ u ≤ 0x39 then some (u - 0x30 + 52)
  else if u = last.1 then some 62
  else if u = last.2 then some 63
  else none

/-- `-` and `_`. -/
def urlSafe : Nat × Nat := (0x2D, 0x5F)

variable (last : Nat × Nat)

def encode (bytes : List Nat) : List Nat := (encodeBytes bytes).map (symbol last)

/-- The bytes of the symbols; what is none is passed over. -/
def lenient (text : List Nat) : List Nat := decodeSextets (text.filterMap (sextet last))

def inAlphabet (text : List Nat) : Bool := text.all fun u => (sextet last u).isSome

def decode (text : List Nat) : Option (List Nat) := if inAlphabet last text then some (lenient last text) else none

/-! ## Sextets -/

theorem decodeSextets_encodeBytes {bytes : List Nat} (h : ∀ b ∈ bytes, b < 0x100) :
    decodeSextets (encodeBytes bytes) = bytes := by
  induction bytes using encodeBytes.induct with
  | case1 => rfl
  | case2 a =>
    have ha := h a (by simp)
    simp only [encodeBytes, decodeSextets, List.cons.injEq, and_true]
    omega
  | case3 a b =>
    have ha := h a (by simp)
    have hb := h b (by simp)
    simp only [encodeBytes, decodeSextets, List.cons.injEq, and_true]
    omega
  | case4 a b c rest ih =>
    have ha := h a (by simp)
    have hb := h b (by simp)
    have hc := h c (by simp)
    rw [encodeBytes, decodeSextets, ih fun d hd => h d (by simp [hd])]
    simp only [List.cons.injEq, and_true]
    omega

theorem encodeBytes_lt {bytes : List Nat} (h : ∀ b ∈ bytes, b < 0x100) : ∀ n ∈ encodeBytes bytes, n < 64 := by
  induction bytes using encodeBytes.induct with
  | case1 => simp [encodeBytes]
  | case2 a =>
    have ha := h a (by simp)
    simp only [encodeBytes, List.mem_cons, List.not_mem_nil, or_false, forall_eq_or_imp, forall_eq]
    omega
  | case3 a b =>
    have ha := h a (by simp)
    have hb := h b (by simp)
    simp only [encodeBytes, List.mem_cons, List.not_mem_nil, or_false, forall_eq_or_imp, forall_eq]
    omega
  | case4 a b c rest ih =>
    have ha := h a (by simp)
    have hb := h b (by simp)
    have hc := h c (by simp)
    simp only [encodeBytes, List.mem_cons, forall_eq_or_imp]
    refine ⟨by omega, by omega, by omega, by omega, ih fun d hd => h d (by simp [hd])⟩

/-! ## Symbols -/

variable {last}

/-- The last two symbols are two, and are no letters or digits. -/
def Apart (last : Nat × Nat) : Prop :=
  last.1 ≠ last.2 ∧ ∀ u, u = last.1 ∨ u = last.2 →
    ¬ (0x41 ≤ u ∧ u ≤ 0x5A) ∧ ¬ (0x61 ≤ u ∧ u ≤ 0x7A) ∧ ¬ (0x30 ≤ u ∧ u ≤ 0x39)

theorem urlSafe_apart : Apart urlSafe := by
  refine ⟨by decide, fun u hu => ?_⟩
  rcases hu with rfl | rfl <;> decide

theorem sextet_symbol (h : Apart last) {n : Nat} (hn : n < 64) : sextet last (symbol last n) = some n := by
  have h1 := h.2 last.1 (.inl rfl)
  have h2 := h.2 last.2 (.inr rfl)
  unfold symbol
  split
  · rw [sextet, if_pos (by omega)]
    simp
  split
  · rw [sextet, if_neg (by omega), if_pos (by omega)]
    simp only [Option.some.injEq]
    omega
  split
  · rw [sextet, if_neg (by omega), if_neg (by omega), if_pos (by omega)]
    simp only [Option.some.injEq]
    omega
  split
  · rename_i hn62
    rw [sextet, if_neg h1.1, if_neg h1.2.1, if_neg h1.2.2, if_pos rfl, hn62]
  · rw [sextet, if_neg h2.1, if_neg h2.2.1, if_neg h2.2.2, if_neg h.1.symm, if_pos rfl]
    simp only [Option.some.injEq]
    omega

theorem filterMap_symbols (h : Apart last) {sextets : List Nat} (hlt : ∀ n ∈ sextets, n < 64) :
    (sextets.map (symbol last)).filterMap (sextet last) = sextets := by
  induction sextets with
  | nil => rfl
  | cons n rest ih =>
    obtain ⟨hn, hrest⟩ := List.forall_mem_cons.mp hlt
    rw [List.map_cons, List.filterMap_cons, sextet_symbol h hn, ih hrest]

theorem inAlphabet_symbols (h : Apart last) {sextets : List Nat} (hlt : ∀ n ∈ sextets, n < 64) :
    inAlphabet last (sextets.map (symbol last)) = true := by
  simp only [inAlphabet, List.all_map, List.all_eq_true, Function.comp_apply]
  intro n hn
  rw [sextet_symbol h (hlt n hn)]
  rfl

/-! ## Texts -/

theorem lenient_encode (h : Apart last) {bytes : List Nat} (hbytes : ∀ b ∈ bytes, b < 0x100) :
    lenient last (encode last bytes) = bytes := by
  rw [lenient, encode, filterMap_symbols h (encodeBytes_lt hbytes), decodeSextets_encodeBytes hbytes]

theorem decode_encode (h : Apart last) {bytes : List Nat} (hbytes : ∀ b ∈ bytes, b < 0x100) :
    decode last (encode last bytes) = some bytes := by
  have hall : inAlphabet last (encode last bytes) = true := inAlphabet_symbols h (encodeBytes_lt hbytes)
  rw [decode, if_pos hall, lenient_encode h hbytes]

end Ccctl.Lib.Base64
