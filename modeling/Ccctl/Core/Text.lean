import Mathlib.Data.List.Basic
import Mathlib.Data.List.Chain
import Mathlib.Data.List.DropRight
import Mathlib.Data.List.Infix
import Mathlib.Tactic.Common
/-
  Ccctl.Core.Text — worker-supplied text and its one normalizer
  (`packages/core/src/index.ts`: `FORMAT_CHARACTERS`, `CONTROL_CHARACTERS`,
  `displayableDetail`, `requiresActionDetail`).

  A string is what the language has: any list of UTF-16 code units, lone surrogates
  included. `codePoints` is `Array.from`: a high surrogate followed by a low one is one
  point, any other unit stands alone. The format pass runs under the `u` flag, so it deletes
  whole code points; the whitespace passes run on units.

  What the normalizer promises is `Tidy`: nonempty, no control unit, no run of whitespace and
  none at either end, at most `maxLength` points (`displayableDetail_tidy`). A tidy line that
  carries no format point is a fixed point (`displayableDetail_of_formatFree`). Deleting a
  format point can bring a lone high surrogate in front of a lone low one, and the pair can be
  a format point itself: such a line is tidy and not fixed, and a second pass is strictly
  shorter (`displayableDetail_shrinks`).
-/

namespace Ccctl.Core

/-- UTF-16 code units. -/
abbrev JsString := List UInt16

instance : LawfulBEq JsString := inferInstance

/-! ## Code points -/

def isHigh (u : UInt16) : Bool := 0xD800 ≤ u.toNat && u.toNat ≤ 0xDBFF

def isLow (u : UInt16) : Bool := 0xDC00 ≤ u.toNat && u.toNat ≤ 0xDFFF

def pairPoint (hi lo : UInt16) : Nat := 0x10000 + (hi.toNat - 0xD800) * 0x400 + (lo.toNat - 0xDC00)

/-- `Array.from(text)`, each element read as its number. -/
def codePoints : JsString → List Nat
  | [] => []
  | [u] => [u.toNat]
  | u :: v :: rest =>
    if isHigh u && isLow v then pairPoint u v :: codePoints rest else u.toNat :: codePoints (v :: rest)

/-- `String.fromCodePoint`. -/
def encodePoint (p : Nat) : JsString :=
  if p < 0x10000 then [UInt16.ofNat p]
  else [UInt16.ofNat (0xD800 + (p - 0x10000) / 0x400), UInt16.ofNat (0xDC00 + (p - 0x10000) % 0x400)]

/-- `points.join("")`. -/
def encode (ps : List Nat) : JsString := ps.flatMap encodePoint

/-- A literal of the source. -/
def js (s : String) : JsString := encode (s.toList.map Char.toNat)

/-! ## The character classes -/

/-- `\p{Cf}`. -/
def isFormat (p : Nat) : Bool :=
  p == 0xAD || (0x600 ≤ p && p ≤ 0x605) || p == 0x61C || p == 0x6DD || p == 0x70F || (0x890 ≤ p && p ≤ 0x891) ||
  p == 0x8E2 || p == 0x180E || (0x200B ≤ p && p ≤ 0x200F) || (0x202A ≤ p && p ≤ 0x202E) ||
  (0x2060 ≤ p && p ≤ 0x2064) || (0x2066 ≤ p && p ≤ 0x206F) || p == 0xFEFF || (0xFFF9 ≤ p && p ≤ 0xFFFB) ||
  p == 0x110BD || p == 0x110CD || (0x13430 ≤ p && p ≤ 0x1343F) || (0x1BCA0 ≤ p && p ≤ 0x1BCA3) ||
  (0x1D173 ≤ p && p ≤ 0x1D17A) || p == 0xE0001 || (0xE0020 ≤ p && p ≤ 0xE007F)

/-- `\p{Cc}`: the C0 and C1 ranges. -/
def isControl (u : UInt16) : Bool := u.toNat ≤ 0x1F || (0x7F ≤ u.toNat && u.toNat ≤ 0x9F)

/-- `[0-9]`. -/
def isDigit (u : UInt16) : Bool := 0x30 ≤ u.toNat && u.toNat ≤ 0x39

/-- `\s`, which is also what `trim` removes. -/
def isSpace (u : UInt16) : Bool :=
  (0x9 ≤ u.toNat && u.toNat ≤ 0xD) || u == 0x20 || u == 0xA0 || u == 0x1680 ||
  (0x2000 ≤ u.toNat && u.toNat ≤ 0x200A) || u == 0x2028 || u == 0x2029 || u == 0x202F || u == 0x205F ||
  u == 0x3000 || u == 0xFEFF

/-! ## The passes -/

/-- `.replace(FORMAT_CHARACTERS, "")`. -/
def dropFormat (s : JsString) : JsString := encode ((codePoints s).filter fun p => !isFormat p)

/-- `.replace(CONTROL_CHARACTERS, " ")`. -/
def controlsToSpaces (s : JsString) : JsString := s.map fun u => if isControl u then 0x20 else u

/-- `.replace(/\s+/g, " ")`; `inRun` is whether the unit before was whitespace. -/
def collapseSpaces (inRun : Bool) : JsString → JsString
  | [] => []
  | u :: rest =>
    if isSpace u then
      if inRun then collapseSpaces true rest else 0x20 :: collapseSpaces true rest
    else u :: collapseSpaces false rest

/-- `.trim()`. -/
def trim (s : JsString) : JsString := (s.dropWhile isSpace).rdropWhile isSpace

def flatten (detail : JsString) : JsString := trim (collapseSpaces false (controlsToSpaces (dropFormat detail)))

/-- `${points.slice(0, maxLength - 1).join("")}…` when there are more than `maxLength` points. -/
def clamp (maxLength : Nat) (flattened : JsString) : JsString :=
  if maxLength < (codePoints flattened).length then
    encode ((codePoints flattened).take (maxLength - 1)) ++ [0x2026]
  else flattened

def MAX_REQUIRES_ACTION_DETAIL_LENGTH : Nat := 200

def DEFAULT_REQUIRES_ACTION_DETAIL : JsString := js "Awaiting input."

def displayableDetail (detail : Option JsString) (maxLength : Nat) : Option JsString :=
  match detail with
  | none => none
  | some d => if flatten d = [] then none else some (clamp maxLength (flatten d))

def requiresActionDetail (detail : Option JsString) : JsString :=
  (displayableDetail detail MAX_REQUIRES_ACTION_DETAIL_LENGTH).getD DEFAULT_REQUIRES_ACTION_DETAIL

/-! ## Points and units -/

theorem encode_append (ps qs : List Nat) : encode (ps ++ qs) = encode ps ++ encode qs := by
  simp [encode]

theorem encodePoint_ne_nil (p : Nat) : encodePoint p ≠ [] := by
  unfold encodePoint
  split <;> simp

theorem encodePoint_unit (u : UInt16) : encodePoint u.toNat = [u] := by
  have hu := u.toNat_lt
  rw [encodePoint, if_pos (by omega)]
  simp

theorem encodePoint_pair {hi lo : UInt16} (hh : isHigh hi = true) (hl : isLow lo = true) :
    encodePoint (pairPoint hi lo) = [hi, lo] := by
  simp only [isHigh, Bool.and_eq_true, decide_eq_true_eq] at hh
  simp only [isLow, Bool.and_eq_true, decide_eq_true_eq] at hl
  have hq : (pairPoint hi lo - 0x10000) / 0x400 = hi.toNat - 0xD800 := by unfold pairPoint; omega
  have hr : (pairPoint hi lo - 0x10000) % 0x400 = lo.toNat - 0xDC00 := by unfold pairPoint; omega
  have hp : ¬ pairPoint hi lo < 0x10000 := by unfold pairPoint; omega
  have hhi : 0xD800 + (hi.toNat - 0xD800) = hi.toNat := by omega
  have hlo : 0xDC00 + (lo.toNat - 0xDC00) = lo.toNat := by omega
  rw [encodePoint, if_neg hp, hq, hr, hhi, hlo]
  simp

theorem encode_codePoints (s : JsString) : encode (codePoints s) = s := by
  induction s using codePoints.induct with
  | case1 => rfl
  | case2 u => simp [codePoints, encode, encodePoint_unit]
  | case3 u v rest h ih =>
    obtain ⟨hh, hl⟩ := Bool.and_eq_true_iff.mp h
    rw [codePoints, if_pos h]
    simpa [encode, encodePoint_pair hh hl] using ih
  | case4 u v rest h ih =>
    rw [codePoints, if_neg h]
    simpa [encode, encodePoint_unit] using ih

/-- A unit in front adds at most one point. -/
theorem codePoints_cons_length_le (u : UInt16) (s : JsString) :
    (codePoints (u :: s)).length ≤ (codePoints s).length + 1 := by
  cases s with
  | nil => simp [codePoints]
  | cons v rest =>
    rw [codePoints]
    split
    · have hrest : (codePoints rest).length ≤ (codePoints (v :: rest)).length := by
        cases rest with
        | nil => simp [codePoints]
        | cons w rest' =>
          rw [codePoints]
          split
          · have := codePoints_cons_length_le w rest'
            simpa using this
          · simp
      simpa using hrest
    · simp
termination_by s.length

theorem pairPoint_lt {hi lo : UInt16} (hh : isHigh hi = true) (hl : isLow lo = true) : pairPoint hi lo < 0x110000 := by
  simp only [isHigh, Bool.and_eq_true, decide_eq_true_eq] at hh
  simp only [isLow, Bool.and_eq_true, decide_eq_true_eq] at hl
  unfold pairPoint
  omega

theorem codePoints_lt (s : JsString) : ∀ p ∈ codePoints s, p < 0x110000 := by
  induction s using codePoints.induct with
  | case1 => simp [codePoints]
  | case2 u =>
    have hu := u.toNat_lt
    simp only [codePoints, List.mem_singleton, forall_eq]
    omega
  | case3 u v rest h ih =>
    obtain ⟨hh, hl⟩ := Bool.and_eq_true_iff.mp h
    rw [codePoints, if_pos h]
    exact List.forall_mem_cons.mpr ⟨pairPoint_lt hh hl, ih⟩
  | case4 u v rest h ih =>
    have hu := u.toNat_lt
    rw [codePoints, if_neg h]
    exact List.forall_mem_cons.mpr ⟨by omega, ih⟩

theorem codePoints_encodePoint_append_le {p : Nat} (hp : p < 0x110000) (s : JsString) :
    (codePoints (encodePoint p ++ s)).length ≤ (codePoints s).length + 1 := by
  unfold encodePoint
  split
  · exact codePoints_cons_length_le _ _
  · rename_i hbmp
    have hh : isHigh (UInt16.ofNat (0xD800 + (p - 0x10000) / 0x400)) = true := by
      simp only [isHigh, Bool.and_eq_true, decide_eq_true_eq, UInt16.toNat_ofNat']
      omega
    have hl : isLow (UInt16.ofNat (0xDC00 + (p - 0x10000) % 0x400)) = true := by
      simp only [isLow, Bool.and_eq_true, decide_eq_true_eq, UInt16.toNat_ofNat']
      omega
    rw [List.cons_append, List.cons_append, List.nil_append, codePoints, hh, hl]
    simp

/-- Points put back together decode to no more of them: two lone halves may meet. -/
theorem codePoints_encode_append_le (ps : List Nat) (hps : ∀ p ∈ ps, p < 0x110000) (s : JsString) :
    (codePoints (encode ps ++ s)).length ≤ ps.length + (codePoints s).length := by
  induction ps with
  | nil => simp [encode]
  | cons p ps ih =>
    have hp : p < 0x110000 := hps p (by simp)
    have hrest := ih fun q hq => hps q (by simp [hq])
    have hstep := codePoints_encodePoint_append_le hp (encode ps ++ s)
    have happ : encode (p :: ps) ++ s = encodePoint p ++ (encode ps ++ s) := by simp [encode]
    rw [happ, List.length_cons]
    omega

/-! ## What each pass leaves -/

theorem isControl_space : isControl 0x20 = false := by decide

/-- Whitespace stands alone and is a plain space. -/
def Spaced (s : JsString) : Prop :=
  (∀ u ∈ s, isSpace u = true → u = 0x20) ∧ s.IsChain fun u v => ¬ (isSpace u = true ∧ isSpace v = true)

theorem Spaced.segment {s t : JsString} (h : Spaced s) (ht : t <:+: s) : Spaced t := by
  obtain ⟨before, after, rfl⟩ := ht
  refine ⟨fun u hu => h.1 u ?_, h.2.left_of_append.right_of_append⟩
  exact List.mem_append_left _ (List.mem_append_right _ hu)

theorem mem_controlsToSpaces {s : JsString} {u : UInt16} (h : u ∈ controlsToSpaces s) : isControl u = false := by
  obtain ⟨v, -, rfl⟩ := List.mem_map.mp h
  split
  · exact isControl_space
  · rename_i hv
    simpa using hv

theorem controlsToSpaces_of_clean {s : JsString} (h : ∀ u ∈ s, isControl u = false) : controlsToSpaces s = s := by
  unfold controlsToSpaces
  rw [List.map_congr_left (g := id) (by intro u hu; simp [h u hu]), List.map_id]

theorem mem_collapseSpaces {s : JsString} {b : Bool} {u : UInt16} (h : u ∈ collapseSpaces b s) :
    u = 0x20 ∨ (u ∈ s ∧ isSpace u = false) := by
  induction s generalizing b with
  | nil => simp [collapseSpaces] at h
  | cons v rest ih =>
    unfold collapseSpaces at h
    split at h
    · split at h
      · exact (ih h).imp_right fun hr => ⟨List.mem_cons_of_mem _ hr.1, hr.2⟩
      · rcases List.mem_cons.mp h with rfl | h
        · exact Or.inl rfl
        · exact (ih h).imp_right fun hr => ⟨List.mem_cons_of_mem _ hr.1, hr.2⟩
    · rename_i hv
      rcases List.mem_cons.mp h with rfl | h
      · exact Or.inr ⟨List.mem_cons_self, by simpa using hv⟩
      · exact (ih h).imp_right fun hr => ⟨List.mem_cons_of_mem _ hr.1, hr.2⟩

/-- After whitespace, the pass never starts with whitespace. -/
theorem collapseSpaces_true_head (s : JsString) (u : UInt16) (h : (collapseSpaces true s).head? = some u) :
    isSpace u = false := by
  induction s with
  | nil => simp [collapseSpaces] at h
  | cons v rest ih =>
    unfold collapseSpaces at h
    split at h
    · exact ih (by simpa using h)
    · rename_i hv
      obtain rfl : v = u := by simpa using h
      simpa using hv

theorem collapseSpaces_spaced (s : JsString) (b : Bool) : Spaced (collapseSpaces b s) := by
  constructor
  · intro u hu hs
    rcases mem_collapseSpaces hu with h | ⟨-, h⟩
    · exact h
    · rw [h] at hs
      cases hs
  · induction s generalizing b with
    | nil => simp [collapseSpaces]
    | cons v rest ih =>
      unfold collapseSpaces
      split
      · split
        · exact ih true
        · refine List.isChain_cons.mpr ⟨fun u hu hboth => ?_, ih true⟩
          rw [collapseSpaces_true_head rest u hu] at hboth
          exact absurd hboth.2 (by simp)
      · rename_i hv
        exact List.isChain_cons.mpr ⟨fun u _ hboth => hv hboth.1, ih false⟩

theorem collapseSpaces_of_spaced {s : JsString} {b : Bool} (h : Spaced s)
    (hb : b = true → ∀ u, s.head? = some u → isSpace u = false) : collapseSpaces b s = s := by
  induction s generalizing b with
  | nil => rfl
  | cons v rest ih =>
    obtain ⟨hmem, hchain⟩ := h
    obtain ⟨hhead, htail⟩ := List.isChain_cons.mp hchain
    have hrest : Spaced rest := ⟨fun u hu => hmem u (List.mem_cons_of_mem _ hu), htail⟩
    unfold collapseSpaces
    split
    · rename_i hv
      have hbf : b = false := by
        cases b with
        | false => rfl
        | true => rw [hb rfl v rfl] at hv; cases hv
      have hv20 : v = 0x20 := hmem v List.mem_cons_self hv
      rw [hbf, if_neg (by simp), ih hrest fun _ u hu => ?_, hv20]
      by_contra hu'
      exact hhead u hu ⟨hv, by simpa using hu'⟩
    · rw [ih hrest (by simp)]

theorem trim_segment (s : JsString) : trim s <:+: s :=
  (List.rdropWhile_prefix _ _).isInfix.trans (List.dropWhile_suffix _).isInfix

theorem trim_head (s : JsString) (u : UInt16) (h : (trim s).head? = some u) : isSpace u = false := by
  have hne : s.dropWhile isSpace ≠ [] := by
    intro h0
    simp [trim, h0] at h
  obtain ⟨t, ht⟩ : trim s <+: s.dropWhile isSpace := List.rdropWhile_prefix _ _
  cases htr : trim s with
  | nil => simp [htr] at h
  | cons v rest =>
    obtain rfl : v = u := by simpa [htr] using h
    rw [htr, List.cons_append] at ht
    have hhead := List.head_dropWhile_not isSpace hne
    simp only [← ht, List.head_cons] at hhead
    simpa using hhead

theorem trim_last (s : JsString) (u : UInt16) (h : (trim s).getLast? = some u) : isSpace u = false := by
  have hne : trim s ≠ [] := by
    intro h0
    simp [h0] at h
  have hlast := List.rdropWhile_last_not isSpace (s.dropWhile isSpace) hne
  rw [List.getLast?_eq_some_getLast hne, Option.some.injEq] at h
  rw [← h]
  exact Bool.eq_false_iff.mpr hlast

theorem trim_of_trimmed {s : JsString} (hh : ∀ u, s.head? = some u → isSpace u = false)
    (hl : ∀ u, s.getLast? = some u → isSpace u = false) : trim s = s := by
  have hdrop : s.dropWhile isSpace = s := by
    cases s with
    | nil => rfl
    | cons v rest => simp [hh v rfl]
  rw [trim, hdrop, List.rdropWhile_eq_self_iff]
  intro hne
  simp [hl _ (List.getLast?_eq_some_getLast hne)]

/-! ## The normalized line -/

/-- What every consumer of a normalized line inherits. -/
structure Tidy (maxLength : Nat) (s : JsString) : Prop where
  nonempty : s ≠ []
  controlFree : ∀ u ∈ s, isControl u = false
  spaced : Spaced s
  head : ∀ u, s.head? = some u → isSpace u = false
  last : ∀ u, s.getLast? = some u → isSpace u = false
  bounded : (codePoints s).length ≤ maxLength

def FormatFree (s : JsString) : Prop := ∀ p ∈ codePoints s, isFormat p = false

instance (s : JsString) : Decidable (FormatFree s) := inferInstanceAs (Decidable (∀ p ∈ codePoints s, _))

theorem mem_flatten {d : JsString} {u : UInt16} (h : u ∈ flatten d) : isControl u = false := by
  rcases mem_collapseSpaces ((trim_segment _).subset h) with rfl | ⟨hc, -⟩
  · exact isControl_space
  · exact mem_controlsToSpaces hc

theorem flatten_spaced (d : JsString) : Spaced (flatten d) := (collapseSpaces_spaced _ _).segment (trim_segment _)

theorem encode_take_prefix (k : Nat) (s : JsString) : encode ((codePoints s).take k) <+: s := by
  refine ⟨encode ((codePoints s).drop k), ?_⟩
  rw [← encode_append, List.take_append_drop, encode_codePoints]

theorem isSpace_ellipsis : isSpace 0x2026 = false := by decide

/-- A tidy line cut anywhere and ended by an ellipsis is tidy. -/
theorem Spaced.append_ellipsis {s : JsString} (h : Spaced s) : Spaced (s ++ [0x2026]) := by
  constructor
  · intro u hu hs
    rcases List.mem_append.mp hu with hu | hu
    · exact h.1 u hu hs
    · rw [List.mem_singleton.mp hu, isSpace_ellipsis] at hs
      cases hs
  · refine List.isChain_append.mpr ⟨h.2, List.isChain_singleton _, ?_⟩
    rintro u - v hv ⟨-, hs⟩
    obtain rfl : v = 0x2026 := by simpa using hv.symm
    rw [isSpace_ellipsis] at hs
    cases hs

theorem clamp_tidy {maxLength : Nat} (hmax : 0 < maxLength) {d : JsString} (hne : flatten d ≠ []) :
    Tidy maxLength (clamp maxLength (flatten d)) := by
  unfold clamp
  split
  · have hpre := encode_take_prefix (maxLength - 1) (flatten d)
    have hlen := codePoints_encode_append_le ((codePoints (flatten d)).take (maxLength - 1))
      (fun p hp => codePoints_lt _ p (List.mem_of_mem_take hp)) [0x2026]
    have hone : (codePoints [0x2026]).length = 1 := rfl
    refine ⟨by simp, fun u hu => ?_, ((flatten_spaced d).segment hpre.isInfix).append_ellipsis, fun u hu => ?_,
      by simp [isSpace_ellipsis], ?_⟩
    · rcases List.mem_append.mp hu with hu | hu
      · exact mem_flatten (hpre.subset hu)
      · rw [List.mem_singleton.mp hu]
        decide
    · cases hcut : encode ((codePoints (flatten d)).take (maxLength - 1)) with
      | nil =>
        obtain rfl : 0x2026 = u := by simpa [hcut] using hu
        exact isSpace_ellipsis
      | cons v rest =>
        obtain rfl : v = u := by simpa [hcut] using hu
        obtain ⟨t, ht⟩ := hpre
        exact trim_head _ v (by rw [← flatten, ← ht, hcut]; rfl)
    · rw [List.length_take] at hlen
      omega
  · exact ⟨hne, fun u hu => mem_flatten hu, flatten_spaced d, trim_head _, trim_last _, by omega⟩

/-- Everything the normalizer returns is tidy. -/
theorem displayableDetail_tidy {detail : Option JsString} {maxLength : Nat} {line : JsString} (hmax : 0 < maxLength)
    (h : displayableDetail detail maxLength = some line) : Tidy maxLength line := by
  cases detail with
  | none => cases h
  | some d =>
    simp only [displayableDetail] at h
    split at h
    · cases h
    · cases h
      exact clamp_tidy hmax ‹_›

theorem dropFormat_of_formatFree {s : JsString} (h : FormatFree s) : dropFormat s = s := by
  rw [dropFormat, List.filter_eq_self.mpr fun p hp => by simp [h p hp], encode_codePoints]

/-- A tidy line without format points is its own normal form. -/
theorem displayableDetail_of_formatFree {maxLength : Nat} {s : JsString} (ht : Tidy maxLength s) (hf : FormatFree s) :
    displayableDetail (some s) maxLength = some s := by
  have hflat : flatten s = s := by
    rw [flatten, dropFormat_of_formatFree hf, controlsToSpaces_of_clean ht.controlFree,
      collapseSpaces_of_spaced ht.spaced (by simp), trim_of_trimmed ht.head ht.last]
  simp only [displayableDetail, hflat, if_neg ht.nonempty, clamp, if_neg (Nat.not_lt.mpr ht.bounded)]

/-! ## A second pass -/

theorem encode_length_le {ps qs : List Nat} (h : ps.Sublist qs) : (encode ps).length ≤ (encode qs).length := by
  induction h with
  | slnil => exact Nat.le_refl _
  | cons p _ ih =>
    simp only [encode, List.flatMap_cons, List.length_append] at ih ⊢
    omega
  | cons_cons p _ ih =>
    simp only [encode, List.flatMap_cons, List.length_append] at ih ⊢
    omega

theorem dropFormat_length_le (s : JsString) : (dropFormat s).length ≤ s.length := by
  have h := encode_length_le (List.filter_sublist (p := fun p => !isFormat p) (l := codePoints s))
  rwa [encode_codePoints] at h

theorem encode_filter_lt {ps : List Nat} {p : Nat} (hp : p ∈ ps) (hf : isFormat p = true) :
    (encode (ps.filter fun p => !isFormat p)).length < (encode ps).length := by
  obtain ⟨as, bs, rfl⟩ := List.append_of_mem hp
  have ha := encode_length_le (List.filter_sublist (p := fun p => !isFormat p) (l := as))
  have hb := encode_length_le (List.filter_sublist (p := fun p => !isFormat p) (l := bs))
  have hpos : 0 < (encodePoint p).length := List.length_pos_iff.mpr (encodePoint_ne_nil p)
  have hcons : encode (p :: bs) = encodePoint p ++ encode bs := rfl
  rw [List.filter_append, List.filter_cons, hf, encode_append, encode_append, hcons]
  simp only [List.length_append, Bool.not_true, Bool.false_eq_true, if_false]
  omega

theorem dropFormat_length_lt {s : JsString} (h : ¬ FormatFree s) : (dropFormat s).length < s.length := by
  have hex : ∃ p ∈ codePoints s, isFormat p = true := by simpa [FormatFree] using h
  obtain ⟨p, hp, hf⟩ := hex
  have hlt := encode_filter_lt hp hf
  rwa [encode_codePoints] at hlt

theorem collapseSpaces_length_le (b : Bool) (s : JsString) : (collapseSpaces b s).length ≤ s.length := by
  induction s generalizing b with
  | nil => simp [collapseSpaces]
  | cons v rest ih =>
    have ht := ih true
    have hf := ih false
    unfold collapseSpaces
    split
    · split
      · simp only [List.length_cons]
        omega
      · simpa using ht
    · simpa using hf

theorem flatten_length_le (d : JsString) : (flatten d).length ≤ (dropFormat d).length := by
  have h1 := (trim_segment (collapseSpaces false (controlsToSpaces (dropFormat d)))).length_le
  have h2 := collapseSpaces_length_le false (controlsToSpaces (dropFormat d))
  have h3 : (controlsToSpaces (dropFormat d)).length = (dropFormat d).length := by simp [controlsToSpaces]
  unfold flatten
  omega

theorem clamp_length_le {maxLength : Nat} (hmax : 0 < maxLength) (s : JsString) :
    (clamp maxLength s).length ≤ s.length := by
  unfold clamp
  split
  · rename_i hlt
    have hsplit : encode ((codePoints s).take (maxLength - 1)) ++ encode ((codePoints s).drop (maxLength - 1)) = s := by
      rw [← encode_append, List.take_append_drop, encode_codePoints]
    have hrest : encode ((codePoints s).drop (maxLength - 1)) ≠ [] := by
      intro h0
      cases hd : (codePoints s).drop (maxLength - 1) with
      | nil =>
        rw [List.drop_eq_nil_iff] at hd
        omega
      | cons p ps =>
        rw [hd] at h0
        exact encodePoint_ne_nil p (List.append_eq_nil_iff.mp h0).1
    have hpos := List.length_pos_iff.mpr hrest
    have hsum := congrArg List.length hsplit
    rw [List.length_append] at hsum
    rw [List.length_append, List.length_singleton]
    omega
  · exact Nat.le_refl _

theorem displayableDetail_length_le {maxLength : Nat} (hmax : 0 < maxLength) {s line : JsString}
    (h : displayableDetail (some s) maxLength = some line) : line.length ≤ (dropFormat s).length := by
  simp only [displayableDetail] at h
  split at h
  · cases h
  · cases h
    exact (clamp_length_le hmax _).trans (flatten_length_le s)

/-- A line that carries a format point comes back strictly shorter. -/
theorem displayableDetail_shrinks {maxLength : Nat} (hmax : 0 < maxLength) {s line : JsString} (hf : ¬ FormatFree s)
    (h : displayableDetail (some s) maxLength = some line) : line.length < s.length :=
  (displayableDetail_length_le hmax h).trans_lt (dropFormat_length_lt hf)

end Ccctl.Core
