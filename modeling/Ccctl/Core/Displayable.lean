import Ccctl.Core.Enrichment
/-
  Ccctl.Core.Displayable — when a normalized line is clean and stays as it is
  (`packages/core/src/index.ts`: `displayableDetail`, `enrichmentText`).

  A line is always tidy (`displayableDetail_tidy`). What can go wrong is a format point that
  the format pass itself makes: a lone high half and a lone low half of the input, with nothing
  but format points between them, meet once those are deleted, and the pair can be a format
  point. The later passes neither make such a pair nor break one (`format_mem_flatten`), so an
  input without one (`JoinsFormat`) has a clean line at every limit, and an input with one does
  not at the limits that let the pair through (`displayable_clean_iff`).
-/

namespace Ccctl.Core

/-- A high half next to a low half, together a format point. -/
def HasFormatPair (s : JsString) : Prop :=
  ∃ hi lo, [hi, lo] <:+: s ∧ isHigh hi = true ∧ isLow lo = true ∧ isFormat (pairPoint hi lo) = true

/-- A lone high half and a lone low half, only format points between them, together a format point. -/
def JoinsFormat (d : JsString) : Prop :=
  ∃ (hi lo : UInt16) (between : List Nat), hi.toNat :: (between ++ [lo.toNat]) <:+: codePoints d ∧
    isHigh hi = true ∧ isLow lo = true ∧ (∀ p ∈ between, isFormat p = true) ∧ isFormat (pairPoint hi lo) = true

/-! ## Halves -/

theorem isFormat_half {u : UInt16} (h : isHigh u = true ∨ isLow u = true) : isFormat u.toNat = false := by
  simp only [isHigh, isLow, Bool.and_eq_true, decide_eq_true_eq] at h
  simp only [isFormat, Bool.or_eq_false_iff, Bool.and_eq_false_iff, beq_eq_false_iff_ne, decide_eq_false_iff_not]
  omega

theorem isHigh_of_isLow {u : UInt16} (h : isLow u = true) : isHigh u = false := by
  simp only [isLow, Bool.and_eq_true, decide_eq_true_eq] at h
  simp only [isHigh, Bool.and_eq_false_iff, decide_eq_false_iff_not]
  omega

theorem no_half {u : UInt16} (h : u.toNat < 0xD800 ∨ 0xE000 ≤ u.toNat) : isHigh u = false ∧ isLow u = false := by
  simp only [isHigh, isLow, Bool.and_eq_false_iff, decide_eq_false_iff_not]
  omega

theorem half_of_isSpace {u : UInt16} (h : isSpace u = true) : isHigh u = false ∧ isLow u = false := by
  simp only [isSpace, Bool.or_eq_true, Bool.and_eq_true, decide_eq_true_eq, beq_iff_eq] at h
  rcases h with (((((((((h | rfl) | rfl) | rfl) | h) | rfl) | rfl) | rfl) | rfl) | rfl) | rfl
  case inl.inl.inl.inl.inl.inl.inl.inl.inl.inl => exact no_half (by omega)
  case inl.inl.inl.inl.inl.inl.inr => exact no_half (by omega)
  all_goals exact ⟨by decide, by decide⟩

theorem half_of_isControl {u : UInt16} (h : isControl u = true) : isHigh u = false ∧ isLow u = false := by
  simp only [isControl, Bool.or_eq_true, Bool.and_eq_true, decide_eq_true_eq] at h
  exact no_half (by omega)

/-- A unit in front makes a pair with the next one, or makes none. -/
theorem hasFormatPair_cons (u : UInt16) (s : JsString) :
    HasFormatPair (u :: s) ↔
      (∃ v, s.head? = some v ∧ isHigh u = true ∧ isLow v = true ∧ isFormat (pairPoint u v) = true) ∨
        HasFormatPair s := by
  constructor
  · intro hparts
    obtain ⟨hi, lo, hin, hrest⟩ := hparts
    rcases List.infix_cons_iff.mp hin with hpre | hin
    · obtain ⟨rfl, t, ht⟩ := List.cons_prefix_cons.mp hpre
      subst ht
      exact Or.inl ⟨lo, rfl, hrest⟩
    · exact Or.inr ⟨hi, lo, hin, hrest⟩
  · rintro (⟨v, hv, hrest⟩ | ⟨hi, lo, hin, hrest⟩)
    · cases s with
      | nil => cases hv
      | cons w t =>
        obtain rfl : w = v := by simpa using hv
        exact ⟨u, w, ⟨[], t, rfl⟩, hrest⟩
    · exact ⟨hi, lo, List.infix_cons hin, hrest⟩

theorem not_hasFormatPair_nil : ¬ HasFormatPair [] := by
  intro hparts
  obtain ⟨hi, lo, hin, -⟩ := hparts
  simpa using hin.length_le

/-- A unit that is no high half changes nothing in front. -/
theorem hasFormatPair_cons_of_not_high {u : UInt16} (h : isHigh u = false) (s : JsString) :
    HasFormatPair (u :: s) ↔ HasFormatPair s := by
  rw [hasFormatPair_cons]
  simp [h]

/-- The format points of a string: single units, and pairs. -/
theorem format_mem_codePoints (s : JsString) :
    (∃ p ∈ codePoints s, isFormat p = true) ↔ (∃ u ∈ s, isFormat u.toNat = true) ∨ HasFormatPair s := by
  induction s using codePoints.induct with
  | case1 => simp [codePoints, not_hasFormatPair_nil]
  | case2 u => simp [codePoints, hasFormatPair_cons, not_hasFormatPair_nil]
  | case3 u v rest h ih =>
    obtain ⟨hu, hv⟩ := Bool.and_eq_true_iff.mp h
    rw [codePoints, if_pos h, hasFormatPair_cons, hasFormatPair_cons_of_not_high (isHigh_of_isLow hv)]
    simp only [List.mem_cons, exists_eq_or_imp, ih, isFormat_half (Or.inl hu), isFormat_half (Or.inr hv), hu,
      List.head?_cons, Option.some.injEq, exists_eq_left', hv, true_and, Bool.false_eq_true, false_or]
    exact or_left_comm
  | case4 u v rest h ih =>
    rw [codePoints, if_neg h, hasFormatPair_cons]
    have hno : ¬ ∃ w, (v :: rest).head? = some w ∧ isHigh u = true ∧ isLow w = true ∧ isFormat (pairPoint u w) = true := by
      intro hex
      obtain ⟨w, hw, hu, hl, -⟩ := hex
      obtain rfl : v = w := by simpa using hw
      exact h (by simp [hu, hl])
    simp only [List.mem_cons, exists_eq_or_imp, hno, false_or] at ih ⊢
    rw [ih]
    exact or_assoc.symm

/-! ## The later passes keep the pairs -/

theorem hasFormatPair_controlsToSpaces (s : JsString) : HasFormatPair (controlsToSpaces s) ↔ HasFormatPair s := by
  induction s with
  | nil => rfl
  | cons u rest ih =>
    have hmap : controlsToSpaces (u :: rest) = (if isControl u then 0x20 else u) :: controlsToSpaces rest := rfl
    rw [hmap]
    split
    · rename_i hu
      rw [hasFormatPair_cons_of_not_high (by decide), hasFormatPair_cons_of_not_high (half_of_isControl hu).1, ih]
    · rw [hasFormatPair_cons, hasFormatPair_cons, ih]
      cases rest with
      | nil => rfl
      | cons v rest =>
        have hhead : (controlsToSpaces (v :: rest)).head? = some (if isControl v then 0x20 else v) := rfl
        rw [hhead, List.head?_cons]
        split
        · rename_i hv
          have hlow := (half_of_isControl hv).2
          have hspace : isLow 0x20 = false := by decide
          simp [hlow, hspace]
        · rfl

theorem hasFormatPair_collapseSpaces (b : Bool) (s : JsString) : HasFormatPair (collapseSpaces b s) ↔ HasFormatPair s := by
  induction s generalizing b with
  | nil => rfl
  | cons u rest ih =>
    rw [collapseSpaces]
    split
    · rename_i hu
      rw [hasFormatPair_cons_of_not_high (half_of_isSpace hu).1]
      split
      · exact ih true
      · rw [hasFormatPair_cons_of_not_high (by decide), ih true]
    · rw [hasFormatPair_cons, hasFormatPair_cons, ih false]
      cases rest with
      | nil => rfl
      | cons v rest =>
        rw [collapseSpaces]
        split
        · rename_i hv
          have hlow := (half_of_isSpace hv).2
          have hspace : isLow 0x20 = false := by decide
          simp [hlow, hspace]
        · rfl

theorem hasFormatPair_append_spaces {before after : JsString} (hb : ∀ u ∈ before, isSpace u = true)
    (ha : ∀ u ∈ after, isSpace u = true) (s : JsString) : HasFormatPair (before ++ (s ++ after)) ↔ HasFormatPair s := by
  have hafter : HasFormatPair (s ++ after) ↔ HasFormatPair s := by
    induction s with
    | nil =>
      refine iff_of_false (fun ⟨hi, lo, hin, hhi, _⟩ => ?_) not_hasFormatPair_nil
      have hspace := ha hi (hin.subset (by simp))
      rw [(half_of_isSpace hspace).1] at hhi
      cases hhi
    | cons u rest ih =>
      rw [List.cons_append, hasFormatPair_cons, hasFormatPair_cons, ih]
      cases rest with
      | cons v rest => rfl
      | nil =>
        refine or_congr_left (iff_of_false ?_ (by simp))
        intro hex
        obtain ⟨v, hv, -, hlow, -⟩ := hex
        have hspace := ha v (List.mem_of_mem_head? hv)
        rw [(half_of_isSpace hspace).2] at hlow
        cases hlow
  rw [← hafter]
  induction before with
  | nil => rfl
  | cons u rest ih =>
    rw [List.cons_append, hasFormatPair_cons_of_not_high (half_of_isSpace (hb u (by simp))).1]
    exact ih fun v hv => hb v (List.mem_cons_of_mem _ hv)

theorem hasFormatPair_trim (s : JsString) : HasFormatPair (trim s) ↔ HasFormatPair s := by
  have hsplit : s = s.takeWhile isSpace ++ (trim s ++ (s.dropWhile isSpace).rtakeWhile isSpace) := by
    rw [trim, List.rdropWhile_append_rtakeWhile, List.takeWhile_append_dropWhile]
  conv_rhs => rw [hsplit]
  exact (hasFormatPair_append_spaces (fun u hu => List.mem_takeWhile_imp hu)
    (fun u hu => List.mem_rtakeWhile_imp hu) _).symm

/-! ## What the format pass joins -/

theorem unit_of_mem_dropFormat {d : JsString} {u : UInt16} (h : u ∈ dropFormat d) : isFormat u.toNat = false := by
  obtain ⟨p, hp, hu⟩ := List.mem_flatMap.mp h
  obtain ⟨hmem, hkeep⟩ := List.mem_filter.mp hp
  have hlt := codePoints_lt d p hmem
  unfold encodePoint at hu
  split at hu
  · rename_i hbmp
    have hnat : (UInt16.ofNat p).toNat = p := by
      rw [UInt16.toNat_ofNat']
      omega
    obtain rfl : u = UInt16.ofNat p := by simpa using hu
    simpa [hnat] using hkeep
  · apply isFormat_half
    simp only [List.mem_cons, List.not_mem_nil, or_false] at hu
    rcases hu with rfl | rfl
    · left
      simp only [isHigh, Bool.and_eq_true, decide_eq_true_eq, UInt16.toNat_ofNat']
      omega
    · right
      simp only [isLow, Bool.and_eq_true, decide_eq_true_eq, UInt16.toNat_ofNat']
      omega

/-- The two halves of a point beyond the first plane. -/
theorem encodePoint_halves {p : Nat} (hlo : 0x10000 ≤ p) (hhi : p < 0x110000) :
    ∃ hi lo, encodePoint p = [hi, lo] ∧ isHigh hi = true ∧ isLow lo = true ∧ pairPoint hi lo = p := by
  have hh : (UInt16.ofNat (0xD800 + (p - 0x10000) / 0x400)).toNat = 0xD800 + (p - 0x10000) / 0x400 := by
    rw [UInt16.toNat_ofNat']
    omega
  have hl : (UInt16.ofNat (0xDC00 + (p - 0x10000) % 0x400)).toNat = 0xDC00 + (p - 0x10000) % 0x400 := by
    rw [UInt16.toNat_ofNat']
    omega
  refine ⟨_, _, by rw [encodePoint, if_neg (by omega)], ?_, ?_, ?_⟩
  · simp only [isHigh, hh, Bool.and_eq_true, decide_eq_true_eq]
    omega
  · simp only [isLow, hl, Bool.and_eq_true, decide_eq_true_eq]
    omega
  · unfold pairPoint
    omega

theorem encodePoint_bmp {p : Nat} (h : p < 0x10000) : ∃ u, encodePoint p = [u] ∧ u.toNat = p := by
  refine ⟨UInt16.ofNat p, by rw [encodePoint, if_pos h], ?_⟩
  rw [UInt16.toNat_ofNat']
  omega

/-- The points that are kept, put back together. -/
def keptUnits (ps : List Nat) : JsString := encode (ps.filter fun p => !isFormat p)

theorem keptUnits_cons (p : Nat) (ps : List Nat) :
    keptUnits (p :: ps) = if isFormat p then keptUnits ps else encodePoint p ++ keptUnits ps := by
  by_cases h : isFormat p = true
  · rw [if_pos h, keptUnits, List.filter_cons_of_neg (by simp [h]), keptUnits]
  · rw [if_neg h, keptUnits, List.filter_cons_of_pos (by simpa using h), keptUnits, encode, List.flatMap_cons]
    rfl

/-- The kept units open with a low half exactly when only format points stand before it. -/
theorem keptUnits_head {ps : List Nat} (hps : ∀ p ∈ ps, p < 0x110000) {v : UInt16} (hv : isLow v = true) :
    (keptUnits ps).head? = some v ↔
      ∃ between : List Nat, (∀ p ∈ between, isFormat p = true) ∧ between ++ [v.toNat] <+: ps := by
  induction ps with
  | nil => simp [keptUnits, encode]
  | cons p ps ih =>
    have ih := ih fun q hq => hps q (List.mem_cons_of_mem _ hq)
    rw [keptUnits_cons]
    cases hp : isFormat p with
    | true =>
      rw [if_pos rfl, ih]
      constructor
      · intro hex
        obtain ⟨between, hall, hpre⟩ := hex
        exact ⟨p :: between, List.forall_mem_cons.mpr ⟨hp, hall⟩, List.cons_prefix_cons.mpr ⟨rfl, hpre⟩⟩
      · intro hex
        obtain ⟨between, hall, hpre⟩ := hex
        cases between with
        | nil =>
          obtain rfl := (List.cons_prefix_cons.mp hpre).1
          rw [isFormat_half (Or.inr hv)] at hp
          cases hp
        | cons q between =>
          exact ⟨between, fun r hr => hall r (List.mem_cons_of_mem _ hr), (List.cons_prefix_cons.mp hpre).2⟩
    | false =>
      have hfirst : (∃ between : List Nat, (∀ p ∈ between, isFormat p = true) ∧ between ++ [v.toNat] <+: p :: ps) ↔
          p = v.toNat := by
        constructor
        · intro hex
          obtain ⟨between, hall, hpre⟩ := hex
          cases between with
          | nil => exact (List.cons_prefix_cons.mp hpre).1.symm
          | cons q between =>
            obtain rfl := (List.cons_prefix_cons.mp hpre).1
            rw [hall q (by simp)] at hp
            cases hp
        · intro heq
          subst heq
          exact ⟨[], by simp, by simp⟩
      rw [if_neg (by simp), hfirst]
      rcases Nat.lt_or_ge p 0x10000 with hbmp | hbig
      · obtain ⟨u, hu, rfl⟩ := encodePoint_bmp hbmp
        rw [hu, List.singleton_append, List.head?_cons, Option.some.injEq]
        exact UInt16.toNat_inj.symm
      · obtain ⟨hi, lo, hpair, hhi, -, -⟩ := encodePoint_halves hbig (hps p (by simp))
        rw [hpair, List.cons_append, List.head?_cons, Option.some.injEq]
        have hlt := v.toNat_lt
        refine iff_of_false ?_ (by omega)
        intro heq
        subst heq
        rw [isHigh_of_isLow hv] at hhi
        cases hhi

/-- The same, of any points. -/
def Joins (ps : List Nat) : Prop :=
  ∃ (hi lo : UInt16) (between : List Nat), hi.toNat :: (between ++ [lo.toNat]) <:+: ps ∧
    isHigh hi = true ∧ isLow lo = true ∧ (∀ p ∈ between, isFormat p = true) ∧ isFormat (pairPoint hi lo) = true

theorem joins_cons (p : Nat) (ps : List Nat) :
    Joins (p :: ps) ↔
      (∃ (hi lo : UInt16) (between : List Nat), hi.toNat = p ∧ between ++ [lo.toNat] <+: ps ∧ isHigh hi = true ∧
        isLow lo = true ∧ (∀ p ∈ between, isFormat p = true) ∧ isFormat (pairPoint hi lo) = true) ∨ Joins ps := by
  constructor
  · intro hparts
    obtain ⟨hi, lo, between, hin, hrest⟩ := hparts
    rcases List.infix_cons_iff.mp hin with hpre | hin
    · obtain ⟨hhi, hpre⟩ := List.cons_prefix_cons.mp hpre
      exact Or.inl ⟨hi, lo, between, hhi, hpre, hrest⟩
    · exact Or.inr ⟨hi, lo, between, hin, hrest⟩
  · rintro (⟨hi, lo, between, rfl, hpre, hrest⟩ | ⟨hi, lo, between, hin, hrest⟩)
    · exact ⟨hi, lo, between, (List.cons_prefix_cons.mpr ⟨rfl, hpre⟩).isInfix, hrest⟩
    · exact ⟨hi, lo, between, List.infix_cons hin, hrest⟩

theorem hasFormatPair_keptUnits {ps : List Nat} (hps : ∀ p ∈ ps, p < 0x110000) :
    HasFormatPair (keptUnits ps) ↔ Joins ps := by
  induction ps with
  | nil =>
    refine iff_of_false not_hasFormatPair_nil ?_
    intro hparts
    obtain ⟨hi, lo, between, hin, -⟩ := hparts
    simpa using hin.length_le
  | cons p ps ih =>
    have hrest : ∀ q ∈ ps, q < 0x110000 := fun q hq => hps q (List.mem_cons_of_mem _ hq)
    rw [keptUnits_cons, joins_cons, ← ih hrest]
    split
    · rename_i hp
      refine (or_iff_right ?_).symm
      intro hfacts
      obtain ⟨hi, lo, between, rfl, -, hhi, -⟩ := hfacts
      rw [isFormat_half (Or.inl hhi)] at hp
      cases hp
    · rename_i hp
      rcases Nat.lt_or_ge p 0x10000 with hbmp | hbig
      · obtain ⟨u, hu, rfl⟩ := encodePoint_bmp hbmp
        rw [hu, List.singleton_append, hasFormatPair_cons]
        refine or_congr_left ⟨?_, ?_⟩
        · intro hex
          obtain ⟨v, hhead, hhi, hlo, hf⟩ := hex
          obtain ⟨between, hall, hpre⟩ := (keptUnits_head hrest hlo).mp hhead
          exact ⟨u, v, between, rfl, hpre, hhi, hlo, hall, hf⟩
        · intro hex
          obtain ⟨hi, lo, between, heq, hpre, hhi, hlo, hall, hf⟩ := hex
          obtain rfl : hi = u := UInt16.toNat_inj.mp heq
          exact ⟨lo, (keptUnits_head hrest hlo).mpr ⟨between, hall, hpre⟩, hhi, hlo, hf⟩
      · -- a pair that the input already has stays a pair, and is no format point
        obtain ⟨hi, lo, hpair, hhi, hlo, rfl⟩ := encodePoint_halves hbig (hps p (by simp))
        rw [hpair, List.cons_append, List.singleton_append, hasFormatPair_cons,
          hasFormatPair_cons_of_not_high (isHigh_of_isLow hlo)]
        refine or_congr_left (iff_of_false ?_ ?_)
        · intro hex
          obtain ⟨v, hv, -, -, hf⟩ := hex
          obtain rfl : lo = v := by simpa using hv
          exact hp hf
        · intro hex
          obtain ⟨hi', lo', between, heq, -⟩ := hex
          have hlt := hi'.toNat_lt
          omega

/-- The format points of a flattened line are the ones the format pass joins. -/
theorem format_mem_flatten (d : JsString) : (∃ p ∈ codePoints (flatten d), isFormat p = true) ↔ JoinsFormat d := by
  have hunits : ¬ ∃ u ∈ flatten d, isFormat u.toNat = true := by
    intro hex
    obtain ⟨u, hu, hf⟩ := hex
    rcases mem_collapseSpaces ((trim_segment _).subset hu) with rfl | ⟨hc, -⟩
    · exact absurd hf (by decide)
    · obtain ⟨v, hv, rfl⟩ := List.mem_map.mp hc
      split at hf
      · exact absurd hf (by decide)
      · rw [unit_of_mem_dropFormat hv] at hf
        cases hf
  rw [format_mem_codePoints, or_iff_right hunits, flatten, hasFormatPair_trim, hasFormatPair_collapseSpaces,
    hasFormatPair_controlsToSpaces]
  exact hasFormatPair_keptUnits (codePoints_lt d)

/-! ## What a limit shows -/

/-- The points of the flattened line that stand in the result. -/
def shownPoints (maxLength : Nat) (d : JsString) : List Nat :=
  if maxLength < (codePoints (flatten d)).length then (codePoints (flatten d)).take (maxLength - 1)
  else codePoints (flatten d)

theorem codePoints_take_ellipsis (s : JsString) (k : Nat) :
    codePoints (encode ((codePoints s).take k) ++ [0x2026]) = (codePoints s).take k ++ [0x2026] := by
  induction s using codePoints.induct generalizing k with
  | case1 => simp [codePoints, encode]
  | case2 u =>
    have hlow : isLow 0x2026 = false := by decide
    cases k with
    | zero => simp [encode, codePoints]
    | succ k => simp [codePoints, encode, encodePoint_unit, hlow]
  | case3 u v rest h ih =>
    obtain ⟨hu, hv⟩ := Bool.and_eq_true_iff.mp h
    cases k with
    | zero => simp [encode, codePoints]
    | succ k =>
      have hpair : encode (pairPoint u v :: (codePoints rest).take k) = u :: v :: encode ((codePoints rest).take k) := by
        simp [encode, encodePoint_pair hu hv]
      rw [codePoints, if_pos h, List.take_succ_cons, hpair, List.cons_append, List.cons_append, codePoints, if_pos h,
        ih, List.cons_append]
  | case4 u v rest h ih =>
    cases k with
    | zero => simp [encode, codePoints]
    | succ k =>
      have hunit : encode (u.toNat :: (codePoints (v :: rest)).take k) = u :: encode ((codePoints (v :: rest)).take k) := by
        simp [encode, encodePoint_unit]
      have ih := ih k
      rw [codePoints, if_neg h, List.take_succ_cons, hunit, List.cons_append, List.cons_append, ← ih]
      -- what follows `u` opens with `v` or with the ellipsis
      obtain ⟨t, ht⟩ := encode_take_prefix k (v :: rest)
      cases hcut : encode ((codePoints (v :: rest)).take k) with
      | nil =>
        have hlow : isLow 0x2026 = false := by decide
        simp [codePoints, hlow]
      | cons w cut =>
        obtain rfl : w = v := by
          rw [hcut] at ht
          simpa using (List.cons.inj ht).1
        rw [List.cons_append, codePoints, if_neg h]

theorem codePoints_clamp (maxLength : Nat) (d : JsString) :
    codePoints (clamp maxLength (flatten d)) = shownPoints maxLength d ∨
    codePoints (clamp maxLength (flatten d)) = shownPoints maxLength d ++ [0x2026] := by
  unfold clamp shownPoints
  split
  · exact Or.inr (codePoints_take_ellipsis _ _)
  · exact Or.inl rfl

theorem formatFree_clamp (maxLength : Nat) (d : JsString) :
    FormatFree (clamp maxLength (flatten d)) ↔ ∀ p ∈ shownPoints maxLength d, isFormat p = false := by
  have hellipsis : isFormat 0x2026 = false := by decide
  unfold FormatFree
  rcases codePoints_clamp maxLength d with h | h <;> rw [h]
  simp [or_imp, forall_and, hellipsis]

/-! ## Clean lines -/

/-- What the normalizer's consumers are promised of a line. -/
structure Clean (maxLength : Nat) (line : JsString) : Prop where
  tidy : Tidy maxLength line
  formatFree : FormatFree line
  fixed : displayableDetail (some line) maxLength = some line

/-- Whenever there is a line, it is clean. -/
def ComesClean (maxLength : Nat) (shown : Option JsString) : Prop := ∀ line, shown = some line → Clean maxLength line

theorem displayableDetail_clean {maxLength : Nat} (hmax : 0 < maxLength) (d : JsString) :
    ComesClean maxLength (displayableDetail (some d) maxLength) ↔ ∀ p ∈ shownPoints maxLength d, isFormat p = false := by
  rw [← formatFree_clamp]
  by_cases hnil : flatten d = []
  · have hnone : displayableDetail (some d) maxLength = none := by simp [displayableDetail, hnil]
    have hempty : clamp maxLength (flatten d) = [] := by simp [clamp, hnil, codePoints]
    rw [hnone, hempty]
    exact iff_of_true (fun line h => by cases h) (by decide)
  · have hsome : displayableDetail (some d) maxLength = some (clamp maxLength (flatten d)) := by
      simp [displayableDetail, hnil]
    have htidy := displayableDetail_tidy hmax hsome
    constructor
    · exact fun h => (h _ hsome).formatFree
    · intro hfree line hline
      rw [hsome, Option.some.injEq] at hline
      subst hline
      exact ⟨htidy, hfree, displayableDetail_of_formatFree htidy hfree⟩

theorem shownPoints_subset (maxLength : Nat) (d : JsString) : shownPoints maxLength d ⊆ codePoints (flatten d) := by
  unfold shownPoints
  split
  · exact List.take_subset _ _
  · exact List.Subset.refl _

theorem shownPoints_all (d : JsString) : shownPoints ((codePoints (flatten d)).length + 1) d = codePoints (flatten d) := by
  rw [shownPoints, if_neg (by omega)]

/-- A string's lines are clean at every limit exactly when the format pass joins no format
    point in it; at one limit, when it joins none that the limit shows. -/
theorem displayable_clean_iff (d : JsString) :
    ((∀ maxLength, 0 < maxLength → ComesClean maxLength (displayableDetail (some d) maxLength)) ↔ ¬ JoinsFormat d) ∧
    (∀ maxLength, 0 < maxLength → (ComesClean maxLength (displayableDetail (some d) maxLength) ↔
      ∀ p ∈ shownPoints maxLength d, isFormat p = false)) ∧
    (ComesClean MAX_ENRICHMENT_TEXT_LENGTH (enrichmentText (some (.str d))) ↔
      ∀ p ∈ shownPoints MAX_ENRICHMENT_TEXT_LENGTH d, isFormat p = false) := by
  refine ⟨⟨fun h hjoins => ?_, fun hjoins maxLength hmax => ?_⟩, fun maxLength hmax => displayableDetail_clean hmax d,
    displayableDetail_clean (by decide) d⟩
  · obtain ⟨p, hp, hf⟩ := (format_mem_flatten d).mpr hjoins
    have hclean := (displayableDetail_clean (Nat.succ_pos _) d).mp
      (h ((codePoints (flatten d)).length + 1) (Nat.succ_pos _))
    rw [hclean p (by rwa [shownPoints_all])] at hf
    cases hf
  · refine (displayableDetail_clean hmax d).mpr fun p hp => ?_
    by_contra hf
    exact hjoins ((format_mem_flatten d).mp ⟨p, shownPoints_subset maxLength d hp, by simpa using hf⟩)

theorem displayable_clean_iff_spaced :
    ComesClean 4 (displayableDetail (some (js " a\t\tb c d")) 4) :=
  ((displayable_clean_iff _).2.1 4 (by decide)).mpr (by decide)

/-- `A`, half a pair, a zero-width space, the other half, `B`: the halves meet in U+E0001. -/
theorem displayable_joined :
    ¬ ∀ d maxLength, 0 < maxLength → ComesClean maxLength (displayableDetail (some d) maxLength) := by
  intro h
  have hclean := h [0x41, 0xDB40, 0x200B, 0xDC01, 0x42] 200 (by decide) [0x41, 0xDB40, 0xDC01, 0x42] (by decide)
  exact absurd hclean.formatFree (by decide)

end Ccctl.Core
