import Ccctl.Core.JsonText
import Ccctl.Core.UrlEncoding
/-
  Ccctl.Core.Spelt — texts that go over the wire unchanged.

  A text of scalar values is itself, written as UTF-8 and read back; it is spelt when none of them
  is a control below the space, and then it ends no line. What `JSON.stringify` writes is spelt,
  whatever the value: controls and lone surrogates leave it as escapes (`spelt_stringify`). An
  indented text has line feeds besides (`scalars_indented`).
-/

namespace Ccctl.Core

open Ccctl.Lib

/-! ## The points of an encoded text -/

theorem codePoints_encodePoint {p : Nat} (h : isScalar p = true) (rest : JsString) :
    codePoints (encodePoint p ++ rest) = p :: codePoints rest := by
  simp only [isScalar, isSurrogate, Bool.and_eq_true, decide_eq_true_eq, Bool.not_eq_true', Bool.and_eq_false_iff,
    decide_eq_false_iff_not] at h
  obtain ⟨hmax, hplain⟩ := h
  unfold encodePoint
  split
  · rename_i hunit
    have hto : (UInt16.ofNat p).toNat = p := by
      rw [UInt16.toNat_ofNat']
      omega
    have hhigh : isHigh (UInt16.ofNat p) = false := by
      rw [isHigh, hto, Bool.and_eq_false_iff, decide_eq_false_iff_not, decide_eq_false_iff_not]
      omega
    rw [List.singleton_append, codePoints_cons_plain hhigh, hto]
  · rename_i hunit
    obtain ⟨hi, hhi⟩ : ∃ hi, hi = UInt16.ofNat (0xD800 + (p - 0x10000) / 0x400) := ⟨_, rfl⟩
    obtain ⟨lo, hlo⟩ : ∃ lo, lo = UInt16.ofNat (0xDC00 + (p - 0x10000) % 0x400) := ⟨_, rfl⟩
    have hhiNat : hi.toNat = 0xD800 + (p - 0x10000) / 0x400 := by
      rw [hhi, UInt16.toNat_ofNat']
      omega
    have hloNat : lo.toNat = 0xDC00 + (p - 0x10000) % 0x400 := by
      rw [hlo, UInt16.toNat_ofNat']
      omega
    have hpair : (isHigh hi && isLow lo) = true := by
      simp only [isHigh, isLow, hhiNat, hloNat, Bool.and_eq_true, decide_eq_true_eq]
      omega
    have hpoint : pairPoint hi lo = p := by
      unfold pairPoint
      omega
    rw [← hhi, ← hlo]
    show codePoints (hi :: lo :: rest) = _
    rw [codePoints, if_pos hpair, hpoint]

theorem codePoints_encode {points : List Nat} (h : ∀ p ∈ points, isScalar p = true) : codePoints (encode points) = points := by
  induction points with
  | nil => rfl
  | cons p points ih =>
    obtain ⟨hp, hpoints⟩ := List.forall_mem_cons.mp h
    have hcons : encode (p :: points) = encodePoint p ++ encode points := List.flatMap_cons
    rw [hcons, codePoints_encodePoint hp, ih hpoints]

theorem formBytes_encode {points : List Nat} (h : ∀ p ∈ points, isScalar p = true) :
    formBytes (encode points) = points.flatMap utf8 := by
  have hplain : ∀ p ∈ points, utf8 (if isSurrogate p then replacement else p) = utf8 p := fun p hp => by
    have hscalar := h p hp
    rw [isScalar, Bool.and_eq_true, Bool.not_eq_true'] at hscalar
    rw [hscalar.2]
    rfl
  rw [formBytes, codePoints_encode h]
  exact List.flatMap_congr hplain

/-! ## Texts by their points -/

/-- A text of code points that are all such. -/
def Made (P : Nat → Prop) (text : JsString) : Prop := ∃ points, (∀ p ∈ points, P p) ∧ text = encode points

section
variable {P : Nat → Prop}

theorem Made.mono {Q : Nat → Prop} {text : JsString} (h : Made P text) (hw : ∀ p, P p → Q p) : Made Q text := by
  obtain ⟨points, hpoints, rfl⟩ := h
  exact ⟨points, fun p hp => hw p (hpoints p hp), rfl⟩

theorem Made.nil : Made P [] := ⟨[], by simp, rfl⟩

theorem Made.append {text later : JsString} (h : Made P text) (hlater : Made P later) : Made P (text ++ later) := by
  obtain ⟨points, hpoints, rfl⟩ := h
  obtain ⟨points', hpoints', rfl⟩ := hlater
  refine ⟨points ++ points', fun p hp => ?_, (encode_append points points').symm⟩
  rcases List.mem_append.mp hp with hp | hp
  · exact hpoints p hp
  · exact hpoints' p hp

theorem Made.flatMap {α : Type} {items : List α} {f : α → JsString} (h : ∀ a ∈ items, Made P (f a)) :
    Made P (items.flatMap f) := by
  induction items with
  | nil => exact .nil
  | cons a items ih =>
    obtain ⟨ha, hitems⟩ := List.forall_mem_cons.mp h
    rw [List.flatMap_cons]
    exact ha.append (ih hitems)

end

/-- No lone surrogate. -/
abbrev Scalars : JsString → Prop := Made fun p => isScalar p = true

/-- Written as UTF-8 and read back. -/
theorem Scalars.readBack {text : JsString} (h : Scalars text) : encode (utf8Decode (formBytes text)) = text := by
  obtain ⟨points, hpoints, rfl⟩ := h
  rw [formBytes_encode hpoints, utf8Decode_encoded hpoints]

def Printable (p : Nat) : Prop := isScalar p = true ∧ 0x20 ≤ p

/-- No control either: what a line of JSON is made of. -/
abbrev Spelt : JsString → Prop := Made Printable

theorem Spelt.scalars {text : JsString} (h : Spelt text) : Scalars text := h.mono fun _ hp => hp.1

theorem Spelt.printable {text : JsString} (h : Spelt text) : ∀ p ∈ codePoints text, Printable p := by
  obtain ⟨points, hpoints, rfl⟩ := h
  rw [codePoints_encode fun p hp => (hpoints p hp).1]
  exact hpoints

theorem Spelt.readBack {text : JsString} (h : Spelt text) : encode (utf8Decode (formBytes text)) = text :=
  h.scalars.readBack

theorem Spelt.bytes {text : JsString} (h : Spelt text) : ∀ b ∈ formBytes text, b < 0x100 := by
  obtain ⟨points, hpoints, rfl⟩ := h
  rw [formBytes_encode fun p hp => (hpoints p hp).1]
  intro b hb
  obtain ⟨p, hp, hb⟩ := List.mem_flatMap.mp hb
  exact utf8_lt (hpoints p hp).1 b hb

theorem spelt_point {p : Nat} (h : Printable p) : Spelt (encodePoint p) := ⟨[p], by simpa using h, by simp [encode]⟩

/-- Printable ASCII. -/
def isPlainUnit (u : UInt16) : Bool := 0x20 ≤ u.toNat && u.toNat < 0x80

theorem spelt_plain {text : JsString} (h : text.all isPlainUnit = true) : Spelt text := by
  refine ⟨text.map UInt16.toNat, fun p hp => ?_, ?_⟩
  · obtain ⟨u, hu, rfl⟩ := List.mem_map.mp hp
    have hplain := List.all_eq_true.mp h u hu
    simp only [isPlainUnit, Bool.and_eq_true, decide_eq_true_eq] at hplain
    simp only [Printable, isScalar, isSurrogate, Bool.and_eq_true, decide_eq_true_eq, Bool.not_eq_true',
      Bool.and_eq_false_iff, decide_eq_false_iff_not]
    omega
  · clear h
    induction text with
    | nil => rfl
    | cons u text ih =>
      have hcons : encode ((u :: text).map UInt16.toNat) = encodePoint u.toNat ++ encode (text.map UInt16.toNat) :=
        List.flatMap_cons
      rw [hcons, encodePoint_unit, ← ih, List.singleton_append]

theorem Spelt.noLineFeed {text : JsString} (h : Spelt text) : (0x0A : UInt16) ∉ text := by
  obtain ⟨points, hpoints, rfl⟩ := h
  intro hmem
  obtain ⟨p, hp, hu⟩ := List.mem_flatMap.mp hmem
  have hprintable := (hpoints p hp).2
  have hbig : ∀ n : Nat, 0x20 ≤ n → n < 0x10000 → (0x0A : UInt16) ≠ UInt16.ofNat n := by
    intro n hlo hhi heq
    have hnat := congrArg UInt16.toNat heq
    rw [UInt16.toNat_ofNat'] at hnat
    have hlf : (0x0A : UInt16).toNat = 0x0A := rfl
    omega
  have hmax : p < 0x110000 := by
    have hscalar := (hpoints p hp).1
    rw [isScalar, Bool.and_eq_true, decide_eq_true_eq] at hscalar
    exact hscalar.1
  unfold encodePoint at hu
  split at hu
  · rename_i hunit
    exact hbig p hprintable hunit (List.mem_singleton.mp hu)
  · rcases List.mem_cons.mp hu with hu | hu
    · exact hbig _ (by omega) (by omega) hu
    · exact hbig _ (by omega) (by omega) (List.mem_singleton.mp hu)

/-! ## JSON text is spelt -/

namespace Json

theorem spelt_hexDigit : ∀ n < 16, isPlainUnit (hexDigit n) = true := by decide

/-- A quoted code point, whatever the point: what is not printable is escaped. -/
theorem spelt_quotePoint {p : Nat} (hp : p < 0x110000) : Spelt (quotePoint p) := by
  unfold quotePoint
  split
  · rename_i e he
    obtain ⟨before, after, hsplit, -⟩ := List.lookup_eq_some_iff.mp he
    have hmem : (p, e) ∈ SHORT_ESCAPES := by simp [hsplit]
    have hplain : ∀ f ∈ SHORT_ESCAPES, isPlainUnit f.2 = true := by decide
    refine spelt_plain ?_
    simp [hplain _ hmem]
    decide
  · split
    · refine spelt_plain ?_
      have h := spelt_hexDigit
      simp only [unicodeEscape, List.all_cons, List.all_nil, Bool.and_true, Bool.and_eq_true]
      exact ⟨by decide, by decide, h _ (by omega), h _ (by omega), h _ (by omega), h _ (by omega)⟩
    · refine spelt_point ⟨?_, by omega⟩
      simp only [isScalar, isSurrogate, Bool.and_eq_true, decide_eq_true_eq, Bool.not_eq_true', Bool.and_eq_false_iff,
        decide_eq_false_iff_not]
      omega

theorem spelt_quote (s : JsString) : Spelt (quote s) := by
  have hquote : Spelt [0x22] := spelt_plain (by decide)
  exact hquote.append ((Made.flatMap fun p hp => spelt_quotePoint (codePoints_lt s p hp)).append hquote)

theorem plain_of_numberUnit {u : UInt16} (h : isNumberUnit u = true) : isPlainUnit u = true := by
  simp only [isNumberUnit, isDigit, Bool.or_eq_true, Bool.and_eq_true, decide_eq_true_eq, beq_iff_eq] at h
  rcases h with ((((h | rfl) | rfl) | rfl) | rfl) | rfl
  · simp only [isPlainUnit, Bool.and_eq_true, decide_eq_true_eq]
    omega
  all_goals decide

variable (host : JsonHost)

section
variable {gap : JsString} {P : Nat → Prop} (hP : ∀ p, Printable p → P p) (hbreak : ∀ depth, Made P (breakLine gap depth))
include hP

theorem made_cons {u : UInt16} {text : JsString} (hu : isPlainUnit u = true) (h : Made P text) : Made P (u :: text) := by
  have hunit : Spelt [u] := spelt_plain (by simpa using hu)
  exact (hunit.mono hP).append h

theorem made_colon : Made P (colon gap) := by
  unfold colon
  split <;> exact (spelt_plain (by decide)).mono hP

include hbreak

mutual
/-- A value is written in printable points and the gap's, by recursion over the value. -/
theorem made_render (depth : Nat) : (v : Json) → Made P (render host gap depth v)
  | .null => by
    rw [render]
    exact (spelt_plain (by decide)).mono hP
  | .bool b => by
    rw [render]
    cases b <;> exact (spelt_plain (by decide)).mono hP
  | .num q => by
    rw [render]
    split
    · rename_i hq
      have hplain : Spelt (host.numberText q) := spelt_plain (List.all_eq_true.mpr fun u hu =>
        plain_of_numberUnit (isNumeral_units (host.numeral q hq) u hu))
      exact hplain.mono hP
    · exact (spelt_plain (by decide)).mono hP
  | .str s => by
    rw [render]
    exact (spelt_quote s).mono hP
  | .arr [] => by
    rw [render]
    exact (spelt_plain (by decide)).mono hP
  | .arr (v :: rest) => by
    rw [render]
    exact made_cons hP (by decide) ((((hbreak _).append (made_render _ v)).append (made_renderItems _ rest)).append
      (hbreak _) |>.append ((spelt_plain (by decide)).mono hP))
  | .obj [] => by
    rw [render]
    exact (spelt_plain (by decide)).mono hP
  | .obj ((key, v) :: rest) => by
    rw [render]
    exact made_cons hP (by decide) ((((((hbreak _).append ((spelt_quote key).mono hP)).append (made_colon hP)).append
      (made_render _ v)).append (made_renderFields _ rest)).append (hbreak _) |>.append
        ((spelt_plain (by decide)).mono hP))

theorem made_renderItems (depth : Nat) : (items : List Json) → Made P (renderItems host gap depth items)
  | [] => by
    rw [renderItems]
    exact .nil
  | v :: rest => by
    rw [renderItems]
    exact made_cons hP (by decide) (((hbreak _).append (made_render _ v)).append (made_renderItems _ rest))

theorem made_renderFields (depth : Nat) : (fields : Fields) → Made P (renderFields host gap depth fields)
  | [] => by
    rw [renderFields]
    exact .nil
  | (key, v) :: rest => by
    rw [renderFields]
    exact made_cons hP (by decide) (((((hbreak _).append ((spelt_quote key).mono hP)).append (made_colon hP)).append
      (made_render _ v)).append (made_renderFields _ rest))
end

end

theorem spelt_stringify (v : Json) : Spelt (stringify host v) := made_render host (fun _ => id) (fun _ => .nil) 0 v

theorem scalars_indented (v : Json) : Scalars (stringifyIndented host v) := by
  refine made_render host (fun _ hp => hp.1) (fun depth => ?_) 0 v
  have hfeed : Scalars [0x0A] := ⟨[0x0A], by decide, by decide⟩
  have hgap : Scalars [0x20, 0x20] := ⟨[0x20, 0x20], by decide, by decide⟩
  have hgaps : Scalars (List.replicate depth [0x20, 0x20]).flatten := by
    rw [← List.flatMap_id]
    exact Made.flatMap fun text htext => List.eq_of_mem_replicate htext ▸ hgap
  exact hfeed.append hgaps

end Json

theorem spelt_digitsText (n : Nat) : Spelt (digitsText n) := by
  obtain ⟨d, rest, htext, hd, hrest, -⟩ := digitsText_shape n
  refine spelt_plain (List.all_eq_true.mpr fun u hu => ?_)
  have hdigit : isDigit u = true := by
    rw [htext] at hu
    rcases List.mem_cons.mp hu with rfl | hu
    · exact hd
    · exact hrest u hu
  exact Json.plain_of_numberUnit (isNumberUnit_of_digit hdigit)

end Ccctl.Core
