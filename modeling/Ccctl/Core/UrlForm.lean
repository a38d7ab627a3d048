import Ccctl.Core.Spelt
import Ccctl.Lib.Segments
/-
  Ccctl.Core.UrlForm — `URLSearchParams`, written back.

  A form leaves letters, digits and `*-._` as they are, writes a space as `+`, and escapes every
  other byte; so the separators of a form are never part of a name or a value, and pairs of scalar
  values read back as they are, empty names and values among them (`searchParams_formSerialize`).
  What is read from any text is such pairs (`searchParams_scalars`).
-/

namespace Ccctl.Core

open Ccctl.Lib

/-- A letter, a digit, or one of `*-._`. -/
def isFormPlain (b : Nat) : Bool :=
  (0x30 ≤ b && b ≤ 0x39) || (0x41 ≤ b && b ≤ 0x5A) || (0x61 ≤ b && b ≤ 0x7A) || b == 0x2A || b == 0x2D || b == 0x2E ||
  b == 0x5F

def formEscape (b : Nat) : List Nat := if b = 0x20 then [0x2B] else if isFormPlain b then [b] else escapeByte b

def formComponent (text : JsString) : List Nat := (formBytes text).flatMap formEscape

def formPiece (pair : JsString × JsString) : List Nat := formComponent pair.1 ++ 0x3D :: formComponent pair.2

/-- `params.toString()`. -/
def formSerialize (params : List (JsString × JsString)) : JsString :=
  ([0x26].intercalate (params.map formPiece)).map UInt16.ofNat

/-! ## What a form is written with -/

/-- Nothing that separates pairs or ends a query. -/
structure Inner (b : Nat) : Prop where
  ascii : b < 0x80
  hash : b ≠ 0x23
  ampersand : b ≠ 0x26
  equals : b ≠ 0x3D
  question : b ≠ 0x3F

theorem plain_inner {b : Nat} (h : isFormPlain b = true) : Inner b ∧ b ≠ 0x25 ∧ b ≠ 0x2B := by
  simp only [isFormPlain, Bool.or_eq_true, Bool.and_eq_true, decide_eq_true_eq, beq_iff_eq] at h
  exact ⟨⟨by omega, by omega, by omega, by omega, by omega⟩, by omega, by omega⟩

theorem formEscape_inner {b : Nat} (h : b < 0x100) : ∀ c ∈ formEscape b, Inner c := by
  intro c hc
  unfold formEscape at hc
  split at hc
  · rw [List.mem_singleton.mp hc]
    exact ⟨by decide, by decide, by decide, by decide, by decide⟩
  · split at hc
    · rename_i hplain
      rw [List.mem_singleton.mp hc]
      exact (plain_inner hplain).1
    · have hquiet := quiet_escapeByte h c hc
      exact ⟨hquiet.ascii, hquiet.hash, hquiet.ampersand, hquiet.equals, hquiet.question⟩

theorem formBytes_lt (text : JsString) : ∀ b ∈ formBytes text, b < 0x100 := by
  intro b hb
  obtain ⟨p, hp, hb⟩ := List.mem_flatMap.mp hb
  refine utf8_lt ?_ b hb
  split
  · rfl
  · rename_i hplain
    rw [isScalar, Bool.and_eq_true, Bool.not_eq_true']
    exact ⟨decide_eq_true (codePoints_lt text p hp), Bool.not_eq_true _ ▸ hplain⟩

theorem formComponent_inner (text : JsString) : ∀ c ∈ formComponent text, Inner c := by
  intro c hc
  obtain ⟨b, hb, hc⟩ := List.mem_flatMap.mp hc
  exact formEscape_inner (formBytes_lt text b hb) c hc

/-! ## Read back -/

theorem percentDecode_formEscape {b : Nat} (h : b < 0x100) (rest : List Nat) :
    percentDecode ((formEscape b).map (fun c => if c = 0x2B then 0x20 else c) ++ rest) = b :: percentDecode rest := by
  unfold formEscape
  split
  · rename_i hspace
    rw [hspace]
    exact percentDecode_plain (by decide) rest
  · split
    · rename_i hplain
      obtain ⟨-, hpercent, hplus⟩ := plain_inner hplain
      simp only [List.map_singleton, if_neg hplus, List.singleton_append]
      exact percentDecode_plain hpercent rest
    · rw [plus_quiet (quiet_escapeByte h)]
      exact percentDecode_escapeByte h rest

theorem formText_formComponent {text : JsString} (h : Scalars text) : formText (formComponent text) = text := by
  have hbytes : ∀ {bytes : List Nat}, (∀ b ∈ bytes, b < 0x100) →
      percentDecode ((bytes.flatMap formEscape).map fun c => if c = 0x2B then 0x20 else c) = bytes := by
    intro bytes hlt
    induction bytes with
    | nil => rfl
    | cons b bytes ih =>
      obtain ⟨hb, hrest⟩ := List.forall_mem_cons.mp hlt
      rw [List.flatMap_cons, List.map_append, percentDecode_formEscape hb, ih hrest]
  rw [formText, formComponent, hbytes (formBytes_lt text), h.readBack]

theorem formPair_formPiece {pair : JsString × JsString} (hname : Scalars pair.1) (hvalue : Scalars pair.2) :
    formPair (formPiece pair) = pair := by
  have hbefore : ∀ b ∈ formComponent pair.1, decide (b ≠ 0x3D) = true := fun b hb =>
    decide_eq_true (formComponent_inner pair.1 b hb).equals
  rw [formPair, formPiece, List.takeWhile_append_of_pos hbefore, List.dropWhile_append_of_pos hbefore,
    List.takeWhile_cons_of_neg (by decide), List.dropWhile_cons_of_neg (by decide), List.append_nil, List.drop_one,
    List.tail_cons, formText_formComponent hname, formText_formComponent hvalue]

theorem formPiece_bytes (pair : JsString × JsString) :
    ∀ b ∈ formPiece pair, b < 0x80 ∧ b ≠ 0x23 ∧ b ≠ 0x26 ∧ b ≠ 0x3F := by
  intro b hb
  have hinner : ∀ text, b ∈ formComponent text → b < 0x80 ∧ b ≠ 0x23 ∧ b ≠ 0x26 ∧ b ≠ 0x3F := fun text hmem =>
    have h := formComponent_inner text b hmem
    ⟨h.ascii, h.hash, h.ampersand, h.question⟩
  rcases List.mem_append.mp hb with hb | hb
  · exact hinner _ hb
  · rcases List.mem_cons.mp hb with rfl | hb
    · exact ⟨by decide, by decide, by decide, by decide⟩
    · exact hinner _ hb

theorem mem_intercalate {sep b : Nat} {segments : List (List Nat)} (h : b ∈ [sep].intercalate segments) :
    b = sep ∨ ∃ segment ∈ segments, b ∈ segment := by
  induction segments with
  | nil => cases h
  | cons first later ih =>
    cases later with
    | nil => exact .inr ⟨first, List.mem_cons_self, by simpa [List.intercalate] using h⟩
    | cons second later =>
      have hsplit : [sep].intercalate (first :: second :: later) = first ++ sep :: [sep].intercalate (second :: later) := by
        simp [List.intercalate]
      rw [hsplit, List.mem_append, List.mem_cons] at h
      rcases h with h | h | h
      · exact .inr ⟨first, List.mem_cons_self, h⟩
      · exact .inl h
      · exact (ih h).imp_right fun ⟨segment, hsegment, hb⟩ => ⟨segment, List.mem_cons_of_mem _ hsegment, hb⟩

/-- A query never starts anew, and never runs into the fragment. -/
theorem formSerialize_bytes (params : List (JsString × JsString)) :
    ∀ b ∈ [0x26].intercalate (params.map formPiece), b < 0x80 ∧ b ≠ 0x23 ∧ b ≠ 0x3F := by
  intro b hb
  rcases mem_intercalate hb with rfl | ⟨segment, hsegment, hb⟩
  · exact ⟨by decide, by decide, by decide⟩
  · obtain ⟨pair, -, rfl⟩ := List.mem_map.mp hsegment
    obtain ⟨hascii, hhash, -, hquestion⟩ := formPiece_bytes pair b hb
    exact ⟨hascii, hhash, hquestion⟩

theorem searchParams_formSerialize {params : List (JsString × JsString)}
    (h : ∀ pair ∈ params, Scalars pair.1 ∧ Scalars pair.2) : searchParams (formSerialize params) = params := by
  have hbytes := formSerialize_bytes params
  have hform : formBytes (formSerialize params) = [0x26].intercalate (params.map formPiece) :=
    formBytes_ascii fun b hb => (hbytes b hb).1
  have hunmarked : (formSerialize params).head? ≠ some 0x3F := by
    intro hhead
    rw [formSerialize, List.head?_map, Option.map_eq_some_iff] at hhead
    obtain ⟨b, hb, hunit⟩ := hhead
    obtain ⟨hascii, -, hquestion⟩ := hbytes b (List.mem_of_mem_head? hb)
    have hvalue := congrArg UInt16.toNat hunit
    rw [UInt16.toNat_ofNat', Nat.mod_eq_of_lt (Nat.lt_trans hascii (by decide))] at hvalue
    exact hquestion hvalue
  rw [searchParams, if_neg hunmarked, hform]
  by_cases hnil : params = []
  · rw [hnil]
    decide
  · have hsplit : ([0x26].intercalate (params.map formPiece)).splitOn 0x26 = params.map formPiece := by
      refine (Segments.splitOn_eq_iff (by simpa using hnil)).mpr ⟨rfl, fun segment hsegment hmem => ?_⟩
      obtain ⟨pair, -, rfl⟩ := List.mem_map.mp hsegment
      exact (formPiece_bytes pair 0x26 hmem).2.2.1 rfl
    have hkept : ∀ segment ∈ params.map formPiece, decide (segment ≠ []) = true := by
      intro segment hsegment
      obtain ⟨pair, -, rfl⟩ := List.mem_map.mp hsegment
      simp [formPiece]
    rw [hsplit, List.filter_eq_self.mpr hkept, List.map_map]
    exact (List.map_congr_left fun pair hpair => formPair_formPiece (h pair hpair).1 (h pair hpair).2).trans (List.map_id _)

theorem formText_scalars (bytes : List Nat) : Scalars (formText bytes) := ⟨_, utf8Decode_scalar _, rfl⟩

theorem searchParams_scalars (text : JsString) : ∀ pair ∈ searchParams text, Scalars pair.1 ∧ Scalars pair.2 := by
  intro pair hpair
  unfold searchParams at hpair
  obtain ⟨piece, -, rfl⟩ := List.mem_map.mp hpair
  exact ⟨formText_scalars _, formText_scalars _⟩

theorem formSerialize_eq_nil {params : List (JsString × JsString)} : formSerialize params = [] ↔ params = [] := by
  constructor
  · intro h
    cases params with
    | nil => rfl
    | cons pair rest =>
      have hlength := congrArg List.length h
      cases rest <;> simp [formSerialize, List.intercalate, formPiece] at hlength
  · intro heq
    subst heq
    rfl

end Ccctl.Core
