import Ccctl.Core.Text
import Ccctl.Lib.Utf8
/-
  Ccctl.Core.UrlEncoding — the language's `encodeURIComponent`, and `URLSearchParams` over a
  string.

  Both go through the UTF-8 of the string's scalar values. A component escapes every byte that
  is not of an unreserved character, so what it writes is ASCII without `&`, `=`, `+` and `#`;
  a form reads `+` as a space first and then undoes the escapes. So a form of one name and one
  encoded component reads back as that name and that value (`searchParams_component`).
-/

namespace Ccctl.Core

open Ccctl.Lib

/-- `text.isWellFormed()`. -/
def isWellFormed (text : JsString) : Bool := (codePoints text).all fun p => !isSurrogate p

/-! ## Escapes -/

def upperHex (n : Nat) : Nat := if n < 10 then 0x30 + n else 0x37 + n

def hexNibble (b : Nat) : Option Nat :=
  if 0x30 ≤ b ∧ b ≤ 0x39 then some (b - 0x30)
  else if 0x41 ≤ b ∧ b ≤ 0x46 then some (b - 0x37)
  else if 0x61 ≤ b ∧ b ≤ 0x66 then some (b - 0x57)
  else none

def escapeByte (b : Nat) : List Nat := [0x25, upperHex (b / 0x10), upperHex (b % 0x10)]

def percentDecode : List Nat → List Nat
  | [] => []
  | [a] => [a]
  | [a, b] => [a, b]
  | a :: b :: c :: rest =>
    if a = 0x25 then
      match hexNibble b, hexNibble c with
      | some hi, some lo => (hi * 0x10 + lo) :: percentDecode rest
      | _, _ => a :: percentDecode (b :: c :: rest)
    else a :: percentDecode (b :: c :: rest)

/-! ## `encodeURIComponent` -/

/-- A letter, a digit, or one of `-_.!~*'()`. -/
def isUnreserved (p : Nat) : Bool :=
  (0x30 ≤ p && p ≤ 0x39) || (0x41 ≤ p && p ≤ 0x5A) || (0x61 ≤ p && p ≤ 0x7A) || p == 0x2D || p == 0x5F || p == 0x2E ||
  p == 0x21 || p == 0x7E || p == 0x2A || p == 0x27 || p == 0x28 || p == 0x29

def componentOf (p : Nat) : List Nat := if isUnreserved p then [p] else (utf8 p).flatMap escapeByte

/-- A `URIError` is `none`. -/
def encodeURIComponent (text : JsString) : Option JsString :=
  if isWellFormed text then some (((codePoints text).flatMap componentOf).map UInt16.ofNat) else none

/-! ## `URLSearchParams` -/

/-- The bytes of a string, a lone surrogate as a replacement. -/
def formBytes (text : JsString) : List Nat :=
  (codePoints text).flatMap fun p => utf8 (if isSurrogate p then replacement else p)

def formText (bytes : List Nat) : JsString :=
  encode (utf8Decode (percentDecode (bytes.map fun b => if b = 0x2B then 0x20 else b)))

def formPair (piece : List Nat) : JsString × JsString :=
  (formText (piece.takeWhile (· ≠ 0x3D)), formText ((piece.dropWhile (· ≠ 0x3D)).drop 1))

/-- `new URLSearchParams(text)`: its pairs in order. -/
def searchParams (text : JsString) : List (JsString × JsString) :=
  let text := if text.head? = some 0x3F then text.tail else text
  (((formBytes text).splitOn 0x26).filter (· ≠ [])).map formPair

/-- `params.get(name)`. -/
def getParam (params : List (JsString × JsString)) (name : JsString) : Option JsString :=
  (params.find? fun pair => pair.1 = name).map Prod.snd

/-! ## Escapes read back -/

theorem hexNibble_upperHex : ∀ n < 0x10, hexNibble (upperHex n) = some n := by decide

theorem percentDecode_escapeByte {b : Nat} (h : b < 0x100) (rest : List Nat) :
    percentDecode (escapeByte b ++ rest) = b :: percentDecode rest := by
  have hhi := hexNibble_upperHex (b / 0x10) (by omega)
  have hlo := hexNibble_upperHex (b % 0x10) (by omega)
  rw [escapeByte, List.cons_append, List.cons_append, List.cons_append, List.nil_append, percentDecode, if_pos rfl, hhi,
    hlo]
  simp only [List.cons.injEq, and_true]
  omega

theorem percentDecode_plain {b : Nat} (h : b ≠ 0x25) (rest : List Nat) :
    percentDecode (b :: rest) = b :: percentDecode rest := by
  match rest with
  | [] => rfl
  | [_] => rfl
  | _ :: _ :: _ => rw [percentDecode, if_neg h]

theorem percentDecode_escapes {bytes : List Nat} (h : ∀ b ∈ bytes, b < 0x100) (rest : List Nat) :
    percentDecode (bytes.flatMap escapeByte ++ rest) = bytes ++ percentDecode rest := by
  induction bytes with
  | nil => rfl
  | cons b bytes ih =>
    obtain ⟨hb, hbytes⟩ := List.forall_mem_cons.mp h
    rw [List.flatMap_cons, List.append_assoc, percentDecode_escapeByte hb, ih hbytes, List.cons_append]

/-! ## What a component is written with -/

/-- Neither a separator of a form nor a character that a form or a URL reads otherwise. -/
structure Quiet (b : Nat) : Prop where
  ascii : b < 0x80
  hash : b ≠ 0x23
  ampersand : b ≠ 0x26
  plus : b ≠ 0x2B
  equals : b ≠ 0x3D
  question : b ≠ 0x3F

theorem quiet_of_unreserved {p : Nat} (h : isUnreserved p = true) : Quiet p ∧ p ≠ 0x25 := by
  simp only [isUnreserved, Bool.or_eq_true, Bool.and_eq_true, decide_eq_true_eq, beq_iff_eq] at h
  refine ⟨⟨?_, ?_, ?_, ?_, ?_, ?_⟩, ?_⟩ <;> omega

theorem quiet_upperHex {n : Nat} (h : n < 0x10) : Quiet (upperHex n) := by
  have hrange : 0x30 ≤ upperHex n ∧ upperHex n ≤ 0x39 ∨ 0x41 ≤ upperHex n ∧ upperHex n ≤ 0x46 := by
    unfold upperHex
    split <;> omega
  refine ⟨?_, ?_, ?_, ?_, ?_, ?_⟩ <;> omega

theorem quiet_escapeByte {b : Nat} (h : b < 0x100) : ∀ c ∈ escapeByte b, Quiet c := by
  intro c hc
  simp only [escapeByte, List.mem_cons, List.not_mem_nil, or_false] at hc
  rcases hc with rfl | rfl | rfl
  · exact ⟨by decide, by decide, by decide, by decide, by decide, by decide⟩
  · exact quiet_upperHex (by omega)
  · exact quiet_upperHex (by omega)

theorem quiet_componentOf {p : Nat} (h : isScalar p = true) : ∀ b ∈ componentOf p, Quiet b := by
  unfold componentOf
  split
  · rename_i hplain
    exact List.forall_mem_singleton.mpr (quiet_of_unreserved hplain).1
  · intro b hb
    obtain ⟨byte, hbyte, hb⟩ := List.mem_flatMap.mp hb
    exact quiet_escapeByte (utf8_lt h byte hbyte) b hb

theorem isScalar_of_wellFormed {text : JsString} (h : isWellFormed text = true) :
    ∀ p ∈ codePoints text, isScalar p = true := by
  intro p hp
  have hplain := List.all_eq_true.mp h p hp
  rw [isScalar, Bool.and_eq_true]
  exact ⟨decide_eq_true (codePoints_lt text p hp), hplain⟩

theorem quiet_component {text : JsString} (h : isWellFormed text = true) :
    ∀ b ∈ (codePoints text).flatMap componentOf, Quiet b := by
  intro b hb
  obtain ⟨p, hp, hb⟩ := List.mem_flatMap.mp hb
  exact quiet_componentOf (isScalar_of_wellFormed h p hp) b hb

/-! ## A form reads back -/

theorem utf8_unreserved {p : Nat} (h : isUnreserved p = true) : utf8 p = [p] :=
  utf8_ascii (quiet_of_unreserved h).1.ascii

theorem percentDecode_componentOf {p : Nat} (h : isScalar p = true) (rest : List Nat) :
    percentDecode (componentOf p ++ rest) = utf8 p ++ percentDecode rest := by
  unfold componentOf
  split
  · rename_i hplain
    rw [utf8_unreserved hplain]
    exact percentDecode_plain (quiet_of_unreserved hplain).2 rest
  · exact percentDecode_escapes (utf8_lt h) rest

theorem percentDecode_components {points : List Nat} (h : ∀ p ∈ points, isScalar p = true) :
    percentDecode (points.flatMap componentOf) = points.flatMap utf8 := by
  induction points with
  | nil => rfl
  | cons p rest ih =>
    obtain ⟨hp, hrest⟩ := List.forall_mem_cons.mp h
    rw [List.flatMap_cons, percentDecode_componentOf hp, ih hrest, List.flatMap_cons]

theorem plus_quiet {bytes : List Nat} (h : ∀ b ∈ bytes, Quiet b) :
    (bytes.map fun b => if b = 0x2B then 0x20 else b) = bytes := by
  have hkept : ∀ b ∈ bytes, (if b = 0x2B then 0x20 else b) = b := fun b hb => if_neg (h b hb).plus
  rw [List.map_congr_left hkept, List.map_id']

theorem formText_component {text : JsString} (h : isWellFormed text = true) :
    formText ((codePoints text).flatMap componentOf) = text := by
  have hscalar := isScalar_of_wellFormed h
  rw [formText, plus_quiet (quiet_component h), percentDecode_components hscalar, utf8Decode_encoded hscalar,
    encode_codePoints]

theorem codePoints_cons_plain {u : UInt16} (h : isHigh u = false) (s : JsString) :
    codePoints (u :: s) = u.toNat :: codePoints s := by
  cases s with
  | nil => rfl
  | cons v rest => rw [codePoints, h, Bool.false_and, if_neg (by decide)]

theorem codePoints_ascii {bytes : List Nat} (h : ∀ b ∈ bytes, b < 0x80) :
    codePoints (bytes.map UInt16.ofNat) = bytes := by
  induction bytes with
  | nil => rfl
  | cons b rest ih =>
    obtain ⟨hb, hrest⟩ := List.forall_mem_cons.mp h
    have hunit : (UInt16.ofNat b).toNat = b := by
      rw [UInt16.toNat_ofNat']
      omega
    have hplain : isHigh (UInt16.ofNat b) = false := by
      rw [isHigh, hunit, Bool.and_eq_false_iff]
      exact .inl (decide_eq_false (by omega))
    rw [List.map_cons, codePoints_cons_plain hplain, hunit, ih hrest]

theorem utf8_ascii_text {bytes : List Nat} (h : ∀ b ∈ bytes, b < 0x80) : bytes.flatMap utf8 = bytes := by
  induction bytes with
  | nil => rfl
  | cons b rest ih =>
    obtain ⟨hb, hrest⟩ := List.forall_mem_cons.mp h
    rw [List.flatMap_cons, utf8_ascii hb, ih hrest, List.singleton_append]

theorem formBytes_ascii {bytes : List Nat} (h : ∀ b ∈ bytes, b < 0x80) :
    formBytes (bytes.map UInt16.ofNat) = bytes := by
  have hplain : ∀ b ∈ bytes, utf8 (if isSurrogate b then replacement else b) = utf8 b := by
    intro b hb
    have hsmall := h b hb
    have hnot : isSurrogate b = false := by
      rw [isSurrogate, Bool.and_eq_false_iff]
      exact .inl (decide_eq_false (by omega))
    rw [hnot, if_neg (by decide)]
  rw [formBytes, codePoints_ascii h, List.flatMap_congr hplain, utf8_ascii_text h]

/-- An unreserved name is its own encoding. -/
theorem componentOf_unreserved {name : JsString} (h : ∀ p ∈ codePoints name, isUnreserved p = true) :
    (codePoints name).flatMap componentOf = codePoints name ∧ isWellFormed name = true := by
  constructor
  · have hself : ∀ p ∈ codePoints name, componentOf p = [p] := fun p hp => if_pos (h p hp)
    rw [List.flatMap_congr hself, List.flatMap_singleton']
  · refine List.all_eq_true.mpr fun p hp => ?_
    have hsmall := (quiet_of_unreserved (h p hp)).1.ascii
    rw [isSurrogate, Bool.not_eq_true', Bool.and_eq_false_iff]
    exact .inl (decide_eq_false (by omega))

theorem encodeURIComponent_some {value component : JsString} (h : encodeURIComponent value = some component) :
    isWellFormed value = true ∧ component = ((codePoints value).flatMap componentOf).map UInt16.ofNat := by
  unfold encodeURIComponent at h
  split at h
  · exact ⟨‹_›, (Option.some.inj h).symm⟩
  · cases h

theorem units_ascii {name : JsString} (h : ∀ p ∈ codePoints name, p < 0x80) :
    (codePoints name).map UInt16.ofNat = name := by
  have hpoint : ∀ p ∈ codePoints name, encodePoint p = [UInt16.ofNat p] := by
    intro p hp
    have hsmall := h p hp
    exact if_pos (by omega)
  have hname := encode_codePoints name
  rw [encode, List.flatMap_congr hpoint] at hname
  rw [← List.flatMap_pure_eq_map]
  exact hname

/-- One name, unreserved, and one component. -/
theorem searchParams_component {name value component : JsString} (hname : ∀ p ∈ codePoints name, isUnreserved p = true)
    (hvalue : encodeURIComponent value = some component) :
    searchParams (name ++ 0x3D :: component) = [(name, value)] := by
  obtain ⟨hwell, rfl⟩ := encodeURIComponent_some hvalue
  obtain ⟨hself, hnameWell⟩ := componentOf_unreserved hname
  have hquietName : ∀ b ∈ codePoints name, Quiet b := fun b hb => (quiet_of_unreserved (hname b hb)).1
  have hquiet := quiet_component hwell
  generalize hbody : (codePoints value).flatMap componentOf = body at hquiet
  -- the form's bytes are the text, unit for unit
  have htext : name ++ 0x3D :: body.map UInt16.ofNat = (codePoints name ++ 0x3D :: body).map UInt16.ofNat := by
    rw [List.map_append, List.map_cons, units_ascii fun p hp => (hquietName p hp).ascii]
    rfl
  have hascii : ∀ b ∈ codePoints name ++ 0x3D :: body, b < 0x80 := by
    refine List.forall_mem_append.mpr ⟨fun b hb => (hquietName b hb).ascii, List.forall_mem_cons.mpr ⟨by decide, ?_⟩⟩
    exact fun b hb => (hquiet b hb).ascii
  have hbytes : formBytes (name ++ 0x3D :: body.map UInt16.ofNat) = codePoints name ++ 0x3D :: body := by
    rw [htext, formBytes_ascii hascii]
  have hone : 0x26 ∉ codePoints name ++ 0x3D :: body := by
    intro hmem
    rcases List.mem_append.mp hmem with hmem | hmem
    · exact (hquietName _ hmem).ampersand rfl
    · rcases List.mem_cons.mp hmem with heq | hmem
      · cases heq
      · exact (hquiet _ hmem).ampersand rfl
  have hunmarked : (name ++ 0x3D :: body.map UInt16.ofNat).head? ≠ some 0x3F := by
    intro hhead
    rw [htext, List.head?_map, Option.map_eq_some_iff] at hhead
    obtain ⟨b, hb, hunit⟩ := hhead
    have hmem := List.mem_of_mem_head? hb
    have hmark : b = 0x3F := by
      have hvalue := congrArg UInt16.toNat hunit
      rw [UInt16.toNat_ofNat', Nat.mod_eq_of_lt (Nat.lt_trans (hascii b hmem) (by decide))] at hvalue
      exact hvalue
    rcases List.mem_append.mp hmem with hmem | hmem
    · exact (hquietName b hmem).question hmark
    · rcases List.mem_cons.mp hmem with rfl | hmem
      · cases hmark
      · exact (hquiet b hmem).question hmark
  have hapart : ∀ b ∈ codePoints name, decide (b ≠ 0x3D) = true := fun b hb =>
    decide_eq_true (hquietName b hb).equals
  have hpair : formPair (codePoints name ++ 0x3D :: body) = (name, value) := by
    have hnameText : formText (codePoints name) = name := by
      rw [← hself]
      exact formText_component hnameWell
    have hvalueText : formText body = value := by
      rw [← hbody]
      exact formText_component hwell
    rw [formPair, List.takeWhile_append_of_pos hapart, List.dropWhile_append_of_pos hapart,
      List.takeWhile_cons_of_neg (by decide), List.dropWhile_cons_of_neg (by decide), List.append_nil, List.drop_one,
      List.tail_cons, hnameText, hvalueText]
  rw [searchParams, if_neg hunmarked, hbytes, List.splitOn_eq_singleton hone,
    List.filter_cons_of_pos (by simp), List.filter_nil, List.map_singleton, hpair]

end Ccctl.Core
