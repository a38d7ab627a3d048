import Ccctl.Core.Json
import Mathlib.Data.Nat.Digits.Lemmas
/-
  Ccctl.Core.JsonText — `JSON.parse` and `JSON.stringify`, over code units.

  `render` is `JSON.stringify(value, null, gap)`: the seven short escapes, `\u` escapes for the
  other controls and for lone surrogates, no whitespace when there is no gap. `parseValue`
  follows the grammar; an object is built key by key (`setProp`), so a repeated key keeps its
  first place and its last value, and array-index keys come first in ascending order.

  How a double is written and read is the engine's: `JsonHost` has it, with the two facts the
  language promises (a finite number is written as a numeral, and that numeral reads back as
  the number). A numeral beyond the doubles reads as whatever stands for infinity there.
  `integerHost` is such a host for the safe integers.
-/

namespace Ccctl.Core

/-! ## Numerals -/

def isNumberUnit (u : UInt16) : Bool := isDigit u || u == 0x2B || u == 0x2D || u == 0x2E || u == 0x45 || u == 0x65

/-- `[0-9]+`. -/
def isDigits (s : JsString) : Bool := !s.isEmpty && s.all isDigit

/-- `p?`, dropped. -/
def dropUnit (p : UInt16 → Bool) : JsString → JsString
  | u :: rest => if p u then rest else u :: rest
  | [] => []

/-- `(?:[eE][+-]?[0-9]+)?`. -/
def isExponent : JsString → Bool
  | e :: rest => (e == 0x45 || e == 0x65) && isDigits (dropUnit (fun u => u == 0x2B || u == 0x2D) rest)
  | [] => true

/-- `(?:\.[0-9]+)?` and the exponent. -/
def isFraction : JsString → Bool
  | u :: rest =>
    if u == 0x2E then isDigits (rest.takeWhile isDigit) && isExponent (rest.dropWhile isDigit)
    else isExponent (u :: rest)
  | [] => true

/-- `0|[1-9][0-9]*` and what follows the integer. -/
def isUnsigned : JsString → Bool
  | d :: rest => if d == 0x30 then isFraction rest else isDigit d && isFraction (rest.dropWhile isDigit)
  | [] => false

def isNumeral (s : JsString) : Bool := isUnsigned (dropUnit (· == 0x2D) s)

/-- The engine's number format, and the message of its `SyntaxError`. -/
structure JsonHost where
  isNumber : Rat → Bool
  numberText : Rat → JsString
  numberValue : JsString → Rat
  syntaxError : JsString → JsString
  numeral : ∀ q, isNumber q = true → isNumeral (numberText q) = true
  value_text : ∀ q, isNumber q = true → numberValue (numberText q) = q
  safe : ∀ n : Int, -9007199254740991 ≤ n → n ≤ 9007199254740991 → isNumber n = true

/-! ## Objects -/

/-- The value of a run of digits. -/
def digitsValue (s : JsString) : Nat := s.foldl (fun n u => 10 * n + (u.toNat - 0x30)) 0

/-- A key that is an array index: an object lists these first, in ascending order. -/
def arrayIndex (key : JsString) : Option Nat :=
  if key = [0x30] ∨ (isDigits key = true ∧ key.head? ≠ some 0x30) then
    if digitsValue key < 0xFFFFFFFF then some (digitsValue key) else none
  else none

namespace Json

abbrev Fields := List (JsString × Json)

def indexBelow (n : Nat) (field : JsString × Json) : Bool :=
  match arrayIndex field.1 with
  | some m => m < n
  | none => false

/-- `object[key] = value`. -/
def setProp (fields : Fields) (key : JsString) (value : Json) : Fields :=
  if key ∈ fields.map Prod.fst then fields.map fun f => if f.1 = key then (key, value) else f
  else
    match arrayIndex key with
    | none => fields ++ [(key, value)]
    | some n => fields.takeWhile (indexBelow n) ++ (key, value) :: fields.dropWhile (indexBelow n)

def objectOf (fields : Fields) : Fields := fields.foldl (fun object f => setProp object f.1 f.2) []

/-! ## `JSON.stringify` -/

def hexDigit (n : Nat) : UInt16 := if n < 10 then UInt16.ofNat (0x30 + n) else UInt16.ofNat (0x57 + n)

def unicodeEscape (u : Nat) : JsString :=
  [0x5C, 0x75, hexDigit (u / 0x1000 % 0x10), hexDigit (u / 0x100 % 0x10), hexDigit (u / 0x10 % 0x10), hexDigit (u % 0x10)]

/-- Backspace, tab, line feed, form feed, carriage return, the quote and the backslash. -/
def SHORT_ESCAPES : List (Nat × UInt16) :=
  [(0x08, 0x62), (0x09, 0x74), (0x0A, 0x6E), (0x0C, 0x66), (0x0D, 0x72), (0x22, 0x22), (0x5C, 0x5C)]

def quotePoint (p : Nat) : JsString :=
  match SHORT_ESCAPES.lookup p with
  | some e => [0x5C, e]
  | none => if p < 0x20 ∨ (0xD800 ≤ p ∧ p ≤ 0xDFFF) then unicodeEscape p else encodePoint p

def quote (s : JsString) : JsString := 0x22 :: ((codePoints s).flatMap quotePoint ++ [0x22])

def breakLine (gap : JsString) (depth : Nat) : JsString :=
  if gap = [] then [] else 0x0A :: (List.replicate depth gap).flatten

def colon (gap : JsString) : JsString := if gap = [] then [0x3A] else [0x3A, 0x20]

section
variable (host : JsonHost) (gap : JsString)

mutual
def render (depth : Nat) : Json → JsString
  | .null => js "null"
  | .bool b => if b then js "true" else js "false"
  | .num q => if host.isNumber q then host.numberText q else js "null"
  | .str s => quote s
  | .arr [] => [0x5B, 0x5D]
  | .arr (v :: rest) =>
    0x5B :: (breakLine gap (depth + 1) ++ render (depth + 1) v ++ renderItems (depth + 1) rest ++
      breakLine gap depth ++ [0x5D])
  | .obj [] => [0x7B, 0x7D]
  | .obj ((key, v) :: rest) =>
    0x7B :: (breakLine gap (depth + 1) ++ quote key ++ colon gap ++ render (depth + 1) v ++
      renderFields (depth + 1) rest ++ breakLine gap depth ++ [0x7D])

def renderItems (depth : Nat) : List Json → JsString
  | [] => []
  | v :: rest => 0x2C :: (breakLine gap depth ++ render depth v ++ renderItems depth rest)

def renderFields (depth : Nat) : Fields → JsString
  | [] => []
  | (key, v) :: rest =>
    0x2C :: (breakLine gap depth ++ quote key ++ colon gap ++ render depth v ++ renderFields depth rest)
end

end

def stringify (host : JsonHost) (value : Json) : JsString := render host [] 0 value

/-- `JSON.stringify(value, null, 2)`. -/
def stringifyIndented (host : JsonHost) (value : Json) : JsString := render host [0x20, 0x20] 0 value

/-! ## `JSON.parse` -/

def isJsonSpace (u : UInt16) : Bool := u == 0x20 || u == 0x9 || u == 0xA || u == 0xD

def skipSpace (text : JsString) : JsString := text.dropWhile isJsonSpace

/-- What follows the unit `u`, when it is the next one. -/
def token (u : UInt16) (text : JsString) : Option JsString :=
  match skipSpace text with
  | v :: rest => if v = u then some rest else none
  | [] => none

def hexValue (u : UInt16) : Option Nat :=
  if isDigit u then some (u.toNat - 0x30)
  else if 0x61 ≤ u.toNat ∧ u.toNat ≤ 0x66 then some (u.toNat - 0x57)
  else if 0x41 ≤ u.toNat ∧ u.toNat ≤ 0x46 then some (u.toNat - 0x37)
  else none

def hexUnit (a b c d : UInt16) : Option UInt16 := do
  let a ← hexValue a
  let b ← hexValue b
  let c ← hexValue c
  let d ← hexValue d
  return UInt16.ofNat (a * 0x1000 + b * 0x100 + c * 0x10 + d)

def simpleEscape (e : UInt16) : Option UInt16 :=
  [(0x22, 0x22), (0x5C, 0x5C), (0x2F, 0x2F), (0x62, 0x8), (0x66, 0xC), (0x6E, 0xA), (0x72, 0xD), (0x74, 0x9)].lookup e

def consUnit (u : UInt16) (r : JsString × JsString) : JsString × JsString := (u :: r.1, r.2)

/-- The rest of a string after its opening quote, and what follows the closing one. -/
def stringRest : JsString → Option (JsString × JsString)
  | [] => none
  | u :: rest =>
    if u = 0x22 then some ([], rest)
    else if u ≠ 0x5C then if u.toNat < 0x20 then none else (stringRest rest).map (consUnit u)
    else
      match rest with
      | [] => none
      | e :: rest =>
        if e ≠ 0x75 then (simpleEscape e).bind fun v => (stringRest rest).map (consUnit v)
        else
          match rest with
          | a :: b :: c :: d :: rest => (hexUnit a b c d).bind fun v => (stringRest rest).map (consUnit v)
          | _ => none

section
variable (host : JsonHost)

/-- A literal or a number; a number ends where its units do. -/
def parseScalar (text : JsString) : Option (Json × JsString) :=
  if (js "null").isPrefixOf text then some (.null, text.drop 4)
  else if (js "true").isPrefixOf text then some (.bool true, text.drop 4)
  else if (js "false").isPrefixOf text then some (.bool false, text.drop 5)
  else if isNumeral (text.takeWhile isNumberUnit) then
    some (.num (host.numberValue (text.takeWhile isNumberUnit)), text.dropWhile isNumberUnit)
  else none

mutual
/-- The next value, and what follows it. -/
def parseValue : Nat → JsString → Option (Json × JsString)
  | 0, _ => none
  | fuel + 1, text =>
    match token 0x5B text, token 0x7B text, token 0x22 text with
    | some rest, _, _ =>
      match token 0x5D rest with
      | some rest => some (.arr [], rest)
      | none => (parseItems fuel rest).map fun r => (.arr r.1, r.2)
    | none, some rest, _ =>
      match token 0x7D rest with
      | some rest => some (.obj [], rest)
      | none => (parseMembers fuel rest).map fun r => (.obj (objectOf r.1), r.2)
    | none, none, some rest => (stringRest rest).map fun r => (.str r.1, r.2)
    | none, none, none => parseScalar host (skipSpace text)

/-- The items up to the closing bracket. -/
def parseItems : Nat → JsString → Option (List Json × JsString)
  | 0, _ => none
  | fuel + 1, text =>
    match parseValue fuel text with
    | none => none
    | some (v, rest) =>
      match token 0x2C rest with
      | some rest => (parseItems fuel rest).map fun r => (v :: r.1, r.2)
      | none => (token 0x5D rest).map fun rest => ([v], rest)

/-- The members up to the closing brace. -/
def parseMembers : Nat → JsString → Option (Fields × JsString)
  | 0, _ => none
  | fuel + 1, text =>
    match (token 0x22 text).bind stringRest with
    | none => none
    | some (key, rest) =>
      match (token 0x3A rest).bind (parseValue fuel) with
      | none => none
      | some (v, rest) =>
        match token 0x2C rest with
        | some rest => (parseMembers fuel rest).map fun r => ((key, v) :: r.1, r.2)
        | none => (token 0x7D rest).map fun rest => ([(key, v)], rest)
end

/-- `none` is a `SyntaxError`. -/
def parse (text : JsString) : Option Json :=
  match parseValue host (2 * text.length + 1) text with
  | some (v, rest) => if skipSpace rest = [] then some v else none
  | none => none

end

end Json

/-! ## Numerals have number units only -/

theorem isNumberUnit_of_digit {u : UInt16} (h : isDigit u = true) : isNumberUnit u = true := by
  simp [isNumberUnit, h]

theorem digit_of_mem_isDigits {s : JsString} (h : isDigits s = true) : ∀ u ∈ s, isDigit u = true := by
  simp only [isDigits, Bool.and_eq_true] at h
  exact List.all_eq_true.mp h.2

theorem mem_dropUnit {p : UInt16 → Bool} {s : JsString} {u : UInt16} (h : u ∈ s) : p u = true ∨ u ∈ dropUnit p s := by
  cases s with
  | nil => cases h
  | cons v rest =>
    rw [dropUnit]
    split
    · rename_i hv
      rcases List.mem_cons.mp h with rfl | h
      · exact Or.inl hv
      · exact Or.inr h
    · exact Or.inr h

theorem isExponent_units {s : JsString} (h : isExponent s = true) : ∀ u ∈ s, isNumberUnit u = true := by
  cases s with
  | nil => simp
  | cons e rest =>
    simp only [isExponent, Bool.and_eq_true, Bool.or_eq_true, beq_iff_eq] at h
    refine List.forall_mem_cons.mpr ⟨?_, fun u hu => ?_⟩
    · rcases h.1 with rfl | rfl <;> decide
    · rcases mem_dropUnit (p := fun u => u == 0x2B || u == 0x2D) hu with hs | hd
      · simp only [Bool.or_eq_true, beq_iff_eq] at hs
        rcases hs with rfl | rfl <;> decide
      · exact isNumberUnit_of_digit (digit_of_mem_isDigits h.2 u hd)

theorem units_of_span {s : JsString} (h : ∀ u ∈ s.dropWhile isDigit, isNumberUnit u = true) :
    ∀ u ∈ s, isNumberUnit u = true := by
  intro u hu
  rw [← List.takeWhile_append_dropWhile (p := isDigit) (l := s)] at hu
  rcases List.mem_append.mp hu with hu | hu
  · exact isNumberUnit_of_digit (List.mem_takeWhile_imp hu)
  · exact h u hu

theorem isFraction_units {s : JsString} (h : isFraction s = true) : ∀ u ∈ s, isNumberUnit u = true := by
  cases s with
  | nil => simp
  | cons v rest =>
    rw [isFraction] at h
    split at h
    · rename_i hv
      obtain rfl : v = 0x2E := by simpa using hv
      simp only [Bool.and_eq_true] at h
      exact List.forall_mem_cons.mpr ⟨by decide, units_of_span (isExponent_units h.2)⟩
    · exact isExponent_units h

theorem isUnsigned_units {s : JsString} (h : isUnsigned s = true) : ∀ u ∈ s, isNumberUnit u = true := by
  cases s with
  | nil => simp
  | cons d rest =>
    rw [isUnsigned] at h
    split at h
    · rename_i hd
      obtain rfl : d = 0x30 := by simpa using hd
      exact List.forall_mem_cons.mpr ⟨by decide, isFraction_units h⟩
    · simp only [Bool.and_eq_true] at h
      exact List.forall_mem_cons.mpr ⟨isNumberUnit_of_digit h.1, units_of_span (isFraction_units h.2)⟩

theorem isNumeral_units {s : JsString} (h : isNumeral s = true) : ∀ u ∈ s, isNumberUnit u = true := by
  intro u hu
  rcases mem_dropUnit (p := (· == 0x2D)) hu with hs | hd
  · obtain rfl : u = 0x2D := by simpa using hs
    decide
  · exact isUnsigned_units h u hd

theorem isNumeral_ne_nil {s : JsString} (h : isNumeral s = true) : s ≠ [] := by
  intro heq
  subst heq
  cases h

/-- What follows a number does not go on with it. -/
def Delimited (rest : JsString) : Prop := ∀ u, rest.head? = some u → isNumberUnit u = false

theorem takeWhile_numeral {s rest : JsString} (hs : ∀ u ∈ s, isNumberUnit u = true) (hrest : Delimited rest) :
    (s ++ rest).takeWhile isNumberUnit = s ∧ (s ++ rest).dropWhile isNumberUnit = rest := by
  have htake : rest.takeWhile isNumberUnit = [] := by
    cases rest with
    | nil => rfl
    | cons u rest => simp [hrest u rfl]
  have hdrop : rest.dropWhile isNumberUnit = rest := by
    cases rest with
    | nil => rfl
    | cons u rest => simp [hrest u rfl]
  exact ⟨by rw [List.takeWhile_append_of_pos hs, htake, List.append_nil],
    by rw [List.dropWhile_append_of_pos hs, hdrop]⟩

/-! ## A host of the safe integers -/

def digitsText (n : Nat) : JsString :=
  if n = 0 then [0x30] else (Nat.digits 10 n).reverse.map fun d => UInt16.ofNat (0x30 + d)

def integerText (q : Rat) : JsString :=
  if q.num < 0 then 0x2D :: digitsText q.num.natAbs else digitsText q.num.natAbs

def integerValue (s : JsString) : Rat :=
  if s.head? = some 0x2D then -(digitsValue s.tail : Int) else (digitsValue s : Int)

def isSafeInteger (q : Rat) : Bool := q.den = 1 ∧ -9007199254740991 ≤ q.num ∧ q.num ≤ 9007199254740991

theorem isDigit_ofNat {d : Nat} (h : d < 10) : isDigit (UInt16.ofNat (0x30 + d)) = true := by
  simp only [isDigit, Bool.and_eq_true, decide_eq_true_eq, UInt16.toNat_ofNat']
  omega

theorem digitsText_shape (n : Nat) : ∃ d rest, digitsText n = d :: rest ∧ isDigit d = true ∧
    (∀ u ∈ rest, isDigit u = true) ∧ (d = 0x30 → rest = []) := by
  unfold digitsText
  split
  · exact ⟨0x30, [], rfl, by decide, by simp, fun _ => rfl⟩
  · rename_i hn
    have hne : Nat.digits 10 n ≠ [] := Nat.digits_ne_nil_iff_ne_zero.mpr hn
    have hlast := Nat.getLast_digit_ne_zero 10 hn
    have hsmall : ∀ d ∈ Nat.digits 10 n, d < 10 := fun d hd => Nat.digits_lt_base (by decide) hd
    obtain ⟨init, last, hsplit⟩ : ∃ init last, Nat.digits 10 n = init ++ [last] :=
      ⟨_, _, (List.dropLast_append_getLast hne).symm⟩
    simp only [hsplit, List.getLast_append_singleton] at hlast
    rw [hsplit] at hsmall
    have hlt : last < 10 := hsmall last (by simp)
    refine ⟨UInt16.ofNat (0x30 + last), init.reverse.map fun d => UInt16.ofNat (0x30 + d), by simp [hsplit],
      isDigit_ofNat hlt, ?_, ?_⟩
    · intro u hu
      obtain ⟨d, hd, rfl⟩ := List.mem_map.mp hu
      exact isDigit_ofNat (hsmall d (by simp [List.mem_reverse.mp hd]))
    · intro h
      have := congrArg UInt16.toNat h
      rw [UInt16.toNat_ofNat'] at this
      have h30 : (0x30 : UInt16).toNat = 0x30 := rfl
      omega

theorem isUnsigned_digitsText (n : Nat) : isUnsigned (digitsText n) = true := by
  obtain ⟨d, rest, htext, hd, hrest, hzero⟩ := digitsText_shape n
  rw [htext, isUnsigned]
  split
  · rename_i h30
    rw [hzero (by simpa using h30)]
    rfl
  · have hnil : rest.dropWhile isDigit = [] := List.dropWhile_eq_nil_iff.mpr hrest
    simp [hd, hnil, isFraction]

theorem digitsValue_digitsText (n : Nat) : digitsValue (digitsText n) = n := by
  have hfold : ∀ ds : List Nat, (∀ d ∈ ds, d < 10) →
      digitsValue (ds.reverse.map fun d => UInt16.ofNat (0x30 + d)) = Nat.ofDigits 10 ds := by
    intro ds hds
    induction ds with
    | nil => rfl
    | cons d ds ih =>
      have hd : d < 10 := hds d (by simp)
      have hunit : (UInt16.ofNat (0x30 + d)).toNat - 0x30 = d := by
        rw [UInt16.toNat_ofNat']
        omega
      have ih := ih fun e he => hds e (by simp [he])
      simp only [digitsValue, List.reverse_cons, List.map_append, List.map_cons, List.map_nil, List.foldl_append,
        List.foldl_cons, List.foldl_nil, hunit] at ih ⊢
      rw [ih, Nat.ofDigits_cons]
      omega
  unfold digitsText
  split
  · rename_i hn
    rw [hn]
    rfl
  · rw [hfold _ fun d hd => Nat.digits_lt_base (by decide) hd, Nat.ofDigits_digits]

theorem rat_of_den_one {q : Rat} (h : q.den = 1) : ((q.num : Int) : Rat) = q := Rat.den_eq_one_iff q |>.mp h

/-- Safe integers written in decimal; what JavaScript writes for them. -/
def integerHost : JsonHost where
  isNumber := isSafeInteger
  numberText := integerText
  numberValue := integerValue
  syntaxError _ := js "Unexpected token"
  numeral q _ := by
    unfold integerText
    split
    · exact isUnsigned_digitsText _
    · obtain ⟨d, rest, htext, hd, -, -⟩ := digitsText_shape q.num.natAbs
      have hminus : d ≠ 0x2D := by
        intro heq
        subst heq
        cases hd
      have hunsigned := isUnsigned_digitsText q.num.natAbs
      rw [htext] at hunsigned ⊢
      simpa [isNumeral, dropUnit, hminus] using hunsigned
  value_text q hq := by
    simp only [isSafeInteger, decide_eq_true_eq] at hq
    unfold integerText integerValue
    split
    · rename_i hneg
      have habs : -((q.num.natAbs : Nat) : Int) = q.num := by omega
      rw [List.head?_cons, if_pos rfl, List.tail_cons, digitsValue_digitsText]
      conv_rhs => rw [← rat_of_den_one hq.1, ← habs]
      push_cast
      rfl
    · rename_i hpos
      have habs : ((q.num.natAbs : Nat) : Int) = q.num := by omega
      obtain ⟨d, rest, htext, hd, -, -⟩ := digitsText_shape q.num.natAbs
      have hminus : (digitsText q.num.natAbs).head? ≠ some 0x2D := by
        rw [htext, List.head?_cons, ne_eq, Option.some.injEq]
        intro heq
        subst heq
        cases hd
      rw [if_neg hminus, digitsValue_digitsText, habs, rat_of_den_one hq.1]
  safe n hlo hhi := by
    simp only [isSafeInteger, decide_eq_true_eq]
    exact ⟨rfl, hlo, hhi⟩

end Ccctl.Core
