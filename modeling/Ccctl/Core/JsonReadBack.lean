import Ccctl.Core.JsonText
/-
  Ccctl.Core.JsonReadBack — a value read back from its own text.

  A value built by the program is `WellFormed`: its numbers are finite and its objects carry
  their keys once, in the order an object lists them. Its text reads back as the value
  (`parse_stringify`; `parse_render` for an indented text), and its compact text is one line
  (`stringify_oneLine`). The lemmas go production by production, each with what follows it in
  the statement; only a number asks anything of what follows (`Delimited`).
-/

namespace Ccctl.Core

namespace Json

/-! ## Strings -/

theorem hexValue_hexDigit : ∀ n < 16, hexValue (hexDigit n) = some n := by decide

theorem hexUnit_unicodeEscape {u : Nat} (hu : u < 0x10000) :
    hexUnit (hexDigit (u / 0x1000 % 0x10)) (hexDigit (u / 0x100 % 0x10)) (hexDigit (u / 0x10 % 0x10))
      (hexDigit (u % 0x10)) = some (UInt16.ofNat u) := by
  have hsum : u / 0x1000 % 0x10 * 0x1000 + u / 0x100 % 0x10 * 0x100 + u / 0x10 % 0x10 * 0x10 + u % 0x10 = u := by omega
  simp only [hexUnit, hexValue_hexDigit _ (Nat.mod_lt _ (by decide : 0 < 0x10)), Option.bind_eq_bind,
    Option.bind_some, Option.pure_def, hsum]

/-- A unit that stands for itself. -/
theorem stringRest_plain {u : UInt16} (hquote : u ≠ 0x22) (hback : u ≠ 0x5C) (hctl : 0x20 ≤ u.toNat) (t : JsString) :
    stringRest (u :: t) = (stringRest t).map (consUnit u) := by
  rw [stringRest.eq_def]
  simp [hquote, hback, Nat.not_lt.mpr hctl]

theorem stringRest_short {e v : UInt16} (he : e ≠ 0x75) (hv : simpleEscape e = some v) (t : JsString) :
    stringRest (0x5C :: e :: t) = (stringRest t).map (consUnit v) := by
  rw [stringRest.eq_def]
  simp [he, hv]

theorem stringRest_unicode {u : Nat} (hu : u < 0x10000) (t : JsString) :
    stringRest (unicodeEscape u ++ t) = (stringRest t).map (consUnit (UInt16.ofNat u)) := by
  simp only [unicodeEscape, List.cons_append, List.nil_append]
  rw [stringRest.eq_def]
  simp [hexUnit_unicodeEscape hu]

/-- What one unit after another adds in front. -/
def prependText (s : JsString) (r : JsString × JsString) : JsString × JsString := (s ++ r.1, r.2)

theorem ofNat_ne_of_ne {p : Nat} {v : UInt16} (hp : p < 0x10000) (h : p ≠ v.toNat) : UInt16.ofNat p ≠ v := by
  intro heq
  subst heq
  rw [UInt16.toNat_ofNat'] at h
  omega

theorem stringRest_encodePoint {p : Nat} (hp : p < 0x110000) (hctl : 0x20 ≤ p) (hquote : p ≠ 0x22) (hback : p ≠ 0x5C)
    (t : JsString) : stringRest (encodePoint p ++ t) = (stringRest t).map (prependText (encodePoint p)) := by
  unfold encodePoint
  split
  · rename_i hbmp
    have hnat : (UInt16.ofNat p).toNat = p := by
      rw [UInt16.toNat_ofNat']
      omega
    rw [List.singleton_append, stringRest_plain (ofNat_ne_of_ne hbmp hquote) (ofNat_ne_of_ne hbmp hback) (by omega)]
    rfl
  · rename_i hbmp
    have hhi : 0xD800 + (p - 0x10000) / 0x400 < 0x10000 := by omega
    have hlo : 0xDC00 + (p - 0x10000) % 0x400 < 0x10000 := by omega
    have hplain : ∀ n, 0xD800 ≤ n → n < 0x10000 → ∀ t, stringRest (UInt16.ofNat n :: t) =
        (stringRest t).map (consUnit (UInt16.ofNat n)) := by
      intro n hge hlt t
      have hnat : (UInt16.ofNat n).toNat = n := by
        rw [UInt16.toNat_ofNat']
        omega
      have h22 : (0x22 : UInt16).toNat = 0x22 := rfl
      have h5C : (0x5C : UInt16).toNat = 0x5C := rfl
      exact stringRest_plain (ofNat_ne_of_ne hlt (by omega)) (ofNat_ne_of_ne hlt (by omega)) (by omega) t
    rw [List.cons_append, List.cons_append, List.nil_append, hplain _ (by omega) hhi, hplain _ (by omega) hlo,
      Option.map_map]
    rfl

theorem stringRest_quotePoint {p : Nat} (hp : p < 0x110000) (t : JsString) :
    stringRest (quotePoint p ++ t) = (stringRest t).map (prependText (encodePoint p)) := by
  unfold quotePoint
  split
  · rename_i e he
    obtain ⟨before, after, hsplit, -⟩ := List.lookup_eq_some_iff.mp he
    have hmem : (p, e) ∈ SHORT_ESCAPES := by simp [hsplit]
    simp only [SHORT_ESCAPES, List.mem_cons, Prod.mk.injEq, List.not_mem_nil, or_false] at hmem
    rcases hmem with ⟨rfl, rfl⟩ | ⟨rfl, rfl⟩ | ⟨rfl, rfl⟩ | ⟨rfl, rfl⟩ | ⟨rfl, rfl⟩ | ⟨rfl, rfl⟩ | ⟨rfl, rfl⟩ <;>
      exact stringRest_short (by decide) rfl t
  · rename_i hnone
    split
    · rename_i hesc
      have hbmp : p < 0x10000 := by omega
      rw [stringRest_unicode hbmp, encodePoint, if_pos hbmp]
      rfl
    · rename_i hplain
      refine stringRest_encodePoint hp (by omega) ?_ ?_ t
      · intro heq
        subst heq
        cases hnone
      · intro heq
        subst heq
        cases hnone

theorem stringRest_points (ps : List Nat) (hps : ∀ p ∈ ps, p < 0x110000) (t : JsString) :
    stringRest (ps.flatMap quotePoint ++ t) = (stringRest t).map (prependText (encode ps)) := by
  induction ps with
  | nil =>
    have hid : prependText (encode []) = id := rfl
    rw [hid, Option.map_id, List.flatMap_nil, List.nil_append, id]
  | cons p ps ih =>
    have hp : p < 0x110000 := hps p (by simp)
    rw [List.flatMap_cons, List.append_assoc, stringRest_quotePoint hp, ih fun q hq => hps q (by simp [hq]),
      Option.map_map]
    congr 1
    funext r
    simp [prependText, encode]

/-- A quoted string is read back. -/
theorem stringRest_quote (s rest : JsString) :
    stringRest ((codePoints s).flatMap quotePoint ++ 0x22 :: rest) = some (s, rest) := by
  rw [stringRest_points _ (codePoints_lt s), stringRest.eq_def]
  simp [prependText, encode_codePoints]

/-! ## A value read back from its text -/

/-- A value a program can hold: finite numbers, and objects with their keys in an object's order. -/
inductive WellFormed (host : JsonHost) : Json → Prop
  | null : WellFormed host .null
  | bool (b : Bool) : WellFormed host (.bool b)
  | num {q : Rat} : host.isNumber q = true → WellFormed host (.num q)
  | str (s : JsString) : WellFormed host (.str s)
  | arr {items : List Json} : (∀ v ∈ items, WellFormed host v) → WellFormed host (.arr items)
  | obj {fields : Fields} : objectOf fields = fields → (∀ f ∈ fields, WellFormed host f.2) →
      WellFormed host (.obj fields)

theorem token_cons {u : UInt16} (h : isJsonSpace u = false) (v : UInt16) (t : JsString) :
    token v (u :: t) = if u = v then some t else none := by
  simp [token, skipSpace, h]

def Blank (s : JsString) : Prop := ∀ u ∈ s, isJsonSpace u = true

theorem blank_nil : Blank [] := by simp [Blank]

theorem skipSpace_append {s : JsString} (h : Blank s) (t : JsString) : skipSpace (s ++ t) = skipSpace t :=
  List.dropWhile_append_of_pos h

theorem token_append {s : JsString} (h : Blank s) (v : UInt16) (t : JsString) : token v (s ++ t) = token v t := by
  rw [token, token, skipSpace_append h]

theorem parseValue_append (host : JsonHost) {s : JsString} (h : Blank s) (fuel : Nat) (t : JsString) :
    parseValue host fuel (s ++ t) = parseValue host fuel t := by
  cases fuel with
  | zero => rfl
  | succ fuel => simp only [parseValue, token_append h, skipSpace_append h]

section
variable {host : JsonHost} {gap : JsString}

theorem breakLine_blank (hgap : Blank gap) (depth : Nat) : Blank (breakLine gap depth) := by
  intro u hu
  unfold breakLine at hu
  split at hu
  · cases hu
  · rcases List.mem_cons.mp hu with rfl | hu
    · decide
    · obtain ⟨line, hline, hu⟩ := List.mem_flatten.mp hu
      rw [List.eq_of_mem_replicate hline] at hu
      exact hgap u hu

/-- The closing unit of a nonempty array or object. -/
theorem token_close (hgap : Blank gap) (depth : Nat) {u : UInt16} (h : isJsonSpace u = false) (v : UInt16)
    (rest : JsString) : token v (breakLine gap depth ++ u :: rest) = if u = v then some rest else none := by
  rw [token_append (breakLine_blank hgap depth), token_cons h]

theorem parseValue_colon (fuel : Nat) (t : JsString) :
    (token 0x3A (colon gap ++ t)).bind (parseValue host fuel) = parseValue host fuel t := by
  unfold colon
  split
  · rw [List.singleton_append, token_cons (by decide), if_pos rfl, Option.bind_some]
  · rw [List.cons_append, token_cons (by decide), if_pos rfl, Option.bind_some]
    exact parseValue_append host (s := [0x20]) (by simp [Blank, isJsonSpace]) fuel t

theorem delimited_close (depth : Nat) {u : UInt16} (h : isNumberUnit u = false) (rest : JsString) :
    Delimited (breakLine gap depth ++ u :: rest) := by
  intro v hv
  unfold breakLine at hv
  split at hv
  · obtain rfl : u = v := by simpa using hv
    exact h
  · obtain rfl : 0x0A = v := by simpa using hv
    decide

theorem delimited_cons {u : UInt16} (h : isNumberUnit u = false) (rest : JsString) : Delimited (u :: rest) := by
  intro v hv
  obtain rfl : u = v := by simpa using hv
  exact h

/-- The text of a value starts with it: no whitespace, and no closing unit. -/
theorem render_head (gap : JsString) {v : Json} (hv : WellFormed host v) (depth : Nat) :
    ∃ u t, render host gap depth v = u :: t ∧ isJsonSpace u = false ∧ u ≠ 0x5D := by
  cases hv with
  | null => exact ⟨0x6E, _, rfl, by decide, by decide⟩
  | bool b =>
    cases b with
    | false => exact ⟨0x66, _, rfl, by decide, by decide⟩
    | true => exact ⟨0x74, _, rfl, by decide, by decide⟩
  | @num q hq =>
    have hnum := host.numeral q hq
    cases htext : host.numberText q with
    | nil => exact absurd htext (isNumeral_ne_nil hnum)
    | cons u t =>
      refine ⟨u, t, by rw [render, if_pos hq, htext], ?_, ?_⟩
      all_goals
        have hu := isNumeral_units hnum u (by simp [htext])
        by_contra hne
      · simp only [Bool.not_eq_false, isJsonSpace, Bool.or_eq_true, beq_iff_eq] at hne
        rcases hne with ((rfl | rfl) | rfl) | rfl <;> cases hu
      · obtain rfl : u = 0x5D := by simpa using hne
        cases hu
  | str s => exact ⟨0x22, _, rfl, by decide, by decide⟩
  | @arr items _ => cases items <;> exact ⟨0x5B, _, rfl, by decide, by decide⟩
  | @obj fields _ _ => cases fields <;> exact ⟨0x7B, _, rfl, by decide, by decide⟩

/-- `v` is read back from its text, whatever ends it. -/
def ReadBack (host : JsonHost) (gap : JsString) (v : Json) : Prop :=
  ∀ depth fuel rest, Delimited rest → 2 * (render host gap depth v ++ rest).length < fuel →
    parseValue host fuel (render host gap depth v ++ rest) = some (v, rest)

theorem parseScalar_numeral {q : Rat} (hq : host.isNumber q = true) {rest : JsString} (hrest : Delimited rest) :
    parseScalar host (host.numberText q ++ rest) = some (.num q, rest) := by
  have hnum := host.numeral q hq
  have hspan := takeWhile_numeral (isNumeral_units hnum) hrest
  obtain ⟨u, t, htext⟩ := List.exists_cons_of_ne_nil (isNumeral_ne_nil hnum)
  have hu : isNumberUnit u = true := isNumeral_units hnum u (by simp [htext])
  have hother : ∀ v literal, isNumberUnit v = false →
      (v :: literal).isPrefixOf (host.numberText q ++ rest) = false := by
    intro v literal hv
    have hne : v ≠ u := by
      intro heq
      subst heq
      simp [hv] at hu
    simp [htext, List.isPrefixOf, hne]
  have hnull : (js "null").isPrefixOf (host.numberText q ++ rest) = false := hother 0x6E _ (by decide)
  have htrue : (js "true").isPrefixOf (host.numberText q ++ rest) = false := hother 0x74 _ (by decide)
  have hfalse : (js "false").isPrefixOf (host.numberText q ++ rest) = false := hother 0x66 _ (by decide)
  rw [parseScalar, hnull, htrue, hfalse, hspan.1, hspan.2, hnum, host.value_text q hq]
  rfl

/-- A text that opens no array, no object and no string is a scalar's. -/
theorem parseValue_scalar {u : UInt16} (hspace : isJsonSpace u = false) (harr : u ≠ 0x5B) (hobj : u ≠ 0x7B)
    (hstr : u ≠ 0x22) (fuel : Nat) (t : JsString) :
    parseValue host (fuel + 1) (u :: t) = parseScalar host (u :: t) := by
  rw [parseValue, token_cons hspace, token_cons hspace, token_cons hspace, if_neg harr, if_neg hobj, if_neg hstr]
  simp [skipSpace, hspace]

theorem parseValue_str (fuel : Nat) (s rest : JsString) :
    parseValue host (fuel + 1) (quote s ++ rest) = some (.str s, rest) := by
  rw [quote, List.cons_append, List.append_assoc, parseValue, token_cons (by decide), token_cons (by decide),
    token_cons (by decide), if_neg (by decide), if_neg (by decide), if_pos rfl, List.singleton_append]
  simp [stringRest_quote]

/-- An array's items, from the first one on. -/
theorem parseItems_render (hgap : Blank gap) {v : Json} {items : List Json} (h : ∀ w ∈ v :: items, ReadBack host gap w)
    (depth fuel : Nat) (rest : JsString)
    (hfuel : 2 * (render host gap (depth + 1) v ++ (renderItems host gap (depth + 1) items ++
      (breakLine gap depth ++ 0x5D :: rest))).length + 1 < fuel) :
    parseItems host fuel (breakLine gap (depth + 1) ++ (render host gap (depth + 1) v ++
      (renderItems host gap (depth + 1) items ++ (breakLine gap depth ++ 0x5D :: rest)))) =
      some (v :: items, rest) := by
  induction items generalizing v fuel with
  | nil =>
    obtain _ | fuel := fuel
    · omega
    · have hread := h v (by simp) (depth + 1) fuel (breakLine gap depth ++ 0x5D :: rest)
        (delimited_close depth (by decide) rest) (by simpa [renderItems] using by simpa [renderItems] using hfuel)
      rw [parseItems, parseValue_append host (breakLine_blank hgap _), renderItems, List.nil_append, hread]
      simp [token_close hgap depth (u := 0x5D) (by decide)]
  | cons w items ih =>
    obtain _ | fuel := fuel
    · omega
    · rw [renderItems] at hfuel ⊢
      have hread := h v (by simp) (depth + 1) fuel
        (0x2C :: (breakLine gap (depth + 1) ++ render host gap (depth + 1) w ++
          renderItems host gap (depth + 1) items) ++ (breakLine gap depth ++ 0x5D :: rest))
        (delimited_cons (by decide) _) (by omega)
      have hrec := ih (v := w) (fun x hx => h x (List.mem_cons_of_mem _ hx)) fuel (by
        simp only [List.length_append, List.length_cons, List.cons_append] at hfuel ⊢
        omega)
      rw [parseItems, parseValue_append host (breakLine_blank hgap _), hread]
      simp only [List.cons_append, token_cons (u := 0x2C) (by decide), if_true, List.append_assoc, hrec,
        Option.map_some]

/-- An object's members, from the first one on. -/
theorem parseMembers_render (hgap : Blank gap) {key : JsString} {v : Json} {fields : Fields}
    (h : ∀ f ∈ (key, v) :: fields, ReadBack host gap f.2) (depth fuel : Nat) (rest : JsString)
    (hfuel : 2 * (quote key ++ (colon gap ++ (render host gap (depth + 1) v ++ (renderFields host gap (depth + 1) fields ++
      (breakLine gap depth ++ 0x7D :: rest))))).length + 1 < fuel) :
    parseMembers host fuel (breakLine gap (depth + 1) ++ (quote key ++ (colon gap ++ (render host gap (depth + 1) v ++
      (renderFields host gap (depth + 1) fields ++ (breakLine gap depth ++ 0x7D :: rest)))))) =
      some ((key, v) :: fields, rest) := by
  have hkey : ∀ (k t : JsString), (token 0x22 (breakLine gap (depth + 1) ++ (quote k ++ t))).bind stringRest =
      some (k, t) := by
    intro k t
    rw [token_append (breakLine_blank hgap _), quote, List.cons_append, token_cons (by decide), if_pos rfl,
      Option.bind_some, List.append_assoc, List.singleton_append, stringRest_quote]
  induction fields generalizing key v fuel with
  | nil =>
    obtain _ | fuel := fuel
    · omega
    · have hread := h (key, v) (by simp) (depth + 1) fuel (breakLine gap depth ++ 0x7D :: rest)
        (delimited_close depth (by decide) rest) (by
          simp only [renderFields, List.nil_append, List.length_append] at hfuel ⊢
          omega)
      rw [parseMembers, hkey]
      simp only [parseValue_colon, renderFields, List.nil_append, hread,
        token_close hgap depth (u := 0x7D) (by decide)]
      simp
  | cons f fields ih =>
    obtain _ | fuel := fuel
    · omega
    · obtain ⟨key', w⟩ := f
      rw [renderFields] at hfuel ⊢
      have hback : ReadBack host gap v := h (key, v) (by simp)
      have hread := hback (depth + 1) fuel
        (0x2C :: (breakLine gap (depth + 1) ++ quote key' ++ colon gap ++ render host gap (depth + 1) w ++
          renderFields host gap (depth + 1) fields) ++ (breakLine gap depth ++ 0x7D :: rest))
        (delimited_cons (by decide) _) (by
          rw [List.length_append, List.length_append] at hfuel
          omega)
      have hrec := ih (v := w) (fun x hx => h x (List.mem_cons_of_mem _ hx)) fuel (by
        simp only [List.length_append, List.length_cons, List.cons_append] at hfuel ⊢
        omega)
      rw [parseMembers, hkey]
      simp only [parseValue_colon, hread]
      simp only [List.cons_append, token_cons (u := 0x2C) (by decide), if_true, List.append_assoc, hrec,
        Option.map_some]

/-- Every well-formed value is read back from its text. -/
theorem parseValue_render (hgap : Blank gap) {v : Json} (hv : WellFormed host v) : ReadBack host gap v := by
  induction hv with
  | null =>
    intro depth fuel rest _ hfuel
    obtain _ | fuel := fuel
    · omega
    · exact parseValue_scalar (u := 0x6E) (by decide) (by decide) (by decide) (by decide) fuel _
  | bool b =>
    intro depth fuel rest _ hfuel
    obtain _ | fuel := fuel
    · omega
    · cases b with
      | false => exact parseValue_scalar (u := 0x66) (by decide) (by decide) (by decide) (by decide) fuel _
      | true => exact parseValue_scalar (u := 0x74) (by decide) (by decide) (by decide) (by decide) fuel _
  | @num q hq =>
    intro depth fuel rest hrest hfuel
    obtain _ | fuel := fuel
    · omega
    · obtain ⟨u, t, htext⟩ := List.exists_cons_of_ne_nil (isNumeral_ne_nil (host.numeral q hq))
      have hu : isNumberUnit u = true := isNumeral_units (host.numeral q hq) u (by simp [htext])
      have hscalar := parseScalar_numeral hq hrest
      rw [render, if_pos hq]
      rw [htext, List.cons_append] at hscalar ⊢
      rw [parseValue_scalar _ _ _ _ fuel, hscalar]
      · by_contra hspace
        simp only [Bool.not_eq_false, isJsonSpace, Bool.or_eq_true, beq_iff_eq] at hspace
        rcases hspace with ((rfl | rfl) | rfl) | rfl <;> cases hu
      all_goals
        intro heq
        subst heq
        cases hu
  | str s =>
    intro depth fuel rest _ hfuel
    obtain _ | fuel := fuel
    · omega
    · exact parseValue_str fuel s rest
  | @arr items hitems ih =>
    intro depth fuel rest _ hfuel
    obtain _ | fuel := fuel
    · omega
    · cases items with
      | nil =>
        rw [render, parseValue]
        simp [token_cons (u := 0x5B) (by decide), token_cons (u := 0x5D) (by decide)]
      | cons v items =>
        rw [render] at hfuel ⊢
        obtain ⟨u, t, hhead, hspace, hne⟩ := render_head gap (hitems v (by simp)) (depth + 1)
        have hopen : token 0x5D (breakLine gap (depth + 1) ++ (render host gap (depth + 1) v ++
            (renderItems host gap (depth + 1) items ++ (breakLine gap depth ++ 0x5D :: rest)))) = none := by
          rw [token_append (breakLine_blank hgap _), hhead, List.cons_append, token_cons hspace, if_neg hne]
        have hread := parseItems_render hgap ih depth fuel rest (by
          simp only [List.length_append, List.length_cons, List.cons_append, List.length_nil] at hfuel ⊢
          omega)
        rw [parseValue]
        simp only [List.cons_append, List.append_assoc, List.nil_append, token_cons (u := 0x5B) (by decide), if_true,
          hopen, hread, Option.map_some]
  | @obj fields hfields hitems ih =>
    intro depth fuel rest _ hfuel
    obtain _ | fuel := fuel
    · omega
    · cases fields with
      | nil =>
        rw [render, parseValue]
        simp [token_cons (u := 0x7B) (by decide), token_cons (u := 0x7D) (by decide)]
      | cons f fields =>
        obtain ⟨key, v⟩ := f
        rw [render] at hfuel ⊢
        have hopen : ∀ t, token 0x7D (breakLine gap (depth + 1) ++ (quote key ++ t)) = none := by
          intro t
          rw [token_append (breakLine_blank hgap _), quote, List.cons_append, token_cons (by decide), if_neg (by decide)]
        have hread := parseMembers_render hgap ih depth fuel rest (by
          simp only [List.length_append, List.length_cons, List.cons_append, List.length_nil] at hfuel ⊢
          omega)
        rw [parseValue]
        simp only [List.cons_append, List.append_assoc, List.nil_append, token_cons (u := 0x7B) (by decide), if_true,
          if_neg (show ¬ (0x7B : UInt16) = 0x5B by decide), hopen, hread, hfields, Option.map_some]

theorem delimited_blank {s : JsString} (h : Blank s) : Delimited s := by
  intro u hu
  have hspace := h u (List.mem_of_mem_head? hu)
  simp only [isJsonSpace, Bool.or_eq_true, beq_iff_eq] at hspace
  rcases hspace with ((rfl | rfl) | rfl) | rfl <;> decide

theorem parse_render (hgap : Blank gap) {v : Json} (hv : WellFormed host v) {after : JsString} (hafter : Blank after) :
    parse host (render host gap 0 v ++ after) = some v := by
  have hread := parseValue_render hgap hv 0 _ after (delimited_blank hafter) (Nat.lt_succ_self _)
  have hend : skipSpace after = [] := List.dropWhile_eq_nil_iff.mpr hafter
  rw [parse, hread]
  simp [hend]

end

/-- `JSON.parse(JSON.stringify(value))` is `value`. -/
theorem parse_stringify {host : JsonHost} {v : Json} (hv : WellFormed host v) : parse host (stringify host v) = some v := by
  have hread := parse_render blank_nil hv blank_nil
  rwa [List.append_nil] at hread

/-! ## The compact text is one line -/

theorem newline_not_mem_quotePoint {p : Nat} (hp : p < 0x110000) : (0x0A : UInt16) ∉ quotePoint p := by
  have hhex : ∀ n < 16, hexDigit n ≠ 0x0A := by decide
  unfold quotePoint
  split
  · rename_i e he
    obtain ⟨before, after, hsplit, -⟩ := List.lookup_eq_some_iff.mp he
    have hmem : (p, e) ∈ SHORT_ESCAPES := by simp [hsplit]
    simp only [SHORT_ESCAPES, List.mem_cons, Prod.mk.injEq, List.not_mem_nil, or_false] at hmem
    rcases hmem with ⟨-, rfl⟩ | ⟨-, rfl⟩ | ⟨-, rfl⟩ | ⟨-, rfl⟩ | ⟨-, rfl⟩ | ⟨-, rfl⟩ | ⟨-, rfl⟩ <;> decide
  · have hne : ∀ n, 0x0A < n → n < 0x10000 → (0x0A : UInt16) ≠ UInt16.ofNat n := by
      intro n hgt hlt heq
      have := congrArg UInt16.toNat heq
      rw [UInt16.toNat_ofNat'] at this
      have h10 : (0x0A : UInt16).toNat = 0x0A := rfl
      omega
    split
    · simp only [unicodeEscape, List.mem_cons, List.not_mem_nil, or_false, not_or]
      exact ⟨by decide, by decide, (hhex _ (by omega)).symm, (hhex _ (by omega)).symm, (hhex _ (by omega)).symm,
        (hhex _ (by omega)).symm⟩
    · unfold encodePoint
      split
      · simpa using hne p (by omega) (by omega)
      · simp only [List.mem_cons, List.not_mem_nil, or_false, not_or]
        exact ⟨hne _ (by omega) (by omega), hne _ (by omega) (by omega)⟩

theorem newline_not_mem_quote (s : JsString) : (0x0A : UInt16) ∉ quote s := by
  simp only [quote, List.mem_cons, List.mem_append, List.mem_flatMap, List.not_mem_nil, or_false, not_or, not_exists,
    not_and]
  exact ⟨by decide, fun p hp => newline_not_mem_quotePoint (codePoints_lt s p hp), by decide⟩

theorem newline_not_mem_render {host : JsonHost} {v : Json} (hv : WellFormed host v) (depth : Nat) :
    (0x0A : UInt16) ∉ render host [] depth v := by
  induction hv generalizing depth with
  | null =>
    rw [render]
    decide
  | bool b =>
    rw [render]
    cases b <;> decide
  | @num q hq =>
    rw [render, if_pos hq]
    intro hmem
    cases isNumeral_units (host.numeral q hq) _ hmem
  | str s => exact newline_not_mem_quote s
  | @arr items _ ih =>
    have htail : ∀ rest : List Json, (∀ v ∈ rest, v ∈ items) → (0x0A : UInt16) ∉ renderItems host [] (depth + 1) rest := by
      intro rest hsub
      induction rest with
      | nil => simp [renderItems]
      | cons v rest ihrest =>
        have hv := ih v (hsub v (by simp)) (depth + 1)
        have hrest := ihrest fun w hw => hsub w (List.mem_cons_of_mem _ hw)
        simp [renderItems, breakLine, hv, hrest]
    cases items with
    | nil => simp [render]
    | cons v rest =>
      have hv := ih v (by simp) (depth + 1)
      have hrest := htail rest fun w hw => List.mem_cons_of_mem _ hw
      simp [render, breakLine, hv, hrest]
  | @obj fields _ _ ih =>
    have hcolon : (0x0A : UInt16) ∉ colon [] := by decide
    have htail : ∀ rest : Fields, (∀ f ∈ rest, f ∈ fields) → (0x0A : UInt16) ∉ renderFields host [] (depth + 1) rest := by
      intro rest hsub
      induction rest with
      | nil => simp [renderFields]
      | cons f rest ihrest =>
        obtain ⟨key, v⟩ := f
        have hv := ih (key, v) (hsub _ (by simp)) (depth + 1)
        have hrest := ihrest fun w hw => hsub w (List.mem_cons_of_mem _ hw)
        simp [renderFields, breakLine, newline_not_mem_quote, hcolon, hv, hrest]
    cases fields with
    | nil => simp [render]
    | cons f rest =>
      obtain ⟨key, v⟩ := f
      have hv := ih (key, v) (by simp) (depth + 1)
      have hrest := htail rest fun w hw => List.mem_cons_of_mem _ hw
      simp [render, breakLine, newline_not_mem_quote, hcolon, hv, hrest]

/-- Compact JSON text carries no newline. -/
theorem stringify_oneLine {host : JsonHost} {v : Json} (hv : WellFormed host v) : (0x0A : UInt16) ∉ stringify host v :=
  newline_not_mem_render hv 0

/-! ## Keys -/

theorem keys_setProp (fields : Fields) (key : JsString) (value : Json) :
    ((setProp fields key value).map Prod.fst).Perm
      (if key ∈ fields.map Prod.fst then fields.map Prod.fst else key :: fields.map Prod.fst) := by
  unfold setProp
  split
  · rw [List.map_map]
    refine List.Perm.of_eq (List.map_congr_left fun f _ => ?_)
    simp only [Function.comp]
    split
    · rename_i h
      exact h.symm
    · rfl
  · split
    · rw [List.map_append]
      exact List.perm_append_singleton _ _
    · rw [List.map_append, List.map_cons]
      refine List.perm_middle.trans (List.Perm.cons _ (List.Perm.of_eq ?_))
      rw [← List.map_append, List.takeWhile_append_dropWhile]

theorem setProp_nodup {fields : Fields} (h : (fields.map Prod.fst).Nodup) (key : JsString) (value : Json) :
    ((setProp fields key value).map Prod.fst).Nodup := by
  rw [(keys_setProp fields key value).nodup_iff]
  split
  · exact h
  · exact List.nodup_cons.mpr ⟨‹_›, h⟩

theorem objectOf_nodup (fields : Fields) : ((objectOf fields).map Prod.fst).Nodup := by
  have hfold : ∀ acc : Fields, (acc.map Prod.fst).Nodup →
      ((fields.foldl (fun object f => setProp object f.1 f.2) acc).map Prod.fst).Nodup := by
    induction fields with
    | nil => exact fun acc h => h
    | cons f rest ih => exact fun acc h => ih _ (setProp_nodup h f.1 f.2)
  exact hfold [] List.nodup_nil

/-- Distinct names that are no array indices stay in the order they were written. -/
theorem objectOf_names {fields : Fields} (hnodup : (fields.map Prod.fst).Nodup)
    (hname : ∀ key ∈ fields.map Prod.fst, arrayIndex key = none) : objectOf fields = fields := by
  have hfold : ∀ acc : Fields, ((acc ++ fields).map Prod.fst).Nodup →
      fields.foldl (fun object f => setProp object f.1 f.2) acc = acc ++ fields := by
    clear hnodup
    induction fields with
    | nil => intro acc _; simp
    | cons f rest ih =>
      intro acc h
      have hnew : f.1 ∉ acc.map Prod.fst := by
        rw [List.map_append, List.map_cons] at h
        exact fun hmem => (List.nodup_append.mp h).2.2 _ hmem _ List.mem_cons_self rfl
      have hset : setProp acc f.1 f.2 = acc ++ [f] := by
        rw [setProp, if_neg hnew, hname f.1 (by simp)]
      rw [List.foldl_cons, hset, ih (fun key hkey => hname key (by simp [hkey])) _ (by simpa using h)]
      simp
  simpa [objectOf] using hfold [] (by simpa using hnodup)

theorem get_append (before after : Fields) (key : JsString) :
    (obj (before ++ after)).get key = ((obj before).get key).or ((obj after).get key) := by
  induction before with
  | nil => simp
  | cons f rest ih =>
    obtain ⟨k, v⟩ := f
    rw [List.cons_append, get_cons, get_cons, ih]
    split <;> simp

theorem get_none_of_not_mem {fields : Fields} {key : JsString} (h : key ∉ fields.map Prod.fst) :
    (obj fields).get key = none := by
  induction fields with
  | nil => rfl
  | cons f rest ih =>
    simp only [List.map_cons, List.mem_cons, not_or] at h
    rw [get_cons, if_neg (Ne.symm h.1), ih h.2]

/-- Reading after a write. -/
theorem get_setProp (fields : Fields) (key : JsString) (value : Json) (wanted : JsString) :
    (obj (setProp fields key value)).get wanted = if wanted = key then some value else (obj fields).get wanted := by
  have hreplace : key ∈ fields.map Prod.fst →
      (obj (fields.map fun f => if f.1 = key then (key, value) else f)).get wanted =
        if wanted = key then some value else (obj fields).get wanted := by
    intro hmem
    induction fields with
    | nil => cases hmem
    | cons f rest ih =>
      obtain ⟨k, v⟩ := f
      by_cases hk : k = key
      · subst hk
        by_cases hw : wanted = k
        · simp [get_cons, hw]
        · have hrest : (obj (rest.map fun f => if f.1 = k then (k, value) else f)).get wanted = (obj rest).get wanted := by
            clear ih hmem
            induction rest with
            | nil => rfl
            | cons g rest ih =>
              obtain ⟨j, u⟩ := g
              by_cases hj : j = k
              · simp [get_cons, hj, Ne.symm hw, ih]
              · simp [get_cons, hj, ih]
          simp [get_cons, Ne.symm hw, hw, hrest]
      · have hin : key ∈ rest.map Prod.fst := by simpa [Ne.symm hk] using hmem
        have hrest := ih hin
        by_cases hw : k = wanted
        · subst hw
          simp [get_cons, hk]
        · simp only [List.map_cons, hk, if_false, get_cons, hw, hrest]
  unfold setProp
  split
  · exact hreplace ‹_›
  · rename_i hnew
    have hnone := get_none_of_not_mem hnew
    split
    · rw [get_append, get_cons, get_nil]
      by_cases hw : wanted = key
      · simp [hw, hnone]
      · simp [hw, Ne.symm hw]
    · rename_i n _
      rw [get_append, get_cons]
      by_cases hw : wanted = key
      · subst hw
        have hbefore : (obj (fields.takeWhile (indexBelow n))).get wanted = none :=
          get_none_of_not_mem fun hmem => hnew ((List.takeWhile_prefix _).sublist.map _ |>.subset hmem)
        simp [hbefore]
      · conv_rhs => rw [if_neg hw, ← List.takeWhile_append_dropWhile (p := indexBelow n) (l := fields), get_append]
        rw [if_neg (Ne.symm hw)]

/-- An object written under distinct names. -/
theorem WellFormed.names {host : JsonHost} {fields : Fields} (keys : List JsString) (hkeys : fields.map Prod.fst = keys)
    (hnodup : keys.Nodup) (hname : ∀ key ∈ keys, arrayIndex key = none) (h : ∀ f ∈ fields, WellFormed host f.2) :
    WellFormed host (.obj fields) :=
  .obj (objectOf_names (hkeys ▸ hnodup) (hkeys ▸ hname)) h

/-! ## Other values under the same keys -/

def onValues (φ : JsString → Json → Json) (fields : Fields) : Fields := fields.map fun f => (f.1, φ f.1 f.2)

theorem keys_onValues (φ : JsString → Json → Json) (fields : Fields) :
    (onValues φ fields).map Prod.fst = fields.map Prod.fst := by
  simp [onValues]

theorem setProp_onValues (φ : JsString → Json → Json) (fields : Fields) (key : JsString) (value : Json) :
    setProp (onValues φ fields) key (φ key value) = onValues φ (setProp fields key value) := by
  have hbelow : ∀ n, (indexBelow n ∘ fun f : JsString × Json => (f.1, φ f.1 f.2)) = indexBelow n := fun _ => rfl
  unfold setProp
  rw [keys_onValues]
  split
  · rw [onValues, onValues, List.map_map, List.map_map]
    refine List.map_congr_left fun f _ => ?_
    simp only [Function.comp]
    split <;> rfl
  · split
    · simp [onValues]
    · simp [onValues, List.takeWhile_map, List.dropWhile_map, hbelow]

/-- The order of an object's keys does not depend on its values. -/
theorem objectOf_onValues (φ : JsString → Json → Json) (fields : Fields) :
    objectOf (onValues φ fields) = onValues φ (objectOf fields) := by
  have hfold : ∀ acc : Fields, (onValues φ fields).foldl (fun object f => setProp object f.1 f.2) (onValues φ acc) =
      onValues φ (fields.foldl (fun object f => setProp object f.1 f.2) acc) := by
    induction fields with
    | nil => exact fun _ => rfl
    | cons f rest ih =>
      intro acc
      have hcons : onValues φ (f :: rest) = (f.1, φ f.1 f.2) :: onValues φ rest := rfl
      rw [hcons, List.foldl_cons, List.foldl_cons, setProp_onValues]
      exact ih _
  exact hfold []

/-- A key of an object set to another value. -/
theorem WellFormed.replace {host : JsonHost} {fields : Fields} {key : JsString} {value : Json}
    (h : WellFormed host (.obj fields)) (hkey : key ∈ fields.map Prod.fst) (hvalue : WellFormed host value) :
    WellFormed host (.obj (setProp fields key value)) := by
  obtain _ | _ | _ | _ | _ | ⟨hobject, hfields⟩ := h
  have hset : setProp fields key value = onValues (fun k v => if k = key then value else v) fields := by
    rw [setProp, if_pos hkey, onValues]
    refine List.map_congr_left fun f _ => ?_
    obtain ⟨k, v⟩ := f
    dsimp only
    split
    · rename_i hk
      rw [hk]
    · rfl
  refine .obj ?_ fun f hf => ?_
  · rw [hset, objectOf_onValues, hobject]
  · rw [hset] at hf
    obtain ⟨g, hg, rfl⟩ := List.mem_map.mp hf
    dsimp only
    split
    · exact hvalue
    · exact hfields g hg

/-! ## The order of an object's entries -/

theorem objectOf_concat (fields : Fields) (f : JsString × Json) :
    objectOf (fields ++ [f]) = setProp (objectOf fields) f.1 f.2 := by
  simp [objectOf]

theorem setProp_length (fields : Fields) (key : JsString) (value : Json) :
    (setProp fields key value).length = if key ∈ fields.map Prod.fst then fields.length else fields.length + 1 := by
  have hkeys := (keys_setProp fields key value).length_eq
  rw [List.length_map] at hkeys
  rw [hkeys]
  split <;> simp

theorem objectOf_length_le (fields : Fields) : (objectOf fields).length ≤ fields.length := by
  induction fields using List.reverseRecOn with
  | nil => exact Nat.le_refl _
  | append_singleton fields f ih =>
    rw [objectOf_concat, setProp_length, List.length_append, List.length_singleton]
    split <;> omega

/-- `f` comes after `g` in an object: another key, and above `g`'s if it is an index. -/
def Follows (g f : JsString × Json) : Prop := g.1 ≠ f.1 ∧ ∀ n, arrayIndex f.1 = some n → indexBelow n g = true

/-- A last entry was set last: its key was new, and an index key went behind all of them. -/
theorem objectOf_concat_iff (fields : Fields) (f : JsString × Json) :
    objectOf (fields ++ [f]) = fields ++ [f] ↔ objectOf fields = fields ∧ ∀ g ∈ fields, Follows g f := by
  rw [objectOf_concat]
  constructor
  · intro h
    have hnew : f.1 ∉ (objectOf fields).map Prod.fst := by
      intro hmem
      have hlength := congrArg List.length h
      rw [setProp_length, if_pos hmem, List.length_append, List.length_singleton] at hlength
      have hle := objectOf_length_le fields
      omega
    have hother : ∀ g ∈ fields, g.1 ≠ f.1 := by
      have hnodup : ((fields ++ [f]).map Prod.fst).Nodup := h ▸ setProp_nodup (objectOf_nodup fields) f.1 f.2
      rw [List.map_append, List.nodup_append] at hnodup
      exact fun g hg heq => hnodup.2.2 g.1 (List.mem_map_of_mem hg) f.1 (by simp) heq
    rw [setProp, if_neg hnew] at h
    rcases hindex : arrayIndex f.1 with _ | n
    · rw [hindex] at h
      exact ⟨List.append_cancel_right h, fun g hg => ⟨hother g hg, fun n hn => by simp [hindex] at hn⟩⟩
    · rw [hindex] at h
      dsimp only at h
      -- the entry stands last, so no key of the object is left behind it
      rcases List.eq_nil_or_concat ((objectOf fields).dropWhile (indexBelow n)) with hnil | ⟨rest, last, hback⟩
      · rw [hnil] at h
        have hfront : (objectOf fields).takeWhile (indexBelow n) = fields := List.append_cancel_right h
        have hall := List.dropWhile_eq_nil_iff.mp hnil
        rw [List.takeWhile_eq_self_iff.mpr hall] at hfront
        refine ⟨hfront, fun g hg => ⟨hother g hg, fun m hm => ?_⟩⟩
        obtain rfl : n = m := Option.some.inj (hindex.symm.trans hm)
        exact hall g (by rw [hfront]; exact hg)
      · rw [hback] at h
        have hsplit : ((objectOf fields).takeWhile (indexBelow n) ++ f :: rest) ++ [last] = fields ++ [f] := by
          simpa using h
        have hfields := (List.append_inj' hsplit rfl).1
        exact absurd rfl (hother f (by rw [← hfields]; simp))
  · intro hboth
    obtain ⟨hfields, hfollows⟩ := hboth
    have hnew : f.1 ∉ fields.map Prod.fst := by
      intro hmem
      obtain ⟨g, hg, heq⟩ := List.mem_map.mp hmem
      exact (hfollows g hg).1 heq
    rw [hfields, setProp, if_neg hnew]
    rcases hindex : arrayIndex f.1 with _ | n
    · rfl
    · have hall : ∀ g ∈ fields, indexBelow n g = true := fun g hg => (hfollows g hg).2 n hindex
      dsimp only
      rw [List.takeWhile_eq_self_iff.mpr hall, List.dropWhile_eq_nil_iff.mpr hall]

/-- Which lists are an object's entries. -/
theorem objectOf_eq_iff (fields : Fields) : objectOf fields = fields ↔ fields.Pairwise Follows := by
  induction fields using List.reverseRecOn with
  | nil => exact iff_of_true rfl .nil
  | append_singleton fields f ih =>
    rw [objectOf_concat_iff, ih, List.pairwise_append]
    simp

/-- A name set on an object. -/
theorem WellFormed.set {host : JsonHost} {fields : Fields} {key : JsString} {value : Json}
    (h : WellFormed host (.obj fields)) (hname : arrayIndex key = none) (hvalue : WellFormed host value) :
    WellFormed host (.obj (setProp fields key value)) := by
  by_cases hkey : key ∈ fields.map Prod.fst
  · exact h.replace hkey hvalue
  · obtain _ | _ | _ | _ | _ | ⟨hobject, hfields⟩ := h
    have hset : setProp fields key value = fields ++ [(key, value)] := by rw [setProp, if_neg hkey, hname]
    rw [hset]
    refine .obj ?_ fun f hf => ?_
    · rw [objectOf_concat, hobject, hset]
    · rcases List.mem_append.mp hf with hold | hlast
      · exact hfields f hold
      · rw [List.mem_singleton.mp hlast]
        exact hvalue

/-- Some entries of an object. -/
theorem WellFormed.part {host : JsonHost} {fields part : Fields} (h : WellFormed host (.obj fields))
    (hpart : part.Sublist fields) : WellFormed host (.obj part) := by
  obtain _ | _ | _ | _ | _ | ⟨hobject, hfields⟩ := h
  exact .obj ((objectOf_eq_iff part).mpr (((objectOf_eq_iff fields).mp hobject).sublist hpart))
    fun f hf => hfields f (hpart.subset hf)

end Json

end Ccctl.Core
