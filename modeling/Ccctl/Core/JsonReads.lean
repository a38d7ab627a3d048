import Ccctl.Core.JsonReadBack
/-
  Ccctl.Core.JsonReads — what `JSON.parse` reads from any text.

  The parser's fuel decides nothing: every production takes up some of the text (`consumes`),
  so twice its length is more than it can use (`parse_fuel`). Every object in what is read
  lists each of its keys once (`parse_uniqueKeys`).
-/

namespace Ccctl.Core

namespace Json

/-! ## The fuel decides nothing -/

theorem skipSpace_length_le (text : JsString) : (skipSpace text).length ≤ text.length :=
  (List.dropWhile_suffix _).length_le

theorem token_length {u : UInt16} {text rest : JsString} (h : token u text = some rest) : rest.length < text.length := by
  have hskip := skipSpace_length_le text
  unfold token at h
  split at h
  · rename_i v t ht
    split at h
    · cases h
      rw [ht, List.length_cons] at hskip
      omega
    · cases h
  · cases h

/-- A string ends at its first unit, or goes on after one unit or one escape. -/
theorem stringRest_cases {u : UInt16} {rest : JsString} {r : JsString × JsString} (h : stringRest (u :: rest) = some r) :
    r.2 = rest ∨ ∃ v tail r', tail.length ≤ rest.length ∧ stringRest tail = some r' ∧ r = consUnit v r' := by
  rw [stringRest.eq_def] at h
  dsimp only at h
  split at h
  · cases h
    exact Or.inl rfl
  · split at h
    · split at h
      · cases h
      · obtain ⟨r', hr', rfl⟩ := Option.map_eq_some_iff.mp h
        exact Or.inr ⟨u, rest, r', Nat.le_refl _, hr', rfl⟩
    · split at h
      · cases h
      · rename_i e tail
        split at h
        · obtain ⟨v, -, hv⟩ := Option.bind_eq_some_iff.mp h
          obtain ⟨r', hr', rfl⟩ := Option.map_eq_some_iff.mp hv
          exact Or.inr ⟨v, tail, r', by simp, hr', rfl⟩
        · split at h
          · rename_i a b c d tail
            obtain ⟨v, -, hv⟩ := Option.bind_eq_some_iff.mp h
            obtain ⟨r', hr', rfl⟩ := Option.map_eq_some_iff.mp hv
            exact Or.inr ⟨v, tail, r', by simp only [List.length_cons]; omega, hr', rfl⟩
          · cases h

/-- A string's rest is shorter, whatever escapes it has. -/
theorem stringRest_length (text : JsString) : ∀ r, stringRest text = some r → r.2.length < text.length := by
  induction hn : text.length using Nat.strong_induction_on generalizing text with
  | _ n ih =>
    intro r h
    cases text with
    | nil => cases h
    | cons u rest =>
      rw [List.length_cons] at hn
      rcases stringRest_cases h with h | ⟨v, tail, r', hle, hr', rfl⟩
      · rw [h]
        omega
      · have := ih tail.length (by omega) tail rfl r' hr'
        simp only [consUnit]
        omega

variable (host : JsonHost)

theorem parseScalar_length {text : JsString} {r : Json × JsString} (h : parseScalar host text = some r) :
    r.2.length < text.length := by
  have hdrop : ∀ literal : JsString, literal.isPrefixOf text = true → 0 < literal.length →
      (text.drop literal.length).length < text.length := by
    intro literal hpre hpos
    have hle := (List.isPrefixOf_iff_prefix.mp hpre).length_le
    rw [List.length_drop]
    omega
  unfold parseScalar at h
  split at h
  · cases h
    exact hdrop (js "null") ‹_› (by decide)
  · split at h
    · cases h
      exact hdrop (js "true") ‹_› (by decide)
    · split at h
      · cases h
        exact hdrop (js "false") ‹_› (by decide)
      · split at h
        · cases h
          have hpos := List.length_pos_iff.mpr (isNumeral_ne_nil ‹_›)
          have hsum := congrArg List.length (List.takeWhile_append_dropWhile (p := isNumberUnit) (l := text))
          rw [List.length_append] at hsum
          dsimp only
          omega
        · cases h

/-- Whatever is read takes up some of the text. -/
structure Consumes (fuel : Nat) : Prop where
  value : ∀ {text r}, parseValue host fuel text = some r → r.2.length < text.length
  items : ∀ {text r}, parseItems host fuel text = some r → r.2.length < text.length
  members : ∀ {text r}, parseMembers host fuel text = some r → r.2.length < text.length

theorem member_length {fuel : Nat} (h : Consumes host fuel) {text : JsString} {r : Json × JsString}
    (hr : (token 0x3A text).bind (parseValue host fuel) = some r) : r.2.length < text.length := by
  obtain ⟨rest, hcolon, hv⟩ := Option.bind_eq_some_iff.mp hr
  have h1 := token_length hcolon
  have h2 := h.value hv
  omega

theorem key_length {text : JsString} {r : JsString × JsString} (h : (token 0x22 text).bind stringRest = some r) :
    r.2.length < text.length := by
  obtain ⟨rest, hopen, hs⟩ := Option.bind_eq_some_iff.mp h
  have h1 := token_length hopen
  have h2 := stringRest_length rest r hs
  omega

/-- By induction on the fuel, the readers of one fuel together: each calls the others with less. -/
theorem consumes (fuel : Nat) : Consumes host fuel := by
  induction fuel with
  | zero => exact ⟨fun h => (by cases h), fun h => (by cases h), fun h => (by cases h)⟩
  | succ fuel ih =>
    refine ⟨fun {text r} h => ?_, fun {text r} h => ?_, fun {text r} h => ?_⟩
    · rw [parseValue] at h
      split at h
      · rename_i rest _ _ hopen
        have h1 := token_length hopen
        split at h
        · rename_i hclose
          have h2 := token_length hclose
          cases h
          dsimp only
          omega
        · obtain ⟨r', hr', rfl⟩ := Option.map_eq_some_iff.mp h
          have h2 := ih.items hr'
          dsimp only
          omega
      · rename_i rest _ _ hopen
        have h1 := token_length hopen
        split at h
        · rename_i hclose
          have h2 := token_length hclose
          cases h
          dsimp only
          omega
        · obtain ⟨r', hr', rfl⟩ := Option.map_eq_some_iff.mp h
          have h2 := ih.members hr'
          dsimp only
          omega
      · rename_i rest _ _ hopen
        have h1 := token_length hopen
        obtain ⟨r', hr', rfl⟩ := Option.map_eq_some_iff.mp h
        have h2 := stringRest_length _ _ hr'
        dsimp only
        omega
      · have h1 := parseScalar_length host h
        have h2 := skipSpace_length_le text
        omega
    · rw [parseItems] at h
      split at h
      · cases h
      · rename_i v rest hv
        have h1 : rest.length < text.length := ih.value hv
        split at h
        · rename_i hcomma
          have h2 := token_length hcomma
          obtain ⟨r', hr', rfl⟩ := Option.map_eq_some_iff.mp h
          have h3 := ih.items hr'
          dsimp only
          omega
        · obtain ⟨rest', hclose, rfl⟩ := Option.map_eq_some_iff.mp h
          have h2 := token_length hclose
          dsimp only
          omega
    · rw [parseMembers] at h
      split at h
      · cases h
      · rename_i key rest hkey
        have h0 : rest.length < text.length := key_length hkey
        split at h
        · cases h
        · rename_i v rest' hv
          have h1 : rest'.length < rest.length := member_length host ih hv
          split at h
          · rename_i hcomma
            have h2 := token_length hcomma
            obtain ⟨r', hr', rfl⟩ := Option.map_eq_some_iff.mp h
            have h3 := ih.members hr'
            dsimp only
            omega
          · obtain ⟨rest'', hclose, rfl⟩ := Option.map_eq_some_iff.mp h
            have h2 := token_length hclose
            dsimp only
            omega

/-- Two fuels that both exceed what the text can use agree on it. -/
structure Agrees (fuel fuel' : Nat) : Prop where
  value : ∀ {text}, 2 * text.length < fuel → 2 * text.length < fuel' →
    parseValue host fuel text = parseValue host fuel' text
  items : ∀ {text}, 2 * text.length + 1 < fuel → 2 * text.length + 1 < fuel' →
    parseItems host fuel text = parseItems host fuel' text
  members : ∀ {text}, 2 * text.length + 1 < fuel → 2 * text.length + 1 < fuel' →
    parseMembers host fuel text = parseMembers host fuel' text

/-- Likewise; that the rest is shorter is what lets the induction go on past a value. -/
theorem agrees (fuel fuel' : Nat) : Agrees host fuel fuel' := by
  induction fuel generalizing fuel' with
  | zero => exact ⟨fun h => absurd h (by omega), fun h => absurd h (by omega), fun h => absurd h (by omega)⟩
  | succ fuel ih =>
    cases fuel' with
    | zero => exact ⟨fun _ h => absurd h (by omega), fun _ h => absurd h (by omega), fun _ h => absurd h (by omega)⟩
    | succ fuel' =>
      have ih := ih fuel'
      refine ⟨fun {text} h h' => ?_, fun {text} h h' => ?_, fun {text} h h' => ?_⟩
      · rw [parseValue, parseValue]
        split
        · rename_i hopen
          have h1 := token_length hopen
          rw [ih.items (by omega) (by omega)]
        · rename_i hopen
          have h1 := token_length hopen
          rw [ih.members (by omega) (by omega)]
        · rfl
        · rfl
      · rw [parseItems, parseItems, ih.value (by omega) (by omega)]
        split
        · rfl
        · rename_i v rest hv
          have h1 : rest.length < text.length := (consumes host _).value hv
          split
          · rename_i hcomma
            have h2 := token_length hcomma
            rw [ih.items (by omega) (by omega)]
          · rfl
      · rw [parseMembers, parseMembers]
        split
        · rfl
        · rename_i key rest hkey
          have h0 : rest.length < text.length := key_length hkey
          have hvalue : (token 0x3A rest).bind (parseValue host fuel) = (token 0x3A rest).bind (parseValue host fuel') := by
            cases hcolon : token 0x3A rest with
            | none => rfl
            | some rest' =>
              have h1 := token_length hcolon
              exact ih.value (by omega) (by omega)
          rw [hvalue]
          split
          · rfl
          · rename_i v rest' hv
            have h1 : rest'.length < rest.length := member_length host (consumes host _) hv
            split
            · rename_i hcomma
              have h2 := token_length hcomma
              rw [ih.members (by omega) (by omega)]
            · rfl

/-- A failed `parse` never comes from the fuel: any more of it reads the same. -/
theorem parse_fuel (text : JsString) {fuel : Nat} (h : 2 * text.length < fuel) :
    parseValue host fuel text = parseValue host (2 * text.length + 1) text :=
  (agrees host _ _).value h (Nat.lt_succ_self _)

/-! ## What is read lists each key once -/

/-- Every object in the value lists each of its keys once. -/
inductive UniqueKeys : Json → Prop
  | null : UniqueKeys .null
  | bool (b : Bool) : UniqueKeys (.bool b)
  | num (q : Rat) : UniqueKeys (.num q)
  | str (s : JsString) : UniqueKeys (.str s)
  | arr {items : List Json} : (∀ v ∈ items, UniqueKeys v) → UniqueKeys (.arr items)
  | obj {fields : Fields} : (fields.map Prod.fst).Nodup → (∀ f ∈ fields, UniqueKeys f.2) → UniqueKeys (.obj fields)

theorem UniqueKeys.nodup {fields : Fields} (h : UniqueKeys (.obj fields)) : (fields.map Prod.fst).Nodup := by
  obtain _ | _ | _ | _ | _ | ⟨hnodup, -⟩ := h
  exact hnodup

theorem mem_setProp {fields : Fields} {key : JsString} {value : Json} {f : JsString × Json}
    (h : f ∈ setProp fields key value) : f = (key, value) ∨ f ∈ fields := by
  unfold setProp at h
  split at h
  · obtain ⟨g, hg, rfl⟩ := List.mem_map.mp h
    split
    · exact Or.inl rfl
    · exact Or.inr hg
  · split at h
    · simpa [or_comm] using h
    · rcases List.mem_append.mp h with h | h
      · exact Or.inr ((List.takeWhile_prefix _).subset h)
      · rcases List.mem_cons.mp h with h | h
        · exact Or.inl h
        · exact Or.inr ((List.dropWhile_suffix _).subset h)

/-- Of keys listed twice the later value stays, so what an object has was read. -/
theorem mem_objectOf {fields : Fields} {f : JsString × Json} (h : f ∈ objectOf fields) : f ∈ fields := by
  have hfold : ∀ acc : Fields, f ∈ fields.foldl (fun object f => setProp object f.1 f.2) acc → f ∈ acc ∨ f ∈ fields := by
    clear h
    induction fields with
    | nil => exact fun acc h => Or.inl h
    | cons g rest ih =>
      intro acc h
      rcases ih _ h with h | h
      · rcases mem_setProp h with rfl | h
        · exact Or.inr List.mem_cons_self
        · exact Or.inl h
      · exact Or.inr (List.mem_cons_of_mem _ h)
  exact (hfold [] h).resolve_left (by simp)

theorem parseScalar_uniqueKeys {text : JsString} {r : Json × JsString} (h : parseScalar host text = some r) :
    UniqueKeys r.1 := by
  unfold parseScalar at h
  split at h
  · cases h
    exact .null
  · split at h
    · cases h
      exact .bool true
    · split at h
      · cases h
        exact .bool false
      · split at h
        · cases h
          exact .num _
        · cases h

/-- What the readers return lists each key once. -/
structure ReadsUnique (fuel : Nat) : Prop where
  value : ∀ {text r}, parseValue host fuel text = some r → UniqueKeys r.1
  items : ∀ {text r}, parseItems host fuel text = some r → ∀ v ∈ r.1, UniqueKeys v
  members : ∀ {text r}, parseMembers host fuel text = some r → ∀ f ∈ r.1, UniqueKeys f.2

theorem readsUnique (fuel : Nat) : ReadsUnique host fuel := by
  induction fuel with
  | zero => exact ⟨fun h => (by cases h), fun h => (by cases h), fun h => (by cases h)⟩
  | succ fuel ih =>
    refine ⟨fun {text r} h => ?_, fun {text r} h => ?_, fun {text r} h => ?_⟩
    · rw [parseValue] at h
      split at h
      · split at h
        · cases h
          exact .arr (by simp)
        · obtain ⟨r', hr', rfl⟩ := Option.map_eq_some_iff.mp h
          exact .arr (ih.items hr')
      · split at h
        · cases h
          exact .obj (by simp) (by simp)
        · obtain ⟨r', hr', rfl⟩ := Option.map_eq_some_iff.mp h
          exact .obj (objectOf_nodup _) fun f hf => ih.members hr' f (mem_objectOf hf)
      · obtain ⟨r', -, rfl⟩ := Option.map_eq_some_iff.mp h
        exact .str _
      · exact parseScalar_uniqueKeys host h
    · rw [parseItems] at h
      split at h
      · cases h
      · rename_i v rest hv
        have hvalue : UniqueKeys v := ih.value hv
        split at h
        · obtain ⟨r', hr', rfl⟩ := Option.map_eq_some_iff.mp h
          exact List.forall_mem_cons.mpr ⟨hvalue, ih.items hr'⟩
        · obtain ⟨rest', -, rfl⟩ := Option.map_eq_some_iff.mp h
          simpa using hvalue
    · rw [parseMembers] at h
      split at h
      · cases h
      · split at h
        · cases h
        · rename_i v rest hv
          obtain ⟨rest', -, hparse⟩ := Option.bind_eq_some_iff.mp hv
          have hvalue : UniqueKeys v := ih.value hparse
          split at h
          · obtain ⟨r', hr', rfl⟩ := Option.map_eq_some_iff.mp h
            exact List.forall_mem_cons.mpr ⟨hvalue, ih.members hr'⟩
          · obtain ⟨rest', -, rfl⟩ := Option.map_eq_some_iff.mp h
            simpa using hvalue

/-- An object read from a text lists each key once, at every depth. -/
theorem parse_uniqueKeys {text : JsString} {v : Json} (h : parse host text = some v) : UniqueKeys v := by
  unfold parse at h
  split at h
  · rename_i w rest hread
    split at h
    · cases h
      exact (readsUnique host _).value hread
    · cases h
  · cases h

end Json

end Ccctl.Core
