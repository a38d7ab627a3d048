import Ccctl.Core.JsonText
/-
  Ccctl.Core.Loopback — the loopback hosts and the authority of an endpoint
  (`packages/core/src/index.ts`: `isLoopbackHost`, `formatAuthority`).

  The recogniser accepts `localhost`, `::1` and `127.a.b.c` with each octet the decimal text of
  a number up to 255, and nothing else (`loopback_iff`). An octet it accepts is the text
  of the number it reads as (`digitsText_digitsValue`), so no second spelling passes.
-/

namespace Ccctl.Core

structure HostEndpoint where
  host : JsString
  port : Nat

def LOOPBACK_HOSTS : List JsString := [js "localhost", js "127.0.0.1", js "::1"]

/-- `/^(0|[1-9]\d{0,2})$/`. -/
def isOctetNumeral : JsString → Bool
  | [] => false
  | d :: rest => if d = 0x30 then rest = [] else isDigit d && rest.length ≤ 2 && rest.all isDigit

def isIpv4LoopbackHost (host : JsString) : Bool :=
  let octets := host.splitOn 0x2E
  octets.length = 4 && (octets.all fun octet => isOctetNumeral octet && digitsValue octet ≤ 255) &&
    octets.head? = some (js "127")

def isLoopbackHost (host : JsString) : Bool := host ∈ LOOPBACK_HOSTS || isIpv4LoopbackHost host

/-- `127.a.b.c`, each octet as it is written. -/
def dottedLoopback (a b c : Nat) : JsString :=
  js "127" ++ js "." ++ digitsText a ++ js "." ++ digitsText b ++ js "." ++ digitsText c

/-- The loopback hosts. -/
inductive Loopback : JsString → Prop where
  | localhost : Loopback (js "localhost")
  | v6 : Loopback (js "::1")
  | v4 {a b c : Nat} : a ≤ 255 → b ≤ 255 → c ≤ 255 → Loopback (dottedLoopback a b c)

def formatAuthority (host : JsString) (port : Nat) : JsString :=
  let authority := if 0x3A ∈ host then js "[" ++ host ++ js "]" else host
  authority ++ js ":" ++ digitsText port

/-! ## Octets -/

theorem digitsValue_ofDigits (s : JsString) :
    digitsValue s = Nat.ofDigits 10 (s.reverse.map fun u => u.toNat - 0x30) := by
  induction s using List.reverseRecOn with
  | nil => rfl
  | append_singleton s u ih =>
    rw [List.reverse_append, List.reverse_singleton, List.singleton_append, List.map_cons, Nat.ofDigits_cons, ← ih]
    simp only [digitsValue, List.foldl_append, List.foldl_cons, List.foldl_nil]
    omega

theorem ofNat_digit {u : UInt16} (h : isDigit u = true) : UInt16.ofNat (0x30 + (u.toNat - 0x30)) = u := by
  simp only [isDigit, Bool.and_eq_true, decide_eq_true_eq] at h
  have hu : 0x30 + (u.toNat - 0x30) = u.toNat := by omega
  rw [hu, UInt16.ofNat_toNat]

/-- A numeral without a leading zero is the text of its value. -/
theorem digitsText_digitsValue {d : UInt16} {rest : JsString} (hd : isDigit d = true)
    (hrest : ∀ u ∈ rest, isDigit u = true) (hzero : d = 0x30 → rest = []) :
    digitsText (digitsValue (d :: rest)) = d :: rest := by
  by_cases h30 : d = 0x30
  · rw [hzero h30, h30]
    rfl
  · have hdigit : ∀ u ∈ d :: rest, isDigit u = true := List.forall_mem_cons.mpr ⟨hd, hrest⟩
    have hpos : d.toNat - 0x30 ≠ 0 := by
      simp only [isDigit, Bool.and_eq_true, decide_eq_true_eq] at hd
      have hne : d.toNat ≠ 0x30 := fun heq => h30 (UInt16.toNat_inj.mp heq)
      omega
    have hdigits : Nat.digits 10 (digitsValue (d :: rest)) = (d :: rest).reverse.map fun u => u.toNat - 0x30 := by
      rw [digitsValue_ofDigits]
      refine Nat.digits_ofDigits 10 (by decide) _ (fun l hl => ?_) fun hne => ?_
      · obtain ⟨u, hu, rfl⟩ := List.mem_map.mp hl
        have hu := hdigit u (List.mem_reverse.mp hu)
        simp only [isDigit, Bool.and_eq_true, decide_eq_true_eq] at hu
        omega
      · simpa using hpos
    have hvalue : digitsValue (d :: rest) ≠ 0 := by
      intro h0
      rw [h0, Nat.digits_zero] at hdigits
      simp at hdigits
    rw [digitsText, if_neg hvalue, hdigits, ← List.map_reverse, List.reverse_reverse, List.map_map]
    refine (List.map_congr_left fun u hu => ?_).trans (List.map_id _)
    exact ofNat_digit (hdigit u hu)

theorem digitsText_length_le {n k : Nat} (h : n < 10 ^ (k + 1)) : (digitsText n).length ≤ k + 1 := by
  unfold digitsText
  split
  · simp
  · rw [List.length_map, List.length_reverse]
    exact (Nat.digits_length_le_iff (by decide) n).mpr h

theorem octet_iff (octet : JsString) :
    (isOctetNumeral octet && digitsValue octet ≤ 255) = true ↔ ∃ n ≤ 255, octet = digitsText n := by
  constructor
  · intro h
    simp only [Bool.and_eq_true, decide_eq_true_eq] at h
    refine ⟨digitsValue octet, h.2, ?_⟩
    rcases octet with _ | ⟨d, rest⟩
    · cases h.1
    · have hnumeral := h.1
      rw [isOctetNumeral] at hnumeral
      split at hnumeral
      · rename_i h30
        rw [h30, of_decide_eq_true hnumeral]
        rfl
      · rename_i h30
        simp only [Bool.and_eq_true, List.all_eq_true] at hnumeral
        exact (digitsText_digitsValue hnumeral.1.1 hnumeral.2 fun heq => absurd heq h30).symm
  · intro hex
    obtain ⟨n, hn, rfl⟩ := hex
    rw [digitsValue_digitsText, Bool.and_eq_true, decide_eq_true_eq]
    refine ⟨?_, hn⟩
    have hshort : (digitsText n).length ≤ 3 := digitsText_length_le (by omega)
    obtain ⟨d, rest, htext, hd, hrest, hzero⟩ := digitsText_shape n
    rw [htext, List.length_cons] at hshort
    rw [htext, isOctetNumeral]
    split
    · rename_i h30
      rw [hzero h30]
      rfl
    · have hrest : rest.all isDigit = true := List.all_eq_true.mpr hrest
      have hlength : rest.length ≤ 2 := by omega
      simp [hd, hrest, hlength]

/-- No octet holds a dot. -/
theorem dot_not_mem_digitsText (n : Nat) : (0x2E : UInt16) ∉ digitsText n := by
  obtain ⟨d, rest, htext, hd, hrest, -⟩ := digitsText_shape n
  intro hmem
  have hdigit : isDigit 0x2E = true := by
    rw [htext] at hmem
    rcases List.mem_cons.mp hmem with heq | hmem
    · rw [heq]
      exact hd
    · exact hrest _ hmem
  exact absurd hdigit (by decide)

/-! ## The grammar -/

theorem dottedLoopback_join (a b c : Nat) :
    dottedLoopback a b c = [0x2E].intercalate [js "127", digitsText a, digitsText b, digitsText c] := by
  have hdot : js "." = [0x2E] := by decide
  simp [dottedLoopback, hdot, List.intercalate, List.intersperse]

theorem isIpv4LoopbackHost_iff (host : JsString) :
    isIpv4LoopbackHost host = true ↔
      ∃ a b c, a ≤ 255 ∧ b ≤ 255 ∧ c ≤ 255 ∧ host = dottedLoopback a b c := by
  simp only [isIpv4LoopbackHost, Bool.and_eq_true, decide_eq_true_eq]
  constructor
  · intro hex
    obtain ⟨⟨hlength, hall⟩, hfirst⟩ := hex
    have hjoin : [0x2E].intercalate (host.splitOn 0x2E) = host := List.intercalate_splitOn 0x2E
    rcases hoctets : host.splitOn 0x2E with _ | ⟨first, _ | ⟨a, _ | ⟨b, _ | ⟨c, _ | ⟨more, rest⟩⟩⟩⟩⟩ <;>
      rw [hoctets] at hlength hall hfirst hjoin <;> try cases hlength
    rw [List.head?_cons, Option.some.injEq] at hfirst
    simp only [List.all_cons, List.all_nil, Bool.and_true, Bool.and_eq_true] at hall
    simp only [← Bool.and_eq_true, octet_iff] at hall
    obtain ⟨-, ⟨a', ha, rfl⟩, ⟨b', hb, rfl⟩, c', hc, rfl⟩ := hall
    exact ⟨a', b', c', ha, hb, hc, by rw [dottedLoopback_join, ← hjoin, hfirst]⟩
  · intro hex
    obtain ⟨a, b, c, ha, hb, hc, rfl⟩ := hex
    have hsplit : (dottedLoopback a b c).splitOn 0x2E = [js "127", digitsText a, digitsText b, digitsText c] := by
      rw [dottedLoopback_join]
      refine List.splitOn_intercalate 0x2E (fun s hs => ?_) (by simp)
      simp only [List.mem_cons, List.not_mem_nil, or_false] at hs
      rcases hs with rfl | rfl | rfl | rfl
      · decide
      · exact dot_not_mem_digitsText _
      · exact dot_not_mem_digitsText _
      · exact dot_not_mem_digitsText _
    rw [hsplit]
    refine ⟨⟨rfl, ?_⟩, rfl⟩
    have h127 : (isOctetNumeral (js "127") && digitsValue (js "127") ≤ 255) = true := by decide
    have hoctet : ∀ n ≤ 255, (isOctetNumeral (digitsText n) && decide (digitsValue (digitsText n) ≤ 255)) = true :=
      fun n hn => (octet_iff _).mpr ⟨n, hn, rfl⟩
    simp only [List.all_cons, List.all_nil, h127, hoctet a ha, hoctet b hb, hoctet c hc, Bool.and_true]

theorem loopback_iff (host : JsString) : isLoopbackHost host = true ↔ Loopback host := by
  simp only [isLoopbackHost, LOOPBACK_HOSTS, Bool.or_eq_true, decide_eq_true_eq, List.mem_cons, List.not_mem_nil,
    or_false, isIpv4LoopbackHost_iff]
  constructor
  · rintro ((rfl | rfl | rfl) | ⟨a, b, c, ha, hb, hc, rfl⟩)
    · exact .localhost
    · have hfirst : js "127.0.0.1" = dottedLoopback 0 0 1 := by decide
      rw [hfirst]
      exact .v4 (by decide) (by decide) (by decide)
    · exact .v6
    · exact .v4 ha hb hc
  · intro h
    cases h with
    | localhost => exact .inl (.inl rfl)
    | v6 => exact .inl (.inr (.inr rfl))
    | v4 ha hb hc => exact .inr ⟨_, _, _, ha, hb, hc, rfl⟩

end Ccctl.Core
