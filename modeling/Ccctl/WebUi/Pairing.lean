import Ccctl.Core.Json
import Ccctl.Core.Pairing
import Ccctl.Lib.OrdMap
/-
  Ccctl.WebUi.Pairing — the browser's side of the pairing URL
  (`packages/web-ui/src/pairing.js`: `tokenFromHash`, `storedToken`, `applyPairingToken`).

  The fragment of a URL starts at its first `#`. Where neither the host nor the scheme holds one,
  the fragment is the one the builder wrote and its one parameter reads back as the token
  (`pairing_url`). A `#` in the scheme moves the fragment, and can make the log keep the token
  (`pairing_scheme_misread`).
-/

namespace Ccctl.WebUi

open Ccctl.Core Ccctl.Lib

def PAIRING_TOKEN_STORAGE_KEY : JsString := js "ccctl.deviceToken"

/-- `location.hash` of a page at this URL, whose fragment holds nothing that a URL escapes. -/
def urlHash (url : JsString) : JsString :=
  match url.dropWhile (· ≠ 0x23) with
  | [_] => []
  | fragment => fragment

def tokenFromHash : Json → Option JsString
  | .str hash =>
    let raw := if hash.head? = some 0x23 then hash.tail else hash
    match getParam (searchParams raw) PAIRING_TOKEN_PARAM with
    | some token => if trim token ≠ [] then some token else none
    | none => none
  | _ => none

/-- The page's `location` and `localStorage`. -/
structure PairingPage where
  hash : JsString
  pathname : JsString
  search : JsString
  storage : OrdMap JsString JsString

def storedToken (page : PairingPage) : Option JsString :=
  match page.storage.get PAIRING_TOKEN_STORAGE_KEY with
  | some token => if trim token ≠ [] then some token else none
  | none => none

/-- `replaceState` leaves the path and the query. -/
def applyPairingToken (page : PairingPage) : Option JsString × PairingPage :=
  match tokenFromHash (.str page.hash) with
  | none => (storedToken page, page)
  | some fresh => (some fresh, { page with hash := [], storage := page.storage.set PAIRING_TOKEN_STORAGE_KEY fresh })

theorem urlHash_origin {origin fragment : JsString} (h : 0x23 ∉ origin) (hne : fragment ≠ []) :
    urlHash (origin ++ 0x23 :: fragment) = 0x23 :: fragment := by
  have hskip : ∀ u ∈ origin, decide (u ≠ 0x23) = true := by
    intro u hu
    refine decide_eq_true ?_
    intro heq
    subst heq
    exact h hu
  rw [urlHash, List.dropWhile_append_of_pos hskip, List.dropWhile_cons_of_neg (by decide)]
  cases fragment with
  | nil => exact absurd rfl hne
  | cons u rest => rfl

theorem tokenFromHash_component {token : DeviceToken} {component : JsString}
    (h : encodeURIComponent token.value = some component) :
    tokenFromHash (.str (pairingMarker ++ component)) = some token.value := by
  have hname : ∀ p ∈ codePoints PAIRING_TOKEN_PARAM, isUnreserved p = true := by decide
  have hraw : pairingMarker ++ component = 0x23 :: (PAIRING_TOKEN_PARAM ++ 0x3D :: component) := by
    rw [pairingMarker_eq, List.cons_append, List.append_assoc, List.singleton_append]
  have hget : getParam [(PAIRING_TOKEN_PARAM, token.value)] PAIRING_TOKEN_PARAM = some token.value := by
    simp [getParam]
  rw [hraw, tokenFromHash]
  simp only [List.head?_cons, if_true, List.tail_cons]
  rw [searchParams_component hname h, hget]
  exact if_pos token.nonBlank

theorem build_hash {host : JsString} {port : Option Nat} {scheme : Option JsString} (hhost : 0x23 ∉ host)
    (hscheme : ∀ s ∈ scheme, 0x23 ∉ s) {token : DeviceToken} (h : isWellFormed token.value = true) :
    ∃ url, buildPairingUrl host port token scheme = some url ∧
      tokenFromHash (.str (urlHash url)) = some token.value := by
  have hcomponent : encodeURIComponent token.value =
      some (((codePoints token.value).flatMap componentOf).map UInt16.ofNat) := if_pos h
  refine ⟨_, by rw [buildPairingUrl, hcomponent, Option.map_some], ?_⟩
  rw [List.append_assoc, pairingMarker_eq, List.cons_append,
    urlHash_origin (hash_not_mem_origin hhost hscheme) (by simp), ← List.cons_append, ← pairingMarker_eq,
    tokenFromHash_component hcomponent]

/-- A page opened at the URL keeps the token and drops the fragment. -/
theorem apply_pairing {host : JsString} {port : Option Nat} {scheme : Option JsString} (hhost : 0x23 ∉ host)
    (hscheme : ∀ s ∈ scheme, 0x23 ∉ s) {token : DeviceToken} (h : isWellFormed token.value = true) {url : JsString}
    (hurl : buildPairingUrl host port token scheme = some url) {page : PairingPage} (hpage : page.hash = urlHash url) :
    (applyPairingToken page).1 = some token.value ∧ (applyPairingToken page).2.hash = [] ∧
      storedToken (applyPairingToken page).2 = some token.value := by
  obtain ⟨built, hbuilt, hread⟩ := build_hash hhost hscheme h
  obtain rfl : built = url := Option.some.inj (hbuilt.symm.trans hurl)
  rw [applyPairingToken, hpage, hread]
  refine ⟨rfl, rfl, ?_⟩
  rw [storedToken, OrdMap.get_set_self]
  exact if_pos token.nonBlank

/-- The token survives the URL, and what is logged of the URL does not depend on it. -/
theorem pairing_url (host : JsString) (port : Option Nat) (scheme : Option JsString) (hhost : 0x23 ∉ host)
    (hscheme : ∀ s ∈ scheme, 0x23 ∉ s) :
    (∀ token : DeviceToken, isWellFormed token.value = true →
      ∃ url, buildPairingUrl host port token scheme = some url ∧
        tokenFromHash (.str (urlHash url)) = some token.value) ∧
    ∃ logged, ∀ token : DeviceToken, isWellFormed token.value = true →
      (buildPairingUrl host port token scheme).map loggablePairingUrl = some logged := by
  refine ⟨fun token => build_hash hhost hscheme,
    pairingOrigin host port scheme ++ (pairingMarker ++ PAIRING_TOKEN_REDACTED), fun token hwell => ?_⟩
  obtain ⟨url, hurl, -⟩ := build_hash hhost hscheme hwell
  rw [hurl, Option.map_some, loggable_pairing hhost hscheme hurl]

/-- A token of separators, escapes and a surrogate pair, over an IPv6 host. -/
theorem pairing_url_separators :
    ∃ url, buildPairingUrl (js "fd7a::1") (some 8443) ⟨js "a+b%20&c=#d é𝄞", by decide⟩ none = some url ∧
      tokenFromHash (.str (urlHash url)) = some (js "a+b%20&c=#d é𝄞") :=
  (pairing_url (js "fd7a::1") (some 8443) none (by decide) (by simp)).1 ⟨js "a+b%20&c=#d é𝄞", by decide⟩ (by decide)

def plainToken : DeviceToken := ⟨js "t", by decide⟩

def otherToken : DeviceToken := ⟨js "u", by decide⟩

/-- A scheme that holds a `#` loses the token, and one that holds the whole marker logs it. -/
theorem pairing_scheme_misread :
    (¬ ∀ (host : JsString) (port : Option Nat) (scheme : Option JsString) (token : DeviceToken), 0x23 ∉ host →
      isWellFormed token.value = true → ∃ url, buildPairingUrl host port token scheme = some url ∧
        tokenFromHash (.str (urlHash url)) = some token.value) ∧
    ¬ ∀ (host : JsString) (port : Option Nat) (scheme : Option JsString), 0x23 ∉ host →
      ∃ logged, ∀ token : DeviceToken, isWellFormed token.value = true →
        (buildPairingUrl host port token scheme).map loggablePairingUrl = some logged := by
  constructor
  · intro h
    obtain ⟨url, hurl, hread⟩ := h (js "h") none (some (js "x#y")) plainToken (by decide) (by decide)
    have hbuilt : buildPairingUrl (js "h") none plainToken (some (js "x#y")) = some (js "x#y://h/#ccctl_token=t") := by
      decide
    obtain rfl := Option.some.inj (hurl.symm.trans hbuilt)
    have hlost : tokenFromHash (.str (urlHash (js "x#y://h/#ccctl_token=t"))) = none := by decide
    rw [hlost] at hread
    cases hread
  · intro h
    obtain ⟨logged, hlogged⟩ := h (js "h") none (some (js "#ccctl_token=&")) (by decide)
    have hsame := (hlogged plainToken (by decide)).trans (hlogged otherToken (by decide)).symm
    exact absurd hsame (by decide)

end Ccctl.WebUi
