import Ccctl.Core.Loopback
import Ccctl.Core.UrlEncoding
/-
  Ccctl.Core.Pairing — the URL a device is paired by, and what may be logged of it
  (`packages/core/src/index.ts`: `deviceToken`, `buildPairingUrl`, `loggablePairingUrl`).

  The token is a component of the fragment. What is logged replaces it up to the next `&`: an
  encoded token holds none, so all of it goes, as long as nothing in front of the fragment reads
  as one (`loggable_pairing`).
-/

namespace Ccctl.Core

open Ccctl.Lib

/-- A token is not blank. -/
structure DeviceToken where
  value : JsString
  nonBlank : trim value ≠ []

def blankToken : JsString := js "ccctl: a device token must be a non-empty string"

def deviceToken (value : JsString) : Except JsString DeviceToken :=
  if h : trim value = [] then .error blankToken else .ok ⟨value, h⟩

def PAIRING_TOKEN_PARAM : JsString := js "ccctl_token"

def PAIRING_TOKEN_REDACTED : JsString := js "REDACTED"

def pairingAuthority (host : JsString) : Option Nat → JsString
  | none => if 0x3A ∈ host then js "[" ++ host ++ js "]" else host
  | some port => formatAuthority host port

/-- The URL up to its fragment. -/
def pairingOrigin (host : JsString) (port : Option Nat) (scheme : Option JsString) : JsString :=
  scheme.getD (js "https") ++ js "://" ++ pairingAuthority host port ++ js "/"

/-- `#ccctl_token=`. -/
def pairingMarker : JsString := js "#" ++ PAIRING_TOKEN_PARAM ++ js "="

/-- `encodeURIComponent` may throw. -/
def buildPairingUrl (host : JsString) (port : Option Nat) (token : DeviceToken) (scheme : Option JsString) :
    Option JsString :=
  (encodeURIComponent token.value).map fun component => pairingOrigin host port scheme ++ pairingMarker ++ component

/-- The first match of `(#ccctl_token=)[^&]*` replaced. -/
def loggablePairingUrl : JsString → JsString
  | [] => []
  | u :: rest =>
    if pairingMarker.isPrefixOf (u :: rest) then
      pairingMarker ++ PAIRING_TOKEN_REDACTED ++ ((u :: rest).drop pairingMarker.length).dropWhile (· ≠ 0x26)
    else u :: loggablePairingUrl rest

/-! ## The fragment -/

theorem hash_not_mem_digitsText (n : Nat) : (0x23 : UInt16) ∉ digitsText n := by
  obtain ⟨d, rest, htext, hd, hrest, -⟩ := digitsText_shape n
  rw [htext]
  intro hmem
  rcases List.mem_cons.mp hmem with heq | hmem
  · subst heq
    revert hd
    decide
  · have hdigit := hrest _ hmem
    revert hdigit
    decide

theorem hash_not_mem_origin {host : JsString} {port : Option Nat} {scheme : Option JsString} (hhost : 0x23 ∉ host)
    (hscheme : ∀ s ∈ scheme, 0x23 ∉ s) : (0x23 : UInt16) ∉ pairingOrigin host port scheme := by
  have hauthority : (0x23 : UInt16) ∉ pairingAuthority host port := by
    cases port with
    | none =>
      rw [pairingAuthority]
      split
      · simp only [List.mem_append, not_or]
        exact ⟨⟨by decide, hhost⟩, by decide⟩
      · exact hhost
    | some port =>
      rw [pairingAuthority, formatAuthority]
      simp only [List.mem_append, not_or]
      refine ⟨⟨?_, by decide⟩, hash_not_mem_digitsText port⟩
      split
      · simp only [List.mem_append, not_or]
        exact ⟨⟨by decide, hhost⟩, by decide⟩
      · exact hhost
  have hdefault : (0x23 : UInt16) ∉ scheme.getD (js "https") := by
    cases scheme with
    | none => decide
    | some s => exact hscheme s rfl
  simp only [pairingOrigin, List.mem_append, not_or]
  exact ⟨⟨⟨hdefault, by decide⟩, hauthority⟩, by decide⟩

theorem pairingMarker_eq : pairingMarker = 0x23 :: (PAIRING_TOKEN_PARAM ++ [0x3D]) := rfl

theorem loggable_past {origin : JsString} (h : 0x23 ∉ origin) (fragment : JsString) :
    loggablePairingUrl (origin ++ fragment) = origin ++ loggablePairingUrl fragment := by
  induction origin with
  | nil => rfl
  | cons u rest ih =>
    obtain ⟨hu, hrest⟩ := not_or.mp (mt List.mem_cons.mpr h)
    have hmiss : pairingMarker.isPrefixOf (u :: (rest ++ fragment)) = false := by
      rw [pairingMarker_eq, List.isPrefixOf, beq_eq_false_iff_ne.mpr hu, Bool.false_and]
    rw [List.cons_append, loggablePairingUrl, hmiss, if_neg (by decide), ih hrest, List.cons_append]

theorem loggable_match {url : JsString} (h : pairingMarker.isPrefixOf url = true) :
    loggablePairingUrl url =
      pairingMarker ++ PAIRING_TOKEN_REDACTED ++ (url.drop pairingMarker.length).dropWhile (· ≠ 0x26) := by
  cases url with
  | nil => exact absurd h (by decide)
  | cons u rest => rw [loggablePairingUrl, if_pos h]

theorem loggable_fragment {component : JsString} (h : 0x26 ∉ component) :
    loggablePairingUrl (pairingMarker ++ component) = pairingMarker ++ PAIRING_TOKEN_REDACTED := by
  have hmatch : pairingMarker.isPrefixOf (pairingMarker ++ component) = true := List.isPrefixOf_iff_prefix.mpr ⟨_, rfl⟩
  have hgone : component.dropWhile (· ≠ 0x26) = [] := by
    refine List.dropWhile_eq_nil_iff.mpr fun u hu => decide_eq_true ?_
    intro heq
    subst heq
    exact h hu
  rw [loggable_match hmatch, List.drop_left, hgone, List.append_nil]

/-- A component's units are quiet ones. -/
theorem component_units {value component : JsString} (h : encodeURIComponent value = some component) (u : UInt16)
    (hu : u ∈ component) : Quiet u.toNat := by
  obtain ⟨hwell, rfl⟩ := encodeURIComponent_some h
  obtain ⟨b, hb, rfl⟩ := List.mem_map.mp hu
  have hquiet := quiet_component hwell b hb
  have hascii := hquiet.ascii
  rw [UInt16.toNat_ofNat', Nat.mod_eq_of_lt (by omega)]
  exact hquiet

/-- What is logged of a pairing URL is the same for every token. -/
theorem loggable_pairing {host : JsString} {port : Option Nat} {scheme : Option JsString} (hhost : 0x23 ∉ host)
    (hscheme : ∀ s ∈ scheme, 0x23 ∉ s) {token : DeviceToken} {url : JsString}
    (h : buildPairingUrl host port token scheme = some url) :
    loggablePairingUrl url = pairingOrigin host port scheme ++ (pairingMarker ++ PAIRING_TOKEN_REDACTED) := by
  obtain ⟨component, hcomponent, rfl⟩ := Option.map_eq_some_iff.mp h
  have hplain : 0x26 ∉ component := fun hmem => (component_units hcomponent _ hmem).ampersand rfl
  rw [List.append_assoc, loggable_past (hash_not_mem_origin hhost hscheme), loggable_fragment hplain]

end Ccctl.Core
