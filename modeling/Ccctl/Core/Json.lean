import Ccctl.Core.Text
import Mathlib.Data.Rat.Defs
/-
  Ccctl.Core.Json — a value read back from `JSON.parse`, and the narrowing every guard of
  `packages/core/src/index.ts` starts with (`typeof value !== "object" || value === null ||
  Array.isArray(value)`, then destructuring).

  An object is its own properties in order. `get` of a key it does not carry is `none`, the
  source's `undefined`; a value that is not an object carries no key. A number is its exact
  value: all the guards ask of one is whether it is a safe integer.
-/

namespace Ccctl.Core

inductive Json where
  | null
  | bool (b : Bool)
  | num (q : Rat)
  | str (s : JsString)
  | arr (items : List Json)
  | obj (fields : List (JsString × Json))

namespace Json

/-- `Object.entries(value)` of a plain object. -/
def entries : Json → List (JsString × Json)
  | .obj fields => fields
  | _ => []

/-- The negation of `typeof value !== "object" || value === null || Array.isArray(value)`. -/
def isPlainObject : Json → Bool
  | .obj _ => true
  | _ => false

def get (value : Json) (key : JsString) : Option Json := (value.entries.find? fun f => f.1 = key).map Prod.snd

theorem get_cons (key : JsString) (value : Json) (rest : List (JsString × Json)) (wanted : JsString) :
    (obj ((key, value) :: rest)).get wanted = if key = wanted then some value else (obj rest).get wanted := by
  unfold get entries
  by_cases h : key = wanted <;> simp [h]

@[simp] theorem get_nil (wanted : JsString) : (obj []).get wanted = none := rfl

/-- `"key" in value`. -/
def hasKey (value : Json) (key : JsString) : Bool := (value.get key).isSome

/-- `value === "text"`. -/
def isText (value : Option Json) (text : JsString) : Bool :=
  match value with
  | some (.str s) => s = text
  | _ => false

/-- `typeof value === "string" ? value : undefined`. -/
def asString : Option Json → Option JsString
  | some (.str s) => some s
  | _ => none

/-- The items, when `Array.isArray(value)`. -/
def asArray : Option Json → Option (List Json)
  | some (.arr items) => some items
  | _ => none

end Json

end Ccctl.Core
