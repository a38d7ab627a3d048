import Ccctl.Core.JsonReadBack
import Ccctl.Core.Spelt
import Ccctl.Lib.CappedBody
/-
  Ccctl.Server.RequestBody — a request's body, from its chunks to its JSON
  (`packages/server/src/http-response.ts`: `readJsonBody`; `ui-command.ts`: the listeners of
  `handleUiCommand`).

  Both read under a cap and answer once. A stream that errors is a 400 of `readJsonBody`'s and nothing
  of the command's.

  - `body_answered`: in every order of chunks, ends and errors there is at most one answer, and none
    exactly while the chunks fit and nothing ends them; what is kept is within the cap, and a request
    is destroyed only with the 413.
  - `body_read`: a client's JSON is read back as its value, whatever its chunks (a character cut in two
    included) and whatever follows the end; past the cap it is the 413.
-/

namespace Ccctl.Server

open Ccctl.Core Ccctl.Lib

inductive ReadJsonBodyResult where
  | ok (value : Json)
  | error (status : Nat) (message : JsString)

/-- What the end of a command's request finds; a stream that errors finds nothing. -/
inductive CommandBody where
  | tooLarge
  | text (value : Option Json)

def MAX_COMMAND_BODY_BYTES : Nat := 1024 * 1024

def MAX_STOP_BODY_BYTES : Nat := 4 * 1024

variable (host : JsonHost)

/-- `JSON.parse(Buffer.concat(chunks).toString("utf8"))`. -/
def parseBody (bytes : List Nat) : Option Json := Json.parse host (encode (utf8Decode bytes))

def readJsonBody (maxBytes : Nat) : CappedBody.Rules Nat ReadJsonBodyResult where
  cap := maxBytes
  tooLong := .error 413 (js "ccctl: request body exceeds the " ++ digitsText maxBytes ++ js "-byte cap")
  whole bytes :=
    match parseBody host bytes with
    | some value => .ok value
    | none => .error 400 (js "ccctl: request body is not valid JSON")
  broken := some (.error 400 (js "ccctl: request stream error while reading the body"))

def readCommandBody : CappedBody.Rules Nat CommandBody where
  cap := MAX_COMMAND_BODY_BYTES
  tooLong := .tooLarge
  whole bytes := .text (parseBody host bytes)
  broken := none

/-- The answers to a request whose body comes so. -/
def bodyAnswers {α : Type} (rules : CappedBody.Rules Nat α) (events : List (CappedBody.Event Nat)) :
    CappedBody.Reader Nat α :=
  runFrom (CappedBody.step rules) CappedBody.Reader.new events

/-- What a client sends: the bytes of `JSON.stringify(value)`. -/
def jsonBytes (value : Json) : List Nat := formBytes (Json.stringify host value)

variable {host}

theorem parseBody_json {value : Json} (h : value.WellFormed host) : parseBody host (jsonBytes host value) = some value := by
  rw [parseBody, jsonBytes, (Json.spelt_stringify host value).readBack, Json.parse_stringify h]

theorem bodyAnswers_ended {α : Type} (rules : CappedBody.Rules Nat α) (chunks : List (List Nat))
    (later : List (CappedBody.Event Nat)) :
    (bodyAnswers rules (chunks.map .data ++ .ended :: later)).answers =
      [if rules.cap < chunks.flatten.length then rules.tooLong else rules.whole chunks.flatten] := by
  rw [bodyAnswers, CappedBody.answers_eq, CappedBody.verdict_ended [] chunks later (Nat.zero_le _), List.nil_append]
  rfl

/-- How a body comes to its answer. -/
structure Settles {α : Type} (rules : CappedBody.Rules Nat α) (events : List (CappedBody.Event Nat)) : Prop where
  /-- The first chunk past the cap, end or error decides. -/
  answers : (bodyAnswers rules events).answers = (CappedBody.verdict rules [] events).toList
  once : (bodyAnswers rules events).answers.length ≤ 1
  kept : (bodyAnswers rules events).chunks.flatten.length ≤ rules.cap
  destroyed : (bodyAnswers rules events).destroyed = true → (bodyAnswers rules events).answers = [rules.tooLong]

theorem settles {α : Type} (rules : CappedBody.Rules Nat α) (events : List (CappedBody.Event Nat)) :
    Settles rules events := by
  have heq := CappedBody.answers_eq rules events
  have hfits := CappedBody.run_fits rules events
  have hone : (bodyAnswers rules events).answers.length ≤ 1 := by
    rw [bodyAnswers, heq]
    cases CappedBody.verdict rules [] events <;> simp
  refine ⟨heq, hone, hfits.kept, fun hdestroyed => ?_⟩
  obtain ⟨before, after, hsplit⟩ := List.append_of_mem (hfits.destroyed hdestroyed)
  have hsplit : (bodyAnswers rules events).answers = before ++ rules.tooLong :: after := hsplit
  rw [hsplit] at hone ⊢
  simp only [List.length_append, List.length_cons] at hone
  obtain rfl := List.eq_nil_of_length_eq_zero (l := before) (by omega)
  obtain rfl := List.eq_nil_of_length_eq_zero (l := after) (by omega)
  rfl

/-- Under any cut of the bytes. -/
theorem body_read {value : Json} (h : value.WellFormed host) {chunks : List (List Nat)}
    (hchunks : chunks.flatten = jsonBytes host value) (later : List (CappedBody.Event Nat)) (maxBytes : Nat) :
    (bodyAnswers (readJsonBody host maxBytes) (chunks.map .data ++ .ended :: later)).answers =
        [if maxBytes < (jsonBytes host value).length then (readJsonBody host maxBytes).tooLong else .ok value] ∧
      (bodyAnswers (readCommandBody host) (chunks.map .data ++ .ended :: later)).answers =
        [if MAX_COMMAND_BODY_BYTES < (jsonBytes host value).length then .tooLarge else .text (some value)] := by
  have hparse := parseBody_json h
  rw [bodyAnswers_ended, bodyAnswers_ended, hchunks]
  refine ⟨?_, ?_⟩
  · simp only [readJsonBody, hparse]
  · simp only [readCommandBody, hparse]

/-- Two bytes of one character, in two chunks. -/
def cutCharacter : List (List Nat) :=
  let bytes := jsonBytes integerHost (.str (js "é"))
  [bytes.take 2, bytes.drop 2]

theorem body_read_cut :
    (bodyAnswers (readJsonBody integerHost MAX_STOP_BODY_BYTES) (cutCharacter.map .data ++ [.ended, .broken])).answers =
      [.ok (.str (js "é"))] := by
  have hchunks : cutCharacter.flatten = jsonBytes integerHost (.str (js "é")) := by decide +kernel
  have hfits : ¬ MAX_STOP_BODY_BYTES < (jsonBytes integerHost (.str (js "é"))).length := by decide +kernel
  have hread := (body_read (.str (js "é")) hchunks [.broken] MAX_STOP_BODY_BYTES).1
  rwa [if_neg hfits] at hread

end Ccctl.Server
