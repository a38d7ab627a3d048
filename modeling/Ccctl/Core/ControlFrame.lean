import Ccctl.Core.JsonReads
import Ccctl.Lib.Segments
/-
  Ccctl.Core.ControlFrame — the NDJSON control channel (`packages/core/src/index.ts`:
  `encodeControlFrame`, `decodeControlFrame`, `ControlFrameDecoder`).

  The decoder is `Lib.Segments` at the newline: `push` drains the buffer and decodes each
  complete line that is not blank, `flush` decodes what is left. So the results of a stream are
  those of its lines, however it arrives (`decodeChunks_eq`); a frame's encoding is one line
  that decodes to the frame (`decodeControlFrame_stringify`), and a line decodes by itself.
-/

namespace Ccctl.Core

open Ccctl.Lib

def NEWLINE : UInt16 := 0x0A

inductive ControlFrameParseErrorReason where
  | invalidJson | notAnObject | missingType | unknownType
  deriving DecidableEq, Repr

structure ControlFrameParseError where
  reason : ControlFrameParseErrorReason
  line : JsString
  message : JsString
  deriving DecidableEq, Repr

inductive DecodeResult where
  | ok (frame : Json)
  | failed (error : ControlFrameParseError)

def isControlFrameType (value : Json) : Bool :=
  Json.isText (some value) (js "control_request") || Json.isText (some value) (js "control_response") ||
  Json.isText (some value) (js "control_event")

/-- A text as it is, of anything else its `typeof`. -/
def describeType : Json → JsString
  | .str s => s
  | .bool _ => js "boolean"
  | .num _ => js "number"
  | .null | .arr _ | .obj _ => js "object"

def parseFailure (reason : ControlFrameParseErrorReason) (line message : JsString) : DecodeResult :=
  .failed { reason, line, message }

section
variable (host : JsonHost)

def decodeControlFrame (line : JsString) : DecodeResult :=
  match Json.parse host line with
  | none =>
    parseFailure .invalidJson line (js "ccctl: control frame is not valid JSON: " ++ host.syntaxError line)
  | some value =>
    if !value.isPlainObject then parseFailure .notAnObject line (js "ccctl: control frame is not a JSON object")
    else
      match value.get (js "type") with
      | none => parseFailure .missingType line (js "ccctl: control frame is missing its \x60type\x60 discriminator")
      | some type =>
        if !isControlFrameType type then
          parseFailure .unknownType line (js "ccctl: unknown control frame type: " ++ describeType type)
        else .ok value

/-- A frame the channel can carry. -/
structure ControlFrame where
  value : Json
  wellFormed : value.WellFormed host
  typed : ∃ type, value.get (js "type") = some type ∧ isControlFrameType type = true

def encodeControlFrame (frame : ControlFrame host) : JsString := Json.stringify host frame.value ++ [NEWLINE]

/-! ## The decoder -/

structure ControlFrameDecoder where
  buffer : JsString

def ControlFrameDecoder.new : ControlFrameDecoder := ⟨[]⟩

/-- What one complete line yields: nothing when it is blank. -/
def lineResults (line : JsString) : List DecodeResult := if trim line ≠ [] then [decodeControlFrame host line] else []

/-- The loop cuts the buffer at its first newline until it has none. -/
def ControlFrameDecoder.push (decoder : ControlFrameDecoder) (chunk : JsString) :
    List DecodeResult × ControlFrameDecoder :=
  let drained := Segments.drain NEWLINE (lineResults host) (decoder.buffer ++ chunk)
  (drained.1, ⟨drained.2⟩)

def ControlFrameDecoder.flush (decoder : ControlFrameDecoder) : Option DecodeResult × ControlFrameDecoder :=
  (if trim decoder.buffer = [] then none else some (decodeControlFrame host decoder.buffer), ⟨[]⟩)

/-- A decoder's whole stream: each chunk pushed, then the flush. -/
def ControlFrameDecoder.results (decoder : ControlFrameDecoder) : List JsString → List DecodeResult
  | [] => (decoder.flush host).1.toList
  | chunk :: rest => (decoder.push host chunk).1 ++ (decoder.push host chunk).2.results rest

/-- The whole text at once: split at newlines, blank lines skipped, each line decoded. -/
def decodeText (text : JsString) : List DecodeResult := (text.splitOn NEWLINE).flatMap (lineResults host)

/-! ## A stream and its lines -/

theorem flush_results (decoder : ControlFrameDecoder) :
    (decoder.flush host).1.toList = lineResults host decoder.buffer := by
  unfold ControlFrameDecoder.flush lineResults
  by_cases h : trim decoder.buffer = [] <;> simp [h]

theorem results_eq_feedAll (decoder : ControlFrameDecoder) (chunks : List JsString) :
    decoder.results host chunks =
      (Segments.feedAll NEWLINE (lineResults host) decoder.buffer chunks).1 ++
        lineResults host (Segments.feedAll NEWLINE (lineResults host) decoder.buffer chunks).2 := by
  induction chunks generalizing decoder with
  | nil => simp [ControlFrameDecoder.results, Segments.feedAll, flush_results]
  | cons chunk rest ih =>
    rw [ControlFrameDecoder.results, ih, Segments.feedAll, List.append_assoc]
    rfl

/-- The results of a stream are those of its text, whatever the chunks. -/
theorem results_eq_decodeText (chunks : List JsString) :
    ControlFrameDecoder.new.results host chunks = decodeText host chunks.flatten := by
  rw [results_eq_feedAll]
  exact Segments.feedAll_emits (lineResults host) (by simp [ControlFrameDecoder.new]) chunks

theorem decodeText_lines {lines : List JsString} (h : ∀ line ∈ lines, NEWLINE ∉ line) (hne : lines ≠ []) :
    decodeText host ([NEWLINE].intercalate lines) = lines.flatMap (lineResults host) :=
  Segments.emitted_joined (lineResults host) lines h hne

/-! ## Frames -/

variable {host}

theorem ControlFrame.isPlainObject (frame : ControlFrame host) : frame.value.isPlainObject = true := by
  obtain ⟨type, htype, -⟩ := frame.typed
  cases hv : frame.value with
  | obj fields => rfl
  | _ => simp [hv, Json.get, Json.entries] at htype

theorem decodeControlFrame_stringify (frame : ControlFrame host) :
    decodeControlFrame host (Json.stringify host frame.value) = .ok frame.value := by
  obtain ⟨type, htype, hknown⟩ := frame.typed
  simp [decodeControlFrame, Json.parse_stringify frame.wellFormed, frame.isPlainObject, htype, hknown]

theorem trim_ne_nil {s : JsString} {u : UInt16} (hu : u ∈ s) (h : isSpace u = false) : trim s ≠ [] := by
  intro hnil
  have hdrop : s.dropWhile isSpace = [] := by
    by_contra hne
    have hall := List.rdropWhile_eq_nil_iff.mp hnil
    have hhead := List.head_dropWhile_not isSpace hne
    rw [hall _ (List.head_mem hne)] at hhead
    cases hhead
  rw [List.dropWhile_eq_nil_iff.mp hdrop u hu] at h
  cases h

/-- The text of an object opens with its brace, which is no whitespace. -/
theorem trim_stringify (frame : ControlFrame host) : trim (Json.stringify host frame.value) ≠ [] := by
  obtain ⟨fields, hfields⟩ : ∃ fields, frame.value = .obj fields := by
    have hobject := frame.isPlainObject
    cases hv : frame.value with
    | obj fields => exact ⟨fields, rfl⟩
    | _ => simp [hv, Json.isPlainObject] at hobject
  have hopen : (0x7B : UInt16) ∈ Json.stringify host frame.value := by
    rw [hfields, Json.stringify]
    cases fields <;> simp [Json.render]
  exact trim_ne_nil hopen (by decide)

theorem lineResults_frame (frame : ControlFrame host) :
    lineResults host (Json.stringify host frame.value) = [.ok frame.value] := by
  rw [lineResults, if_pos (trim_stringify frame), decodeControlFrame_stringify]

theorem decodeText_frames (frames : List (ControlFrame host)) :
    decodeText host (frames.flatMap (encodeControlFrame host)) = frames.map fun frame => .ok frame.value := by
  induction frames with
  | nil => rfl
  | cons frame rest ih =>
    have hline : NEWLINE ∉ Json.stringify host frame.value := Json.stringify_oneLine frame.wellFormed
    have hcut : decodeText host (Json.stringify host frame.value ++ NEWLINE :: rest.flatMap (encodeControlFrame host)) =
        _ := Segments.emitted_append_sep (lineResults host) _ _
    rw [Segments.emitted_single (lineResults host) hline, lineResults_frame] at hcut
    rw [List.flatMap_cons, encodeControlFrame, List.append_assoc, List.singleton_append, hcut, List.map_cons]
    exact congrArg _ ih

end

/-! ## Chunks decide nothing -/

/-- The results of a stream are those of its text line by line, frames come back as they were
    encoded, and each line's result is its own. -/
theorem controlFrames_chunked (host : JsonHost) :
    (∀ chunks, ControlFrameDecoder.new.results host chunks = decodeText host chunks.flatten) ∧
    (∀ (frames : List (ControlFrame host)) chunks, chunks.flatten = frames.flatMap (encodeControlFrame host) →
      ControlFrameDecoder.new.results host chunks = frames.map fun frame => .ok frame.value) ∧
    (∀ before line after chunks, (∀ l ∈ before ++ line :: after, NEWLINE ∉ l) →
      chunks.flatten = [NEWLINE].intercalate (before ++ line :: after) →
      ControlFrameDecoder.new.results host chunks =
        before.flatMap (lineResults host) ++ lineResults host line ++ after.flatMap (lineResults host)) := by
  refine ⟨results_eq_decodeText host, fun frames chunks hchunks => ?_, fun before line after chunks hlines hchunks => ?_⟩
  · rw [results_eq_decodeText, hchunks, decodeText_frames]
  · rw [results_eq_decodeText, hchunks, decodeText_lines host hlines (by simp)]
    simp

def interruptFrame : ControlFrame integerHost where
  value := .obj [(js "type", .str (js "control_request")), (js "id", .str (js "1")), (js "subtype", .str (js "interrupt"))]
  wellFormed := .obj rfl fun f hf => by
    simp only [List.mem_cons, List.not_mem_nil, or_false] at hf
    rcases hf with rfl | rfl | rfl <;> exact .str _
  typed := ⟨_, rfl, by decide⟩

/-- A frame cut in two, and a frame after a line that is no JSON. -/
theorem controlFrames_chunked_cut :
    ControlFrameDecoder.new.results integerHost
        [(encodeControlFrame integerHost interruptFrame).take 9, (encodeControlFrame integerHost interruptFrame).drop 9] =
      [.ok interruptFrame.value] ∧
    ControlFrameDecoder.new.results integerHost [[0x7B], NEWLINE :: Json.stringify integerHost interruptFrame.value] =
      lineResults integerHost ([0x7B]) ++ lineResults integerHost (Json.stringify integerHost interruptFrame.value) := by
  have h := controlFrames_chunked integerHost
  refine ⟨h.2.1 [interruptFrame] _ (by simp), ?_⟩
  have hlines := h.2.2 [] ([0x7B]) [Json.stringify integerHost interruptFrame.value]
    [[0x7B], NEWLINE :: Json.stringify integerHost interruptFrame.value] ?_ (by simp [List.intercalate])
  · simpa using hlines
  · simp only [List.nil_append, List.mem_cons, List.not_mem_nil, or_false, forall_eq_or_imp, forall_eq]
    exact ⟨by decide, Json.stringify_oneLine interruptFrame.wellFormed⟩

end Ccctl.Core
