import Ccctl.Core.Displayable
import Ccctl.Core.JsonReadBack
import Ccctl.Server.Captures
import Ccctl.Server.HookInstallSweep
import Ccctl.Server.HookRunner
import Mathlib.Algebra.Order.BigOperators.Group.List
/-
  Ccctl.Server.HookCapture — a question, from the tool call to the block that shows it
  (`packages/server/src/hook-settings-installer.ts`: `buildAskUserQuestionHookSettings`,
  `installAskUserQuestionHookSettings`; `packages/server/src/ask-user-question-hook.ts`;
  `packages/server/src/worker-channel.ts`: `consumeHookHandoffQuestions`).

  A launch writes a settings file. The worker reads a command line off it and has a shell start it
  before a tool call, with the call on its standard input (`HookRunner`); the script writes the
  questions where the server looks for them when the block opens. Paths are quoted for the shell as
  JSON strings, in which it expands what a dollar or a backquote begins.

  - `hook_captures`: of a question's call, where neither path has one of these, the questions are
    written at the handoff path exactly when JSON spells both as they are and `node` gives the script
    its own path as its address.
  - `capture_shown`: whatever the server has been through, a status report finds nothing at its
    session's handoff path, or what that session's own hook wrote there last, read back whole, if the
    disk yields it.

  Outside: a write of the script's that fails; it leaves no event.
-/

namespace Ccctl.Server.HookCapture

open Ccctl.Core Ccctl.Lib Ccctl.Lib.ShellWords ServerState

/-! ## The settings of a launch -/

def hookCommand (hookScriptPath handoffPath : JsString) : JsString :=
  js "node " ++ Json.quote hookScriptPath ++ js " " ++ Json.quote handoffPath

def buildAskUserQuestionHookSettings (hookScriptPath handoffPath : JsString) : Json :=
  .obj [(js "hooks", .obj [(js "PreToolUse", .arr [.obj [
    (js "matcher", .str (js "AskUserQuestion")),
    (js "hooks", .arr [.obj [
      (js "type", .str (js "command")),
      (js "command", .str (hookCommand hookScriptPath handoffPath))]])]])])]

variable (host : JsonHost)

/-- The two paths, and what is written at the first. -/
structure InstalledFiles where
  settingsPath : Path
  handoffPath : Path
  settings : List Nat

def installAskUserQuestionHookSettings (hookScriptPath token : JsString) (stateDir : Path) (ownPid : ProcessId) :
    InstalledFiles :=
  let handoffPath := join stateDir (hookInstallFileName ownPid token .handoff)
  { settingsPath := join stateDir (hookInstallFileName ownPid token .settings)
    handoffPath
    settings := formBytes (Json.stringify host (buildAskUserQuestionHookSettings hookScriptPath handoffPath)) }

/-! ## The script -/

def ASKUSERQUESTION_TOOL_NAME : JsString := js "AskUserQuestion"

def extractAskUserQuestionPayload (stdinValue : Json) : Option Json :=
  if stdinValue.isPlainObject then
    if Json.isText (stdinValue.get (js "tool_name")) ASKUSERQUESTION_TOOL_NAME then
      match stdinValue.get (js "tool_input") with
      | some toolInput => if toolInput.isPlainObject then toolInput.get (js "questions") else none
      | none => none
    else none
  else none

/-- What `writeHandoffFile` writes. -/
def handoffBytes (questions : Json) : List Nat := formBytes (Json.stringify host (.obj [(js "questions", questions)]))

/-- What is written, and where; the decision is `{}` whatever it is. -/
def runHook (stdinText : JsString) (handoffPath : Path) : Option (Path × List Nat) :=
  (Json.parse host stdinText).bind fun parsed =>
    (extractAskUserQuestionPayload parsed).map fun questions => (handoffPath, handoffBytes host questions)

def isEntryModule (importMetaUrl argv1 : JsString) : Bool := importMetaUrl = js "file://" ++ argv1

/-- The script, started; `args` come after its own path. -/
def hookProcess (importMetaUrl argv1 : JsString) (args : List JsString) (stdinText : JsString) : Option (Path × List Nat) :=
  match args with
  | handoffPath :: _ => if isEntryModule importMetaUrl argv1 then runHook host stdinText handoffPath else none
  | [] => none

/-! ## The worker -/

variable (runner : HookRunner)

/-- The shell starts `node` on the script; any other program is not this one. -/
def runCommand (hookScriptPath : Path) (stdinText command : JsString) : Option (Path × List Nat) :=
  match runner.words command with
  | some (program :: script :: args) =>
    if program = js "node" ∧ script = hookScriptPath then
      hookProcess host (runner.importMetaUrl script) (runner.argv1 script) args stdinText
    else none
  | _ => none

/-- What is written before a call of the tool, off the settings file. -/
def beforeToolCall (hookScriptPath : Path) (settings : List Nat) (toolName stdinText : JsString) : List (Path × List Nat) :=
  (runner.commands settings toolName).filterMap (runCommand host runner hookScriptPath stdinText)

/-! ## The server -/

/-- What `statSync`, `readFileSync` and `JSON.parse` find there; a byte-order mark is dropped. -/
def handoffEntry (bytes : List Nat) : FileEntry :=
  let raw := encode (utf8Decode bytes)
  .regular bytes.length (Json.parse host (if raw.head? = some 0xFEFF then raw.tail else raw))

/-! ## What the shell reads of a quoted path -/

instance : DecidablePred Printable := fun p => inferInstanceAs (Decidable (isScalar p = true ∧ 0x20 ≤ p))

/-- Between quotes, an expansion can begin at the point. -/
def expandsPoint (p : Nat) : Bool := p = 0x24 || p = 0x60

/-- What the shell makes of the point. -/
def heardPoint (p : Nat) : JsString := if Printable p then encodePoint p else Json.quotePoint p

/-- No expansion can begin in the path. -/
def Unexpanded (path : JsString) : Prop := ∀ p ∈ codePoints path, expandsPoint p = false

instance (path : JsString) : Decidable (Unexpanded path) :=
  inferInstanceAs (Decidable (∀ p ∈ codePoints path, expandsPoint p = false))

def heard (path : JsString) : JsString := (codePoints path).flatMap heardPoint

theorem isEscapable_hexDigit : ∀ n < 16, isEscapable (Json.hexDigit n) = false := by decide

theorem isEscapable_encodePoint {p : Nat} (hp : p < 0x110000) (hspace : 0x20 ≤ p) (hquote : p ≠ 0x22) (hslash : p ≠ 0x5C)
    (hexp : expandsPoint p = false) : ∀ u ∈ encodePoint p, isEscapable u = false := by
  simp only [expandsPoint, Bool.or_eq_false_iff, decide_eq_false_iff_not] at hexp
  have happart : ∀ u : UInt16, u.toNat ≠ 0x24 → u.toNat ≠ 0x60 → u.toNat ≠ 0x22 → u.toNat ≠ 0x5C →
      isEscapable u = false := by
    intro u h24 h60 h22 h5C
    simp only [isEscapable, expands, Bool.or_eq_false_iff, beq_eq_false_iff_ne, ne_eq, ← UInt16.toNat_inj]
    exact ⟨⟨⟨h24, h60⟩, h22⟩, h5C⟩
  intro u hu
  by_cases hbmp : p < 0x10000
  · obtain ⟨v, hv, hvp⟩ := encodePoint_bmp hbmp
    rw [hv, List.mem_singleton] at hu
    subst hu hvp
    exact happart u hexp.1 hexp.2 hquote hslash
  · obtain ⟨hi, lo, hhalves, hhi, hlo, -⟩ := encodePoint_halves (Nat.le_of_not_lt hbmp) hp
    simp only [isHigh, isLow, Bool.and_eq_true, decide_eq_true_eq] at hhi hlo
    rw [hhalves] at hu
    rcases List.mem_cons.mp hu with rfl | hu
    · exact happart u (by omega) (by omega) (by omega) (by omega)
    · rw [List.mem_singleton.mp hu]
      exact happart lo (by omega) (by omega) (by omega) (by omega)

/-- An escape of JSON's that the shell does not know is read as it stands. -/
theorem read_shown {e : UInt16} {rest : JsString} (he : isEscapable e = false) (hfeed : e ≠ 0x0A)
    (hrest : ∀ u ∈ rest, isEscapable u = false) (words : List Word) (word : Word) :
    ShellWords.read ⟨words, .quoted word⟩ (0x5C :: e :: rest) = some ⟨words, .quoted (word ++ 0x5C :: e :: rest)⟩ := by
  have hcons : (0x5C :: e :: rest : JsString) = [0x5C, e] ++ rest := rfl
  rw [hcons, read_append, read_backslash he hfeed, Option.bind_some, read_quoted hrest, List.append_assoc]

/-- A point that JSON escapes, the quote and the backslash apart: its escape is read as it stands. -/
theorem read_shownPoint {p : Nat} {e : UInt16} {rest : JsString} (hpoint : Json.quotePoint p = 0x5C :: e :: rest)
    (he : isEscapable e = false) (hfeed : e ≠ 0x0A) (hrest : ∀ u ∈ rest, isEscapable u = false)
    (hnot : ¬ Printable p) (words : List Word) (word : Word) :
    ShellWords.read ⟨words, .quoted word⟩ (Json.quotePoint p) = some ⟨words, .quoted (word ++ heardPoint p)⟩ := by
  rw [heardPoint, if_neg hnot, hpoint]
  exact read_shown he hfeed hrest words word

/-- A point that JSON leaves as it is. -/
theorem read_barePoint {p : Nat} (hp : p < 0x110000) (hpoint : Json.quotePoint p = encodePoint p) (hprintable : Printable p)
    (hquote : p ≠ 0x22) (hslash : p ≠ 0x5C) (hexp : expandsPoint p = false) (words : List Word) (word : Word) :
    ShellWords.read ⟨words, .quoted word⟩ (Json.quotePoint p) = some ⟨words, .quoted (word ++ heardPoint p)⟩ := by
  rw [hpoint, heardPoint, if_pos hprintable]
  exact read_quoted (isEscapable_encodePoint hp hprintable.2 hquote hslash hexp)

theorem read_quotePoint {p : Nat} (hp : p < 0x110000) (hexp : expandsPoint p = false) (words : List Word) (word : Word) :
    ShellWords.read ⟨words, .quoted word⟩ (Json.quotePoint p) = some ⟨words, .quoted (word ++ heardPoint p)⟩ := by
  by_cases hquote : p = 0x22
  · subst hquote
    exact read_escape (by decide)
  by_cases hslash : p = 0x5C
  · subst hslash
    exact read_escape (by decide)
  cases hshort : Json.SHORT_ESCAPES.lookup p with
  | some e =>
    obtain ⟨before, after, hsplit, -⟩ := List.lookup_eq_some_iff.mp hshort
    have hmem : (p, e) ∈ Json.SHORT_ESCAPES := by simp [hsplit]
    have hkinds : ∀ f ∈ Json.SHORT_ESCAPES, f.1 = 0x22 ∨ f.1 = 0x5C ∨
        (isEscapable f.2 = false ∧ f.2 ≠ 0x0A ∧ ¬ Printable f.1) := by decide
    obtain h | h | ⟨he, hfeed, hnot⟩ := hkinds _ hmem
    · exact absurd h hquote
    · exact absurd h hslash
    · exact read_shownPoint (by rw [Json.quotePoint, hshort]) he hfeed (by simp) hnot words word
  | none =>
    by_cases hescaped : p < 0x20 ∨ (0xD800 ≤ p ∧ p ≤ 0xDFFF)
    · have hhex := isEscapable_hexDigit
      refine read_shownPoint (by rw [Json.quotePoint, hshort]; exact if_pos hescaped) (by decide) (by decide) ?_ ?_ words word
      · simp only [List.mem_cons, List.not_mem_nil, or_false, forall_eq_or_imp, forall_eq]
        exact ⟨hhex _ (by omega), hhex _ (by omega), hhex _ (by omega), hhex _ (by omega)⟩
      · intro hboth
        obtain ⟨hscalar, hspace⟩ := hboth
        simp only [isScalar, isSurrogate, Bool.and_eq_true, Bool.not_eq_true', Bool.and_eq_false_iff,
          decide_eq_false_iff_not] at hscalar
        omega
    · have hplain : Json.quotePoint p = encodePoint p := by
        rw [Json.quotePoint, hshort]
        exact if_neg hescaped
      have hprintable : Printable p := by
        refine ⟨?_, by omega⟩
        simp only [isScalar, isSurrogate, Bool.and_eq_true, decide_eq_true_eq, Bool.not_eq_true', Bool.and_eq_false_iff,
          decide_eq_false_iff_not]
        omega
      exact read_barePoint hp hplain hprintable hquote hslash hexp words word

theorem read_quote {path : JsString} (h : Unexpanded path) (words : List Word) :
    ShellWords.read ⟨words, .between⟩ (Json.quote path) = some ⟨words, .bare (heard path)⟩ := by
  have hpieces := read_pieces (fun p hp => read_quotePoint (codePoints_lt path p hp) (h p hp) words) []
  have hopen : Json.quote path = [0x22] ++ ((codePoints path).flatMap Json.quotePoint ++ [0x22]) := rfl
  rw [hopen, read_append, show ShellWords.read ⟨words, .between⟩ [0x22] = some ⟨words, .quoted []⟩ from rfl,
    Option.bind_some, read_append, hpieces]
  rfl

theorem words_command {scriptPath handoffPath : JsString} (hscript : Unexpanded scriptPath)
    (hhandoff : Unexpanded handoffPath) :
    shellWords (hookCommand scriptPath handoffPath) = some [js "node", heard scriptPath, heard handoffPath] := by
  have hnode : ShellWords.read started (js "node ") = some ⟨[js "node"], .between⟩ := by decide
  have hblank : ∀ words word, ShellWords.read ⟨words, .bare word⟩ (js " ") = some ⟨words ++ [word], .between⟩ :=
    fun _ _ => rfl
  simp only [shellWords, hookCommand, read_append, hnode, Option.bind_some, read_quote hscript, hblank, read_quote hhandoff]
  rfl

theorem spelt_command (scriptPath handoffPath : JsString) : Spelt (hookCommand scriptPath handoffPath) :=
  (((spelt_plain (by decide)).append (Json.spelt_quote _)).append (spelt_plain (by decide))).append (Json.spelt_quote _)

/-- Of a point that is not read back, more units are read than it has. -/
theorem heardPoint_longer {p : Nat} (hp : p < 0x110000) (hnot : ¬ Printable p) :
    (encodePoint p).length < (heardPoint p).length := by
  have hescaped : p < 0x20 ∨ (0xD800 ≤ p ∧ p ≤ 0xDFFF) := by
    simp only [Printable, isScalar, isSurrogate, Bool.and_eq_true, decide_eq_true_eq, Bool.not_eq_true',
      Bool.and_eq_false_iff, decide_eq_false_iff_not] at hnot
    omega
  have hone : (encodePoint p).length = 1 := by
    rw [encodePoint, if_pos (by omega)]
    rfl
  rw [hone, heardPoint, if_neg hnot, Json.quotePoint]
  split
  · exact Nat.one_lt_two
  · rw [if_pos hescaped]
    show 1 < 6
    decide

theorem heard_eq_iff (path : JsString) : heard path = path ↔ Spelt path := by
  have hwhole : (codePoints path).flatMap encodePoint = path := encode_codePoints path
  refine ⟨fun h => ⟨codePoints path, ?_, hwhole.symm⟩, fun h => ?_⟩
  · by_contra hsome
    simp only [not_forall] at hsome
    obtain ⟨p, hp, hnot⟩ := hsome
    have hle : ∀ q ∈ codePoints path, (encodePoint q).length ≤ (heardPoint q).length := by
      intro q hq
      by_cases hprintable : Printable q
      · rw [heardPoint, if_pos hprintable]
      · exact (heardPoint_longer (codePoints_lt path q hq) hprintable).le
    have hlonger := List.sum_lt_sum _ _ hle ⟨p, hp, heardPoint_longer (codePoints_lt path p hp) hnot⟩
    rw [← List.length_flatMap, ← List.length_flatMap, hwhole] at hlonger
    exact absurd (congrArg List.length h) hlonger.ne'
  · have hsame : heard path = (codePoints path).flatMap encodePoint := List.flatMap_congr fun p hp =>
      if_pos (h.printable p hp)
    exact hsame.trans hwhole

/-! ## What a tool call leaves -/

variable {host}

theorem settings_wellFormed (scriptPath handoffPath : JsString) :
    (buildAskUserQuestionHookSettings scriptPath handoffPath).WellFormed host := by
  have hhook : Json.WellFormed host (.obj [(js "type", .str (js "command")),
      (js "command", .str (hookCommand scriptPath handoffPath))]) := by
    refine .names [js "type", js "command"] rfl (by decide) (by decide) fun f hf => ?_
    rcases List.mem_pair.mp hf with rfl | rfl
    · exact .str _
    · exact .str _
  refine .names [js "hooks"] rfl (by decide) (by decide) fun f hf => ?_
  rw [List.mem_singleton.mp hf]
  refine .names [js "PreToolUse"] rfl (by decide) (by decide) fun f hf => ?_
  rw [List.mem_singleton.mp hf]
  refine .arr fun entry hentry => ?_
  rw [List.mem_singleton.mp hentry]
  refine .names [js "matcher", js "hooks"] rfl (by decide) (by decide) fun f hf => ?_
  rcases List.mem_pair.mp hf with rfl | rfl
  · exact .str _
  · refine .arr fun hook hmem => ?_
    rw [List.mem_singleton.mp hmem]
    exact hhook

/-- The questions of a call, off what the script is given. -/
def askedQuestions (host : JsonHost) (stdinText : JsString) : Option Json :=
  (Json.parse host stdinText).bind extractAskUserQuestionPayload

theorem runHook_eq (stdinText : JsString) (handoffPath : Path) :
    runHook host stdinText handoffPath =
      (askedQuestions host stdinText).map fun questions => (handoffPath, handoffBytes host questions) := by
  rw [runHook, askedQuestions, Option.map_bind]
  rfl

variable {runner : HookRunner}

/-- Whatever the shell makes of the line. -/
theorem runCommand_unasked {stdinText : JsString} (h : askedQuestions host stdinText = none) (scriptPath : Path)
    (command : JsString) : runCommand host runner scriptPath stdinText command = none := by
  have hrun : ∀ handoffPath, runHook host stdinText handoffPath = none := fun handoffPath => by rw [runHook_eq, h]; rfl
  unfold runCommand hookProcess
  split
  · split
    · split
      · rw [hrun, ite_self]
      · rfl
    · rfl
  · rfl

theorem runCommand_hook (laws : runner.Laws host) {scriptPath handoffPath : JsString} (hscript : Unexpanded scriptPath)
    (hhandoff : Unexpanded handoffPath) (stdinText : JsString) :
    runCommand host runner scriptPath stdinText (hookCommand scriptPath handoffPath) =
      if heard scriptPath = scriptPath ∧ runner.importMetaUrl scriptPath = js "file://" ++ runner.argv1 scriptPath
      then runHook host stdinText (heard handoffPath) else none := by
  have hwords := laws.words _ _ (spelt_command scriptPath handoffPath) (words_command hscript hhandoff)
  rw [runCommand, hwords]
  by_cases hread : heard scriptPath = scriptPath
  · simp [hread, hookProcess, isEntryModule]
  · simp [hread]

/-- Whatever is called, and whatever the script is given. -/
theorem hook_captures (laws : runner.Laws host) (scriptPath token : JsString) (stateDir : Path) (ownPid : ProcessId)
    (toolName stdinText : JsString) :
    let install := installAskUserQuestionHookSettings host scriptPath token stateDir ownPid
    let written := beforeToolCall host runner scriptPath install.settings toolName stdinText
    (Unexpanded scriptPath → Unexpanded install.handoffPath → ∀ questions, toolName = ASKUSERQUESTION_TOOL_NAME →
      askedQuestions host stdinText = some questions →
        (written = [(install.handoffPath, handoffBytes host questions)] ↔
          Spelt scriptPath ∧ Spelt install.handoffPath ∧
            runner.importMetaUrl scriptPath = js "file://" ++ runner.argv1 scriptPath)) ∧
    (toolName ≠ ASKUSERQUESTION_TOOL_NAME ∨ askedQuestions host stdinText = none → written = []) := by
  intro install written
  have hread : Json.parse host (encode (utf8Decode install.settings)) =
      some (buildAskUserQuestionHookSettings scriptPath install.handoffPath) :=
    (congrArg (Json.parse host) (Json.spelt_stringify host _).readBack).trans (Json.parse_stringify (settings_wellFormed _ _))
  have hcommands : runner.commands install.settings toolName =
      if toolName = ASKUSERQUESTION_TOOL_NAME then [hookCommand scriptPath install.handoffPath] else [] :=
    laws.commands _ _ _ toolName hread (by decide)
  have hwritten : written = (runner.commands install.settings toolName).filterMap
      (runCommand host runner scriptPath stdinText) := rfl
  rw [hwritten, hcommands]
  refine ⟨fun hscript hhandoff questions htool hasked => ?_, fun hnone => ?_⟩
  · have hrun := runCommand_hook laws hscript hhandoff stdinText
    rw [runHook_eq, hasked] at hrun
    rw [if_pos htool, List.filterMap_cons, hrun, List.filterMap_nil, ← heard_eq_iff scriptPath,
      ← heard_eq_iff install.handoffPath]
    by_cases hentry : heard scriptPath = scriptPath ∧
        runner.importMetaUrl scriptPath = js "file://" ++ runner.argv1 scriptPath
    · rw [if_pos hentry]
      simp [hentry]
    · rw [if_neg hentry]
      exact ⟨fun h => (by cases h), fun h => absurd ⟨h.1, h.2.2⟩ hentry⟩
  · rcases hnone with htool | hasked
    · rw [if_neg htool, List.filterMap_nil]
    · rw [List.filterMap_eq_nil_iff]
      exact fun command _ => runCommand_unasked hasked scriptPath command

/-- One question, of one option. -/
def goOn : Json :=
  .arr [.obj [(js "question", .str (js "Go on?")), (js "options", .arr [.obj [(js "label", .str (js "Yes"))]])]]

theorem goOn_wellFormed : goOn.WellFormed host := by
  refine .arr fun question hquestion => ?_
  rw [List.mem_singleton.mp hquestion]
  refine .names [js "question", js "options"] rfl (by decide) (by decide) fun f hf => ?_
  rcases List.mem_pair.mp hf with rfl | rfl
  · exact .str _
  · refine .arr fun option hoption => ?_
    rw [List.mem_singleton.mp hoption]
    refine .names [js "label"] rfl (by decide) (by decide) fun f hf => ?_
    rw [List.mem_singleton.mp hf]
    exact .str _

/-- The call that asks it. -/
def goOnCall : Json :=
  .obj [(js "tool_name", .str ASKUSERQUESTION_TOOL_NAME), (js "tool_input", .obj [(js "questions", goOn)])]

theorem goOnCall_wellFormed : goOnCall.WellFormed host := by
  refine .names [js "tool_name", js "tool_input"] rfl (by decide) (by decide) fun f hf => ?_
  rcases List.mem_pair.mp hf with rfl | rfl
  · exact .str _
  · refine .names [js "questions"] rfl (by decide) (by decide) fun f hf => ?_
    rw [List.mem_singleton.mp hf]
    exact goOn_wellFormed

def hookPid : ProcessId := ⟨7, Nat.succ_pos 6, Nat.le_of_ble_eq_true rfl⟩

theorem hook_captures_goOn :
    let install := installAskUserQuestionHookSettings integerHost (js "/opt/hook.js") (js "t") (js "/state") hookPid
    beforeToolCall integerHost (plainRunner integerHost) (js "/opt/hook.js") install.settings ASKUSERQUESTION_TOOL_NAME
        (Json.stringify integerHost goOnCall) =
      [(install.handoffPath, handoffBytes integerHost goOn)] := by
  intro install
  have hasked : askedQuestions integerHost (Json.stringify integerHost goOnCall) = some goOn := by
    rw [askedQuestions, Json.parse_stringify goOnCall_wellFormed]
    rfl
  refine ((hook_captures (plainRunner_laws integerHost) (js "/opt/hook.js") (js "t") (js "/state") hookPid
    ASKUSERQUESTION_TOOL_NAME _).1 (by decide) (by decide) goOn rfl hasked).mpr ⟨?_, ?_, rfl⟩
  · exact spelt_plain (by decide)
  · exact spelt_plain (by decide)

/-! ## What a report finds -/

/-- What was written last at each path. -/
abbrev Left : Type := HookFile → Option FileEntry

def leftWatch (_ : ServerState) (e : Event) (left : Left) : Left :=
  match e with
  | .writeHookFile path (some entry) => Function.update left path (some entry)
  | _ => left

/-- At a handoff path, only the hook writes. -/
def HookWrites (host : JsonHost) (_ : ServerState × Left) : Event → Prop
  | .writeHookFile path (some entry) => path.kind = .handoff →
      ∃ questions, questions.WellFormed host ∧ entry = handoffEntry host (handoffBytes host questions)
  | _ => True

abbrev HookRun (host : JsonHost) : ServerState × Left → Prop :=
  Reach (watched step leftWatch) (fun p => Booted p.1 ∧ p.2 = fun _ => none) (HookWrites host)

/-- The install is of the launch `op`, between the two ids. -/
structure OfLaunch (first next : Nat) (install : HookInstall) (op : OpId) : Prop where
  install : install = hookInstallOf (op + 1)
  first : first ≤ op
  before : op < next

theorem OfLaunch.later {first next next' : Nat} {install : HookInstall} {op : OpId}
    (h : OfLaunch first next install op) (hnext : next ≤ next') : OfLaunch first next' install op :=
  ⟨h.install, h.first, h.before.trans_le hnext⟩

/-- An install is one launch's, then one session's; what stands at its handoff path was left there in this run. -/
structure HandsDown (host : JsonHost) (first : Nat) (s : ServerState) (left : Left) : Prop where
  next : first ≤ s.next
  launching : ∀ op options install, s.ops.get op = some (.launching options (some install)) → OfLaunch first s.next install op
  installed : ∀ id install, s.hookInstalls.get id = some install → ∃ op, OfLaunch first s.next install op ∧ ¬ Launching s op
  apart : ∀ id id' install, s.hookInstalls.get id = some install → s.hookInstalls.get id' = some install → id = id'
  files : ∀ path entry, path.kind = .handoff → first ≤ path.token → s.files.get path = some entry → left path = some entry
  hook : ∀ path entry, path.kind = .handoff → left path = some entry →
    ∃ questions, questions.WellFormed host ∧ entry = handoffEntry host (handoffBytes host questions)

namespace HandsDown

variable {first : Nat} {s : ServerState} {left : Left}

theorem start {image : BootImage} : HandsDown host image.next (startServer image) fun _ => none where
  next := Nat.le_refl _
  launching _ _ _ h := by cases h
  installed _ _ h := by cases h
  apart _ _ _ h := by cases h
  files path entry _ hfirst hfile := absurd (image.stale path entry hfile) (Nat.not_lt.mpr hfirst)
  hook _ _ _ h := by cases h

/-- A turn that begins no launch, hands nothing over and leaves nothing. -/
theorem aside (h : HandsDown host first s left) {s' : ServerState} (hnext : s.next ≤ s'.next) (hbegun : NoneBegun s s')
    (hinstalls : ∀ id install, s'.hookInstalls.get id = some install → s.hookInstalls.get id = some install)
    (hfiles : ∀ path entry, path.kind = .handoff → s'.files.get path = some entry → s.files.get path = some entry) :
    HandsDown host first s' left where
  next := h.next.trans hnext
  launching op options install hop := (h.launching op options install (hbegun op options _ hop)).later hnext
  installed id install hi := by
    obtain ⟨op, hof, hsettled⟩ := h.installed id install (hinstalls id install hi)
    exact ⟨op, hof.later hnext, fun hop => hsettled (hbegun.launching hop)⟩
  apart id id' install hi hi' := h.apart id id' install (hinstalls id install hi) (hinstalls id' install hi')
  files path entry hkind hfirst hfile := h.files path entry hkind hfirst (hfiles path entry hkind hfile)
  hook := h.hook

theorem hookInstallOf_injective {n m : Nat} (h : hookInstallOf n = hookInstallOf m) : n = m :=
  congrArg (fun install => install.handoffPath.token) h

theorem launchSession (h : HandsDown host first s left) (options : SessionLaunchOptions) (hookOk : Bool) :
    HandsDown host first (step s (.launchSession options hookOk)) left := by
  rcases launchSession_cases s options hookOk with ⟨_, _, _, heq⟩ | ⟨cwd, hook, next, files, heq, hnext, -, hhook⟩
  · simp only [step, turn, heq]
    exact h
  · simp only [step, turn, heq]
    have hbelow : ∀ op < s.next, ∀ at_, (s.ops.set s.next (.launching { options with cwd } hook)).get op = some at_ →
        s.ops.get op = some at_ := by
      intro op hop at_ hget
      rwa [OrdMap.get_set_ne _ _ hop.ne] at hget
    refine
      { next := h.next.trans hnext.le
        launching := fun op options' install hop => ?_
        installed := fun id install hi => ?_
        apart := h.apart
        files := fun path entry hkind hfirst hfile => ?_
        hook := h.hook }
    · rw [OrdMap.get_set] at hop
      split at hop
      · rename_i hself
        cases hop
        rcases hhook with ⟨hnone, -⟩ | ⟨hsome, -⟩
        · cases hnone
        · cases hsome
          exact ⟨by rw [hself], hself ▸ h.next, hself ▸ hnext⟩
      · exact (h.launching op options' install hop).later hnext.le
    · obtain ⟨op, hof, hsettled⟩ := h.installed id install hi
      refine ⟨op, hof.later hnext.le, fun hlaunching => ?_⟩
      obtain ⟨options', hook', hop⟩ := hlaunching
      exact hsettled ⟨options', hook', hbelow op hof.before _ hop⟩
    · rw [(launched_files hhook).2 path hkind] at hfile
      exact h.files path entry hkind hfirst hfile

theorem launchOpened (h : HandsDown host first s left) (op : OpId) (attachable : Bool) (hint : String) :
    HandsDown host first (step s (.launchOpened op attachable hint)) left := by
  simp only [step, turn, launchSettled]
  split
  · rename_i options hook hop
    rw [launchOpened_eq]
    have hnext : s.next ≤ s.next + 1 + 1 := by omega
    have hbegun : ∀ op' at_, (s.ops.erase op).get op' = some at_ → op' ≠ op ∧ s.ops.get op' = some at_ :=
      fun op' at_ hget => OrdMap.get_erase_of_some hget
    have hmine : ∀ install, hook = some install → OfLaunch first s.next install op :=
      fun install hsome => h.launching op options install (hsome ▸ hop)
    -- the launch's own install was no session's
    have hnew : ∀ id install, hook = some install → s.hookInstalls.get id ≠ some install := by
      intro id install hsome hi
      obtain ⟨op', hof, hsettled⟩ := h.installed id install hi
      have hsame : op = op' :=
        Nat.succ.inj (hookInstallOf_injective ((hmine install hsome).install.symm.trans hof.install))
      exact hsettled (hsame ▸ ⟨options, hook, hop⟩)
    refine
      { next := h.next.trans hnext
        launching := fun op' options' install hop' => (h.launching op' options' install (hbegun op' _ hop').2).later hnext
        installed := fun id install hi => ?_
        apart := fun id id' install hi hi' => ?_
        files := h.files
        hook := h.hook }
    · rcases get_handedOver hi with hi | ⟨-, hsome⟩
      · obtain ⟨op', hof, hsettled⟩ := h.installed id install hi
        refine ⟨op', hof.later hnext, fun hlaunching => ?_⟩
        obtain ⟨options', hook', hop'⟩ := hlaunching
        exact hsettled ⟨options', hook', (hbegun op' _ hop').2⟩
      · refine ⟨op, (hmine install hsome).later hnext, fun hlaunching => ?_⟩
        obtain ⟨options', hook', hop'⟩ := hlaunching
        exact (hbegun op _ hop').1 rfl
    · rcases get_handedOver hi with hold | ⟨rfl, hsome⟩
      · rcases get_handedOver hi' with hold' | ⟨-, hsome⟩
        · exact h.apart id id' install hold hold'
        · exact absurd hold (hnew id install hsome)
      · rcases get_handedOver hi' with hold' | ⟨rfl, -⟩
        · exact absurd hold' (hnew id' install hsome)
        · rfl
  · exact h

theorem launchFailed (h : HandsDown host first s left) (op : OpId) (code : LaunchFailureCode) (message : String) :
    HandsDown host first (step s (.launchFailed op code message)) left := by
  have hbegun : NoneBegun s (step s (.launchFailed op code message)) := noneBegun_step fun _ _ he => by cases he
  have hnext := next_le_step s (.launchFailed op code message)
  revert hbegun hnext
  simp only [step, turn, launchSettled]
  split
  · rw [launchFailed_eq]
    exact fun hbegun hnext => h.aside hnext hbegun (fun _ _ hi => hi) fun _ _ _ hfile => unhooked_get hfile
  · exact fun _ _ => h

theorem wrote (h : HandsDown host first s left) {path : HookFile} {entry : Option FileEntry}
    (hok : HookWrites host (s, left) (.writeHookFile path entry)) :
    HandsDown host first (step s (.writeHookFile path entry)) (leftWatch s (.writeHookFile path entry) left) := by
  cases entry with
  | none =>
    exact h.aside (Nat.le_refl _) (fun _ _ _ hop => hop) (fun _ _ hi => hi) fun other entry _ hfile =>
      (OrdMap.get_erase_of_some hfile).2
  | some entry =>
    refine
      { next := h.next
        launching := h.launching
        installed := h.installed
        apart := h.apart
        files := fun other found hkind hfirst hfile => ?_
        hook := fun other found hkind hleft => ?_ }
    · have hfile : (s.files.set path entry).get other = some found := hfile
      rw [OrdMap.get_set] at hfile
      show Function.update left path (some entry) other = some found
      split at hfile
      · rename_i hself
        rw [hself, Function.update_self]
        exact hfile
      · rename_i hother
        rw [Function.update_of_ne hother]
        exact h.files other found hkind hfirst hfile
    · have hleft : Function.update left path (some entry) other = some found := hleft
      by_cases hself : other = path
      · subst hself
        rw [Function.update_self, Option.some.injEq] at hleft
        subst hleft
        exact hok hkind
      · rw [Function.update_of_ne hself] at hleft
        exact h.hook other found hkind hleft

theorem others (h : HandsDown host first s left) {e : Event} (he : e.shelves = false) :
    HandsDown host first (step s e) left :=
  h.aside (next_le_step s e) (noneBegun_step fun _ _ hlaunch => by rw [hlaunch] at he; cases he)
    (shelved_step s he).installs fun path entry _ => (shelved_step s he).captures path entry

theorem step (h : HandsDown host first s left) (e : Event) (hok : HookWrites host (s, left) e) :
    HandsDown host first (Server.step s e) (leftWatch s e left) := by
  cases e with
  | launchSession options hookOk => exact h.launchSession options hookOk
  | launchOpened op attachable hint => exact h.launchOpened op attachable hint
  | launchFailed op code message => exact h.launchFailed op code message
  | writeHookFile path entry => exact h.wrote hok
  | _ => exact h.others rfl

end HandsDown

theorem HookRun.handsDown {p : ServerState × Left} (h : HookRun host p) : ∃ first, HandsDown host first p.1 p.2 := by
  refine Reach.inv (P := fun p => ∃ first, HandsDown host first p.1 p.2) h (fun p hp => ?_) fun p e hp hok => ?_
  · obtain ⟨⟨image, himage⟩, hnone⟩ := hp
    rw [himage, hnone]
    exact ⟨image.next, .start⟩
  · obtain ⟨first, hp⟩ := hp
    exact ⟨first, hp.step e hok⟩

theorem handoffEntry_bytes {questions : Json} (h : questions.WellFormed host) :
    handoffEntry host (handoffBytes host questions) =
      .regular (handoffBytes host questions).length (some (.obj [(js "questions", questions)])) := by
  have hobject : Json.WellFormed host (.obj [(js "questions", questions)]) := by
    refine .names [js "questions"] rfl (by decide) (by decide) fun f hf => ?_
    rw [List.mem_singleton.mp hf]
    exact h
  have hbrace : (Json.stringify host (.obj [(js "questions", questions)])).head? ≠ some 0xFEFF := by
    show some (0x7B : UInt16) ≠ some 0xFEFF
    decide
  rw [handoffEntry]
  simp only [handoffBytes, (Json.spelt_stringify host _).readBack]
  rw [if_neg hbrace, Json.parse_stringify hobject]

theorem capturedQuestions_handoff {questions : Json} (h : questions.WellFormed host) :
    capturedQuestions (some (handoffEntry host (handoffBytes host questions))) =
      if MAX_HOOK_HANDOFF_BYTES < (handoffBytes host questions).length then none else some questions := by
  rw [handoffEntry_bytes h]
  rfl

theorem hookCapture_installed (fs : FileSystem) {hookInstalls : OrdMap SessionId HookInstall}
    {files : OrdMap HookFile FileEntry} {id : SessionId} {install : HookInstall}
    (hi : hookInstalls.get id = some install) (sequence : Option Nat) :
    hookCapture fs hookInstalls files id sequence = sequence.bind fun n =>
      (if fs.yields install.handoffPath then capturedQuestions (files.get install.handoffPath) else none).bind fun questions =>
        requiresActionEnrichmentFromFrame (handoffFrame n questions) := by
  cases sequence with
  | none => rfl
  | some n => simp only [hookCapture, hi, Option.bind_some]

/-- Whatever else happens: what a status report finds of its session's hook. -/
theorem capture_shown {p : ServerState × Left} (h : HookRun host p) {id : SessionId} {install : HookInstall}
    (hi : p.1.hookInstalls.get id = some install) {e : Event} {r : Report} (hact : observe p.1 e id = .report r) :
    (∀ id', p.1.hookInstalls.get id' = some install → id' = id) ∧
    (p.1.files.get install.handoffPath = none ∧ r.capture = none ∨
      ∃ questions, questions.WellFormed host ∧
        p.2 install.handoffPath = some (handoffEntry host (handoffBytes host questions)) ∧
        r.capture = r.sequence.bind fun n =>
          if p.1.fs.yields install.handoffPath = false ∨ MAX_HOOK_HANDOFF_BYTES < (handoffBytes host questions).length
          then none else requiresActionEnrichmentFromFrame (handoffFrame n questions)) := by
  obtain ⟨first, hdown⟩ := h.handsDown
  obtain ⟨op, ⟨hinstall, hfirst, -⟩, -⟩ := hdown.installed id install hi
  have hkind : install.handoffPath.kind = .handoff := by rw [hinstall]; rfl
  have htoken : first ≤ install.handoffPath.token := by
    rw [hinstall]
    exact Nat.le_succ_of_le hfirst
  obtain ⟨status, detail, sequence, rfl⟩ := observe_reportOf hact
  refine ⟨fun id' hi' => hdown.apart id' id install hi' hi, ?_⟩
  rw [reportOf, hookCapture_installed p.1.fs hi]
  cases hfile : p.1.files.get install.handoffPath with
  | none =>
    refine .inl ⟨rfl, ?_⟩
    cases sequence with
    | none => rfl
    | some n =>
      show (if _ then none else none : Option Json).bind _ = none
      rw [ite_self]
      rfl
  | some entry =>
    right
    have hleft := hdown.files install.handoffPath entry hkind htoken hfile
    obtain ⟨questions, hquestions, rfl⟩ := hdown.hook install.handoffPath entry hkind hleft
    refine ⟨questions, hquestions, hleft, ?_⟩
    rw [capturedQuestions_handoff hquestions]
    cases p.1.fs.yields install.handoffPath with
    | false => simp
    | true =>
      by_cases hlarge : MAX_HOOK_HANDOFF_BYTES < (handoffBytes host questions).length
      · simp [hlarge]
      · simp [hlarge]

/-- What the hook wrote tells what was asked. -/
theorem handoffEntry_inj {questions questions' : Json} (h : questions.WellFormed host) (h' : questions'.WellFormed host)
    (heq : handoffEntry host (handoffBytes host questions) = handoffEntry host (handoffBytes host questions')) :
    questions = questions' := by
  rw [handoffEntry_bytes h, handoffEntry_bytes h', FileEntry.regular.injEq, Option.some.injEq, Json.obj.injEq] at heq
  simpa using heq.2

/-- Its hook has run, in a launched session whose worker is there. -/
def asked : List Event :=
  [.launchSession ⟨js "/w", .default, none, none⟩ true, .launchOpened 0 true "", .sessionCreate none (js "/w") .default,
    .workerRegister 2, .writeHookFile ⟨1, .handoff⟩ (some (handoffEntry integerHost (handoffBytes integerHost goOn)))]

theorem capture_shown_asked :
    let p := runFrom (watched step leftWatch) (freshServer, fun _ => none) asked
    ∃ r, observe p.1 (.workerStatus 2 (statusBody 1 "requires_action" 1)) 2 = .report r ∧
      p.1.files.get (hookInstallOf 1).handoffPath = some (handoffEntry integerHost (handoffBytes integerHost goOn)) ∧
      r.capture = some (capturedQuestion 1) := by
  intro p
  have hstart : HookRun integerHost (freshServer, fun _ => none) := .start ⟨freshServer_booted, rfl⟩
  have hrun : HookRun integerHost p :=
    hstart.run_allowed ⟨trivial, trivial, trivial, trivial, fun _ => ⟨goOn, goOn_wellFormed, rfl⟩, trivial⟩
  have hinstall : p.1.hookInstalls.get 2 = some (hookInstallOf 1) := by rfl
  have hact : observe p.1 (.workerStatus 2 (statusBody 1 "requires_action" 1)) 2 =
      .report (reportOf p.1 2 .requiresAction none (some 1)) := by rfl
  refine ⟨_, hact, rfl, ?_⟩
  obtain ⟨-, ⟨hnone, -⟩ | ⟨questions, hquestions, hleft, hcapture⟩⟩ := capture_shown hrun hinstall hact
  · cases hnone
  · obtain rfl : goOn = questions := handoffEntry_inj goOn_wellFormed hquestions (Option.some.inj hleft)
    have hsmall : ¬ MAX_HOOK_HANDOFF_BYTES < (handoffBytes integerHost goOn).length := by decide
    have hread : requiresActionEnrichmentFromFrame (handoffFrame 1 goOn) = some (capturedQuestion 1) := by decide
    have hsequence : (reportOf p.1 2 .requiresAction none (some 1)).sequence = some 1 := rfl
    have hyields : ¬ p.1.fs.yields (hookInstallOf 1).handoffPath = false := by decide
    rw [hcapture, hsequence, Option.bind_some, if_neg (not_or.mpr ⟨hyields, hsmall⟩), hread]

end Ccctl.Server.HookCapture
