import Ccctl.Core.JsonText
import Ccctl.Core.Spelt
import Ccctl.Lib.ShellWords
/-
  Ccctl.Server.HookRunner — the worker, as the program that runs hooks.

  Which command lines it runs before a tool call, what its shell makes of one, and what `node` tells
  a script of itself are its own: `HookRunner` has a field for each. What is documented is in `Laws`:
  a matcher of letters is a tool's name, and runs its command before that tool and no other; and the
  shell reads plain words and double quotes as POSIX says, where no unit can begin an expansion.

  `plainRunner` is one that knows no patterns and no expansions.
-/

namespace Ccctl.Server

open Ccctl.Core Ccctl.Lib Ccctl.Lib.ShellWords

structure HookRunner where
  /-- The command lines it runs before a call of the tool, off the settings file. -/
  commands : List Nat → JsString → List JsString
  /-- The program its shell starts for a line, and the arguments. -/
  words : JsString → Option (List JsString)
  /-- `process.argv[1]`, once `node` is started on a script. -/
  argv1 : JsString → JsString
  /-- `import.meta.url`, in that script. -/
  importMetaUrl : JsString → JsString

/-- Settings with one `PreToolUse` hook. -/
def preToolUseHook (matcher command : JsString) : Json :=
  .obj [(js "hooks", .obj [(js "PreToolUse", .arr [.obj [
    (js "matcher", .str matcher),
    (js "hooks", .arr [.obj [(js "type", .str (js "command")), (js "command", .str command)]])]])])]

def isLetter (u : UInt16) : Bool := (0x41 ≤ u.toNat && u.toNat ≤ 0x5A) || (0x61 ≤ u.toNat && u.toNat ≤ 0x7A)

namespace HookRunner

/-- What the worker, the shell and `node` document. -/
structure Laws (runner : HookRunner) (host : JsonHost) : Prop where
  commands : ∀ settings matcher command toolName,
    Json.parse host (encode (utf8Decode settings)) = some (preToolUseHook matcher command) → matcher.all isLetter = true →
      runner.commands settings toolName = if toolName = matcher then [command] else []
  words : ∀ line args, Spelt line → shellWords line = some (js "node" :: args) → runner.words line = some (js "node" :: args)

end HookRunner

/-! ## A runner -/

/-- The command lines of the entries whose matcher is the name. -/
def preToolUseCommands (settings : Json) (toolName : JsString) : List JsString :=
  let entries := ((settings.get (js "hooks")).bind fun hooks => Json.asArray (hooks.get (js "PreToolUse"))).getD []
  (entries.filter fun entry => Json.isText (entry.get (js "matcher")) toolName).flatMap fun entry =>
    ((Json.asArray (entry.get (js "hooks"))).getD []).filterMap fun hook =>
      if Json.isText (hook.get (js "type")) (js "command") then Json.asString (hook.get (js "command")) else none

def plainRunner (host : JsonHost) : HookRunner where
  commands settings toolName :=
    match Json.parse host (encode (utf8Decode settings)) with
    | some settings => preToolUseCommands settings toolName
    | none => []
  words := shellWords
  argv1 script := script
  importMetaUrl script := js "file://" ++ script

theorem preToolUseCommands_hook (matcher command toolName : JsString) :
    preToolUseCommands (preToolUseHook matcher command) toolName = if toolName = matcher then [command] else [] := by
  by_cases htool : toolName = matcher
  · subst htool
    have hmatcher : Json.isText (some (.str toolName)) toolName = true := decide_eq_true rfl
    rw [if_pos rfl]
    show List.flatMap _ (List.filter _ [_]) = _
    rw [List.filter_eq_self.mpr fun entry hentry => by rw [List.mem_singleton.mp hentry]; exact hmatcher]
    rfl
  · have hmatcher : Json.isText (some (.str matcher)) toolName = false := decide_eq_false fun h => htool h.symm
    rw [if_neg htool]
    refine List.flatMap_eq_nil_iff.mpr fun entry hentry => ?_
    obtain ⟨hmem, htext⟩ := List.mem_filter.mp hentry
    rw [List.mem_singleton.mp hmem] at htext
    cases hmatcher.symm.trans htext

theorem plainRunner_laws (host : JsonHost) : (plainRunner host).Laws host where
  commands settings matcher command toolName hparse _ := by
    show (match Json.parse host (encode (utf8Decode settings)) with
      | some settings => preToolUseCommands settings toolName
      | none => []) = _
    rw [hparse]
    exact preToolUseCommands_hook matcher command toolName
  words _ _ _ h := h

end Ccctl.Server
