import Ccctl.Core.Loopback
import Ccctl.Lib.Pattern
import Ccctl.Server.State
/-
  Ccctl.Server.HookInstallFile — the names in the hook state directory
  (`packages/server/src/hook-settings-installer.ts`: `hookInstallFileName`,
  `writeStateFileAtomic`; `packages/server/src/ask-user-question-hook.ts`: `writeHandoffFile`;
  `packages/server/src/hook-install-sweep.ts`: `classifyHookInstallFileName`).

  Two programs write here, a daemon and the hook inside a worker, and a third function reads what
  they wrote off the names alone. `Named` says what a name of each class is, apart from any
  pattern: a name has one class at most (`Named.unique`), since a separator or a dot can be told
  from the pieces around it. The patterns take these names and no others (`classify_iff`), so the
  classifier gives back what a writer put in (`classify_install`, `classify_installTemp`,
  `classify_hookTemp`).

  A process id is a positive integer a number holds exactly. What `\d+` takes may be any other.
-/

namespace Ccctl.Server

open Ccctl.Core Ccctl.Lib

structure ProcessId where
  value : Nat
  positive : 0 < value
  safe : value ≤ 9007199254740991

/-! ## The writers -/

def HOOK_INSTALL_OWNER_SEPARATOR : JsString := js "_"

def HookInstallFileKind.text : HookInstallFileKind → JsString
  | .settings => js "settings"
  | .handoff => js "handoff"

def hookInstallFileName (ownerPid : ProcessId) (token : JsString) (kind : HookInstallFileKind) : JsString :=
  digitsText ownerPid.value ++ HOOK_INSTALL_OWNER_SEPARATOR ++ token ++ js "." ++ kind.text ++ js ".json"

/-- `n.toString(36)`; the first 16 digits are those of base 16. -/
def base36Text (n : Nat) : JsString := if n = 0 then [0x30] else (Nat.digits 36 n).reverse.map Json.hexDigit

/-- `tempPath` of `writeStateFileAtomic`, in the directory of `path`. -/
def tempStateFileName (fileName : JsString) (pid : ProcessId) (now : Nat) : JsString :=
  fileName ++ js "." ++ digitsText pid.value ++ js "." ++ base36Text now ++ js ".tmp"

/-- `bytes.toString("hex")`. -/
def hexText (bytes : List UInt8) : JsString :=
  bytes.flatMap fun b => [Json.hexDigit (b.toNat / 16), Json.hexDigit (b.toNat % 16)]

/-- `tempPath` of `writeHandoffFile`; the hook draws eight bytes. -/
def hookTempFileName (bytes : List UInt8) : JsString := js "." ++ hexText bytes ++ js ".tmp"

/-! ## The classifier -/

/-- `[0-9a-z]`. -/
def isBase36 (u : UInt16) : Bool := isDigit u || (0x61 ≤ u.toNat && u.toNat ≤ 0x7A)

/-- `[0-9a-f]`. -/
def isLowerHex (u : UInt16) : Bool := isDigit u || (0x61 ≤ u.toNat && u.toNat ≤ 0x66)

/-- `[^_/]`. -/
def isTokenUnit (u : UInt16) : Bool := !HOOK_INSTALL_OWNER_SEPARATOR.contains u && u != 0x2F

def TEMP_WRITE_SUFFIX : Pattern UInt16 :=
  .optional (.seq (.word (js ".")) (.seq (.plus isDigit)
    (.seq (.word (js ".")) (.seq (.plus isBase36) (.word (js ".tmp"))))))

def HOOK_TEMP_FILE_PATTERN : Pattern UInt16 :=
  .seq (.word (js ".")) (.seq (.times isLowerHex 16) (.word (js ".tmp")))

/-- `(settings|handoff)`. -/
def INSTALL_KIND : Pattern UInt16 := .group (.alt (.word (js "settings")) (.word (js "handoff")))

/-- `[^_/]+\.(settings|handoff)\.json` and the suffix, which both install patterns end in. -/
def INSTALL_STEM : Pattern UInt16 :=
  .seq (.plus isTokenUnit) (.seq (.word (js ".")) (.seq INSTALL_KIND (.seq (.word (js ".json")) TEMP_WRITE_SUFFIX)))

def OWNED_FILE_PATTERN : Pattern UInt16 :=
  .seq (.group (.plus isDigit)) (.seq (.word HOOK_INSTALL_OWNER_SEPARATOR) INSTALL_STEM)

def LEGACY_FILE_PATTERN : Pattern UInt16 := INSTALL_STEM

/-- A natural number as a number: the nearest double, ties to even; `none` is `Infinity`. -/
def nearestNumber (n : Nat) : Option Nat :=
  let unit := 2 ^ (n.log2 - 52)
  let below := n / unit
  let past := n % unit
  let steps := if unit < 2 * past ∨ (2 * past = unit ∧ below % 2 = 1) then below + 1 else below
  if steps * unit < 2 ^ 1024 then some (steps * unit) else none

/-- `Number(digits)`. -/
def digitsNumber (digits : JsString) : Option Nat := nearestNumber (digitsValue digits)

inductive HookInstallFileClass where
  | owned (ownerPid : Option Nat) (role : HookInstallFileKind)
  | legacy (role : HookInstallFileKind)
  | hookTemp
  | foreign
  deriving DecidableEq, Repr

/-- A group of `(settings|handoff)` as a kind. -/
def hookInstallFileKind (group : JsString) : HookInstallFileKind :=
  if group = js "settings" then .settings else .handoff

def classifyHookInstallFileName (fileName : JsString) : HookInstallFileClass :=
  match OWNED_FILE_PATTERN.exec fileName with
  | some owned => .owned (digitsNumber (owned.getD 0 [])) (hookInstallFileKind (owned.getD 1 []))
  | none =>
    match LEGACY_FILE_PATTERN.exec fileName with
    | some legacy => .legacy (hookInstallFileKind (legacy.getD 0 []))
    | none => if (HOOK_TEMP_FILE_PATTERN.exec fileName).isSome then .hookTemp else .foreign

/-! ## What a name of each class is -/

/-- One unit of `p` or more. -/
def Run (p : UInt16 → Bool) (s : JsString) : Prop := s ≠ [] ∧ ∀ u ∈ s, p u = true

/-- A token, a kind and `json` between dots, settled or with a process, a time and `tmp` after them. -/
inductive Stem (s : JsString) (kind : HookInstallFileKind) : Prop where
  | settled (token : JsString) (htoken : Run isTokenUnit token)
      (hs : s = token ++ 0x2E :: kind.text ++ 0x2E :: js "json")
  | interrupted (token pid stamp : JsString) (htoken : Run isTokenUnit token) (hpid : Run isDigit pid)
      (hstamp : Run isBase36 stamp)
      (hs : s = token ++ 0x2E :: kind.text ++ 0x2E :: js "json" ++ 0x2E :: pid ++ 0x2E :: stamp ++ 0x2E :: js "tmp")

inductive Named (name : JsString) : HookInstallFileClass → Prop where
  | owned (digits stem : JsString) (kind : HookInstallFileKind) (hdigits : Run isDigit digits) (hstem : Stem stem kind)
      (hname : name = digits ++ 0x5F :: stem) : Named name (.owned (digitsNumber digits) kind)
  | legacy (kind : HookInstallFileKind) (hstem : Stem name kind) : Named name (.legacy kind)
  | hookTemp (hex : JsString) (hlength : hex.length = 16) (hhex : ∀ u ∈ hex, isLowerHex u = true)
      (hname : name = 0x2E :: hex ++ 0x2E :: js "tmp") : Named name .hookTemp

/-- The class of a name: the one it is named for, or foreign where it is named for none. -/
def HasClass (name : JsString) (c : HookInstallFileClass) : Prop :=
  Named name c ∨ (c = .foreign ∧ ∀ c', ¬ Named name c')

/-! ## A name has one class -/

/-- The last separator of a text settles what stands on either side of it. -/
theorem last_separator {c : UInt16} {a a' b b' : JsString} (h : a ++ c :: b = a' ++ c :: b') (hb : c ∉ b)
    (hb' : c ∉ b') : a = a' ∧ b = b' := by
  rcases List.append_eq_append_iff.mp h with ⟨mid, ha, hrest⟩ | ⟨mid, ha, hrest⟩
  · cases mid with
    | nil => exact ⟨by rw [ha, List.append_nil], (List.cons.inj hrest).2⟩
    | cons u mid =>
      have htail := (List.cons.inj hrest).2
      exact absurd (by rw [htail]; simp) hb
  · cases mid with
    | nil => exact ⟨by rw [ha, List.append_nil], (List.cons.inj hrest).2.symm⟩
    | cons u mid =>
      have htail := (List.cons.inj hrest).2
      exact absurd (by rw [htail]; simp) hb'

theorem Run.not_mem {p : UInt16 → Bool} {s : JsString} (h : Run p s) {c : UInt16} (hc : p c = false) : c ∉ s := by
  intro hmem
  have hp := h.2 c hmem
  rw [hc] at hp
  cases hp

theorem HookInstallFileKind.text_plain (kind : HookInstallFileKind) :
    (0x2E : UInt16) ∉ kind.text ∧ (0x5F : UInt16) ∉ kind.text := by
  cases kind <;> decide

theorem HookInstallFileKind.text_injective {kind kind' : HookInstallFileKind} (h : kind.text = kind'.text) :
    kind = kind' := by
  revert h
  cases kind <;> cases kind' <;> decide

theorem Stem.no_separator {s : JsString} {kind : HookInstallFileKind} (h : Stem s kind) : (0x5F : UInt16) ∉ s := by
  have hkind := kind.text_plain.2
  cases h with
  | settled token htoken hs =>
    have htoken := htoken.not_mem (c := 0x5F) (by decide)
    subst hs
    simp only [List.mem_append, List.mem_cons, not_or]
    exact ⟨⟨htoken, by decide, hkind⟩, by decide, by decide⟩
  | interrupted token pid stamp htoken hpid hstamp hs =>
    have htoken := htoken.not_mem (c := 0x5F) (by decide)
    have hpid := hpid.not_mem (c := 0x5F) (by decide)
    have hstamp := hstamp.not_mem (c := 0x5F) (by decide)
    subst hs
    simp only [List.mem_append, List.mem_cons, not_or]
    exact ⟨⟨⟨⟨⟨htoken, by decide, hkind⟩, by decide, by decide⟩, by decide, hpid⟩, by decide, hstamp⟩,
      by decide, by decide⟩

/-- What stands before `.json` settles the kind. -/
theorem kind_settled {token token' : JsString} {kind kind' : HookInstallFileKind}
    (h : token ++ 0x2E :: kind.text ++ 0x2E :: js "json" = token' ++ 0x2E :: kind'.text ++ 0x2E :: js "json") :
    kind = kind' := by
  obtain ⟨hstem, -⟩ := last_separator h (by decide) (by decide)
  obtain ⟨-, hkind⟩ := last_separator hstem kind.text_plain.1 kind'.text_plain.1
  exact HookInstallFileKind.text_injective hkind

theorem Stem.kind_unique {s : JsString} {kind kind' : HookInstallFileKind} (h : Stem s kind) (h' : Stem s kind') :
    kind = kind' := by
  cases h with
  | settled token _ hs =>
    cases h' with
    | settled token' _ hs' => exact kind_settled (hs.symm.trans hs')
    | interrupted token' pid' stamp' _ _ _ hs' =>
      obtain ⟨-, hlast⟩ := last_separator (hs.symm.trans hs') (by decide) (by decide)
      exact absurd hlast (by decide)
  | interrupted token pid stamp _ hpid hstamp hs =>
    cases h' with
    | settled token' _ hs' =>
      obtain ⟨-, hlast⟩ := last_separator (hs'.symm.trans hs) (by decide) (by decide)
      exact absurd hlast (by decide)
    | interrupted token' pid' stamp' _ hpid' hstamp' hs' =>
      obtain ⟨hpath, -⟩ := last_separator (hs.symm.trans hs') (by decide) (by decide)
      obtain ⟨hpath, -⟩ := last_separator hpath (hstamp.not_mem (by decide)) (hstamp'.not_mem (by decide))
      obtain ⟨hpath, -⟩ := last_separator hpath (hpid.not_mem (by decide)) (hpid'.not_mem (by decide))
      exact kind_settled hpath

/-- The hook's temporary file has nothing before its first dot. -/
theorem Stem.not_hookTemp {hex : JsString} {kind : HookInstallFileKind} (hhex : ∀ u ∈ hex, isLowerHex u = true)
    (h : Stem (0x2E :: hex ++ 0x2E :: js "tmp") kind) : False := by
  have hdot : (0x2E : UInt16) ∉ hex := by
    intro hmem
    exact absurd (hhex _ hmem) (by decide)
  cases h with
  | settled token _ hs =>
    obtain ⟨-, hlast⟩ := last_separator hs (by decide) (by decide)
    exact absurd hlast (by decide)
  | interrupted token pid stamp _ _ hstamp hs =>
    obtain ⟨hpath, -⟩ := last_separator hs (by decide) (by decide)
    obtain ⟨hempty, -⟩ := last_separator (a := []) hpath hdot (hstamp.not_mem (by decide))
    exact absurd hempty.symm (by simp)

theorem hookTemp_no_separator {hex : JsString} (hhex : ∀ u ∈ hex, isLowerHex u = true) :
    (0x5F : UInt16) ∉ 0x2E :: hex ++ 0x2E :: js "tmp" := by
  have hsep : (0x5F : UInt16) ∉ hex := by
    intro hmem
    exact absurd (hhex _ hmem) (by decide)
  simp only [List.mem_append, List.mem_cons, not_or]
  exact ⟨⟨by decide, hsep⟩, by decide, by decide⟩

theorem Named.unique {name : JsString} {c c' : HookInstallFileClass} (h : Named name c) (h' : Named name c') :
    c = c' := by
  cases h with
  | owned digits stem kind hdigits hstem hname =>
    have hsep : (0x5F : UInt16) ∈ name := by simp [hname]
    cases h' with
    | owned digits' stem' kind' hdigits' hstem' hname' =>
      obtain ⟨rfl, rfl⟩ := last_separator (hname.symm.trans hname') hstem.no_separator hstem'.no_separator
      rw [hstem.kind_unique hstem']
    | legacy kind' hstem' => exact absurd hsep hstem'.no_separator
    | hookTemp hex hlength hhex hname' => exact absurd (hname' ▸ hsep) (hookTemp_no_separator hhex)
  | legacy kind hstem =>
    cases h' with
    | owned digits' stem' kind' hdigits' hstem' hname' => exact absurd (by simp [hname']) hstem.no_separator
    | legacy kind' hstem' => rw [hstem.kind_unique hstem']
    | hookTemp hex hlength hhex hname' =>
      subst hname'
      exact (hstem.not_hookTemp hhex).elim
  | hookTemp hex hlength hhex hname =>
    cases h' with
    | owned digits' stem' kind' hdigits' hstem' hname' =>
      have hsep : (0x5F : UInt16) ∈ name := by simp [hname']
      exact absurd (hname ▸ hsep) (hookTemp_no_separator hhex)
    | legacy kind' hstem' =>
      subst hname
      exact (hstem'.not_hookTemp hhex).elim
    | hookTemp hex' hlength' hhex' hname' => rfl

/-! ## The patterns take these names -/

theorem dot_append (s : JsString) : js "." ++ s = 0x2E :: s := rfl

theorem separator_append (s : JsString) : HOOK_INSTALL_OWNER_SEPARATOR ++ s = 0x5F :: s := rfl

theorem dot_json : js ".json" = 0x2E :: js "json" := rfl

theorem dot_tmp : js ".tmp" = 0x2E :: js "tmp" := rfl

theorem parses_kind {s : JsString} {gs : List JsString} :
    INSTALL_KIND.Parses s gs ↔ ∃ kind : HookInstallFileKind, s = kind.text ∧ gs = [kind.text] := by
  simp only [INSTALL_KIND, Pattern.parses_group, Pattern.parses_alt, Pattern.parses_word]
  constructor
  · rintro ⟨_, rfl, ⟨rfl, rfl⟩ | ⟨rfl, rfl⟩⟩
    · exact ⟨.settings, rfl, rfl⟩
    · exact ⟨.handoff, rfl, rfl⟩
  · intro hex
    obtain ⟨kind, rfl, rfl⟩ := hex
    cases kind
    · exact ⟨[], rfl, Or.inl ⟨rfl, rfl⟩⟩
    · exact ⟨[], rfl, Or.inr ⟨rfl, rfl⟩⟩

theorem parses_suffix {s : JsString} {gs : List JsString} :
    TEMP_WRITE_SUFFIX.Parses s gs ↔ gs = [] ∧ (s = [] ∨ ∃ pid stamp, Run isDigit pid ∧ Run isBase36 stamp ∧
      s = js "." ++ (pid ++ (js "." ++ (stamp ++ js ".tmp")))) := by
  simp only [TEMP_WRITE_SUFFIX, Pattern.parses_optional, Pattern.parses_seq, Pattern.parses_word, Pattern.parses_plus]
  constructor
  · rintro (⟨_, _, _, _, rfl, rfl, ⟨rfl, rfl⟩, pid, _, _, _, rfl, rfl, ⟨rfl, hpid⟩, _, _, _, _, rfl, rfl,
      ⟨rfl, rfl⟩, stamp, _, _, _, rfl, rfl, ⟨rfl, hstamp⟩, rfl, rfl⟩ | ⟨rfl, rfl⟩)
    · exact ⟨rfl, Or.inr ⟨pid, stamp, hpid, hstamp, rfl⟩⟩
    · exact ⟨rfl, Or.inl rfl⟩
  · rintro ⟨rfl, rfl | ⟨pid, stamp, hpid, hstamp, rfl⟩⟩
    · exact Or.inr ⟨rfl, rfl⟩
    · exact Or.inl ⟨_, _, [], [], rfl, rfl, ⟨rfl, rfl⟩, pid, _, [], [], rfl, rfl, ⟨rfl, hpid⟩, _, _, [], [], rfl, rfl,
        ⟨rfl, rfl⟩, stamp, _, [], [], rfl, rfl, ⟨rfl, hstamp⟩, rfl, rfl⟩

theorem parses_stem {s : JsString} {gs : List JsString} :
    INSTALL_STEM.Parses s gs ↔ ∃ kind, Stem s kind ∧ gs = [kind.text] := by
  have hform : INSTALL_STEM.Parses s gs ↔ ∃ token kind suffix, Run isTokenUnit token ∧
      TEMP_WRITE_SUFFIX.Parses suffix [] ∧ gs = [HookInstallFileKind.text kind] ∧
      s = token ++ (js "." ++ (kind.text ++ (js ".json" ++ suffix))) := by
    simp only [INSTALL_STEM, Pattern.parses_seq, Pattern.parses_word, Pattern.parses_plus, parses_kind]
    constructor
    · rintro ⟨token, _, _, _, rfl, rfl, ⟨rfl, htoken⟩, _, _, _, _, rfl, rfl, ⟨rfl, rfl⟩, _, _, _, _, rfl, rfl,
        ⟨kind, rfl, rfl⟩, _, suffix, _, _, rfl, rfl, ⟨rfl, rfl⟩, hsuffix⟩
      obtain ⟨rfl, -⟩ := parses_suffix.mp hsuffix
      exact ⟨token, kind, suffix, htoken, hsuffix, rfl, rfl⟩
    · intro hex
      obtain ⟨token, kind, suffix, htoken, hsuffix, rfl, rfl⟩ := hex
      exact ⟨token, _, [], [kind.text], rfl, rfl, ⟨rfl, htoken⟩, _, _, [], [kind.text], rfl, rfl, ⟨rfl, rfl⟩,
        kind.text, _, [kind.text], [], rfl, rfl, ⟨kind, rfl, rfl⟩, _, suffix, [], [], rfl, rfl, ⟨rfl, rfl⟩, hsuffix⟩
  rw [hform]
  constructor
  · intro hex
    obtain ⟨token, kind, suffix, htoken, hsuffix, rfl, rfl⟩ := hex
    obtain ⟨-, rfl | ⟨pid, stamp, hpid, hstamp, rfl⟩⟩ := parses_suffix.mp hsuffix
    · exact ⟨kind, .settled token htoken (by simp only [dot_append, dot_json, List.append_assoc, List.cons_append,
        List.append_nil]), rfl⟩
    · exact ⟨kind, .interrupted token pid stamp htoken hpid hstamp (by simp only [dot_append, dot_json, dot_tmp,
        List.append_assoc, List.cons_append]), rfl⟩
  · intro hex
    obtain ⟨kind, hstem, rfl⟩ := hex
    cases hstem with
    | settled token htoken hs =>
      refine ⟨token, kind, [], htoken, parses_suffix.mpr ⟨rfl, Or.inl rfl⟩, rfl, ?_⟩
      simp only [hs, dot_append, dot_json, List.append_assoc, List.cons_append, List.append_nil]
    | interrupted token pid stamp htoken hpid hstamp hs =>
      refine ⟨token, kind, _, htoken, parses_suffix.mpr ⟨rfl, Or.inr ⟨pid, stamp, hpid, hstamp, rfl⟩⟩, rfl, ?_⟩
      simp only [hs, dot_append, dot_json, dot_tmp, List.append_assoc, List.cons_append]

theorem parses_owned {s : JsString} {gs : List JsString} :
    OWNED_FILE_PATTERN.Parses s gs ↔ ∃ digits stem kind, Run isDigit digits ∧ Stem stem kind ∧
      s = digits ++ 0x5F :: stem ∧ gs = [digits, kind.text] := by
  simp only [OWNED_FILE_PATTERN, Pattern.parses_group, Pattern.parses_seq, Pattern.parses_word, Pattern.parses_plus,
    parses_stem]
  constructor
  · intro hex
    obtain ⟨_, _, _, _, rfl, rfl, ⟨_, rfl, rfl, hdigits⟩, _, stem, _, _, rfl, rfl, ⟨rfl, rfl⟩, kind, hstem, rfl⟩ := hex
    exact ⟨_, stem, kind, hdigits, hstem, rfl, rfl⟩
  · intro hex
    obtain ⟨digits, stem, kind, hdigits, hstem, rfl, rfl⟩ := hex
    exact ⟨digits, _, [digits], [kind.text], rfl, rfl, ⟨[], rfl, rfl, hdigits⟩, HOOK_INSTALL_OWNER_SEPARATOR, stem, [],
      [kind.text], rfl, rfl, ⟨rfl, rfl⟩, kind, hstem, rfl⟩

theorem parses_hookTemp {s : JsString} {gs : List JsString} :
    HOOK_TEMP_FILE_PATTERN.Parses s gs ↔ ∃ hex, hex.length = 16 ∧ (∀ u ∈ hex, isLowerHex u = true) ∧
      s = 0x2E :: hex ++ 0x2E :: js "tmp" ∧ gs = [] := by
  simp only [HOOK_TEMP_FILE_PATTERN, Pattern.parses_seq, Pattern.parses_word, Pattern.parses_times]
  constructor
  · intro hgiven
    obtain ⟨_, _, _, _, rfl, rfl, ⟨rfl, rfl⟩, hex, _, _, _, rfl, rfl, ⟨rfl, hlength, hhex⟩, rfl, rfl⟩ := hgiven
    exact ⟨hex, hlength, hhex, rfl, rfl⟩
  · intro hparts
    obtain ⟨hex, hlength, hhex, rfl, rfl⟩ := hparts
    exact ⟨js ".", _, [], [], rfl, rfl, ⟨rfl, rfl⟩, hex, _, [], [], rfl, rfl, ⟨rfl, hlength, hhex⟩, rfl, rfl⟩

/-! ## The classifier gives the class -/

theorem hookInstallFileKind_text (kind : HookInstallFileKind) : hookInstallFileKind kind.text = kind := by
  cases kind <;> decide

theorem exec_owned {name digits stem : JsString} {kind : HookInstallFileKind} (hdigits : Run isDigit digits)
    (hstem : Stem stem kind) (hname : name = digits ++ 0x5F :: stem) :
    OWNED_FILE_PATTERN.exec name = some [digits, kind.text] := by
  refine Pattern.exec_settled (parses_owned.mpr ⟨digits, stem, kind, hdigits, hstem, hname, rfl⟩) fun gs hgs => ?_
  obtain ⟨digits', stem', kind', -, hstem', hname', rfl⟩ := parses_owned.mp hgs
  obtain ⟨rfl, rfl⟩ := last_separator (hname.symm.trans hname') hstem.no_separator hstem'.no_separator
  rw [hstem.kind_unique hstem']

theorem exec_legacy {name : JsString} {kind : HookInstallFileKind} (hstem : Stem name kind) :
    LEGACY_FILE_PATTERN.exec name = some [kind.text] := by
  refine Pattern.exec_settled (parses_stem.mpr ⟨kind, hstem, rfl⟩) fun gs hgs => ?_
  obtain ⟨kind', hstem', rfl⟩ := parses_stem.mp hgs
  rw [hstem.kind_unique hstem']

theorem classify_named {name : JsString} {c : HookInstallFileClass} (h : Named name c) :
    classifyHookInstallFileName name = c := by
  cases h with
  | owned digits stem kind hdigits hstem hname =>
    rw [classifyHookInstallFileName, exec_owned hdigits hstem hname]
    exact congrArg (HookInstallFileClass.owned (digitsNumber digits)) (hookInstallFileKind_text kind)
  | legacy kind hstem =>
    have howned : OWNED_FILE_PATTERN.exec name = none := by
      refine Pattern.exec_eq_none.mpr fun gs hgs => ?_
      obtain ⟨digits, stem, -, -, -, rfl, -⟩ := parses_owned.mp hgs
      exact hstem.no_separator (by simp)
    rw [classifyHookInstallFileName, howned, exec_legacy hstem]
    exact congrArg HookInstallFileClass.legacy (hookInstallFileKind_text kind)
  | hookTemp hex hlength hhex hname =>
    have howned : OWNED_FILE_PATTERN.exec name = none := by
      refine Pattern.exec_eq_none.mpr fun gs hgs => ?_
      obtain ⟨digits, stem, -, -, -, hname', -⟩ := parses_owned.mp hgs
      have hsep : (0x5F : UInt16) ∈ name := by simp [hname']
      exact hookTemp_no_separator hhex (hname ▸ hsep)
    have hlegacy : LEGACY_FILE_PATTERN.exec name = none := by
      refine Pattern.exec_eq_none.mpr fun gs hgs => ?_
      obtain ⟨kind, hstem, -⟩ := parses_stem.mp hgs
      exact (hname ▸ hstem).not_hookTemp hhex
    have htemp : HOOK_TEMP_FILE_PATTERN.exec name ≠ none := fun hnone =>
      Pattern.exec_eq_none.mp hnone [] (parses_hookTemp.mpr ⟨hex, hlength, hhex, hname, rfl⟩)
    simp only [classifyHookInstallFileName, howned, hlegacy, if_pos (Option.isSome_iff_ne_none.mpr htemp)]

theorem named_classify {name : JsString} (h : classifyHookInstallFileName name ≠ .foreign) :
    Named name (classifyHookInstallFileName name) := by
  cases howned : OWNED_FILE_PATTERN.exec name with
  | some owned =>
    obtain ⟨digits, stem, kind, hdigits, hstem, hname, rfl⟩ := parses_owned.mp (Pattern.exec_parses howned)
    have hnamed : Named name (.owned (digitsNumber digits) kind) := .owned digits stem kind hdigits hstem hname
    rwa [classify_named hnamed]
  | none =>
    cases hlegacy : LEGACY_FILE_PATTERN.exec name with
    | some legacy =>
      obtain ⟨kind, hstem, rfl⟩ := parses_stem.mp (Pattern.exec_parses hlegacy)
      have hnamed : Named name (.legacy kind) := .legacy kind hstem
      rwa [classify_named hnamed]
    | none =>
      cases htemp : HOOK_TEMP_FILE_PATTERN.exec name with
      | some temp =>
        obtain ⟨hex, hlength, hhex, hname, -⟩ := parses_hookTemp.mp (Pattern.exec_parses htemp)
        have hnamed : Named name .hookTemp := .hookTemp hex hlength hhex hname
        rwa [classify_named hnamed]
      | none =>
        refine absurd ?_ h
        rw [classifyHookInstallFileName, howned, hlegacy, htemp]
        rfl

theorem Named.not_foreign {name : JsString} : ¬ Named name .foreign := nofun

theorem classify_iff {name : JsString} {c : HookInstallFileClass} :
    classifyHookInstallFileName name = c ↔ HasClass name c := by
  constructor
  · intro heq
    subst heq
    by_cases hforeign : classifyHookInstallFileName name = .foreign
    · refine Or.inr ⟨hforeign, fun c' h => ?_⟩
      rw [classify_named h] at hforeign
      exact Named.not_foreign (hforeign ▸ h)
    · exact Or.inl (named_classify hforeign)
  · rintro (h | ⟨rfl, hnone⟩)
    · exact classify_named h
    · by_contra hne
      exact hnone _ (named_classify hne)

theorem HasClass.unique {name : JsString} {c c' : HookInstallFileClass} (h : HasClass name c) (h' : HasClass name c') :
    c = c' := (classify_iff.mpr h).symm.trans (classify_iff.mpr h')

/-! ## What the writers wrote is read back -/

theorem nearestNumber_safe {n : Nat} (h : n ≤ 9007199254740991) : nearestNumber n = some n := by
  have hshift : n.log2 - 52 = 0 := by
    rcases Nat.eq_zero_or_pos n with rfl | hpos
    · rfl
    · have hlog : n.log2 < 53 := (Nat.log2_lt (by omega)).mpr (by omega)
      omega
  have hsmall : n < 2 ^ 53 := by omega
  have hgrows : ∀ e, 53 ≤ e → n < 2 ^ e := fun e he => lt_of_lt_of_le hsmall (Nat.pow_le_pow_right (by decide) he)
  have hexact : ¬ (1 < 2 * 0 ∨ (2 * 0 = 1 ∧ n % 2 = 1)) := by omega
  simp only [nearestNumber, hshift, Nat.pow_zero, Nat.div_one, Nat.mod_one, if_neg hexact, Nat.mul_one, -Nat.reducePow]
  exact if_pos (hgrows 1024 (by decide))

theorem digitsNumber_text (pid : ProcessId) : digitsNumber (digitsText pid.value) = some pid.value := by
  rw [digitsNumber, digitsValue_digitsText, nearestNumber_safe pid.safe]

theorem run_digitsText (n : Nat) : Run isDigit (digitsText n) := by
  obtain ⟨d, rest, htext, hd, hrest, -⟩ := digitsText_shape n
  rw [htext]
  exact ⟨List.cons_ne_nil d rest, List.forall_mem_cons.mpr ⟨hd, hrest⟩⟩

theorem isBase36_hexDigit {d : Nat} (h : d < 36) : isBase36 (Json.hexDigit d) = true := by
  revert d
  decide

theorem isLowerHex_hexDigit {d : Nat} (h : d < 16) : isLowerHex (Json.hexDigit d) = true := by
  revert d
  decide

theorem run_base36Text (n : Nat) : Run isBase36 (base36Text n) := by
  unfold base36Text
  split
  · refine ⟨List.cons_ne_nil _ _, fun u hu => ?_⟩
    rw [List.mem_singleton.mp hu]
    rfl
  · rename_i hn
    have hdigits : Nat.digits 36 n ≠ [] := Nat.digits_ne_nil_iff_ne_zero.mpr hn
    refine ⟨by simpa using hdigits, fun u hu => ?_⟩
    obtain ⟨d, hd, rfl⟩ := List.mem_map.mp hu
    exact isBase36_hexDigit (Nat.digits_lt_base (by decide) (List.mem_reverse.mp hd))

theorem hexText_length (bytes : List UInt8) : (hexText bytes).length = 2 * bytes.length := by
  induction bytes with
  | nil => rfl
  | cons b bytes ih =>
    rw [hexText, List.flatMap_cons, List.length_append, ← hexText, ih, List.length_cons]
    simp only [List.length_cons, List.length_nil]
    omega

theorem isLowerHex_hexText (bytes : List UInt8) : ∀ u ∈ hexText bytes, isLowerHex u = true := by
  intro u hu
  obtain ⟨b, -, hu⟩ := List.mem_flatMap.mp hu
  have hb := b.toNat_lt
  rcases List.mem_cons.mp hu with rfl | hu
  · exact isLowerHex_hexDigit (by omega)
  · cases List.mem_singleton.mp hu
    exact isLowerHex_hexDigit (by omega)

/-- A token holds a unit, and neither the separator nor a slash. -/
theorem run_token {token : JsString} (hne : token ≠ []) (hsep : 0x5F ∉ token) (hslash : 0x2F ∉ token) :
    Run isTokenUnit token := by
  refine ⟨hne, fun u hu => ?_⟩
  have hunder : u ≠ 0x5F := fun h => hsep (h ▸ hu)
  have hpath : u ≠ 0x2F := fun h => hslash (h ▸ hu)
  have hout : HOOK_INSTALL_OWNER_SEPARATOR.contains u = false := by
    simpa [show HOOK_INSTALL_OWNER_SEPARATOR = [0x5F] from rfl] using hunder
  simp only [isTokenUnit, hout, bne_iff_ne.mpr hpath, Bool.not_false, Bool.and_self]

theorem classify_install (pid : ProcessId) {token : JsString} (htoken : Run isTokenUnit token)
    (kind : HookInstallFileKind) :
    classifyHookInstallFileName (hookInstallFileName pid token kind) = .owned (some pid.value) kind := by
  rw [← digitsNumber_text pid]
  refine classify_named (.owned (digitsText pid.value) _ kind (run_digitsText pid.value) (.settled token htoken rfl) ?_)
  simp only [hookInstallFileName, List.append_assoc, separator_append, dot_append, dot_json, List.cons_append]

theorem classify_installTemp (pid writer : ProcessId) {token : JsString} (htoken : Run isTokenUnit token)
    (kind : HookInstallFileKind) (now : Nat) :
    classifyHookInstallFileName (tempStateFileName (hookInstallFileName pid token kind) writer now) =
      .owned (some pid.value) kind := by
  rw [← digitsNumber_text pid]
  refine classify_named (.owned (digitsText pid.value) _ kind (run_digitsText pid.value)
    (.interrupted token (digitsText writer.value) (base36Text now) htoken (run_digitsText writer.value)
      (run_base36Text now) rfl) ?_)
  simp only [tempStateFileName, hookInstallFileName, List.append_assoc, separator_append, dot_append, dot_json, dot_tmp,
    List.cons_append]

theorem classify_hookTemp {bytes : List UInt8} (h : bytes.length = 8) :
    classifyHookInstallFileName (hookTempFileName bytes) = .hookTemp :=
  classify_named (.hookTemp (hexText bytes) (by rw [hexText_length, h]) (isLowerHex_hexText bytes) rfl)

end Ccctl.Server
