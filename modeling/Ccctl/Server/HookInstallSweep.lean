import Ccctl.Server.HookInstallFile
/-
  Ccctl.Server.HookInstallSweep — the sweep of the hook state directory at start
  (`packages/server/src/hook-install-sweep.ts`: `isProcessAlive`, `unlinkWithinStateDir`,
  `isUnownedFileAgedOut`, `shouldReap`, `sweepOrphanedHookInstalls`).

  The loop asks the host at every entry, and between two entries other processes start, exit and
  write: `host` is what the host answers while the loop is at the entry of that turn. `attempts`
  records the calls of `unlinkWithinStateDir`, which the source keeps as one of two counts.

  - `due_iff`: an entry is handed to the delete exactly if it is `Reapable`.
  - `sweepEntries_attempts` / `sweepEntries_counted`: over the whole listing, by what one entry adds.
  - `sweep_dead`: what the writers wrote is recognised, and of any listing the sweep attempts the dead and no other.
  - `emptyToken_foreign`: an install named with no token at all is nobody's.
-/

namespace Ccctl.Server

open Ccctl.Core Ccctl.Lib

/-! ## The host -/

inductive KillAnswer where
  | delivered
  | thrown (code : JsString)

/-- `process.kill(pid, 0)` of a number; `none` is `Infinity`. -/
def isProcessAlive (kill : Nat → KillAnswer) : Option Nat → Bool
  | none => false
  | some pid =>
    if pid = 0 then false
    else match kill pid with
      | .delivered => true
      | .thrown code => code = js "EPERM"

inductive FileType where
  | file | directory | symbolicLink | other
  deriving DecidableEq, Repr

/-- One entry of `readdirSync(dir, { withFileTypes: true })`. -/
structure Dirent where
  name : JsString
  type : FileType

structure SweepHost where
  isAlive : Option Nat → Bool
  /-- `statSync(path).mtimeMs`, unless it throws. -/
  mtimeMs : Path → Option Rat
  /-- `realpathSync.native(path)`, unless it throws. -/
  realpath : Path → Option Path
  /-- Whether `unlinkSync(path)` returns. -/
  unlink : Path → Bool

/-- The options with their defaults in; the directory is an absolute path with no slash at its end. -/
structure HookInstallSweepOptions where
  stateDir : Path
  ownPid : Option Nat
  now : Rat

def LEGACY_HOOK_INSTALL_GRACE_MS : Rat := 24 * 60 * 60 * 1000

/-- `join` of a directory and a name. -/
def join (dir : Path) (name : JsString) : Path := dir ++ js "/" ++ name

/-- `dirname` of a resolved path. -/
def dirname (path : Path) : Path :=
  let dir := (path.reverse.dropWhile (· ≠ 0x2F)).tail.reverse
  if dir = [] then js "/" else dir

/-! ## The sweep -/

def unlinkWithinStateDir (host : SweepHost) (stateDir : Path) (fileName : JsString) : Bool :=
  let path := join stateDir fileName
  match host.realpath path, host.realpath stateDir with
  | some resolvedPath, some resolvedDir => if dirname resolvedPath ≠ resolvedDir then false else host.unlink path
  | _, _ => false

def isUnownedFileAgedOut (host : SweepHost) (stateDir : Path) (fileName : JsString) (now : Rat) : Bool :=
  match host.mtimeMs (join stateDir fileName) with
  | some mtimeMs => LEGACY_HOOK_INSTALL_GRACE_MS ≤ now - mtimeMs
  | none => false

def shouldReap (host : SweepHost) (classified : HookInstallFileClass) (fileName : JsString)
    (options : HookInstallSweepOptions) : Bool :=
  match classified with
  | .owned ownerPid _ => ownerPid = options.ownPid || !host.isAlive ownerPid
  | .legacy _ => isUnownedFileAgedOut host options.stateDir fileName options.now
  | .hookTemp => isUnownedFileAgedOut host options.stateDir fileName options.now
  | .foreign => false

/-- A call of `unlinkWithinStateDir`: the turn and the entry it was made for, and its answer. -/
structure Attempt where
  turn : Nat
  name : JsString
  unlinked : Bool

/-- `HookInstallSweepOutcome`, and the deletes attempted. -/
structure Swept where
  reaped : Nat
  retained : Nat
  attempts : List Attempt

/-- Whether the loop goes on to the delete. -/
def due (options : HookInstallSweepOptions) (host : SweepHost) (entry : Dirent) : Bool :=
  entry.type = .file && shouldReap host (classifyHookInstallFileName entry.name) entry.name options

def sweepEntry (options : HookInstallSweepOptions) (host : SweepHost) (turn : Nat) (s : Swept) (entry : Dirent) :
    Swept :=
  if !due options host entry then { s with retained := s.retained + 1 }
  else
    let unlinked := unlinkWithinStateDir host options.stateDir entry.name
    let attempts := s.attempts ++ [(⟨turn, entry.name, unlinked⟩ : Attempt)]
    if unlinked then ⟨s.reaped + 1, s.retained, attempts⟩ else ⟨s.reaped, s.retained + 1, attempts⟩

def sweepEntries (options : HookInstallSweepOptions) (host : Nat → SweepHost) : Nat → Swept → List Dirent → Swept
  | _, s, [] => s
  | turn, s, entry :: rest => sweepEntries options host (turn + 1) (sweepEntry options (host turn) turn s entry) rest

/-- The listing is `none` where `readdirSync` throws. -/
def sweepOrphanedHookInstalls (options : HookInstallSweepOptions) (listing : Option (List Dirent))
    (host : Nat → SweepHost) : Swept :=
  match listing with
  | none => ⟨0, 0, []⟩
  | some entries => sweepEntries options host 0 ⟨0, 0, []⟩ entries

/-! ## The guard before the delete -/

theorem dirname_join {dir : Path} {name : JsString} (hdir : dir ≠ []) (hname : 0x2F ∉ name) :
    dirname (join dir name) = dir := by
  have hskip : ∀ u ∈ name.reverse, decide (u ≠ 0x2F) = true := by
    intro u hu
    refine decide_eq_true ?_
    intro heq
    subst heq
    exact hname (List.mem_reverse.mp hu)
  have hreverse : (join dir name).reverse = name.reverse ++ 0x2F :: dir.reverse := by
    simp [join, show js "/" = [0x2F] from rfl]
  rw [dirname, hreverse, List.dropWhile_append_of_pos hskip, List.dropWhile_cons_of_neg (by decide), List.tail_cons,
    List.reverse_reverse]
  exact if_neg hdir

/-- An entry that resolves into the directory passes the guard. -/
theorem unlinkWithin_direct {host : SweepHost} {stateDir resolvedDir : Path} {name : JsString} (hname : 0x2F ∉ name)
    (hdir : resolvedDir ≠ []) (hstate : host.realpath stateDir = some resolvedDir)
    (hentry : host.realpath (join stateDir name) = some (join resolvedDir name)) :
    unlinkWithinStateDir host stateDir name = host.unlink (join stateDir name) := by
  simp only [unlinkWithinStateDir, hstate, hentry, dirname_join hdir hname, ne_eq, not_true_eq_false, if_false]

/-! ## What is dead -/

/-- Unmodified for the grace period or longer. -/
def AgedOut (options : HookInstallSweepOptions) (host : SweepHost) (name : JsString) : Prop :=
  ∃ mtimeMs, host.mtimeMs (join options.stateDir name) = some mtimeMs ∧
    LEGACY_HOOK_INSTALL_GRACE_MS ≤ options.now - mtimeMs

/-- A regular file whose owner is this process or is dead, or that has no owner and is old enough. -/
def Reapable (options : HookInstallSweepOptions) (host : SweepHost) (entry : Dirent) : Prop :=
  entry.type = .file ∧
    ((∃ pid role, HasClass entry.name (.owned pid role) ∧ (pid = options.ownPid ∨ host.isAlive pid = false)) ∨
      (((∃ role, HasClass entry.name (.legacy role)) ∨ HasClass entry.name .hookTemp) ∧
        AgedOut options host entry.name))

theorem isUnownedFileAgedOut_iff {options : HookInstallSweepOptions} {host : SweepHost} {name : JsString} :
    isUnownedFileAgedOut host options.stateDir name options.now = true ↔ AgedOut options host name := by
  unfold isUnownedFileAgedOut AgedOut
  cases host.mtimeMs (join options.stateDir name) with
  | none => simp
  | some mtimeMs => simp

theorem due_iff {options : HookInstallSweepOptions} {host : SweepHost} {entry : Dirent} :
    due options host entry = true ↔ Reapable options host entry := by
  simp only [due, Reapable, Bool.and_eq_true, decide_eq_true_eq, ← classify_iff]
  refine and_congr_right fun _ => ?_
  cases classifyHookInstallFileName entry.name with
  | owned pid role => simp [shouldReap]
  | legacy role => simp [shouldReap, isUnownedFileAgedOut_iff]
  | hookTemp => simp [shouldReap, isUnownedFileAgedOut_iff]
  | foreign => simp [shouldReap]

/-- A foreign name is not reapable, nor is a file of another process that is alive. -/
theorem Reapable.spares {options : HookInstallSweepOptions} {host : SweepHost} {entry : Dirent}
    (h : Reapable options host entry) : ¬ HasClass entry.name .foreign ∧
      ∀ pid role, HasClass entry.name (.owned pid role) → pid ≠ options.ownPid → host.isAlive pid = false := by
  obtain ⟨pid, role, howned, hdead⟩ | ⟨⟨role, hlegacy⟩ | htemp, -⟩ := h.2
  · refine ⟨fun hforeign => ?_, fun pid' role' howned' hother => ?_⟩
    · cases howned.unique hforeign
    · cases howned.unique howned'
      exact hdead.resolve_left hother
  · refine ⟨fun hforeign => ?_, fun pid' role' howned' _ => ?_⟩
    · cases hlegacy.unique hforeign
    · cases hlegacy.unique howned'
  · refine ⟨fun hforeign => ?_, fun pid' role' howned' _ => ?_⟩
    · cases htemp.unique hforeign
    · cases htemp.unique howned'

/-! ## One entry, then the listing -/

/-- Every entry is counted once, and the reaped are the deletes that answered. -/
structure Counted (s : Swept) (entries : Nat) : Prop where
  total : s.reaped + s.retained = entries
  reaped : s.reaped = s.attempts.countP Attempt.unlinked

def attemptOf (options : HookInstallSweepOptions) (host : Nat → SweepHost) (entry : Dirent × Nat) : Attempt :=
  ⟨entry.2, entry.1.name, unlinkWithinStateDir (host entry.2) options.stateDir entry.1.name⟩

theorem sweepEntry_attempts (options : HookInstallSweepOptions) (host : Nat → SweepHost) (turn : Nat) (s : Swept)
    (entry : Dirent) : (sweepEntry options (host turn) turn s entry).attempts =
      s.attempts ++ if due options (host turn) entry then [attemptOf options host (entry, turn)] else [] := by
  unfold sweepEntry attemptOf
  cases due options (host turn) entry with
  | false => exact (List.append_nil s.attempts).symm
  | true =>
    cases unlinkWithinStateDir (host turn) options.stateDir entry.name with
    | false => rfl
    | true => rfl

theorem sweepEntry_counted (options : HookInstallSweepOptions) (host : SweepHost) (turn : Nat) {s : Swept} {n : Nat}
    (h : Counted s n) (entry : Dirent) : Counted (sweepEntry options host turn s entry) (n + 1) := by
  have htotal := h.total
  have hreaped := h.reaped
  unfold sweepEntry
  cases due options host entry with
  | false => exact ⟨congrArg (· + 1) htotal, hreaped⟩
  | true =>
    cases unlinkWithinStateDir host options.stateDir entry.name with
    | false => exact ⟨congrArg (· + 1) htotal, by simp [hreaped]⟩
    | true =>
      refine ⟨?_, by simp [hreaped]⟩
      show s.reaped + 1 + s.retained = n + 1
      omega

theorem sweepEntries_counted (options : HookInstallSweepOptions) (host : Nat → SweepHost) (entries : List Dirent)
    (turn : Nat) {s : Swept} {n : Nat} (h : Counted s n) :
    Counted (sweepEntries options host turn s entries) (n + entries.length) := by
  induction entries generalizing turn s n with
  | nil => exact h
  | cons entry rest ih =>
    have hrest := ih (turn + 1) (sweepEntry_counted options (host turn) turn h entry)
    rwa [Nat.add_assoc, Nat.add_comm 1] at hrest

theorem sweepEntries_attempts (options : HookInstallSweepOptions) (host : Nat → SweepHost) (entries : List Dirent)
    (turn : Nat) (s : Swept) : (sweepEntries options host turn s entries).attempts =
      s.attempts ++
        ((entries.zipIdx turn).filter fun e => due options (host e.2) e.1).map (attemptOf options host) := by
  induction entries generalizing turn s with
  | nil => exact (List.append_nil s.attempts).symm
  | cons entry rest ih =>
    rw [sweepEntries, ih, sweepEntry_attempts, List.zipIdx_cons, List.filter_cons, List.append_assoc]
    cases due options (host turn) entry with
    | false => rfl
    | true => rfl

/-! ## The whole sweep -/

/-- An attempt is made at a turn exactly if the entry there is reapable. -/
theorem mem_attempts {options : HookInstallSweepOptions} {host : Nat → SweepHost} {entries : List Dirent}
    {a : Attempt} :
    a ∈ (sweepOrphanedHookInstalls options (some entries) host).attempts ↔
      ∃ entry, entries[a.turn]? = some entry ∧ Reapable options (host a.turn) entry ∧
        a = attemptOf options host (entry, a.turn) := by
  simp only [sweepOrphanedHookInstalls, sweepEntries_attempts, List.nil_append, List.mem_map, List.mem_filter,
    List.mem_zipIdx_iff_getElem?, due_iff]
  constructor
  · intro hex
    obtain ⟨⟨entry, turn⟩, ⟨hentry, hdue⟩, rfl⟩ := hex
    exact ⟨entry, hentry, hdue, rfl⟩
  · intro hex
    obtain ⟨entry, hentry, hdue, ha⟩ := hex
    exact ⟨(entry, a.turn), ⟨hentry, hdue⟩, ha.symm⟩

theorem attempts_ordered (options : HookInstallSweepOptions) (host : Nat → SweepHost) (entries : List Dirent) :
    (sweepOrphanedHookInstalls options (some entries) host).attempts.Pairwise fun a b => a.turn < b.turn := by
  have hturns : (entries.zipIdx 0).Pairwise fun e f => e.2 < f.2 := by
    have hrange : ((entries.zipIdx 0).map Prod.snd).Pairwise (· < ·) := by
      rw [List.zipIdx_map_snd]
      exact List.pairwise_lt_range'
    exact List.pairwise_map.mp hrange
  rw [sweepOrphanedHookInstalls, sweepEntries_attempts, List.nil_append]
  exact List.pairwise_map.mpr (hturns.sublist List.filter_sublist)

/-- What a sweep of a listing does. -/
structure SweptDead (options : HookInstallSweepOptions) (host : Nat → SweepHost) (entries : List Dirent) (s : Swept) :
    Prop where
  /-- The turns with an attempt are those of the reapable entries. -/
  attempted : ∀ turn, (∃ a ∈ s.attempts, a.turn = turn) ↔
    ∃ entry, entries[turn]? = some entry ∧ Reapable options (host turn) entry
  once : s.attempts.Pairwise fun a b => a.turn < b.turn
  spared : ∀ a ∈ s.attempts, ∃ entry, entries[a.turn]? = some entry ∧ a.name = entry.name ∧
    a.unlinked = unlinkWithinStateDir (host a.turn) options.stateDir entry.name ∧ entry.type = .file ∧
    ¬ HasClass entry.name .foreign ∧
    ∀ pid role, HasClass entry.name (.owned pid role) → pid ≠ options.ownPid → (host a.turn).isAlive pid = false
  /-- The answer to an attempt is that of `unlinkSync` wherever the entry resolves into the directory. -/
  deleted : ∀ a ∈ s.attempts, ∀ resolvedDir, resolvedDir ≠ [] → 0x2F ∉ a.name →
    (host a.turn).realpath options.stateDir = some resolvedDir →
    (host a.turn).realpath (join options.stateDir a.name) = some (join resolvedDir a.name) →
    a.unlinked = (host a.turn).unlink (join options.stateDir a.name)
  counted : Counted s entries.length

theorem sweep_exact (options : HookInstallSweepOptions) (host : Nat → SweepHost) (entries : List Dirent) :
    SweptDead options host entries (sweepOrphanedHookInstalls options (some entries) host) := by
  refine ⟨?_, attempts_ordered options host entries, ?_, ?_, ?_⟩
  · intro turn
    constructor
    · intro hex
      obtain ⟨a, ha, rfl⟩ := hex
      obtain ⟨entry, hentry, hreap, -⟩ := mem_attempts.mp ha
      exact ⟨entry, hentry, hreap⟩
    · intro hex
      obtain ⟨entry, hentry, hreap⟩ := hex
      exact ⟨attemptOf options host (entry, turn), mem_attempts.mpr ⟨entry, hentry, hreap, rfl⟩, rfl⟩
  · intro a ha
    obtain ⟨entry, hentry, hreap, hattempt⟩ := mem_attempts.mp ha
    exact ⟨entry, hentry, congrArg Attempt.name hattempt, congrArg Attempt.unlinked hattempt, hreap.1, hreap.spares⟩
  · intro a ha resolvedDir hdir hname hstate hresolved
    obtain ⟨entry, -, -, hattempt⟩ := mem_attempts.mp ha
    have hentry : a.name = entry.name := congrArg Attempt.name hattempt
    have hunlinked : a.unlinked = unlinkWithinStateDir (host a.turn) options.stateDir entry.name :=
      congrArg Attempt.unlinked hattempt
    rw [hunlinked, ← hentry, unlinkWithin_direct hname hdir hstate hresolved]
  · have hcounted := sweepEntries_counted options host entries 0 (s := ⟨0, 0, []⟩) (n := 0) ⟨rfl, rfl⟩
    rwa [Nat.zero_add] at hcounted

/-- What the writers wrote is read back as they wrote it, every name has one class, and of any
    listing the sweep attempts the dead and no other. -/
theorem sweep_dead :
    (∀ (pid : ProcessId) (token : JsString) (kind : HookInstallFileKind), token ≠ [] → 0x5F ∉ token → 0x2F ∉ token →
      classifyHookInstallFileName (hookInstallFileName pid token kind) = .owned (some pid.value) kind ∧
      ∀ (writer : ProcessId) (now : Nat),
        classifyHookInstallFileName (tempStateFileName (hookInstallFileName pid token kind) writer now) =
          .owned (some pid.value) kind) ∧
    (∀ bytes : List UInt8, bytes.length = 8 → classifyHookInstallFileName (hookTempFileName bytes) = .hookTemp) ∧
    (∀ name c, classifyHookInstallFileName name = c ↔ HasClass name c) ∧
    ∀ (options : HookInstallSweepOptions) (host : Nat → SweepHost) (entries : List Dirent),
      SweptDead options host entries (sweepOrphanedHookInstalls options (some entries) host) := by
  refine ⟨fun pid token kind hne hsep hslash => ?_, fun bytes => classify_hookTemp, fun name c => classify_iff,
    sweep_exact⟩
  have htoken := run_token hne hsep hslash
  exact ⟨classify_install pid htoken kind, fun writer now => classify_installTemp pid writer htoken kind now⟩

def deadDaemon : ProcessId := ⟨7, by decide, by decide⟩

/-- A host where process 7 is gone, 8 runs, and 9 runs under another user. -/
def sharedHost : SweepHost where
  isAlive := isProcessAlive fun pid =>
    if pid = 8 then .delivered else if pid = 9 then .thrown (js "EPERM") else .thrown (js "ESRCH")
  mtimeMs := fun _ => some 0
  realpath := some
  unlink := fun path => path ≠ js "/hooks/10_c.handoff.json"

/-- A dead daemon's settings, a live one's, one of another user, a leftover of this process that is
    not to be removed, an old install, a directory, a foreign name. -/
def sharedListing : List Dirent :=
  [⟨js "7_a.settings.json", .file⟩, ⟨js "8_b.settings.json", .file⟩, ⟨js "9_b.settings.json.9.lk3z.tmp", .file⟩,
    ⟨js "10_c.handoff.json", .file⟩, ⟨js "d.settings.json", .file⟩, ⟨js "7_e.settings.json", .directory⟩,
    ⟨js "notes.txt", .file⟩]

def sharedOptions : HookInstallSweepOptions := ⟨js "/hooks", some 10, LEGACY_HOOK_INSTALL_GRACE_MS⟩

theorem sweep_dead_shared :
    classifyHookInstallFileName (hookInstallFileName deadDaemon (js "a") .settings) = .owned (some 7) .settings ∧
      SweptDead sharedOptions (fun _ => sharedHost) sharedListing
        (sweepOrphanedHookInstalls sharedOptions (some sharedListing) fun _ => sharedHost) :=
  ⟨(sweep_dead.1 deadDaemon (js "a") .settings (by decide) (by decide) (by decide)).1,
    sweep_dead.2.2.2 sharedOptions (fun _ => sharedHost) sharedListing⟩

example : (sweepOrphanedHookInstalls sharedOptions (some sharedListing) fun _ => sharedHost).attempts.map Attempt.turn =
    [0, 3, 4] := by decide +kernel

/-- A token of no units is a token without a separator or a slash, and its install has no owner. -/
theorem emptyToken_foreign :
    ¬ ∀ (pid : ProcessId) (token : JsString) (kind : HookInstallFileKind), 0x5F ∉ token → 0x2F ∉ token →
      classifyHookInstallFileName (hookInstallFileName pid token kind) = .owned (some pid.value) kind := by
  intro h
  have howned := h deadDaemon [] .settings (by decide) (by decide)
  have hname : hookInstallFileName deadDaemon [] .settings = js "7_.settings.json" := by
    simp [hookInstallFileName, deadDaemon, digitsText]
    decide
  rw [hname] at howned
  exact absurd howned (by decide)

end Ccctl.Server
