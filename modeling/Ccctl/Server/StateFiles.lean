import Ccctl.Core.Spelt
import Ccctl.Lib.AtomicFile
import Ccctl.Lib.Segments
import Ccctl.Server.HookInstallFile
import Ccctl.Server.SessionStore
/-
  Ccctl.Server.StateFiles — the state files on disk, under several processes at once
  (`packages/server/src/session-store-file.ts`: `FileSessionStore.save` and `load`, with
  `device-store-file.ts`'s, which is the same to the letter but for the filter).

  Saves overlap, within a process and across; they fail and are cut off by a death anywhere, and a
  process number comes round again. The temporary file is named by the process and its count.

  - `session_store_read`: whenever the file is read, a load answers with the rows that the save that
    landed last was called with, less those registering; before any landed, with what was there. A
    save that is acknowledged has landed, and one that is rejected has not.
  - `state_file_private`: a file written by a save has the mode exactly, one beside it never more,
    and is there only for a save under way, a process that died, or a removal that failed.

  Outside: the directory's own mode, and numbers that two hosts sharing the directory both use.
-/

namespace Ccctl.Server.StateFiles

open Ccctl.Core Ccctl.Lib Ccctl.Server.SessionStore

/-- `0o600`; `DEVICE_STORE_FILE_MODE` is the same. -/
def SESSION_STORE_FILE_MODE : AtomicFile.Mode := 0o600

def tempPath (filePath : JsString) (pid saveSequence : Nat) : JsString :=
  filePath ++ js "." ++ digitsText pid ++ js "." ++ base36Text saveSequence ++ js ".tmp"

/-! ## The names are apart -/

def base36Digit (u : UInt16) : Nat := if u.toNat < 0x3A then u.toNat - 0x30 else u.toNat - 0x57

theorem base36Text_value (n : Nat) : Nat.ofDigits 36 ((base36Text n).reverse.map base36Digit) = n := by
  unfold base36Text
  split
  · rename_i hn
    rw [hn]
    rfl
  · have hdigit : ∀ d < 36, base36Digit (Json.hexDigit d) = d := by decide
    have hdigits : ((Nat.digits 36 n).map Json.hexDigit).map base36Digit = Nat.digits 36 n := by
      rw [List.map_map]
      exact (List.map_congr_left fun d hd => hdigit d (Nat.digits_lt_base (by decide) hd)).trans (List.map_id _)
    rw [← List.map_reverse, List.reverse_reverse, hdigits, Nat.ofDigits_digits]

theorem base36Text_injective {n m : Nat} (h : base36Text n = base36Text m) : n = m := by
  rw [← base36Text_value n, h, base36Text_value]

theorem digitsText_injective {n m : Nat} (h : digitsText n = digitsText m) : n = m := by
  rw [← digitsValue_digitsText n, h, digitsValue_digitsText]

theorem dot_digitsText (n : Nat) : (0x2E : UInt16) ∉ digitsText n := by
  intro hmem
  have hdigit := (run_digitsText n).2 _ hmem
  cases hdigit

theorem tempPath_injective {filePath : JsString} {pid seq pid' seq' : Nat}
    (h : tempPath filePath pid seq = tempPath filePath pid' seq') : pid = pid' ∧ seq = seq' := by
  simp only [tempPath, List.append_assoc] at h
  have h := List.append_cancel_left h
  have h := List.append_cancel_left h
  have hdot : ∀ rest, js "." ++ rest = 0x2E :: rest := fun _ => rfl
  simp only [hdot] at h
  obtain ⟨hpid, hrest⟩ := Segments.append_sep_inj (dot_digitsText pid) (dot_digitsText pid') h
  exact ⟨digitsText_injective hpid, base36Text_injective (List.append_cancel_right hrest)⟩

theorem tempPath_ne (filePath : JsString) (pid seq : Nat) : tempPath filePath pid seq ≠ filePath := by
  intro h
  have hlength := congrArg List.length h
  simp only [tempPath, List.length_append] at hlength
  have hdot : (js ".").length = 1 := rfl
  omega

def stateFileRules (filePath : JsString) : AtomicFile.Rules JsString :=
  ⟨filePath, tempPath filePath, SESSION_STORE_FILE_MODE, tempPath_injective, tempPath_ne filePath⟩

/-! ## Reading -/

/-- `readFile(path, "utf8")`. -/
def readFile : Option (AtomicFile.File Nat) → FileRead
  | none => .enoent
  | some file => .text (encode (utf8Decode file.content))

variable (host : JsonHost)

/-- The bytes of a saved snapshot. -/
def snapshotBytes (snapshot : Json) : List Nat := formBytes (Json.stringifyIndented host snapshot ++ [0x0A])

variable {host}

theorem readFile_snapshot (snapshot : Json) (mode : AtomicFile.Mode) :
    readFile (some ⟨snapshotBytes host snapshot, mode⟩) = .text (Json.stringifyIndented host snapshot ++ [0x0A]) := by
  have hfeed : Scalars [0x0A] := ⟨[0x0A], by decide, by decide⟩
  have htext : Scalars (Json.stringifyIndented host snapshot ++ [0x0A]) := (Json.scalars_indented host snapshot).append hfeed
  rw [readFile, snapshotBytes, htext.readBack]

/-! ## The session store -/

variable (host) in
/-- A save is called with a snapshot of the declared shape. -/
structure Saves (snapshot : Json) (content : List Nat) : Prop where
  shape : isSnapshot snapshot = true
  wellFormed : snapshot.WellFormed host
  version : isVersion (snapshot.get (js "version")) = true
  written : ∃ text, FileSessionStore.save host snapshot = .ok text ∧ content = formBytes text

variable (host) in
def savesSnapshots (_ : AtomicFile.Disk JsString Nat) : AtomicFile.Event Nat → Prop
  | .called _ content => ∃ snapshot, Saves host snapshot content
  | _ => True

variable (host) in
abbrev SessionStoreRun (store : FileSessionStore) (initial : Option (AtomicFile.File Nat)) :
    AtomicFile.Disk JsString Nat → Prop :=
  Reach (AtomicFile.step (stateFileRules store.filePath)) (AtomicFile.Start (stateFileRules store.filePath) initial)
    (savesSnapshots host)

/-- What is saved is read back as what the filter left of it. -/
theorem Saves.loads {snapshot : Json} {content : List Nat} (h : Saves host snapshot content) (store : FileSessionStore)
    (mode : AtomicFile.Mode) :
    ∃ persisted, persistableSnapshot snapshot = .ok persisted ∧ ¬ HasRegistering persisted ∧
      store.load host (readFile (some ⟨content, mode⟩)) = .ok (some persisted) := by
  obtain ⟨persisted, hpersisted, -⟩ := persistable_snapshot h.shape
  obtain ⟨hnone, hagain, -⟩ := persistable_facts hpersisted
  obtain ⟨text, hsave, rfl⟩ := h.written
  have htext : text = Json.stringifyIndented host persisted ++ [0x0A] := by
    rw [FileSessionStore.save, hpersisted] at hsave
    exact (Except.ok.inj hsave).symm
  refine ⟨persisted, hpersisted, hnone, ?_⟩
  rw [htext, ← snapshotBytes, readFile_snapshot]
  refine load_saved host store (persistable_wellFormed host h.wellFormed hpersisted) ?_ hagain
  rw [persistable_version hpersisted]
  exact h.version

/-- At every moment of a run. -/
theorem session_store_read {store : FileSessionStore} {initial : Option (AtomicFile.File Nat)}
    {s : AtomicFile.Disk JsString Nat} (h : SessionStoreRun host store initial s) :
    (s.landed = [] ∧ s.files store.filePath = initial ∨
      ∃ i save snapshot persisted, s.landed.getLast? = some i ∧ s.saves[i]? = some save ∧
        Saves host snapshot save.content ∧ persistableSnapshot snapshot = .ok persisted ∧ ¬ HasRegistering persisted ∧
        store.load host (readFile (s.files store.filePath)) = .ok (some persisted)) ∧
    ∀ (i : Nat) save, s.saves[i]? = some save →
      (save.phase = .fulfilled → i ∈ s.landed) ∧ ∀ left, save.phase = .rejected left → i ∉ s.landed := by
  have hok : AtomicFile.Ok (stateFileRules store.filePath) initial s :=
    AtomicFile.Run.ok (h.mono fun _ _ _ => trivial)
  refine ⟨?_, fun i save hi => hok.told hi⟩
  rcases hok.landed_last with hnone | ⟨i, save, hlast, hi, hfile⟩
  · exact .inl hnone
  · obtain ⟨snapshot, hsaves⟩ : ∃ snapshot, Saves host snapshot save.content :=
      AtomicFile.run_contents (P := fun content => ∃ snapshot, Saves host snapshot content) h (fun _ _ _ hcalled => hcalled) hi
    obtain ⟨persisted, hpersisted, hnone, hload⟩ := hsaves.loads store SESSION_STORE_FILE_MODE
    have hfile : s.files store.filePath = some ⟨save.content, SESSION_STORE_FILE_MODE⟩ := hfile
    exact .inr ⟨i, save, snapshot, persisted, hlast, hi, hsaves, hpersisted, hnone, hfile ▸ hload⟩

def savedBytes (snapshot : Json) : List Nat :=
  match FileSessionStore.save integerHost snapshot with
  | .ok text => formBytes text
  | .error _ => []

def launching : Json := snapshotOf [row (js "a") (js "ready"), row (js "b") (js "registering")] []

/-- One process dies while it writes; another's save, called later, lands. -/
def overlapping : List (AtomicFile.Event Nat) :=
  [.spawned 7, .spawned 8, .called 7 (savedBytes (snapshotOf [] [])), .called 8 (savedBytes launching), .ran 0 0 0,
    .ran 0 0o22 0, .ran 0 0 20, .ran 1 0 0, .ran 1 0o22 0, .died 7, .ran 1 0 10, .ran 1 0 1000, .ran 1 0 0, .ran 1 0 0, .ran 1 0 0]

/-- A file that others may read is there. -/
def looseDisk : AtomicFile.Disk JsString Nat :=
  ⟨fun name => if name = stateFile.filePath then some ⟨[], 0o644⟩ else none, fun _ => none, [], []⟩

theorem looseDisk_start :
    AtomicFile.Start (stateFileRules stateFile.filePath) (some ⟨[], 0o644⟩) looseDisk := by
  refine ⟨fun _ => rfl, rfl, rfl, by decide, fun pid seq => ?_⟩
  have hne : tempPath stateFile.filePath pid seq ≠ stateFile.filePath := tempPath_ne stateFile.filePath pid seq
  simp [looseDisk, stateFileRules, hne]

theorem saves_snapshotOf {rows : List Json} (hrows : ∀ r ∈ rows, r.WellFormed integerHost)
    (hshape : isSnapshot (snapshotOf rows []) = true) : Saves integerHost (snapshotOf rows []) (savedBytes (snapshotOf rows [])) := by
  refine ⟨hshape, snapshotOf_wellFormed hrows (by simp), rfl, ?_⟩
  obtain ⟨persisted, hpersisted, -⟩ := persistable_snapshot hshape
  refine ⟨Json.stringifyIndented integerHost persisted ++ [0x0A], by rw [FileSessionStore.save, hpersisted]; rfl, ?_⟩
  rw [savedBytes, FileSessionStore.save, hpersisted]
  rfl

theorem session_store_read_overlapping :
    let s := runFrom (AtomicFile.step (stateFileRules stateFile.filePath)) looseDisk overlapping
    s.landed = [1] ∧ ∃ persisted, ¬ HasRegistering persisted ∧
      stateFile.load integerHost (readFile (s.files stateFile.filePath)) = .ok (some persisted) := by
  intro s
  have hlanded : s.landed = [1] := by decide +kernel
  have hstart : SessionStoreRun integerHost stateFile (some ⟨[], 0o644⟩) looseDisk := .start looseDisk_start
  have hnothing : Saves integerHost (snapshotOf [] []) (savedBytes (snapshotOf [] [])) := saves_snapshotOf (by simp) (by decide)
  have hlaunching : Saves integerHost launching (savedBytes launching) :=
    saves_snapshotOf (by simp [row_wellFormed]) (by decide)
  have hrun : SessionStoreRun integerHost stateFile (some ⟨[], 0o644⟩) s :=
    hstart.run_allowed ⟨trivial, trivial, ⟨_, hnothing⟩, ⟨_, hlaunching⟩, trivial, trivial, trivial, trivial, trivial,
      trivial, trivial, trivial, trivial, trivial, trivial, trivial⟩
  rcases (session_store_read hrun).1 with ⟨hnone, -⟩ | ⟨-, -, -, persisted, -, -, -, -, hnot, hload⟩
  · rw [hlanded] at hnone
    cases hnone
  · exact ⟨hlanded, persisted, hnot, hload⟩

/-- Whatever is saved; `phase.left?` is the name of a save under way, or one it may have left a file at. -/
theorem state_file_private {filePath : JsString} {initial : Option (AtomicFile.File Nat)} {s : AtomicFile.Disk JsString Nat}
    (h : AtomicFile.Run (stateFileRules filePath) initial s) :
    (s.landed ≠ [] → ∃ file, s.files filePath = some file ∧ file.mode = SESSION_STORE_FILE_MODE) ∧
    ∀ pid seq file, s.files (tempPath filePath pid seq) = some file →
      file.mode &&& ~~~SESSION_STORE_FILE_MODE = 0 ∧ ∃ save ∈ s.saves, save.pid = pid ∧ save.phase.left? = some seq := by
  have hok := AtomicFile.Run.ok h
  refine ⟨fun hne => ?_, fun pid seq file hfile => ⟨hok.within pid seq file hfile, ?_⟩⟩
  · rcases hok.landed_last with ⟨hnone, -⟩ | ⟨i, save, -, -, hfile⟩
    · exact absurd hnone hne
    · exact ⟨_, hfile, rfl⟩
  · have hthere : s.files (tempPath filePath pid seq) ≠ none := by rw [hfile]; simp
    exact hok.owned pid seq hthere

theorem state_file_private_overlapping :
    let s := runFrom (AtomicFile.step (stateFileRules stateFile.filePath)) looseDisk overlapping
    (∃ file, s.files stateFile.filePath = some file ∧ file.mode = SESSION_STORE_FILE_MODE) ∧
    ∃ file, s.files (tempPath stateFile.filePath 7 0) = some file ∧ file.content.length = 20 ∧
      file.mode &&& ~~~SESSION_STORE_FILE_MODE = 0 := by
  intro s
  have hstart : AtomicFile.Run (stateFileRules stateFile.filePath) (some ⟨[], 0o644⟩) looseDisk := .start looseDisk_start
  have hrun : AtomicFile.Run (stateFileRules stateFile.filePath) (some ⟨[], 0o644⟩) s := hstart.run
  have hlanded : s.landed ≠ [] := by decide +kernel
  have hleft : (s.files (tempPath stateFile.filePath 7 0)).map (·.content.length) = some 20 := by decide +kernel
  obtain ⟨file, hfile, hlength⟩ := Option.map_eq_some_iff.mp hleft
  have hprivate := state_file_private hrun
  exact ⟨hprivate.1 hlanded, file, hfile, hlength, (hprivate.2 7 0 file hfile).1⟩

end Ccctl.Server.StateFiles
