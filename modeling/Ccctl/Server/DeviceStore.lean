import Ccctl.Server.StateFiles
/-
  Ccctl.Server.DeviceStore — the paired devices on disk, and the panic kill that wipes them
  (`packages/server/src/device-store-file.ts`: `FileDeviceStore.load` and `save`;
  `device-revoke-all.ts`: `revokeAllPairedDevices`; `packages/core/src/index.ts`:
  `revokeAllDevices`).

  Any number of `ccctl revoke-all` run at once, each a process that reads the registry, writes it
  without a device, and says how many there were. Nothing holds the file between the read and the
  write, so two of them read the same devices and both write; a write of one can land after the
  other has said its count, and any may fail or die, one whose write has landed too (`AtomicFile`).

  In every such run the file is what it was, or that without its devices and with everything else
  (`revoke_all`); as soon as one has said a count, it holds no device and stays so; and a count said
  is that of the devices there were, or zero.
-/

namespace Ccctl.Server.DeviceStore

open Ccctl.Core Ccctl.Lib Ccctl.Server.SessionStore Ccctl.Server.StateFiles

def DEVICE_STORE_SNAPSHOT_VERSION : Rat := 1

structure FileDeviceStore where
  filePath : JsString

def isDeviceVersion : Option Json → Bool
  | some (.num q) => q = DEVICE_STORE_SNAPSHOT_VERSION
  | _ => false

section
variable (host : JsonHost)

def FileDeviceStore.branded (store : FileDeviceStore) (rest : JsString) : StoreError :=
  .branded (js "ccctl: the device-store snapshot at " ++ store.filePath ++ rest)

/-- `ok none` is `null`. -/
def FileDeviceStore.load (store : FileDeviceStore) : FileRead → Except StoreError (Option Json)
  | .enoent => .ok none
  | .failed => .error .io
  | .text raw =>
    match Json.parse host raw with
    | none => .error (store.branded (js " is not valid JSON — remove the file to start fresh."))
    | some parsed =>
      if !isObjectType parsed then
        .error (store.branded (js " is not a JSON object — remove the file to start fresh."))
      else if !isDeviceVersion (parsed.get (js "version")) then
        match versionText host (parsed.get (js "version")) with
        | none => .error .typeError
        | some version =>
          .error (store.branded (js " is version " ++ version ++ js ", but this build reads version " ++
            host.numberText DEVICE_STORE_SNAPSHOT_VERSION ++ js " — remove the file to start fresh."))
      else .ok (some parsed)

end

/-- `{ ...snapshot, devices: [] }`. -/
def revokeAllDevices (snapshot : Json) : Json := .obj (Json.setProp snapshot.entries (js "devices") (.arr []))

/-! ## Panic kills -/

inductive RevokeStage where
  | loading
  | saving (save revokedCount : Nat)
  | reported (revokedCount : Nat)
  | failed
  | lost
  deriving DecidableEq, Repr

structure RevokeAll where
  pid : Nat
  stage : RevokeStage
  deriving DecidableEq, Repr

structure DeviceHost where
  disk : AtomicFile.Disk JsString Nat
  calls : List RevokeAll

inductive DeviceEvent where
  /-- A process starts or dies, or a step of a save is over. -/
  | disk (e : AtomicFile.Event Nat)
  | revokeAll (pid : Nat)
  | loaded (n : Nat) (read : Bool)
  | settled (n : Nat)

namespace DeviceHost

def setStage (s : DeviceHost) (n : Nat) (stage : RevokeStage) : DeviceHost :=
  { s with calls := s.calls.modify n fun call => { call with stage } }

variable (host : JsonHost) (store : FileDeviceStore)

/-- What a load answers with now. -/
def loads (s : DeviceHost) : Except StoreError (Option Json) := store.load host (readFile (s.disk.files store.filePath))

/-- `revokeAllPairedDevices`, from its load to its save. The cast is unchecked; devices that are no
    array are left out. -/
def loaded (s : DeviceHost) (n : Nat) (read : Bool) : DeviceHost :=
  match s.calls[n]? with
  | some ⟨pid, .loading⟩ =>
    match if read then s.loads host store else .error .io with
    | .error _ => s.setStage n .failed
    | .ok none => s.setStage n (.reported 0)
    | .ok (some snapshot) =>
      match Json.asArray (snapshot.get (js "devices")) with
      | none => s.setStage n .failed
      | some [] => s.setStage n (.reported 0)
      | some devices =>
        if s.disk.running pid = none then s
        else
          let content := snapshotBytes host (revokeAllDevices snapshot)
          { s.setStage n (.saving s.disk.saves.length devices.length) with
            disk := AtomicFile.step (stateFileRules store.filePath) s.disk (.called pid content) }
  | _ => s

def settled (s : DeviceHost) (n : Nat) : DeviceHost :=
  match s.calls[n]? with
  | some ⟨_, .saving save revokedCount⟩ =>
    match s.disk.saves[save]? with
    | some ⟨_, _, .fulfilled⟩ => s.setStage n (.reported revokedCount)
    | some ⟨_, _, .rejected _⟩ => s.setStage n .failed
    | _ => s
  | _ => s

def lose (pid : Nat) (call : RevokeAll) : RevokeAll :=
  match call.stage with
  | .loading | .saving _ _ => if call.pid = pid then { call with stage := .lost } else call
  | .reported _ | .failed | .lost => call

end DeviceHost

open DeviceHost in
def deviceStep (host : JsonHost) (store : FileDeviceStore) (s : DeviceHost) : DeviceEvent → DeviceHost
  | .disk e =>
    let disk := AtomicFile.step (stateFileRules store.filePath) s.disk e
    match e with
    | .died pid => ⟨disk, s.calls.map (lose pid)⟩
    | _ => ⟨disk, s.calls⟩
  | .revokeAll pid => if s.disk.running pid = none then s else { s with calls := s.calls ++ [⟨pid, .loading⟩] }
  | .loaded n read => s.loaded host store n read
  | .settled n => s.settled n

/-- The registry that is on disk at first. -/
structure Registry (host : JsonHost) (before : Json) (devices : List Json) : Prop where
  wellFormed : before.WellFormed host
  version : isDeviceVersion (before.get (js "version")) = true
  devices : Json.asArray (before.get (js "devices")) = some devices

/-- Nothing runs yet, and the registry was saved. -/
structure DeviceStart (host : JsonHost) (store : FileDeviceStore) (before : Json) (s : DeviceHost) : Prop where
  disk : ∃ mode, AtomicFile.Start (stateFileRules store.filePath) (some ⟨snapshotBytes host before, mode⟩) s.disk
  calls : s.calls = []

/-- Panic kills are all that saves. -/
def onlyRevokes (_ : DeviceHost) : DeviceEvent → Prop
  | .disk (.called _ _) => False
  | _ => True

abbrev DeviceRun (host : JsonHost) (store : FileDeviceStore) (before : Json) : DeviceHost → Prop :=
  Reach (deviceStep host store) (DeviceStart host store before) onlyRevokes

/-! ## Loading what was saved -/

section
variable {host : JsonHost}

theorem load_saved_devices (store : FileDeviceStore) {snapshot : Json} (hwell : snapshot.WellFormed host)
    (hversion : isDeviceVersion (snapshot.get (js "version")) = true) (mode : AtomicFile.Mode) :
    store.load host (readFile (some ⟨snapshotBytes host snapshot, mode⟩)) = .ok (some snapshot) := by
  have hblank : Json.Blank [0x20, 0x20] := by simp [Json.Blank, Json.isJsonSpace]
  have hline : Json.Blank [0x0A] := by simp [Json.Blank, Json.isJsonSpace]
  have hobject : isObjectType snapshot = true := by
    cases snapshot with
    | obj fields => rfl
    | _ => cases hversion
  have hparse : Json.parse host (Json.stringifyIndented host snapshot ++ [0x0A]) = some snapshot :=
    Json.parse_render hblank hwell hline
  simp [readFile_snapshot, FileDeviceStore.load, hparse, hobject, hversion]

theorem revokeAllDevices_get (snapshot : Json) (wanted : JsString) :
    (revokeAllDevices snapshot).get wanted = if wanted = js "devices" then some (.arr []) else snapshot.get wanted := by
  rw [revokeAllDevices, Json.get_setProp]
  rfl

variable {before : Json} {devices : List Json}

theorem Registry.revoked (h : Registry host before devices) : Registry host (revokeAllDevices before) [] := by
  refine ⟨?_, ?_, ?_⟩
  · have hdevices := h.devices
    have hwell := h.wellFormed
    cases before with
    | obj fields =>
      refine hwell.replace ?_ (.arr (by simp))
      cases hget : (Json.obj fields).get (js "devices") with
      | none =>
        rw [hget] at hdevices
        cases hdevices
      | some value => exact (mem_keys_of_get hget).1
    | _ => cases hdevices
  · rw [revokeAllDevices_get, if_neg (by decide)]
    exact h.version
  · rw [revokeAllDevices_get, if_pos rfl]
    rfl

/-! ## The invariant -/

/-- What a call may say, and what it waits for. -/
def Tells (devices : List Json) (disk : AtomicFile.Disk JsString Nat) : RevokeStage → Prop
  | .saving _ revokedCount => revokedCount = devices.length
  | .reported revokedCount => (revokedCount = 0 ∨ revokedCount = devices.length) ∧ (devices = [] ∨ disk.landed ≠ [])
  | .loading | .failed | .lost => True

structure Killed (host : JsonHost) (store : FileDeviceStore) (before : Json) (devices : List Json)
    (mode : AtomicFile.Mode) (s : DeviceHost) : Prop where
  ok : AtomicFile.Ok (stateFileRules store.filePath) (some ⟨snapshotBytes host before, mode⟩) s.disk
  contents : ∀ (i : Nat) content, (s.disk.saves[i]?).map AtomicFile.Save.content = some content →
    content = snapshotBytes host (revokeAllDevices before)
  tells : ∀ call ∈ s.calls, Tells devices s.disk call.stage

variable {store : FileDeviceStore} {mode : AtomicFile.Mode} {s : DeviceHost}

theorem Tells.mono {disk disk' : AtomicFile.Disk JsString Nat} (hlanded : disk.landed <+: disk'.landed) {stage : RevokeStage}
    (h : Tells devices disk stage) : Tells devices disk' stage := by
  cases stage with
  | reported revokedCount =>
    refine ⟨h.1, h.2.imp_right fun hne hnil => hne ?_⟩
    rw [hnil] at hlanded
    exact List.prefix_nil.mp hlanded
  | saving save revokedCount => exact h
  | loading => trivial
  | failed => trivial
  | lost => trivial

/-- The registry on disk, at every moment. -/
theorem Killed.loads (h : Killed host store before devices mode s) (hr : Registry host before devices) :
    s.disk.landed = [] ∧ s.loads host store = .ok (some before) ∨
      s.disk.landed ≠ [] ∧ s.loads host store = .ok (some (revokeAllDevices before)) := by
  rcases h.ok.landed_last with ⟨hnone, hfile⟩ | ⟨i, save, hlast, hi, hfile⟩
  · have hfile : s.disk.files store.filePath = some ⟨snapshotBytes host before, mode⟩ := hfile
    refine .inl ⟨hnone, ?_⟩
    rw [DeviceHost.loads, hfile]
    exact load_saved_devices store hr.wellFormed hr.version mode
  · have hfile : s.disk.files store.filePath = some ⟨save.content, SESSION_STORE_FILE_MODE⟩ := hfile
    refine .inr ⟨List.ne_nil_of_mem (List.mem_of_getLast? hlast), ?_⟩
    rw [DeviceHost.loads, hfile, h.contents i save.content (by rw [hi]; rfl)]
    exact load_saved_devices store hr.revoked.wellFormed hr.revoked.version _

theorem tells_setStage (h : Killed host store before devices mode s) {n : Nat} {stage : RevokeStage}
    (hstage : Tells devices s.disk stage) : ∀ call ∈ (s.setStage n stage).calls, Tells devices s.disk call.stage := by
  intro call hcall
  obtain ⟨m, hm⟩ := List.mem_iff_getElem?.mp hcall
  rw [DeviceHost.setStage, List.getElem?_modify] at hm
  split at hm
  · obtain ⟨-, -, rfl⟩ := Option.map_eq_some_iff.mp hm
    exact hstage
  · exact h.tells call (List.mem_of_getElem? (by simpa using hm))

theorem Killed.staged (h : Killed host store before devices mode s) {n : Nat} {stage : RevokeStage}
    (hstage : Tells devices s.disk stage) : Killed host store before devices mode (s.setStage n stage) :=
  ⟨h.ok, h.contents, tells_setStage h hstage⟩

/-- The disk moves by a step that saves nothing, or the emptied registry. -/
theorem Killed.disk (h : Killed host store before devices mode s) {e : AtomicFile.Event Nat}
    (he : ∀ pid content, e = .called pid content → content = snapshotBytes host (revokeAllDevices before))
    {calls : List RevokeAll} (hcalls : ∀ call ∈ calls, Tells devices s.disk call.stage) :
    Killed host store before devices mode ⟨AtomicFile.step (stateFileRules store.filePath) s.disk e, calls⟩ := by
  refine ⟨AtomicFile.step_ok h.ok e, fun i content hi => ?_, fun call hcall =>
    (hcalls call hcall).mono (AtomicFile.step_landed _ s.disk e)⟩
  rcases AtomicFile.step_content (stateFileRules store.filePath) s.disk e i with hsame | ⟨-, pid, called, rfl, hnew⟩
  · exact h.contents i content (hsame ▸ hi)
  · obtain rfl := Option.some.inj (hi.symm.trans hnew)
    exact he pid content rfl

theorem Killed.loaded (h : Killed host store before devices mode s) (hr : Registry host before devices) (n : Nat)
    (read : Bool) : Killed host store before devices mode (s.loaded host store n read) := by
  unfold DeviceHost.loaded
  split
  · rename_i pid hn
    cases read with
    | false => exact h.staged trivial
    | true =>
      rcases h.loads hr with ⟨-, hload⟩ | ⟨hlanded, hload⟩
      · cases devices with
        | nil =>
          have htells : Tells [] s.disk (.reported 0) := ⟨.inl rfl, .inl rfl⟩
          simp only [if_true, hload, hr.devices]
          exact h.staged htells
        | cons device rest =>
          simp only [if_true, hload, hr.devices]
          split
          · exact h
          · refine h.disk (fun pid content heq => ?_) (tells_setStage h rfl)
            cases heq
            rfl
      · have htells : Tells devices s.disk (.reported 0) := ⟨.inl rfl, .inr hlanded⟩
        simp only [if_true, hload, hr.revoked.devices]
        exact h.staged htells
  · exact h

theorem Killed.settled (h : Killed host store before devices mode s) (n : Nat) :
    Killed host store before devices mode (s.settled n) := by
  unfold DeviceHost.settled
  split
  · rename_i pid save revokedCount hn
    have hcount : revokedCount = devices.length := h.tells _ (List.mem_of_getElem? hn)
    split
    · rename_i owner content hsave
      refine h.staged ⟨.inr hcount, .inr ?_⟩
      exact List.ne_nil_of_mem (h.ok.acknowledged save _ hsave trivial)
    · exact h.staged trivial
    · exact h
  · exact h

theorem tells_lose {disk : AtomicFile.Disk JsString Nat} (pid : Nat) {call : RevokeAll} (h : Tells devices disk call.stage) :
    Tells devices disk (DeviceHost.lose pid call).stage := by
  obtain ⟨owner, stage⟩ := call
  cases stage with
  | loading =>
    simp only [DeviceHost.lose]
    split <;> trivial
  | saving save revokedCount =>
    simp only [DeviceHost.lose]
    split
    · trivial
    · exact h
  | reported revokedCount => exact h
  | failed => trivial
  | lost => trivial

theorem deviceStep_killed (hr : Registry host before devices) (h : Killed host store before devices mode s) (e : DeviceEvent)
    (hok : onlyRevokes s e) : Killed host store before devices mode (deviceStep host store s e) := by
  cases e with
  | disk e =>
    cases e with
    | called pid content => exact hok.elim
    | died pid =>
      refine h.disk (fun _ _ heq => by cases heq) fun call hcall => ?_
      obtain ⟨was, hwas, rfl⟩ := List.mem_map.mp hcall
      exact tells_lose pid (h.tells was hwas)
    | spawned pid => exact h.disk (fun _ _ heq => by cases heq) h.tells
    | ran i umask n => exact h.disk (fun _ _ heq => by cases heq) h.tells
    | failed i => exact h.disk (fun _ _ heq => by cases heq) h.tells
  | revokeAll pid =>
    unfold deviceStep
    dsimp only
    by_cases hnone : s.disk.running pid = none
    · rwa [if_pos hnone]
    · rw [if_neg hnone]
      refine ⟨h.ok, h.contents, fun call hcall => ?_⟩
      rcases List.mem_append.mp hcall with hcall | hcall
      · exact h.tells call hcall
      · rw [List.mem_singleton.mp hcall]
        trivial
  | loaded n read => exact h.loaded hr n read
  | settled n => exact h.settled n

theorem DeviceStart.killed (h : DeviceStart host store before s) :
    ∃ mode, Killed host store before devices mode s := by
  obtain ⟨mode, hdisk⟩ := h.disk
  refine ⟨mode, hdisk.ok, fun i content hi => ?_, by simp [h.calls]⟩
  rw [hdisk.saves] at hi
  cases hi

/-- At every moment of a run: what is on disk, and what has been said. -/
theorem revoke_all (hr : Registry host before devices) (h : DeviceRun host store before s) :
    ∃ now, s.loads host store = .ok (some now) ∧ (now = before ∨ now = revokeAllDevices before) ∧
      (∀ key, key ≠ js "devices" → now.get key = before.get key) ∧
      ∀ call ∈ s.calls, ∀ revokedCount, call.stage = .reported revokedCount →
        (revokedCount = 0 ∨ revokedCount = devices.length) ∧ Json.asArray (now.get (js "devices")) = some [] := by
  obtain ⟨mode, hkilled⟩ : ∃ mode, Killed host store before devices mode s :=
    h.inv (fun _ hs => hs.killed) fun _ e hs hok => hs.imp fun _ hs => deviceStep_killed hr hs e hok
  have hsaid : ∀ call ∈ s.calls, ∀ revokedCount, call.stage = .reported revokedCount →
      (revokedCount = 0 ∨ revokedCount = devices.length) ∧ (devices = [] ∨ s.disk.landed ≠ []) := by
    intro call hcall revokedCount hstage
    have htells := hkilled.tells call hcall
    rw [hstage] at htells
    exact htells
  rcases hkilled.loads hr with ⟨hnone, hload⟩ | ⟨-, hload⟩
  · refine ⟨before, hload, .inl rfl, fun _ _ => rfl, fun call hcall revokedCount hstage => ?_⟩
    obtain ⟨hcount, hempty | hlanded⟩ := hsaid call hcall revokedCount hstage
    · exact ⟨hcount, hempty ▸ hr.devices⟩
    · exact absurd hnone hlanded
  · refine ⟨revokeAllDevices before, hload, .inr rfl, fun key hkey => ?_, fun call hcall revokedCount hstage => ?_⟩
    · rw [revokeAllDevices_get, if_neg hkey]
    · exact ⟨(hsaid call hcall revokedCount hstage).1, hr.revoked.devices⟩

def phoneAndTablet : List Json := [.obj [(js "id", .str (js "phone"))], .obj [(js "id", .str (js "tablet"))]]

def paired : Json := .obj [(js "version", .num DEVICE_STORE_SNAPSHOT_VERSION), (js "devices", .arr phoneAndTablet)]

def deviceFile : FileDeviceStore := ⟨js "/state/device-store.json"⟩

def pairedDisk : DeviceHost :=
  ⟨⟨fun name => if name = deviceFile.filePath then some ⟨snapshotBytes integerHost paired, 0o600⟩ else none, fun _ => none,
    [], []⟩, []⟩

/-- Two panic kills read the same two devices; one lands, the other dies, and a third finds none. -/
def killedTwice : List DeviceEvent :=
  [.disk (.spawned 7), .disk (.spawned 8), .revokeAll 7, .revokeAll 8, .loaded 0 true, .loaded 1 true, .disk (.ran 0 0 0),
    .disk (.ran 1 0 0), .disk (.ran 0 0 0), .disk (.ran 0 0 1000), .disk (.ran 0 0 0), .disk (.ran 0 0 0),
    .disk (.ran 0 0 0), .settled 0, .disk (.died 8), .disk (.spawned 9), .revokeAll 9, .loaded 2 true]

theorem paired_registry : Registry integerHost paired phoneAndTablet := by
  refine ⟨?_, rfl, rfl⟩
  have hversion : (Json.num DEVICE_STORE_SNAPSHOT_VERSION).WellFormed integerHost := .num rfl
  have hdevice : ∀ device ∈ phoneAndTablet, device.WellFormed integerHost := by
    have hid : ∀ id, (Json.obj [(js "id", .str id)]).WellFormed integerHost := fun id =>
      .names [js "id"] rfl (by decide) (by decide) (by simp [Json.WellFormed.str])
    simp [phoneAndTablet, hid]
  refine .names [js "version", js "devices"] rfl (by decide) (by decide) ?_
  simp [hversion, Json.WellFormed.arr hdevice]

theorem pairedDisk_start : DeviceStart integerHost deviceFile paired pairedDisk := by
  refine ⟨⟨0o600, fun _ => rfl, rfl, rfl, by simp [pairedDisk, stateFileRules], fun pid seq => ?_⟩, rfl⟩
  have hne : tempPath deviceFile.filePath pid seq ≠ deviceFile.filePath := tempPath_ne deviceFile.filePath pid seq
  simp [pairedDisk, stateFileRules, hne]

theorem revoke_all_twice :
    let s := runFrom (deviceStep integerHost deviceFile) pairedDisk killedTwice
    s.calls = [⟨7, .reported 2⟩, ⟨8, .lost⟩, ⟨9, .reported 0⟩] ∧
    ∃ now, s.loads integerHost deviceFile = .ok (some now) ∧ Json.asArray (now.get (js "devices")) = some [] ∧
      now.get (js "version") = some (.num DEVICE_STORE_SNAPSHOT_VERSION) := by
  intro s
  have hcalls : s.calls = [⟨7, .reported 2⟩, ⟨8, .lost⟩, ⟨9, .reported 0⟩] := by decide +kernel
  have hstart : DeviceRun integerHost deviceFile paired pairedDisk := .start pairedDisk_start
  have hrun : DeviceRun integerHost deviceFile paired s :=
    hstart.run_allowed ⟨trivial, trivial, trivial, trivial, trivial, trivial, trivial, trivial, trivial, trivial, trivial,
      trivial, trivial, trivial, trivial, trivial, trivial, trivial, trivial⟩
  obtain ⟨now, hload, -, hkept, htold⟩ := revoke_all paired_registry hrun
  have hfirst : (⟨7, .reported 2⟩ : RevokeAll) ∈ s.calls := by rw [hcalls]; exact List.mem_cons_self
  exact ⟨hcalls, now, hload, (htold _ hfirst 2 rfl).2, hkept (js "version") (by decide)⟩

end

end Ccctl.Server.DeviceStore
