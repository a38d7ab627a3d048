import Ccctl.Server.Slots
import Ccctl.Server.SessionWatch
/-
  Ccctl.Server.Captures — what a hook captured, and the block it is shown with.

  The hook writes its file before the tool call blocks, and the report that opens the block is to take
  it. `CaptureLog` keeps how many blocks a session has opened, how many it had when its hook last
  wrote, and the question it shows from a capture. A capture written after `w` blocks is one of block `w + 1`.

  A numbered report that opens a block unlinks the file, whatever the file holds (`opened_spends`). One
  without a number leaves it where it is: `reconcileHookHandoff` returns before it looks for it; and so
  does one that finds a disk that throws at the look or at the unlinking. So the result is about
  runs where no such report opens a block over a capture that waits (`capture_first`); past one, the
  capture is shown with a later block (`capture_replayed`, `capture_unresolved`).
-/

namespace Ccctl.Server

open Ccctl.Core Ccctl.Lib ServerState

/-- Where the hook of a session leaves what it captures. -/
def handoffOf (s : ServerState) (id : SessionId) : Option HookFile := (s.hookInstalls.get id).map (·.handoffPath)

/-- The question the file holds, whether or not the disk yields it now. -/
def waitingQuestion (s : ServerState) (id : SessionId) : Option RequiresActionEnrichment :=
  (s.hookInstalls.get id).bind fun install => (capturedQuestions (s.files.get install.handoffPath)).bind
    fun questions => requiresActionEnrichmentFromFrame (handoffFrame 0 questions)

/-- The file there holds a question. -/
def waiting (s : ServerState) (id : SessionId) : Bool := (waitingQuestion s id).isSome

def Chan.awaits (c : Chan) : Bool := c.row.any fun row => isInputAwaited row.activity

/-- The transition into `requires_action`. -/
def opensBlock (c c' : Chan) : Bool := !c.awaits && c'.awaits

structure CaptureLog where
  blocks : Nat
  /-- How many blocks there were when the hook last wrote. -/
  written : Nat
  /-- The question taken from a capture, and how many blocks there were when that was written. -/
  held : Option (RequiresActionEnrichment × Nat)
  deriving DecidableEq, Repr

/-- The report leaves a question that was not there before it, or opens a block with what the hook captured. -/
def attaches (c : Chan) (r : Report) (c' : Chan) : Bool :=
  c'.question ≠ c.question || (opensBlock c c' && r.capture.isSome)

def CaptureLog.see (c : Chan) (act : Act) (c' : Chan) (log : CaptureLog) : CaptureLog where
  blocks := if opensBlock c c' then log.blocks + 1 else log.blocks
  written := log.written
  held :=
    match act with
    | .report r => if attaches c r c' then c'.question.map (·, log.written) else log.held
    | .asked _ => none
    | _ => if c'.question = none then none else log.held

/-- The hook wrote. -/
def CaptureLog.wrote (s : ServerState) (e : Event) (id : SessionId) (log : CaptureLog) : CaptureLog :=
  match e with
  | .writeHookFile path (some _) => if handoffOf s id = some path then { log with written := log.blocks } else log
  | _ => log

def captureWatch (id : SessionId) (s : ServerState) (e : Event) (log : CaptureLog) : CaptureLog :=
  (log.wrote s e id).see (chan s id) (observe s e id) (chan (step s e) id)

/-- A report that opens a block over a capture that waits is numbered, and the disk answers for the file and lets
    it go. -/
def TakesCapture (id : SessionId) (s : ServerState) (e : Event) : Prop :=
  match observe s e id with
  | .report r =>
    r.status = .requiresAction → (chan s id).awaits = false → waiting s id = true →
      r.sequence ≠ none ∧ ∀ path ∈ handoffOf s id, s.fs.resolves path = true ∧ s.fs.unlinks path = true
  | _ => True

instance (id : SessionId) (s : ServerState) (e : Event) : Decidable (TakesCapture id s e) := by
  unfold TakesCapture
  split <;> infer_instance

/-- The server watched for the captures of a session. -/
abbrev CaptureRun (id : SessionId) (ok : ServerState → Event → Prop) : ServerState × CaptureLog → Prop :=
  Reach (watched step (captureWatch id)) (fun p => Booted p.1 ∧ p.2 = ⟨0, 0, none⟩) fun p e => ok p.1 e

theorem CaptureRun.reachable {id : SessionId} {ok : ServerState → Event → Prop} {p : ServerState × CaptureLog}
    (h : CaptureRun id ok p) : Reachable p.1 := h.machine (fun _ hp => hp.1) fun _ _ _ => trivial

/-! ## What waits -/

/-- A frame of the questions: only its number may keep it from being read. -/
theorem handoffFrame_read (n : Nat) (questions : Json) :
    requiresActionEnrichmentFromFrame (handoffFrame n questions) =
      (asWorkerStatusSequence (some (.num n))).bind fun sequenceNum => (Json.asArray (some questions)).bind fun array =>
        if array.length = 0 ∨ MAX_ENRICHMENT_QUESTIONS < array.length then none
        else (enrichmentQuestions 0 array).map fun parsed => { sequenceNum, questions := parsed } := by
  have hframe : requiresActionEnrichmentFromFrame (handoffFrame n questions) =
      requiresActionEnrichmentFromValue (.obj [(js "sequence_num", .num n), (js "questions", questions)]) := rfl
  have hseq : Json.get (.obj [(js "sequence_num", .num n), (js "questions", questions)]) (js "sequence_num") =
      some (.num n) := rfl
  have harray : Json.get (.obj [(js "sequence_num", .num n), (js "questions", questions)]) (js "questions") =
      some questions := rfl
  rw [hframe, requiresActionEnrichmentFromValue, hseq, harray]
  cases asWorkerStatusSequence (some (.num n)) <;> cases Json.asArray (some questions) <;> rfl

theorem handoffFrame_zero {n : Nat} {questions : Json} {q : RequiresActionEnrichment}
    (h : requiresActionEnrichmentFromFrame (handoffFrame n questions) = some q) :
    (requiresActionEnrichmentFromFrame (handoffFrame 0 questions)).isSome = true := by
  have hzero : asWorkerStatusSequence (some (.num ((0 : Nat) : Rat))) = some 0 := by decide
  rw [handoffFrame_read] at h ⊢
  rw [hzero]
  obtain ⟨_, -, h⟩ := Option.bind_eq_some_iff.mp h
  obtain ⟨array, harray, h⟩ := Option.bind_eq_some_iff.mp h
  split at h
  · cases h
  · rename_i hlen
    obtain ⟨parsed, hparsed, -⟩ := Option.map_eq_some_iff.mp h
    simp only [harray, Option.bind_some, if_neg hlen, hparsed, Option.map_some, Option.isSome_some]

section Waiting

variable {s s' : ServerState} {id : SessionId}

/-- Whatever the number of the report, a capture it finds waited. -/
theorem hookCapture_waiting {sequence : Option Nat} {q : RequiresActionEnrichment}
    (h : hookCapture s.fs s.hookInstalls s.files id sequence = some q) : waiting s id = true := by
  unfold waiting waitingQuestion
  cases sequence with
  | none => cases h
  | some n =>
    simp only [hookCapture] at h
    cases hi : s.hookInstalls.get id with
    | none =>
      rw [hi] at h
      cases h
    | some install =>
      simp only [hi, Option.bind_some] at h ⊢
      obtain ⟨questions, hquestions, hq⟩ := Option.bind_eq_some_iff.mp h
      split at hquestions
      · rw [hquestions, Option.bind_some]
        exact handoffFrame_zero hq
      · cases hquestions

/-- What waits is a file at the session's handoff path. -/
theorem waiting_file (h : waiting s id = true) :
    ∃ install entry, s.hookInstalls.get id = some install ∧ s.files.get install.handoffPath = some entry := by
  unfold waiting waitingQuestion at h
  cases hi : s.hookInstalls.get id with
  | none =>
    rw [hi] at h
    cases h
  | some install =>
    simp only [hi, Option.bind_some] at h
    cases hf : s.files.get install.handoffPath with
    | none =>
      rw [hf] at h
      cases h
    | some entry => exact ⟨install, entry, rfl, hf⟩

/-- The install and the file are all it depends on. -/
theorem waiting_congr {install : HookInstall} (hi : s.hookInstalls.get id = some install)
    (hi' : s'.hookInstalls.get id = some install)
    (hf : s'.files.get install.handoffPath = s.files.get install.handoffPath) : waiting s' id = waiting s id := by
  simp only [waiting, waitingQuestion, hi, hi', Option.bind_some, hf]

/-- Nothing comes to wait where nothing is put. -/
theorem Shelved.waiting (h : Shelved s s') (hw : Server.waiting s' id = true) : Server.waiting s id = true := by
  obtain ⟨install, entry, hi', hf'⟩ := waiting_file hw
  have hi := h.installs id install hi'
  have hf := h.captures _ entry hf'
  rwa [← waiting_congr hi hi' (hf'.trans hf.symm)]

end Waiting

/-! ## The report that opens a block -/

theorem reconcileHookHandoff_spends {s : ServerState} {id : SessionId} {prior next : Session} {n : Nat}
    {install : HookInstall} (hprior : isInputAwaited prior.activity = false)
    (hnext : isInputAwaited next.activity = true) (hi : s.hookInstalls.get id = some install)
    (hdisk : s.fs.resolves install.handoffPath = true ∧ s.fs.unlinks install.handoffPath = true) :
    (reconcileHookHandoff s id prior next (some n)).files.get install.handoffPath = none := by
  have hspent : (consumed s.fs s.files install.handoffPath).get install.handoffPath = none :=
    consumed_self hdisk.1 hdisk.2
  unfold reconcileHookHandoff
  rw [hprior, hnext]
  simp only [Bool.not_true, Bool.or_self, Bool.false_eq_true, if_false, hi, consumeHookHandoffQuestions_eq]
  split
  · rename_i after heq
    have hafter := congrArg (fun p => p.1.files) heq
    exact hafter ▸ hspent
  · rename_i after questions heq
    have hafter := congrArg (fun p => p.1.files) heq
    rw [bufferInputRequestEnrichment_eq]
    exact hafter ▸ hspent

theorem applied_spends {s : ServerState} {id : SessionId} {session next : Session} {n : Nat} {install : HookInstall}
    (hprior : isInputAwaited session.activity = false) (hnext : isInputAwaited next.activity = true)
    (hi : s.hookInstalls.get id = some install)
    (hdisk : s.fs.resolves install.handoffPath = true ∧ s.fs.unlinks install.handoffPath = true) :
    (applied s id session next (some n)).files.get install.handoffPath = none := by
  unfold applied
  obtain ⟨timers, records, nextId, hidle⟩ :=
    reconcileIdleTimer_writes { s with sessions := s.sessions.set id next } id next
  obtain ⟨_, _, hneeds⟩ := reconcileNeedsInput_writes
    { s with sessions := s.sessions.set id next, timers, records, next := nextId } id session next
  apply reconcileHookHandoff_spends hprior hnext
  · rw [hidle, hneeds, reconcileEnrichmentBuffer_eq]
    exact hi
  · rw [hidle, hneeds, reconcileEnrichmentBuffer_eq]
    exact hdisk

/-- A numbered report that opens a block leaves nothing at the handoff path, where the disk lets it. -/
theorem opened_spends {s : ServerState} {e : Event} {id : SessionId} {r : Report} {row : Session} {link : Link}
    (hact : observe s e id = .report r) (hrow : s.sessions.get id = some row) (hlink : (chan s id).link = some link)
    (hfresh : r.refused link = false) (hprior : isInputAwaited row.activity = false)
    (hnext : isInputAwaited (r.row row).activity = true) {n : Nat} (hn : r.sequence = some n)
    (hdisk : ∀ path ∈ handoffOf s id, s.fs.resolves path = true ∧ s.fs.unlinks path = true) :
    waiting (step s e) id = false := by
  obtain ⟨rec, hrec, -, hturn⟩ := report_turn hact hrow
  rw [link_of_current hrec, Option.some.injEq] at hlink
  subst hlink
  obtain ⟨_, _, happlied⟩ := hturn hfresh
  rw [happlied, hn, Bool.eq_false_iff]
  intro hw
  obtain ⟨install, entry, hi, hf⟩ := waiting_file hw
  have hinstall : (recordStatusSequence s rec (some n)).hookInstalls.get id = some install := by
    obtain ⟨_, _, _, _, _, _, _, heq⟩ :=
      applied_writes (recordStatusSequence s rec (some n)) id row (r.row row) (some n)
    rw [heq] at hi
    exact hi
  have hsame := recordStatusSequence_eq s rec (some n)
  have hpath : install.handoffPath ∈ handoffOf s id := by
    rw [hsame] at hinstall
    exact Option.mem_map_of_mem _ hinstall
  have hspends := applied_spends (s := recordStatusSequence s rec (some n)) (n := n) hprior hnext hinstall
    (by rw [hsame]; exact hdisk _ hpath)
  cases hspends.symm.trans hf

/-! ## Where a capture may stand -/

/-- Every install, a session's or a launch's, hands over at a path of its kind. -/
structure HandsOver (s : ServerState) : Prop where
  installed : ∀ id install, s.hookInstalls.get id = some install → install.handoffPath.kind = .handoff
  launching : ∀ op options install, s.ops.get op = some (.launching options (some install)) →
    install.handoffPath.kind = .handoff

/-- A launch hands nothing over yet. -/
theorem launched_files {s : ServerState} {hook : Option HookInstall} {files : OrdMap HookFile FileEntry}
    (h : hook = none ∧ files = s.files ∨ hook = some (hookInstallOf (s.next + 1)) ∧
      files = s.files.set (hookInstallOf (s.next + 1)).settingsPath (.regular 0 none)) :
    (∀ install, hook = some install → install.handoffPath.kind = .handoff) ∧
      ∀ path : HookFile, path.kind = .handoff → files.get path = s.files.get path := by
  rcases h with ⟨rfl, rfl⟩ | ⟨rfl, rfl⟩
  · exact ⟨fun _ h => (by cases h), fun _ _ => rfl⟩
  · refine ⟨?_, ?_⟩
    · intro install h
      cases h
      rfl
    · intro path hkind
      apply OrdMap.get_set_ne
      intro heq
      rw [heq] at hkind
      cases hkind

theorem unhooked_get {fs : FileSystem} {files : OrdMap HookFile FileEntry} {hook : Option HookInstall} {path : HookFile}
    {entry : FileEntry} (h : (unhooked fs files hook).get path = some entry) : files.get path = some entry := by
  cases hook with
  | none => exact h
  | some install => exact unlinked_get (unlinked_get h)

theorem HandsOver.launched {s : ServerState} (h : HandsOver s) (e : Event) {op : OpId}
    {options : SessionLaunchOptions} {install : HookInstall}
    (hop : (step s e).ops.get op = some (.launching options (some install))) :
    install.handoffPath.kind = .handoff := by
  by_cases hlaunch : ∃ options hookOk, e = .launchSession options hookOk
  · obtain ⟨options', hookOk, rfl⟩ := hlaunch
    rcases launchSession_cases s options' hookOk with ⟨_, _, _, heq⟩ | ⟨_, _, _, _, heq, -, -, hhook⟩
    · simp only [Server.step, turn, heq] at hop
      exact h.launching op options install hop
    · simp only [Server.step, turn, heq, OrdMap.get_set] at hop
      split at hop
      · cases hop
        exact (launched_files hhook).1 install rfl
      · exact h.launching op options install hop
  · have hbegun := noneBegun_step (s := s) fun options hookOk he => hlaunch ⟨options, hookOk, he⟩
    exact h.launching op options install (hbegun op options _ hop)

theorem HandsOver.step {s : ServerState} (h : HandsOver s) (e : Event) : HandsOver (step s e) := by
  refine ⟨?_, fun _ _ _ => h.launched e⟩
  intro id install hi
  cases e with
  | launchSession options hookOk =>
    rcases launchSession_cases s options hookOk with ⟨_, _, _, heq⟩ | ⟨_, _, _, _, heq, -⟩
    · simp only [Server.step, turn, heq] at hi
      exact h.installed id install hi
    · simp only [Server.step, turn, heq] at hi
      exact h.installed id install hi
  | launchOpened op attachable hint =>
    simp only [Server.step, turn, launchSettled] at hi
    split at hi
    · rename_i options hook hop
      rw [launchOpened_eq] at hi
      rcases get_handedOver hi with hi | ⟨-, rfl⟩
      · exact h.installed id install hi
      · exact h.launching op options install hop
    · exact h.installed id install hi
  | launchFailed op code message =>
    simp only [Server.step, turn, launchSettled] at hi
    split at hi
    · rw [launchFailed_eq] at hi
      exact h.installed id install hi
    · exact h.installed id install hi
  | writeHookFile path entry => cases entry <;> exact h.installed id install hi
  | _ => exact h.installed id install ((shelved_step s rfl).installs id install hi)

theorem Reachable.handsOver {s : ServerState} (h : Reachable s) : HandsOver s := by
  induction h with
  | start hs =>
    obtain ⟨image, rfl⟩ := hs
    exact ⟨(fun _ _ hi => by cases hi), fun _ _ _ hop => by cases hop⟩
  | step e _ _ ih => exact ih.step e

/-- A turn in which something comes to wait is the hook's, or the terminal came up over what the hook had written. -/
theorem waiting_step {s : ServerState} (h : HandsOver s) {e : Event} {id : SessionId}
    (hw : waiting (step s e) id = true) :
    waiting s id = true ∨ (∃ path entry, e = .writeHookFile path (some entry) ∧ handoffOf s id = some path) ∨
      id = s.next := by
  cases e with
  | launchSession options hookOk =>
    rcases launchSession_cases s options hookOk with ⟨_, _, _, heq⟩ | ⟨_, _, _, _, heq, -, -, hhook⟩
    · simp only [step, turn, heq] at hw
      exact Or.inl hw
    · simp only [step, turn, heq] at hw
      obtain ⟨install, entry, hi, -⟩ := waiting_file hw
      have hi₀ : s.hookInstalls.get id = some install := hi
      left
      rwa [waiting_congr (s := s) hi₀ hi ((launched_files hhook).2 _ (h.installed id install hi₀))] at hw
  | launchOpened op attachable hint =>
    by_cases hid : id = s.next
    · exact Or.inr (Or.inr hid)
    · left
      simp only [step, turn, launchSettled] at hw
      split at hw
      · rename_i options hook _
        rw [launchOpened_eq] at hw
        have hsame : (handedOver s.hookInstalls s.next hook).get id = s.hookInstalls.get id := by
          cases hook with
          | none => rfl
          | some install => exact OrdMap.get_set_ne _ _ hid
        simp only [waiting, waitingQuestion] at hw ⊢
        rwa [hsame] at hw
      · exact hw
  | launchFailed op code message =>
    left
    simp only [step, turn, launchSettled] at hw
    split at hw
    · rw [launchFailed_eq] at hw
      obtain ⟨install, entry, hi, hf⟩ := waiting_file hw
      rwa [waiting_congr (s := s) hi hi (hf.trans (unhooked_get hf).symm)] at hw
    · exact hw
  | writeHookFile path entry =>
    obtain ⟨install, _, hi', hf'⟩ := waiting_file hw
    have hi : s.hookInstalls.get id = some install := by cases entry <;> exact hi'
    by_cases hpath : install.handoffPath = path
    · cases entry with
      | none =>
        have herased : (s.files.erase path).get install.handoffPath = none := hpath ▸ OrdMap.get_erase_self _ _
        cases herased.symm.trans hf'
      | some entry => exact Or.inr (Or.inl ⟨path, entry, rfl, by rw [handoffOf, hi, ← hpath]; rfl⟩)
    · left
      rwa [waiting_congr (s := s) hi hi'] at hw
      cases entry with
      | none => exact OrdMap.get_erase_ne _ hpath
      | some entry => exact OrdMap.get_set_ne _ _ hpath
  | _ => exact Or.inl ((shelved_step s rfl).waiting hw)

/-! ## The session's blocks -/

section Blocks

variable {c : Chan} {act : Act} {r : Report} {closed : Bool}

theorem Chan.awaits_iff : c.awaits = true ↔ ∃ row, c.row = some row ∧ isInputAwaited row.activity = true := by
  cases hrow : c.row <;> simp [Chan.awaits, hrow]

theorem Chan.kept_awaits (h : act.keeps = true) : (c.step act).awaits = c.awaits := by
  cases act with
  | created _ | placed _ | claimed _ | dropped | ended | registered | report _ => cases h
  | streamOpened => simp [Chan.awaits, Chan.step, Option.any_map, markSessionReady_activity]
  | beat now => simp [Chan.awaits, Chan.step, Option.any_map, recordHeartbeat]
  | _ => rfl

/-- Only a report opens a block, and one of `requires_action` that is let through. -/
theorem opened_report (he : act.Enabled c) (h : opensBlock c (c.step act) = true) :
    ∃ r row link, act = .report r ∧ c.row = some row ∧ c.link = some link ∧ r.refused link = false ∧
      r.status = .requiresAction ∧ isInputAwaited row.activity = false := by
  obtain ⟨hbefore, hafter⟩ : c.awaits = false ∧ (c.step act).awaits = true := by simpa [opensBlock] using h
  have hchanged : (c.step act).awaits ≠ c.awaits := by
    rw [hbefore, hafter]
    decide
  have hidle : ∀ {row : Session}, row.activity = .idle → (c.step act).row ≠ some row := by
    intro row hactivity hrow
    obtain ⟨row', hrow', hawaits⟩ := Chan.awaits_iff.mp hafter
    cases hrow.symm.trans hrow'
    rw [hactivity] at hawaits
    cases hawaits
  cases act with
  | created row => exact absurd rfl (hidle he.2)
  | placed row => exact absurd rfl (hidle he.2)
  | claimed row => exact absurd rfl (hidle he.2.2)
  | dropped | ended => cases hafter
  | registered => exact absurd rfl hchanged
  | report r =>
    obtain ⟨link, hlink⟩ := Option.ne_none_iff_exists'.mp he.1
    cases hrow : c.row with
    | none => exact absurd (by simp only [Chan.step, hrow]) hchanged
    | some row =>
      cases href : r.refused link with
      | true => exact absurd (by rw [Chan.step_refused hlink href]) hchanged
      | false =>
        rw [Chan.step_reported hrow hlink href] at hafter
        have hstatus : isInputAwaited (r.row row).activity = true := hafter
        rw [Report.row, applyWorkerStatus_awaited] at hstatus
        have hprior : c.awaits = isInputAwaited row.activity := by rw [Chan.awaits, hrow, Option.any_some]
        exact ⟨r, row, link, rfl, rfl, hlink, href, of_decide_eq_true hstatus, hprior ▸ hbefore⟩
  | _ => exact absurd (Chan.kept_awaits rfl) hchanged

/-- A block opens with what its report captured, if anything. -/
theorem Report.question_opening {row : Session} (held : Option RequiresActionEnrichment)
    (hprior : isInputAwaited row.activity = false) (hnext : isInputAwaited (r.row row).activity = true) :
    r.question row held = r.capture.or held := by
  simp [Report.question, handoff, hprior, hnext]

/-- Any other report keeps the question, or drops it. -/
theorem Report.question_kept {row : Session} (held : Option RequiresActionEnrichment)
    (h : isInputAwaited row.activity = true ∨ isInputAwaited (r.row row).activity = false) :
    r.question row held = if isInputAwaited (r.row row).activity then held else none := by
  rcases h with hprior | hnext
  · simp [Report.question, handoff, hprior]
  · simp [Report.question, handoff, hnext]

/-- What a report attaches, it opens the block of, and found with the hook. -/
theorem attaches_opens {q : RequiresActionEnrichment} (he : (Act.report r).Enabled c)
    (h : attaches c r (c.step (.report r)) = true) (hq : (c.step (.report r)).question = some q) :
    opensBlock c (c.step (.report r)) = true ∧ r.capture = some q := by
  obtain ⟨link, hlink⟩ := Option.ne_none_iff_exists'.mp he.1
  have hstill : c.step (.report r) = c → False := by
    intro hsame
    rw [hsame] at h
    simp [attaches, opensBlock] at h
  cases hrow : c.row with
  | none => exact (hstill (by simp only [Chan.step, hrow])).elim
  | some row =>
    cases href : r.refused link with
    | true => exact (hstill (Chan.step_refused hlink href)).elim
    | false =>
      rw [Chan.step_reported hrow hlink href] at h hq ⊢
      have hquestion : r.question row c.question = some q := hq
      have hopens : opensBlock c (c.reported row link r) =
          (!isInputAwaited row.activity && isInputAwaited (r.row row).activity) := by
        simp [opensBlock, Chan.awaits, hrow, Chan.reported]
      have hattaches : r.question row c.question ≠ c.question ∨
          (opensBlock c (c.reported row link r) = true ∧ r.capture.isSome = true) := by
        rwa [attaches, Bool.or_eq_true, Bool.and_eq_true, decide_eq_true_iff] at h
      cases hopen : opensBlock c (c.reported row link r) with
      | true =>
        refine ⟨rfl, ?_⟩
        rw [hopen, eq_comm, Bool.and_eq_true, Bool.not_eq_true'] at hopens
        rw [Report.question_opening _ hopens.1 hopens.2] at hquestion hattaches
        cases hcapture : r.capture with
        | some captured => rwa [hcapture] at hquestion
        | none => simp [hcapture] at hattaches
      | false =>
        have hkept : r.question row c.question = if isInputAwaited (r.row row).activity then c.question else none := by
          apply Report.question_kept
          rw [hopen, eq_comm, Bool.and_eq_false_iff, Bool.not_eq_false'] at hopens
          exact hopens
        rw [hquestion] at hkept hattaches
        split at hkept
        · simp [hopen, hkept] at hattaches
        · cases hkept

/-- Where the question stays, so does the block. -/
theorem stays_awaited (hok : c.Ok closed) (he : act.Enabled c) (hb : act.births = true → c.row = none)
    (hawaits : c.awaits = true) (hq : c.question ≠ none) (h : (c.step act).question = c.question) :
    (c.step act).awaits = true := by
  by_cases hkeeps : act.keeps = true
  · exact (Chan.kept_awaits hkeeps).trans hawaits
  · have hlinked := hok.asked hq
    have hrow : c.row ≠ none := by
      obtain ⟨row, hrow, -⟩ := Chan.awaits_iff.mp hawaits
      rw [hrow]
      exact Option.some_ne_none row
    cases act with
    | created _ | placed _ => exact absurd (hb rfl) hrow
    | claimed _ => exact absurd (hok.no_link he.1) hlinked
    | dropped => exact absurd (hok.no_link he) hlinked
    | ended => exact absurd h.symm hq
    | registered => exact hawaits
    | report r =>
      obtain ⟨link, hlink⟩ := Option.ne_none_iff_exists'.mp he.1
      obtain ⟨row, hrow, hprior⟩ := Chan.awaits_iff.mp hawaits
      cases href : r.refused link with
      | true => rwa [Chan.step_refused hlink href]
      | false =>
        rw [Chan.step_reported hrow hlink href] at h ⊢
        have hquestion : r.question row c.question = c.question := h
        rw [Report.question_kept _ (Or.inl hprior)] at hquestion
        split at hquestion
        · rename_i hnext
          exact Chan.awaits_iff.mpr ⟨r.row row, rfl, hnext⟩
        · exact absurd hquestion.symm hq
    | _ => exact absurd rfl hkeeps

/-- An act other than a report or a question frame leaves the question, or none. -/
theorem Chan.step_question (hreport : ∀ r, act ≠ .report r) (hasked : ∀ q, act ≠ .asked q) :
    (c.step act).question = c.question ∨ (c.step act).question = none := by
  cases act with
  | report r => exact absurd rfl (hreport r)
  | asked q => exact absurd rfl (hasked q)
  | ended | answered _ => exact Or.inr rfl
  | _ => exact Or.inl rfl

end Blocks

/-! ## Over whole runs -/

/-- What the report of a turn captures waited before it. -/
theorem report_capture {s : ServerState} {e : Event} {id : SessionId} {r : Report} {q : RequiresActionEnrichment}
    (h : observe s e id = .report r) (hq : r.capture = some q) : waiting s id = true := by
  obtain ⟨_, _, _, rfl⟩ := observe_reportOf h
  exact hookCapture_waiting hq

structure CaptureLog.Ok (id : SessionId) (s : ServerState) (log : CaptureLog) : Prop where
  /-- No block has opened since what waits was written. -/
  fresh : waiting s id = true → log.blocks = log.written
  /-- What is shown belongs to the block it is shown with. -/
  shown : ∀ q w, log.held = some (q, w) →
    log.blocks = w + 1 ∧ s.requiresActionEnrichments.get id = some q ∧ (chan s id).awaits = true
  unborn : s.next ≤ id → log = ⟨0, 0, none⟩

namespace CaptureLog.Ok

variable {id : SessionId} {s : ServerState} {log : CaptureLog} {e : Event}

theorem wrote_spec (log : CaptureLog) (s : ServerState) (e : Event) (id : SessionId) :
    (log.wrote s e id).blocks = log.blocks ∧ (log.wrote s e id).held = log.held ∧
      ((log.wrote s e id).written = log.written ∨ (log.wrote s e id).written = log.blocks) := by
  unfold CaptureLog.wrote
  split
  · split
    · exact ⟨rfl, rfl, Or.inr rfl⟩
    · exact ⟨rfl, rfl, Or.inl rfl⟩
  · exact ⟨rfl, rfl, Or.inl rfl⟩

/-- A block that opens leaves nothing waiting. -/
theorem opened_unwaited (hg : Grounded s) (hok : TakesCapture id s e) (hw : waiting s id = true)
    (hopen : opensBlock (chan s id) ((chan s id).step (observe s e id)) = true) :
    waiting (Server.step s e) id = false := by
  obtain ⟨r, row, link, hact, hrow, hlink, hfresh, hstatus, hprior⟩ :=
    opened_report (observe_enabled hg.timers e id) hopen
  have hawaits : (chan s id).awaits = false := by rw [Chan.awaits, hrow, Option.any_some, hprior]
  simp only [TakesCapture, hact] at hok
  obtain ⟨hnumbered, hdisk⟩ := hok hstatus hawaits hw
  obtain ⟨n, hn⟩ := Option.ne_none_iff_exists'.mp hnumbered
  have hnext : isInputAwaited (r.row row).activity = true := by
    rw [Report.row, applyWorkerStatus_awaited, hstatus]
    rfl
  exact opened_spends hact hrow hlink hfresh hprior hnext hn hdisk

theorem step_fresh (h : Ok id s log) (hg : Grounded s) (hi : HandsOver s) (hok : TakesCapture id s e)
    (hw : waiting (Server.step s e) id = true) :
    (captureWatch id s e log).blocks = (captureWatch id s e log).written := by
  obtain ⟨hblocks, -, hwritten⟩ := wrote_spec log s e id
  have hkept : opensBlock (chan s id) (chan (Server.step s e) id) = false →
      (captureWatch id s e log).blocks = log.blocks := by
    intro hopen
    simp only [captureWatch, see, hopen, hblocks]
    rfl
  have hmove := chan_step hg.timers hg.ok e id
  show _ = (log.wrote s e id).written
  rcases waiting_step hi hw with hbefore | ⟨path, entry, rfl, hpath⟩ | hid
  · have hopen : opensBlock (chan s id) (chan (Server.step s e) id) = false := by
      rw [hmove, Bool.eq_false_iff]
      intro hopen
      cases (opened_unwaited hg hok hbefore hopen).symm.trans hw
    rw [hkept hopen]
    rcases hwritten with heq | heq
    · exact (h.fresh hbefore).trans heq.symm
    · exact heq.symm
  · rw [hkept]
    · simp only [wrote, hpath, if_true]
    · rw [hmove]
      simp [observe, Chan.step, opensBlock]
  · have hopen : opensBlock (chan s id) (chan (Server.step s e) id) = false := by
      rw [hmove, Bool.eq_false_iff]
      intro hopen
      obtain ⟨_, row, _, _, hrow, -⟩ := opened_report (observe_enabled hg.timers e id) hopen
      rw [hg.unminted id (Nat.le_of_eq hid.symm)] at hrow
      cases hrow
    rw [hkept hopen]
    have hnone := h.unborn (Nat.le_of_eq hid.symm)
    rcases hwritten with heq | heq
    · rw [heq, hnone]
    · exact heq.symm

/-- The question of a capture, as long as the session keeps it. -/
theorem step_kept (h : Ok id s log) (hg : Grounded s) {q : RequiresActionEnrichment} {w : Nat}
    (hheld : log.held = some (q, w)) (hkept : (chan (Server.step s e) id).question = (chan s id).question) :
    (captureWatch id s e log).blocks = w + 1 ∧ (Server.step s e).requiresActionEnrichments.get id = some q ∧
      (chan (Server.step s e) id).awaits = true := by
  obtain ⟨hblocks, hquestion, hawaits⟩ := h.shown q w hheld
  have hmove := chan_step hg.timers hg.ok e id
  have hasked : (chan s id).question = some q := hquestion
  refine ⟨?_, hkept.trans hasked, ?_⟩
  · have hopen : opensBlock (chan s id) (chan (Server.step s e) id) = false := by rw [opensBlock, hawaits]; rfl
    simp only [captureWatch, see, hopen, (wrote_spec log s e id).1]
    exact hblocks
  · rw [hmove] at hkept ⊢
    refine stays_awaited (hg.ok id) (observe_enabled hg.timers e id) ?_ hawaits ?_ hkept
    · intro hb
      rw [hg.blank_of_births hb]
      rfl
    · rw [hasked]
      exact Option.some_ne_none q

theorem step_shown (h : Ok id s log) (hg : Grounded s) {q : RequiresActionEnrichment} {w : Nat}
    (hq : (captureWatch id s e log).held = some (q, w)) :
    (captureWatch id s e log).blocks = w + 1 ∧ (Server.step s e).requiresActionEnrichments.get id = some q ∧
      (chan (Server.step s e) id).awaits = true := by
  obtain ⟨hblocks, hheld, hwritten⟩ := wrote_spec log s e id
  have hmove := chan_step hg.timers hg.ok e id
  have he := observe_enabled hg.timers e id
  have hasked : ∀ q', observe s e id ≠ .asked q' := by
    intro q' hact
    simp only [captureWatch, see, hact] at hq
    cases hq
  by_cases hreport : ∃ r, observe s e id = .report r
  · obtain ⟨r, hact⟩ := hreport
    simp only [captureWatch, see, hact, hheld] at hq
    split at hq
    · rename_i hattaches
      obtain ⟨q', hq', heq⟩ := Option.map_eq_some_iff.mp hq
      cases heq
      rw [hmove, hact] at hattaches hq'
      rw [hact] at he hmove
      obtain ⟨hopen, hcapture⟩ := attaches_opens he hattaches hq'
      rw [← hmove] at hopen hq'
      -- what the hook captured was written in the block before
      have hsince : log.blocks = (log.wrote s e id).written := by
        rcases hwritten with heq | heq
        · exact (h.fresh (report_capture hact hcapture)).trans heq.symm
        · exact heq.symm
      refine ⟨?_, hq', ?_⟩
      · simp only [captureWatch, see, hopen, hblocks, if_true, hsince]
      · simp only [opensBlock, Bool.and_eq_true] at hopen
        exact hopen.2
    · rename_i hnot
      refine h.step_kept hg hq ?_
      by_contra hchanged
      exact hnot (by simp [attaches, hchanged])
  · have hstays : log.held = some (q, w) ∧ (chan (Server.step s e) id).question ≠ none := by
      simp only [captureWatch, see, hheld] at hq
      split at hq
      · rename_i r hact
        exact absurd ⟨r, hact⟩ hreport
      · cases hq
      · split at hq
        · cases hq
        · exact ⟨hq, ‹_›⟩
    refine h.step_kept hg hstays.1 ?_
    rw [hmove]
    rcases Chan.step_question (fun r hact => hreport ⟨r, hact⟩) hasked with hsame | hnone
    · exact hsame
    · rw [hmove] at hstays
      exact absurd hnone hstays.2

/-- Nothing happens to a session before its id is minted. -/
theorem see_blank {act : Act} (he : act.Enabled .blank) :
    (⟨0, 0, none⟩ : CaptureLog).see .blank act .blank = ⟨0, 0, none⟩ := by
  cases act with
  | report r => exact absurd rfl he.1
  | _ => rfl

theorem step_unborn (h : Ok id s log) (hg : Grounded s) (hid : (Server.step s e).next ≤ id) :
    captureWatch id s e log = ⟨0, 0, none⟩ := by
  have hle : s.next ≤ id := (next_le_step s e).trans hid
  have hwrote : log.wrote s e id = ⟨0, 0, none⟩ := by
    rw [h.unborn hle]
    unfold CaptureLog.wrote
    split
    · split <;> rfl
    · rfl
  have hb := observe_unborn hid
  have he := observe_enabled hg.timers e id
  rw [captureWatch, hwrote, chan_step hg.timers hg.ok e id]
  rw [hg.unminted id hle] at he ⊢
  rw [blank_step he hb]
  exact see_blank he

theorem step (h : Ok id s log) (hg : Grounded s) (hi : HandsOver s) (hok : TakesCapture id s e) :
    Ok id (step s e) (captureWatch id s e log) where
  fresh hw := h.step_fresh hg hi hok hw
  shown _ _ hq := h.step_shown hg hq
  unborn hid := h.step_unborn hg hid

end CaptureLog.Ok

theorem CaptureRun.ok {id : SessionId} {p : ServerState × CaptureLog} (h : CaptureRun id (TakesCapture id) p) :
    CaptureLog.Ok id p.1 p.2 := by
  induction h with
  | start hp =>
    obtain ⟨⟨image, himage⟩, hnone⟩ := hp
    rw [himage, hnone]
    exact ⟨fun _ => rfl, (fun _ _ hq => by cases hq), fun _ => rfl⟩
  | @step p e hr hok ih =>
    have hreached := CaptureRun.reachable hr
    exact ih.step hreached.grounded hreached.handsOver hok

/-- Where every report that opens a block over a waiting capture is numbered and the disk lets it be taken: a capture is
    shown with the first block opened after it was written and with no other, and one that still waits was written
    since the last. -/
theorem capture_first {id : SessionId} {p : ServerState × CaptureLog} (h : CaptureRun id (TakesCapture id) p) :
    (∀ q w, p.2.held = some (q, w) →
      p.2.blocks = w + 1 ∧ p.1.requiresActionEnrichments.get id = some q ∧ (chan p.1 id).awaits = true) ∧
      (waiting p.1 id = true → p.2.blocks = p.2.written) :=
  ⟨h.ok.shown, h.ok.fresh⟩

/-- A `PUT …/worker` body without a number. -/
def unnumberedBody (epoch : Nat) (status : String) : Json :=
  .obj [(js "worker_epoch", .num epoch), (js "worker_status", .str (js status))]

/-- One question with one option, as the hook writes it. -/
def capturedFile : FileEntry :=
  .regular 64 (some (.obj [(js "questions", .arr [.obj
    [(js "question", .str (js "Go on?")), (js "options", .arr [.obj [(js "label", .str (js "Yes"))]])]])]))

/-- The same, as the session shows it with the report numbered `sequenceNum`. -/
def capturedQuestion (sequenceNum : Nat) : RequiresActionEnrichment :=
  ⟨sequenceNum, [⟨js "q0", js "Go on?", none, [⟨js "Yes", none⟩], false⟩]⟩

/-- A launched session whose hook has just written. -/
def hooked : List Event :=
  [.launchSession ⟨js "/w", .default, none, none⟩ true, .launchOpened 0 true "", .sessionCreate none (js "/w") .default,
    .workerRegister 2, .writeHookFile ⟨1, .handoff⟩ (some capturedFile)]

/-- And the block it is for opens, with a number. -/
def hookedRun : ServerState × CaptureLog :=
  runFrom (watched step (captureWatch 2)) (freshServer, ⟨0, 0, none⟩)
    (hooked ++ [.workerStatus 2 (statusBody 1 "requires_action" 1)])

theorem hookedRun_run : CaptureRun 2 (TakesCapture 2) hookedRun :=
  (Reach.start ⟨freshServer_booted, rfl⟩).run_allowed (by decide)

theorem capture_first_hooked :
    hookedRun.2 = ⟨1, 0, some (capturedQuestion 1, 0)⟩ ∧ hookedRun.2.blocks = 0 + 1 ∧
      hookedRun.1.requiresActionEnrichments.get 2 = some (capturedQuestion 1) ∧ (chan hookedRun.1 2).awaits = true := by
  have hlog : hookedRun.2 = ⟨1, 0, some (capturedQuestion 1, 0)⟩ := by decide
  exact ⟨hlog, (capture_first hookedRun_run).1 (capturedQuestion 1) 0 (by rw [hlog])⟩

/-- The block after the capture is opened by a report without a number, and the next one by a report with one. -/
def replayedRun : ServerState × CaptureLog :=
  runFrom (watched step (captureWatch 2)) (freshServer, ⟨0, 0, none⟩)
    (hooked ++ [.workerStatus 2 (unnumberedBody 1 "requires_action"), .workerStatus 2 (statusBody 1 "running" 1),
      .workerStatus 2 (statusBody 1 "requires_action" 2)])

/-- The question captured before the first block is shown with the second. -/
theorem capture_replayed :
    CaptureRun 2 anyEvent replayedRun ∧ replayedRun.2 = ⟨2, 0, some (capturedQuestion 2, 0)⟩ ∧
      replayedRun.1.requiresActionEnrichments.get 2 = some (capturedQuestion 2) :=
  ⟨(Reach.start ⟨freshServer_booted, rfl⟩).run, by decide, by decide⟩

/-- A disk on which no hook path can be looked at. -/
def blindDisk : FileSystem := { freshImage.fs with resolves := fun _ => false }

/-- The same, where every report is numbered and the disk throws at the first look. -/
theorem capture_unresolved :
    let p := runFrom (watched step (captureWatch 2)) (freshServer, ⟨0, 0, none⟩)
      (hooked ++ [.changeDisk blindDisk, .workerStatus 2 (statusBody 1 "requires_action" 1), .changeDisk freshImage.fs,
        .workerStatus 2 (statusBody 1 "running" 2), .workerStatus 2 (statusBody 1 "requires_action" 3)])
    p.2 = ⟨2, 0, some (capturedQuestion 3, 0)⟩ ∧
      p.1.requiresActionEnrichments.get 2 = some (capturedQuestion 3) :=
  ⟨by decide, by decide⟩

end Ccctl.Server
