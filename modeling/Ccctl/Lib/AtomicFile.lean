import Mathlib.Data.List.Basic
import Ccctl.Lib.Reach
/-
  Ccctl.Lib.AtomicFile — a file that is replaced whole: written beside, then renamed over.

  Any number of processes save at once, several saves in each. A save takes a name of its own, opens
  a file there, writes it in pieces, forces its mode and renames it over the target. Any of it may
  fail, and then the file is removed, if that works; a process may die anywhere, between a rename and
  its answer too, and a later one may have its number and come by the same names. Opening a name that
  is taken empties what is there and leaves its mode.

  - `Ok.acknowledged`, `Ok.landed`: a save that is answered has landed, and one that failed has not;
    of one that a death cut off the caller cannot tell.
  - `Ok.target`: the target is what the save that landed last was called with, under the mode, or
    what it was before any: nobody can read a part, or two saves mixed.
  - `Ok.within`: no file of a save ever has a permission outside the mode.
  - `Ok.owned`: a file beside the target is of a save under way, of a process that died, or of a
    removal that failed.
-/

namespace Ccctl.Lib.AtomicFile

/-- Permission bits. -/
abbrev Mode := BitVec 9

structure File (β : Type) where
  content : List β
  mode : Mode
  deriving DecidableEq

structure Rules (ν : Type) where
  target : ν
  temp : Nat → Nat → ν
  mode : Mode
  temp_injective : ∀ {pid seq pid' seq'}, temp pid seq = temp pid' seq' → pid = pid' ∧ seq = seq'
  temp_ne : ∀ pid seq, temp pid seq ≠ target

/-- What a save waits for; the number is its name's. -/
inductive Phase (β : Type) where
  | preparing
  | opening (seq : Nat)
  | writing (seq : Nat) (left : List β)
  | forcing (seq : Nat)
  | replacing (seq : Nat)
  /-- Renamed, and not answered yet. -/
  | replaced
  | cleaning (seq : Nat)
  | fulfilled
  | rejected (left : Option Nat)
  | lost (left : Option Nat)
  deriving DecidableEq

/-- The name a save that is under way works on. -/
def Phase.seq? {β : Type} : Phase β → Option Nat
  | .opening seq | .writing seq _ | .forcing seq | .replacing seq | .cleaning seq => some seq
  | .preparing | .replaced | .fulfilled | .rejected _ | .lost _ => none

/-- The name it may have left a file at. -/
def Phase.left? {β : Type} : Phase β → Option Nat
  | .rejected left | .lost left => left
  | phase => phase.seq?

/-- Renamed over the target. -/
def Phase.Renamed {β : Type} : Phase β → Prop
  | .replaced | .fulfilled => True
  | _ => False

/-- Where a save can be once it was renamed: a death may have come before the answer. -/
def Phase.Past {β : Type} : Phase β → Prop
  | .replaced | .fulfilled | .lost none => True
  | _ => False

theorem Phase.Renamed.past {β : Type} {phase : Phase β} (h : phase.Renamed) : phase.Past := by
  cases phase with
  | replaced => trivial
  | fulfilled => trivial
  | _ => exact h.elim

structure Save (β : Type) where
  pid : Nat
  content : List β
  phase : Phase β
  deriving DecidableEq

structure Disk (ν β : Type) where
  files : ν → Option (File β)
  /-- A process that runs, and its next number. -/
  running : Nat → Option Nat
  saves : List (Save β)
  /-- Those that were renamed over the target, in order. -/
  landed : List Nat

inductive Event (β : Type) where
  | spawned (pid : Nat)
  | died (pid : Nat)
  | called (pid : Nat) (content : List β)
  /-- What the save waits for is done; a write takes `n` elements more. -/
  | ran (i : Nat) (umask : Mode) (n : Nat)
  | failed (i : Nat)

variable {ν β : Type} [DecidableEq ν]

def put (files : ν → Option (File β)) (name : ν) (file : Option (File β)) : ν → Option (File β) :=
  fun other => if other = name then file else files other

namespace Disk

def setPhase (s : Disk ν β) (i : Nat) (phase : Phase β) : Disk ν β :=
  { s with saves := s.saves.modify i fun save => { save with phase } }

variable (rules : Rules ν)

/-- `open` for writing: a new file gets the mode less the mask, one that is there is emptied. -/
def opened (s : Disk ν β) (name : ν) (umask : Mode) : Option (File β) :=
  match s.files name with
  | none => some ⟨[], rules.mode &&& ~~~umask⟩
  | some file => some { file with content := [] }

def ran (s : Disk ν β) (i : Nat) (umask : Mode) (n : Nat) : Disk ν β :=
  match s.saves[i]? with
  | none => s
  | some ⟨pid, content, phase⟩ =>
    match phase with
    | .preparing =>
      match s.running pid with
      | none => s
      | some seq =>
        { s.setPhase i (.opening seq) with
          running := fun other => if other = pid then some (seq + 1) else s.running other }
    | .opening seq =>
      let name := rules.temp pid seq
      { s.setPhase i (.writing seq content) with files := put s.files name (s.opened rules name umask) }
    | .writing seq left =>
      let name := rules.temp pid seq
      let wrote := (s.files name).map fun file => { file with content := file.content ++ left.take n }
      let phase := if left.drop n = [] then .forcing seq else .writing seq (left.drop n)
      { s.setPhase i phase with files := put s.files name wrote }
    | .forcing seq =>
      let name := rules.temp pid seq
      let forced := (s.files name).map fun file => { file with mode := rules.mode }
      { s.setPhase i (.replacing seq) with files := put s.files name forced }
    | .replacing seq =>
      let name := rules.temp pid seq
      { s.setPhase i .replaced with
        files := put (put s.files rules.target (s.files name)) name none
        landed := s.landed ++ [i] }
    | .replaced => s.setPhase i .fulfilled
    | .cleaning seq => { s.setPhase i (.rejected none) with files := put s.files (rules.temp pid seq) none }
    | .fulfilled | .rejected _ | .lost _ => s

def failed (s : Disk ν β) (i : Nat) : Disk ν β :=
  match s.saves[i]? with
  | none => s
  | some save =>
    match save.phase with
    | .preparing => s.setPhase i (.rejected none)
    | .opening seq | .writing seq _ | .forcing seq | .replacing seq => s.setPhase i (.cleaning seq)
    | .cleaning seq => s.setPhase i (.rejected (some seq))
    | .replaced | .fulfilled | .rejected _ | .lost _ => s

/-- A death takes the saves that are under way. -/
def lose (pid : Nat) (save : Save β) : Save β :=
  match save.phase with
  | .fulfilled | .rejected _ | .lost _ => save
  | phase => if save.pid = pid then { save with phase := .lost phase.seq? } else save

end Disk

open Disk in
def step (rules : Rules ν) (s : Disk ν β) : Event β → Disk ν β
  | .spawned pid =>
    if s.running pid = none then
      { s with running := fun other => if other = pid then some 0 else s.running other }
    else s
  | .died pid =>
    { s with
      running := fun other => if other = pid then none else s.running other
      saves := s.saves.map (lose pid) }
  | .called pid content =>
    if s.running pid = none then s else { s with saves := s.saves ++ [⟨pid, content, .preparing⟩] }
  | .ran i umask n => s.ran rules i umask n
  | .failed i => s.failed i

/-! ## The invariant -/

variable {rules : Rules ν}

/-- What a save has written so far is at its name. -/
def OnDisk (rules : Rules ν) (files : ν → Option (File β)) (save : Save β) : Prop :=
  match save.phase with
  | .writing seq left => ∃ file, files (rules.temp save.pid seq) = some file ∧ file.content ++ left = save.content
  | .forcing seq => ∃ file, files (rules.temp save.pid seq) = some file ∧ file.content = save.content
  | .replacing seq => files (rules.temp save.pid seq) = some ⟨save.content, rules.mode⟩
  | _ => True

/-- No bit outside the mode. -/
def Within (rules : Rules ν) (mode : Mode) : Prop := mode &&& ~~~rules.mode = 0

/-- What the target holds after these landed. -/
def landing (rules : Rules ν) (initial : Option (File β)) (saves : List (Save β)) (landed : List Nat) :
    Option (File β) :=
  match landed.getLast? with
  | none => initial
  | some i => (saves[i]?).map fun save => ⟨save.content, rules.mode⟩

structure Ok (rules : Rules ν) (initial : Option (File β)) (s : Disk ν β) : Prop where
  numbered : ∀ (i : Nat) (save : Save β) seq, s.saves[i]? = some save → save.phase.seq? = some seq →
    ∃ next, s.running save.pid = some next ∧ seq < next
  apart : ∀ (i j : Nat) (save save' : Save β) seq, s.saves[i]? = some save → s.saves[j]? = some save' → save.pid = save'.pid →
    save.phase.seq? = some seq → save'.phase.seq? = some seq → i = j
  onDisk : ∀ (i : Nat) save, s.saves[i]? = some save → OnDisk rules s.files save
  within : ∀ pid seq file, s.files (rules.temp pid seq) = some file → Within rules file.mode
  owned : ∀ pid seq, s.files (rules.temp pid seq) ≠ none → ∃ save ∈ s.saves, save.pid = pid ∧ save.phase.left? = some seq
  target : s.files rules.target = landing rules initial s.saves s.landed
  acknowledged : ∀ (i : Nat) (save : Save β), s.saves[i]? = some save → save.phase.Renamed → i ∈ s.landed
  landed : ∀ i ∈ s.landed, ∃ save, s.saves[i]? = some save ∧ save.phase.Past
  once : s.landed.Nodup

/-- Nothing runs yet, and no save has left a file. -/
structure Start (rules : Rules ν) (initial : Option (File β)) (s : Disk ν β) : Prop where
  running : ∀ pid, s.running pid = none
  saves : s.saves = []
  landed : s.landed = []
  target : s.files rules.target = initial
  temps : ∀ pid seq, s.files (rules.temp pid seq) = none

abbrev Run (rules : Rules ν) (initial : Option (File β)) : Disk ν β → Prop := Reach (step rules) (Start rules initial) anyEvent

omit [DecidableEq ν] in
theorem Start.ok {initial : Option (File β)} {s : Disk ν β} (h : Start rules initial s) : Ok rules initial s where
  numbered := by simp [h.saves]
  apart := by simp [h.saves]
  onDisk := by simp [h.saves]
  within := by simp [h.temps]
  owned := by simp [h.temps]
  target := by rw [h.target, h.landed]; rfl
  acknowledged := by simp [h.saves]
  landed := by simp [h.landed]
  once := by simp [h.landed]

variable {initial : Option (File β)} {s : Disk ν β}

theorem put_self (files : ν → Option (File β)) (name : ν) (file : Option (File β)) : put files name file name = file :=
  if_pos rfl

theorem put_other {files : ν → Option (File β)} {name other : ν} {file : Option (File β)} (h : other ≠ name) :
    put files name file other = files other := if_neg h

omit [DecidableEq ν] in
theorem getElem?_setPhase (s : Disk ν β) (i : Nat) (phase : Phase β) (j : Nat) :
    (s.setPhase i phase).saves[j]? = if i = j then (s.saves[j]?).map fun save => { save with phase } else s.saves[j]? := by
  simp only [Disk.setPhase, List.getElem?_modify]
  split <;> simp

omit [DecidableEq ν] in
theorem saves_setPhase {i : Nat} {save : Save β} (hi : s.saves[i]? = some save) (phase : Phase β) {j : Nat}
    {after : Save β} :
    (s.setPhase i phase).saves[j]? = some after ↔
      j = i ∧ after = { save with phase } ∨ j ≠ i ∧ s.saves[j]? = some after := by
  rw [getElem?_setPhase]
  by_cases heq : i = j
  · subst heq
    rw [if_pos rfl, hi]
    simp [eq_comm]
  · simp [heq, Ne.symm heq]

omit [DecidableEq ν] in
/-- The target looks only at what the saves were called with. -/
theorem landing_congr {saves saves' : List (Save β)} {landed : List Nat}
    (h : ∀ i ∈ landed, (saves'[i]?).map (·.content) = (saves[i]?).map (·.content)) :
    landing rules initial saves' landed = landing rules initial saves landed := by
  unfold landing
  cases hlast : landed.getLast? with
  | none => rfl
  | some i =>
    have hsame := h i (List.mem_of_getLast? hlast)
    have hfile : ∀ save : Option (Save β), save.map (fun save => (⟨save.content, rules.mode⟩ : File β)) =
        (save.map (·.content)).map fun content => ⟨content, rules.mode⟩ := fun save => by cases save <;> rfl
    show (saves'[i]?).map _ = (saves[i]?).map _
    rw [hfile, hfile, hsame]

omit [DecidableEq ν] in
theorem content_setPhase (s : Disk ν β) (i : Nat) (phase : Phase β) (j : Nat) :
    ((s.setPhase i phase).saves[j]?).map (·.content) = (s.saves[j]?).map (·.content) := by
  rw [getElem?_setPhase]
  split
  · rw [Option.map_map]
    rfl
  · rfl

omit [DecidableEq ν] in
theorem OnDisk.congr {files files' : ν → Option (File β)} {save : Save β} (h : OnDisk rules files save)
    (hsame : ∀ seq, save.phase.seq? = some seq → files' (rules.temp save.pid seq) = files (rules.temp save.pid seq)) :
    OnDisk rules files' save := by
  obtain ⟨pid, content, phase⟩ := save
  cases phase with
  | writing seq left =>
    obtain ⟨file, hfile, hrest⟩ := h
    exact ⟨file, (hsame seq rfl).trans hfile, hrest⟩
  | forcing seq =>
    obtain ⟨file, hfile, hrest⟩ := h
    exact ⟨file, (hsame seq rfl).trans hfile, hrest⟩
  | replacing seq => exact (hsame seq rfl).trans h
  | _ => trivial

/-- A save is under way, and what a step of it changes is at its own name. -/
structure Moves (rules : Rules ν) (s : Disk ν β) (i : Nat) (save : Save β) (phase : Phase β) (files : ν → Option (File β))
    (landed : List Nat) : Prop where
  under : save.phase.left? = save.phase.seq?
  pending : ¬ save.phase.Past
  seq : phase.seq? = save.phase.seq? ∨ phase.seq? = none
  aside : ∀ name, name ≠ rules.target → (∀ seq, save.phase.seq? = some seq → name ≠ rules.temp save.pid seq) →
    files name = s.files name
  onDisk : OnDisk rules files { save with phase }
  within : ∀ seq file, save.phase.seq? = some seq → files (rules.temp save.pid seq) = some file → Within rules file.mode
  owned : ∀ seq, save.phase.seq? = some seq → files (rules.temp save.pid seq) ≠ none → phase.left? = some seq
  lands : ¬ phase.Renamed ∧ files rules.target = s.files rules.target ∧ landed = s.landed ∨
    phase = .replaced ∧ files rules.target = some ⟨save.content, rules.mode⟩ ∧ landed = s.landed ++ [i]

omit [DecidableEq ν] in
theorem Ok.moves (h : Ok rules initial s) {i : Nat} {save : Save β} (hi : s.saves[i]? = some save) {phase : Phase β}
    {files : ν → Option (File β)} {landed : List Nat} (hm : Moves rules s i save phase files landed) :
    Ok rules initial { s.setPhase i phase with files, landed } := by
  -- a save that has a name had it
  have hwas : ∀ {j : Nat} {after : Save β}, (s.setPhase i phase).saves[j]? = some after →
      ∃ before, s.saves[j]? = some before ∧ before.pid = after.pid ∧
        ∀ seq, after.phase.seq? = some seq → before.phase.seq? = some seq := by
    intro j after hj
    rcases (saves_setPhase hi phase).mp hj with ⟨rfl, rfl⟩ | ⟨-, hj⟩
    · refine ⟨save, hi, rfl, fun seq hseq => ?_⟩
      rcases hm.seq with hsame | hnone
      · exact hsame ▸ hseq
      · cases hnone.symm.trans hseq
    · exact ⟨after, hj, rfl, fun _ hseq => hseq⟩
  have hother : ∀ {j : Nat} {other : Save β} {seq : Nat}, j ≠ i → s.saves[j]? = some other → other.phase.seq? = some seq →
      files (rules.temp other.pid seq) = s.files (rules.temp other.pid seq) := by
    intro j other seq hne hj hseq
    refine hm.aside _ (rules.temp_ne _ _) fun own hown heq => hne ?_
    obtain ⟨hpid, rfl⟩ := rules.temp_injective heq
    exact h.apart j i other save seq hj hi hpid hseq hown
  have hnew : i ∉ s.landed := fun hi' => by
    obtain ⟨before, hbefore, hpast⟩ := h.landed i hi'
    obtain rfl := Option.some.inj (hi.symm.trans hbefore)
    exact hm.pending hpast
  refine ⟨?_, ?_, ?_, ?_, ?_, ?_, ?_, ?_, ?_⟩
  · intro j after seq hj hseq
    obtain ⟨before, hbefore, hpid, hhad⟩ := hwas hj
    exact hpid ▸ h.numbered j before seq hbefore (hhad seq hseq)
  · intro j k after after' seq hj hk hpid hseq hseq'
    obtain ⟨before, hbefore, hp, hhad⟩ := hwas hj
    obtain ⟨before', hbefore', hp', hhad'⟩ := hwas hk
    exact h.apart j k before before' seq hbefore hbefore' (hp.trans (hpid.trans hp'.symm)) (hhad seq hseq) (hhad' seq hseq')
  · intro j after hj
    rcases (saves_setPhase hi phase).mp hj with ⟨rfl, rfl⟩ | ⟨hne, hj⟩
    · exact hm.onDisk
    · exact (h.onDisk j after hj).congr fun seq hseq => hother hne hj hseq
  · intro pid seq file hfile
    by_cases hown : save.phase.seq? = some seq ∧ pid = save.pid
    · obtain ⟨hseq, rfl⟩ := hown
      exact hm.within seq file hseq hfile
    · have hsame := hm.aside (rules.temp pid seq) (rules.temp_ne _ _) fun own hseq heq => hown (by
        obtain ⟨hpid, rfl⟩ := rules.temp_injective heq
        exact ⟨hseq, hpid⟩)
      exact h.within pid seq file (hsame ▸ hfile)
  · intro pid seq hfile
    by_cases hown : save.phase.seq? = some seq ∧ pid = save.pid
    · obtain ⟨hseq, rfl⟩ := hown
      exact ⟨{ save with phase }, List.mem_of_getElem? ((saves_setPhase hi phase).mpr (.inl ⟨rfl, rfl⟩)), rfl,
        hm.owned seq hseq hfile⟩
    · have hsame := hm.aside (rules.temp pid seq) (rules.temp_ne _ _) fun own hseq heq => hown (by
        obtain ⟨hpid, rfl⟩ := rules.temp_injective heq
        exact ⟨hseq, hpid⟩)
      obtain ⟨owner, hmem, hpid, hleft⟩ := h.owned pid seq (hsame ▸ hfile)
      obtain ⟨j, hj⟩ := List.mem_iff_getElem?.mp hmem
      have hne : j ≠ i := by
        intro hfound
        subst hfound
        obtain rfl := Option.some.inj (hi.symm.trans hj)
        exact hown ⟨hm.under ▸ hleft, hpid.symm⟩
      exact ⟨owner, List.mem_of_getElem? ((saves_setPhase hi phase).mpr (.inr ⟨hne, hj⟩)), hpid, hleft⟩
  · show files rules.target = landing rules initial (s.setPhase i phase).saves landed
    rw [landing_congr fun j _ => content_setPhase s i phase j]
    rcases hm.lands with ⟨-, htarget, rfl⟩ | ⟨-, htarget, rfl⟩
    · rw [htarget, h.target]
    · rw [htarget]
      simp [landing, hi]
  · intro j after hj hrenamed
    rcases (saves_setPhase hi phase).mp hj with ⟨rfl, rfl⟩ | ⟨-, hj⟩
    · rcases hm.lands with ⟨hnot, -, -⟩ | ⟨-, -, rfl⟩
      · exact absurd hrenamed hnot
      · exact List.mem_append_right _ (List.mem_singleton_self _)
    · have hold := h.acknowledged j after hj hrenamed
      rcases hm.lands with ⟨-, -, rfl⟩ | ⟨-, -, rfl⟩
      · exact hold
      · exact List.mem_append_left _ hold
  · intro j hj
    have hkept : j ∈ s.landed → ∃ after, (s.setPhase i phase).saves[j]? = some after ∧ after.phase.Past := fun hold => by
      obtain ⟨before, hbefore, hpast⟩ := h.landed j hold
      exact ⟨before, (saves_setPhase hi phase).mpr (.inr ⟨fun heq => hnew (heq ▸ hold), hbefore⟩), hpast⟩
    rcases hm.lands with ⟨-, -, rfl⟩ | ⟨rfl, -, rfl⟩
    · exact hkept hj
    · rcases List.mem_append.mp hj with hold | hlast
      · exact hkept hold
      · exact ⟨_, (saves_setPhase hi _).mpr (.inl ⟨List.mem_singleton.mp hlast, rfl⟩), trivial⟩
  · show landed.Nodup
    rcases hm.lands with ⟨-, -, rfl⟩ | ⟨-, -, rfl⟩
    · exact h.once
    · rw [List.nodup_append]
      refine ⟨h.once, by simp, fun j hj k hk heq => hnew ?_⟩
      rw [← List.mem_singleton.mp hk, ← heq]
      exact hj

/-! ## What keeps it -/

omit [DecidableEq ν] in
/-- A step that touches no file. -/
theorem Ok.rephased (h : Ok rules initial s) {i : Nat} {save : Save β} (hi : s.saves[i]? = some save) {phase : Phase β}
    (hunder : save.phase.left? = save.phase.seq?) (hpending : ¬ save.phase.Past) (hnot : ¬ phase.Renamed)
    (hseq : phase.seq? = save.phase.seq? ∨ phase.seq? = none) (hdisk : OnDisk rules s.files { save with phase })
    (hleft : ∀ seq, save.phase.seq? = some seq → phase.left? = some seq) : Ok rules initial (s.setPhase i phase) := by
  have hm : Moves rules s i save phase s.files s.landed :=
    ⟨hunder, hpending, hseq, fun _ _ _ => rfl, hdisk, fun seq file _ => h.within save.pid seq file,
      fun seq hseq _ => hleft seq hseq, .inl ⟨hnot, rfl, rfl⟩⟩
  exact h.moves hi hm

/-- A step that changes the file at the save's own name. -/
theorem Ok.written (h : Ok rules initial s) {i pid seq : Nat} {content : List β} {before phase : Phase β}
    (hi : s.saves[i]? = some ⟨pid, content, before⟩) (hunder : before.left? = before.seq?) (hbefore : before.seq? = some seq)
    (hpending : ¬ before.Past) (hnot : ¬ phase.Renamed) (hseq : phase.seq? = some seq ∨ phase.seq? = none)
    {file : Option (File β)} (hfile : ∀ f, file = some f → Within rules f.mode ∧ phase.left? = some seq)
    (hdisk : OnDisk rules (put s.files (rules.temp pid seq) file) ⟨pid, content, phase⟩) :
    Ok rules initial { s.setPhase i phase with files := put s.files (rules.temp pid seq) file } := by
  have hm : Moves rules s i ⟨pid, content, before⟩ phase (put s.files (rules.temp pid seq) file) s.landed := by
    refine ⟨hunder, hpending, hbefore ▸ hseq, fun name _ hne => put_other (hne seq hbefore), hdisk, ?_, ?_,
      .inl ⟨hnot, put_other (rules.temp_ne pid seq).symm, rfl⟩⟩
    · intro own f hown hf
      obtain rfl := Option.some.inj (hbefore.symm.trans hown)
      rw [put_self] at hf
      exact (hfile f hf).1
    · intro own hown hf
      obtain rfl := Option.some.inj (hbefore.symm.trans hown)
      rw [put_self] at hf
      obtain ⟨f, hf⟩ := Option.ne_none_iff_exists'.mp hf
      exact (hfile f hf).2
  exact h.moves hi hm

omit [DecidableEq ν] in
theorem opened_some (s : Disk ν β) (pid seq : Nat) (umask : Mode) (h : Ok rules initial s) :
    ∃ file, s.opened rules (rules.temp pid seq) umask = some file ∧ file.content = [] ∧ Within rules file.mode := by
  unfold Disk.opened
  split
  · refine ⟨_, rfl, rfl, ?_⟩
    show rules.mode &&& ~~~umask &&& ~~~rules.mode = 0
    rw [BitVec.and_assoc, BitVec.and_comm (~~~umask), ← BitVec.and_assoc]
    simp
  · rename_i file hfile
    exact ⟨_, rfl, rfl, h.within pid seq file hfile⟩

omit [DecidableEq ν] in
theorem Ok.prepared (h : Ok rules initial s) {i pid next : Nat} {content : List β}
    (hi : s.saves[i]? = some ⟨pid, content, .preparing⟩) (hnext : s.running pid = some next) :
    Ok rules initial { s.setPhase i (.opening next) with
      running := fun other => if other = pid then some (next + 1) else s.running other } := by
  refine ⟨?_, ?_, ?_, h.within, ?_, ?_, ?_, ?_, h.once⟩
  · intro j after seq hj hseq
    rcases (saves_setPhase hi _).mp hj with ⟨rfl, rfl⟩ | ⟨-, hj⟩
    · obtain rfl := Option.some.inj hseq
      exact ⟨next + 1, if_pos rfl, Nat.lt_succ_self _⟩
    · obtain ⟨bound, hbound, hlt⟩ := h.numbered j after seq hj hseq
      by_cases hpid : after.pid = pid
      · obtain rfl := Option.some.inj (hnext.symm.trans (hpid ▸ hbound))
        exact ⟨next + 1, if_pos hpid, Nat.lt_succ_of_lt hlt⟩
      · exact ⟨bound, (if_neg hpid).trans hbound, hlt⟩
  · -- a number that is given out is below the next one
    have hnew : ∀ {j : Nat} {other : Save β}, s.saves[j]? = some other → other.pid = pid → other.phase.seq? ≠ some next := by
      intro j other hj hpid hseq
      obtain ⟨bound, hbound, hlt⟩ := h.numbered j other next hj hseq
      obtain rfl := Option.some.inj (hnext.symm.trans (hpid ▸ hbound))
      exact Nat.lt_irrefl _ hlt
    intro j k after after' seq hj hk hpid hseq hseq'
    rcases (saves_setPhase hi _).mp hj with ⟨rfl, rfl⟩ | ⟨-, hwas⟩ <;>
      rcases (saves_setPhase hi _).mp hk with ⟨rfl, rfl⟩ | ⟨-, hwas'⟩
    · rfl
    · obtain rfl := Option.some.inj hseq
      exact absurd hseq' (hnew hwas' hpid.symm)
    · obtain rfl := Option.some.inj hseq'
      exact absurd hseq (hnew hwas hpid)
    · exact h.apart j k after after' seq hwas hwas' hpid hseq hseq'
  · intro j after hj
    rcases (saves_setPhase hi _).mp hj with ⟨rfl, rfl⟩ | ⟨-, hj⟩
    · trivial
    · exact h.onDisk j after hj
  · intro own seq hfile
    obtain ⟨owner, hmem, hpid, hleft⟩ := h.owned own seq hfile
    obtain ⟨j, hj⟩ := List.mem_iff_getElem?.mp hmem
    have hne : j ≠ i := by
      intro heq
      subst heq
      obtain rfl := Option.some.inj (hi.symm.trans hj)
      cases hleft
    exact ⟨owner, List.mem_of_getElem? ((saves_setPhase hi _).mpr (.inr ⟨hne, hj⟩)), hpid, hleft⟩
  · exact h.target.trans (landing_congr fun j _ => content_setPhase s i _ j).symm
  · intro j after hj hrenamed
    rcases (saves_setPhase hi _).mp hj with ⟨-, rfl⟩ | ⟨-, hj⟩
    · exact hrenamed.elim
    · exact h.acknowledged j after hj hrenamed
  · intro j hj
    obtain ⟨before, hbefore, hpast⟩ := h.landed j hj
    refine ⟨before, (saves_setPhase hi _).mpr (.inr ⟨?_, hbefore⟩), hpast⟩
    intro heq
    subst heq
    obtain rfl := Option.some.inj (hi.symm.trans hbefore)
    exact hpast.elim

omit [DecidableEq ν] in
/-- The answer to a rename. -/
theorem Ok.answered (h : Ok rules initial s) {i pid : Nat} {content : List β}
    (hi : s.saves[i]? = some ⟨pid, content, .replaced⟩) : Ok rules initial (s.setPhase i .fulfilled) := by
  -- what is under way is another save
  have hunder : ∀ {j : Nat} {after : Save β} {seq : Nat}, (s.setPhase i .fulfilled).saves[j]? = some after →
      after.phase.seq? = some seq → s.saves[j]? = some after := by
    intro j after seq hj hseq
    rcases (saves_setPhase hi _).mp hj with ⟨-, rfl⟩ | ⟨-, hj⟩
    · cases hseq
    · exact hj
  refine ⟨fun j after seq hj hseq => h.numbered j after seq (hunder hj hseq) hseq,
    fun j k after after' seq hj hk hpid hseq hseq' =>
      h.apart j k after after' seq (hunder hj hseq) (hunder hk hseq') hpid hseq hseq', ?_, h.within, ?_, ?_, ?_, ?_, h.once⟩
  · intro j after hj
    rcases (saves_setPhase hi _).mp hj with ⟨-, rfl⟩ | ⟨-, hj⟩
    · trivial
    · exact h.onDisk j after hj
  · intro own seq hfile
    obtain ⟨owner, hmem, hpid, hleft⟩ := h.owned own seq hfile
    obtain ⟨j, hj⟩ := List.mem_iff_getElem?.mp hmem
    have hne : j ≠ i := by
      intro hsame
      subst hsame
      obtain rfl := Option.some.inj (hi.symm.trans hj)
      cases hleft
    exact ⟨owner, List.mem_of_getElem? ((saves_setPhase hi _).mpr (.inr ⟨hne, hj⟩)), hpid, hleft⟩
  · exact h.target.trans (landing_congr fun j _ => content_setPhase s i _ j).symm
  · intro j after hj hrenamed
    rcases (saves_setPhase hi _).mp hj with ⟨rfl, -⟩ | ⟨-, hj⟩
    · exact h.acknowledged j _ hi trivial
    · exact h.acknowledged j after hj hrenamed
  · intro j hj
    obtain ⟨before, hbefore, hpast⟩ := h.landed j hj
    by_cases heq : j = i
    · exact ⟨_, (saves_setPhase hi _).mpr (.inl ⟨heq, rfl⟩), trivial⟩
    · exact ⟨before, (saves_setPhase hi _).mpr (.inr ⟨heq, hbefore⟩), hpast⟩

theorem Ok.ran (h : Ok rules initial s) (i : Nat) (umask : Mode) (n : Nat) : Ok rules initial (s.ran rules i umask n) := by
  unfold Disk.ran
  cases hi : s.saves[i]? with
  | none => exact h
  | some save =>
    obtain ⟨pid, content, phase⟩ := save
    have hdisk := h.onDisk i _ hi
    cases phase with
    | preparing =>
      dsimp only
      cases hnext : s.running pid with
      | none => exact h
      | some next => exact h.prepared hi hnext
    | opening seq =>
      obtain ⟨file, hopened, hempty, hwithin⟩ := opened_some s pid seq umask h
      refine h.written hi rfl rfl id id (.inl rfl) (fun f hf => ?_) ?_
      · obtain rfl := Option.some.inj (hopened.symm.trans hf)
        exact ⟨hwithin, rfl⟩
      · exact ⟨file, (put_self ..).trans hopened, by rw [hempty]; rfl⟩
    | writing seq left =>
      obtain ⟨file, hfile, hcontent⟩ := hdisk
      have hfile : s.files (rules.temp pid seq) = some file := hfile
      have hphase : ∀ phase : Phase β, phase = (if left.drop n = [] then .forcing seq else .writing seq (left.drop n)) →
          ¬ phase.Renamed ∧ phase.seq? = some seq ∧ phase.left? = some seq := by
        intro phase heq
        subst heq
        split <;> exact ⟨id, rfl, rfl⟩
      obtain ⟨hnot, hseq, hleft⟩ := hphase _ rfl
      refine h.written hi rfl rfl id hnot (.inl hseq) (fun f hf => ?_) ?_
      · rw [hfile] at hf
        obtain rfl := Option.some.inj hf
        exact ⟨h.within pid seq file hfile, hleft⟩
      · have hwrote : (file.content ++ left.take n) ++ left.drop n = content := by
          rw [List.append_assoc, List.take_append_drop]
          exact hcontent
        rw [hfile]
        split
        · rename_i hdone
          rw [hdone, List.append_nil] at hwrote
          exact ⟨_, put_self .., hwrote⟩
        · exact ⟨_, put_self .., hwrote⟩
    | forcing seq =>
      obtain ⟨file, hfile, hcontent⟩ := hdisk
      have hfile : s.files (rules.temp pid seq) = some file := hfile
      refine h.written hi rfl rfl id id (.inl rfl) (fun f hf => ?_) ?_
      · rw [hfile] at hf
        obtain rfl := Option.some.inj hf
        exact ⟨by simp [Within], rfl⟩
      · rw [hfile]
        refine (put_self ..).trans ?_
        rw [← hcontent]
        rfl
    | replacing seq =>
      have hfile : s.files (rules.temp pid seq) = some ⟨content, rules.mode⟩ := hdisk
      have hm : Moves rules s i ⟨pid, content, .replacing seq⟩ .replaced
          (put (put s.files rules.target (s.files (rules.temp pid seq))) (rules.temp pid seq) none) (s.landed ++ [i]) := by
        refine ⟨rfl, id, .inr rfl, fun name htarget hne => ?_, trivial, fun own f hown hf => ?_, fun own hown hf => ?_,
          .inr ⟨rfl, ?_, rfl⟩⟩
        · exact (put_other (hne seq rfl)).trans (put_other htarget)
        · obtain rfl := Option.some.inj hown
          cases (put_self ..).symm.trans hf
        · obtain rfl := Option.some.inj hown
          exact absurd (put_self ..) hf
        · rw [put_other (rules.temp_ne pid seq).symm, put_self, hfile]
      exact h.moves hi hm
    | cleaning seq =>
      exact h.written hi rfl rfl id id (.inr rfl) (fun f hf => by cases hf) trivial
    | replaced => exact h.answered hi
    | fulfilled => exact h
    | rejected left => exact h
    | lost left => exact h

omit [DecidableEq ν] in
theorem Ok.failed (h : Ok rules initial s) (i : Nat) : Ok rules initial (s.failed i) := by
  unfold Disk.failed
  cases hi : s.saves[i]? with
  | none => exact h
  | some save =>
    obtain ⟨pid, content, phase⟩ := save
    cases phase with
    | preparing => exact h.rephased hi rfl id id (.inl rfl) trivial fun _ hseq => by cases hseq
    | opening seq => exact h.rephased hi rfl id id (.inl rfl) trivial fun _ hseq => hseq
    | writing seq left => exact h.rephased hi rfl id id (.inl rfl) trivial fun _ hseq => hseq
    | forcing seq => exact h.rephased hi rfl id id (.inl rfl) trivial fun _ hseq => hseq
    | replacing seq => exact h.rephased hi rfl id id (.inl rfl) trivial fun _ hseq => hseq
    | cleaning seq => exact h.rephased hi rfl id id (.inr rfl) trivial fun _ hseq => hseq
    | replaced => exact h
    | fulfilled => exact h
    | rejected left => exact h
    | lost left => exact h

/-! ## Deaths -/

theorem lose_cases (pid : Nat) (save : Save β) :
    Disk.lose pid save = save ∧ (save.pid = pid → save.phase.seq? = none) ∨
      save.pid = pid ∧ save.phase ≠ .fulfilled ∧ save.phase.left? = save.phase.seq? ∧
        Disk.lose pid save = { save with phase := .lost save.phase.seq? } := by
  obtain ⟨owner, content, phase⟩ := save
  by_cases hpid : owner = pid
  · subst hpid
    cases phase with
    | fulfilled => exact .inl ⟨rfl, fun _ => rfl⟩
    | rejected left => exact .inl ⟨rfl, fun _ => rfl⟩
    | lost left => exact .inl ⟨rfl, fun _ => rfl⟩
    | _ => exact .inr ⟨rfl, by simp, rfl, by simp [Disk.lose]⟩
  · refine .inl ⟨?_, fun heq => absurd heq hpid⟩
    cases phase <;> simp [Disk.lose, hpid]

/-- A death between the rename and the answer leaves the caller without one. -/
theorem lose_past (pid : Nat) {save : Save β} (h : save.phase.Past) : (Disk.lose pid save).phase.Past := by
  obtain ⟨owner, content, phase⟩ := save
  cases phase with
  | replaced =>
    unfold Disk.lose
    dsimp only
    split <;> trivial
  | fulfilled => trivial
  | lost left => exact h
  | _ => exact h.elim

theorem lose_content (pid : Nat) (save : Save β) : (Disk.lose pid save).content = save.content := by
  rcases lose_cases pid save with ⟨hsame, -⟩ | ⟨-, -, -, hlost⟩
  · rw [hsame]
  · rw [hlost]

omit [DecidableEq ν] in
theorem Ok.died (h : Ok rules initial s) (pid : Nat) :
    Ok rules initial { s with
      running := fun other => if other = pid then none else s.running other
      saves := s.saves.map (Disk.lose pid) } := by
  have hget : ∀ {j : Nat} {after : Save β}, (s.saves.map (Disk.lose pid))[j]? = some after ↔
      ∃ before, s.saves[j]? = some before ∧ Disk.lose pid before = after := fun {j after} => by
    rw [List.getElem?_map, Option.map_eq_some_iff]
  -- a save that is under way after is another process's, and was
  have hunder : ∀ {j : Nat} {after : Save β} {seq : Nat}, (s.saves.map (Disk.lose pid))[j]? = some after →
      after.phase.seq? = some seq → s.saves[j]? = some after ∧ after.pid ≠ pid := by
    intro j after seq hj hseq
    obtain ⟨before, hbefore, rfl⟩ := hget.mp hj
    rcases lose_cases pid before with ⟨hsame, hnone⟩ | ⟨-, -, -, hlost⟩
    · rw [hsame] at hseq ⊢
      refine ⟨hbefore, fun hpid => ?_⟩
      rw [hnone hpid] at hseq
      cases hseq
    · rw [hlost] at hseq
      cases hseq
  refine ⟨?_, ?_, ?_, h.within, ?_, ?_, ?_, ?_, h.once⟩
  · intro j after seq hj hseq
    obtain ⟨hbefore, hne⟩ := hunder hj hseq
    obtain ⟨next, hnext, hlt⟩ := h.numbered j after seq hbefore hseq
    exact ⟨next, (if_neg hne).trans hnext, hlt⟩
  · intro j k after after' seq hj hk hpid hseq hseq'
    exact h.apart j k after after' seq (hunder hj hseq).1 (hunder hk hseq').1 hpid hseq hseq'
  · intro j after hj
    obtain ⟨before, hbefore, rfl⟩ := hget.mp hj
    rcases lose_cases pid before with ⟨hsame, -⟩ | ⟨-, -, -, hlost⟩
    · rw [hsame]
      exact h.onDisk j before hbefore
    · rw [hlost]
      trivial
  · intro own seq hfile
    obtain ⟨owner, hmem, hpid, hleft⟩ := h.owned own seq hfile
    refine ⟨Disk.lose pid owner, List.mem_map_of_mem hmem, ?_⟩
    rcases lose_cases pid owner with ⟨hsame, -⟩ | ⟨-, -, hsame, hlost⟩
    · rw [hsame]
      exact ⟨hpid, hleft⟩
    · rw [hlost]
      exact ⟨hpid, hsame ▸ hleft⟩
  · refine h.target.trans (landing_congr fun j _ => ?_).symm
    rw [List.getElem?_map, Option.map_map]
    exact congrArg (fun f => (s.saves[j]?).map f) (funext (lose_content pid))
  · intro j after hj hrenamed
    obtain ⟨before, hbefore, rfl⟩ := hget.mp hj
    rcases lose_cases pid before with ⟨hsame, -⟩ | ⟨-, -, -, hlost⟩
    · exact h.acknowledged j before hbefore (hsame ▸ hrenamed)
    · rw [hlost] at hrenamed
      exact hrenamed.elim
  · intro j hj
    obtain ⟨before, hbefore, hpast⟩ := h.landed j hj
    exact ⟨_, hget.mpr ⟨before, hbefore, rfl⟩, lose_past pid hpast⟩

/-! ## New processes and new saves -/

omit [DecidableEq ν] in
theorem Ok.spawned (h : Ok rules initial s) {pid : Nat} (hnone : s.running pid = none) :
    Ok rules initial { s with running := fun other => if other = pid then some 0 else s.running other } := by
  refine ⟨fun j save seq hj hseq => ?_, h.apart, h.onDisk, h.within, h.owned, h.target,
    h.acknowledged, h.landed, h.once⟩
  obtain ⟨next, hnext, hlt⟩ := h.numbered j save seq hj hseq
  refine ⟨next, (if_neg ?_).trans hnext, hlt⟩
  intro heq
  subst heq
  cases hnone.symm.trans hnext

omit [DecidableEq ν] in
theorem Ok.called (h : Ok rules initial s) (pid : Nat) (content : List β) :
    Ok rules initial { s with saves := s.saves ++ [⟨pid, content, .preparing⟩] } := by
  have hget : ∀ {j : Nat} {after : Save β}, (s.saves ++ [⟨pid, content, .preparing⟩])[j]? = some after →
      s.saves[j]? = some after ∨ after = ⟨pid, content, .preparing⟩ := by
    intro j after hj
    rw [List.getElem?_append] at hj
    split at hj
    · exact .inl hj
    · exact .inr (List.mem_singleton.mp (List.mem_of_getElem? hj))
  have hold : ∀ {j : Nat} {before : Save β}, s.saves[j]? = some before →
      (s.saves ++ [⟨pid, content, .preparing⟩])[j]? = some before := fun hj => by
    rwa [List.getElem?_append_left (List.getElem?_eq_some_iff.mp hj).1]
  have hunder : ∀ {j : Nat} {after : Save β} {seq : Nat}, (s.saves ++ [⟨pid, content, .preparing⟩])[j]? = some after →
      after.phase.seq? = some seq → s.saves[j]? = some after := by
    intro j after seq hj hseq
    rcases hget hj with hj | rfl
    · exact hj
    · cases hseq
  refine ⟨fun j save seq hj hseq => h.numbered j save seq (hunder hj hseq) hseq,
    fun j k save save' seq hj hk hpid hseq hseq' =>
      h.apart j k save save' seq (hunder hj hseq) (hunder hk hseq') hpid hseq hseq', ?_, h.within, ?_, ?_, ?_, ?_, h.once⟩
  · intro j after hj
    rcases hget hj with hj | rfl
    · exact h.onDisk j after hj
    · trivial
  · intro own seq hfile
    obtain ⟨owner, hmem, howner⟩ := h.owned own seq hfile
    exact ⟨owner, List.mem_append_left _ hmem, howner⟩
  · refine h.target.trans (landing_congr fun j hj => ?_).symm
    obtain ⟨before, hbefore, -⟩ := h.landed j hj
    show ((s.saves ++ [⟨pid, content, .preparing⟩])[j]?).map _ = _
    rw [hold hbefore, hbefore]
  · intro j after hj hrenamed
    rcases hget hj with hj | rfl
    · exact h.acknowledged j after hj hrenamed
    · exact hrenamed.elim
  · intro j hj
    obtain ⟨before, hbefore, hpast⟩ := h.landed j hj
    exact ⟨before, hold hbefore, hpast⟩

theorem step_ok (h : Ok rules initial s) (e : Event β) : Ok rules initial (step rules s e) := by
  cases e with
  | spawned pid =>
    by_cases hnone : s.running pid = none
    · rw [step, if_pos hnone]
      exact h.spawned hnone
    · rwa [step, if_neg hnone]
  | died pid => exact h.died pid
  | called pid content =>
    by_cases hnone : s.running pid = none
    · rwa [step, if_pos hnone]
    · rw [step, if_neg hnone]
      exact h.called pid content
  | ran i umask n => exact h.ran i umask n
  | failed i => exact h.failed i

theorem Run.ok (h : Run rules initial s) : Ok rules initial s :=
  h.inv (fun _ hs => hs.ok) fun _ e hs _ => step_ok hs e

/-! ## What saves are called with -/

theorem ran_saves (s : Disk ν β) (i : Nat) (umask : Mode) (n : Nat) :
    (s.ran rules i umask n).saves = s.saves ∨ ∃ phase, (s.ran rules i umask n).saves = (s.setPhase i phase).saves := by
  unfold Disk.ran
  cases s.saves[i]? with
  | none => exact .inl rfl
  | some save =>
    obtain ⟨pid, content, phase⟩ := save
    cases phase with
    | preparing =>
      dsimp only
      cases s.running pid with
      | none => exact .inl rfl
      | some next => exact .inr ⟨_, rfl⟩
    | fulfilled => exact .inl rfl
    | rejected left => exact .inl rfl
    | lost left => exact .inl rfl
    | _ => exact .inr ⟨_, rfl⟩

omit [DecidableEq ν] in
theorem failed_saves (s : Disk ν β) (i : Nat) :
    (s.failed i).saves = s.saves ∨ ∃ phase, (s.failed i).saves = (s.setPhase i phase).saves := by
  unfold Disk.failed
  cases s.saves[i]? with
  | none => exact .inl rfl
  | some save =>
    obtain ⟨pid, content, phase⟩ := save
    cases phase with
    | replaced => exact .inl rfl
    | fulfilled => exact .inl rfl
    | rejected left => exact .inl rfl
    | lost left => exact .inl rfl
    | _ => exact .inr ⟨_, rfl⟩

/-- Nothing that landed is undone. -/
theorem step_landed (rules : Rules ν) (s : Disk ν β) (e : Event β) : s.landed <+: (step rules s e).landed := by
  cases e with
  | spawned pid =>
    rw [step]
    split
    · exact List.prefix_rfl
    · exact List.prefix_rfl
  | died pid => exact List.prefix_rfl
  | called pid content =>
    rw [step]
    split
    · exact List.prefix_rfl
    · exact List.prefix_rfl
  | ran i umask n =>
    show s.landed <+: (s.ran rules i umask n).landed
    unfold Disk.ran
    cases s.saves[i]? with
    | none => exact List.prefix_rfl
    | some save =>
      obtain ⟨pid, content, phase⟩ := save
      cases phase with
      | preparing =>
        dsimp only
        cases s.running pid <;> exact List.prefix_rfl
      | replacing seq => exact List.prefix_append _ _
      | _ => exact List.prefix_rfl
  | failed i =>
    show s.landed <+: (s.failed i).landed
    unfold Disk.failed
    cases s.saves[i]? with
    | none => exact List.prefix_rfl
    | some save =>
      obtain ⟨pid, content, phase⟩ := save
      cases phase <;> exact List.prefix_rfl

/-- A save keeps its place and what it was called with. -/
theorem step_content (rules : Rules ν) (s : Disk ν β) (e : Event β) (i : Nat) :
    ((step rules s e).saves[i]?).map (·.content) = (s.saves[i]?).map (·.content) ∨
      i = s.saves.length ∧ ∃ pid content, e = .called pid content ∧
        ((step rules s e).saves[i]?).map (·.content) = some content := by
  have hphase : ∀ {saves : List (Save β)} {j : Nat},
      (saves = s.saves ∨ ∃ phase, saves = (s.setPhase j phase).saves) →
        (saves[i]?).map (·.content) = (s.saves[i]?).map (·.content) := by
    rintro saves j (rfl | ⟨phase, rfl⟩)
    · rfl
    · exact content_setPhase s j phase i
  cases e with
  | spawned pid =>
    refine .inl ?_
    by_cases hnone : s.running pid = none
    · rw [step, if_pos hnone]
    · rw [step, if_neg hnone]
  | died pid =>
    refine .inl ?_
    show ((s.saves.map (Disk.lose pid))[i]?).map _ = _
    rw [List.getElem?_map, Option.map_map]
    exact congrArg (fun f => (s.saves[i]?).map f) (funext (lose_content pid))
  | called pid content =>
    by_cases hnone : s.running pid = none
    · rw [step, if_pos hnone]
      exact .inl rfl
    · rw [step, if_neg hnone]
      by_cases hlast : i = s.saves.length
      · subst hlast
        exact .inr ⟨rfl, pid, content, rfl, by simp⟩
      · refine .inl ?_
        show ((s.saves ++ [_])[i]?).map _ = _
        rw [List.getElem?_append]
        split
        · rfl
        · rename_i hlength
          rw [List.getElem?_eq_none (by simp only [List.length_singleton]; omega), List.getElem?_eq_none (by omega)]
  | ran j umask n => exact .inl (hphase (ran_saves s j umask n))
  | failed j => exact .inl (hphase (failed_saves s j))

/-- What the calls of a run promise of their contents holds of each save. -/
theorem run_contents {P : List β → Prop} {ok : Disk ν β → Event β → Prop}
    (h : Reach (step rules) (Start rules initial) ok s) (hcalled : ∀ s pid content, ok s (.called pid content) → P content)
    {i : Nat} {save : Save β} (hi : s.saves[i]? = some save) : P save.content := by
  have hall : ∀ (i : Nat) content, (s.saves[i]?).map (·.content) = some content → P content := by
    refine h.inv (P := fun s => ∀ (i : Nat) content, (s.saves[i]?).map (·.content) = some content → P content)
      (fun s hs i content hi => ?_) fun s e hs hok i content hi => ?_
    · rw [hs.saves] at hi
      cases hi
    · rcases step_content rules s e i with hsame | ⟨-, pid, called, rfl, hnew⟩
      · exact hs i content (hsame ▸ hi)
      · obtain rfl := Option.some.inj (hi.symm.trans hnew)
        exact hcalled s pid content hok
  exact hall i save.content (by rw [hi]; rfl)

omit [DecidableEq ν] in
/-- What a save's caller is told is so. -/
theorem Ok.told (h : Ok rules initial s) {i : Nat} {save : Save β} (hi : s.saves[i]? = some save) :
    (save.phase = .fulfilled → i ∈ s.landed) ∧ ∀ left, save.phase = .rejected left → i ∉ s.landed := by
  refine ⟨fun hphase => h.acknowledged i save hi (hphase ▸ trivial), fun left hphase hlanded => ?_⟩
  obtain ⟨before, hbefore, hpast⟩ := h.landed i hlanded
  obtain rfl := Option.some.inj (hi.symm.trans hbefore)
  rw [hphase] at hpast
  exact hpast

omit [DecidableEq ν] in
/-- The target, by the save that landed last. -/
theorem Ok.landed_last (h : Ok rules initial s) :
    s.landed = [] ∧ s.files rules.target = initial ∨
      ∃ i save, s.landed.getLast? = some i ∧ s.saves[i]? = some save ∧
        s.files rules.target = some ⟨save.content, rules.mode⟩ := by
  have htarget := h.target
  unfold landing at htarget
  cases hlast : s.landed.getLast? with
  | none =>
    rw [hlast] at htarget
    exact .inl ⟨List.getLast?_eq_none_iff.mp hlast, htarget⟩
  | some i =>
    obtain ⟨save, hi, -⟩ := h.landed i (List.mem_of_getLast? hlast)
    rw [hlast] at htarget
    simp only [hi, Option.map_some] at htarget
    exact .inr ⟨i, save, rfl, hi, htarget⟩

end Ccctl.Lib.AtomicFile
