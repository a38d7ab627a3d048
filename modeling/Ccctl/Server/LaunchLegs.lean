import Ccctl.Server.SessionLaunch
import Ccctl.Server.SessionStop
/-
  Ccctl.Server.LaunchLegs — what each leg of a launch, and the first of a stop, writes.

  A launch that opens or fails is given as an equation on the whole state (`launchOpened_eq`,
  `launchFailed_eq`). A request either is refused, and nothing is written, or parks a call
  (`launchSession_cases`, `stopSession_cases`); a registration timeout finds its launch gone, leaves the
  terminal alone, or goes on to read it (`evictPendingLaunch_cases`). What is known where is listed with
  each.
-/

namespace Ccctl.Server

open Ccctl.Core Ccctl.Lib ServerState

/-! ## The pending launches -/

/-- The table after `markAmbiguousGroup`. -/
def ambiguated (pendings : OrdMap SessionId PendingLaunch) (cwd : Path) (mode : PermissionMode) :
    OrdMap SessionId PendingLaunch :=
  if (pendings.values.filter (PendingLaunch.onPair cwd mode)).length < 2 then pendings
  else pendings.mapVals fun _ pending => if pending.onPair cwd mode then { pending with ambiguous := true } else pending

theorem markAmbiguousGroup_eq (s : ServerState) (cwd : Path) (mode : PermissionMode) :
    markAmbiguousGroup s cwd mode = { s with pendingLaunches := ambiguated s.pendingLaunches cwd mode } := by
  unfold markAmbiguousGroup ambiguated
  split <;> rfl

theorem consumePendingLaunch_writes (s : ServerState) (id : SessionId) :
    ∃ timers pendingLaunches, (consumePendingLaunch s id).1 = { s with timers, pendingLaunches } := by
  unfold consumePendingLaunch
  split <;> exact ⟨_, _, rfl⟩

theorem claimPendingLaunch_writes (s : ServerState) (cwd : Path) (mode : PermissionMode) :
    ∃ timers pendingLaunches sessions eventRelays out, (claimPendingLaunch s cwd mode).1 =
      { s with timers, pendingLaunches, sessions, eventRelays, out } := by
  unfold claimPendingLaunch
  split
  · split
    · exact ⟨_, _, _, _, _, rfl⟩
    · rename_i claimed _
      obtain ⟨timers, pendingLaunches, heq⟩ := consumePendingLaunch_writes s claimed.sessionId
      simp only [heq]
      split <;> exact ⟨_, _, _, _, _, rfl⟩
  · exact ⟨_, _, _, _, _, rfl⟩

/-- The launch is gone, its terminal is left alone, or the call goes on to read it. -/
theorem evictPendingLaunch_cases (s : ServerState) (id : SessionId) :
    (s.pendingLaunches.get id = none ∧ evictPendingLaunch s id = s) ∨
      ∃ p, s.pendingLaunches.get id = some p ∧
        (p.mayHoldLiveWorker = true ∧ evictPendingLaunch s id = dropPlaceholder (consumePendingLaunch s id).1 id ∨
          p.mayHoldLiveWorker = false ∧ evictPendingLaunch s id =
            { dropPlaceholder (consumePendingLaunch s id).1 id with
              ops := s.ops.set s.next (.evictReading id p.launched)
              next := s.next + 1 }) := by
  unfold evictPendingLaunch consumePendingLaunch
  cases hp : s.pendingLaunches.get id with
  | none => exact Or.inl ⟨rfl, rfl⟩
  | some p =>
    refine Or.inr ⟨p, rfl, ?_⟩
    simp only
    cases hm : p.mayHoldLiveWorker with
    | true => exact Or.inl ⟨rfl, rfl⟩
    | false => exact Or.inr ⟨rfl, rfl⟩

/-- Beyond what a dropped placeholder does, it parks a call at most. -/
theorem evictPendingLaunch_writes (s : ServerState) (id : SessionId) :
    evictPendingLaunch s id = s ∨ ∃ ops next, (dropPlaceholder (consumePendingLaunch s id).1 id).next ≤ next ∧
      evictPendingLaunch s id = { dropPlaceholder (consumePendingLaunch s id).1 id with ops, next } := by
  obtain ⟨_, _, hconsumed⟩ := consumePendingLaunch_writes s id
  rcases evictPendingLaunch_cases s id with ⟨-, heq⟩ | ⟨p, -, ⟨-, heq⟩ | ⟨-, heq⟩⟩
  · exact Or.inl heq
  · exact Or.inr ⟨_, _, Nat.le_refl _, heq⟩
  · refine Or.inr ⟨_, _, ?_, heq⟩
    rw [hconsumed]
    exact Nat.le_succ _

/-! ## Launching -/

/-- A launch is refused, or begun within the cap. -/
theorem launchSession_cases (s : ServerState) (options : SessionLaunchOptions) (hookOk : Bool) :
    (∃ status code message, launchSession s options hookOk = (s, .failure status code message)) ∨
      ∃ cwd hook next files,
        launchSession s options hookOk =
          ({ s with
            next, files
            launchReservations := s.launchReservations ++ [s.next]
            ops := s.ops.set s.next (.launching { options with cwd } hook) }, .none) ∧
        s.next < next ∧ liveSessionCount s < s.config.maxSessions ∧
        (hook = none ∧ files = s.files ∨
          hook = some (hookInstallOf (s.next + 1)) ∧
            files = s.files.set (hookInstallOf (s.next + 1)).settingsPath (.regular 0 none)) := by
  unfold launchSession
  split
  · split
    · exact Or.inl ⟨_, _, _, rfl⟩
    · rename_i hroom
      split
      · exact Or.inl ⟨_, _, _, rfl⟩
      · rename_i cwd _
        right
        cases hookOk with
        | false =>
          exact ⟨cwd, none, s.next + 1, s.files, rfl, Nat.lt_succ_self _, Nat.lt_of_not_le hroom, Or.inl ⟨rfl, rfl⟩⟩
        | true =>
          exact ⟨cwd, some (hookInstallOf (s.next + 1)), s.next + 1 + 1, _, rfl, Nat.lt_succ_of_lt (Nat.lt_succ_self _),
            Nat.lt_of_not_le hroom, Or.inr ⟨rfl, rfl⟩⟩
  · exact Or.inl ⟨_, _, _, rfl⟩

/-- The installs once a launch's session is there. -/
def handedOver (hookInstalls : OrdMap SessionId HookInstall) (id : SessionId) :
    Option HookInstall → OrdMap SessionId HookInstall
  | none => hookInstalls
  | some install => hookInstalls.set id install

theorem get_handedOver {hookInstalls : OrdMap SessionId HookInstall} {id other : SessionId} {hook : Option HookInstall}
    {install : HookInstall} (h : (handedOver hookInstalls id hook).get other = some install) :
    hookInstalls.get other = some install ∨ other = id ∧ hook = some install := by
  cases hook with
  | none => exact .inl h
  | some mine =>
    rw [handedOver, OrdMap.get_set] at h
    split at h
    · exact .inr ⟨‹_›, h⟩
    · exact .inl h

theorem launchOpened_eq (s : ServerState) (op : OpId) (options : SessionLaunchOptions) (hook : Option HookInstall)
    (attachable : Bool) (hint : String) :
    (launchOpened s op options hook attachable hint).1 =
      { s with
        next := s.next + 1 + 1
        sessions := s.sessions.set s.next (createRegisteringSession s.next options.permissionMode s.now)
        launchedSurfaces := s.launchedSurfaces.set s.next ⟨op, attachable, hint⟩
        launchReservations := s.launchReservations.filter (· ≠ op)
        pendingLaunches := ambiguated
          (s.pendingLaunches.set s.next ⟨s.next, canonicalCwd s.fs options.cwd, options.permissionMode,
            ⟨op, attachable, hint⟩, s.next + 1, false, false⟩) (canonicalCwd s.fs options.cwd) options.permissionMode
        timers := s.timers.set (s.next + 1) ⟨s.now + timeoutDelay s.config.registrationTimeoutMs, .evictPendingLaunch s.next⟩
        hookInstalls := handedOver s.hookInstalls s.next hook
        ops := s.ops.erase op } := by
  unfold launchOpened trackPendingLaunch
  simp only [markAmbiguousGroup_eq]
  cases hook <;> rfl

/-- The hook files once a failed launch's install is cleaned up. -/
def unhooked (fs : FileSystem) (files : OrdMap HookFile FileEntry) : Option HookInstall → OrdMap HookFile FileEntry
  | none => files
  | some install => unlinked fs (unlinked fs files install.settingsPath) install.handoffPath

theorem launchFailed_eq (s : ServerState) (op : OpId) (hook : Option HookInstall) (code : LaunchFailureCode)
    (message : String) :
    (launchFailed s op hook code message).1 =
      { s with
        launchReservations := s.launchReservations.filter (· ≠ op)
        files := unhooked s.fs s.files hook
        ops := s.ops.erase op } := by
  cases hook <;> rfl

/-! ## Stopping -/

/-- A stop is refused, or reads the terminal. -/
theorem stopSession_cases (s : ServerState) (id : SessionId) (force : Bool) :
    (∃ status code message, stopSession s id force = (s, .failure status code message)) ∨
      ∃ launched, s.launchedSurfaces.get id = some launched ∧ markedLaunch s id = false ∧
        stopSession s id force =
          ({ s with ops := s.ops.set s.next (.stopReading id launched force), next := s.next + 1 }, .none) := by
  unfold stopSession
  split
  · cases hl : s.launchedSurfaces.get id with
    | none => exact Or.inl ⟨_, _, _, rfl⟩
    | some launched =>
      simp only
      cases hm : markedLaunch s id with
      | true => exact Or.inl ⟨_, _, _, rfl⟩
      | false => exact Or.inr ⟨launched, rfl, rfl, rfl⟩
  · exact Or.inl ⟨_, _, _, rfl⟩

/-- Where a stop that is not refused leaves the tables, whatever it is answered. -/
theorem concludeStop_fst (s : ServerState) (id : SessionId) (outcome : String) :
    (concludeStop s id outcome).1 = (closeSession (reapWorkerChannel
      (consumePendingLaunch { s with launchedSurfaces := s.launchedSurfaces.erase id } id).1 id) id).1 := by
  unfold concludeStop
  dsimp only
  generalize closeSession (reapWorkerChannel
    (consumePendingLaunch { s with launchedSurfaces := s.launchedSurfaces.erase id } id).1 id) id = closed
  obtain ⟨closed, session⟩ := closed
  cases session with
  | none => rfl
  | some session => rfl

end Ccctl.Server
