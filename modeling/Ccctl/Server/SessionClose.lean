import Ccctl.Server.EventStream
/-
  Ccctl.Server.SessionClose — the one terminal seam (`packages/server/src/session-close.ts`:
  `closeSession`; `hook-settings-installer.ts`: `installAskUserQuestionHookSettings`,
  `cleanupHookInstall`).
-/

namespace Ccctl.Server

open Ccctl.Core Ccctl.Lib

/-- The install of the token `token`: both paths are fixed, only the settings file is written. -/
def hookInstallOf (token : Nat) : HookInstall := ⟨⟨token, .settings⟩, ⟨token, .handoff⟩⟩

/-- The token is the `next` of the state before. -/
@[simps]
def installAskUserQuestionHookSettings (s : ServerState) : ServerState :=
  { s with
    next := s.next + 1
    files := s.files.set (hookInstallOf s.next).settingsPath (.regular 0 none) }

/-- The hook files after `unlinkSync(path)`, and an error swallowed. -/
def unlinked (fs : FileSystem) (files : OrdMap HookFile FileEntry) (path : HookFile) : OrdMap HookFile FileEntry :=
  if fs.unlinks path then files.erase path else files

@[simps]
def unlinkQuietly (s : ServerState) (path : HookFile) : ServerState :=
  { s with files := unlinked s.fs s.files path }

@[simps]
def cleanupHookInstall (s : ServerState) (install : HookInstall) : ServerState :=
  { s with files := unlinked s.fs (unlinked s.fs s.files install.settingsPath) install.handoffPath }

/-- The install's files go, then its entry. -/
def retireHookInstall (s : ServerState) (sessionId : SessionId) : ServerState :=
  match s.hookInstalls.get sessionId with
  | none => s
  | some install =>
    { cleanupHookInstall s install with hookInstalls := s.hookInstalls.erase sessionId }

/-- The session as it ended, or `none` when there is no such session. -/
def closeSession (s : ServerState) (sessionId : SessionId) : ServerState × Option Session :=
  match s.sessions.get sessionId with
  | none => (s, none)
  | some session =>
    let closed := markSessionClosed session
    let s := { s with sessions := s.sessions.erase sessionId }
    let s := broadcastEvent s sessionId (.closed sessionId closed.status)
    let s := closeSessionRelay s sessionId
    let s := { s with requiresActionEnrichments := s.requiresActionEnrichments.erase sessionId }
    (retireHookInstall s sessionId, some closed)

/-! ## What an end leaves -/

section Unlinked

variable {fs : FileSystem} {files : OrdMap HookFile FileEntry} {path other : HookFile} {entry : FileEntry}

theorem unlinked_get (h : (unlinked fs files path).get other = some entry) : files.get other = some entry := by
  unfold unlinked at h
  split at h
  · exact (OrdMap.get_erase_of_some h).2
  · exact h

theorem unlinked_none (h : files.get other = none) : (unlinked fs files path).get other = none := by
  by_contra hstands
  obtain ⟨entry, hentry⟩ := Option.ne_none_iff_exists'.mp hstands
  cases h.symm.trans (unlinked_get hentry)

theorem unlinked_self (h : fs.unlinks path = true) : (unlinked fs files path).get path = none := by
  rw [unlinked, if_pos h, OrdMap.get_erase_self]

end Unlinked

/-- The files of an install go, where the disk lets them. -/
def InstallGone (fs : FileSystem) (files : OrdMap HookFile FileEntry) (install : HookInstall) : Prop :=
  (fs.unlinks install.settingsPath = true → files.get install.settingsPath = none) ∧
    (fs.unlinks install.handoffPath = true → files.get install.handoffPath = none)

theorem installGone_unlinked (fs : FileSystem) (files : OrdMap HookFile FileEntry) (install : HookInstall) :
    InstallGone fs (unlinked fs (unlinked fs files install.settingsPath) install.handoffPath) install :=
  ⟨fun h => unlinked_none (unlinked_self h), unlinked_self⟩

theorem retireHookInstall_eq (s : ServerState) (sessionId : SessionId) :
    ∃ files, retireHookInstall s sessionId = { s with files, hookInstalls := s.hookInstalls.erase sessionId } ∧
      ∀ install, s.hookInstalls.get sessionId = some install → InstallGone s.fs files install := by
  unfold retireHookInstall
  cases hi : s.hookInstalls.get sessionId with
  | none => exact ⟨s.files, by rw [OrdMap.erase_of_none hi], fun _ h => by cases h⟩
  | some install =>
    refine ⟨unlinked s.fs (unlinked s.fs s.files install.settingsPath) install.handoffPath, rfl, ?_⟩
    intro install' h
    cases h
    exact installGone_unlinked s.fs s.files install

/-- The last event of a relay, sent and the relay gone. -/
theorem broadcast_then_close (s : ServerState) (sessionId : SessionId) (payload : Payload) :
    ∃ eventRelays, closeSessionRelay (broadcastEvent s sessionId payload) sessionId =
      { s with
        eventRelays
        out := s.out ++ .broadcast sessionId (relayFor s sessionId).nextEventId payload
          (relayFor s sessionId).subscribers :: (relayFor s sessionId).subscribers.map .ended } ∧
      eventRelays.get sessionId = none ∧ ∀ id, id ≠ sessionId → eventRelays.get id = s.eventRelays.get id := by
  refine ⟨(closeSessionRelay (broadcastEvent s sessionId payload) sessionId).eventRelays, ?_, ?_, ?_⟩
  · simp only [closeSessionRelay, broadcastEvent, relayFor, OrdMap.get_set_self, Option.getD_some, List.append_assoc,
      List.singleton_append]
  · exact OrdMap.get_erase_self _ _
  · intro id hid
    exact (OrdMap.get_erase_ne _ hid).trans (OrdMap.get_set_ne _ _ hid)

/-- A close of a session that is there: its row, relay, question and hook install are gone, its hook
    files with them where the disk lets them go, and its subscribers were sent the one `closed` event and ended. -/
theorem closeSession_eq {s : ServerState} {sessionId : SessionId} {session : Session}
    (hs : s.sessions.get sessionId = some session) :
    ∃ eventRelays files, (closeSession s sessionId).1 =
      { s with
        sessions := s.sessions.erase sessionId
        eventRelays, files
        requiresActionEnrichments := s.requiresActionEnrichments.erase sessionId
        hookInstalls := s.hookInstalls.erase sessionId
        out := s.out ++ .broadcast sessionId (relayFor s sessionId).nextEventId
          (.closed sessionId (markSessionClosed session).status) (relayFor s sessionId).subscribers ::
            (relayFor s sessionId).subscribers.map .ended } ∧
      eventRelays.get sessionId = none ∧
      (∀ id, id ≠ sessionId → eventRelays.get id = s.eventRelays.get id) ∧
      ∀ install, s.hookInstalls.get sessionId = some install → InstallGone s.fs files install := by
  obtain ⟨eventRelays, hclose, hself, hne⟩ := broadcast_then_close { s with sessions := s.sessions.erase sessionId }
    sessionId (.closed sessionId (markSessionClosed session).status)
  obtain ⟨files, hretire, hfiles⟩ := retireHookInstall_eq
    { s with
      sessions := s.sessions.erase sessionId
      eventRelays
      requiresActionEnrichments := s.requiresActionEnrichments.erase sessionId
      out := s.out ++ .broadcast sessionId (relayFor s sessionId).nextEventId
        (.closed sessionId (markSessionClosed session).status) (relayFor s sessionId).subscribers ::
          (relayFor s sessionId).subscribers.map .ended } sessionId
  refine ⟨eventRelays, files, ?_, hself, hne, hfiles⟩
  rw [← hretire]
  simp only [closeSession, hs, hclose]
  rfl

end Ccctl.Server
