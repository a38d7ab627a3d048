import Ccctl.Server.Housekeeping
/-
  Ccctl.Server.Retire — the end of a session, and what is left of it.

  A row leaves the registry in two ways. An end, by a stop or by the eviction of a silent worker,
  goes through `closeSession` and `reapWorkerChannel`: every table gives the session up and its
  browsers are told (`Ending`). A drop, of a placeholder that no worker claimed, takes the row and
  the relay only (`Dropping`): a hook install stays, and browsers are cut off without a word. And
  a worker stream that closes after its session's end arms a timer for it.

  In a run without the three, a session without a row has nothing left in any table, and no later
  turn brings anything back (`retires`).
-/

namespace Ccctl.Server

open Ccctl.Core Ccctl.Lib ServerState

/-! ## Retirement -/

/-- The session a callback works on. -/
def TimerCallback.names : TimerCallback → SessionId
  | .evictPendingLaunch sessionId => sessionId
  | .writeLivenessFrame r _ => r.sessionId
  | .considerEviction sessionId _ => sessionId
  | .fireIdleEvent sessionId _ => sessionId

/-- Nothing of the session is left. -/
structure Retired (s : ServerState) (id : SessionId) : Prop where
  relay : s.eventRelays.get id = none
  question : s.requiresActionEnrichments.get id = none
  install : s.hookInstalls.get id = none
  channel : s.workerChannels.get id = none
  launch : s.pendingLaunches.get id = none
  timers : ∀ t timer, s.timers.get t = some timer → timer.callback.names ≠ id

/-- Its hook files are gone, and every browser attached to its relay was sent its end once. -/
structure Farewell (s s' : ServerState) (id : SessionId) : Prop where
  files : ∀ install, s.hookInstalls.get id = some install →
    s'.files.get install.settingsPath = none ∧ s'.files.get install.handoffPath = none
  told : ∀ res ∈ attached s id, closedSent s'.out id res = 1

/-- A placeholder dropped has no hook install and no browser attached; a session ended, no timer of an earlier
    worker's, and the disk lets its hook files go. -/
def Unencumbered (s : ServerState) (id : SessionId) : Act → Prop
  | .dropped => s.hookInstalls.get id = none ∧ attached s id = []
  | .ended =>
    (∀ timer ∈ s.timers.values, ∀ r ∈ timer.callback.record, r.sessionId = id → s.workerChannels.get id = some r) ∧
      ∀ install ∈ s.hookInstalls.get id,
        s.fs.unlinks install.settingsPath = true ∧ s.fs.unlinks install.handoffPath = true
  | _ => True

/-- No stream closes that its record still names and whose session's channel is gone. -/
def ClosesInTime (s : ServerState) : Event → Prop
  | .workerStreamClosed res => ∀ stream ∈ s.streams.get res, s.workerChannels.get stream.sessionId = none →
      (s.records stream.record).downstream ≠ some res
  | _ => True

def Retires (s : ServerState) (e : Event) : Prop :=
  (∀ entry ∈ s.sessions.entries, Unencumbered s entry.1 (observe s e entry.1)) ∧ ClosesInTime s e

instance (s : ServerState) (id : SessionId) (act : Act) : Decidable (Unencumbered s id act) := by
  unfold Unencumbered
  split <;> infer_instance

instance (s : ServerState) (e : Event) : Decidable (Retires s e) := by
  unfold Retires ClosesInTime
  split <;> infer_instance

/-! ## An end -/

/-- None of the record's timers is armed. -/
def Stilled (record : WorkerChannelRecord) : Prop :=
  record.livenessTimer = none ∧ record.evictionTimer = none ∧ record.idleTimer = none

/-- Timers are let go, and nothing else of a session is touched. -/
structure Loosens (s s' : ServerState) : Prop where
  relays : s'.eventRelays = s.eventRelays
  installs : s'.hookInstalls = s.hookInstalls
  files : s'.files = s.files
  disk : s'.fs = s.fs
  said : ∀ id res, closedSent s'.out id res = closedSent s.out id res
  timers : ∀ t timer, s'.timers.get t = some timer → s.timers.get t = some timer
  stilled : ∀ r, Stilled (s.records r) → Stilled (s'.records r)

namespace Loosens

variable {s s' s'' : ServerState}

theorem refl (s : ServerState) : Loosens s s :=
  ⟨rfl, rfl, rfl, rfl, fun _ _ => rfl, fun _ _ ht => ht, fun _ h => h⟩

theorem trans (h : Loosens s s') (h' : Loosens s' s'') : Loosens s s'' where
  relays := h'.relays.trans h.relays
  installs := h'.installs.trans h.installs
  files := h'.files.trans h.files
  disk := h'.disk.trans h.disk
  said id res := (h'.said id res).trans (h.said id res)
  timers t timer ht := h.timers t timer (h'.timers t timer ht)
  stilled r hr := h'.stilled r (h.stilled r hr)

theorem clear (s : ServerState) (t : Option TimerId) : Loosens s (s.clearTimeout t) :=
  { refl s with timers := fun _ _ ht => cleared_get ht }

/-- An eviction timer that ran out. -/
theorem spend (s : ServerState) (r : RecId) :
    Loosens s (s.modifyRecord r fun record => { record with evictionTimer := none }) := by
  refine { refl s with stilled := fun r' hr' => ?_ }
  by_cases hr : r' = r
  · subst hr
    rw [modifyRecord_records, Function.update_self]
    exact ⟨hr'.1, rfl, hr'.2.2⟩
  · rw [modifyRecord_records, Function.update_of_ne hr]
    exact hr'

theorem consume (s : ServerState) (sessionId : SessionId) : Loosens s (consumePendingLaunch s sessionId).1 := by
  unfold consumePendingLaunch
  split
  · exact refl s
  · exact { refl s with timers := fun _ _ ht => cleared_get ht }

theorem endDownstream (s : ServerState) (r : RecId) : Loosens s (endDownstream s r) := by
  refine { refl s with
    said := fun id => (endDownstream_houses s r).said
    timers := fun _ _ ht => cleared_get (cleared_get (cleared_get ht))
    stilled := fun r' hr' => ?_ }
  by_cases hr : r' = r
  · rw [hr, endDownstream_records, Function.update_self]
    exact ⟨rfl, rfl, rfl⟩
  · rw [endDownstream_records, Function.update_of_ne hr]
    exact hr'

theorem reap (s : ServerState) (sessionId : SessionId) : Loosens s (reapWorkerChannel s sessionId) := by
  unfold reapWorkerChannel
  split
  · exact refl s
  · rename_i r _
    exact { endDownstream s r with }

end Loosens

/-- Relay and hook install are gone, the install's files with it where the disk lets them, and the browsers were told. -/
structure Closing (s s' : ServerState) (id : SessionId) : Prop where
  vacant : Vacant s' id
  timers : ∀ t timer, s'.timers.get t = some timer → s.timers.get t = some timer
  files : ∀ install, s.hookInstalls.get id = some install → InstallGone s.fs s'.files install
  told : ∀ res, closedSent s'.out id res = closedSent s.out id res + (attached s id).count res

namespace Closing

variable {s s' s'' : ServerState} {id : SessionId}

theorem close (hrow : s.sessions.get id ≠ none) : Closing s (closeSession s id).1 id := by
  obtain ⟨session, hs⟩ := Option.ne_none_iff_exists'.mp hrow
  obtain ⟨eventRelays, files, heq, hself, -, hfiles⟩ := closeSession_eq hs
  rw [heq]
  refine ⟨⟨hself, OrdMap.get_erase_self _ _⟩, fun _ _ ht => ht, hfiles, ?_⟩
  intro res
  rw [List.append_cons, closedSent_ended, closedSent_append]
  simp [closedSent, closedTo, attached]

theorem after (hl : Loosens s s') (h : Closing s' s'' id) : Closing s s'' id where
  vacant := h.vacant
  timers t timer ht := hl.timers t timer (h.timers t timer ht)
  files install hi := by
    have hgone := h.files install (by rw [hl.installs, hi])
    rwa [hl.disk] at hgone
  told res := by
    have hattached : attached s' id = attached s id := by simp only [attached, relayFor, hl.relays]
    rw [h.told res, hl.said, hattached]

theorem loosen (h : Closing s s' id) (hl : Loosens s' s'') : Closing s s'' id where
  vacant := ⟨by rw [hl.relays, h.vacant.1], by rw [hl.installs, h.vacant.2]⟩
  timers t timer ht := h.timers t timer (hl.timers t timer ht)
  files install hi := by
    rw [hl.files]
    exact h.files install hi
  told res := by rw [hl.said, h.told res]

end Closing

/-- Every table gave the session up. -/
structure Ending (s s' : ServerState) (id : SessionId) : Prop extends Closing s s' id where
  stilled : ∀ r, s.workerChannels.get id = some r → Stilled (s'.records r)

theorem reapWorkerChannel_stills {s : ServerState} {id : SessionId} {r : RecId}
    (hr : s.workerChannels.get id = some r) : Stilled ((reapWorkerChannel s id).records r) := by
  simp only [reapWorkerChannel, hr, endDownstream_records, Function.update_self]
  exact ⟨rfl, rfl, rfl⟩

theorem concludeStop_ending {s : ServerState} {id : SessionId} (hrow : s.sessions.get id ≠ none) (outcome : String) :
    Ending s (concludeStop s id outcome).1 id := by
  rw [concludeStop_fst]
  have hsurface : Loosens s { s with launchedSurfaces := s.launchedSurfaces.erase id } := { Loosens.refl s with }
  have hconsume := hsurface.trans (.consume _ id)
  obtain ⟨timers, pendings, heq⟩ := consumePendingLaunch_writes
    { s with launchedSurfaces := s.launchedSurfaces.erase id } id
  rw [heq] at hconsume ⊢
  have hreap := hconsume.trans (.reap _ id)
  refine { Closing.after hreap (.close ?_) with stilled := fun r hr => ?_ }
  · rw [reapWorkerChannel_sessions]
    exact hrow
  · obtain ⟨_, _, _, _, _, hclose⟩ := closeSession_writes (reapWorkerChannel
      { s with launchedSurfaces := s.launchedSurfaces.erase id, timers, pendingLaunches := pendings } id) id
    rw [hclose]
    exact reapWorkerChannel_stills hr

theorem evict_ending {s : ServerState} {id : SessionId} (hrow : s.sessions.get id ≠ none) :
    Ending s (reapWorkerChannel (closeSession s id).1 id) id := by
  refine { (Closing.close hrow).loosen (.reap _ id) with stilled := fun r hr => ?_ }
  obtain ⟨_, _, _, _, _, hclose⟩ := closeSession_writes s id
  rw [hclose]
  exact reapWorkerChannel_stills hr

/-! ## A drop -/

/-- The relay is gone; a hook install is not, and nobody was told. -/
structure Dropping (s s' : ServerState) (id : SessionId) : Prop where
  relay : s'.eventRelays.get id = none
  install : s'.hookInstalls.get id = s.hookInstalls.get id
  channel : s'.workerChannels.get id = s.workerChannels.get id
  timers : ∀ t timer, s'.timers.get t = some timer → s.timers.get t = some timer
  said : ∀ res, closedSent s'.out id res = closedSent s.out id res

theorem drop_dropping (s : ServerState) (id : SessionId) :
    Dropping s (dropPlaceholder (consumePendingLaunch s id).1 id) id := by
  have hconsume := Loosens.consume s id
  obtain ⟨timers, pendings, heq⟩ := consumePendingLaunch_writes s id
  rw [heq] at hconsume ⊢
  exact ⟨OrdMap.get_erase_self _ _, rfl, rfl, hconsume.timers, fun res => closedSent_ended _ _ _ _⟩

theorem evictPendingLaunch_dropping {s : ServerState} {id : SessionId} {p : PendingLaunch}
    (hp : s.pendingLaunches.get id = some p) : Dropping s (evictPendingLaunch s id) id := by
  have hdrop := drop_dropping s id
  rcases evictPendingLaunch_cases s id with ⟨hnone, -⟩ | ⟨_, -, ⟨-, heq⟩ | ⟨-, heq⟩⟩
  · cases hnone.symm.trans hp
  · rw [heq]
    exact hdrop
  · rw [heq]
    exact { hdrop with }

/-! ## Which turns take a row -/

def Event.takes : Event → Bool
  | .sessionCreate _ _ _ | .livenessSettled _ _ | .fire _ => true
  | _ => false

theorem observe_keeps {s : ServerState} {e : Event} (h : e.takes = false) (id : SessionId) :
    observe s e id ≠ .dropped ∧ observe s e id ≠ .ended := by
  cases e with
  | sessionCreate _ _ _ | livenessSettled _ _ | fire _ => cases h
  | workerEvent sessionId workerEpoch entry =>
    simp only [observe, observeEntry]
    repeat' split
    all_goals exact ⟨by simp, by simp⟩
  | workerStatus sessionId body =>
    simp only [observe, observeStatus]
    repeat' split
    all_goals exact ⟨by simp, by simp⟩
  | uiCommand sessionId body =>
    simp only [observe, observeCommand]
    repeat' split
    all_goals exact ⟨by simp, by simp⟩
  | _ =>
    simp only [observe]
    repeat' split
    all_goals exact ⟨by simp, by simp⟩

theorem dropping_step {s : ServerState} (h : TimersOk s) {e : Event} {id : SessionId}
    (hact : observe s e id = .dropped) : Dropping s (step s e) id := by
  cases e with
  | sessionCreate terminal cwd mode =>
    simp only [observe, observeCreate] at hact
    simp only [step, turn, handleSessionCreate, claimPendingLaunch_eq]
    cases hm : matched s cwd mode with
    | none =>
      simp only [hm] at hact
      split at hact <;> cases hact
    | some claimed =>
      simp only [hm] at hact ⊢
      split at hact
      · rename_i hamb
        split at hact
        · rename_i hid
          subst hid
          have hdrop := drop_dropping s claimed.sessionId
          simp only [hamb, if_true]
          exact { hdrop with said := fun res => (closedSent_quiet rfl _).trans (hdrop.said res) }
        · split at hact <;> cases hact
      · split at hact <;> cases hact
  | fire t =>
    simp only [observe, observeFire] at hact
    simp only [step, turn, fire]
    cases ht : s.timers.get t with
    | none =>
      rw [ht] at hact
      cases hact
    | some timer =>
      obtain ⟨due, callback⟩ := timer
      simp only [ht] at hact ⊢
      split at hact
      · cases hact
      · rename_i hdue
        rw [if_neg hdue]
        cases callback with
        | evictPendingLaunch sessionId =>
          simp only at hact
          split at hact
          · rename_i hid
            subst hid
            obtain ⟨p, hp, -⟩ := Option.map_eq_some_iff.mp (h.armed.owner_of_get ht)
            have hdrop := evictPendingLaunch_dropping (s := s.clearTimeout (some t)) hp
            exact { hdrop with timers := fun t' timer' ht' => cleared_get (hdrop.timers t' timer' ht') }
          · cases hact
        | writeLivenessFrame _ _ | considerEviction _ _ | fireIdleEvent _ _ =>
          simp only at hact
          repeat' split at hact
          all_goals cases hact
  | livenessSettled op reading =>
    simp only [observe, observeReading] at hact
    repeat' split at hact
    all_goals cases hact
  | _ => exact absurd hact (observe_keeps rfl id).1

theorem considerEviction_ending {s : ServerState} {id : SessionId} {r : RecId} {session : Session}
    (hr : s.workerChannels.get id = some r) (hd : (s.records r).downstream = none)
    (hs : s.sessions.get id = some session)
    (hstale : isSessionStale session s.now s.config.sessionEvictionGraceMs = true) :
    Ending s (considerEviction s id r) id := by
  have hrow : s.sessions.get id ≠ none := by
    rw [hs]
    exact Option.some_ne_none session
  have hevict := evict_ending (s := s.modifyRecord r fun record => { record with evictionTimer := none }) hrow
  unfold considerEviction
  simp only [modifyRecord_workerChannels, hr, modifyRecord_records, Function.update_self, hd, modifyRecord_sessions,
    hs, modifyRecord_now, modifyRecord_config, hstale, ne_eq, not_true_eq_false, if_false, if_true]
  exact { hevict.toClosing.after (.spend s r) with stilled := hevict.stilled }

theorem ending_step {s : ServerState} {e : Event} {id : SessionId} (hact : observe s e id = .ended)
    (hrow : s.sessions.get id ≠ none) : Ending s (step s e) id := by
  cases e with
  | sessionCreate terminal cwd mode =>
    simp only [observe, observeCreate] at hact
    repeat' split at hact
    all_goals cases hact
  | fire t =>
    simp only [observe, observeFire] at hact
    simp only [step, turn, fire]
    cases ht : s.timers.get t with
    | none =>
      rw [ht] at hact
      cases hact
    | some timer =>
      obtain ⟨due, callback⟩ := timer
      simp only [ht] at hact ⊢
      split at hact
      · cases hact
      · rename_i hdue
        rw [if_neg hdue]
        cases callback with
        | considerEviction sessionId r =>
          simp only at hact
          split at hact
          · rename_i hcur
            obtain ⟨rfl, hr, hd⟩ := hcur
            split at hact
            · cases hact
            · rename_i session hs
              split at hact
              · rename_i hstale
                have hevict := considerEviction_ending (s := s.clearTimeout (some t)) hr hd hs hstale
                exact { hevict.toClosing.after (.clear s (some t)) with stilled := hevict.stilled }
              · cases hact
          · cases hact
        | writeLivenessFrame _ _ | evictPendingLaunch _ | fireIdleEvent _ _ =>
          simp only at hact
          repeat' split at hact
          all_goals cases hact
  | livenessSettled op reading =>
    have hfinish : Loosens s (s.finish op) := { Loosens.refl s with }
    have hconclude : ∀ outcome, Ending s (concludeStop (s.finish op) id outcome).1 id := by
      intro outcome
      have hstop := concludeStop_ending (s := s.finish op) hrow outcome
      exact { hstop.toClosing.after hfinish with stilled := hstop.stilled }
    simp only [observe, observeReading] at hact
    simp only [step, turn, livenessSettled]
    split at hact
    · rename_i sessionId launched force hop
      split at hact
      · rename_i hnoOp
        obtain ⟨rfl, hd⟩ := hnoOp
        simp only [hop, stopRead, hd]
        exact hconclude _
      · cases hact
    · rename_i sessionId launched force liveness hop
      split at hact
      · rename_i hconfirmed
        obtain ⟨rfl, hu⟩ := hconfirmed
        simp only [hop, stopConfirmed, hu]
        exact hconclude _
      · cases hact
    · cases hact
  | _ => exact absurd hact (observe_keeps rfl id).2

/-! ## Over whole runs -/

/-- What holds of every session, with a row or without. -/
structure Tidy (s : ServerState) (id : SessionId) : Prop where
  vacant : s.sessions.get id = none → Vacant s id
  unarmed : s.workerChannels.get id = none → Unarmed s.timers id
  seated : Seated s id
  unsaid : s.sessions.get id ≠ none ∨ s.next ≤ id → ∀ res, closedSent s.out id res = 0
  once : ∀ res, closedSent s.out id res ≤ 1

theorem Tidy.boot (image : BootImage) (id : SessionId) : Tidy (startServer image) id where
  vacant _ := ⟨rfl, rfl⟩
  unarmed _ t timer ht := by cases ht
  seated := ⟨List.nodup_nil, fun res hres => by cases hres⟩
  unsaid _ _ := rfl
  once _ := Nat.zero_le 1

/-- A turn that takes no row. -/
theorem Tidy.housed {s : ServerState} {e : Event} {id : SessionId} (ht : Tidy s id) (hg : Grounded s)
    (hh : Houses id s (step s e)) : Tidy (step s e) id where
  vacant hnone := hh.vacant hnone (ht.vacant (hh.row hnone))
  unarmed hnone := hh.unarmed hnone (ht.unarmed (hh.channel hnone))
  seated := hh.seated ht.seated
  unsaid hor res := by
    rw [hh.said res]
    refine ht.unsaid ?_ res
    by_cases hrow : s.sessions.get id = none
    · refine Or.inr ?_
      rcases hor with hrow' | hnext
      · -- the row was born in this turn
        have hmove := congrArg Chan.row (chan_step hg.timers hg.ok e id)
        have hstep : ((chan s id).step (observe s e id)).row ≠ none := fun hnone => hrow' (hmove.trans hnone)
        have hborn := (hg.ok id).row_born (observe_enabled hg.timers e id) hrow hstep
        exact Nat.le_of_eq (observe_births hborn).1.symm
      · exact (next_le_step s e).trans hnext
    · exact Or.inl hrow
  once res := by
    rw [hh.said res]
    exact ht.once res

theorem attached_vacant {s : ServerState} {id : SessionId} (h : s.eventRelays.get id = none) : attached s id = [] := by
  simp [attached, relayFor, h, createEventStreamState]

/-- A session with a row was minted. -/
theorem minted_of_row {s : ServerState} (hg : Grounded s) {id : SessionId} (hrow : s.sessions.get id ≠ none) :
    id < s.next := by
  by_contra hle
  exact hrow (congrArg Chan.row (hg.unminted id (Nat.not_lt.mp hle)))

theorem Tidy.ended {s s' : ServerState} {id : SessionId} (ht : Tidy s id) (hg : Grounded s) (hafter : TimersOk s')
    (hrow : s.sessions.get id ≠ none) (hgone : s'.sessions.get id = none) (hle : s.next ≤ s'.next)
    (hown : Unencumbered s id .ended) (hend : Ending s s' id) : Tidy s' id where
  vacant _ := hend.vacant
  unarmed _ t timer htimer r hr hid := by
    have hcur := hown.1 timer (OrdMap.mem_values.mpr ⟨t, hend.timers t timer htimer⟩) r hr hid
    obtain ⟨hliveness, heviction, hidle⟩ := hend.stilled r hcur
    have hkept := hafter.armed.owner_of_get htimer
    obtain ⟨due, callback⟩ := timer
    cases callback with
    | evictPendingLaunch _ => cases hr
    | writeLivenessFrame _ _ | considerEviction _ _ | fireIdleEvent _ _ =>
      cases hr
      simp [owner, hliveness, heviction, hidle] at hkept
  seated := by
    rw [Seated, attached_vacant hend.vacant.1]
    exact ⟨List.nodup_nil, fun res hres => by cases hres⟩
  unsaid hor := by
    rcases hor with hrow' | hnext
    · exact absurd hgone hrow'
    · exact absurd (hle.trans hnext) (Nat.not_le.mpr (minted_of_row hg hrow))
  once res := by
    rw [hend.told res, ht.unsaid (Or.inl hrow) res, Nat.zero_add]
    exact List.nodup_iff_count_le_one.mp ht.seated.1 res

theorem Ending.farewell {s s' : ServerState} {id : SessionId} (hend : Ending s s' id) (ht : Tidy s id)
    (hrow : s.sessions.get id ≠ none) (hown : Unencumbered s id .ended) : Farewell s s' id where
  files install hi := by
    obtain ⟨hsettings, hhandoff⟩ := hown.2 install hi
    exact ⟨(hend.files install hi).1 hsettings, (hend.files install hi).2 hhandoff⟩
  told res hres := by
    rw [hend.told res, ht.unsaid (Or.inl hrow) res, Nat.zero_add]
    exact List.count_eq_one_of_mem ht.seated.1 hres

theorem Tidy.dropped {s s' : ServerState} {id : SessionId} (ht : Tidy s id) (hg : Grounded s)
    (hrow : s.sessions.get id ≠ none) (hgone : s'.sessions.get id = none) (hle : s.next ≤ s'.next)
    (hinstall : s.hookInstalls.get id = none) (hchannel : s.workerChannels.get id = none) (hdrop : Dropping s s' id) :
    Tidy s' id where
  vacant _ := ⟨hdrop.relay, hdrop.install.trans hinstall⟩
  unarmed _ := (ht.unarmed hchannel).sub hdrop.timers
  seated := by
    rw [Seated, attached_vacant hdrop.relay]
    exact ⟨List.nodup_nil, fun res hres => by cases hres⟩
  unsaid hor := by
    rcases hor with hrow' | hnext
    · exact absurd hgone hrow'
    · exact absurd (hle.trans hnext) (Nat.not_le.mpr (minted_of_row hg hrow))
  once res := by
    rw [hdrop.said res]
    exact ht.once res

/-- A turn that takes the row of `id`, by a drop or by an end. -/
theorem tidy_taken {s : ServerState} (hg : Grounded s) {e : Event} (hok : Retires s e) {id : SessionId}
    (ht : Tidy s id) (hrow : s.sessions.get id ≠ none) (hgone : (step s e).sessions.get id = none) :
    Tidy (step s e) id ∧ Farewell s (step s e) id := by
  obtain ⟨row, hs⟩ := Option.ne_none_iff_exists'.mp hrow
  have hclean := hok.1 (id, row) (OrdMap.get_eq_some.mp hs)
  have hle := next_le_step s e
  have hmove := congrArg Chan.row (chan_step hg.timers hg.ok e id)
  rcases Chan.row_taken hrow (hmove.symm.trans hgone) with hact | hact
  · simp only [hact, Unencumbered] at hclean
    have hdrop := dropping_step hg.timers hact
    have henabled := observe_enabled hg.timers e id
    rw [hact] at henabled
    -- no worker has registered in the terminal of a launch still pending
    have hchannel : s.workerChannels.get id = none := by
      have hlink := (hg.ok id).no_link henabled
      cases hr : s.workerChannels.get id with
      | none => rfl
      | some r => cases hlink.symm.trans (link_of_current hr)
    refine ⟨ht.dropped hg hrow hgone hle hclean.1 hchannel hdrop, ?_, ?_⟩
    · intro install hi
      cases hclean.1.symm.trans hi
    · intro res hres
      rw [hclean.2] at hres
      cases hres
  · rw [hact] at hclean
    have hend := ending_step hact hrow
    exact ⟨ht.ended hg (handles_step hg.timers e) hrow hgone hle hclean hend, hend.farewell ht hrow hclean⟩

theorem tidy_step {s : ServerState} (hg : Grounded s) {e : Event} (hok : Retires s e) {id : SessionId}
    (ht : Tidy s id) : Tidy (step s e) id := by
  by_cases hkeep : (step s e).sessions.get id = none → s.sessions.get id = none
  · refine ht.housed hg (houses_step hg e ?_ hkeep)
    rintro res stream rfl hst
    exact hok.2 stream hst
  · rw [Classical.not_imp] at hkeep
    exact (tidy_taken hg hok ht hkeep.2 hkeep.1).1

/-- The server, every turn meeting the condition. -/
abbrev RetireRun : ServerState → Prop := Reach step Booted Retires

theorem RetireRun.reachable {s : ServerState} (h : RetireRun s) : Reachable s := h.mono fun _ _ _ => trivial

theorem RetireRun.tidy {s : ServerState} (h : RetireRun s) (id : SessionId) : Tidy s id := by
  induction h with
  | start hs =>
    obtain ⟨image, rfl⟩ := hs
    exact .boot image id
  | @step s e hr hok ih => exact tidy_step (RetireRun.reachable hr).grounded hok ih

theorem Tidy.retired {s : ServerState} {id : SessionId} (ht : Tidy s id) (hg : Grounded s)
    (hrow : s.sessions.get id = none) : Retired s id := by
  obtain ⟨hpending, -, hquestion⟩ := (hg.ok id).rowless hrow
  have hchannel := channel_of_rowless hg hrow
  have hlaunch := OrdMap.has_eq_false.mp hpending
  refine ⟨(ht.vacant hrow).1, hquestion, (ht.vacant hrow).2, hchannel, hlaunch, ?_⟩
  intro t timer htimer hname
  have hkept := hg.timers.armed.owner_of_get htimer
  have hnone := ht.unarmed hchannel t timer htimer
  obtain ⟨due, callback⟩ := timer
  cases callback with
  | evictPendingLaunch sessionId =>
    obtain rfl : sessionId = id := hname
    simp [owner, hlaunch] at hkept
  | writeLivenessFrame r res => exact hnone r rfl hname
  | considerEviction sessionId r | fireIdleEvent sessionId r =>
    simp only [owner, Option.ite_none_right_eq_some] at hkept
    exact hnone r rfl (hkept.1.symm.trans hname)

/-- A session without a row is retired, in every state reached, and nobody was sent its end twice; a turn that takes
    a row removes the hook's files, and everybody attached has been sent the end once. -/
theorem retires {s : ServerState} (h : RetireRun s) :
    (∀ id, s.sessions.get id = none → Retired s id) ∧ (∀ id res, closedSent s.out id res ≤ 1) ∧
      ∀ e, Retires s e → ∀ id, s.sessions.get id ≠ none → (step s e).sessions.get id = none →
        Retired (step s e) id ∧ Farewell s (step s e) id := by
  have hg := h.reachable.grounded
  refine ⟨fun id hrow => (h.tidy id).retired hg hrow, fun id => (h.tidy id).once, ?_⟩
  intro e hok id hrow hgone
  obtain ⟨htidy, hfarewell⟩ := tidy_taken hg hok (h.tidy id) hrow hgone
  exact ⟨htidy.retired (hg.step e) hgone, hfarewell⟩

/-- A launch, a browser on its relay, its worker's registration, and a stop. -/
def stopped : List Event :=
  [.launchSession ⟨js "/w", .default, none, none⟩ true, .launchOpened 0 true "", .uiEventStream 2 none,
    .sessionCreate (some 0) (js "/w") .default, .stopSession 2 false]

theorem stopped_run : RetireRun (runFrom step freshServer stopped) :=
  (Reach.start freshServer_booted).run_allowed (by decide)

theorem retires_stopped :
    let s := runFrom step freshServer stopped
    attached s 2 = [4] ∧ s.hookInstalls.get 2 = some ⟨⟨1, .settings⟩, ⟨1, .handoff⟩⟩ ∧
      Retired (step s (.livenessSettled 6 (.answered (js "exited")))) 2 ∧
      Farewell s (step s (.livenessSettled 6 (.answered (js "exited")))) 2 :=
  ⟨by decide, by decide, (retires stopped_run).2.2 (.livenessSettled 6 (.answered (js "exited"))) (by decide) 2
    (by decide) (by decide)⟩

/-- The worker never registers: the hook's install and its file stay, and the browser that watched is told nothing. -/
theorem drop_leaves :
    let s := runFrom step freshServer
      [.launchSession ⟨js "/w", .default, none, none⟩ true, .launchOpened 0 true "", .uiEventStream 2 none, .advance 10000]
    let s' := step s (.fire 3)
    attached s 2 = [4] ∧ s.sessions.has 2 = true ∧ s'.sessions.get 2 = none ∧
      s'.hookInstalls.get 2 = some ⟨⟨1, .settings⟩, ⟨1, .handoff⟩⟩ ∧ s'.files.has ⟨1, .settings⟩ = true ∧
      closedSent s'.out 2 4 = 0 :=
  ⟨by decide, by decide, by decide, by decide, by decide, by decide⟩

/-- A session is stopped while its worker's stream is open, and the stream's close arms an eviction for it. -/
theorem late_close_arms :
    let s := runFrom step freshServer
      [.launchSession ⟨js "/w", .default, none, none⟩ false, .launchOpened 0 true "",
        .sessionCreate (some 0) (js "/w") .default,
        .workerRegister 1, .workerEventsStream 1, .stopSession 1 false, .livenessSettled 7 (.answered (js "exited"))]
    s.sessions.get 1 = none ∧ s.timers.size = 0 ∧
      (step s (.workerStreamClosed 5)).timers.get 8 = some ⟨30000, .considerEviction 1 ⟨1, 4⟩⟩ :=
  ⟨by decide, by decide, by decide⟩

end Ccctl.Server
