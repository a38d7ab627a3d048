import Ccctl.Server.Moves
/-
  Ccctl.Server.Placeholders — a row is `registering` exactly while its launch is pending.

  Half of it is `Chan.Ok`, carried by every move of a session; the other half, that the pending
  launch has its timer armed, is `Handles`.
-/

namespace Ccctl.Server

open Ccctl.Core Ccctl.Lib

/-- The row awaits its worker's registration. -/
def Registering (s : ServerState) (id : SessionId) : Prop :=
  ∃ row, s.sessions.get id = some row ∧ row.status = .registering

/-- The launch is pending and its registration timeout armed. -/
def PendingArmed (s : ServerState) (id : SessionId) : Prop :=
  ∃ pending due, s.pendingLaunches.get id = some pending ∧
    s.timers.get pending.timer = some ⟨due, .evictPendingLaunch id⟩

theorem pendingArmed_iff {s : ServerState} (h : TimersOk s) (id : SessionId) :
    PendingArmed s id ↔ s.pendingLaunches.has id = true := by
  rw [OrdMap.has_eq_true]
  constructor
  · intro hex
    obtain ⟨pending, due, hp, -⟩ := hex
    exact ⟨pending, hp⟩
  · intro hex
    obtain ⟨pending, hp⟩ := hex
    obtain ⟨due, hdue⟩ := h.armed.get_of_owner (k := .evictPendingLaunch id) (t := pending.timer) (by simp [owner, hp])
    exact ⟨pending, due, hp, hdue⟩

theorem registering_iff_pending {s : ServerState} (h : Reachable s) (hopen : s.closed = false) (id : SessionId) :
    (Registering s id ↔ PendingArmed s id) ∧ (Registering s id → s.workerChannels.get id = none) := by
  have hok := h.grounded.ok id
  have hiff : Registering s id ↔ PendingArmed s id := by
    rw [pendingArmed_iff h.handles]
    constructor
    · intro hex
      obtain ⟨row, hrow, hs⟩ := hex
      exact hok.pending hopen row hrow hs
    · exact hok.placeholder
  refine ⟨hiff, ?_⟩
  intro hreg
  have hlink := hok.no_link ((pendingArmed_iff h.handles id).mp (hiff.mp hreg))
  cases hr : s.workerChannels.get id with
  | none => rfl
  | some r =>
    rw [link_of_current hr] at hlink
    cases hlink

/-- A launch in a fresh server, its terminal open. -/
def oneLaunch : List Event :=
  [.launchSession ⟨js "/w", .default, none, none⟩ true, .launchOpened 0 true ""]

theorem registering_iff_pending_launched :
    Registering (runFrom step freshServer oneLaunch) 2 ∧
      (Registering (runFrom step freshServer oneLaunch) 2 ↔ PendingArmed (runFrom step freshServer oneLaunch) 2) ∧
      (Registering (runFrom step freshServer oneLaunch) 2 →
        (runFrom step freshServer oneLaunch).workerChannels.get 2 = none) :=
  ⟨⟨createRegisteringSession 2 .default 0, by decide, rfl⟩,
    registering_iff_pending (freshServer_run oneLaunch) (by decide) 2⟩

end Ccctl.Server
