import Ccctl.Server.Slots
/-
  Ccctl.Server.Capacity — the terminals a cap on sessions bounds.

  The cap counts rows and reservations; a terminal is neither. `surfaceWatch` keeps the terminals
  the launcher opened until the server observes them gone: a reading answers that it exited, a close it asked for is
  done, or a stop is confirmed. Those whose session still has the row its launch made are within the
  cap, in every state (`rows_capped`): a launch turns its own reservation into its row.

  The others are not: an eviction drops the row first and reads the terminal afterwards, may
  leave it running, and an eviction for silence does not look at it (`cap_outlived`).
-/

namespace Ccctl.Server

open Ccctl.Core Ccctl.Lib ServerState

/-- A terminal the launcher opened, and the session its launch made. -/
structure Terminal where
  surface : SurfaceId
  session : SessionId
  deriving DecidableEq, Repr

/-- The surface a suspended call is about. -/
def Op.surface : Op → Option SurfaceId
  | .launching _ _ => none
  | .evictReading _ launched | .evictClosing _ launched | .stopReading _ launched _ | .stopClosing _ launched _ _
  | .stopVerdict _ launched _ _ | .releaseReading launched | .releaseClosing launched => some launched.surface

/-- A reading that finds the surface gone, or a stop that takes it for gone. -/
def Op.gone (reading : Reading) : Op → Bool
  | .stopVerdict _ _ _ liveness => !unconfirmed liveness (readLiveness reading)
  | _ => readLiveness reading = .exited

/-- The surfaces a turn observes gone. -/
def observedGone (s : ServerState) : Event → List SurfaceId
  | .livenessSettled op reading => ((s.ops.get op).filter (Op.gone reading)).bind Op.surface |>.toList
  | .closeSettled op true =>
    match s.ops.get op with
    | some (.evictClosing _ launched) | some (.releaseClosing launched) => [launched.surface]
    | _ => []
  | _ => []

/-- The terminal a turn opens. -/
def opened (s : ServerState) (e : Event) : List Terminal :=
  match launchTurn s e with
  | some (op, .placed id) => [⟨op, id⟩]
  | _ => []

def surfaceWatch (s : ServerState) (e : Event) (live : List Terminal) : List Terminal :=
  (live.filter fun t => t.surface ∉ observedGone s e) ++ opened s e

/-- The server watched for the terminals not observed gone. -/
abbrev SurfaceRun : ServerState × List Terminal → Prop :=
  Reach (watched step surfaceWatch) (fun p => Booted p.1 ∧ p.2 = []) anyEvent

theorem SurfaceRun.reachable {p : ServerState × List Terminal} (h : SurfaceRun p) : Reachable p.1 :=
  h.machine (fun _ hp => hp.1) fun _ _ _ => trivial

/-- The terminals whose session still has its row. -/
def housed (s : ServerState) (live : List Terminal) : Nat := live.countP fun t => s.sessions.has t.session

/-! ## What each part adds to the count -/

theorem housed_append (s : ServerState) (live live' : List Terminal) :
    housed s (live ++ live') = housed s live + housed s live' := List.countP_append

/-- One row, one terminal. -/
theorem housed_le_size {s : ServerState} {live : List Terminal} (hnodup : (live.map Terminal.session).Nodup) :
    housed s live ≤ s.sessions.size := by
  have hsub : (live.filter fun t => s.sessions.has t.session).map Terminal.session ⊆ s.sessions.keys := by
    intro id hid
    obtain ⟨t, ht, rfl⟩ := List.mem_map.mp hid
    obtain ⟨row, hrow⟩ := OrdMap.has_eq_true.mp (List.mem_filter.mp ht).2
    exact OrdMap.mem_keys.mpr ⟨row, hrow⟩
  have hnd : ((live.filter fun t => s.sessions.has t.session).map Terminal.session).Nodup :=
    hnodup.sublist (List.filter_sublist.map _)
  have hlen := (hnd.subperm hsub).length_le
  rw [List.length_map] at hlen
  rw [housed, List.countP_eq_length_filter]
  refine hlen.trans (Nat.le_of_eq ?_)
  rw [OrdMap.keys, OrdMap.size, List.length_map]

/-- No turn gives a terminal its row back. -/
theorem housed_step {s : ServerState} (hg : Grounded s) (e : Event) {live : List Terminal}
    (hminted : ∀ t ∈ live, t.session < s.next) : housed (step s e) live ≤ housed s live := by
  refine List.countP_mono_left fun t ht hrow => ?_
  by_contra hnone
  rw [Bool.not_eq_true, OrdMap.has_eq_false] at hnone
  have hgone := row_gone hg (e := e) hnone (hminted t ht)
  rw [← OrdMap.has_eq_false, hrow] at hgone
  cases hgone

theorem housed_filter (s : ServerState) (live : List Terminal) (p : Terminal → Bool) :
    housed s (live.filter p) ≤ housed s live := List.Sublist.countP_le List.filter_sublist

/-- A reservation given back. -/
theorem release_length {reservations : List OpId} {op : OpId} (hone : reservations.count op = 1) :
    (reservations.filter (· ≠ op)).length + 1 = reservations.length := by
  have hsplit := List.length_eq_countP_add_countP (fun x => decide (x ≠ op)) (l := reservations)
  have hcount : reservations.countP (fun x => ¬ decide (x ≠ op)) = 1 := by
    rw [← hone, List.count]
    refine List.countP_congr fun x _ => ?_
    simp
  rw [← List.countP_eq_length_filter]
  omega

/-- A launch in flight holds one reservation. -/
theorem Reachable.reserved {s : ServerState} (h : Reachable s) {op : OpId} (hop : Launching s op) :
    s.launchReservations.count op = 1 := by
  obtain ⟨log, hrun⟩ := h.shadowed launchWatch fun _ => none
  have hslots := LaunchRun.slots hrun
  rw [hslots.reserved op, if_pos (hslots.launching op hop)]

theorem config_step (s : ServerState) (e : Event) : (step s e).config = s.config := by
  by_cases hs : e = .shutdown
  · subst hs
    obtain ⟨_, _, _, _, _, _, heq, -⟩ := shutdown_eq s
    show (shutdown s).config = s.config
    rw [heq]
  · exact (onward_step s e hs).config

/-! ## The cap -/

/-- The launches in flight and the terminals that have their row are within the cap. -/
structure Capped (s : ServerState) (live : List Terminal) : Prop where
  apart : (live.map Terminal.session).Nodup
  minted : ∀ t ∈ live, t.session < s.next
  capped : housed s live + s.launchReservations.length ≤ s.config.maxSessions

namespace Capped

variable {s : ServerState} {live : List Terminal}

/-- The terminals not observed gone by a turn. -/
theorem seen (h : Capped s live) (e : Event) :
    let kept := live.filter fun t => t.surface ∉ observedGone s e
    (kept.map Terminal.session).Nodup ∧ (∀ t ∈ kept, t.session < s.next) ∧
      housed s kept + s.launchReservations.length ≤ s.config.maxSessions := by
  intro kept
  refine ⟨h.apart.sublist (List.filter_sublist.map _), fun t ht => h.minted t (List.mem_filter.mp ht).1, ?_⟩
  have hle : housed s kept ≤ housed s live := housed_filter s live _
  have hcap := h.capped
  omega

theorem step (h : Capped s live) (hr : Reachable s) (e : Event) : Capped (step s e) (surfaceWatch s e live) := by
  obtain ⟨hapart, hminted, hcapped⟩ := h.seen e
  have hstays := housed_step hr.grounded e hminted
  have hnext := next_le_step s e
  unfold surfaceWatch
  generalize (live.filter fun t => t.surface ∉ observedGone s e) = kept at hapart hminted hcapped hstays ⊢
  have hspec := launchTurn_spec s e
  unfold opened
  generalize launchTurn s e = made at hspec ⊢
  cases hspec with
  | aside hres _ =>
    refine ⟨by simpa using hapart, fun t ht => ?_, ?_⟩
    · rw [List.append_nil] at ht
      exact (hminted t ht).trans_le hnext
    · rw [List.append_nil, hres, config_step]
      omega
  | began hres hcap hlt _ =>
    refine ⟨by simpa using hapart, fun t ht => ?_, ?_⟩
    · rw [List.append_nil] at ht
      exact (hminted t ht).trans_le hnext
    · -- every row counts towards the cap the launch was let through under
      rw [List.append_nil, config_step]
      have hrows : housed (Server.step s e) kept ≤ (Server.step s e).sessions.size := housed_le_size hapart
      unfold liveSessionCount at hcap
      omega
  | failed hop hres _ _ =>
    refine ⟨by simpa using hapart, fun t ht => ?_, ?_⟩
    · rw [List.append_nil] at ht
      exact (hminted t ht).trans_le hnext
    · have hfreed := release_length (hr.reserved hop)
      rw [List.append_nil, config_step, hres]
      omega
  | @opened op row hop hres _ hlt _ _ =>
    refine ⟨?_, ?_, ?_⟩
    · rw [List.map_append, List.map_singleton, List.nodup_append]
      refine ⟨hapart, List.nodup_singleton _, ?_⟩
      intro id hid other hother
      rw [List.mem_singleton.mp hother]
      obtain ⟨t, ht, rfl⟩ := List.mem_map.mp hid
      exact Nat.ne_of_lt (hminted t ht)
    · intro t ht
      rcases List.mem_append.mp ht with ht | ht
      · exact (hminted t ht).trans_le hnext
      · rw [List.mem_singleton.mp ht]
        exact hlt
    · -- the reservation becomes the row
      have hfreed := release_length (hr.reserved hop)
      have hone : housed (Server.step s e) [⟨op, s.next⟩] ≤ 1 := List.countP_le_length
      show housed (Server.step s e) (kept ++ [⟨op, s.next⟩]) + _ ≤ _
      rw [housed_append, config_step, hres]
      omega

end Capped

theorem SurfaceRun.capped {p : ServerState × List Terminal} (h : SurfaceRun p) : Capped p.1 p.2 := by
  induction h with
  | start hp =>
    obtain ⟨⟨image, himage⟩, hnone⟩ := hp
    rw [himage, hnone]
    exact ⟨List.nodup_nil, (fun t ht => by cases ht), Nat.zero_le _⟩
  | @step p e hr _ ih => exact ih.step (SurfaceRun.reachable hr) e

/-- In every state, the terminals not observed gone whose session has its row, and the launches in flight, are
    within the cap. -/
theorem rows_capped {p : ServerState × List Terminal} (h : SurfaceRun p) :
    (p.2.filter fun t => p.1.sessions.has t.session).length + p.1.launchReservations.length ≤
      p.1.config.maxSessions := by
  have hcapped := h.capped.capped
  rwa [housed, List.countP_eq_length_filter] at hcapped

/-- A server with room for one session. -/
def singleImage : BootImage := { freshImage with config := { freshImage.config with maxSessions := 1 } }

/-- A launch whose worker does not register, taken over by the time it is read; then another launch. -/
def outlived : List Event :=
  [.launchSession ⟨js "/w", .default, none, none⟩ false, .launchOpened 0 true "", .advance 10000, .fire 2,
    .livenessSettled 3 (.answered (js "taken-over")), .launchSession ⟨js "/w", .default, none, none⟩ false,
    .launchOpened 4 true ""]

def outlivedRun : ServerState × List Terminal :=
  runFrom (watched step surfaceWatch) (startServer singleImage, []) outlived

theorem outlivedRun_run : SurfaceRun outlivedRun := (Reach.start ⟨⟨singleImage, rfl⟩, rfl⟩).run

theorem rows_capped_outlived :
    (outlivedRun.2.filter fun t => outlivedRun.1.sessions.has t.session).length +
      outlivedRun.1.launchReservations.length ≤ 1 := rows_capped outlivedRun_run

/-- The terminal left running outlives its row, and the cap lets another one open beside it. -/
theorem cap_outlived :
    SurfaceRun outlivedRun ∧ outlivedRun.2 = [⟨0, 1⟩, ⟨4, 5⟩] ∧ outlivedRun.1.launchedSurfaces.size = 2 ∧
      ¬ outlivedRun.2.length ≤ outlivedRun.1.config.maxSessions :=
  ⟨outlivedRun_run, by decide, by decide, by decide⟩

end Ccctl.Server
