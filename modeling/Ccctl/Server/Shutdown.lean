import Ccctl.Server.Slots
import Ccctl.Server.Terminals
/-
  Ccctl.Server.Shutdown — every terminal is released at the end.

  `close()` starts a release of each surface tracked when it runs, and forgets them all. A launch whose
  terminal comes up afterwards is tracked by a server that has gone through its table. So the result
  is about runs where no launch opens on a closed server (`OpensInTime`): there every terminal the launcher opened was
  given to a release, or a stop had torn it down (`close_releases`).

  `ReleaseLog` keeps the surfaces opened, those a release was started for, and those a stop
  concluded on. `Tracked` is all that a turn can do to the table.
-/

namespace Ccctl.Server

open Ccctl.Core Ccctl.Lib ServerState

structure ReleaseLog where
  opened : List SurfaceId
  released : List SurfaceId
  stopped : List SurfaceId
  deriving DecidableEq, Repr

/-- The surface a release is about. -/
def Op.releases : Op → Option SurfaceId
  | .evictReading _ launched | .evictClosing _ launched | .releaseReading launched | .releaseClosing launched =>
    some launched.surface
  | _ => none

/-- The session a call works for, and the surface it took from it. -/
def Op.worksFor : Op → Option (SessionId × LaunchedSession)
  | .evictReading id launched | .evictClosing id launched | .stopReading id launched _ | .stopClosing id launched _ _
  | .stopVerdict id launched _ _ => some (id, launched)
  | _ => none

/-- The surface a stop has torn down, or found gone. -/
def concluded (s : ServerState) : Event → List SurfaceId
  | .livenessSettled op reading =>
    match s.ops.get op with
    | some (.stopReading _ launched force) =>
      if decideStop (readLiveness reading) force = .noOp then [launched.surface] else []
    | some (.stopVerdict _ launched _ liveness) =>
      if unconfirmed liveness (readLiveness reading) then [] else [launched.surface]
    | _ => []
  | _ => []

/-- The surface of a launch that returned. -/
def surfaced (s : ServerState) : Event → List SurfaceId
  | .launchOpened op _ _ =>
    match s.ops.get op with
    | some (.launching _ _) => [op]
    | _ => []
  | _ => []

def releaseWatch (s : ServerState) (e : Event) (log : ReleaseLog) : ReleaseLog where
  opened := log.opened ++ surfaced s e
  released := log.released ++ (step s e).ops.values.filterMap Op.releases
  stopped := log.stopped ++ concluded s e

/-- No launch opens on a server that has closed. -/
def OpensInTime (s : ServerState) : Event → Prop
  | .launchOpened op _ _ => s.closed = true → (s.ops.get op).any Op.isLaunching = false
  | _ => True

instance (s : ServerState) (e : Event) : Decidable (OpensInTime s e) := by
  unfold OpensInTime
  split <;> infer_instance

/-- The server watched for its releases. -/
abbrev ReleaseRun (ok : ServerState → Event → Prop) : ServerState × ReleaseLog → Prop :=
  Reach (watched step releaseWatch) (fun p => Booted p.1 ∧ p.2 = ⟨[], [], []⟩) fun p e => ok p.1 e

theorem ReleaseRun.reachable {ok : ServerState → Event → Prop} {p : ServerState × ReleaseLog} (h : ReleaseRun ok p) :
    Reachable p.1 := h.machine (fun _ hp => hp.1) fun _ _ _ => trivial

/-! ## What a turn does to the table -/

inductive Tracked (s : ServerState) (e : Event) : OrdMap SessionId LaunchedSession → Prop where
  | kept (h : surfaced s e = []) : Tracked s e s.launchedSurfaces
  | opened {op : OpId} {attachable : Bool} {hint : String} (he : e = .launchOpened op attachable hint)
      (hop : Launching s op) (h : surfaced s e = [op]) :
      Tracked s e (s.launchedSurfaces.set s.next ⟨op, attachable, hint⟩)
  | settled {op : OpId} {at_ : Op} {id : SessionId} {launched : LaunchedSession} (h : surfaced s e = [])
      (hop : s.ops.get op = some at_) (hfor : at_.worksFor = some (id, launched))
      (hdone : at_.releases = some launched.surface ∨ launched.surface ∈ concluded s e) :
      Tracked s e (s.launchedSurfaces.erase id)
  | halted (he : e = .shutdown) : Tracked s e OrdMap.empty

theorem concludeStop_surfaces (s : ServerState) (id : SessionId) (outcome : String) :
    (concludeStop s id outcome).1.launchedSurfaces = s.launchedSurfaces.erase id := by
  rw [concludeStop_fst]
  obtain ⟨timers, pendingLaunches, heq⟩ :=
    consumePendingLaunch_writes { s with launchedSurfaces := s.launchedSurfaces.erase id } id
  rw [heq, (closeSession_aside _ id).surfaces, (reapWorkerChannel_aside _ id).surfaces]

theorem launchOpened_surfaces (s : ServerState) (op : OpId) (options : SessionLaunchOptions)
    (hook : Option HookInstall) (attachable : Bool) (hint : String) :
    (launchOpened s op options hook attachable hint).1.launchedSurfaces =
      s.launchedSurfaces.set s.next ⟨op, attachable, hint⟩ := by
  rw [launchOpened_eq]

theorem evictPendingLaunch_surfaces (s : ServerState) (id : SessionId) :
    (evictPendingLaunch s id).launchedSurfaces = s.launchedSurfaces := by
  obtain ⟨_, _, hconsumed⟩ := consumePendingLaunch_writes s id
  rcases evictPendingLaunch_writes s id with heq | ⟨_, _, -, heq⟩
  · rw [heq]
  · rw [heq, dropPlaceholder_launchedSurfaces, hconsumed]

theorem livenessSettled_tracked (s : ServerState) (op : OpId) (reading : Reading) :
    Tracked s (.livenessSettled op reading) (livenessSettled s op reading).1.launchedSurfaces := by
  unfold livenessSettled
  split
  · rename_i id launched hop
    unfold evictRead
    split
    · exact .kept rfl
    · exact .settled rfl hop rfl (Or.inl rfl)
    · exact .kept rfl
  · rename_i id launched force hop
    unfold stopRead
    simp only
    split
    · exact .kept rfl
    · rename_i hr
      rw [concludeStop_surfaces]
      refine .settled rfl hop rfl (Or.inr ?_)
      simp [concluded, hop, hr]
    · exact .kept rfl
  · rename_i id launched force liveness hop
    unfold stopConfirmed
    split
    · exact .kept rfl
    · rename_i hr
      rw [concludeStop_surfaces]
      refine .settled rfl hop rfl (Or.inr ?_)
      simp [concluded, hop, hr]
  · unfold releaseRead
    split <;> exact .kept rfl
  · exact .kept rfl

theorem shutdown_surfaces (s : ServerState) : (step s .shutdown).launchedSurfaces = OrdMap.empty := by
  obtain ⟨_, _, _, _, _, _, heq, -⟩ := shutdown_eq s
  exact congrArg ServerState.launchedSurfaces heq

theorem tracked_step (s : ServerState) (e : Event) : Tracked s e (step s e).launchedSurfaces := by
  cases e with
  | launchOpened op attachable hint =>
    by_cases hlaunching : Launching s op
    · obtain ⟨options, hook, hop⟩ := hlaunching
      have heq : (step s (.launchOpened op attachable hint)).launchedSurfaces =
          s.launchedSurfaces.set s.next ⟨op, attachable, hint⟩ := by
        simp only [step, turn, launchSettled, hop]
        exact launchOpened_surfaces s op options hook attachable hint
      rw [heq]
      exact .opened rfl ⟨options, hook, hop⟩ (by simp [surfaced, hop])
    · have hstill := launchSettled_still hlaunching fun options hook => launchOpened s op options hook attachable hint
      have hsame : (step s (.launchOpened op attachable hint)).launchedSurfaces = s.launchedSurfaces :=
        congrArg (fun x => x.1.launchedSurfaces) hstill
      rw [hsame]
      refine .kept ?_
      simp only [surfaced]
      split
      · rename_i options hook hop
        exact absurd ⟨options, hook, hop⟩ hlaunching
      · rfl
  | launchSession options hookOk =>
    have hsame : (step s (.launchSession options hookOk)).launchedSurfaces = s.launchedSurfaces := by
      rcases launchSession_cases s options hookOk with ⟨_, _, _, heq⟩ | ⟨_, _, _, _, heq, -⟩
      · simp only [step, turn, heq]
      · simp only [step, turn, heq]
    exact hsame ▸ .kept rfl
  | launchFailed op code message =>
    have hsame : (step s (.launchFailed op code message)).launchedSurfaces = s.launchedSurfaces := by
      simp only [step, turn, launchSettled]
      split
      · rw [launchFailed_eq]
      · rfl
    exact hsame ▸ .kept rfl
  | sessionCreate terminal cwd mode =>
    have hsame : (step s (.sessionCreate terminal cwd mode)).launchedSurfaces = s.launchedSurfaces := by
      obtain ⟨_, _, _, _, _, heq⟩ := claimPendingLaunch_writes s cwd mode
      simp only [step, turn, handleSessionCreate, heq]
    exact hsame ▸ .kept rfl
  | stopSession id force =>
    have hsame : (step s (.stopSession id force)).launchedSurfaces = s.launchedSurfaces := by
      rcases stopSession_cases s id force with ⟨_, _, _, heq⟩ | ⟨_, -, -, heq⟩
      · simp only [step, turn, heq]
      · simp only [step, turn, heq]
    exact hsame ▸ .kept rfl
  | livenessSettled op reading => exact livenessSettled_tracked s op reading
  | closeSettled op fulfilled =>
    simp only [step, turn, closeSettled]
    split
    · rename_i id launched hop
      exact .settled rfl hop rfl (Or.inl rfl)
    · unfold stopClosed
      split <;> exact .kept rfl
    · exact .kept rfl
    · exact .kept rfl
  | fire t =>
    have hsame : (step s (.fire t)).launchedSurfaces = s.launchedSurfaces := by
      simp only [step, turn, fire]
      split
      · rfl
      · split
        · rfl
        · split
          · exact (writeLivenessFrame_aside _ _ _).surfaces
          · exact evictPendingLaunch_surfaces _ _
          · exact (considerEviction_aside _ _ _).surfaces
          · exact (fireIdleEvent_aside _ _ _).surfaces
    exact hsame ▸ .kept rfl
  | shutdown =>
    rw [shutdown_surfaces]
    exact .halted rfl
  | advance _ | changeDisk _ | writeHookFile _ _ | workerRegister _ | workerEventsStream _ | workerStreamClosed _
  | workerEvent _ _ _ | workerStatus _ _ | workerHeartbeat _ | uiEventStream _ _ | uiStreamClosed _ _ | uiCommand _ _
  | injectTurn _ _ =>
    rw [(aside_step s rfl).surfaces]
    exact .kept rfl

/-! ## The releases of a shutdown -/

/-- Each launch gets a release of its own, and the calls already parked stay. -/
theorem startRelease_starts (launches : List LaunchedSession) (s : ServerState) :
    (∀ op, op < s.next → (launches.foldl startRelease s).ops.get op = s.ops.get op) ∧
      ∀ launched ∈ launches, ∃ op, (launches.foldl startRelease s).ops.get op = some (.releaseReading launched) := by
  induction launches generalizing s with
  | nil => exact ⟨fun _ _ => rfl, fun _ h => by cases h⟩
  | cons first rest ih =>
    obtain ⟨hkept, hstarted⟩ := ih (startRelease s first)
    refine ⟨?_, ?_⟩
    · intro op hlt
      have hset : (startRelease s first).ops.get op = s.ops.get op := OrdMap.get_set_ne _ _ (Nat.ne_of_lt hlt)
      exact (hkept op (Nat.lt_succ_of_lt hlt)).trans hset
    · intro launched hl
      rcases List.mem_cons.mp hl with rfl | hl
      · have hset : (startRelease s launched).ops.get s.next = some (.releaseReading launched) :=
          OrdMap.get_set_self _ _ _
        exact ⟨s.next, (hkept s.next (Nat.lt_succ_self _)).trans hset⟩
      · exact hstarted launched hl

/-- A shutdown starts a release of each terminal tracked. -/
theorem shutdown_releases {s : ServerState} {id : SessionId} {launched : LaunchedSession}
    (hl : s.launchedSurfaces.get id = some launched) :
    ∃ op, (shutdown s).ops.get op = some (.releaseReading launched) := by
  obtain ⟨⟨timers, records, streams, held, heq⟩, -⟩ :=
    closeWorkerChannels_fold s.workerChannels.values (closeEventStreams s)
  have hsurfaces : (clearPendingLaunches (closeWorkerChannels (closeEventStreams s))).launchedSurfaces =
      s.launchedSurfaces := by
    have hchannels : (closeWorkerChannels (closeEventStreams s)).launchedSurfaces = s.launchedSurfaces := by
      have hfold : closeWorkerChannels (closeEventStreams s) = _ := heq
      rw [hfold]
      rfl
    exact hchannels
  have hmem : launched ∈ s.launchedSurfaces.values := OrdMap.mem_values.mpr ⟨id, hl⟩
  have hstarts := (startRelease_starts s.launchedSurfaces.values
    (clearPendingLaunches (closeWorkerChannels (closeEventStreams s)))).2 launched hmem
  rw [← hsurfaces] at hstarts
  exact hstarts

/-! ## Whose surface a call holds -/

/-- A call that works for a session holds the surface the table has for it. -/
def Owned (b : Board) : Prop :=
  ∀ op at_ id launched, b.ops.get op = some at_ → at_.worksFor = some (id, launched) →
    id < b.next ∧ ∀ launched', b.surfaces.get id = some launched' → launched' = launched

theorem Op.Resumes.worksFor {at_ at' : Op} (h : at_.Resumes at') : at'.worksFor = at_.worksFor := by
  cases h <;> rfl

theorem Owned.move {b b' : Board} (h : Owned b) (hok : b.Ok) (hm : b.Move b') : Owned b' := by
  intro op at_ id launched hop hfor
  have hbefore : id < b.next ∧ ∀ launched', b.surfaces.get id = some launched' → launched' = launched := by
    cases hm.op_from hop with
    | kept hold => exact h op at_ id launched hold hfor
    | launching _ _ => cases hfor
    | evictReading hp _ _ _ =>
      cases hfor
      obtain ⟨hlt, hl⟩ := hok.pending id _ hp
      exact ⟨hlt, fun launched' hl' => Option.some.inj (hl'.symm.trans hl)⟩
    | stopReading hl _ _ _ =>
      cases hfor
      exact ⟨(hok.surface id _ hl).1, fun launched' hl' => Option.some.inj (hl'.symm.trans hl)⟩
    | resumed hold hres =>
      rw [hres.worksFor] at hfor
      exact h op _ id launched hold hfor
    | releaseReading _ => cases hfor
  refine ⟨hbefore.1.trans_le hm.next_le, ?_⟩
  intro launched' hl'
  rcases hm.surface_from hl' with hold | ⟨hid, -⟩
  · exact hbefore.2 launched' hold
  · exact absurd hid (Nat.ne_of_lt hbefore.1)

theorem owned_step {s : ServerState} (h : TimersOk s) (hok : (board s).Ok) (ho : Owned (board s)) (e : Event) :
    Owned (board (step s e)) := by
  cases he : e.registers with
  | false => exact ho.move hok (board_step h he)
  | true =>
    cases e with
    | sessionCreate terminal cwd mode =>
      rw [board_create]
      obtain ⟨hops, hsurfaces, hnext⟩ := Board.register_rest (board s) (canonicalCwd s.fs cwd) (matched s cwd mode)
      intro op at_ id launched hop hfor
      rw [hops] at hop
      rw [hsurfaces, hnext]
      obtain ⟨hlt, hsame⟩ := ho op at_ id launched hop hfor
      exact ⟨Nat.lt_succ_of_lt hlt, hsame⟩
    | _ => cases he

theorem Reachable.owned {s : ServerState} (h : Reachable s) : Owned (Server.board s) := by
  induction h with
  | start hs =>
    obtain ⟨image, rfl⟩ := hs
    intro op at_ id launched hop
    cases hop
  | @step s e hr _ ih => exact owned_step (Reachable.grounded hr).timers (Reachable.board hr) ih e

/-! ## Every terminal opened -/

structure ReleaseLog.Ok (s : ServerState) (log : ReleaseLog) : Prop where
  released : ∀ op at_ surface, s.ops.get op = some at_ → at_.releases = some surface → surface ∈ log.released
  accounted : ∀ surface ∈ log.opened, surface ∈ log.released ∨ surface ∈ log.stopped ∨
    ∃ id launched, s.launchedSurfaces.get id = some launched ∧ launched.surface = surface
  untracked : s.closed = true → ∀ id, s.launchedSurfaces.get id = none

namespace ReleaseLog.Ok

variable {s : ServerState} {log : ReleaseLog}

theorem started {op : OpId} {at_ : Op} {surface : SurfaceId} {e : Event} (log : ReleaseLog)
    (hop : (Server.step s e).ops.get op = some at_) (hs : at_.releases = some surface) :
    surface ∈ (releaseWatch s e log).released :=
  List.mem_append_right _ (List.mem_filterMap.mpr ⟨at_, OrdMap.mem_values.mpr ⟨op, hop⟩, hs⟩)

/-- A terminal tracked before a turn is tracked after it, given to a release, or stopped. -/
theorem follow (h : Ok s log) (hr : Reachable s) (e : Event) {id : SessionId} {launched : LaunchedSession}
    (hl : s.launchedSurfaces.get id = some launched) :
    launched.surface ∈ (releaseWatch s e log).released ∨ launched.surface ∈ (releaseWatch s e log).stopped ∨
      (Server.step s e).launchedSurfaces.get id = some launched := by
  have hspec := tracked_step s e
  generalize (Server.step s e).launchedSurfaces = table at hspec ⊢
  cases hspec with
  | kept _ => exact Or.inr (Or.inr hl)
  | opened _ _ _ =>
    have hlt : id < s.next := (hr.board.surface id launched hl).1
    exact Or.inr (Or.inr ((OrdMap.get_set_ne _ _ (Nat.ne_of_lt hlt)).trans hl))
  | @settled op at_ id' launched' _ hop hfor hdone =>
    by_cases heq : id = id'
    · subst heq
      obtain rfl : launched = launched' := (hr.owned op at_ id launched' hop hfor).2 launched hl
      rcases hdone with hrel | hgone
      · exact Or.inl (List.mem_append_left _ (h.released op at_ _ hop hrel))
      · exact Or.inr (Or.inl (List.mem_append_right _ hgone))
    · exact Or.inr (Or.inr ((OrdMap.get_erase_ne _ heq).trans hl))
  | halted he =>
    subst he
    obtain ⟨op, hop⟩ := shutdown_releases hl
    exact Or.inl (started log hop rfl)

theorem step (h : Ok s log) (hr : Reachable s) {e : Event} (he : OpensInTime s e) :
    Ok (step s e) (releaseWatch s e log) where
  released op at_ surface hop hs := started log hop hs
  accounted surface hsurface := by
    rcases List.mem_append.mp hsurface with hold | hnew
    · rcases h.accounted surface hold with hdone | hdone | ⟨id, launched, hl, rfl⟩
      · exact Or.inl (List.mem_append_left _ hdone)
      · exact Or.inr (Or.inl (List.mem_append_left _ hdone))
      · exact (h.follow hr e hl).imp_right fun hrest => hrest.imp_right fun hkept => ⟨id, launched, hkept, rfl⟩
    · -- the launch that has just opened is tracked
      have hspec := tracked_step s e
      generalize (Server.step s e).launchedSurfaces = table at hspec ⊢
      cases hspec with
      | opened _ _ hone =>
        rw [hone] at hnew
        rw [List.mem_singleton.mp hnew]
        exact Or.inr (Or.inr ⟨s.next, _, OrdMap.get_set_self _ _ _, rfl⟩)
      | kept hnone | settled hnone _ _ _ =>
        rw [hnone] at hnew
        cases hnew
      | halted he =>
        subst he
        cases hnew
  untracked hclosed id := by
    by_cases hs : e = .shutdown
    · subst hs
      rw [shutdown_surfaces]
      rfl
    · rw [(onward_step s e hs).closed] at hclosed
      have hnone := h.untracked hclosed
      have hspec := tracked_step s e
      generalize (Server.step s e).launchedSurfaces = table at hspec ⊢
      cases hspec with
      | kept _ => exact hnone id
      | opened heq hop _ =>
        subst heq
        obtain ⟨options, hook, hop⟩ := hop
        have hlate := he hclosed
        rw [hop] at hlate
        cases hlate
      | settled _ _ _ _ =>
        rw [OrdMap.erase_of_none (hnone _)]
        exact hnone id
      | halted _ => rfl

end ReleaseLog.Ok

theorem ReleaseRun.ok {p : ServerState × ReleaseLog} (h : ReleaseRun OpensInTime p) : ReleaseLog.Ok p.1 p.2 := by
  induction h with
  | start hp =>
    obtain ⟨⟨image, himage⟩, hnone⟩ := hp
    rw [himage, hnone]
    exact ⟨(fun _ _ _ hop => by cases hop), (fun _ h => by cases h), fun _ _ => rfl⟩
  | @step p e hr hok ih => exact ih.step (ReleaseRun.reachable hr) hok

/-- Where every launch opens in time: on a closed server no terminal is tracked any more, and each terminal the
    launcher opened was given to a release, unless a stop had torn it down. -/
theorem close_releases {p : ServerState × ReleaseLog} (h : ReleaseRun OpensInTime p) (hclosed : p.1.closed = true) :
    (∀ id, p.1.launchedSurfaces.get id = none) ∧
      ∀ surface ∈ p.2.opened, surface ∈ p.2.released ∨ surface ∈ p.2.stopped := by
  have hok := h.ok
  refine ⟨hok.untracked hclosed, ?_⟩
  intro surface hsurface
  rcases hok.accounted surface hsurface with hdone | hdone | ⟨id, launched, hl, -⟩
  · exact Or.inl hdone
  · exact Or.inr hdone
  · rw [hok.untracked hclosed id] at hl
    cases hl

/-- Two launches, one still awaiting the launcher when the server closes: it fails. -/
def closedOver : List Event :=
  [.launchSession ⟨js "/w", .default, none, none⟩ false, .launchSession ⟨js "/v", .default, none, none⟩ false,
    .launchOpened 0 true "", .shutdown, .launchFailed 1 .spawnFailed ""]

def closedOverRun : ServerState × ReleaseLog :=
  runFrom (watched step releaseWatch) (freshServer, ⟨[], [], []⟩) closedOver

theorem closedOverRun_run : ReleaseRun OpensInTime closedOverRun :=
  (Reach.start ⟨freshServer_booted, rfl⟩).run_allowed (by decide)

theorem close_releases_closedOver :
    (∀ id, closedOverRun.1.launchedSurfaces.get id = none) ∧ closedOverRun.2.opened = [0] ∧
      (0 ∈ closedOverRun.2.released ∨ 0 ∈ closedOverRun.2.stopped) := by
  have hall := close_releases closedOverRun_run rfl
  exact ⟨hall.1, by decide, hall.2 0 (by decide)⟩

/-- A launch awaiting the launcher when the server closes, and its terminal comes up. -/
def openedLate : ServerState × ReleaseLog :=
  runFrom (watched step releaseWatch) (freshServer, ⟨[], [], []⟩)
    [.launchSession ⟨js "/w", .default, none, none⟩ false, .shutdown, .launchOpened 0 true ""]

/-- Everything has settled, and the terminal is tracked by a closed server with no release attempted. -/
theorem close_leaks :
    ReleaseRun anyEvent openedLate ∧ openedLate.1.closed = true ∧ (∀ op, ¬ Launching openedLate.1 op) ∧
      openedLate.1.launchedSurfaces.get 1 = some ⟨0, true, ""⟩ ∧ openedLate.2 = ⟨[0], [], []⟩ :=
  ⟨(Reach.start ⟨freshServer_booted, rfl⟩).run, rfl, fun _ => not_launching rfl, rfl, rfl⟩

end Ccctl.Server
