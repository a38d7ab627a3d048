import Ccctl.Server.Launches
/-
  Ccctl.Server.Terminals — which terminal a close or a claim reaches.

  A registration does not say which terminal its worker runs in. The server guards against closing
  the wrong one by marks on the launches still pending, and looks at them before it awaits anything:
  what a registration tells it between the reading and the close it does not look at again.

  Three results, each over every interleaving of the launch protocols. An eviction closes no
  terminal whose launch was ever marked, nor one whose worker registered, in a run where workers
  register while their launch is pending (`evict_spares`). An unforced stop closes no terminal
  marked by then, in a run where no mark falls on a terminal under such a stop (`stop_spares`).
  And a claim is the registering worker's own exactly if its launch is still pending, or nothing
  unambiguous is (`claim_own_iff`).
-/

namespace Ccctl.Server

open Ccctl.Core Ccctl.Lib ServerState

def Op.isLaunching : Op → Bool
  | .launching _ _ => true
  | _ => false

/-- The surface an eviction's reading is about. -/
def Op.evicts : Op → Option SurfaceId
  | .evictReading _ launched => some launched.surface
  | _ => none

/-- The surface an unforced stop's first reading is about. -/
def Op.stops : Op → Option SurfaceId
  | .stopReading _ launched false => some launched.surface
  | _ => none

/-! ## Evictions -/

/-- The terminal a registering worker runs in. -/
def registrant : Event → Option SurfaceId
  | .sessionCreate terminal _ _ => terminal
  | _ => none

/-- The terminals whose launch is pending and marked. -/
def markedTerminals (pendings : OrdMap SessionId PendingLaunch) : List SurfaceId :=
  (pendings.values.filter (·.mayHoldLiveWorker)).map (·.launched.surface)

structure TerminalLog where
  /-- Their worker registered. -/
  registered : List SurfaceId
  /-- Their launch was marked while it was pending. -/
  marked : List SurfaceId

def terminalWatch (s : ServerState) (e : Event) (log : TerminalLog) : TerminalLog where
  registered := log.registered ++ (registrant e).toList
  marked := log.marked ++ markedTerminals (step s e).pendingLaunches

/-- The terminal's launch has returned, no eviction is reading it, and while the launch is pending the request
    reports its pair. -/
def Expected (s : ServerState) (terminal : SurfaceId) (cwd : Path) (mode : PermissionMode) : Prop :=
  terminal < s.next ∧ (∀ at_ ∈ s.ops.get terminal, at_.isLaunching = false) ∧
    (∀ at_ ∈ s.ops.values, at_.evicts ≠ some terminal) ∧
    ∀ p ∈ s.pendingLaunches.values, p.launched.surface = terminal →
      isAbsolute cwd = true ∧ p.onPair (canonicalCwd s.fs cwd) mode = true

instance (s : ServerState) (terminal : SurfaceId) (cwd : Path) (mode : PermissionMode) :
    Decidable (Expected s terminal cwd mode) := by
  unfold Expected
  infer_instance

/-- A worker in a launched terminal registers when it is expected to. -/
def RegistersExpected (p : ServerState × TerminalLog) (e : Event) : Prop :=
  match e with
  | .sessionCreate (some terminal) cwd mode => Expected p.1 terminal cwd mode
  | _ => True

instance (p : ServerState × TerminalLog) (e : Event) : Decidable (RegistersExpected p e) := by
  unfold RegistersExpected
  split <;> infer_instance

/-- No launch will close any of the terminals: it is not being read, and if it is still pending it is marked. -/
structure Spared (b : Board) (terminals : List SurfaceId) : Prop where
  known : ∀ t ∈ terminals, t < b.next
  returned : ∀ t ∈ terminals, ∀ options hook, b.ops.get t ≠ some (.launching options hook)
  held : ∀ id p, b.pendings.get id = some p → p.launched.surface ∈ terminals → p.mayHoldLiveWorker = true
  unread : ∀ op id launched, b.ops.get op = some (.evictReading id launched) → launched.surface ∉ terminals

namespace Spared

variable {b b' : Board} {terminals : List SurfaceId}

theorem move (h : Spared b terminals) (hm : b.Move b') : Spared b' terminals where
  known t ht := (h.known t ht).trans_le hm.next_le
  returned t ht options hook hop := by
    cases hm.op_from hop with
    | kept hold => exact h.returned t ht options hook hold
    | launching heq _ => exact absurd heq (Nat.ne_of_lt (h.known t ht))
    | resumed _ hres => cases hres
  held id p' hp ht := by
    rcases hm.pending_from hp with ⟨p, hp₀, hkept, -⟩ | ⟨-, -, -, options, hook, hop⟩
    · rw [hkept.launched] at ht
      exact hkept.mayHold (h.held id p hp₀ ht)
    · exact absurd hop (h.returned _ ht options hook)
  unread op id launched hop ht := by
    cases hm.op_from hop with
    | kept hold => exact h.unread op id launched hold ht
    | evictReading hp hmark _ _ =>
      have hheld := h.held id _ hp ht
      rw [hmark] at hheld
      cases hheld
    | resumed _ hres => cases hres

/-- A registration from `later`: those whose launch is still pending leave it, or are marked. -/
theorem register (h : Spared b terminals) {later : List SurfaceId} {cwd : Path} {m : Option PendingLaunch}
    (hknown : ∀ t ∈ later, t < b.next)
    (hreturned : ∀ t ∈ later, ∀ options hook, b.ops.get t ≠ some (.launching options hook))
    (hunread : ∀ op id launched, b.ops.get op = some (.evictReading id launched) → launched.surface ∉ later)
    (hheld : ∀ id p, (b.register cwd m).pendings.get id = some p → p.launched.surface ∈ later →
      p.mayHoldLiveWorker = true) : Spared (b.register cwd m) (terminals ++ later) := by
  obtain ⟨hops, -, hnext⟩ := Board.register_rest b cwd m
  refine ⟨?_, ?_, ?_, ?_⟩
  · intro t ht
    rw [hnext]
    rcases List.mem_append.mp ht with ht | ht
    · exact Nat.lt_succ_of_lt (h.known t ht)
    · exact Nat.lt_succ_of_lt (hknown t ht)
  · intro t ht options hook hop
    rw [hops] at hop
    rcases List.mem_append.mp ht with ht | ht
    · exact h.returned t ht options hook hop
    · exact hreturned t ht options hook hop
  · intro id p' hp ht
    rcases List.mem_append.mp ht with ht | ht
    · obtain ⟨p, hp₀, hkept, -⟩ := Board.register_from hp
      rw [hkept.launched] at ht
      exact hkept.mayHold (h.held id p hp₀ ht)
    · exact hheld id p' hp ht
  · intro op id launched hop ht
    rw [hops] at hop
    rcases List.mem_append.mp ht with ht | ht
    · exact h.unread op id launched hop ht
    · exact hunread op id launched hop ht

/-- A registration from elsewhere. -/
theorem register_elsewhere (h : Spared b terminals) (cwd : Path) (m : Option PendingLaunch) :
    Spared (b.register cwd m) terminals := by
  have hnone : Spared (b.register cwd m) (terminals ++ []) := by
    refine h.register ?_ ?_ ?_ ?_ <;> simp
  rwa [List.append_nil] at hnone

/-- A marked launch is the only one on its terminal, and nobody reads that. -/
theorem mark (h : Spared b terminals) (hok : b.Ok) : Spared b (terminals ++ markedTerminals b.pendings) := by
  have hmarked : ∀ t ∈ markedTerminals b.pendings, ∃ id p, b.pendings.get id = some p ∧
      p.mayHoldLiveWorker = true ∧ p.launched.surface = t := by
    intro t ht
    obtain ⟨p, hp, rfl⟩ := List.mem_map.mp ht
    obtain ⟨hmem, hmay⟩ := List.mem_filter.mp hp
    obtain ⟨id, hid⟩ := OrdMap.mem_values.mp hmem
    exact ⟨id, p, hid, hmay, rfl⟩
  refine ⟨?_, ?_, ?_, ?_⟩
  · intro t ht
    rcases List.mem_append.mp ht with ht | ht
    · exact h.known t ht
    · obtain ⟨id, p, hp, -, rfl⟩ := hmarked t ht
      exact (hok.surface id _ (hok.pending id p hp).2).2.1
  · intro t ht
    rcases List.mem_append.mp ht with ht | ht
    · exact h.returned t ht
    · obtain ⟨id, p, hp, -, rfl⟩ := hmarked t ht
      exact (hok.surface id _ (hok.pending id p hp).2).2.2
  · intro id q hq ht
    rcases List.mem_append.mp ht with ht | ht
    · exact h.held id q hq ht
    · obtain ⟨other, p, hp, hmay, hsame⟩ := hmarked _ ht
      obtain rfl := hok.pending_inj hp hq hsame
      rwa [← Option.some.inj (hp.symm.trans hq)]
  · intro op id launched hop ht
    rcases List.mem_append.mp ht with ht | ht
    · exact h.unread op id launched hop ht
    · obtain ⟨other, p, hp, -, hsame⟩ := hmarked _ ht
      exact (hok.reading op id launched hop).2.2 other p hp hsame

end Spared

/-- A launch on the pair a registration reports leaves the table, or is marked. -/
theorem marked_or_gone {s : ServerState} (h : TimersOk s) (hok : (board s).Ok) {cwd : Path} {mode : PermissionMode}
    {id : SessionId} {p p' : PendingLaunch} (hp : s.pendingLaunches.get id = some p)
    (hp' : ((board s).register (canonicalCwd s.fs cwd) (matched s cwd mode)).pendings.get id = some p')
    (habs : isAbsolute cwd = true) (hon : p.onPair (canonicalCwd s.fs cwd) mode = true) :
    p'.mayHoldLiveWorker = true := by
  cases hm : matched s cwd mode with
  | none =>
    -- the launch itself would have been matched
    rw [matched, if_pos habs, oldestPendingLaunch] at hm
    have hoff := OrdMap.first_eq_none hm hp
    rw [hon] at hoff
    cases hoff
  | some claimed =>
    obtain ⟨hget, honClaimed⟩ := matched_spec h hm
    rw [hm] at hp'
    by_cases hamb : claimed.ambiguous = true
    · simp only [Board.register, hamb, if_true] at hp'
      obtain ⟨q, hq, -, hmark⟩ := held_from hp'
      have hpq : p = q := Option.some.inj (hp.symm.trans (OrdMap.get_erase_of_some hq).2)
      rw [hmark, ← hpq, Bool.or_eq_true]
      rw [PendingLaunch.onPair_iff] at hon honClaimed
      exact Or.inr (PendingLaunch.onPair_iff.mpr ⟨hon.1, hon.2.trans honClaimed.2.symm⟩)
    · -- unambiguous, so it is the only one on its pair
      simp only [Board.register, if_neg hamb] at hp'
      have hne := (OrdMap.get_erase_of_some hp').1
      rw [PendingLaunch.onPair_iff] at hon honClaimed
      refine absurd (hok.ambiguous claimed.sessionId id claimed p (Ne.symm hne) hget hp ?_) hamb
      exact PendingLaunch.onPair_iff.mpr ⟨hon.1.trans honClaimed.1.symm, hon.2.trans honClaimed.2.symm⟩

/-- The server watched for its terminals, each worker registering when it is expected to. -/
abbrev RegistrantRun : ServerState × TerminalLog → Prop :=
  Reach (watched step terminalWatch) (fun p => Booted p.1 ∧ p.2 = ⟨[], []⟩) RegistersExpected

theorem RegistrantRun.reachable {p : ServerState × TerminalLog} (h : RegistrantRun p) : Reachable p.1 :=
  h.machine (fun _ hp => hp.1) fun _ _ _ => trivial

theorem registered_step {s : ServerState} (h : TimersOk s) (hok : (board s).Ok) {log : TerminalLog}
    (hs : Spared (board s) log.registered) {e : Event} (he : RegistersExpected (s, log) e) :
    Spared (board (step s e)) (terminalWatch s e log).registered := by
  cases hreg : e.registers with
  | false =>
    have hnone : (terminalWatch s e log).registered = log.registered := by
      cases e with
      | sessionCreate terminal cwd mode => cases hreg
      | _ => exact List.append_nil _
    rw [hnone]
    exact hs.move (board_step h hreg)
  | true =>
    cases e with
    | sessionCreate terminal cwd mode =>
      rw [board_create]
      cases terminal with
      | none =>
        rw [terminalWatch, registrant, Option.toList_none, List.append_nil]
        exact hs.register_elsewhere _ _
      | some terminal =>
        obtain ⟨hlt, hreturned, hunread, hpair⟩ : Expected s terminal cwd mode := he
        refine hs.register (fun t ht => ?_) (fun t ht options hook hop => ?_) (fun op id launched hop ht => ?_)
          fun id p' hp' ht => ?_
        · rw [List.mem_singleton.mp ht]
          exact hlt
        · rw [List.mem_singleton.mp ht] at hop
          exact absurd (hreturned _ hop) (by simp [Op.isLaunching])
        · refine hunread _ (OrdMap.mem_values.mpr ⟨op, hop⟩) ?_
          rw [Op.evicts, List.mem_singleton.mp ht]
        · obtain ⟨p, hp, hkept, -⟩ := Board.register_from hp'
          rw [hkept.launched] at ht
          obtain ⟨habs, hon⟩ := hpair p (OrdMap.mem_values.mpr ⟨id, hp⟩) (List.mem_singleton.mp ht)
          exact marked_or_gone h hok hp hp' habs hon
    | _ => cases hreg

/-- What was marked stays spared, whoever registers. -/
theorem marked_step {s : ServerState} (h : TimersOk s) (hok : (board s).Ok) {log : TerminalLog}
    (hs : Spared (board s) log.marked) (e : Event) : Spared (board (step s e)) (terminalWatch s e log).marked := by
  refine Spared.mark ?_ (board_ok_step h hok e)
  cases hreg : e.registers with
  | false => exact hs.move (board_step h hreg)
  | true =>
    cases e with
    | sessionCreate terminal cwd mode =>
      rw [board_create]
      exact hs.register_elsewhere _ _
    | _ => cases hreg

theorem Spared.empty (s : BootImage) : Spared (board (startServer s)) [] where
  known _ ht := by cases ht
  returned _ ht := by cases ht
  held _ _ hp := by cases hp
  unread _ _ _ hop := by cases hop

theorem RegistrantRun.spared {p : ServerState × TerminalLog} (h : RegistrantRun p) :
    Spared (board p.1) p.2.registered ∧ Spared (board p.1) p.2.marked := by
  induction h with
  | start hp =>
    obtain ⟨⟨image, himage⟩, hnone⟩ := hp
    rw [himage, hnone]
    exact ⟨.empty image, .empty image⟩
  | @step p e hr hok ih =>
    have hreach : Reachable p.1 := RegistrantRun.reachable hr
    have htimers := hreach.grounded.timers
    exact ⟨registered_step htimers hreach.board ih.1 hok, marked_step htimers hreach.board ih.2 e⟩

/-- An eviction whose reading settles into a close finds that no worker registered from the terminal, and that its
    launch was never marked. -/
theorem evict_spares {p : ServerState × TerminalLog} (h : RegistrantRun p) {op : OpId} {id : SessionId}
    {launched : LaunchedSession} (hop : p.1.ops.get op = some (.evictReading id launched)) (reading : Reading) :
    (step p.1 (.livenessSettled op reading)).out = p.1.out ++ [.closeSurface launched.surface op] →
      launched.surface ∉ p.2.registered ∧ launched.surface ∉ p.2.marked := by
  intro _
  exact ⟨h.spared.1.unread op id launched hop, h.spared.2.unread op id launched hop⟩

/-- A launch in a fresh server, and nobody registers in time. -/
def timedOut : List Event :=
  [.launchSession ⟨js "/w", .default, none, none⟩ false, .launchOpened 0 true "", .advance 10000, .fire 2]

def aliveServerOwned : Reading := .answered (js "alive-server-owned")

def timedOutRun : ServerState × TerminalLog :=
  runFrom (watched step terminalWatch) (freshServer, ⟨[], []⟩) timedOut

theorem timedOutRun_run : RegistrantRun timedOutRun :=
  (Reach.start ⟨freshServer_booted, rfl⟩).run_allowed (by decide)

theorem evict_spares_timedOut :
    (step timedOutRun.1 (.livenessSettled 3 aliveServerOwned)).out = timedOutRun.1.out ++ [.closeSurface 0 3] ∧
      0 ∉ timedOutRun.2.registered ∧ 0 ∉ timedOutRun.2.marked :=
  ⟨rfl, evict_spares timedOutRun_run (show timedOutRun.1.ops.get 3 = some (.evictReading 1 ⟨0, true, ""⟩) by decide)
    aliveServerOwned rfl⟩

/-- The worker registers while its eviction's reading is awaited, and its terminal is closed. -/
theorem evict_closes_registered :
    let p := runFrom (watched step terminalWatch) timedOutRun [.sessionCreate (some 0) (js "/w") .default]
    0 ∈ p.2.registered ∧ p.1.sessions.has 4 = true ∧ p.1.ops.get 3 = some (.evictReading 1 ⟨0, true, ""⟩) ∧
      (step p.1 (.livenessSettled 3 aliveServerOwned)).out = p.1.out ++ [.closeSurface 0 3] :=
  ⟨by decide, by decide, by decide, rfl⟩

/-! ## Stops -/

/-- A registration marks no terminal that an unforced stop is reading. -/
def MarksNoStop (s : ServerState) (e : Event) : Prop :=
  match e with
  | .sessionCreate _ cwd mode =>
    ∀ claimed ∈ matched s cwd mode, claimed.ambiguous = true → ∀ p ∈ s.pendingLaunches.values,
      p.sessionId ≠ claimed.sessionId → p.onPair (canonicalCwd s.fs cwd) claimed.permissionMode = true →
        ∀ at_ ∈ s.ops.values, at_.stops ≠ some p.launched.surface
  | _ => True

instance (s : ServerState) (e : Event) : Decidable (MarksNoStop s e) := by
  unfold MarksNoStop
  split <;> infer_instance

/-- No launch pending on a terminal that an unforced stop is reading is marked. -/
def Unmarked (b : Board) : Prop :=
  ∀ op id launched, b.ops.get op = some (.stopReading id launched false) → ∀ other p, b.pendings.get other = some p →
    p.launched.surface = launched.surface → p.mayHoldLiveWorker = false

theorem Unmarked.move {b b' : Board} (h : Unmarked b) (hok : b.Ok) (hm : b.Move b') : Unmarked b' := by
  intro op id launched hop other p' hp' heq
  have hbefore : ∀ p, b.pendings.get other = some p → p.launched.surface = launched.surface →
      p.mayHoldLiveWorker = false := by
    intro p hp hsurface
    cases hm.op_from hop with
    | kept hold => exact h op id launched hold other p hp hsurface
    | stopReading hl hmark _ _ =>
      -- the mark was looked at under the session's own id
      obtain rfl : other = id := hok.distinct other id _ _ (hok.pending other p hp).2 hl hsurface
      exact hmark p hp
    | resumed _ hres => cases hres
  rcases hm.pending_from hp' with ⟨p, hp, hkept, hmark⟩ | ⟨-, -, hmark, -⟩
  · rw [hkept.launched] at heq
    rw [hmark]
    exact hbefore p hp heq
  · exact hmark

theorem unmarked_step {s : ServerState} (h : TimersOk s) (hok : (board s).Ok) (hu : Unmarked (board s)) {e : Event}
    (he : MarksNoStop s e) : Unmarked (board (step s e)) := by
  cases hreg : e.registers with
  | false => exact hu.move hok (board_step h hreg)
  | true =>
    cases e with
    | sessionCreate terminal cwd mode =>
      rw [board_create]
      intro op id launched hop other p' hp' heq
      rw [(Board.register_rest _ _ _).1] at hop
      obtain ⟨p, hp, hkept, hmark⟩ := Board.register_from hp'
      rw [hkept.launched] at heq
      by_contra hmarked
      rw [Bool.not_eq_false] at hmarked
      rcases hmark hmarked with hbefore | ⟨claimed, hm, hamb, hne, hon⟩
      · rw [hu op id launched hop other p hp heq] at hbefore
        cases hbefore
      · have hid : p.sessionId = other := (h.launch other p hp).1
        refine he claimed hm hamb p (OrdMap.mem_values.mpr ⟨other, hp⟩) (hid ▸ hne) hon _
          (OrdMap.mem_values.mpr ⟨op, hop⟩) ?_
        rw [Op.stops, heq]
    | _ => cases hreg

/-- The server, no registration marking a terminal under an unforced stop. -/
abbrev StopRun : ServerState → Prop := Reach step Booted MarksNoStop

theorem StopRun.reachable {s : ServerState} (h : StopRun s) : Reachable s := h.mono fun _ _ _ => trivial

theorem StopRun.unmarked {s : ServerState} (h : StopRun s) : Unmarked (board s) := by
  induction h with
  | start hs =>
    obtain ⟨image, rfl⟩ := hs
    intro op id launched hop
    cases hop
  | @step s e hr hok ih =>
    have hreach : Reachable s := StopRun.reachable hr
    exact unmarked_step hreach.grounded.timers hreach.board ih hok

/-- An unforced stop whose reading settles into a close finds no pending launch of the terminal marked. -/
theorem stop_spares {s : ServerState} (h : StopRun s) {op : OpId} {id : SessionId} {launched : LaunchedSession}
    (hop : s.ops.get op = some (.stopReading id launched false)) (reading : Reading) :
    (step s (.livenessSettled op reading)).out = s.out ++ [.closeSurface launched.surface op] →
      ∀ other p, s.pendingLaunches.get other = some p → p.launched.surface = launched.surface →
        p.mayHoldLiveWorker = false := by
  intro _
  exact h.unmarked op id launched hop

/-- Two launches in one directory, the second stopped. -/
def twinStopped : List Event :=
  [.launchSession ⟨js "/w", .default, none, none⟩ false, .launchOpened 0 true "",
    .launchSession ⟨js "/w", .default, none, none⟩ false, .launchOpened 3 true "", .stopSession 4 false]

theorem stop_spares_twin :
    let s := runFrom step freshServer twinStopped
    (step s (.livenessSettled 6 aliveServerOwned)).out = s.out ++ [.closeSurface 3 6] ∧
      ∀ other p, s.pendingLaunches.get other = some p → p.launched.surface = 3 → p.mayHoldLiveWorker = false := by
  have hrun : StopRun (runFrom step freshServer twinStopped) :=
    (Reach.start freshServer_booted).run_allowed (by decide)
  have hop : (runFrom step freshServer twinStopped).ops.get 6 = some (.stopReading 4 ⟨3, true, ""⟩ false) := by decide
  exact ⟨rfl, stop_spares hrun hop aliveServerOwned rfl⟩

/-- A worker registers from one of the two terminals while the stop's reading is awaited: the other is marked, and
    closed. -/
theorem stop_closes_marked :
    let s := runFrom step freshServer (twinStopped ++ [.sessionCreate (some 3) (js "/w") .default])
    (s.pendingLaunches.get 4).map (fun p => (p.launched.surface, p.mayHoldLiveWorker)) = some (3, true) ∧
      s.ops.get 6 = some (.stopReading 4 ⟨3, true, ""⟩ false) ∧
      (step s (.livenessSettled 6 aliveServerOwned)).out = s.out ++ [.closeSurface 3 6] :=
  ⟨by decide, by decide, rfl⟩

/-! ## Claims -/

/-- The launches that share their pair with another pending one. -/
def sharing (pendings : OrdMap SessionId PendingLaunch) : List SessionId :=
  (pendings.entries.filter fun e => pendings.entries.any fun other =>
    other.1 ≠ e.1 && other.2.onPair e.2.cwd e.2.permissionMode).map Prod.fst

theorem mem_sharing {pendings : OrdMap SessionId PendingLaunch} {id : SessionId} : id ∈ sharing pendings ↔
    ∃ p other q, pendings.get id = some p ∧ pendings.get other = some q ∧ id ≠ other ∧
      q.onPair p.cwd p.permissionMode = true := by
  simp only [sharing, List.mem_map, List.mem_filter, List.any_eq_true, Bool.and_eq_true, decide_eq_true_eq,
    Prod.exists, OrdMap.get_eq_some]
  constructor
  · intro hex
    obtain ⟨_, p, ⟨hp, other, q, hq, hne, hon⟩, rfl⟩ := hex
    exact ⟨p, other, q, hp, hq, Ne.symm hne, hon⟩
  · intro hex
    obtain ⟨p, other, q, hp, hq, hne, hon⟩ := hex
    exact ⟨id, p, ⟨hp, other, q, hq, Ne.symm hne, hon⟩, rfl⟩

/-- The launches that ever shared their pair while they were pending. -/
def sharedWatch (s : ServerState) (e : Event) (shared : List SessionId) : List SessionId :=
  shared ++ sharing (step s e).pendingLaunches

/-- A launch that shared its pair is marked as long as it is pending. -/
structure Shared (b : Board) (shared : List SessionId) : Prop where
  known : ∀ id ∈ shared, id < b.next
  marked : ∀ id p, b.pendings.get id = some p → id ∈ shared → p.ambiguous = true

theorem Shared.step {b b' : Board} {shared : List SessionId} (h : Shared b shared) (hok : b'.Ok)
    (hnext : b.next ≤ b'.next) (hfrom : ∀ id p', b'.pendings.get id = some p' →
      (∃ p, b.pendings.get id = some p ∧ p.Kept p') ∨ id = b.next) : Shared b' (shared ++ sharing b'.pendings) where
  known id hid := by
    rcases List.mem_append.mp hid with hid | hid
    · exact (h.known id hid).trans_le hnext
    · obtain ⟨p, _, _, hp, -⟩ := mem_sharing.mp hid
      exact (hok.pending id p hp).1
  marked id p' hp' hid := by
    rcases List.mem_append.mp hid with hid | hid
    · rcases hfrom id p' hp' with ⟨p, hp, hkept⟩ | heq
      · exact hkept.ambiguous (h.marked id p hp hid)
      · exact absurd heq (Nat.ne_of_lt (h.known id hid))
    · obtain ⟨p, other, q, hp, hq, hne, hon⟩ := mem_sharing.mp hid
      obtain rfl : p = p' := Option.some.inj (hp.symm.trans hp')
      exact hok.ambiguous id other p q hne hp hq hon

/-- The server watched for the launches that ever shared their pair. -/
abbrev SharedRun : ServerState × List SessionId → Prop :=
  Reach (watched step sharedWatch) (fun p => Booted p.1 ∧ p.2 = []) anyEvent

theorem SharedRun.reachable {p : ServerState × List SessionId} (h : SharedRun p) : Reachable p.1 :=
  h.machine (fun _ hp => hp.1) fun _ _ _ => trivial

theorem SharedRun.shared {p : ServerState × List SessionId} (h : SharedRun p) : Shared (board p.1) p.2 := by
  induction h with
  | start hp =>
    obtain ⟨-, hnone⟩ := hp
    rw [hnone]
    exact ⟨fun _ hid => (by cases hid), fun _ _ _ hid => (by cases hid)⟩
  | @step p e hr _ ih =>
    have hreach : Reachable p.1 := SharedRun.reachable hr
    have htimers := hreach.grounded.timers
    refine ih.step (board_ok_step htimers hreach.board e) (next_le_step p.1 e) fun id p' hp' => ?_
    cases hreg : e.registers with
    | false =>
      rcases (board_step htimers hreg).pending_from hp' with ⟨q, hq, hkept, -⟩ | ⟨hid, -⟩
      · exact Or.inl ⟨q, hq, hkept⟩
      · exact Or.inr hid
    | true =>
      cases e with
      | sessionCreate terminal cwd mode =>
        have hcreate := board_create p.1 terminal cwd mode
        change (board (Server.step p.1 (.sessionCreate terminal cwd mode))).pendings.get id = some p' at hp'
        rw [hcreate] at hp'
        obtain ⟨q, hq, hkept, -⟩ := Board.register_from hp'
        exact Or.inl ⟨q, hq, hkept⟩
      | _ => cases hreg

/-- What a claim answers: the registering worker's own launch, which never shared its pair, or nothing. -/
def ClaimsOwn (s : ServerState) (shared : List SessionId) (terminal : Option SurfaceId) (cwd : Path)
    (mode : PermissionMode) : Prop :=
  ∀ id, (claimPendingLaunch s cwd mode).2 = some id →
    (∃ p, s.pendingLaunches.get id = some p ∧ terminal = some p.launched.surface) ∧ id ∉ shared

/-- The worker's own launch is pending on the pair it reports, or no unambiguous launch is. -/
def OwnPending (s : ServerState) (terminal : Option SurfaceId) (cwd : Path) (mode : PermissionMode) : Prop :=
  (∃ p ∈ s.pendingLaunches.values, terminal = some p.launched.surface ∧
    p.onPair (canonicalCwd s.fs cwd) mode = true) ∨
  ∀ p ∈ s.pendingLaunches.values, p.onPair (canonicalCwd s.fs cwd) mode = true → p.ambiguous = true

/-- For a registration that reports an absolute directory. -/
theorem claim_own_iff {p : ServerState × List SessionId} (h : SharedRun p) (terminal : Option SurfaceId) {cwd : Path}
    (mode : PermissionMode) (habs : isAbsolute cwd = true) :
    ClaimsOwn p.1 p.2 terminal cwd mode ↔ OwnPending p.1 terminal cwd mode := by
  have hreach := h.reachable
  have hok := hreach.board
  have hshared := h.shared
  unfold ClaimsOwn
  rw [claimPendingLaunch_eq]
  cases hm : matched p.1 cwd mode with
  | none =>
    refine iff_of_true (fun id hid => by cases hid) (Or.inr fun q hq hon => ?_)
    obtain ⟨id, hid⟩ := OrdMap.mem_values.mp hq
    rw [matched, if_pos habs, oldestPendingLaunch] at hm
    rw [OrdMap.first_eq_none hm hid] at hon
    cases hon
  | some claimed =>
    obtain ⟨hget, hon⟩ := matched_spec hreach.grounded.timers hm
    rw [PendingLaunch.onPair_iff] at hon
    -- two launches on the pair are both marked
    have hpair : ∀ id q, p.1.pendingLaunches.get id = some q → q.onPair (canonicalCwd p.1.fs cwd) mode = true →
        id ≠ claimed.sessionId → claimed.ambiguous = true ∧ q.ambiguous = true := by
      intro id q hq hq' hne
      rw [PendingLaunch.onPair_iff] at hq'
      constructor
      · refine hok.ambiguous claimed.sessionId id claimed q (Ne.symm hne) hget hq ?_
        exact PendingLaunch.onPair_iff.mpr ⟨hq'.1.trans hon.1.symm, hq'.2.trans hon.2.symm⟩
      · refine hok.ambiguous id claimed.sessionId q claimed hne hq hget ?_
        exact PendingLaunch.onPair_iff.mpr ⟨hon.1.trans hq'.1.symm, hon.2.trans hq'.2.symm⟩
    by_cases hamb : claimed.ambiguous = true
    · simp only [hamb, if_true]
      refine iff_of_true (fun id hid => by cases hid) (Or.inr fun q hq hq' => ?_)
      obtain ⟨id, hid⟩ := OrdMap.mem_values.mp hq
      by_cases heq : id = claimed.sessionId
      · rw [heq, hget, Option.some.injEq] at hid
        rwa [← hid]
      · exact (hpair id q hid hq' heq).2
    · simp only [if_neg hamb, Option.some.injEq, forall_eq']
      constructor
      · intro hex
        obtain ⟨⟨q, hq, hterminal⟩, -⟩ := hex
        rw [hget, Option.some.injEq] at hq
        subst hq
        exact Or.inl ⟨claimed, OrdMap.mem_values.mpr ⟨_, hget⟩, hterminal, PendingLaunch.onPair_iff.mpr hon⟩
      · intro hex
        rcases hex with ⟨q, hq, hterminal, hq'⟩ | hall
        · obtain ⟨id, hid⟩ := OrdMap.mem_values.mp hq
          obtain rfl : id = claimed.sessionId := by
            by_contra hne
            exact hamb (hpair id q hid hq' hne).1
          exact ⟨⟨q, hid, hterminal⟩, fun hin => hamb (hshared.marked _ claimed hget hin)⟩
        · exact absurd (hall claimed (OrdMap.mem_values.mpr ⟨_, hget⟩) (PendingLaunch.onPair_iff.mpr hon)) hamb

/-- Two launches in one directory, one after the other: the first not registered in time, and left running since its
    host did not answer. -/
def leftRunning : ServerState × List SessionId :=
  runFrom (watched step sharedWatch) (freshServer, [])
    (timedOut ++ [.livenessSettled 3 (.answered (js "host-unreachable")),
    .launchSession ⟨js "/w", .default, none, none⟩ false, .launchOpened 4 true ""])

theorem leftRunning_run : SharedRun leftRunning :=
  (Reach.start ⟨freshServer_booted, rfl⟩).run

instance (s : ServerState) (terminal : Option SurfaceId) (cwd : Path) (mode : PermissionMode) :
    Decidable (OwnPending s terminal cwd mode) := by
  unfold OwnPending
  infer_instance

theorem claim_own_iff_second : isAbsolute (js "/w") = true ∧
    (ClaimsOwn leftRunning.1 leftRunning.2 (some 4) (js "/w") .default ↔
      OwnPending leftRunning.1 (some 4) (js "/w") .default) ∧ OwnPending leftRunning.1 (some 4) (js "/w") .default :=
  ⟨by decide, claim_own_iff leftRunning_run (some 4) .default (by decide), by decide⟩

/-- The first launch's worker registers late, in the directory it was launched in, and is given the second's id. -/
theorem claim_crosses : (claimPendingLaunch leftRunning.1 (js "/w") .default).2 = some 5 ∧
    (leftRunning.1.pendingLaunches.get 5).map (·.launched.surface) = some 4 ∧
    (leftRunning.1.launchedSurfaces.get 5).map (·.surface) = some 4 ∧
    ¬ ClaimsOwn leftRunning.1 leftRunning.2 (some 0) (js "/w") .default := by
  refine ⟨by decide, by decide, by decide, ?_⟩
  intro h
  obtain ⟨⟨p, hp, hterminal⟩, -⟩ := h 5 (by decide)
  have hsurface : (leftRunning.1.pendingLaunches.get 5).map (·.launched.surface) = some 4 := by decide
  rw [hp, Option.map_some, Option.some.injEq] at hsurface
  rw [hsurface] at hterminal
  cases hterminal

end Ccctl.Server
