import Ccctl.Server.SessionWatch
/-
  Ccctl.Server.Attentions — how often a browser is alerted.

  Two histories of one session. `Nudges` counts the idle attentions of the present idle stretch: a
  stretch ends when the session leaves idle, a turn or a steer goes down the stream, or a worker
  registers. `Stretch` is the present stretch of `requires_action` under one epoch: how it was
  opened, and how many needs-input attentions it has raised.
-/

namespace Ccctl.Server

open Ccctl.Core Ccctl.Lib

/-- The attentions between two states of one session. -/
def raisedSince (c c' : Chan) : List Attention := c'.raised.drop c.raised.length

theorem raisedSince_step (c : Chan) (act : Act) : raisedSince c (c.step act) = c.raises act := by
  rw [raisedSince, Chan.step_raised, List.drop_left]

/-! ## Idle nudges -/

def Chan.isIdle (c : Chan) : Bool :=
  match c.row with
  | none => false
  | some row => row.activity = .idle

/-- The acts that start the idle stretch over. -/
def Act.restarts : Act → Bool
  | .created _ | .placed _ | .claimed _ | .registered | .answered _ | .steered => true
  | _ => false

namespace Nudges

/-- The nudges of the present idle stretch. -/
def see (c : Chan) (act : Act) (c' : Chan) (n : Nat) : Nat :=
  (if c.isIdle && c'.isIdle && !act.restarts then n else 0) + (raisedSince c c').countP Attention.isIdle

/-- No idle report is applied to a session that is idle and was nudged for it already. -/
def Settled (c : Chan) (act : Act) (n : Nat) : Prop :=
  ∀ r ∈ act.asReport, ∀ link ∈ c.link, c.isIdle = true → r.status = .idle → r.refused link = false → n = 0

instance (c : Chan) (act : Act) (n : Nat) : Decidable (Settled c act n) := by
  unfold Settled
  infer_instance

/-- The nudge is owed or was given, never both. -/
structure Inv (c : Chan) (n : Nat) : Prop where
  once : n ≤ 1
  owed : ∀ link, c.link = some link → link.idleArmed = true → n = 0

theorem alert_not_idle (r : Report) (row : Session) : (r.alert row).countP Attention.isIdle = 0 := by
  unfold Report.alert
  split
  · rfl
  · split
    · split <;> rfl
    · rfl

theorem idleAlert_count (row : Option Session) (now graceMs thresholdMs : Nat) :
    (idleAlert row now graceMs thresholdMs).countP Attention.isIdle ≤ 1 := by
  unfold idleAlert
  split
  · exact Nat.zero_le _
  · split
    · exact Nat.zero_le _
    · split
      · exact Nat.zero_le _
      · exact Nat.le_refl _

/-- Acts that neither arm the timer nor raise anything. -/
theorem Inv.quiet {c : Chan} {act : Act} {n : Nat} (h : Inv c n) (hr : c.raises act = [])
    (harm : ∀ link', (c.step act).link = some link' → link'.idleArmed = true →
      ∃ link, c.link = some link ∧ link.idleArmed = true) : Inv (c.step act) (see c act (c.step act) n) := by
  have hle : see c act (c.step act) n ≤ n := by
    unfold see
    rw [raisedSince_step, hr]
    split
    · exact Nat.le_refl _
    · exact Nat.zero_le _
  refine ⟨hle.trans h.once, ?_⟩
  intro link' hl' ha'
  obtain ⟨link, hl, ha⟩ := harm link' hl' ha'
  have hzero := h.owed link hl ha
  omega

theorem Inv.zero (c : Chan) : Inv c 0 := ⟨Nat.zero_le _, fun _ _ _ => rfl⟩

/-- A report that is let through ends the count: an idle one leaves the timer armed, so it must find
    nothing nudged. -/
theorem see_reported {c : Chan} {r : Report} {n : Nat} {row : Session} {link : Link} (hs : Settled c (.report r) n)
    (hrow : c.row = some row) (hlink : c.link = some link) (href : r.refused link = false) :
    see c (.report r) (c.step (.report r)) n = 0 := by
  have hcount : see c (.report r) (c.step (.report r)) n =
      if c.isIdle && (c.step (.report r)).isIdle then n else 0 := by
    unfold see
    rw [raisedSince_step, Chan.raises_reported hrow hlink href]
    simp [alert_not_idle, Act.restarts]
  have hidle : (c.step (.report r)).isIdle = decide (r.status = .idle) := by
    rw [Chan.step_reported hrow hlink href]
    simp [Chan.isIdle, Chan.reported, Report.row, applyWorkerStatus_idle]
  rw [hcount, hidle]
  by_cases hi : c.isIdle = true
  · by_cases hst : r.status = .idle
    · simp [hs r rfl link hlink hi hst href]
    · simp [hst]
  · simp [hi]

theorem Inv.step {c : Chan} {act : Act} {n : Nat} (h : Inv c n) (he : act.Enabled c) (hs : Settled c act n) :
    Inv (c.step act) (see c act (c.step act) n) := by
  have hdisarm : ∀ {l : Option Link} {f : Link → Link} {link' : Link}, (∀ link, (f link).idleArmed = false) →
      l.map f = some link' → link'.idleArmed = true → False := by
    intro l f link' hf hl ha
    obtain ⟨link, -, rfl⟩ := Option.map_eq_some_iff.mp hl
    rw [hf link] at ha
    cases ha
  cases act with
  | other | created row | placed row | claimed row | dropped | beat now | asked q =>
    exact h.quiet rfl fun link' hl ha => ⟨link', hl, ha⟩
  | ended => exact h.quiet rfl fun link' hl => (by cases hl)
  | registered =>
    refine h.quiet rfl fun link' hl ha => ?_
    cases hl
    cases ha
  | streamOpened => exact h.quiet rfl fun link' hl ha => (hdisarm (fun _ => rfl) hl ha).elim
  | streamClosed =>
    refine h.quiet rfl fun link' hl ha => ?_
    obtain ⟨link, hlink, rfl⟩ := Option.map_eq_some_iff.mp hl
    exact ⟨link, hlink, ha⟩
  | answered echoed => exact h.quiet rfl fun link' hl ha => (hdisarm (fun _ => rfl) hl ha).elim
  | steered => exact h.quiet rfl fun link' hl ha => (hdisarm (fun _ => rfl) hl ha).elim
  | halted => exact h.quiet rfl fun link' hl ha => (hdisarm (fun _ => rfl) hl ha).elim
  | idleFired now graceMs thresholdMs =>
    obtain ⟨link, hl, ha⟩ := he
    have hzero := h.owed link hl ha
    refine ⟨?_, fun link' hl' ha' => (hdisarm (fun _ => rfl) hl' ha').elim⟩
    have hcount := idleAlert_count c.row now graceMs thresholdMs
    unfold see
    rw [raisedSince_step, hzero]
    simpa [Chan.raises] using hcount
  | report r =>
    cases hlink : c.link with
    | none => exact absurd hlink he.1
    | some link =>
      by_cases href : r.refused link = true
      · refine h.quiet (by simp [Chan.raises_refused hlink href]) ?_
        intro link' hl ha
        rw [Chan.step_refused hlink href] at hl
        exact ⟨link', hl, ha⟩
      · rw [Bool.not_eq_true] at href
        cases hrow : c.row with
        | none =>
          refine h.quiet (by simp [Chan.raises, hrow]) ?_
          intro link' hl ha
          exact ⟨link', by simpa [Chan.step, hrow] using hl, ha⟩
        | some row =>
          rw [see_reported hs hrow hlink href]
          exact .zero _

end Nudges

/-- An idle attention is raised in an idle session. -/
theorem raised_idle {c : Chan} {act : Act} {a : Attention} (ha : a ∈ c.raises act) (hi : a.isIdle = true) :
    ∃ row, c.row = some row ∧ row.activity = .idle := by
  cases act with
  | report r =>
    exfalso
    have halert : ∀ row, a ∈ r.alert row → False := by
      intro row hm
      have hpos := List.countP_pos_iff.mpr ⟨a, hm, hi⟩
      rw [Nudges.alert_not_idle] at hpos
      exact Nat.lt_irrefl _ hpos
    simp only [Chan.raises] at ha
    split at ha
    · split at ha
      · cases ha
      · exact halert _ ha
    · cases ha
  | idleFired now graceMs thresholdMs =>
    simp only [Chan.raises, idleAlert] at ha
    cases hrow : c.row with
    | none => simp [hrow] at ha
    | some row =>
      by_cases hidle : row.activity = .idle
      · exact ⟨row, rfl, hidle⟩
      · simp [hrow, hidle] at ha
  | _ => cases ha

/-- The server watched for the nudges of `id`, no idle report re-affirming a stretch already nudged. -/
abbrev NudgeRun (id : SessionId) : ServerState × Nat → Prop :=
  SessionRun id Nudges.see 0 fun p e => Nudges.Settled (chan p.1 id) (observe p.1 e id) p.2

theorem idle_nudge_once {id : SessionId} {p : ServerState × Nat} (h : NudgeRun id p) :
    p.2 ≤ 1 ∧ ∀ e a, a ∈ raisedSince (chan p.1 id) (chan (step p.1 e) id) → a.isIdle = true →
      ∃ row, p.1.sessions.get id = some row ∧ row.activity = .idle := by
  have hinv : Nudges.Inv (chan p.1 id) p.2 := by
    refine h.inv (I := Nudges.Inv) (fun act he hb => ?_) (fun c _ => .zero c) fun q e hok _ he _ hi => hi.step he hok
    simp [Nudges.see, Chan.isIdle, Chan.blank, raisedSince]
  refine ⟨hinv.once, ?_⟩
  intro e a ha hi
  have hg := h.reachable.grounded
  rw [chan_step hg.timers hg.ok, raisedSince_step] at ha
  exact raised_idle ha hi

/-- Idle until the threshold, alive all along. -/
def nudgedOnce : List Event :=
  [.sessionCreate none (js "/w") .default, .workerRegister 0, .workerEventsStream 0,
    .workerStatus 0 (statusBody 1 "idle" 1),
    .advance 120000, .workerHeartbeat 0, .fire 4]

theorem idle_nudge_once_nudged :
    let p := runFrom (watched step (sessionWatch 0 Nudges.see)) (freshServer, 0) nudgedOnce
    p.2 ≤ 1 ∧ ∀ e a, a ∈ raisedSince (chan p.1 0) (chan (step p.1 e) 0) → a.isIdle = true →
      ∃ row, p.1.sessions.get 0 = some row ∧ row.activity = .idle :=
  idle_nudge_once ((Reach.start ⟨freshServer_booted, rfl⟩).run_allowed (by decide))

/-- The worker says idle again after the nudge, and the one stretch is nudged twice. -/
theorem idle_nudge_twice :
    (runFrom (watched step (sessionWatch 0 Nudges.see)) (freshServer, 0)
      (nudgedOnce ++ [.workerStatus 0 (statusBody 1 "idle" 2), .advance 120000, .workerHeartbeat 0, .fire 5])).2 = 2 := by
  decide

/-! ## Needs-input -/

/-- The session is in `requires_action` under the epoch of its channel. -/
def Chan.isAwaiting (c : Chan) : Bool :=
  match c.row, c.link with
  | some row, some _ => isInputAwaited row.activity
  | _, _ => false

/-- How a stretch of `requires_action` under one epoch began. -/
inductive Opening where
  /-- By a report, from another activity; `live` at the time of the report. -/
  | moved (live : Bool)
  /-- By a registration of a session that was in it already. -/
  | carried
  deriving DecidableEq, Repr

structure Stretch where
  opening : Opening
  raised : Nat
  deriving DecidableEq, Repr

namespace Stretch

/-- Whether the report finds the session heartbeat-live. -/
def liveAt (row : Option Session) (r : Report) : Bool :=
  match row with
  | none => false
  | some row => !isSessionStale row r.now r.graceMs

def see (c : Chan) (act : Act) (c' : Chan) (stretch : Option Stretch) : Option Stretch :=
  let raised := (raisedSince c c').countP Attention.isNeedsInput
  if c'.isAwaiting then
    match act, stretch with
    | .registered, _ => some ⟨.carried, raised⟩
    | _, some stretch => some { stretch with raised := stretch.raised + raised }
    | .report r, none => some ⟨.moved (liveAt c.row r), raised⟩
    | _, none => some ⟨.carried, raised⟩
  else none

/-- The needs-input attentions owed to a stretch. -/
def owed : Opening → Nat
  | .moved true => 1
  | .moved false => 0
  | .carried => 0

structure Inv (c : Chan) (stretch : Option Stretch) : Prop where
  present : stretch.isSome = c.isAwaiting
  raised : ∀ st, stretch = some st → st.raised = owed st.opening

theorem Inv.resting {c : Chan} (h : c.Resting) : Inv c none := by
  refine ⟨?_, fun st hst => by cases hst⟩
  cases hrow : c.row <;> simp [Chan.isAwaiting, hrow, h.2.1]

/-- Acts that raise no needs-input and open no stretch. -/
theorem Inv.quiet {c : Chan} {act : Act} {stretch : Option Stretch} (h : Inv c stretch)
    (hr : (c.raises act).countP Attention.isNeedsInput = 0) (hreg : act ≠ .registered)
    (hwait : (c.step act).isAwaiting = true → c.isAwaiting = true) :
    Inv (c.step act) (see c act (c.step act) stretch) := by
  unfold see
  rw [raisedSince_step, hr]
  by_cases hw : (c.step act).isAwaiting = true
  · have hpresent := h.present
    rw [hwait hw] at hpresent
    obtain ⟨st, rfl⟩ := Option.isSome_iff_exists.mp hpresent
    simp only [hw, if_true]
    refine ⟨?_, ?_⟩
    · rw [hw]
      cases act <;> rfl
    · intro st' hst'
      have hst : st' = st := by
        cases act with
        | registered => exact absurd rfl hreg
        | _ => exact (Option.some.inj hst').symm
      rw [hst]
      exact h.raised st rfl
  · rw [Bool.not_eq_true] at hw
    simp only [hw, Bool.false_eq_true, if_false]
    exact ⟨by rw [hw]; rfl, fun st hst => by cases hst⟩

theorem idleAlert_not_needsInput (row : Option Session) (now graceMs thresholdMs : Nat) :
    (idleAlert row now graceMs thresholdMs).countP Attention.isNeedsInput = 0 := by
  unfold idleAlert
  split
  · rfl
  · split
    · rfl
    · split <;> rfl

/-- What a report that is let through raises. -/
theorem alert_count (r : Report) (row : Session) : (r.alert row).countP Attention.isNeedsInput =
    if !isInputAwaited row.activity && isInputAwaited (r.row row).activity && !isSessionStale row r.now r.graceMs
    then 1 else 0 := by
  have hstale : isSessionStale (r.row row) r.now r.graceMs = isSessionStale row r.now r.graceMs := rfl
  unfold Report.alert
  rw [hstale]
  by_cases hprev : isInputAwaited row.activity = true
  · simp [hprev]
  · rw [Bool.not_eq_true] at hprev
    simp only [hprev, Bool.false_eq_true, if_false, Bool.not_false, Bool.true_and]
    cases (r.row row).activity with
    | running => rfl
    | idle => rfl
    | requiresAction detail =>
      cases isSessionStale row r.now r.graceMs <;> rfl

theorem isAwaiting_congr {c c' : Chan} (hrow : c'.row.map (·.activity) = c.row.map (·.activity))
    (hlink : c'.link.isSome = c.link.isSome) : c'.isAwaiting = c.isAwaiting := by
  have hval : ∀ c : Chan, c.isAwaiting =
      (((c.row.map (·.activity)).map isInputAwaited).getD false && c.link.isSome) := by
    intro c
    cases hr : c.row <;> cases hl : c.link <;> simp [Chan.isAwaiting, hr, hl]
  rw [hval c', hval c, hrow, hlink]

theorem Inv.registered {c : Chan} {stretch : Option Stretch} :
    Inv (c.step .registered) (see c .registered (c.step .registered) stretch) := by
  unfold see
  rw [raisedSince_step]
  by_cases hw : (c.step .registered).isAwaiting = true
  · simp only [hw, if_true]
    refine ⟨by rw [hw]; rfl, ?_⟩
    intro st hst
    cases hst
    rfl
  · rw [Bool.not_eq_true] at hw
    simp only [hw, Bool.false_eq_true, if_false]
    exact ⟨by rw [hw]; rfl, fun st hst => by cases hst⟩

/-- A report that is let through opens a stretch, keeps it or ends it. -/
theorem Inv.reported {c : Chan} {r : Report} {row : Session} {link : Link} {stretch : Option Stretch}
    (h : Inv c stretch) (hrow : c.row = some row) (hlink : c.link = some link) (href : r.refused link = false) :
    Inv (c.step (.report r)) (see c (.report r) (c.step (.report r)) stretch) := by
  have hstep := Chan.step_reported hrow hlink href
  have hnow : (c.step (.report r)).isAwaiting = isInputAwaited (r.row row).activity := by
    rw [hstep]
    rfl
  have hbefore : c.isAwaiting = isInputAwaited row.activity := by simp [Chan.isAwaiting, hrow, hlink]
  have hcount : (c.raises (.report r)).countP Attention.isNeedsInput =
      if !isInputAwaited row.activity && isInputAwaited (r.row row).activity && !isSessionStale row r.now r.graceMs
      then 1 else 0 := by
    rw [← alert_count, Chan.raises_reported hrow hlink href]
  have hpresent := h.present
  unfold see
  rw [raisedSince_step, hcount, hnow]
  by_cases hw : isInputAwaited (r.row row).activity = true
  · simp only [hw, if_true]
    cases stretch with
    | some st =>
      -- a re-affirmation
      have hprev : isInputAwaited row.activity = true := by
        rw [← hbefore, ← hpresent]
        rfl
      refine ⟨by rw [hnow, hw]; rfl, ?_⟩
      intro st' hst'
      cases hst'
      simpa [hprev] using h.raised st rfl
    | none =>
      have hprev : isInputAwaited row.activity = false := by
        rw [← hbefore, ← hpresent]
        rfl
      refine ⟨by rw [hnow, hw]; rfl, ?_⟩
      intro st' hst'
      cases hst'
      simp only [hrow, liveAt, hprev, Bool.not_false, Bool.true_and]
      cases isSessionStale row r.now r.graceMs <;> rfl
  · rw [Bool.not_eq_true] at hw
    simp only [hw, Bool.false_eq_true, if_false]
    exact ⟨by rw [hnow, hw]; rfl, fun st hst => by cases hst⟩

theorem Inv.step {c : Chan} {act : Act} {stretch : Option Stretch} (h : Inv c stretch) (he : act.Enabled c)
    (hb : act.births = true → c = .blank) (hok : c.Ok true) : Inv (c.step act) (see c act (c.step act) stretch) := by
  have hsame : ∀ {c' : Chan}, c'.row.map (·.activity) = c.row.map (·.activity) → c'.link.isSome = c.link.isSome →
      c'.isAwaiting = true → c.isAwaiting = true := by
    intro c' hrow hlink hw
    rwa [isAwaiting_congr hrow hlink] at hw
  have hoff : ∀ {c' : Chan}, c'.link = none → c'.isAwaiting = true → c.isAwaiting = true := by
    intro c' hlink hw
    cases hr : c'.row <;> simp [Chan.isAwaiting, hr, hlink] at hw
  cases act with
  | other => exact h.quiet rfl (by simp) id
  | created row =>
    have hl : c.link = none := by rw [hb rfl]; rfl
    exact h.quiet rfl (by simp) (hoff hl)
  | placed row =>
    have hl : c.link = none := by rw [hb rfl]; rfl
    exact h.quiet rfl (by simp) (hoff hl)
  | claimed row => exact h.quiet rfl (by simp) (hoff (hok.no_link he.1))
  | dropped => exact h.quiet rfl (by simp) (hoff (hok.no_link he))
  | ended => exact h.quiet rfl (by simp) (hoff rfl)
  | registered => exact .registered
  | streamOpened =>
    exact h.quiet rfl (by simp) (hsame (by cases hr : c.row <;> simp [Chan.step, hr]) (by simp [Chan.step]))
  | streamClosed => exact h.quiet rfl (by simp) (hsame rfl (by simp [Chan.step, Chan.mapLink]))
  | beat now =>
    exact h.quiet rfl (by simp) (hsame (by cases hr : c.row <;> simp [Chan.step, hr, recordHeartbeat]) rfl)
  | asked q => exact h.quiet rfl (by simp) (hsame rfl rfl)
  | answered echoed => exact h.quiet rfl (by simp) (hsame rfl (by simp [Chan.step, Chan.mapLink]))
  | steered => exact h.quiet rfl (by simp) (hsame rfl (by simp [Chan.step, Chan.mapLink]))
  | idleFired now graceMs thresholdMs =>
    exact h.quiet (idleAlert_not_needsInput _ _ _ _) (by simp) (hsame rfl (by simp [Chan.step, Chan.mapLink]))
  | halted => exact h.quiet rfl (by simp) (hsame rfl (by simp [Chan.step, Chan.mapLink]))
  | report r =>
    cases hlink : c.link with
    | none => exact absurd hlink he.1
    | some link =>
      obtain ⟨row, hrow, -⟩ := hok.linked (by simp [hlink])
      by_cases href : r.refused link = true
      · refine h.quiet (by simp [Chan.raises_refused hlink href]) (by simp) ?_
        rw [Chan.step_refused hlink href]
        exact id
      · rw [Bool.not_eq_true] at href
        exact h.reported hrow hlink href

end Stretch

/-- A needs-input attention is raised by a report that moves the session into `requires_action`. -/
theorem raised_needsInput {c : Chan} {act : Act} {a : Attention} (ha : a ∈ c.raises act)
    (hn : a.isNeedsInput = true) : c.isAwaiting = false ∧ (c.step act).isAwaiting = true := by
  have hpos : 0 < (c.raises act).countP Attention.isNeedsInput := List.countP_pos_iff.mpr ⟨a, ha, hn⟩
  cases act with
  | report r =>
    simp only [Chan.raises] at hpos
    split at hpos
    · rename_i row link hrow hlink
      split at hpos
      · exact absurd hpos (Nat.lt_irrefl _)
      · rename_i href
        rw [Bool.not_eq_true] at href
        rw [Stretch.alert_count] at hpos
        split at hpos
        · rename_i hmoved
          simp only [Bool.and_eq_true, Bool.not_eq_true'] at hmoved
          refine ⟨by simp [Chan.isAwaiting, hrow, hlink, hmoved.1.1], ?_⟩
          rw [Chan.step_reported hrow hlink href]
          simp [Chan.isAwaiting, Chan.reported, hmoved.1.2]
        · exact absurd hpos (Nat.lt_irrefl _)
    · exact absurd hpos (Nat.lt_irrefl _)
  | idleFired now graceMs thresholdMs =>
    have hzero := Stretch.idleAlert_not_needsInput c.row now graceMs thresholdMs
    exact absurd hzero (Nat.ne_of_gt hpos)
  | _ => exact absurd hpos (Nat.lt_irrefl _)

/-- The server watched for the stretches of `id`. -/
abbrev StretchRun (id : SessionId) : ServerState × Option Stretch → Prop :=
  SessionRun id Stretch.see none anyEvent

/-- A stretch opened by a report from another activity has raised one needs-input attention if the
    session was heartbeat-live then, and none if it was not; one carried over by a registration has
    raised none; and none is raised but by a report that opens a stretch. -/
theorem needs_input_per_stretch {id : SessionId} {p : ServerState × Option Stretch} (h : StretchRun id p) :
    p.2.isSome = (chan p.1 id).isAwaiting ∧ (∀ st, p.2 = some st → st.raised = Stretch.owed st.opening) ∧
      ∀ e a, a ∈ raisedSince (chan p.1 id) (chan (step p.1 e) id) → a.isNeedsInput = true →
        p.2 = none ∧ (chan (step p.1 e) id).isAwaiting = true := by
  have hinv : Stretch.Inv (chan p.1 id) p.2 := by
    refine h.inv (I := Stretch.Inv) (fun act he hb => ?_) (fun c hc => .resting hc)
      fun q e _ hborn he hok hi => hi.step he (fun hb => (hborn hb).1) hok
    rfl
  refine ⟨hinv.present, hinv.raised, ?_⟩
  intro e a ha hn
  have hg := h.reachable.grounded
  rw [chan_step hg.timers hg.ok] at ha ⊢
  rw [raisedSince_step] at ha
  obtain ⟨hbefore, hafter⟩ := raised_needsInput ha hn
  have hnone := hinv.present
  rw [hbefore, Option.isSome_eq_false_iff, Option.isNone_iff_eq_none] at hnone
  exact ⟨hnone, hafter⟩

/-- A live worker blocks. -/
def blocked : List Event :=
  [.sessionCreate none (js "/w") .default, .workerRegister 0,
    .workerStatus 0 (statusBody 1 "requires_action" 1)]

theorem needs_input_per_stretch_blocked :
    let p := runFrom (watched step (sessionWatch 0 Stretch.see)) (freshServer, none) blocked
    p.2 = some ⟨.moved true, 1⟩ ∧ p.2.isSome = (chan p.1 0).isAwaiting ∧
      (∀ st, p.2 = some st → st.raised = Stretch.owed st.opening) ∧
      ∀ e a, a ∈ raisedSince (chan p.1 0) (chan (step p.1 e) 0) → a.isNeedsInput = true →
        p.2 = none ∧ (chan (step p.1 e) 0).isAwaiting = true :=
  ⟨by decide, needs_input_per_stretch ((Reach.start ⟨freshServer_booted, rfl⟩).run)⟩

/-- A session in `requires_action` under the epoch `epoch`, heartbeat-live. -/
def AwaitingLive (s : ServerState) (id : SessionId) (epoch : Nat) : Prop :=
  (chan s id).isAwaiting = true ∧ ((chan s id).link.map (·.epoch)) = some epoch ∧
    ((chan s id).row.map fun row => isSessionStale row s.now s.config.sessionEvictionGraceMs) = some false

instance (s : ServerState) (id : SessionId) (epoch : Nat) : Decidable (AwaitingLive s id epoch) := by
  unfold AwaitingLive
  infer_instance

/-- A worker whose heartbeat had lapsed blocks, beats again and re-affirms the block. -/
def blockedLate : List Event :=
  [.sessionCreate none (js "/w") .default, .workerRegister 0, .advance 30001,
    .workerStatus 0 (statusBody 1 "requires_action" 1), .workerHeartbeat 0,
    .workerStatus 0 (statusBody 1 "requires_action" 2)]

/-- A worker registers over the block of the one before, and blocks. -/
def blockedAgain : List Event :=
  blocked ++ [.workerRegister 0, .workerStatus 0 (statusBody 2 "requires_action" 1)]

/-- Either way the session is live when a frame of its stretch is applied, and no needs-input is raised. -/
theorem needs_input_missed :
    AwaitingLive (runFrom step freshServer blockedLate) 0 1 ∧
      (chan (runFrom step freshServer blockedLate) 0).raised = [] ∧
      AwaitingLive (runFrom step freshServer blockedAgain) 0 2 ∧
      (runFrom (watched step (sessionWatch 0 Stretch.see)) (freshServer, none) blockedAgain).2 =
        some ⟨.carried, 0⟩ := by
  decide

end Ccctl.Server
