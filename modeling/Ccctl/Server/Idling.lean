import Ccctl.Server.Clocked
import Ccctl.Server.SessionWatch
import Ccctl.Server.Wire
/-
  Ccctl.Server.Idling — the idle check of a session, over whole runs.

  The first idle report that a worker's channel applies arms the check, and the ones after it leave
  it running. `IdleStretch` is the session's history since that report: what was relayed, whether
  the check fired, whether a downstream was opened. While nothing of this happened, the check is
  armed, and due that first report's time and the delay `setTimeout` keeps of the threshold
  (`idle_check_armed`); the close of a downstream does not touch it.

  Opening a downstream on the record does: `endDownstream` clears the record's timers, the idle
  check among them, and only the next idle report arms it anew (`idle_check_reopened`).
-/

namespace Ccctl.Server

open Ccctl.Core Ccctl.Lib ServerState

/-! ## The stretch -/

structure IdleStretch where
  /-- When the worker's first idle report was applied. -/
  entered : Nat
  /-- A turn or a command was relayed since. -/
  injected : Bool
  /-- The idle check fired since. -/
  fired : Bool
  /-- A downstream was opened since. -/
  reopened : Bool
  deriving DecidableEq, Repr

def IdleStretch.undisturbed (stretch : IdleStretch) : Bool :=
  !stretch.injected && !stretch.fired && !stretch.reopened

/-- An idle report opens a stretch; another status, a registration and the session's end close it. -/
def IdleStretch.see (c : Chan) (act : Act) (_ : Chan) (stretch : Option IdleStretch) : Option IdleStretch :=
  match act with
  | .report r =>
    match c.row, c.link with
    | some row, some link =>
      if r.refused link then stretch
      else if (r.row row).activity = .idle then stretch.or (some ⟨r.now, false, false, false⟩)
      else none
    | _, _ => stretch
  | .registered | .ended | .halted => none
  | .answered _ | .steered => stretch.map fun stretch => { stretch with injected := true }
  | .idleFired _ _ _ => stretch.map fun stretch => { stretch with fired := true }
  | .streamOpened => stretch.map fun stretch => { stretch with reopened := true }
  | _ => stretch

/-- The server watched for the idle stretch of `id`. -/
abbrev IdleRun (id : SessionId) : ServerState × Option IdleStretch → Prop :=
  SessionRun id IdleStretch.see none anyEvent

/-- What a stretch says of the session's channel. -/
structure IdleStretch.Ok (c : Chan) (stretch : Option IdleStretch) : Prop where
  idle : stretch ≠ none → ∃ row, c.row = some row ∧ row.activity = .idle
  linked : stretch ≠ none → c.link ≠ none
  armed : ∀ st, stretch = some st → st.undisturbed = true → ∀ link, c.link = some link → link.idleArmed = true
  away : stretch = none → ∀ link, c.link = some link → link.idleArmed = false

namespace IdleStretch.Ok

variable {c : Chan} {stretch : Option IdleStretch}

/-- Between stretches, on a channel whose check is not armed. -/
theorem none_of {c' : Chan} (h : ∀ link, c'.link = some link → link.idleArmed = false) : IdleStretch.Ok c' none :=
  ⟨fun hne => absurd rfl hne, fun hne => absurd rfl hne, fun _ hst => (by cases hst), fun _ => h⟩

/-- The check was disarmed, and the stretch says so. -/
theorem disturb (h : IdleStretch.Ok c stretch) {c' : Chan} {f : IdleStretch → IdleStretch} {g : Link → Link}
    (hrow : ∀ row, c.row = some row → ∃ row', c'.row = some row' ∧ row'.activity = row.activity)
    (hlink : c'.link = c.link.map g) (hf : ∀ st, (f st).undisturbed = false) (hg : ∀ link, (g link).idleArmed = false) :
    IdleStretch.Ok c' (stretch.map f) := by
  have hoff : ∀ link', c'.link = some link' → link'.idleArmed = false := by
    intro link' hl
    rw [hlink] at hl
    obtain ⟨link, -, rfl⟩ := Option.map_eq_some_iff.mp hl
    exact hg link
  cases stretch with
  | none => exact none_of hoff
  | some st =>
    obtain ⟨row, hr, hidle⟩ := h.idle (Option.some_ne_none st)
    obtain ⟨row', hr', hact⟩ := hrow row hr
    refine ⟨fun _ => ⟨row', hr', hact.trans hidle⟩, fun _ => ?_, ?_, fun hnone => by cases hnone⟩
    · rw [hlink]
      simpa using h.linked (Option.some_ne_none st)
    · intro st' hst hun
      cases hst
      cases (hf st).symm.trans hun

/-- An act that keeps the session's activity and its check. -/
theorem keep (h : IdleStretch.Ok c stretch) {c' : Chan}
    (hrow : ∀ row, c.row = some row → ∃ row', c'.row = some row' ∧ row'.activity = row.activity)
    (hlink : ∀ link', c'.link = some link' → ∃ link, c.link = some link ∧ link'.idleArmed = link.idleArmed)
    (hlinked : c.link ≠ none → c'.link ≠ none) : IdleStretch.Ok c' stretch := by
  refine ⟨?_, fun hne => hlinked (h.linked hne), ?_, ?_⟩
  · intro hne
    obtain ⟨row, hr, hidle⟩ := h.idle hne
    obtain ⟨row', hr', hact⟩ := hrow row hr
    exact ⟨row', hr', hact.trans hidle⟩
  · intro st hst hun link' hl
    obtain ⟨link, hl₀, heq⟩ := hlink link' hl
    rw [heq]
    exact h.armed st hst hun link hl₀
  · intro hnone link' hl
    obtain ⟨link, hl₀, heq⟩ := hlink link' hl
    rw [heq]
    exact h.away hnone link hl₀

theorem report (h : IdleStretch.Ok c stretch) (r : Report) :
    IdleStretch.Ok (c.step (.report r)) (IdleStretch.see c (.report r) (c.step (.report r)) stretch) := by
  have hsame : c.step (.report r) = c → IdleStretch.see c (.report r) (c.step (.report r)) stretch = stretch →
      IdleStretch.Ok (c.step (.report r)) (IdleStretch.see c (.report r) (c.step (.report r)) stretch) := by
    intro hc hst
    rw [hst, hc]
    exact h
  cases hrow : c.row with
  | none => exact hsame (by simp [Chan.step, hrow]) (by simp [IdleStretch.see, hrow])
  | some row =>
    cases hlink : c.link with
    | none => exact hsame (by simp [Chan.step, hrow, hlink]) (by simp [IdleStretch.see, hrow, hlink])
    | some link =>
      by_cases href : r.refused link = true
      · exact hsame (Chan.step_refused hlink href) (by simp [IdleStretch.see, hrow, hlink, href])
      · rw [Bool.not_eq_true] at href
        rw [Chan.step_reported hrow hlink href]
        by_cases hidle : (r.row row).activity = .idle
        · have hsee : IdleStretch.see c (.report r) (c.reported row link r) stretch =
              stretch.or (some ⟨r.now, false, false, false⟩) := by
            simp [IdleStretch.see, hrow, hlink, href, hidle]
          rw [hsee]
          refine ⟨fun _ => ⟨r.row row, rfl, hidle⟩, fun _ => by simp [Chan.reported], ?_, ?_⟩
          · intro st _ _ link' hl
            cases hl
            exact decide_eq_true hidle
          · intro hnone
            cases stretch <;> cases hnone
        · have hsee : IdleStretch.see c (.report r) (c.reported row link r) stretch = none := by
            simp [IdleStretch.see, hrow, hlink, href, hidle]
          rw [hsee]
          refine none_of ?_
          intro link' hl
          cases hl
          exact decide_eq_false hidle

theorem step (h : IdleStretch.Ok c stretch) {act : Act} (he : act.Enabled c) (hok : c.Ok true)
    (hb : act.births = true → stretch = none ∧ c.link = none) :
    IdleStretch.Ok (c.step act) (IdleStretch.see c act (c.step act) stretch) := by
  have hrows : ∀ row, c.row = some row → ∃ row', c.row = some row' ∧ row'.activity = row.activity :=
    fun row hr => ⟨row, hr, rfl⟩
  -- without a channel there is no stretch
  have hunlinked : c.link = none → stretch = none := by
    intro hl
    by_contra hne
    exact h.linked hne hl
  cases act with
  | report r => exact h.report r
  | other | asked q => exact h.keep hrows (fun link hl => ⟨link, hl, rfl⟩) id
  | beat now =>
    refine h.keep (fun row hr => ⟨recordHeartbeat row now, by simp [Chan.step, hr], rfl⟩)
      (fun link hl => ⟨link, hl, rfl⟩) id
  | streamClosed =>
    refine h.keep hrows (fun link' hl => ?_) fun hne => by simpa [Chan.step, Chan.mapLink] using hne
    obtain ⟨link, hl₀, rfl⟩ := Option.map_eq_some_iff.mp hl
    exact ⟨link, hl₀, rfl⟩
  | created row | placed row =>
    obtain ⟨hst, hl⟩ := hb rfl
    subst hst
    exact none_of fun link hl' => by cases hl.symm.trans hl'
  | claimed row =>
    have hl := hok.no_link he.1
    have hst := hunlinked hl
    subst hst
    exact none_of fun link hl' => by cases hl.symm.trans hl'
  | dropped =>
    have hl := hok.no_link he
    have hst := hunlinked hl
    subst hst
    exact none_of fun link hl' => by cases hl.symm.trans hl'
  | ended => exact none_of fun link hl => by cases hl
  | registered =>
    refine none_of fun link hl => ?_
    cases hl
    rfl
  | halted =>
    refine none_of fun link' hl => ?_
    obtain ⟨link, -, rfl⟩ := Option.map_eq_some_iff.mp hl
    rfl
  | streamOpened =>
    refine h.disturb (g := fun link => { link with connected := true, idleArmed := false }) (fun row hr => ?_) rfl
      (fun st => by simp [IdleStretch.undisturbed]) fun _ => rfl
    exact ⟨markSessionReady row, by simp [Chan.step, hr], markSessionReady_activity row⟩
  | answered echoed =>
    exact h.disturb (g := fun link => { link with idleArmed := false }) hrows rfl
      (fun st => by simp [IdleStretch.undisturbed]) fun _ => rfl
  | steered =>
    exact h.disturb (g := fun link => { link with idleArmed := false }) hrows rfl
      (fun st => by simp [IdleStretch.undisturbed]) fun _ => rfl
  | idleFired now graceMs thresholdMs =>
    exact h.disturb (g := fun link => { link with idleArmed := false }) hrows rfl
      (fun st => by simp [IdleStretch.undisturbed]) fun _ => rfl

end IdleStretch.Ok

theorem IdleRun.ok {id : SessionId} {p : ServerState × Option IdleStretch} (h : IdleRun id p) :
    IdleStretch.Ok (chan p.1 id) p.2 := by
  refine h.inv (I := IdleStretch.Ok) (fun act he hb => ?_) (fun c hc => ?_) fun q e _ hborn he hok hi => ?_
  · cases act <;> rfl
  · exact IdleStretch.Ok.none_of fun link hl => by cases hc.2.1.symm.trans hl
  · refine hi.step he hok fun hb => ?_
    obtain ⟨hblank, hnone⟩ := hborn hb
    exact ⟨hnone, by rw [hblank]; rfl⟩

/-! ## The check's handle -/

/-- A check that is armed is kept under its handle or cleared. -/
theorem Wire.idle_step (w : Wire) (sig : Signal) {r : RecId} {t : TimerId} (h : (w.lines r).idle = some t) :
    ((w.step sig).lines r).idle = some t ∨ ((w.step sig).lines r).idle = none := by
  have htear : ∀ r', ((w.tear r').lines r).idle = some t ∨ ((w.tear r').lines r).idle = none := by
    intro r'
    by_cases hr : r = r'
    · subst hr
      rw [tear_self]
      exact Or.inr rfl
    · rw [tear_ne _ hr]
      exact Or.inl h
  have hset : ∀ (w' : Wire) (r' : RecId) (f : Line → Line), w'.lines = w.lines →
      (∀ line : Line, line.idle = some t → (f line).idle = some t ∨ (f line).idle = none) →
        ((w'.setLine r' f).lines r).idle = some t ∨ ((w'.setLine r' f).lines r).idle = none := by
    intro w' r' f hlines hf
    by_cases hr : r = r'
    · subst hr
      rw [setLine_self, hlines]
      exact hf _ h
    · rw [setLine_ne _ _ hr, hlines]
      exact Or.inl h
  have hwrite : ∀ (w' : Wire) (r' : RecId), (w'.lines r).idle = some t ∨ (w'.lines r).idle = none →
      ((w'.write r').lines r).idle = some t ∨ ((w'.write r').lines r).idle = none := by
    intro w' r' h'
    obtain ⟨n, hline⟩ := w'.write_line r' r
    rw [hline]
    exact h'
  cases sig with
  | still => exact Or.inl h
  | registered id serial =>
    by_cases hr : r = ⟨id, serial⟩
    · subst hr
      have hline : (w.step (.registered id serial)).lines ⟨id, serial⟩ = freshLine ((w.channels.get id).map w.lines) :=
        Function.update_self ..
      rw [hline]
      exact Or.inr rfl
    · have hline : ((w.step (.registered id serial)).lines r) = (w.supersede (w.channels.get id)).lines r :=
        Function.update_of_ne hr ..
      rw [hline]
      cases w.channels.get id with
      | none => exact Or.inl h
      | some r' => exact htear r'
  | opened r' res =>
    by_cases hr : r = r'
    · subst hr
      have hline : (w.step (.opened r res)).lines r =
          { (w.tear r).lines r with downstream := some res, liveness := some (res + 1) } := Function.update_self ..
      rw [hline, tear_self]
      exact Or.inr rfl
    · have hline : ((w.step (.opened r' res)).lines r) = w.lines r :=
        (Function.update_of_ne hr ..).trans (w.tear_ne hr)
      rw [hline]
      exact Or.inl h
  | closed r' res timer =>
    simp only [Wire.step]
    split
    · exact hset { w with ended := Function.update w.ended res true } r' _ rfl fun _ hi => Or.inl hi
    · exact Or.inl h
  | pushed r' => exact hwrite _ r' (hset w r' _ rfl fun _ _ => Or.inr rfl)
  | beaten r' => exact hwrite w r' (Or.inl h)
  | reported r' idle timer =>
    simp only [Wire.step]
    refine hset w r' _ rfl fun line hi => ?_
    cases idle with
    | true => exact Or.inl (by simp [hi])
    | false => exact Or.inr rfl
  | idleSpent r' =>
    simp only [Wire.step]
    exact hset w r' _ rfl fun _ _ => Or.inr rfl
  | evictionSpent r' | evictionAgain r' timer =>
    simp only [Wire.step]
    exact hset w r' _ rfl fun _ hi => Or.inl hi
  | reaped id =>
    simp only [Wire.step]
    split
    · exact Or.inl h
    · exact htear _
  | halted =>
    simp only [Wire.step]
    split
    · exact Or.inr rfl
    · exact Or.inl h

/-- A record whose check is armed was the session's before. -/
theorem Wire.channel_step (w : Wire) (sig : Signal) {id : SessionId} {r : RecId}
    (h : (w.step sig).channels.get id = some r) (hi : ((w.step sig).lines r).idle ≠ none) :
    w.channels.get id = some r := by
  cases sig with
  | registered id' serial =>
    have hget : (if id = id' then some ⟨id', serial⟩ else w.channels.get id) = some r :=
      (OrdMap.get_set w.channels id' id ⟨id', serial⟩).symm.trans h
    split at hget
    · have hline : (w.step (.registered id' serial)).lines r = freshLine ((w.channels.get id').map w.lines) := by
        rw [← Option.some.inj hget]
        exact Function.update_self ..
      rw [hline] at hi
      exact absurd rfl hi
    · exact hget
  | reaped id' =>
    simp only [Wire.step] at h
    split at h
    · exact h
    · exact (OrdMap.get_erase_of_some h).2
  | closed r' res timer =>
    simp only [Wire.step] at h
    split at h <;> exact h
  | pushed r' =>
    rwa [Wire.step, Wire.write_channels] at h
  | beaten r' =>
    rwa [Wire.step, Wire.write_channels] at h
  | _ => exact h

/-! ## The check's deadline -/

/-- The session's idle check is armed, and due at `due`. -/
def IdleDue (s : ServerState) (id : SessionId) (due : Nat) : Prop :=
  ∃ r t, s.workerChannels.get id = some r ∧ (s.records r).idleTimer = some t ∧
    s.timers.get t = some ⟨due, .fireIdleEvent id r⟩

/-- An armed link is an armed check of the current record. -/
theorem idleDue_of_armed {s : ServerState} (h : TimersOk s) {id : SessionId} {link : Link}
    (hlink : (chan s id).link = some link) (harmed : link.idleArmed = true) : ∃ due, IdleDue s id due := by
  cases hr : s.workerChannels.get id with
  | none => cases (link_none hr).symm.trans hlink
  | some r =>
    rw [link_of_current hr] at hlink
    cases hlink
    obtain ⟨t, ht⟩ := Option.isSome_iff_exists.mp harmed
    have howner : owner s.records s.pendingLaunches (.fireIdleEvent r.sessionId r) = some t := (if_pos rfl).trans ht
    obtain ⟨due, hget⟩ := h.armed.get_of_owner howner
    rw [named h id r hr] at hget
    exact ⟨due, r, t, hr, ht, hget⟩

/-- A check armed before the turn and after it is due when it was. -/
theorem idleDue_kept {s : ServerState} (hg : Grounded s) {e : Event} (he : e ≠ .shutdown) {id : SessionId}
    {due due' : Nat}
    (h : IdleDue s id due) (h' : IdleDue (step s e) id due') : due' = due := by
  obtain ⟨r, t, hr, hi, ht⟩ := h
  obtain ⟨r', t', hr', hi', ht'⟩ := h'
  have hwire := wire_step s e
  have hline : ((wire s).step (signal s e)).lines r' = (wire (step s e)).lines r' := by rw [hwire]
  have hcur : (wire s).channels.get id = some r' := by
    refine (wire s).channel_step (signal s e) (by rw [← hwire]; exact hr') ?_
    rw [hline]
    show (((step s e).records r').idleTimer) ≠ none
    rw [hi']
    exact Option.some_ne_none t'
  have hsame : r' = r := (Option.some.inj (hr.symm.trans hcur)).symm
  subst hsame
  have hhandle : t' = t := by
    have hkept := (wire s).idle_step (signal s e) (r := r') hi
    rw [hline] at hkept
    have hafter : ((wire (step s e)).lines r').idle = some t' := hi'
    rw [hafter] at hkept
    rcases hkept with hkept | hgone
    · exact Option.some.inj hkept
    · cases hgone
  subst hhandle
  rcases clocked_step s he rfl ht' with hold | hnew
  · rw [ht] at hold
    cases hold
    rfl
  · exact absurd (hg.timers.armed.fresh t' _ ht) (Nat.not_lt.mpr hnew.1)

/-- A check armed by the turn is due the threshold from now. -/
theorem idleDue_new {s : ServerState} (hg : Grounded s) {e : Event} (he : e ≠ .shutdown) {id : SessionId} {due : Nat}
    (hoff : ∀ link, (chan s id).link = some link → link.idleArmed = false) (h : IdleDue (step s e) id due) :
    due = s.now + timeoutDelay s.config.sessionIdleThresholdMs := by
  obtain ⟨r, t, hr, hi, ht⟩ := h
  have hwire := wire_step s e
  rcases clocked_step s he rfl ht with hold | hnew
  · -- it was this record's already
    have hcur : (wire s).channels.get id = some r := by
      refine (wire s).channel_step (signal s e) (by rw [← hwire]; exact hr) ?_
      rw [← hwire]
      show (((step s e).records r).idleTimer) ≠ none
      rw [hi]
      exact Option.some_ne_none t
    have howner := hg.timers.armed.owner_of_get hold
    simp only [owner] at howner
    split at howner
    · have hlink := hoff _ (link_of_current hcur)
      simp [Link.of, howner] at hlink
    · cases howner
  · exact hnew.2

/-! ## Over whole runs -/

/-- A report is received at the turn's own time. -/
theorem report_now {s : ServerState} {e : Event} {id : SessionId} {r : Report} (h : observe s e id = .report r) :
    r.now = s.now := by
  obtain ⟨_, _, _, rfl⟩ := observe_reportOf h
  rfl

/-- A stretch undisturbed was so before, or an idle report opened it. -/
theorem IdleStretch.see_undisturbed {c c' : Chan} {act : Act} {stretch : Option IdleStretch} {st : IdleStretch}
    (h : IdleStretch.see c act c' stretch = some st) (hun : st.undisturbed = true) :
    stretch = some st ∨ stretch = none ∧ ∃ r, act = .report r ∧ st.entered = r.now := by
  have hdisturbed : ∀ f : IdleStretch → IdleStretch, (∀ st, (f st).undisturbed = false) →
      stretch.map f = some st → False := by
    intro f hf hmap
    obtain ⟨st', -, rfl⟩ := Option.map_eq_some_iff.mp hmap
    cases (hf st').symm.trans hun
  cases act with
  | report r =>
    simp only [IdleStretch.see] at h
    split at h
    · split at h
      · exact Or.inl h
      · split at h
        · cases stretch with
          | none =>
            cases h
            exact Or.inr ⟨rfl, r, rfl, rfl⟩
          | some st' => exact Or.inl h
        · cases h
    · exact Or.inl h
  | registered | ended | halted => cases h
  | answered _ | steered | idleFired _ _ _ | streamOpened =>
    exact (hdisturbed _ (fun st => by simp [IdleStretch.undisturbed]) h).elim
  | _ => exact Or.inl h

theorem IdleRun.due {id : SessionId} {p : ServerState × Option IdleStretch} (h : IdleRun id p) :
    ∀ st, p.2 = some st → st.undisturbed = true →
      IdleDue p.1 id (st.entered + timeoutDelay p.1.config.sessionIdleThresholdMs) := by
  induction h with
  | start hp =>
    intro st hst
    cases hp.2.symm.trans hst
  | @step p e hr hok ih =>
    intro st hst hun
    have hg := (SessionRun.reachable hr).grounded
    have hafter := IdleRun.ok (Reach.step e hr hok)
    have hne : e ≠ .shutdown := by
      intro heq
      subst heq
      cases hst
    have hconfig : (step p.1 e).config = p.1.config := (onward_step p.1 e hne).config
    obtain ⟨link, hlink⟩ := Option.ne_none_iff_exists'.mp (hafter.linked (by rw [hst]; exact Option.some_ne_none st))
    have harmed := hafter.armed st hst hun link hlink
    obtain ⟨due, hdue⟩ := idleDue_of_armed (handles_step hg.timers e) hlink harmed
    show IdleDue (step p.1 e) id (st.entered + timeoutDelay (step p.1 e).config.sessionIdleThresholdMs)
    rw [hconfig]
    have hsee : IdleStretch.see (chan p.1 id) (observe p.1 e id) (chan (step p.1 e) id) p.2 = some st := hst
    rcases IdleStretch.see_undisturbed hsee hun with hold | hnew
    · have hsame := idleDue_kept hg hne (ih st hold hun) hdue
      rwa [hsame] at hdue
    · obtain ⟨hnone, r, hact, hentered⟩ := hnew
      have hfresh := idleDue_new hg hne ((IdleRun.ok hr).away hnone) hdue
      rw [hentered, report_now hact, ← hfresh]
      exact hdue

/-- The close of a downstream leaves the check as it is. -/
theorem idle_check_closed {s : ServerState} (hg : Grounded s) {id : SessionId} {due : Nat} (h : IdleDue s id due)
    (res : Res) : IdleDue (step s (.workerStreamClosed res)) id due := by
  have hlink : ∃ link, (chan (step s (.workerStreamClosed res)) id).link = some link ∧ link.idleArmed = true := by
    obtain ⟨r, t, hr, hi, -⟩ := h
    rw [chan_step hg.timers hg.ok]
    have hbefore := link_of_current hr
    have harmed : (Link.of (s.records r)).idleArmed = true := by simp [Link.of, hi]
    simp only [observe]
    split
    · exact ⟨_, hbefore, harmed⟩
    · split
      · refine ⟨{ Link.of (s.records r) with connected := false }, ?_, harmed⟩
        simp [Chan.step, Chan.mapLink, hbefore]
      · exact ⟨_, hbefore, harmed⟩
  obtain ⟨link, hlink, harmed⟩ := hlink
  obtain ⟨due', hafter⟩ := idleDue_of_armed (handles_step hg.timers _) hlink harmed
  have hne : Event.workerStreamClosed res ≠ .shutdown := fun heq => by cases heq
  rwa [idleDue_kept hg hne h hafter] at hafter

/-- Idle, reported again later, and the downstream gone. -/
def restful : List Event :=
  [.sessionCreate none (js "/w") .default, .workerRegister 0, .workerEventsStream 0, .advance 500,
    .workerStatus 0 (statusBody 1 "idle" 1), .advance 7000, .workerStatus 0 (statusBody 1 "idle" 2),
    .workerStreamClosed 2]

end Ccctl.Server
