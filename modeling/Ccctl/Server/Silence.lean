import Ccctl.Server.Wire
/-
  Ccctl.Server.Silence — who checks on a silent worker, over whole runs.

  The close of a channel's stream arms its eviction check, and the check arms itself again while
  the worker still beats: so a channel that had a stream and has none is checked on
  (`silence_caught`), until the server shuts down. A record its session moved on from keeps no
  timer; but the close of its stream may come after that, and then arms a check on it, which finds
  another record in its place and does nothing.

  A record on which no stream was opened yet is checked on by nobody (`silence_unchecked`).
-/

namespace Ccctl.Server

open Ccctl.Core Ccctl.Lib ServerState

/-! ## The watch -/

structure SilenceLog where
  /-- A downstream was opened on the record. -/
  streamed : RecId → Bool
  /-- A stream of the record closed after its session had moved on from it. -/
  late : RecId → Bool

def SilenceLog.empty : SilenceLog := ⟨fun _ => false, fun _ => false⟩

def silenceWatch (s : ServerState) (e : Event) (log : SilenceLog) : SilenceLog :=
  match e with
  | .workerEventsStream id =>
    match reply s e, s.workerChannels.get id with
    | .stream _, some r => { log with streamed := Function.update log.streamed r true }
    | _, _ => log
  | .workerStreamClosed res =>
    match s.streams.get res with
    | some stream =>
      if s.workerChannels.get stream.record.sessionId = some stream.record then log
      else { log with late := Function.update log.late stream.record true }
    | none => log
  | _ => log

abbrev SilenceRun : ServerState × SilenceLog → Prop :=
  Reach (watched step silenceWatch) (fun p => Booted p.1 ∧ p.2 = SilenceLog.empty) anyEvent

/-- What a signal adds to the log. -/
def SilenceLog.after (log : SilenceLog) (w : Wire) : Signal → SilenceLog
  | .opened r _ => { log with streamed := Function.update log.streamed r true }
  | .closed r _ _ =>
    if w.channels.get r.sessionId = some r then log else { log with late := Function.update log.late r true }
  | _ => log

theorem SilenceLog.after_same (log : SilenceLog) (w : Wire) {sig : Signal} (h : sig.plain = true) :
    log.after w sig = log := by
  cases sig with
  | registered _ _ | opened _ _ | closed _ _ _ | halted => cases h
  | _ => rfl

theorem silenceWatch_signal (s : ServerState) (e : Event) (log : SilenceLog) :
    silenceWatch s e log = log.after (wire s) (signal s e) := by
  cases e with
  | workerRegister id =>
    simp only [silenceWatch, signal]
    split
    · rfl
    · split <;> rfl
  | workerEventsStream id =>
    cases hs : s.sessions.get id with
    | none =>
      simp only [silenceWatch, signal, reply, turn, handleWorkerEventsStream, hs]
      rfl
    | some session =>
      cases hr : s.workerChannels.get id with
      | none =>
        simp only [silenceWatch, signal, reply, turn, handleWorkerEventsStream, hs, hr]
        rfl
      | some r =>
        simp only [silenceWatch, signal, reply, turn, handleWorkerEventsStream, hs, hr]
        rfl
  | workerStreamClosed res =>
    simp only [silenceWatch, signal]
    cases hst : s.streams.get res <;> rfl
  | shutdown => rfl
  | _ => exact (log.after_same (wire s) (signal_plain s rfl)).symm

/-! ## The records a session moved on from -/

/-- No interval, no idle check, and an eviction check only if the stream closed late. -/
structure Line.Quiet (line : Line) (late : Bool) : Prop where
  liveness : line.liveness = none
  idle : line.idle = none
  eviction : line.eviction ≠ none → late = true

def SilenceLog.Left (w : Wire) (log : SilenceLog) : Prop :=
  ∀ r, w.channels.get r.sessionId ≠ some r → (w.lines r).Quiet (log.late r)

theorem Line.torn_quiet (line : Line) (late : Bool) : line.torn.Quiet late := ⟨rfl, rfl, fun hne => absurd rfl hne⟩

theorem Wire.write_quiet {w : Wire} {r r' : RecId} {late : Bool} (h : (w.lines r).Quiet late) :
    ((w.write r').lines r).Quiet late := by
  obtain ⟨n, hline⟩ := w.write_line r' r
  rw [hline]
  exact ⟨h.liveness, h.idle, h.eviction⟩

/-- A line rewritten so that no timer field is set. -/
theorem Wire.setLine_quiet {w : Wire} {r r' : RecId} {late : Bool} (h : (w.lines r).Quiet late) {f : Line → Line}
    (hf : ∀ line : Line, line.Quiet late → (f line).Quiet late) : ((w.setLine r' f).lines r).Quiet late := by
  by_cases hr : r = r'
  · subst hr
    rw [Wire.setLine_self]
    exact hf _ h
  · rw [Wire.setLine_ne w f hr]
    exact h

theorem SilenceLog.Left.signalled {s : ServerState} {log : SilenceLog} (h : log.Left (wire s)) {sig : Signal}
    (hc : sig.Checked s) : (log.after (wire s) sig).Left ((wire s).step sig) := by
  -- a record the signal finds left behind, and one it leaves behind
  intro r hgone
  cases sig with
  | still => exact h r hgone
  | registered id serial =>
    have hset : ((wire s).channels.set id ⟨id, serial⟩).get r.sessionId ≠ some r := hgone
    have hne : r ≠ ⟨id, serial⟩ := by
      intro heq
      subst heq
      exact hset (OrdMap.get_set_self ..)
    have hline : ((wire s).step (.registered id serial)).lines r =
        ((wire s).supersede ((wire s).channels.get id)).lines r := Function.update_of_ne hne ..
    rw [hline]
    by_cases hprev : (wire s).channels.get id = some r
    · rw [hprev]
      have htorn : ((wire s).supersede (some r)).lines r = ((wire s).lines r).torn := (wire s).tear_self r
      rw [htorn]
      exact Line.torn_quiet _ _
    · rw [(wire s).supersede_ne hprev]
      refine h r ?_
      by_cases hid : r.sessionId = id
      · rw [hid]
        exact hprev
      · rwa [OrdMap.get_set_ne _ _ hid] at hset
  | opened r' res =>
    have hne : r ≠ r' := by
      intro heq
      subst heq
      exact hgone hc.2
    have hline : ((wire s).step (.opened r' res)).lines r = (wire s).lines r :=
      (Function.update_of_ne hne ..).trans ((wire s).tear_ne hne)
    rw [hline]
    exact h r hgone
  | closed r' res timer =>
    have hgone' : (wire s).channels.get r.sessionId ≠ some r := by
      simp only [Wire.step] at hgone
      split at hgone <;> exact hgone
    have hold := h r hgone'
    have hlate : (log.after (wire s) (.closed r' res timer)).late r = (decide (r = r') || log.late r) := by
      simp only [SilenceLog.after]
      by_cases hr : r = r'
      · subst hr
        rw [if_neg hgone', decide_eq_true rfl, Bool.true_or]
        exact Function.update_self ..
      · rw [decide_eq_false hr, Bool.false_or]
        split
        · rfl
        · exact Function.update_of_ne hr ..
    rw [hlate]
    have hkept : ((wire s).lines r).Quiet (decide (r = r') || log.late r) :=
      ⟨hold.liveness, hold.idle, fun hne => by rw [hold.eviction hne, Bool.or_true]⟩
    simp only [Wire.step]
    split
    · by_cases hr : r = r'
      · subst hr
        rw [Wire.setLine_self]
        exact ⟨rfl, hold.idle, fun _ => by rw [decide_eq_true rfl, Bool.true_or]⟩
      · rw [Wire.setLine_ne _ _ hr]
        exact hkept
    · exact hkept
  | pushed r' =>
    have hcur : (wire s).channels.get r.sessionId ≠ some r := by
      rwa [Wire.step, Wire.write_channels] at hgone
    exact Wire.write_quiet (Wire.setLine_quiet (h r hcur) fun _ hq => ⟨hq.liveness, rfl, hq.eviction⟩)
  | beaten r' =>
    have hcur : (wire s).channels.get r.sessionId ≠ some r := by
      rwa [Wire.step, Wire.write_channels] at hgone
    exact Wire.write_quiet (h r hcur)
  | reported r' idle timer =>
    have hne : r ≠ r' := by
      intro heq
      subst heq
      exact hgone hc.2
    have hline : ((wire s).step (.reported r' idle timer)).lines r = (wire s).lines r :=
      Function.update_of_ne hne ..
    rw [hline]
    exact h r hgone
  | idleSpent r' =>
    exact Wire.setLine_quiet (f := fun line => { line with idle := none }) (h r hgone)
      fun _ hq => ⟨hq.liveness, rfl, hq.eviction⟩
  | evictionSpent r' =>
    exact Wire.setLine_quiet (f := fun line => { line with eviction := none }) (h r hgone)
      fun _ hq => ⟨hq.liveness, hq.idle, fun hne => absurd rfl hne⟩
  | evictionAgain r' timer =>
    have hne : r ≠ r' := by
      intro heq
      subst heq
      exact hgone hc.2.1
    have hline : ((wire s).step (.evictionAgain r' timer)).lines r = (wire s).lines r :=
      Function.update_of_ne hne ..
    rw [hline]
    exact h r hgone
  | reaped id =>
    simp only [Wire.step] at hgone ⊢
    cases hr' : (wire s).channels.get id with
    | none =>
      rw [hr'] at hgone
      exact h r hgone
    | some r' =>
      rw [hr'] at hgone
      show ((((wire s).tear r').lines r)).Quiet (log.late r)
      by_cases hr : r = r'
      · subst hr
        rw [Wire.tear_self]
        exact Line.torn_quiet _ _
      · rw [Wire.tear_ne _ hr]
        refine h r fun hcur => hr ?_
        by_cases hid : r.sessionId = id
        · rw [hid, hr'] at hcur
          exact (Option.some.inj hcur).symm
        · exact absurd ((OrdMap.get_erase_ne _ hid).trans hcur) hgone
  | halted =>
    simp only [Wire.step]
    split
    · exact ⟨rfl, rfl, fun hne => absurd rfl hne⟩
    · exact h r hgone

/-! ## The current records -/

/-- A channel that had a stream and has none is checked on. -/
def SilenceLog.Caught (w : Wire) (log : SilenceLog) : Prop :=
  ∀ id r, w.channels.get id = some r → log.streamed r = true → (w.lines r).downstream = none →
    (w.lines r).eviction ≠ none

/-- A record whose downstream and eviction check a signal leaves as they are. -/
theorem SilenceLog.Caught.same {w w' : Wire} {log : SilenceLog} (h : log.Caught w) {id : SessionId} {r : RecId}
    (hcur : w.channels.get id = some r) (hstreamed : log.streamed r = true)
    (hd : (w'.lines r).downstream = (w.lines r).downstream) (he : (w'.lines r).eviction = (w.lines r).eviction)
    (hoff : (w'.lines r).downstream = none) : (w'.lines r).eviction ≠ none := by
  rw [he]
  exact h id r hcur hstreamed (hd.symm.trans hoff)

theorem SilenceLog.Caught.write {w : Wire} {log : SilenceLog} (h : log.Caught w) (r' : RecId) :
    log.Caught (w.write r') := by
  intro id r hcur hstreamed hoff
  have hcur' : w.channels.get id = some r := by
    rwa [Wire.write_channels] at hcur
  obtain ⟨n, hline⟩ := w.write_line r' r
  exact h.same hcur' hstreamed (by rw [hline]) (by rw [hline]) hoff

theorem SilenceLog.Caught.setLine {w : Wire} {log : SilenceLog} (h : log.Caught w) (r' : RecId) {f : Line → Line}
    (hf : ∀ line, (f line).downstream = line.downstream ∧ (f line).eviction = line.eviction) :
    log.Caught (w.setLine r' f) := by
  intro id r hcur hstreamed hoff
  by_cases hr : r = r'
  · subst hr
    rw [Wire.setLine_self] at hoff ⊢
    rw [(hf _).2]
    exact h id r hcur hstreamed ((hf _).1.symm.trans hoff)
  · rw [Wire.setLine_ne w f hr] at hoff ⊢
    exact h id r hcur hstreamed hoff

/-- A signal of a server that is up. -/
theorem SilenceLog.Caught.signalled {s : ServerState} {log : SilenceLog} (h : log.Caught (wire s)) (hg : Grounded s)
    (hfresh : ∀ r, s.next ≤ r.serial → log.streamed r = false) {sig : Signal} (hc : sig.Checked s)
    (hup : sig ≠ .halted) : (log.after (wire s) sig).Caught ((wire s).step sig) := by
  have hnamed := named hg.timers
  cases sig with
  | still => exact h
  | halted => exact absurd rfl hup
  | registered id serial =>
    intro id' r hcur hstreamed hoff
    have hget : (if id' = id then some ⟨id, serial⟩ else s.workerChannels.get id') = some r :=
      (OrdMap.get_set s.workerChannels id id' ⟨id, serial⟩).symm.trans hcur
    split at hget
    · -- nothing was opened on a record just made
      have hunstreamed := hfresh r (by rw [← Option.some.inj hget]; exact Nat.le_of_eq hc.1.symm)
      cases hunstreamed.symm.trans hstreamed
    · rename_i hid
      have hown := hnamed id' r hget
      have hne : r ≠ ⟨id, serial⟩ := by
        intro heq
        exact hid (hown.symm.trans (congrArg RecId.sessionId heq))
      have hprev : (wire s).channels.get id ≠ some r := by
        intro hprev
        exact hid (hown.symm.trans (hnamed id r hprev))
      have hline : ((wire s).step (.registered id serial)).lines r = (wire s).lines r :=
        (Function.update_of_ne hne ..).trans ((wire s).supersede_ne hprev)
      exact h.same hget hstreamed (by rw [hline]) (by rw [hline]) hoff
  | opened r' res =>
    intro id r hcur hstreamed hoff
    by_cases hr : r = r'
    · subst hr
      have hline : ((wire s).step (.opened r res)).lines r =
          { (((wire s).tear r).lines r) with downstream := some res, liveness := some (res + 1) } :=
            Function.update_self ..
      rw [hline] at hoff
      cases hoff
    · have hline : ((wire s).step (.opened r' res)).lines r = (wire s).lines r :=
        (Function.update_of_ne hr ..).trans ((wire s).tear_ne hr)
      have hold : log.streamed r = true := (Function.update_of_ne hr ..).symm.trans hstreamed
      exact h.same hcur hold (by rw [hline]) (by rw [hline]) hoff
  | closed r' res timer =>
    intro id r hcur hstreamed hoff
    have hold : log.streamed r = true := by
      simp only [SilenceLog.after] at hstreamed
      split at hstreamed <;> exact hstreamed
    simp only [Wire.step] at hcur hoff ⊢
    split at hcur
    · rename_i hd
      rw [if_pos hd] at hoff ⊢
      by_cases hr : r = r'
      · subst hr
        rw [Wire.setLine_self]
        exact Option.some_ne_none timer
      · rw [Wire.setLine_ne _ _ hr] at hoff ⊢
        exact h id r hcur hold hoff
    · rename_i hd
      rw [if_neg hd] at hoff ⊢
      exact h id r hcur hold hoff
  | pushed r' =>
    have hidle := h.setLine r' (f := fun line => { line with idle := none }) fun _ => ⟨rfl, rfl⟩
    exact hidle.write r'
  | beaten r' => exact h.write r'
  | reported r' idle timer =>
    simp only [Wire.step, SilenceLog.after]
    exact h.setLine r' fun _ => ⟨rfl, rfl⟩
  | idleSpent r' =>
    simp only [Wire.step, SilenceLog.after]
    exact h.setLine r' fun _ => ⟨rfl, rfl⟩
  | evictionSpent r' =>
    intro id r hcur hstreamed hoff
    have hne : r ≠ r' := by
      intro heq
      subst heq
      refine hc.2 ?_
      rw [hnamed id r hcur]
      exact hcur
    have hline : ((wire s).step (.evictionSpent r')).lines r = (wire s).lines r := Function.update_of_ne hne ..
    exact h.same hcur hstreamed (by rw [hline]) (by rw [hline]) hoff
  | evictionAgain r' timer =>
    intro id r hcur hstreamed hoff
    by_cases hr : r = r'
    · subst hr
      have hline : ((wire s).step (.evictionAgain r timer)).lines r =
          { (wire s).lines r with eviction := some timer } :=
        Function.update_self ..
      rw [hline]
      exact Option.some_ne_none timer
    · have hline : ((wire s).step (.evictionAgain r' timer)).lines r = (wire s).lines r := Function.update_of_ne hr ..
      exact h.same hcur hstreamed (by rw [hline]) (by rw [hline]) hoff
  | reaped id =>
    intro id' r hcur hstreamed hoff
    simp only [Wire.step] at hcur hoff ⊢
    cases hr' : (wire s).channels.get id with
    | none =>
      rw [hr'] at hcur hoff
      exact h id' r hcur hstreamed hoff
    | some r' =>
      rw [hr'] at hcur hoff
      obtain ⟨hid, hget⟩ := OrdMap.get_erase_of_some hcur
      have hne : r ≠ r' := by
        intro heq
        subst heq
        exact hid ((hnamed id' r hget).symm.trans (hnamed id r hr'))
      have hline : ((wire s).tear r').lines r = (wire s).lines r := (wire s).tear_ne hne
      have hdown : (((wire s).tear r').lines r).downstream = ((wire s).lines r).downstream := by rw [hline]
      exact h.same hget hstreamed hdown (by rw [hline]) hoff

/-! ## Over whole runs -/

structure SilenceLog.Ok (s : ServerState) (log : SilenceLog) : Prop where
  left : log.Left (wire s)
  caught : s.closed = false → log.Caught (wire s)
  unstreamed : ∀ r, s.next ≤ r.serial → log.streamed r = false

theorem SilenceLog.Ok.watched {s : ServerState} {log : SilenceLog} (h : log.Ok s) (hg : Grounded s) (e : Event) :
    (silenceWatch s e log).Ok (step s e) := by
  have hc := signal_checked hg e
  rw [silenceWatch_signal]
  refine ⟨?_, ?_, ?_⟩
  · rw [wire_step]
    exact h.left.signalled hc
  · intro hup
    have hne : e ≠ .shutdown := by
      intro heq
      subst heq
      cases hup
    have hopen : s.closed = false := (onward_step s e hne).closed.symm.trans hup
    rw [wire_step]
    exact (h.caught hopen).signalled hg h.unstreamed hc (signal_up s hne)
  · intro r hr
    have hold := h.unstreamed r ((next_le_step s e).trans hr)
    cases hsig : signal s e with
    | opened r' res =>
      rw [hsig] at hc
      have hmade := (hg.timers.channel r'.sessionId r' hc.2).2
      refine (Function.update_of_ne ?_ ..).trans hold
      intro heq
      subst heq
      exact absurd hmade (Nat.not_lt.mpr ((next_le_step s e).trans hr))
    | closed r' res timer =>
      simp only [SilenceLog.after]
      split <;> exact hold
    | _ => exact hold

theorem SilenceRun.ok {p : ServerState × SilenceLog} (h : SilenceRun p) : Grounded p.1 ∧ p.2.Ok p.1 := by
  refine h.inv (P := fun p => Grounded p.1 ∧ p.2.Ok p.1) ?_ fun p e hp _ => ⟨hp.1.step e, hp.2.watched hp.1 e⟩
  rintro ⟨s, log⟩ ⟨⟨image, rfl⟩, rfl⟩
  refine ⟨startServer_grounded image, ?_, ?_, fun _ _ => rfl⟩
  · intro r _
    exact ⟨rfl, rfl, fun hne => absurd rfl hne⟩
  · intro _ id r hcur
    cases hcur

/-! ## Who is checked on -/

/-- The record a timer is about. -/
def TimerCallback.about : TimerCallback → Option RecId
  | .evictPendingLaunch _ => none
  | .writeLivenessFrame r _ | .considerEviction _ r | .fireIdleEvent _ r => some r

/-- A timer of a record its session moved on from checks on its worker, since its stream closed late. -/
theorem late_timer {s : ServerState} {log : SilenceLog} (h : log.Ok s) (ht : TimersOk s) {t : TimerId}
    {timer : Timer TimerCallback} {r : RecId} (hget : s.timers.get t = some timer) (hr : timer.callback.about = some r)
    (hgone : s.workerChannels.get r.sessionId ≠ some r) :
    timer.callback = .considerEviction r.sessionId r ∧ log.late r = true := by
  obtain ⟨due, callback⟩ := timer
  have howner := ht.armed.owner_of_get hget
  have hquiet := h.left r hgone
  cases callback with
  | evictPendingLaunch id => cases hr
  | writeLivenessFrame r' res =>
    cases hr
    simp only [owner] at howner
    split at howner
    · have hnone : (s.records r).livenessTimer = none := hquiet.liveness
      rw [hnone] at howner
      cases howner
    · cases howner
  | fireIdleEvent id r' =>
    cases hr
    simp only [owner] at howner
    split at howner
    · have hnone : (s.records r).idleTimer = none := hquiet.idle
      rw [hnone] at howner
      cases howner
    · cases howner
  | considerEviction id r' =>
    cases hr
    simp only [owner] at howner
    split at howner
    · rename_i hid
      refine ⟨congrArg (TimerCallback.considerEviction · r) hid, hquiet.eviction ?_⟩
      show (s.records r).evictionTimer ≠ none
      rw [howner]
      exact Option.some_ne_none t
    · cases howner

/-- A check on a superseded record finds another in its place. -/
theorem fire_superseded {s : ServerState} {t : TimerId} {due : Nat} {id : SessionId} {r : RecId}
    (hget : s.timers.get t = some ⟨due, .considerEviction id r⟩) (hdue : due ≤ s.now)
    (hgone : s.workerChannels.get id ≠ some r) : step s (.fire t) =
      { s with
        timers := s.timers.erase t
        records := Function.update s.records r { s.records r with evictionTimer := none } } := by
  simp only [step, turn, fire, hget, if_neg (Nat.not_lt.mpr hdue), considerEviction]
  exact if_pos hgone

theorem silence_caught {s : ServerState} {log : SilenceLog} (h : SilenceRun (s, log)) :
    (s.closed = false → ∀ id r, s.workerChannels.get id = some r → log.streamed r = true →
      (s.records r).downstream = none → ∃ t due, (s.records r).evictionTimer = some t ∧
        s.timers.get t = some ⟨due, .considerEviction id r⟩) ∧
    (∀ t timer r, s.timers.get t = some timer → timer.callback.about = some r →
      s.workerChannels.get r.sessionId ≠ some r →
        timer.callback = .considerEviction r.sessionId r ∧ log.late r = true) ∧
    (∀ t due id r r', s.timers.get t = some ⟨due, .considerEviction id r⟩ → s.workerChannels.get id = some r' →
      r' ≠ r → due ≤ s.now → step s (.fire t) =
        { s with
          timers := s.timers.erase t
          records := Function.update s.records r { s.records r with evictionTimer := none } }) := by
  obtain ⟨hg, hok⟩ := h.ok
  refine ⟨?_, ?_, ?_⟩
  · intro hup id r hcur hstreamed hoff
    obtain ⟨t, ht⟩ := Option.ne_none_iff_exists'.mp (hok.caught hup id r hcur hstreamed hoff)
    have howner : owner s.records s.pendingLaunches (.considerEviction r.sessionId r) = some t := (if_pos rfl).trans ht
    obtain ⟨due, hget⟩ := hg.timers.armed.get_of_owner howner
    rw [named hg.timers id r hcur] at hget
    exact ⟨t, due, ht, hget⟩
  · intro t timer r hget hr hgone
    exact late_timer hok hg.timers hget hr hgone
  · intro t due id r r' hget hcur hne hdue
    refine fire_superseded hget hdue ?_
    rw [hcur]
    exact fun heq => hne (Option.some.inj heq)

/-- The stream closes late on the first worker's record, then on the second's in time. -/
def silenced : List Event :=
  [.sessionCreate none (js "/w") .default, .workerRegister 0, .workerEventsStream 0, .workerRegister 0,
    .workerEventsStream 0, .workerStreamClosed 2, .workerStreamClosed 5]

theorem silence_caught_silenced :
    let p := runFrom (watched step silenceWatch) (freshServer, SilenceLog.empty) silenced
    p.1.workerChannels.get 0 = some ⟨0, 4⟩ ∧ p.1.timers.get 7 = some ⟨30000, .considerEviction 0 ⟨0, 1⟩⟩ ∧
      p.2.late ⟨0, 1⟩ = true ∧
      ∃ t due, (p.1.records ⟨0, 4⟩).evictionTimer = some t ∧ p.1.timers.get t = some ⟨due, .considerEviction 0 ⟨0, 4⟩⟩ := by
  have hrun : SilenceRun (runFrom (watched step silenceWatch) (freshServer, SilenceLog.empty) silenced) :=
    (Reach.start ⟨freshServer_booted, rfl⟩).run
  have hsound := silence_caught hrun
  refine ⟨by decide, by decide, ?_, ?_⟩
  · exact (hsound.2.1 7 ⟨30000, .considerEviction 0 ⟨0, 1⟩⟩ ⟨0, 1⟩ (by decide) (by decide) (by decide)).2
  · exact hsound.1 (by decide) 0 ⟨0, 4⟩ (by decide) (by decide) (by decide)

/-- A worker that registered and opened no stream has no check armed; and a record whose stream closes after it was
    superseded has one. -/
theorem silence_unchecked :
    let s := runFrom step freshServer [.sessionCreate none (js "/w") .default, .workerRegister 0]
    let s' := runFrom step freshServer
      [.sessionCreate none (js "/w") .default, .workerRegister 0, .workerEventsStream 0, .workerRegister 0,
        .workerStreamClosed 2]
    (s.workerChannels.get 0 = some ⟨0, 1⟩ ∧ (s.records ⟨0, 1⟩).downstream = none ∧
      (s.records ⟨0, 1⟩).evictionTimer = none ∧ s.timers.size = 0) ∧
    (s'.workerChannels.get 0 = some ⟨0, 4⟩ ∧ s'.timers.get 5 = some ⟨30000, .considerEviction 0 ⟨0, 1⟩⟩) :=
  ⟨⟨by decide, by decide, by decide, by decide⟩, by decide, by decide⟩

end Ccctl.Server
