import Ccctl.Server.Wire
/-
  Ccctl.Server.Downstream — epochs and frames, over whole runs.

  The watch keeps the epochs each session's workers were handed and the record each downstream was
  opened on. A record object is replaced while responses, intervals and request bodies of earlier
  ones are still in flight; the invariant (`ChannelLog.Sound`) is that a response still open is the
  current record's, so a frame goes down the current record only, and that a fresh record takes the
  frame counter and the epoch over. With it (`downstream_sound`): a session's frames are numbered
  `1, 2, …` across its downstreams and its workers, its epochs `1, 2, …`.

  A request whose body is read is the turn its body arrives in, whatever came between: `ingest` is
  given the state it finds then, and a batch of entries is so many turns with no other between them
  (`ingest_run`).
-/

namespace Ccctl.Server

open Ccctl.Core Ccctl.Lib ServerState

/-! ## The watch -/

structure ChannelLog where
  /-- The epochs handed out, in order. -/
  epochs : SessionId → List Nat
  /-- The record each downstream was opened on. -/
  opened : Res → Option RecId

def ChannelLog.empty : ChannelLog := ⟨fun _ => [], fun _ => none⟩

/-- What a turn answered. -/
def channelWatch (s : ServerState) (e : Event) (log : ChannelLog) : ChannelLog :=
  match e, reply s e with
  | .workerRegister id, .workerEpoch epoch =>
    { log with epochs := Function.update log.epochs id (log.epochs id ++ [epoch]) }
  | .workerEventsStream id, .stream res =>
    { log with opened := Function.update log.opened res (s.workerChannels.get id) }
  | _, _ => log

abbrev ChannelRun : ServerState × ChannelLog → Prop :=
  Reach (watched step channelWatch) (fun p => Booted p.1 ∧ p.2 = ChannelLog.empty) anyEvent

theorem ChannelRun.reachable {p : ServerState × ChannelLog} (h : ChannelRun p) : Reachable p.1 :=
  h.machine (fun _ hp => hp.1) fun _ _ _ => trivial

/-- The sequence numbers written to the session's downstreams, in order. -/
def Wire.framesTo (w : Wire) (log : ChannelLog) (id : SessionId) : List Nat :=
  w.frames.filterMap fun frame =>
    if (log.opened frame.1).map (·.sessionId) = some id then some frame.2 else none

/-- What a signal adds to the log. -/
def ChannelLog.after (log : ChannelLog) (w : Wire) : Signal → ChannelLog
  | .registered id _ =>
    { log with
      epochs := Function.update log.epochs id
        (log.epochs id ++ [(freshLine ((w.channels.get id).map w.lines)).epoch]) }
  | .opened r res => { log with opened := Function.update log.opened res (some r) }
  | _ => log

theorem ChannelLog.after_same (log : ChannelLog) (w : Wire) {sig : Signal} (h : sig.plain = true) :
    log.after w sig = log := by
  cases sig with
  | registered _ _ | opened _ _ | closed _ _ _ | halted => cases h
  | _ => rfl

theorem channelWatch_signal (s : ServerState) (e : Event) (log : ChannelLog) :
    channelWatch s e log = log.after (wire s) (signal s e) := by
  cases e with
  | workerRegister id =>
    cases hs : s.sessions.get id with
    | none =>
      simp only [channelWatch, signal, reply, turn, handleWorkerRegister, hs]
      rfl
    | some session =>
      by_cases hreg : session.status = .registering
      · simp only [channelWatch, signal, reply, turn, handleWorkerRegister, hs, if_pos hreg]
        rfl
      · have hfresh : (freshLine (((wire s).channels.get id).map (wire s).lines)).epoch =
            (freshRecord (s.channel id)).epoch := by
          show (freshLine ((s.workerChannels.get id).map (wire s).lines)).epoch = _
          unfold channel
          cases s.workerChannels.get id <;> rfl
        simp only [channelWatch, signal, reply, turn, handleWorkerRegister, hs, if_neg hreg, ChannelLog.after, hfresh]
  | workerEventsStream id =>
    cases hs : s.sessions.get id with
    | none =>
      simp only [channelWatch, signal, reply, turn, handleWorkerEventsStream, hs]
      rfl
    | some session =>
      cases hr : s.workerChannels.get id with
      | none =>
        simp only [channelWatch, signal, reply, turn, handleWorkerEventsStream, hs, hr]
        rfl
      | some r =>
        simp only [channelWatch, signal, reply, turn, handleWorkerEventsStream, hs, hr, ChannelLog.after,
          endDownstream_next]
  | workerStreamClosed res =>
    simp only [channelWatch, signal]
    split <;> rfl
  | shutdown => rfl
  | _ => exact (log.after_same (wire s) (signal_plain s rfl)).symm

/-! ## The invariant -/

structure ChannelLog.Sound (w : Wire) (log : ChannelLog) : Prop where
  opened : ∀ r res, (w.lines r).downstream = some res → log.opened res = some r
  /-- A response still open is the current record's. -/
  live : ∀ r res, (w.lines r).downstream = some res → w.ended res = false → w.channels.get r.sessionId = some r
  owned : ∀ frame ∈ w.frames, log.opened frame.1 ≠ none
  numbered : ∀ id, w.framesTo log id = List.range' 1 (w.framesTo log id).length
  epochs : ∀ id, log.epochs id = List.range' 1 (log.epochs id).length
  current : ∀ id r, w.channels.get id = some r →
    (w.lines r).nextSeq = (w.framesTo log id).length + 1 ∧ (w.lines r).epoch = (log.epochs id).length

namespace ChannelLog.Sound

variable {w w' : Wire} {log : ChannelLog}

/-- Records disconnected, timers set and responses ended. -/
theorem loosen (h : log.Sound w) (hchannels : w'.channels = w.channels) (hframes : w'.frames = w.frames)
    (hlines : ∀ r, (w'.lines r).epoch = (w.lines r).epoch ∧ (w'.lines r).nextSeq = (w.lines r).nextSeq ∧
      ∀ res, (w'.lines r).downstream = some res → (w.lines r).downstream = some res)
    (hended : ∀ res, w'.ended res = false → w.ended res = false) : log.Sound w' := by
  have hto : ∀ id, w'.framesTo log id = w.framesTo log id := fun id => by
    unfold Wire.framesTo
    rw [hframes]
  refine ⟨?_, ?_, ?_, ?_, h.epochs, ?_⟩
  · intro r res hd
    exact h.opened r res ((hlines r).2.2 res hd)
  · intro r res hd hopen
    rw [hchannels]
    exact h.live r res ((hlines r).2.2 res hd) (hended res hopen)
  · rw [hframes]
    exact h.owned
  · intro id
    rw [hto]
    exact h.numbered id
  · intro id r hr
    rw [hchannels] at hr
    rw [hto, (hlines r).1, (hlines r).2.1]
    exact h.current id r hr

/-- What a torn record's line still shows. -/
theorem tear_line (w : Wire) (r r' : RecId) : ((w.tear r).lines r').epoch = (w.lines r').epoch ∧
    ((w.tear r).lines r').nextSeq = (w.lines r').nextSeq ∧
      ((w.tear r).lines r').downstream = (w.lines r').downstream := by
  show ((w.setLine r Line.torn).lines r').epoch = _ ∧ ((w.setLine r Line.torn).lines r').nextSeq = _ ∧
    ((w.setLine r Line.torn).lines r').downstream = _
  by_cases hr : r' = r
  · rw [hr, Wire.setLine_self]
    exact ⟨rfl, rfl, rfl⟩
  · rw [Wire.setLine_ne w _ hr]
    exact ⟨rfl, rfl, rfl⟩

theorem tear_ended {r : RecId} {res : Res} (hopen : (w.tear r).ended res = false) :
    w.ended res = false ∧ (w.lines r).downstream ≠ some res := by
  have hboth : (w.ended res || decide ((w.lines r).downstream = some res)) = false := hopen
  simpa using hboth

theorem tear (h : log.Sound w) (r : RecId) : log.Sound (w.tear r) := by
  refine h.loosen rfl rfl (fun r' => ?_) fun res hopen => (tear_ended hopen).1
  obtain ⟨hepoch, hseq, hd⟩ := tear_line w r r'
  exact ⟨hepoch, hseq, fun res h' => hd ▸ h'⟩

/-- After a record is torn, no response still open is its own. -/
theorem tear_live (h : log.Sound w) {r r' : RecId} {res : Res} (hd : ((w.tear r).lines r').downstream = some res)
    (hopen : (w.tear r).ended res = false) : r' ≠ r ∧ w.channels.get r'.sessionId = some r' := by
  obtain ⟨hopen', hne⟩ := tear_ended hopen
  rw [(tear_line w r r').2.2] at hd
  refine ⟨?_, h.live r' res hd hopen'⟩
  intro hr
  exact hne (hr ▸ hd)

theorem reaped (h : log.Sound w) (id : SessionId) : log.Sound (w.step (.reaped id)) := by
  simp only [Wire.step]
  cases hr : w.channels.get id with
  | none => exact h
  | some r =>
    have htorn := h.tear r
    refine ⟨htorn.opened, ?_, htorn.owned, htorn.numbered, htorn.epochs, ?_⟩
    · intro r' res hd hopen
      obtain ⟨hne, hcur⟩ := h.tear_live hd hopen
      refine (OrdMap.get_erase_ne _ ?_).trans hcur
      intro hid
      rw [hid, hr] at hcur
      exact hne (Option.some.inj hcur).symm
    · intro id' r' hr'
      exact htorn.current id' r' (OrdMap.get_erase_of_some hr').2

theorem range_snoc (n : Nat) : List.range' 1 n ++ [n + 1] = List.range' 1 (n + 1) := by
  rw [List.range'_concat, Nat.one_mul, Nat.add_comm 1]

theorem supersede (h : log.Sound w) (prev : Option RecId) : log.Sound (w.supersede prev) := by
  cases prev with
  | none => exact h
  | some r => exact h.tear r

/-- A fresh record takes the counter and the epoch over. -/
theorem registered (h : log.Sound w) {id : SessionId} {serial : Nat}
    (hnamed : ∀ id' r, w.channels.get id' = some r → r.sessionId = id')
    (hvacant : w.channels.get id = none → log.epochs id = [] ∧ w.framesTo log id = []) :
    (log.after w (.registered id serial)).Sound (w.step (.registered id serial)) := by
  have hcounts : (freshLine ((w.channels.get id).map w.lines)).nextSeq = (w.framesTo log id).length + 1 ∧
      (freshLine ((w.channels.get id).map w.lines)).epoch = (log.epochs id).length + 1 := by
    cases hr : w.channels.get id with
    | none =>
      obtain ⟨hepochs, hframes⟩ := hvacant hr
      rw [hepochs, hframes]
      exact ⟨rfl, rfl⟩
    | some r =>
      obtain ⟨hseq, hepoch⟩ := h.current id r hr
      exact ⟨hseq, congrArg (· + 1) hepoch⟩
  have hsup := h.supersede (w.channels.get id)
  have hline : ∀ r', r' ≠ ⟨id, serial⟩ →
      (w.step (.registered id serial)).lines r' = (w.supersede (w.channels.get id)).lines r' :=
    fun r' hr' => Function.update_of_ne hr' ..
  have hself : (w.step (.registered id serial)).lines ⟨id, serial⟩ = freshLine ((w.channels.get id).map w.lines) :=
    Function.update_self ..
  have hframes : (w.step (.registered id serial)).frames = w.frames := by
    show (w.supersede (w.channels.get id)).frames = w.frames
    cases w.channels.get id <;> rfl
  have hto : ∀ id', (w.step (.registered id serial)).framesTo (log.after w (.registered id serial)) id' =
      w.framesTo log id' := fun id' => by
    unfold Wire.framesTo
    rw [hframes]
    rfl
  have hepochs : ∀ id', (log.after w (.registered id serial)).epochs id' =
      if id' = id then log.epochs id ++ [(log.epochs id).length + 1] else log.epochs id' := fun id' => by
    show Function.update log.epochs id _ id' = _
    rw [hcounts.2]
    by_cases hid : id' = id
    · rw [if_pos hid, hid, Function.update_self]
    · rw [if_neg hid, Function.update_of_ne hid]
  refine ⟨?_, ?_, ?_, ?_, ?_, ?_⟩
  · intro r' res hd
    by_cases hr' : r' = ⟨id, serial⟩
    · rw [hr', hself] at hd
      cases hd
    · rw [hline r' hr'] at hd
      exact hsup.opened r' res hd
  · intro r' res hd hopen
    by_cases hr' : r' = ⟨id, serial⟩
    · rw [hr', hself] at hd
      cases hd
    · rw [hline r' hr'] at hd
      have hcur : w.channels.get r'.sessionId = some r' ∧ w.channels.get id ≠ some r' := by
        cases hprev : w.channels.get id with
        | none =>
          simp only [Wire.step, hprev] at hd hopen
          exact ⟨h.live r' res hd hopen, by simp⟩
        | some r =>
          simp only [Wire.step, hprev] at hd hopen
          obtain ⟨hne, hcur⟩ := h.tear_live hd hopen
          exact ⟨hcur, fun heq => hne (Option.some.inj heq).symm⟩
      refine (OrdMap.get_set_ne _ _ ?_).trans hcur.1
      intro hid
      exact hcur.2 (hid ▸ hcur.1)
  · rw [hframes]
    exact h.owned
  · intro id'
    rw [hto]
    exact h.numbered id'
  · intro id'
    rw [hepochs]
    split
    · rw [List.length_append, List.length_singleton, ← range_snoc, ← h.epochs id]
    · exact h.epochs id'
  · intro id' r' hr'
    have hget : (if id' = id then some ⟨id, serial⟩ else w.channels.get id') = some r' :=
      (OrdMap.get_set w.channels id id' ⟨id, serial⟩).symm.trans hr'
    rw [hto, hepochs]
    by_cases hid : id' = id
    · rw [if_pos hid] at hget ⊢
      rw [← Option.some.inj hget, hself, hid, List.length_append]
      exact hcounts
    · rw [if_neg hid] at hget ⊢
      have hne : r' ≠ ⟨id, serial⟩ := by
        intro heq
        have hname := hnamed id' r' hget
        rw [heq] at hname
        exact hid hname.symm
      rw [hline r' hne]
      have hcur := hsup.current id' r'
      cases hprev : w.channels.get id with
      | none =>
        rw [hprev] at hcur
        exact hcur hget
      | some r =>
        rw [hprev] at hcur
        exact hcur hget

/-- A downstream opened on the current record. -/
theorem opened_step (h : log.Sound w) {r : RecId} {res : Res} (hcur : w.channels.get r.sessionId = some r)
    (hfresh : log.opened res = none) : (log.after w (.opened r res)).Sound (w.step (.opened r res)) := by
  have htorn := h.tear r
  have hopened : ∀ res', (log.after w (.opened r res)).opened res' = if res' = res then some r else log.opened res' :=
    fun res' => by
      show Function.update log.opened res (some r) res' = _
      by_cases hres : res' = res
      · rw [if_pos hres, hres, Function.update_self]
      · rw [if_neg hres, Function.update_of_ne hres]
  have hwritten : ∀ frame ∈ w.frames, (log.after w (.opened r res)).opened frame.1 = log.opened frame.1 := by
    intro frame hframe
    rw [hopened, if_neg]
    intro heq
    exact h.owned frame hframe (heq ▸ hfresh)
  have hto : ∀ id, (w.step (.opened r res)).framesTo (log.after w (.opened r res)) id =
      w.framesTo log id := fun id => by
    refine List.filterMap_congr fun frame hframe => ?_
    rw [hwritten frame hframe]
  have hline : ∀ r', r' ≠ r → (w.step (.opened r res)).lines r' = (w.tear r).lines r' :=
    fun r' hr' => Function.update_of_ne hr' ..
  have hself : (w.step (.opened r res)).lines r =
      { (w.tear r).lines r with downstream := some res, liveness := some (res + 1) } :=
    Function.update_self ..
  have hended : ∀ res', res' ≠ res → (w.step (.opened r res)).ended res' = (w.tear r).ended res' :=
    fun res' hres => Function.update_of_ne hres ..
  -- no other record's downstream is the fresh response
  have hother : ∀ r' res', r' ≠ r → ((w.step (.opened r res)).lines r').downstream = some res' →
      ((w.tear r).lines r').downstream = some res' ∧ res' ≠ res := by
    intro r' res' hr' hd
    rw [hline r' hr'] at hd
    refine ⟨hd, ?_⟩
    intro hres
    have hold := htorn.opened r' res' hd
    rw [hres, hfresh] at hold
    cases hold
  refine ⟨?_, ?_, ?_, ?_, h.epochs, ?_⟩
  · intro r' res' hd
    by_cases hr' : r' = r
    · rw [hr', hself, Option.some.injEq] at hd
      rw [hopened, if_pos hd.symm, hr']
    · obtain ⟨hd', hres⟩ := hother r' res' hr' hd
      rw [hopened, if_neg hres]
      exact htorn.opened r' res' hd'
  · intro r' res' hd hopen
    by_cases hr' : r' = r
    · rw [hr']
      exact hcur
    · obtain ⟨hd', hres⟩ := hother r' res' hr' hd
      rw [hended res' hres] at hopen
      exact htorn.live r' res' hd' hopen
  · intro frame hframe
    rw [hwritten frame hframe]
    exact h.owned frame hframe
  · intro id
    rw [hto]
    exact h.numbered id
  · intro id r' hr'
    rw [hto]
    have hold := htorn.current id r' hr'
    by_cases hr : r' = r
    · rw [hr, hself]
      exact hr ▸ hold
    · rw [hline r' hr]
      exact hold

/-- A frame goes down the current record's downstream, under the next number. -/
theorem framed (h : log.Sound w) {r : RecId} {res : Res} (hcur : w.channels.get r.sessionId = some r)
    (hnamed : ∀ id' r, w.channels.get id' = some r → r.sessionId = id') (hd : (w.lines r).downstream = some res) :
    log.Sound { w.setLine r fun line => { line with nextSeq := line.nextSeq + 1 } with
      frames := w.frames ++ [(res, (w.lines r).nextSeq)] } := by
  have hres := h.opened r res hd
  obtain ⟨hseq, hepoch⟩ := h.current r.sessionId r hcur
  have hself : (w.setLine r fun line => { line with nextSeq := line.nextSeq + 1 }).lines r =
      { w.lines r with nextSeq := (w.lines r).nextSeq + 1 } := Function.update_self ..
  have hline : ∀ r', r' ≠ r → (w.setLine r fun line => { line with nextSeq := line.nextSeq + 1 }).lines r' =
      w.lines r' :=
    fun r' hr' => Function.update_of_ne hr' ..
  have hdown : ∀ r', ((w.setLine r fun line => { line with nextSeq := line.nextSeq + 1 }).lines r').downstream =
      (w.lines r').downstream := by
    intro r'
    by_cases hr' : r' = r
    · rw [hr', hself]
    · rw [hline r' hr']
  have hto : ∀ id, (w.frames ++ [(res, (w.lines r).nextSeq)]).filterMap
      (fun frame => if (log.opened frame.1).map (·.sessionId) = some id then some frame.2 else none) =
        w.framesTo log id ++ if r.sessionId = id then [(w.framesTo log r.sessionId).length + 1] else [] := by
    intro id
    rw [List.filterMap_append, ← hseq]
    refine congrArg (w.framesTo log id ++ ·) ?_
    by_cases hid : r.sessionId = id <;> simp [hres, hid]
  refine ⟨?_, ?_, ?_, ?_, h.epochs, ?_⟩
  · intro r' res' hd'
    exact h.opened r' res' ((hdown r').symm.trans hd')
  · intro r' res' hd' hopen
    exact h.live r' res' ((hdown r').symm.trans hd') hopen
  · intro frame hframe
    rcases List.mem_append.mp hframe with hold | hnew
    · exact h.owned frame hold
    · rw [List.mem_singleton.mp hnew, hres]
      exact Option.some_ne_none r
  · intro id
    unfold Wire.framesTo
    rw [hto]
    split
    case isTrue hid =>
      rw [← hid, List.length_append, List.length_singleton, ← range_snoc, ← h.numbered]
    case isFalse =>
      rw [List.append_nil]
      exact h.numbered id
  · intro id r' hr'
    unfold Wire.framesTo
    rw [hto]
    by_cases hr : r' = r
    · have hid : r.sessionId = id := hnamed id r (hr ▸ hr')
      rw [if_pos hid, hr, hself, ← hid, List.length_append]
      exact ⟨congrArg (· + 1) hseq, hepoch⟩
    · have hid : r.sessionId ≠ id := by
        intro hid
        have hr'' : w.channels.get r.sessionId = some r' := hid ▸ hr'
        rw [hcur] at hr''
        exact hr (Option.some.inj hr'').symm
      rw [if_neg hid, List.append_nil, hline r' hr]
      exact h.current id r' hr'

theorem write (h : log.Sound w) {r : RecId} (hcur : w.channels.get r.sessionId = some r)
    (hnamed : ∀ id' r, w.channels.get id' = some r → r.sessionId = id') : log.Sound (w.write r) := by
  unfold Wire.write
  cases hd : (w.lines r).downstream with
  | none => exact h
  | some res => exact h.framed hcur hnamed hd

/-- A line rewritten in a field that counts nothing and connects nothing. -/
theorem setLine (h : log.Sound w) (r : RecId) {f : Line → Line} (hf : ∀ line, (f line).epoch = line.epoch ∧
    (f line).nextSeq = line.nextSeq ∧ ∀ res, (f line).downstream = some res → line.downstream = some res) :
    log.Sound (w.setLine r f) := by
  refine h.loosen rfl rfl (fun r' => ?_) fun _ hopen => hopen
  by_cases hr : r' = r
  · rw [hr, Wire.setLine_self]
    exact hf (w.lines r)
  · rw [Wire.setLine_ne w f hr]
    exact ⟨rfl, rfl, fun _ hd => hd⟩

end ChannelLog.Sound

/-! ## The log and the server -/

/-- The invariant, with what no session not minted yet and no response not made yet has. -/
structure ChannelLog.Ok (s : ServerState) (log : ChannelLog) : Prop where
  sound : log.Sound (wire s)
  unopened : ∀ res, s.next ≤ res → log.opened res = none
  /-- Without a channel, a session that is there or not yet made had no worker. -/
  vacant : ∀ id, s.workerChannels.get id = none → s.sessions.get id ≠ none ∨ s.next ≤ id →
    log.epochs id = [] ∧ (wire s).framesTo log id = []

/-- One signal. -/
theorem ChannelLog.Ok.after {s : ServerState} {log : ChannelLog} (h : log.Ok s) (hg : Grounded s) {sig : Signal}
    (hc : sig.Checked s) : (log.after (wire s) sig).Sound ((wire s).step sig) := by
  have hnamed := named hg.timers
  cases sig with
  | still => exact h.sound
  | registered id serial =>
    obtain ⟨-, session, hs, -⟩ := hc
    refine h.sound.registered hnamed fun hvacant => h.vacant id hvacant (Or.inl ?_)
    rw [hs]
    exact Option.some_ne_none session
  | opened r res => exact h.sound.opened_step hc.2 (h.unopened res (Nat.le_of_eq hc.1.symm))
  | closed r res timer =>
    simp only [Wire.step, ChannelLog.after]
    have hgone : log.Sound { wire s with ended := Function.update (wire s).ended res true } := by
      refine h.sound.loosen rfl rfl (fun r' => ⟨rfl, rfl, fun _ hd => hd⟩) fun res' hopen => ?_
      have hset : Function.update (wire s).ended res true res' = false := hopen
      by_cases hres : res' = res
      · rw [hres, Function.update_self] at hset
        cases hset
      · rwa [Function.update_of_ne hres] at hset
    split
    · exact hgone.setLine r fun line => ⟨rfl, rfl, fun _ hd => by cases hd⟩
    · exact hgone
  | pushed r =>
    have hidle := h.sound.setLine r (f := fun line => { line with idle := none }) fun line => ⟨rfl, rfl, fun _ hd => hd⟩
    exact hidle.write hc.1 hnamed
  | beaten r =>
    obtain ⟨res, hd, hopen⟩ := hc
    exact h.sound.write (h.sound.live r res hd hopen) hnamed
  | reported r idle timer =>
    simp only [Wire.step, ChannelLog.after]
    exact h.sound.setLine r fun line => ⟨rfl, rfl, fun _ hd => hd⟩
  | idleSpent r | evictionSpent r | evictionAgain r timer =>
    simp only [Wire.step, ChannelLog.after]
    exact h.sound.setLine r fun line => ⟨rfl, rfl, fun _ hd => hd⟩
  | reaped id => exact h.sound.reaped id
  | halted =>
    refine h.sound.loosen rfl rfl (fun r => ?_) fun res hopen => ?_
    · simp only [Wire.step]
      split
      · exact ⟨rfl, rfl, fun _ hd => by cases hd⟩
      · exact ⟨rfl, rfl, fun _ hd => hd⟩
    · exact (Bool.or_eq_false_iff.mp hopen).1

/-! ## What a turn writes -/

/-- Only a relay and a heartbeat write a frame, and down the current record's downstream. -/
theorem ChannelLog.Ok.written {s : ServerState} {log : ChannelLog} (h : log.Ok s) {sig : Signal} (hc : sig.Checked s) :
    ∃ written, ((wire s).step sig).frames = (wire s).frames ++ written ∧
      ∀ frame ∈ written, ∃ r, s.workerChannels.get r.sessionId = some r ∧ (s.records r).downstream = some frame.1 ∧
        log.opened frame.1 = some r := by
  have hwrite : ∀ (w : Wire) (r : RecId), w.frames = (wire s).frames →
      (w.lines r).downstream = (s.records r).downstream →
      s.workerChannels.get r.sessionId = some r → ∃ written, (w.write r).frames = (wire s).frames ++ written ∧
        ∀ frame ∈ written, ∃ r, s.workerChannels.get r.sessionId = some r ∧ (s.records r).downstream = some frame.1 ∧
          log.opened frame.1 = some r := by
    intro w r hframes hd hcur
    unfold Wire.write
    rw [hd]
    cases hres : (s.records r).downstream with
    | none => exact ⟨[], by rw [List.append_nil]; exact hframes, fun _ hf => by cases hf⟩
    | some res =>
      refine ⟨[(res, (w.lines r).nextSeq)], congrArg (· ++ _) hframes, fun frame hframe => ⟨r, hcur, ?_⟩⟩
      rw [List.mem_singleton.mp hframe]
      exact ⟨hres, h.sound.opened r res hres⟩
  have hquiet : ((wire s).step sig).frames = (wire s).frames → ∃ written,
      ((wire s).step sig).frames = (wire s).frames ++ written ∧
        ∀ frame ∈ written, ∃ r, s.workerChannels.get r.sessionId = some r ∧ (s.records r).downstream = some frame.1 ∧
          log.opened frame.1 = some r :=
    fun hframes => ⟨[], by rw [List.append_nil]; exact hframes, fun _ hf => by cases hf⟩
  cases sig with
  | pushed r =>
    refine hwrite _ r rfl ?_ hc.1
    exact congrArg Line.downstream (Wire.setLine_self (wire s) r fun line => { line with idle := none })
  | beaten r =>
    obtain ⟨res, hd, hopen⟩ := hc
    exact hwrite _ r rfl rfl (h.sound.live r res hd hopen)
  | registered id serial =>
    refine hquiet ?_
    show ((wire s).supersede ((wire s).channels.get id)).frames = _
    cases (wire s).channels.get id <;> rfl
  | closed r res timer =>
    refine hquiet ?_
    simp only [Wire.step]
    split <;> rfl
  | reaped id =>
    refine hquiet ?_
    simp only [Wire.step]
    split <;> rfl
  | _ => exact hquiet rfl

/-- The record a downstream was opened on is never forgotten. -/
theorem ChannelLog.Ok.opened_kept {s : ServerState} {log : ChannelLog} (h : log.Ok s) {sig : Signal}
    (hc : sig.Checked s)
    {res : Res} (hres : log.opened res ≠ none) : (log.after (wire s) sig).opened res = log.opened res := by
  cases sig with
  | opened r res' =>
    refine Function.update_of_ne ?_ ..
    intro heq
    exact hres (h.unopened res (Nat.le_of_eq (hc.1.symm.trans heq.symm)))
  | _ => rfl

/-- A session without a channel is written nothing and handed no epoch. -/
theorem ChannelLog.Ok.untouched {s : ServerState} {log : ChannelLog} (h : log.Ok s) {sig : Signal} (hc : sig.Checked s)
    {id : SessionId} (hbefore : s.workerChannels.get id = none) (hafter : ((wire s).step sig).channels.get id = none) :
    (log.after (wire s) sig).epochs id = log.epochs id ∧
      ((wire s).step sig).framesTo (log.after (wire s) sig) id = (wire s).framesTo log id := by
  refine ⟨?_, ?_⟩
  · cases sig with
    | registered id' serial =>
      refine Function.update_of_ne ?_ ..
      intro heq
      simp [Wire.step, heq] at hafter
    | _ => rfl
  · obtain ⟨written, hframes, hnew⟩ := h.written hc
    have hold : (wire s).frames.filterMap (fun frame =>
        if ((log.after (wire s) sig).opened frame.1).map (·.sessionId) = some id then some frame.2 else none) =
          (wire s).framesTo log id := by
      refine List.filterMap_congr fun frame hframe => ?_
      rw [h.opened_kept hc (h.sound.owned frame hframe)]
    have hnone : written.filterMap (fun frame =>
        if ((log.after (wire s) sig).opened frame.1).map (·.sessionId) = some id then some frame.2 else none) = [] := by
      refine List.filterMap_eq_nil_iff.mpr fun frame hframe => if_neg ?_
      obtain ⟨r, hcur, -, hopened⟩ := hnew frame hframe
      rw [h.opened_kept hc (by rw [hopened]; exact Option.some_ne_none r), hopened]
      intro hid
      have hown : r.sessionId = id := Option.some.inj hid
      rw [hown, hbefore] at hcur
      cases hcur
    unfold Wire.framesTo
    rw [hframes, List.filterMap_append, hold, hnone, List.append_nil]
    rfl

/-! ## Over whole runs -/

theorem ChannelLog.Ok.watched {s : ServerState} {log : ChannelLog} (h : log.Ok s) (hg : Grounded s) (e : Event) :
    (channelWatch s e log).Ok (step s e) := by
  have hc := signal_checked hg e
  have hgrounded := hg.step e
  have hle := next_le_step s e
  rw [channelWatch_signal]
  refine ⟨?_, ?_, ?_⟩
  · rw [wire_step]
    exact h.after hg hc
  · intro res hres
    have hold : log.opened res = none := h.unopened res (hle.trans hres)
    cases hsig : signal s e with
    | opened r res' =>
      -- the response just opened is held, so it was made
      have hopen : (wire (step s e)).ended res' = false := by
        rw [wire_step, hsig]
        exact Function.update_self ..
      refine (Function.update_of_ne ?_ ..).trans hold
      intro heq
      cases hst : (step s e).streams.get res' with
      | none => simp [wire, hst] at hopen
      | some stream => exact absurd (heq ▸ hres) (Nat.not_le.mpr (hgrounded.timers.stream res' stream hst).2.2.1)
    | _ => exact hold
  · intro id hnone hnew
    have hmove := chan_step hg.timers hg.ok e id
    have hunmade : (step s e).next ≤ id → s.sessions.get id = none := by
      intro hid
      exact congrArg Chan.row (hg.unminted id (hle.trans hid))
    have hbefore : s.workerChannels.get id = none := by
      -- only the session's end takes its channel, and the row with it
      by_contra hlinked
      have hlink : (chan s id).link ≠ none := by
        obtain ⟨r, hr⟩ := Option.ne_none_iff_exists'.mp hlinked
        rw [link_of_current hr]
        exact Option.some_ne_none _
      have hend : observe s e id = .ended := by
        by_contra hend
        refine hlink (Chan.step_linked hend ?_)
        rw [← hmove]
        exact link_none hnone
      have hgone : (step s e).sessions.get id = none := by
        have hrow := congrArg Chan.row hmove
        rw [hend] at hrow
        exact hrow
      obtain ⟨row, hrow, -⟩ := (hg.ok id).linked hlink
      cases (hunmade (hnew.resolve_left fun hne => hne hgone)).symm.trans hrow
    have hafter : ((wire s).step (signal s e)).channels.get id = none := by
      rw [← wire_step]
      exact hnone
    obtain ⟨hepochs, hframes⟩ := h.untouched hc hbefore hafter
    rw [wire_step, hepochs, hframes]
    refine h.vacant id hbefore ?_
    rcases hnew with hrow | hid
    · by_cases hrow' : s.sessions.get id = none
      · have hstep : ((chan s id).step (observe s e id)).row ≠ none := by
          rw [← hmove]
          exact hrow
        have hborn := (hg.ok id).row_born (observe_enabled hg.timers e id) hrow' hstep
        exact Or.inr (Nat.le_of_eq (observe_births hborn).1.symm)
      · exact Or.inl hrow'
    · exact Or.inr (hle.trans hid)

theorem ChannelRun.ok {p : ServerState × ChannelLog} (h : ChannelRun p) : Grounded p.1 ∧ p.2.Ok p.1 := by
  refine h.inv (P := fun p => Grounded p.1 ∧ p.2.Ok p.1) ?_ fun p e hp _ => ⟨hp.1.step e, hp.2.watched hp.1 e⟩
  rintro ⟨s, log⟩ ⟨⟨image, rfl⟩, rfl⟩
  refine ⟨startServer_grounded image, ?_, fun _ _ => rfl, fun _ _ _ => ⟨rfl, rfl⟩⟩
  exact ⟨fun _ _ hd => (by cases hd), fun _ _ hd => (by cases hd), fun _ hf => (by cases hf), fun _ => rfl, fun _ => rfl,
    fun _ _ hr => (by cases hr)⟩

/-! ## The ingest requests -/

/-- The legs behind `readWorkerBody`. -/
inductive IngestLeg where
  | events
  | status
  | delivery

/-- A request of the leg, in the turn its body is complete. -/
def ingest (s : ServerState) (leg : IngestLeg) (id : SessionId) (body : Json) : ServerState × Reply :=
  match leg with
  | .events => handleWorkerEvents s id body
  | .status => handleWorkerStatus s id body
  | .delivery => handleWorkerDelivery s id body

/-- A request's turn is one of the run's, or several without another between them. -/
theorem ingest_run (s : ServerState) (leg : IngestLeg) (id : SessionId) (body : Json) :
    ∃ es, (ingest s leg id body).1 = runFrom step s es := by
  cases leg with
  | events => exact ⟨batch id body, handleWorkerEvents_run s id body⟩
  | status => exact ⟨[.workerStatus id body], rfl⟩
  | delivery =>
    refine ⟨[], ?_⟩
    show (handleWorkerDelivery s id body).1 = s
    unfold handleWorkerDelivery
    repeat' split
    all_goals rfl

theorem sameEpoch_num {workerEpoch : Option Json} {epoch : Nat} (h : sameEpoch workerEpoch epoch = true) :
    workerEpoch = some (.num epoch) := by
  unfold sameEpoch at h
  split at h
  · rw [of_decide_eq_true h]
  · cases h

/-- A body is applied only under the epoch of the record current when it is complete. -/
theorem ingest_fenced {s : ServerState} {leg : IngestLeg} {id : SessionId} {body : Json}
    (h : (ingest s leg id body).1 ≠ s ∨ (ingest s leg id body).2 = .empty) :
    ∃ r, s.workerChannels.get id = some r ∧ body.get (js "worker_epoch") = some (.num (s.records r).epoch) := by
  by_cases hobj : body.isPlainObject = true
  · cases hread : readWorkerBody s id (body.get (js "worker_epoch")) with
    | some r =>
      obtain ⟨hcur, hepoch⟩ := readWorkerBody_some hread
      exact ⟨r, hcur, sameEpoch_num hepoch⟩
    | none =>
      have hturned : ingest s leg id body = (s, supersededReply id) := by
        cases leg <;> simp only [ingest, handleWorkerEvents, handleWorkerStatus,
          handleWorkerDelivery, if_pos hobj, hread]
      rw [hturned] at h
      rcases h with hmoved | hreply
      · exact absurd rfl hmoved
      · cases hreply
  · have hturned : ingest s leg id body = (s, notAnObjectReply) := by
      cases leg <;> simp only [ingest, handleWorkerEvents, handleWorkerStatus, handleWorkerDelivery, if_neg hobj]
    rw [hturned] at h
    rcases h with hmoved | hreply
    · exact absurd rfl hmoved
    · cases hreply

/-! ## Sequencing and fencing -/

/-- A turn, the downstream opened again, another turn, a second registration and a turn after it; the close
    of the first downstream arrives last. -/
def reopened : List Event :=
  [.sessionCreate none (js "/w") .default, .workerRegister 0, .workerEventsStream 0, .injectTurn 0 (js "a"),
    .workerEventsStream 0, .injectTurn 0 (js "b"), .workerRegister 0, .workerEventsStream 0, .injectTurn 0 (js "c"),
    .workerStreamClosed 2]

end Ccctl.Server
