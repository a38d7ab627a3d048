import Ccctl.Server.Speaks
/-
  Ccctl.Server.Wire — the downstream side of every worker channel, and what a turn does to it.

  `wire s` is what the channel map, the record objects, the held responses and the frames written
  are in `s`: all records, the superseded ones too, since closures keep them. `Signal` is what a
  turn can do to it, `Wire.step` what then becomes of it, `signal s e` what the event `e` does.
  One turn of the server is one signal (`wire_step`), and each result about epochs, frames and a
  record's timers is an invariant of `Wire.step`.
-/

namespace Ccctl.Server

open Ccctl.Core Ccctl.Lib ServerState

/-- A record object: its downstream, and the handles of its liveness, eviction and idle timers. -/
structure Line where
  epoch : Nat
  downstream : Option Res
  nextSeq : Nat
  liveness : Option TimerId
  eviction : Option TimerId
  idle : Option TimerId
  deriving DecidableEq, Repr

def Line.of (record : WorkerChannelRecord) : Line :=
  ⟨record.epoch, record.downstream, record.nextSeq, record.livenessTimer, record.evictionTimer, record.idleTimer⟩

/-- The record of a fresh registration. -/
def freshLine (prev : Option Line) : Line :=
  ⟨(prev.map (·.epoch)).getD 0 + 1, none, (prev.map (·.nextSeq)).getD 1, none, none, none⟩

/-- `clearLivenessTimer`, `clearEvictionTimer` and `clearIdleTimer`: the record keeps its downstream. -/
def Line.torn (line : Line) : Line := { line with liveness := none, eviction := none, idle := none }

/-- What the results about the downstream read of the server. -/
@[ext]
structure Wire where
  channels : OrdMap SessionId RecId
  lines : RecId → Line
  /-- The response was ended, or is not held. -/
  ended : Res → Bool
  /-- The frames written: the response and the sequence number. -/
  frames : List (Res × Nat)

/-- Of what the server said, the client-event frames. -/
def Out.frame : Out → Option (Res × Nat)
  | .clientEvent res sequenceNum _ => some (res, sequenceNum)
  | _ => none

/-- The wire of a state; a response not held is ended. -/
def wire (s : ServerState) : Wire where
  channels := s.workerChannels
  lines r := Line.of (s.records r)
  ended res := ((s.streams.get res).map (·.writableEnded)).getD true
  frames := s.out.filterMap Out.frame

/-- What a turn can do to it. -/
inductive Signal where
  | still
  /-- A worker registered; the new record's serial. -/
  | registered (sessionId : SessionId) (serial : Nat)
  /-- The downstream `res` was opened on the record, its interval armed as the next handle. -/
  | opened (r : RecId) (res : Res)
  /-- The `close` event of `res`, whose listener captured the record. -/
  | closed (r : RecId) (res : Res) (timer : TimerId)
  /-- A command or a turn was relayed. -/
  | pushed (r : RecId)
  /-- A liveness frame was written. -/
  | beaten (r : RecId)
  /-- A status was applied. -/
  | reported (r : RecId) (idle : Bool) (timer : TimerId)
  /-- The idle timer fired. -/
  | idleSpent (r : RecId)
  /-- An eviction check fired and left the session alone. -/
  | evictionSpent (r : RecId)
  /-- The eviction check found the worker beating and armed the next. -/
  | evictionAgain (r : RecId) (timer : TimerId)
  /-- The session's channel was torn down and forgotten. -/
  | reaped (sessionId : SessionId)
  /-- The server shut down. -/
  | halted
  deriving DecidableEq, Repr

namespace Wire

def setLine (w : Wire) (r : RecId) (f : Line → Line) : Wire :=
  { w with lines := Function.update w.lines r (f (w.lines r)) }

/-- `endDownstream`. -/
def tear (w : Wire) (r : RecId) : Wire :=
  { w.setLine r Line.torn with ended := fun res => w.ended res || decide ((w.lines r).downstream = some res) }

/-- The record a registration supersedes, if there is one. -/
def supersede (w : Wire) : Option RecId → Wire
  | none => w
  | some r => w.tear r

/-- `writeClientEventFrame`. -/
def write (w : Wire) (r : RecId) : Wire :=
  match (w.lines r).downstream with
  | none => w
  | some res =>
    { w.setLine r fun line => { line with nextSeq := line.nextSeq + 1 } with
      frames := w.frames ++ [(res, (w.lines r).nextSeq)] }

def step (w : Wire) : Signal → Wire
  | .still => w
  | .registered id serial =>
    { w.supersede (w.channels.get id) with
      channels := w.channels.set id ⟨id, serial⟩
      lines := Function.update (w.supersede (w.channels.get id)).lines ⟨id, serial⟩
        (freshLine ((w.channels.get id).map w.lines)) }
  | .opened r res =>
    { (w.tear r).setLine r fun line => { line with downstream := some res, liveness := some (res + 1) } with
      ended := Function.update (w.tear r).ended res false }
  | .closed r res timer =>
    -- the response goes with its listener; the record, only while the response is still its downstream
    let gone := { w with ended := Function.update w.ended res true }
    if (w.lines r).downstream = some res then
      gone.setLine r fun line => { line with downstream := none, liveness := none, eviction := some timer }
    else gone
  | .pushed r => (w.setLine r fun line => { line with idle := none }).write r
  | .beaten r => w.write r
  | .reported r idle timer =>
    -- an armed timer stays the one it was
    w.setLine r fun line => { line with idle := if idle then line.idle.or (some timer) else none }
  | .idleSpent r => w.setLine r fun line => { line with idle := none }
  | .evictionSpent r => w.setLine r fun line => { line with eviction := none }
  | .evictionAgain r timer => w.setLine r fun line => { line with eviction := some timer }
  | .reaped id =>
    match w.channels.get id with
    | none => w
    | some r => { w.tear r with channels := w.channels.erase id }
  | .halted =>
    { w with
      lines := fun r => if r ∈ w.channels.values then { (w.lines r).torn with downstream := none } else w.lines r
      ended := fun res => w.ended res || w.channels.values.any fun r => decide ((w.lines r).downstream = some res) }

@[simp] theorem setLine_self (w : Wire) (r : RecId) (f : Line → Line) : (w.setLine r f).lines r = f (w.lines r) :=
  Function.update_self ..

theorem setLine_ne (w : Wire) {r r' : RecId} (f : Line → Line) (hr : r' ≠ r) : (w.setLine r f).lines r' = w.lines r' :=
  Function.update_of_ne hr ..

@[simp] theorem tear_self (w : Wire) (r : RecId) : (w.tear r).lines r = (w.lines r).torn := w.setLine_self r Line.torn

theorem tear_ne (w : Wire) {r r' : RecId} (hr : r' ≠ r) : (w.tear r).lines r' = w.lines r' := w.setLine_ne Line.torn hr

theorem write_channels (w : Wire) (r : RecId) : (w.write r).channels = w.channels := by
  unfold write
  split <;> rfl

/-- A frame written counts, and does nothing else to a record. -/
theorem write_line (w : Wire) (r r' : RecId) : ∃ n, (w.write r).lines r' = { w.lines r' with nextSeq := n } := by
  unfold write
  split
  · exact ⟨(w.lines r').nextSeq, rfl⟩
  · by_cases hr : r' = r
    · subst hr
      refine ⟨(w.lines r').nextSeq + 1, ?_⟩
      exact setLine_self w r' fun line => { line with nextSeq := line.nextSeq + 1 }
    · refine ⟨(w.lines r').nextSeq, ?_⟩
      exact setLine_ne w (fun line => { line with nextSeq := line.nextSeq + 1 }) hr

theorem supersede_ne (w : Wire) {prev : Option RecId} {r : RecId} (hr : prev ≠ some r) :
    (w.supersede prev).lines r = w.lines r := by
  cases prev with
  | none => rfl
  | some r' => exact w.tear_ne fun heq => hr (congrArg some heq.symm)

end Wire

/-! ## What an event does -/

/-- A status report: refused when its number is stale, and when the session has no row. -/
def signalReport (s : ServerState) (r : RecId) (id : SessionId) (status : WorkerStatus) (sequence : Option Nat) :
    Signal :=
  if s.sessions.has id && !isStaleWorkerStatusSequence sequence (s.records r).highestStatusSeq then
    .reported r (decide (status = .idle)) s.next
  else .still

/-- An entry of a worker's events. -/
def signalEntry (s : ServerState) (r : RecId) (id : SessionId) (entry : Json) : Signal :=
  match (entry.get (js "payload")).bind workerStatusEvent with
  | some (status, body) => signalReport s r id status (asWorkerStatusSequence (body.get (js "sequence_num")))
  | none => .still

/-- A status `PUT`. -/
def signalStatus (s : ServerState) (id : SessionId) (body : Json) : Signal :=
  if body.isPlainObject then
    match readWorkerBody s id (body.get (js "worker_epoch")), asWorkerStatus (body.get (js "worker_status")) with
    | some r, some status => signalReport s r id status (asWorkerStatusSequence (body.get (js "sequence_num")))
    | _, _ => .still
  else .still

/-- A frame went down the session's current record. -/
def signalPush (s : ServerState) (id : SessionId) : Signal :=
  match s.workerChannels.get id with
  | some r => .pushed r
  | none => .still

/-- What an eviction check that fires does. -/
def signalEviction (s : ServerState) (id : SessionId) (r : RecId) : Signal :=
  if s.workerChannels.get id ≠ some r ∨ (s.records r).downstream ≠ none then .evictionSpent r
  else
    match s.sessions.get id with
    | none => .evictionSpent r
    | some session =>
      if isSessionStale session s.now s.config.sessionEvictionGraceMs then .reaped id else .evictionAgain r s.next

/-- A timer that fires. -/
def signalFire (s : ServerState) (t : TimerId) : Signal :=
  match s.timers.get t with
  | none => .still
  | some timer =>
    if s.now < timer.due then .still
    else
      match timer.callback with
      | .evictPendingLaunch _ => .still
      | .writeLivenessFrame r res =>
        if (s.records r).downstream ≠ some res ∨ ((s.streams.get res).map (·.writableEnded)).getD true then .still
        else .beaten r
      | .considerEviction id r => signalEviction s id r
      | .fireIdleEvent _ r => .idleSpent r

/-- A liveness reading that settles: only a stop reaps on one. -/
def signalReading (s : ServerState) (op : OpId) (reading : Reading) : Signal :=
  match s.ops.get op with
  | some (.stopReading id _ force) => if decideStop (readLiveness reading) force = .noOp then .reaped id else .still
  | some (.stopVerdict id _ _ liveness) => if unconfirmed liveness (readLiveness reading) then .still else .reaped id
  | _ => .still

/-- What an event does, read off the state before it. -/
def signal (s : ServerState) : Event → Signal
  | .livenessSettled op reading => signalReading s op reading
  | .fire t => signalFire s t
  | .workerRegister id =>
    match s.sessions.get id with
    | none => .still
    | some session => if session.status = .registering then .still else .registered id s.next
  | .workerEventsStream id =>
    match s.sessions.get id, s.workerChannels.get id with
    | some _, some r => .opened r s.next
    | _, _ => .still
  | .workerStreamClosed res =>
    match s.streams.get res with
    | none => .still
    | some stream => .closed stream.record res s.next
  | .workerEvent id workerEpoch entry =>
    match readWorkerBody s id workerEpoch with
    | none => .still
    | some r => signalEntry s r id entry
  | .workerStatus id body => signalStatus s id body
  | .uiCommand id body =>
    match (handleUiCommand s id body).2 with
    | .accepted _ => signalPush s id
    | _ => .still
  | .injectTurn id prompt => if (injectUserTurn s id prompt).isSome then signalPush s id else .still
  | .shutdown => .halted
  | _ => .still

/-- No worker registers, no stream is opened or closed, and the server stays up. -/
def Signal.plain : Signal → Bool
  | .registered _ _ | .opened _ _ | .closed _ _ _ | .halted => false
  | _ => true

/-- Likewise of events. -/
def Event.plain : Event → Bool
  | .workerRegister _ | .workerEventsStream _ | .workerStreamClosed _ | .shutdown => false
  | _ => true

/-- A plain event gives a plain signal. -/
theorem signal_plain (s : ServerState) {e : Event} (he : e.plain = true) : (signal s e).plain = true := by
  have hreport : ∀ r id status sequence, (signalReport s r id status sequence).plain = true := by
    intro r id status sequence
    unfold signalReport
    split <;> rfl
  have hpush : ∀ id, (signalPush s id).plain = true := by
    intro id
    unfold signalPush
    split <;> rfl
  cases e with
  | workerRegister _ | workerEventsStream _ | workerStreamClosed _ | shutdown => cases he
  | livenessSettled op reading =>
    simp only [signal, signalReading]
    repeat' split
    all_goals rfl
  | fire t =>
    simp only [signal, signalFire, signalEviction]
    repeat' split
    all_goals rfl
  | workerEvent id workerEpoch entry =>
    simp only [signal, signalEntry]
    split
    · rfl
    · split
      · exact hreport ..
      · rfl
  | workerStatus id body =>
    simp only [signal, signalStatus]
    split
    · split
      · exact hreport ..
      · rfl
    · rfl
  | uiCommand id body =>
    simp only [signal]
    split
    · exact hpush id
    · rfl
  | injectTurn id prompt =>
    simp only [signal]
    split
    · exact hpush id
    · rfl
  | _ => rfl

/-- Only a shutdown halts. -/
theorem signal_up (s : ServerState) {e : Event} (he : e ≠ .shutdown) : signal s e ≠ .halted := by
  intro hsig
  by_cases hplain : e.plain = true
  · have hquiet := signal_plain s hplain
    rw [hsig] at hquiet
    cases hquiet
  · cases e with
    | shutdown => exact he rfl
    | workerRegister id =>
      simp only [signal] at hsig
      split at hsig
      · cases hsig
      · split at hsig <;> cases hsig
    | workerEventsStream id =>
      simp only [signal] at hsig
      split at hsig <;> cases hsig
    | workerStreamClosed res =>
      simp only [signal] at hsig
      split at hsig <;> cases hsig
    | _ => exact hplain rfl

/-! ## The handlers -/

theorem frames_spoken (out : List Out) : (spoken out .frame).filterMap Out.frame = out.filterMap Out.frame := by
  unfold spoken
  rw [List.filterMap_filter]
  refine List.filterMap_congr fun o _ => ?_
  cases o <;> rfl

theorem Speaks.frames {kinds : List OutKind} {s s' : ServerState} (h : Speaks kinds s s') (hk : .frame ∉ kinds) :
    (wire s').frames = (wire s).frames := by
  show s'.out.filterMap Out.frame = s.out.filterMap Out.frame
  rw [← frames_spoken, h.quiet hk, frames_spoken]

/-- A turn that writes no channel, no held response, no frame, and of records nothing a line shows. -/
theorem wire_of {kinds : List OutKind} {s s' : ServerState} (h : Speaks kinds s s') (hk : .frame ∉ kinds)
    (hchannels : s'.workerChannels = s.workerChannels)
    (hlines : ∀ r, Line.of (s'.records r) = Line.of (s.records r)) (hstreams : s'.streams = s.streams) :
    wire s' = wire s := by
  refine Wire.ext hchannels (funext hlines) ?_ (h.frames hk)
  unfold wire
  rw [hstreams]

theorem lines_set (records : RecId → WorkerChannelRecord) (r : RecId) (record : WorkerChannelRecord) :
    (fun r' => Line.of (Function.update records r record r')) =
      Function.update (fun r' => Line.of (records r')) r (Line.of record) :=
  Function.comp_update Line.of records r record

theorem lines_update (s : ServerState) (r : RecId) {f : WorkerChannelRecord → WorkerChannelRecord} {g : Line → Line}
    (hf : ∀ record, Line.of (f record) = g (Line.of record)) :
    (fun r' => Line.of (Function.update s.records r (f (s.records r)) r')) = ((wire s).setLine r g).lines := by
  rw [lines_set, hf]
  rfl

/-- A record rewritten: what the line shows of it is rewritten alike. -/
theorem modifyRecord_wire (s : ServerState) (r : RecId) {f : WorkerChannelRecord → WorkerChannelRecord}
    {g : Line → Line} (hf : ∀ record, Line.of (f record) = g (Line.of record)) :
    wire (s.modifyRecord r f) = (wire s).setLine r g := Wire.ext rfl (lines_update s r hf) rfl rfl

theorem endedStream_ended (s : ServerState) (downstream : Option Res) (res : Res) :
    (((endedStream s.streams downstream).get res).map (·.writableEnded)).getD true =
      ((wire s).ended res || decide (downstream = some res)) := by
  show _ = (((s.streams.get res).map (·.writableEnded)).getD true || _)
  unfold endedStream
  rw [OrdMap.get_mapVals]
  cases s.streams.get res with
  | none => rfl
  | some stream => by_cases hd : downstream = some res <;> simp [hd]

/-- `endDownstream` is `tear`. -/
theorem endDownstream_wire (s : ServerState) (r : RecId) : wire (endDownstream s r) = (wire s).tear r := by
  refine Wire.ext rfl ?_ (funext (endedStream_ended s _)) ((endDownstream_speaks s r).frames (by simp))
  exact lines_update s r (f := fun record =>
    { record with livenessTimer := none, evictionTimer := none, idleTimer := none }) fun _ => rfl

theorem clearIdleTimer_wire (s : ServerState) (r : RecId) :
    wire (clearIdleTimer s r) = (wire s).setLine r fun line => { line with idle := none } :=
  Wire.ext rfl (lines_update s r (f := fun record => { record with idleTimer := none }) fun _ => rfl) rfl rfl

theorem scheduleEviction_wire (s : ServerState) (id : SessionId) (r : RecId) :
    wire (scheduleEviction s id r) = (wire s).setLine r fun line => { line with eviction := some s.next } :=
  Wire.ext rfl (lines_update s r (f := fun record => { record with evictionTimer := some s.next }) fun _ => rfl) rfl rfl

theorem setLine_congr {w : Wire} {r : RecId} {f g : Line → Line} (h : f (w.lines r) = g (w.lines r)) :
    w.setLine r f = w.setLine r g := by
  unfold Wire.setLine
  rw [h]

theorem setLine_same {w : Wire} {r : RecId} {g : Line → Line} (h : g (w.lines r) = w.lines r) : w.setLine r g = w := by
  refine Wire.ext rfl ?_ rfl rfl
  show Function.update w.lines r (g (w.lines r)) = w.lines
  rw [h, Function.update_eq_self]

/-- The idle leg of a status: arm when idle and not armed, clear when not idle. -/
theorem reconcileIdleTimer_wire {s : ServerState} {id : SessionId} {r : RecId} (hr : s.workerChannels.get id = some r)
    (session : Session) : wire (reconcileIdleTimer s id session) =
      (wire s).step (.reported r (decide (session.activity = .idle)) s.next) := by
  simp only [reconcileIdleTimer, hr, Wire.step]
  by_cases hidle : session.activity = .idle
  · rw [if_pos hidle, decide_eq_true hidle]
    have hline : ((wire s).lines r).idle = (s.records r).idleTimer := rfl
    unfold armIdleTimer
    cases hi : (s.records r).idleTimer with
    | some t =>
      -- armed already
      rw [if_pos (by simp)]
      refine (setLine_same ?_).symm
      rw [if_pos rfl, hline, hi, Option.some_or, ← hi, ← hline]
    | none =>
      rw [if_neg (by simp)]
      have harm := modifyRecord_wire (s.setTimeout s.config.sessionIdleThresholdMs (.fireIdleEvent id r)) r
        (f := fun record => { record with idleTimer := some s.next })
        (g := fun line => { line with idle := some s.next }) fun _ => rfl
      have hnone : ((wire (s.setTimeout s.config.sessionIdleThresholdMs (.fireIdleEvent id r))).lines r).idle = none
        := hi
      refine harm.trans (setLine_congr ?_)
      rw [if_pos rfl, hnone]
      rfl
  · rw [if_neg hidle, decide_eq_false hidle]
    exact clearIdleTimer_wire s r

/-! ## The status legs -/

/-- Of a status applied, only the idle leg shows. -/
theorem applied_wire {s : ServerState} {id : SessionId} {r : RecId} (hr : s.workerChannels.get id = some r)
    (session next : Session) (sequence : Option Nat) : wire (applied s id session next sequence) =
      (wire s).step (.reported r (decide (next.activity = .idle)) s.next) := by
  obtain ⟨files, heq⟩ := applied_eq s id session next sequence
  obtain ⟨eventRelays, out, hneeds⟩ := reconcileNeedsInput_writes
    (reconcileIdleTimer { s with sessions := s.sessions.set id next } id next) id session next
  have hidle := reconcileIdleTimer_wire (s := { s with sessions := s.sessions.set id next }) hr next
  have hsaid := (reconcileNeedsInput_speaks
    (reconcileIdleTimer { s with sessions := s.sessions.set id next } id next) id session next)
  rw [hneeds] at heq hsaid
  rw [heq]
  exact (wire_of (hsaid.of_out rfl rfl) (by simp) rfl (fun _ => rfl) rfl).trans hidle

/-- A fresh report: its number is noted on the record, where no line shows it, and the status applied. -/
theorem report_wire {s : ServerState} {id : SessionId} {r : RecId} (hr : s.workerChannels.get id = some r)
    {session : Session} (hs : s.sessions.get id = some session) (status : WorkerStatus) (detail : Option JsString)
    (now : Nat) {sequence : Option Nat}
    (hfresh : isStaleWorkerStatusSequence sequence (s.records r).highestStatusSeq = false) :
    wire (applied (recordStatusSequence s r sequence) id session
        (applyWorkerStatus session status detail now) sequence) =
      (wire s).step (signalReport s r id status sequence) := by
  have hmark : wire (recordStatusSequence s r sequence) = wire s := by
    rw [recordStatusSequence_eq]
    have hset := modifyRecord_wire s r
      (f := fun record => { record with highestStatusSeq := advanced sequence (s.records r).highestStatusSeq })
      (g := fun line => line) fun _ => rfl
    exact hset.trans (setLine_same rfl)
  have hnext : (recordStatusSequence s r sequence).next = s.next := by
    rw [recordStatusSequence_eq]
    rfl
  have hr' : (recordStatusSequence s r sequence).workerChannels.get id = some r := by
    rw [recordStatusSequence_eq]
    exact hr
  have hidle : decide ((applyWorkerStatus session status detail now).activity = .idle) = decide (status = .idle) :=
    decide_eq_decide.mpr (fromStatus_idle status _)
  have hsignal : signalReport s r id status sequence = .reported r (decide (status = .idle)) s.next := by
    unfold signalReport
    rw [OrdMap.has_eq_true.mpr ⟨session, hs⟩, hfresh]
    rfl
  rw [applied_wire hr', hmark, hnext, hidle, hsignal]

/-- A report that was refused, or that finds no row. -/
theorem signalReport_still {s : ServerState} {id : SessionId} {r : RecId} {sequence : Option Nat}
    (status : WorkerStatus)
    (h : s.sessions.get id = none ∨ isStaleWorkerStatusSequence sequence (s.records r).highestStatusSeq = true) :
    signalReport s r id status sequence = .still := by
  unfold signalReport
  rcases h with hs | hstale
  · rw [OrdMap.has_eq_false.mpr hs]
    rfl
  · rw [hstale, Bool.not_true, Bool.and_false]
    rfl

/-- An entry is relayed to who watches, which no line shows, and folded into the session. -/
theorem relayWorkerEvent_wire {s : ServerState} {id : SessionId} {r : RecId} (hr : s.workerChannels.get id = some r)
    (entry : Json) : wire (relayWorkerEvent s r id entry) = (wire s).step (signalEntry s r id entry) := by
  unfold signalEntry
  cases hp : entry.get (js "payload") with
  | none =>
    rw [relayWorkerEvent_none hp]
    rfl
  | some payload =>
    simp only [relayWorkerEvent, hp, Option.bind_some]
    have hrelay : ∀ s' : ServerState, wire (broadcastEvent (bufferInputRequestEnrichment s' id payload) id
        (.worker payload)) = wire s' := by
      intro s'
      rw [bufferInputRequestEnrichment_eq]
      exact wire_of ((broadcastEvent_speaks _ id _).of_out rfl rfl) (by simp) rfl (fun _ => rfl) rfl
    generalize hf : foldWorkerStatus s r id payload = folded
    have hc := foldWorkerStatus_cases s r id payload
    rw [hf] at hc
    have hseq : ∀ {status : WorkerStatus} {body : Json}, workerStatusEvent payload = some (status, body) →
        workerStatusSequenceFromFrame payload = asWorkerStatusSequence (body.get (js "sequence_num")) := by
      intro status body hev
      simp [workerStatusSequenceFromFrame, hev]
    cases hc with
    | noSession hs =>
      refine (hrelay s).trans ?_
      cases workerStatusEvent payload with
      | none => rfl
      | some event => exact congrArg (wire s).step (signalReport_still event.1 (Or.inl hs)).symm
    | stale hs hstale =>
      rw [if_pos rfl]
      cases hev : workerStatusEvent payload with
      | none => rfl
      | some event =>
        rw [hseq hev] at hstale
        exact congrArg (wire s).step (signalReport_still event.1 (Or.inr hstale)).symm
    | other hev =>
      rw [hev]
      exact hrelay s
    | status hs hev hfresh =>
      rw [hev]
      exact (hrelay _).trans (report_wire hr hs _ _ _ hfresh)

theorem handleWorkerStatus_wire (s : ServerState) (id : SessionId) (body : Json) :
    wire (handleWorkerStatus s id body).1 = (wire s).step (signalStatus s id body) := by
  unfold handleWorkerStatus signalStatus
  by_cases hobj : body.isPlainObject = true
  · rw [if_pos hobj, if_pos hobj]
    cases hread : readWorkerBody s id (body.get (js "worker_epoch")) with
    | none => rfl
    | some r =>
      have hr := (readWorkerBody_some hread).1
      cases hstatus : asWorkerStatus (body.get (js "worker_status")) with
      | none => rfl
      | some status =>
        simp only
        cases hs : s.sessions.get id with
        | none => exact congrArg (wire s).step (signalReport_still status (Or.inl hs)).symm
        | some session =>
          simp only
          split
          case isTrue hstale => exact congrArg (wire s).step (signalReport_still status (Or.inr hstale)).symm
          case isFalse hfresh => exact report_wire hr hs status none _ (by simpa using hfresh)
  · rw [if_neg hobj, if_neg hobj]
    rfl

/-! ## Registration and downstream -/

theorem supersede_wire (s : ServerState) (prev : Option RecId) : wire (supersede s prev) = (wire s).supersede prev := by
  cases prev with
  | none => rfl
  | some r => exact endDownstream_wire s r

theorem freshRecord_line (prev : Option WorkerChannelRecord) :
    Line.of (freshRecord prev) = freshLine (prev.map Line.of) := by
  cases prev <;> rfl

/-- A registration ends the downstream of the record it supersedes and puts a fresh one in its place. -/
theorem handleWorkerRegister_wire (s : ServerState) (id : SessionId) :
    wire (handleWorkerRegister s id).1 = (wire s).step (signal s (.workerRegister id)) := by
  simp only [handleWorkerRegister, signal]
  cases s.sessions.get id with
  | none => rfl
  | some session =>
    simp only
    split
    · rfl
    · have hsup := supersede_wire s (s.workerChannels.get id)
      have hchannels : (supersede s (s.workerChannels.get id)).workerChannels = s.workerChannels := by
        cases s.workerChannels.get id <;> rfl
      have hfresh : Line.of (freshRecord (s.channel id)) =
          freshLine (((wire s).channels.get id).map (wire s).lines) := by
        rw [freshRecord_line, channel, Option.map_map]
        rfl
      have hset : ∀ (s' : ServerState) (next : Nat) (channels : OrdMap SessionId RecId) (r : RecId)
          (record : WorkerChannelRecord),
          wire { s' with next, workerChannels := channels, records := Function.update s'.records r record } =
            { wire s' with channels := channels, lines := Function.update (wire s').lines r (Line.of record) } :=
        fun s' _ _ r record => Wire.ext rfl (lines_set s'.records r record) rfl rfl
      rw [hset, hsup, hchannels, hfresh]
      rfl

/-- A downstream opened: the one before it is ended first. -/
theorem handleWorkerEventsStream_wire (s : ServerState) (id : SessionId) :
    wire (handleWorkerEventsStream s id).1 = (wire s).step (signal s (.workerEventsStream id)) := by
  cases hs : s.sessions.get id with
  | none =>
    simp only [handleWorkerEventsStream, signal, hs]
    rfl
  | some session =>
    cases hr : s.workerChannels.get id with
    | none =>
      simp only [handleWorkerEventsStream, signal, hs, hr]
      rfl
    | some r =>
      simp only [handleWorkerEventsStream, signal, hs, hr]
      have htear := endDownstream_wire s r
      have hframes := congrArg Wire.frames htear
      refine Wire.ext rfl ?_ ?_ hframes
      · funext r'
        by_cases hr' : r' = r
        · subst hr'
          simp [wire, Wire.step, Wire.setLine, Wire.tear, Line.of, Line.torn]
        · simp [wire, Wire.step, Wire.setLine, Wire.tear, Line.of, hr']
      · funext res
        show ((((endDownstream s r).streams.set s.next _).get res).map (·.writableEnded)).getD true =
          Function.update ((wire s).tear r).ended s.next false res
        rw [OrdMap.get_set]
        by_cases hres : res = s.next
        · rw [if_pos hres, hres, Function.update_self]
          rfl
        · rw [if_neg hres, Function.update_of_ne hres]
          exact congrFun (congrArg Wire.ended htear) res

theorem forgetStream_wire (s : ServerState) (res : Res) (timer : Option TimerId) :
    wire ({ s with streams := s.streams.erase res }.clearTimeout timer) =
      { wire s with ended := Function.update (wire s).ended res true } := by
  refine Wire.ext rfl rfl ?_ rfl
  funext res'
  show (((s.streams.erase res).get res').map (·.writableEnded)).getD true = Function.update (wire s).ended res true res'
  rw [OrdMap.get_erase]
  by_cases hres : res' = res
  · rw [if_pos hres, hres, Function.update_self]
    rfl
  · rw [if_neg hres, Function.update_of_ne hres]
    rfl

/-- The `close` of a response: the record is disconnected only where it still holds that response. -/
theorem closeWorkerStream_wire (s : ServerState) (res : Res) :
    wire (closeWorkerStream s res) = (wire s).step (signal s (.workerStreamClosed res)) := by
  cases hst : s.streams.get res with
  | none =>
    simp only [closeWorkerStream, signal, hst]
    rfl
  | some stream =>
    simp only [closeWorkerStream, signal, hst, Wire.step, clearTimeout_records]
    have hgone := forgetStream_wire s res (some stream.timer)
    have hline : ((wire s).lines stream.record).downstream = (s.records stream.record).downstream := rfl
    by_cases hd : (s.records stream.record).downstream = some res
    · rw [if_pos hd, hline, if_pos hd, scheduleEviction_wire]
      have hoff := modifyRecord_wire ({ s with streams := s.streams.erase res }.clearTimeout (some stream.timer))
        stream.record (f := fun record => { record with downstream := none, livenessTimer := none })
        (g := fun line => { line with downstream := none, liveness := none }) fun _ => rfl
      rw [hoff, hgone]
      refine Wire.ext rfl ?_ rfl rfl
      simp [Wire.setLine]
    · rw [if_neg hd, hline, if_neg hd]
      exact hgone

/-! ## Frames -/

/-- A frame goes out and is counted, or there is no downstream. -/
theorem writeClientEventFrame_wire (s : ServerState) (r : RecId) (payload : ClientPayload) :
    wire (writeClientEventFrame s r payload) = (wire s).write r := by
  have hline : ((wire s).lines r).downstream = (s.records r).downstream := rfl
  unfold writeClientEventFrame Wire.write
  rw [hline]
  cases (s.records r).downstream with
  | none => rfl
  | some res =>
    refine Wire.ext rfl ?_ rfl ?_
    · exact lines_update s r (f := fun record => { record with nextSeq := record.nextSeq + 1 })
        (g := fun line => { line with nextSeq := line.nextSeq + 1 }) fun _ => rfl
    · exact List.filterMap_append

/-- A push goes down the current record and disarms its idle timer. -/
theorem pushClientEvent_wire {s s' : ServerState} {id : SessionId} {payload : ClientPayload}
    (h : pushClientEvent s id payload = some s') : wire s' = (wire s).step (signalPush s id) := by
  unfold pushClientEvent at h
  unfold signalPush
  cases hr : s.workerChannels.get id with
  | none =>
    rw [hr] at h
    cases h
  | some r =>
    rw [hr] at h
    simp only at h
    split at h
    · cases h
    · cases h
      rw [writeClientEventFrame_wire, clearIdleTimer_wire]
      rfl

theorem handleUiCommand_wire (s : ServerState) (id : SessionId) (body : Option Json) :
    wire (handleUiCommand s id body).1 = (wire s).step (signal s (.uiCommand id body)) := by
  have hc := handleUiCommand_cases s id body
  show _ = (wire s).step (match (handleUiCommand s id body).2 with
    | .accepted _ => signalPush s id
    | _ => .still)
  generalize handleUiCommand s id body = result at hc ⊢
  cases hc with
  | refused reply hne =>
    cases reply with
    | accepted n => exact absurd rfl (hne n)
    | _ => rfl
  | relayed hparse hok hpush =>
    have hpushed := pushClientEvent_wire hpush
    simp only
    split
    · exact hpushed
    · exact hpushed

/-! ## Timers, readings and the shutdown -/

theorem closeSession_wire (s : ServerState) (id : SessionId) : wire (closeSession s id).1 = wire s := by
  have hsaid := closeSession_speaks s id
  obtain ⟨_, _, _, _, _, heq⟩ := closeSession_writes s id
  rw [heq] at hsaid ⊢
  exact wire_of hsaid (by simp) rfl (fun _ => rfl) rfl

/-- The channel torn down, and the session's entry with it. -/
theorem reapWorkerChannel_wire (s : ServerState) (id : SessionId) :
    wire (reapWorkerChannel s id) = (wire s).step (.reaped id) := by
  have hchannels : (wire s).channels = s.workerChannels := rfl
  simp only [reapWorkerChannel, Wire.step, hchannels]
  cases s.workerChannels.get id with
  | none => rfl
  | some r =>
    have htear := endDownstream_wire s r
    have hset : ∀ (s' : ServerState) (channels : OrdMap SessionId RecId),
        wire { s' with workerChannels := channels } = { wire s' with channels := channels } := fun _ _ => rfl
    simp only
    rw [hset, htear]
    rfl

theorem tear_spent (w : Wire) (r : RecId) :
    (w.setLine r fun line => { line with eviction := none }).tear r = w.tear r := by
  refine Wire.ext rfl ?_ ?_ rfl
  · simp [Wire.tear, Wire.setLine, Line.torn]
  · simp [Wire.tear, Wire.setLine]

/-- An eviction check: superseded or connected, it is spent; stale, it reaps; else it arms the next. -/
theorem considerEviction_wire (s : ServerState) (id : SessionId) (r : RecId) :
    wire (considerEviction s id r) = (wire s).step (signalEviction s id r) := by
  have hspent := modifyRecord_wire s r (f := fun record => { record with evictionTimer := none })
    (g := fun line => { line with eviction := none }) fun _ => rfl
  have hdown : ((s.modifyRecord r fun record => { record with evictionTimer := none }).records r).downstream =
      (s.records r).downstream := by
    rw [modifyRecord_records, Function.update_self]
  unfold considerEviction signalEviction
  simp only [modifyRecord_workerChannels, modifyRecord_sessions, modifyRecord_now, modifyRecord_config, hdown]
  by_cases hcur : s.workerChannels.get id = some r
  · by_cases hd : (s.records r).downstream = none
    · rw [if_neg (not_not.mpr hcur), if_neg (not_not.mpr hd), if_neg (not_or.mpr ⟨not_not.mpr hcur, not_not.mpr hd⟩)]
      cases hs : s.sessions.get id with
      | none => exact hspent
      | some session =>
        simp only
        by_cases hstale : isSessionStale session s.now s.config.sessionEvictionGraceMs = true
        · rw [if_pos hstale, if_pos hstale, reapWorkerChannel_wire, closeSession_wire, hspent]
          have hchannel : (wire s).channels.get id = some r := hcur
          have hchannel' : ((wire s).setLine r fun line => { line with eviction := none }).channels.get id =
            some r := hcur
          simp only [Wire.step, hchannel, hchannel', tear_spent]
          rfl
        · rw [if_neg hstale, if_neg hstale, scheduleEviction_wire, hspent]
          refine Wire.ext rfl ?_ rfl rfl
          simp [Wire.step, Wire.setLine]
    · rw [if_neg (not_not.mpr hcur), if_pos hd, if_pos (Or.inr hd)]
      exact hspent
  · rw [if_pos hcur, if_pos (Or.inl hcur)]
    exact hspent

theorem fireIdleEvent_wire (s : ServerState) (id : SessionId) (r : RecId) :
    wire (fireIdleEvent s id r) = (wire s).step (.idleSpent r) := by
  have hspent := modifyRecord_wire s r (f := fun record => { record with idleTimer := none })
    (g := fun line => { line with idle := none }) fun _ => rfl
  have hnudge : ∀ s' : ServerState, ∀ payload, wire (broadcastEvent s' id payload) = wire s' := fun s' payload =>
    wire_of (broadcastEvent_speaks s' id payload) (by simp) rfl (fun _ => rfl) rfl
  unfold fireIdleEvent
  simp only
  split
  · exact hspent
  · split
    · exact hspent
    · split
      · exact hspent
      · split
        · exact hspent
        · exact (hnudge _ _).trans hspent

theorem consumePendingLaunch_wire (s : ServerState) (id : SessionId) : wire (consumePendingLaunch s id).1 = wire s := by
  obtain ⟨timers, pendingLaunches, heq⟩ := consumePendingLaunch_writes s id
  rw [heq]
  rfl

theorem dropPlaceholder_wire (s : ServerState) (id : SessionId) : wire (dropPlaceholder s id) = wire s :=
  wire_of (dropPlaceholder_speaks s id) (by simp) rfl (fun _ => rfl) rfl

theorem evictPendingLaunch_wire (s : ServerState) (id : SessionId) : wire (evictPendingLaunch s id) = wire s := by
  have hdrop := (dropPlaceholder_wire (consumePendingLaunch s id).1 id).trans (consumePendingLaunch_wire s id)
  rcases evictPendingLaunch_writes s id with heq | ⟨_, _, -, heq⟩
  · rw [heq]
  · rw [heq]
    exact hdrop

theorem writeLivenessFrame_wire (s : ServerState) (r : RecId) (res : Res) :
    wire (writeLivenessFrame s r res) = (wire s).step
      (if (s.records r).downstream ≠ some res ∨ ((s.streams.get res).map (·.writableEnded)).getD true then .still
        else .beaten r) := by
  unfold writeLivenessFrame
  split
  · rfl
  · exact writeClientEventFrame_wire s r _

theorem fire_wire (s : ServerState) (t : TimerId) : wire (fire s t) = (wire s).step (signalFire s t) := by
  unfold fire signalFire
  cases s.timers.get t with
  | none => rfl
  | some timer =>
    simp only
    split
    · rfl
    · cases timer.callback with
      | writeLivenessFrame r res => exact writeLivenessFrame_wire _ r res
      | evictPendingLaunch id => exact evictPendingLaunch_wire _ id
      | considerEviction id r => exact considerEviction_wire _ id r
      | fireIdleEvent id r => exact fireIdleEvent_wire _ id r

theorem concludeStop_wire (s : ServerState) (id : SessionId) (outcome : String) :
    wire (concludeStop s id outcome).1 = (wire s).step (.reaped id) := by
  rw [concludeStop_fst, closeSession_wire, reapWorkerChannel_wire, consumePendingLaunch_wire]
  rfl

/-- Of the operations a reading settles, only a stop that is through reaps a channel. -/
theorem livenessSettled_wire (s : ServerState) (op : OpId) (reading : Reading) :
    wire (livenessSettled s op reading).1 = (wire s).step (signalReading s op reading) := by
  have hclose : ∀ (s' : ServerState) (surface : SurfaceId) (caller : OpId),
      wire (s'.emit (.closeSurface surface caller)) = wire s' := by
    intro s' surface caller
    exact Wire.ext rfl rfl rfl ((List.filterMap_append).trans (List.append_nil _))
  unfold livenessSettled signalReading
  cases hop : s.ops.get op with
  | none => rfl
  | some at_ =>
    cases at_ with
    | launching | evictClosing | stopClosing | releaseClosing => rfl
    | evictReading id launched =>
      simp only [evictRead]
      cases decideRelease (readLiveness reading) with
      | tearDown => exact hclose s launched.surface op
      | _ => rfl
    | stopReading id launched force =>
      simp only [stopRead]
      cases decideStop (readLiveness reading) force with
      | leaveRunning => rfl
      | noOp => exact concludeStop_wire (s.finish op) id _
      | tearDown => exact hclose s launched.surface op
    | stopVerdict id launched force liveness =>
      simp only [stopConfirmed]
      cases unconfirmed liveness (readLiveness reading) with
      | true => rfl
      | false => exact concludeStop_wire (s.finish op) id _
    | releaseReading launched =>
      simp only [releaseRead]
      cases decideRelease (readLiveness reading) with
      | tearDown => exact hclose s launched.surface op
      | _ => rfl

/-- A record torn and disconnected. -/
def Wire.halt (w : Wire) (r : RecId) : Wire := (w.tear r).setLine r fun line => { line with downstream := none }

/-- `closeWorkerChannels` on one record. -/
theorem halt_wire (s : ServerState) (r : RecId) :
    wire ((endDownstream s r).modifyRecord r fun record => { record with downstream := none }) = (wire s).halt r := by
  have hoff := modifyRecord_wire (endDownstream s r) r (f := fun record => { record with downstream := none })
    (g := fun line => { line with downstream := none }) fun _ => rfl
  rw [hoff, endDownstream_wire]
  rfl

theorem halt_line (w : Wire) (r r' : RecId) :
    (w.halt r).lines r' = if r' = r then { (w.lines r').torn with downstream := none } else w.lines r' := by
  by_cases hr : r' = r
  · subst hr
    simp [Wire.halt, Wire.setLine, Wire.tear]
  · simp [Wire.halt, Wire.setLine, Wire.tear, hr]

/-- Halting records one after the other: each is torn, and exactly their responses are ended. -/
theorem halt_fold (rs : List RecId) (w : Wire) : rs.foldl Wire.halt w =
    { w with
      lines := fun r => if r ∈ rs then { (w.lines r).torn with downstream := none } else w.lines r
      ended := fun res => w.ended res || rs.any fun r => decide ((w.lines r).downstream = some res) } := by
  induction rs generalizing w with
  | nil => exact Wire.ext rfl (funext fun _ => rfl) (funext fun res => (Bool.or_false _).symm) rfl
  | cons r rs ih =>
    rw [List.foldl_cons, ih]
    refine Wire.ext rfl ?_ ?_ rfl
    · funext r'
      simp only [halt_line]
      by_cases hr : r' = r
      · subst hr
        simp [Line.torn]
      · simp [hr]
    · funext res
      have hended : (w.halt r).ended res = (w.ended res || decide ((w.lines r).downstream = some res)) := rfl
      simp only [hended, halt_line, List.any_cons]
      cases hd : decide ((w.lines r).downstream = some res) with
      | true => simp
      | false =>
        rw [Bool.or_false, Bool.false_or]
        refine congrArg (w.ended res || rs.any ·) (funext fun r' => ?_)
        by_cases hr : r' = r
        · rw [if_pos hr, hr, hd]
          rfl
        · rw [if_neg hr]

theorem closeWorkerChannels_wire (rs : List RecId) (s : ServerState) :
    wire (rs.foldl (fun s r => (endDownstream s r).modifyRecord r fun record => { record with downstream := none }) s) =
      rs.foldl Wire.halt (wire s) := by
  induction rs generalizing s with
  | nil => rfl
  | cons r rs ih =>
    rw [List.foldl_cons, List.foldl_cons, ← halt_wire]
    exact ih _

theorem releaseLaunchedSessions_wire (s : ServerState) : wire (releaseLaunchedSessions s) = wire s := by
  obtain ⟨ops, next, hrel, -⟩ :=
    startRelease_fold (clearPendingLaunches s).launchedSurfaces.values (clearPendingLaunches s)
  unfold releaseLaunchedSessions
  simp only
  rw [hrel]
  rfl

/-- A shutdown halts every record of the channel map; the releases it starts touch none. -/
theorem shutdown_wire (s : ServerState) : wire (shutdown s) = (wire s).step .halted := by
  have hstreams : wire (closeEventStreams s) = wire s :=
    wire_of (closeEventStreams_speaks s) (by simp) rfl (fun _ => rfl) rfl
  have hclose : wire (closeWorkerChannels (closeEventStreams s)) = (wire s).step .halted := by
    unfold closeWorkerChannels
    rw [closeWorkerChannels_wire, hstreams]
    exact halt_fold _ _
  exact (releaseLaunchedSessions_wire _).trans hclose

/-! ## Every turn -/

theorem launchOpened_wire (s : ServerState) (op : OpId) (options : SessionLaunchOptions)
    (hookInstall : Option HookInstall) (attachable : Bool) (hint : String) :
    wire (launchOpened s op options hookInstall attachable hint).1 = wire s := by
  rw [launchOpened_eq]
  rfl

theorem claimPendingLaunch_wire (s : ServerState) (cwd : Path) (mode : PermissionMode) :
    wire (claimPendingLaunch s cwd mode).1 = wire s := by
  have hsaid := claimPendingLaunch_speaks s cwd mode
  obtain ⟨_, _, _, _, _, heq⟩ := claimPendingLaunch_writes s cwd mode
  rw [heq] at hsaid ⊢
  exact wire_of hsaid (by simp) rfl (fun _ => rfl) rfl

/-- One turn of the server is one signal of the wire. -/
theorem wire_step (s : ServerState) (e : Event) : wire (step s e) = (wire s).step (signal s e) := by
  cases e with
  | advance _ | changeDisk _ => rfl
  | writeHookFile path entry => cases entry <;> rfl
  | launchSession options hookOk =>
    rcases launchSession_cases s options hookOk with ⟨_, _, _, heq⟩ | ⟨_, _, _, _, heq, -⟩
    · simp only [step, turn, heq]
      rfl
    · simp only [step, turn, heq]
      rfl
  | launchOpened op attachable hint =>
    simp only [step, turn, launchSettled]
    split
    · exact launchOpened_wire s _ _ _ _ _
    · rfl
  | launchFailed op code message =>
    simp only [step, turn, launchSettled]
    split
    · rw [launchFailed_eq]
      rfl
    · rfl
  | sessionCreate terminal cwd mode =>
    have hclaim := claimPendingLaunch_wire s cwd mode
    refine Eq.trans ?_ hclaim
    exact wire_of (.one (List.mem_singleton_self OutKind.work) rfl) (by simp) rfl (fun _ => rfl) rfl
  | stopSession id force =>
    rcases stopSession_cases s id force with ⟨_, _, _, heq⟩ | ⟨_, -, -, heq⟩
    · simp only [step, turn, heq]
      rfl
    · simp only [step, turn, heq]
      rfl
  | livenessSettled op reading => exact livenessSettled_wire s op reading
  | closeSettled op fulfilled =>
    simp only [step, turn, closeSettled]
    split
    · rfl
    · unfold stopClosed
      split <;> rfl
    · rfl
    · rfl
  | fire t => exact fire_wire s t
  | workerRegister id => exact handleWorkerRegister_wire s id
  | workerEventsStream id => exact handleWorkerEventsStream_wire s id
  | workerStreamClosed res => exact closeWorkerStream_wire s res
  | workerEvent id workerEpoch entry =>
    simp only [step, turn, handleWorkerEvent, signal]
    cases hread : readWorkerBody s id workerEpoch with
    | none => rfl
    | some r => exact relayWorkerEvent_wire (readWorkerBody_some hread).1 entry
  | workerStatus id body => exact handleWorkerStatus_wire s id body
  | workerHeartbeat id =>
    simp only [step, turn, handleWorkerHeartbeat]
    split
    · rfl
    · split <;> rfl
  | uiEventStream id lastEventId =>
    have hkeep : (handleEventStream s id lastEventId).1.workerChannels = s.workerChannels ∧
        (handleEventStream s id lastEventId).1.records = s.records ∧
        (handleEventStream s id lastEventId).1.streams = s.streams := by
      unfold handleEventStream
      split <;> exact ⟨rfl, rfl, rfl⟩
    obtain ⟨hchannels, hrecords, hstreams⟩ := hkeep
    have hlines : ∀ r, Line.of ((handleEventStream s id lastEventId).1.records r) = Line.of (s.records r) := fun r => by
      rw [hrecords]
    exact wire_of (handleEventStream_speaks s id lastEventId) (by simp) hchannels hlines hstreams
  | uiStreamClosed id res => rfl
  | uiCommand id body => exact handleUiCommand_wire s id body
  | injectTurn id prompt =>
    simp only [step, turn, signal]
    cases hp : injectUserTurn s id prompt with
    | none => rfl
    | some s' => exact pushClientEvent_wire hp
  | shutdown => exact shutdown_wire s

/-! ## What the handlers checked -/

/-- What is known when a signal happens. -/
def Signal.Checked (s : ServerState) : Signal → Prop
  | .registered id serial => serial = s.next ∧
      ∃ session, s.sessions.get id = some session ∧ session.status ≠ .registering
  | .opened r res => res = s.next ∧ s.workerChannels.get r.sessionId = some r
  | .closed r res timer => timer = s.next ∧ ∃ stream, s.streams.get res = some stream ∧ stream.record = r
  | .pushed r => s.workerChannels.get r.sessionId = some r ∧ (s.records r).downstream ≠ none
  | .beaten r => ∃ res, (s.records r).downstream = some res ∧ (wire s).ended res = false
  | .reported r _ timer => timer = s.next ∧ s.workerChannels.get r.sessionId = some r
  | .idleSpent r => (s.records r).idleTimer ≠ none
  | .evictionSpent r => (s.records r).evictionTimer ≠ none ∧ s.workerChannels.get r.sessionId ≠ some r
  | .evictionAgain r timer => timer = s.next ∧ s.workerChannels.get r.sessionId = some r ∧
      (s.records r).downstream = none
  | _ => True

theorem signalReport_checked {s : ServerState} {id : SessionId} {r : RecId} (h : TimersOk s)
    (hr : s.workerChannels.get id = some r) (status : WorkerStatus) (sequence : Option Nat) :
    (signalReport s r id status sequence).Checked s := by
  unfold signalReport
  split
  · refine ⟨rfl, ?_⟩
    rw [named h id r hr]
    exact hr
  · trivial

theorem pushClientEvent_live {s s' : ServerState} {id : SessionId} {payload : ClientPayload}
    (h : pushClientEvent s id payload = some s') :
    ∃ r, s.workerChannels.get id = some r ∧ (s.records r).downstream ≠ none := by
  unfold pushClientEvent at h
  split at h
  · cases h
  · rename_i r hr
    split at h
    · cases h
    · exact ⟨r, hr, ‹_›⟩

theorem signalPush_checked {s : ServerState} {id : SessionId} (h : TimersOk s)
    (hlive : ∃ r, s.workerChannels.get id = some r ∧ (s.records r).downstream ≠ none) :
    (signalPush s id).Checked s := by
  obtain ⟨r, hr, hd⟩ := hlive
  unfold signalPush
  rw [hr]
  refine ⟨?_, hd⟩
  rw [named h id r hr]
  exact hr

/-- A timer that fires is one its owner still holds: so the check it makes is about the record that armed it. -/
theorem signalFire_checked {s : ServerState} (hg : Grounded s) (t : TimerId) : (signalFire s t).Checked s := by
  have harmed := hg.timers.armed
  unfold signalFire
  cases ht : s.timers.get t with
  | none => trivial
  | some timer =>
    obtain ⟨due, callback⟩ := timer
    have howner : owner s.records s.pendingLaunches callback = some t := harmed.owner_of_get ht
    simp only
    split
    · trivial
    · cases callback with
      | evictPendingLaunch id => trivial
      | writeLivenessFrame r res =>
        simp only
        split
        · trivial
        · rename_i hlive
          rw [not_or, not_not] at hlive
          have hopen : ((s.streams.get res).map (·.writableEnded)).getD true = false := by simpa using hlive.2
          exact ⟨res, hlive.1, hopen⟩
      | fireIdleEvent id r =>
        simp only [owner] at howner
        split at howner
        · show (s.records r).idleTimer ≠ none
          rw [howner]
          exact Option.some_ne_none t
        · cases howner
      | considerEviction id r =>
        simp only [owner] at howner
        split at howner
        · rename_i hid
          subst hid
          have hoff : (s.records r).downstream = none := by
            by_contra hd
            rw [hg.timers.connected r hd] at howner
            cases howner
          simp only [signalEviction]
          split
          · rename_i hcond
            refine ⟨?_, ?_⟩
            · rw [howner]
              exact Option.some_ne_none t
            · rcases hcond with hcur | hd
              · exact hcur
              · exact absurd hoff hd
          · rename_i hcond
            rw [not_or, not_not, not_not] at hcond
            -- a current record has a row, so the check without one does not come to be
            have hlinked : (chan s r.sessionId).link ≠ none := by simp [link_of_current hcond.1]
            obtain ⟨row, hrow, -⟩ := (hg.ok r.sessionId).linked hlinked
            have hrow' : s.sessions.get r.sessionId = some row := hrow
            rw [hrow']
            simp only
            split
            · trivial
            · exact ⟨rfl, hcond⟩
        · cases howner

/-- Whatever the event. -/
theorem signal_checked {s : ServerState} (hg : Grounded s) (e : Event) : (signal s e).Checked s := by
  cases e with
  | livenessSettled op reading =>
    simp only [signal, signalReading]
    split
    · split <;> trivial
    · split <;> trivial
    · trivial
  | fire t => exact signalFire_checked hg t
  | workerRegister id =>
    simp only [signal]
    cases hs : s.sessions.get id with
    | none => trivial
    | some session =>
      simp only
      split
      · trivial
      · exact ⟨rfl, session, hs, ‹_›⟩
  | workerEventsStream id =>
    simp only [signal]
    split
    · rename_i session r hs hr
      refine ⟨rfl, ?_⟩
      rw [named hg.timers id r hr]
      exact hr
    · trivial
  | workerStreamClosed res =>
    simp only [signal]
    cases hst : s.streams.get res with
    | none => trivial
    | some stream => exact ⟨rfl, stream, hst, rfl⟩
  | workerEvent id workerEpoch entry =>
    simp only [signal]
    cases hread : readWorkerBody s id workerEpoch with
    | none => trivial
    | some r =>
      simp only [signalEntry]
      split
      · exact signalReport_checked hg.timers (readWorkerBody_some hread).1 _ _
      · trivial
  | workerStatus id body =>
    simp only [signal, signalStatus]
    split
    · split
      · rename_i r status hread hstatus
        exact signalReport_checked hg.timers (readWorkerBody_some hread).1 _ _
      · trivial
    · trivial
  | uiCommand id body =>
    have hc := handleUiCommand_cases s id body
    show Signal.Checked s (match (handleUiCommand s id body).2 with
      | .accepted _ => signalPush s id
      | _ => .still)
    generalize handleUiCommand s id body = result at hc ⊢
    cases hc with
    | refused reply hne =>
      cases reply with
      | accepted n => exact absurd rfl (hne n)
      | _ => trivial
    | relayed hparse hok hpush =>
      have hlive := pushClientEvent_live hpush
      exact signalPush_checked hg.timers hlive
  | injectTurn id prompt =>
    simp only [signal]
    cases hp : injectUserTurn s id prompt with
    | none => trivial
    | some s' => exact signalPush_checked hg.timers (pushClientEvent_live hp)
  | shutdown => trivial
  | _ => trivial

end Ccctl.Server
