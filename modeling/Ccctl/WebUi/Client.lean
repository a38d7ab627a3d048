import Ccctl.Core.Json
import Ccctl.Lib.OrdMap
import Ccctl.Lib.Reach
import Mathlib.Data.Rat.Cast.Order
/-
  Ccctl.WebUi.Client — the browser client's steering state (`packages/web-ui/src/app.js`, over
  the decisions of `steer-queue.js`, `sessions.js` and `connection.js`).

  One event is one turn of the page's event loop: a tap, a settled poll, an event of the open
  stream, a settled POST. What an `await` comes back with is an event of its own, so every
  order of settlements is a run. A poll is its settlement; that no second one starts while one
  is out restricts nothing here.

  `posted` is every POST in the order issued. A `Submission` is the ghost of a submitted
  steer: its number among the submissions and the head its session was known to have then. The
  code reads neither.
-/

namespace Ccctl.WebUi

open Ccctl.Core Ccctl.Lib

/-! ## The link -/

inductive PollState where
  | pending
  | ok
  | failed
  deriving DecidableEq

inductive StreamState where
  | idle
  | connecting
  | opened
  | reconnecting
  deriving DecidableEq

inductive ConnectionHealth where
  | live
  | reconnecting
  | offline
  deriving DecidableEq

def connectionHealth (poll : PollState) (stream : StreamState) : ConnectionHealth :=
  if poll = .failed then .offline
  else if stream = .connecting ∨ stream = .reconnecting then .reconnecting
  else if poll = .ok then .live
  else .reconnecting

def shouldQueueSteer (verdict : ConnectionHealth) : Bool := verdict = .offline

/-! ## Cursors -/

/-- `Number.isInteger(value) && value >= 0`. -/
def asCursor (q : Rat) : Option Nat := if q.den = 1 ∧ 0 ≤ q.num then some q.num.toNat else none

/-- A row of the polled list: what steering reads of it. -/
structure SessionSummary where
  id : JsString
  cursor : Option Json

def sessionCursor (session : SessionSummary) : Nat :=
  match session.cursor with
  | some (.num q) => (asCursor q).getD 0
  | _ => 0

/-- No `incoming` is a number that is not finite. -/
def laterCursor (current : Nat) (incoming : Option Rat) : Nat :=
  let next := (incoming.bind asCursor).getD current
  if current < next then next else current

/-- The maps hold what `laterCursor` and the one-shot initialisation put there. -/
abbrev Cursors := OrdMap JsString Nat

/-- `map.get(sessionId) ?? 0`. -/
def Cursors.of (map : Cursors) (sessionId : JsString) : Nat := (map.get sessionId).getD 0

def bumpCursor (map : Cursors) (sessionId : JsString) (cursor : Option Rat) : Cursors :=
  let next := laterCursor (map.of sessionId) cursor
  if map.of sessionId < next then map.set sessionId next else map

def eraseAll (map : Cursors) (ids : List JsString) : Cursors := ids.foldl OrdMap.erase map

theorem laterCursor_eq (current : Nat) (incoming : Option Rat) :
    laterCursor current incoming = max current ((incoming.bind asCursor).getD current) := by
  unfold laterCursor
  dsimp only
  split <;> omega

theorem laterCursor_nat (current cursor : Nat) : laterCursor current (some cursor) = max current cursor := by
  have hcursor : asCursor cursor = some cursor := by simp [asCursor]
  rw [laterCursor_eq, Option.bind_some, hcursor, Option.getD_some]

theorem of_bumpCursor (map : Cursors) (sessionId other : JsString) (cursor : Option Rat) :
    (bumpCursor map sessionId cursor).of other =
      if other = sessionId then laterCursor (map.of sessionId) cursor else map.of other := by
  unfold bumpCursor
  dsimp only
  split
  · rw [Cursors.of, OrdMap.get_set]
    split <;> rfl
  · rename_i hstill
    split
    · rename_i hthis
      have hlater := laterCursor_eq (map.of sessionId) cursor
      subst hthis
      omega
    · rfl

theorem bumpCursor_nat (map : Cursors) (sessionId other : JsString) (cursor : Nat) :
    (bumpCursor map sessionId (some cursor)).of other =
      if other = sessionId then max (map.of sessionId) cursor else map.of other := by
  rw [of_bumpCursor, laterCursor_nat]

theorem le_bumpCursor (map : Cursors) (sessionId other : JsString) (cursor : Option Rat) :
    map.of other ≤ (bumpCursor map sessionId cursor).of other := by
  rw [of_bumpCursor, laterCursor_eq]
  split
  · rename_i hthis
    subst hthis
    omega
  · exact le_refl _

theorem of_eraseAll (map : Cursors) (ids : List JsString) (sessionId : JsString) :
    (eraseAll map ids).of sessionId = if sessionId ∈ ids then 0 else map.of sessionId := by
  induction ids generalizing map with
  | nil => simp [eraseAll]
  | cons id rest ih =>
    have hrest : eraseAll map (id :: rest) = eraseAll (map.erase id) rest := rfl
    rw [hrest, ih, Cursors.of, OrdMap.get_erase]
    by_cases hthis : sessionId = id
    · simp [hthis]
    · simp [hthis, Cursors.of]

theorem of_not_has {map : Cursors} {sessionId : JsString} (h : map.has sessionId = false) : map.of sessionId = 0 := by
  rw [Cursors.of, OrdMap.has_eq_false.mp h]
  rfl

def sessionMovedOn (viewedCursor currentCursor : Nat) : Bool := viewedCursor < currentCursor

/-- `diffSessionList(previous, next).removed`. -/
def removedSessions (previous next : List SessionSummary) : List JsString :=
  (previous.map SessionSummary.id).filter fun id => id ∉ next.map SessionSummary.id

inductive ViewMove where
  | select (id : JsString)
  | clear
  | keep

def nextSelection (currentSessionId : Option JsString) (sessions : List SessionSummary) : ViewMove :=
  match currentSessionId with
  | none =>
    match sessions with
    | first :: _ => .select first.id
    | [] => .keep
  | some current => if sessions.any fun session => session.id = current then .keep else .clear

/-! ## The queue -/

structure Submission where
  number : Nat
  head : Nat
  deriving DecidableEq

inductive QueueStatus where
  | pending
  | stale
  deriving DecidableEq

structure QueuedSteer where
  id : Nat
  sessionId : JsString
  command : Json
  cursor : Nat
  status : QueueStatus
  submission : Submission

/-- `typeof command.subtype === "string"` of a plain object. -/
def isCommand (command : Json) : Bool := command.isPlainObject && (Json.asString (command.get (js "subtype"))).isSome

def queuedSteer (id : Nat) (sessionId : JsString) (command : Json) (cursor : Nat) (submission : Submission) :
    Option QueuedSteer :=
  if trim sessionId = [] then none
  else if !isCommand command then none
  else some ⟨id, sessionId, command, cursor, .pending, submission⟩

def cancelQueued (queue : List QueuedSteer) (id : Nat) : List QueuedSteer := queue.filter fun item => item.id ≠ id

/-- `{ send, hold }`. -/
def partitionQueueForFire (queue : List QueuedSteer) (isStale : QueuedSteer → Bool) :
    List QueuedSteer × List QueuedSteer :=
  (queue.filter fun item => !isStale item, (queue.filter isStale).map fun item => { item with status := .stale })

/-! ## The client -/

/-- What issued a POST. -/
inductive Route where
  | direct
  | drain
  /-- "Send anyway" on the row with this handle. -/
  | anyway (id : Nat)
  deriving DecidableEq

structure Post where
  sessionId : JsString
  command : Json
  route : Route
  submission : Submission

structure Client where
  currentSessionId : Option JsString
  renderedSessions : List SessionSummary
  pollState : PollState
  streamState : StreamState
  sessionCursors : Cursors
  viewedCursors : Cursors
  steerQueue : List QueuedSteer
  steerSeq : Nat
  /-- `firingQueue`, with what the drain's loop has yet to send. -/
  firing : Option (List QueuedSteer)
  inFlight : List Post
  posted : List Post
  submitted : Nat

/-- The page as it loads. -/
def Client.new : Client := ⟨none, [], .pending, .idle, .empty, .empty, [], 0, none, [], [], 0⟩

def Client.head (s : Client) (sessionId : JsString) : Nat := s.sessionCursors.of sessionId

def Client.viewed (s : Client) (sessionId : JsString) : Nat := s.viewedCursors.of sessionId

def Client.offline (s : Client) : Bool := shouldQueueSteer (connectionHealth s.pollState s.streamState)

/-- `sendSteerTo` up to its `await`. -/
def sendSteerTo (s : Client) (sessionId : JsString) (command : Json) (route : Route) (submission : Submission) :
    Client :=
  { s with
    inFlight := s.inFlight ++ [⟨sessionId, command, route, submission⟩]
    posted := s.posted ++ [⟨sessionId, command, route, submission⟩] }

/-- The rest of `sendSteerTo`. -/
def steerAnswered (s : Client) (post : Post) (accepted : Bool) : Client :=
  if accepted ∧ s.currentSessionId = some post.sessionId then
    { s with viewedCursors := bumpCursor s.viewedCursors post.sessionId (some (s.head post.sessionId)) }
  else s

def fireSteerQueue (s : Client) : Client :=
  if s.firing.isSome ∨ s.steerQueue = [] then s
  else
    let parts := partitionQueueForFire s.steerQueue fun item => sessionMovedOn item.cursor (s.head item.sessionId)
    match parts.1 with
    | [] => { s with steerQueue := parts.2 }
    | item :: rest =>
      sendSteerTo { s with steerQueue := parts.2, firing := some rest } item.sessionId item.command .drain
        item.submission

/-- The drain's loop after an `await`, and its `finally`. -/
def drainOn (s : Client) : Client :=
  match s.firing with
  | none => s
  | some (item :: rest) => sendSteerTo { s with firing := some rest } item.sessionId item.command .drain item.submission
  | some [] => if s.offline then { s with firing := none } else fireSteerQueue { s with firing := none }

def enqueueSteer (s : Client) (sessionId : JsString) (command : Json) (submission : Submission) : Client :=
  match queuedSteer (s.steerSeq + 1) sessionId command (s.viewed sessionId) submission with
  | none => { s with steerSeq := s.steerSeq + 1 }
  | some item => { s with steerSeq := s.steerSeq + 1, steerQueue := s.steerQueue ++ [item] }

def holdStaleSteer (s : Client) (sessionId : JsString) (command : Json) (cursor : Nat) (submission : Submission) :
    Client :=
  match queuedSteer (s.steerSeq + 1) sessionId command cursor submission with
  | none => { s with steerSeq := s.steerSeq + 1 }
  | some item =>
    { s with steerSeq := s.steerSeq + 1, steerQueue := s.steerQueue ++ [{ item with status := .stale }] }

def steer (s : Client) (command : Option Json) : Client :=
  match command, s.currentSessionId with
  | some command, some sessionId =>
    let submission := ⟨s.submitted, s.head sessionId⟩
    let s := { s with submitted := s.submitted + 1 }
    if s.offline then enqueueSteer s sessionId command submission
    else if sessionMovedOn (s.viewed sessionId) (s.head sessionId) then
      holdStaleSteer s sessionId command (s.viewed sessionId) submission
    else sendSteerTo s sessionId command .direct submission
  | _, _ => s

def sendSteerAnyway (s : Client) (id : Nat) : Client :=
  match s.steerQueue.find? fun queued => queued.id = id with
  | none => s
  | some item =>
    sendSteerTo { s with steerQueue := cancelQueued s.steerQueue id } item.sessionId item.command (.anyway id)
      item.submission

def cancelSteerQueued (s : Client) (id : Nat) : Client := { s with steerQueue := cancelQueued s.steerQueue id }

/-- Its `connect` opens the stream. -/
def selectSession (s : Client) (sessionId : JsString) : Client :=
  if s.currentSessionId = some sessionId then s
  else
    { s with
      currentSessionId := some sessionId
      streamState := .connecting
      viewedCursors :=
        if s.sessionCursors.has sessionId then bumpCursor s.viewedCursors sessionId (some (s.head sessionId))
        else s.viewedCursors }

def recordViewedEvent (s : Client) (sessionId : JsString) (lastEventId : Option Rat) : Client :=
  { s with
    sessionCursors := bumpCursor s.sessionCursors sessionId lastEventId
    viewedCursors := bumpCursor s.viewedCursors sessionId lastEventId }

def applySessionList (s : Client) (sessions : List SessionSummary) : Client :=
  if sessions = [] then { s with renderedSessions := [], sessionCursors := .empty, viewedCursors := .empty }
  else
    let removed := removedSessions s.renderedSessions sessions
    let bumped := sessions.foldl (fun map session => bumpCursor map session.id (some (sessionCursor session)))
      s.sessionCursors
    { s with
      renderedSessions := sessions
      sessionCursors := eraseAll bumped removed
      viewedCursors := eraseAll s.viewedCursors removed }

/-- What `loadSessions` does with the answer of `nextSelection`. -/
def applySelection (s : Client) : ViewMove → Client
  | .select id => selectSession s id
  | .clear => { s with currentSessionId := none, streamState := .idle }
  | .keep => s

/-- The one-shot initialisation. -/
def initViewed (s : Client) : Client :=
  match s.currentSessionId with
  | none => s
  | some current =>
    if s.viewedCursors.has current then s
    else { s with viewedCursors := s.viewedCursors.set current (s.head current) }

/-- `loadSessions` up to the one-shot. -/
def relisted (s : Client) (sessions : List SessionSummary) : Client :=
  let listed := applySessionList { s with pollState := .ok } sessions
  applySelection listed (nextSelection listed.currentSessionId sessions)

def loadSessions (s : Client) (sessions : List SessionSummary) : Client :=
  let loaded := initViewed (relisted s sessions)
  if s.pollState ≠ .ok then fireSteerQueue loaded else loaded

/-! ## Events -/

inductive Event where
  /-- A row tapped, or a deep link or a push followed. -/
  | select (sessionId : JsString)
  | poll (sessions : List SessionSummary)
  | pollFailed
  | streamOpen
  | streamError
  /-- A message of the viewed session's stream, with what its id reads as; a number that is not
      finite is `none`. -/
  | message (lastEventId : Option Rat)
  | steer (command : Option Json)
  | cancel (id : Nat)
  | sendAnyway (id : Nat)
  /-- The POST of the submission with this number settles. -/
  | settled (number : Nat) (accepted : Bool)

/-- What an event of the open stream does, if one is open. -/
def onStream (s : Client) (act : JsString → Client) : Client :=
  match s.currentSessionId with
  | none => s
  | some sessionId => act sessionId

def Client.flight (s : Client) (number : Nat) : Option Post :=
  s.inFlight.find? fun post => post.submission.number = number

/-- A POST leaves the flight, its `sendSteerTo` ends, and the drain that awaited it goes on. -/
def settlePost (s : Client) (number : Nat) (accepted : Bool) : Client :=
  match s.flight number with
  | none => s
  | some post =>
    let landed := { s with inFlight := s.inFlight.filter fun p => p.submission.number ≠ number }
    let answered := steerAnswered landed post accepted
    if post.route = .drain then drainOn answered else answered

def step (s : Client) : Event → Client
  | .select sessionId => selectSession s sessionId
  | .poll sessions => loadSessions s sessions
  | .pollFailed => { s with pollState := .failed }
  | .streamOpen => onStream s fun _ => { s with streamState := .opened }
  | .streamError => onStream s fun _ => { s with streamState := .reconnecting }
  | .message lastEventId => onStream s fun sessionId => recordViewedEvent s sessionId lastEventId
  | .steer command => steer s command
  | .cancel id => cancelSteerQueued s id
  | .sendAnyway id => sendSteerAnyway s id
  | .settled number accepted => settlePost s number accepted

def rowAt (id : JsString) (cursor : Nat) : SessionSummary := ⟨id, some (.num cursor)⟩

def approval : Json := .obj [(js "subtype", .str (js "approve"))]

end Ccctl.WebUi
