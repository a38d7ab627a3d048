import Ccctl.Server.State
/-
  Ccctl.Server.WorkPoll — the environments and their work queues
  (`packages/server/src/environments-bridge.ts`: `handleEnvironmentRegister`, `handleWorkPoll`,
  `settlePendingPolls`, `enqueueWork`, `enqueueSessionWork`, `flushWaiter`, `isResponseClosed`).

  A poll that finds the queue empty is held. Its waiter is a closure, which the timer, the `close`
  listener and a loop over a copy of the set keep after the set let it go; so waiters live in
  `polls`, and an environment's `waiters` are names into it. `settled` is the closure's own guard,
  `writableEnded` and `destroyed` are what the response reports.

  A client disconnects outside the server. The response learns of it (`destroyed`) and the
  request's `close` event comes, in either order and at any later time.

  `answered` is what was written to polls, oldest first. The methods and the credential are checked
  before any of this, and `maxSessions` is read nowhere here.
-/

namespace Ccctl.Server

open Ccctl.Core Ccctl.Lib

abbrev EnvironmentId := Nat

inductive WorkItemType where
  | session | healthcheck
  deriving DecidableEq, Repr

structure WorkItemData where
  type : WorkItemType
  id : Option SessionId
  deriving DecidableEq, Repr

structure WorkItem where
  id : Nat
  secret : JsString
  data : WorkItemData
  deriving DecidableEq, Repr

/-- A held poll: its closure, its response, and whether its client is still there. -/
structure PollWaiter where
  environmentId : EnvironmentId
  timer : TimerId
  settled : Bool
  writableEnded : Bool
  destroyed : Bool
  disconnected : Bool
  deriving DecidableEq, Repr

structure EnvironmentRecord where
  queue : List WorkItem
  /-- In the order they were added. -/
  waiters : List Res
  deriving DecidableEq, Repr

/-- A poll's answer: one item, or the empty body. -/
structure PollAnswer where
  environmentId : EnvironmentId
  res : Res
  item : Option WorkItem
  deriving DecidableEq, Repr

structure BridgeState where
  now : Nat
  next : Nat
  workPollTimeoutMs : Nat
  environments : OrdMap EnvironmentId EnvironmentRecord
  /-- Every poll that was ever held. -/
  polls : OrdMap Res PollWaiter
  timers : OrdMap TimerId (Timer Res)
  answered : List PollAnswer

/-- What a poll's request is answered with at once. -/
inductive PollReply where
  | error (status : Nat) (message : String)
  | work (item : WorkItem)
  | held (res : Res)
  deriving DecidableEq, Repr

namespace BridgeState

/-! ## A waiter -/

/-- `env.waiters.delete(waiter)`. -/
def withoutWaiter (environments : OrdMap EnvironmentId EnvironmentRecord) (environmentId : EnvironmentId) (res : Res) :
    OrdMap EnvironmentId EnvironmentRecord :=
  environments.mapVals fun id env =>
    if id = environmentId then { env with waiters := env.waiters.filter (· ≠ res) } else env

/-- `finish`, of the waiter on `res`. -/
def finish (s : BridgeState) (res : Res) (item : Option WorkItem) : BridgeState :=
  match s.polls.get res with
  | none => s
  | some waiter =>
    if waiter.settled then s
    else
      { s with
        polls := s.polls.set res { waiter with settled := true, writableEnded := true }
        environments := withoutWaiter s.environments waiter.environmentId res
        timers := cleared s.timers (some waiter.timer)
        answered := s.answered ++ [⟨waiter.environmentId, res, item⟩] }

def isResponseClosed (waiter : PollWaiter) : Bool := waiter.writableEnded || waiter.destroyed

/-- The state after, and whether it delivered. -/
def deliverQueued (s : BridgeState) (res : Res) : BridgeState × Bool :=
  match s.polls.get res with
  | none => (s, false)
  | some waiter =>
    if waiter.settled || isResponseClosed waiter then (s, false)
    else
      match s.environments.get waiter.environmentId with
      | none => (s, false)
      | some env =>
        match env.queue with
        | [] => (s, false)
        | item :: queue =>
          (finish { s with environments := s.environments.set waiter.environmentId { env with queue } }
            res (some item), true)

def settleEmpty (s : BridgeState) (res : Res) : BridgeState := finish s res none

/-- The request's `close` event. -/
def requestClosed (s : BridgeState) (res : Res) : BridgeState :=
  match s.polls.get res with
  | none => s
  | some waiter =>
    if waiter.settled then s
    else
      { s with
        polls := s.polls.set res { waiter with settled := true }
        environments := withoutWaiter s.environments waiter.environmentId res
        timers := cleared s.timers (some waiter.timer) }

/-! ## The queue -/

/-- The loop of `flushWaiter`, over the copy of the set it took. -/
def flushWaiters (s : BridgeState) : List Res → BridgeState
  | [] => s
  | res :: rest =>
    match deliverQueued s res with
    | (s, true) => s
    | (s, false) => flushWaiters s rest

def flushWaiter (s : BridgeState) (environmentId : EnvironmentId) : BridgeState :=
  match s.environments.get environmentId with
  | none => s
  | some env => if env.queue = [] then s else flushWaiters s env.waiters

def enqueueWork (s : BridgeState) (environmentId : EnvironmentId) (item : WorkItem) : BridgeState × Bool :=
  match s.environments.get environmentId with
  | none => (s, false)
  | some env =>
    (flushWaiter { s with
      environments := s.environments.set environmentId { env with queue := env.queue ++ [item] } } environmentId, true)

/-- The last in insertion order. -/
def latestEnvironment (s : BridgeState) : Option EnvironmentId := s.environments.keys.getLast?

/-- The item's id is the `next` of the state before; its secret is drawn at random. -/
def sessionWork (s : BridgeState) (sessionId : SessionId) (secret : JsString) : WorkItem :=
  ⟨s.next, secret, ⟨.session, some sessionId⟩⟩

def enqueueSessionWork (s : BridgeState) (sessionId : SessionId) (secret : JsString) : BridgeState :=
  match latestEnvironment s with
  | none => s
  | some environmentId =>
    (enqueueWork { s with next := s.next + 1 } environmentId (sessionWork s sessionId secret)).1

/-! ## The requests -/

/-- The id is the `next` of the state before. -/
def handleEnvironmentRegister (s : BridgeState) : BridgeState :=
  { s with next := s.next + 1, environments := s.environments.set s.next ⟨[], []⟩ }

/-- The response is the `next` of the state before, a held poll's timer the one after. -/
def handleWorkPoll (s : BridgeState) (environmentId : EnvironmentId) : BridgeState × PollReply :=
  match s.environments.get environmentId with
  | none => (s, .error 404 s!"ccctl: no environment {environmentId}")
  | some env =>
    let res := s.next
    match env.queue with
    | item :: queue =>
      ({ s with
        next := s.next + 1
        environments := s.environments.set environmentId { env with queue }
        answered := s.answered ++ [⟨environmentId, res, some item⟩] }, .work item)
    | [] =>
      let timer := s.next + 1
      ({ s with
        next := s.next + 2
        timers := s.timers.set timer ⟨s.now + timeoutDelay s.workPollTimeoutMs, res⟩
        polls := s.polls.set res ⟨environmentId, timer, false, false, false, false⟩
        environments := s.environments.set environmentId { env with waiters := env.waiters ++ [res] } }, .held res)

def settlePendingPolls (s : BridgeState) : BridgeState :=
  s.environments.values.foldl (fun s env => env.waiters.foldl settleEmpty s) s

/-! ## Turns -/

/-- A poll's timer that is armed and due settles it. -/
def lapse (s : BridgeState) (t : TimerId) : BridgeState :=
  match s.timers.get t with
  | none => s
  | some timer =>
    if s.now < timer.due then s else finish { s with timers := s.timers.erase t } timer.callback none

/-- Something that happens to a poll's client or to its response. -/
def touch (s : BridgeState) (res : Res) (f : PollWaiter → PollWaiter) : BridgeState :=
  { s with polls := s.polls.mapVals fun r waiter => if r = res then f waiter else waiter }

end BridgeState

inductive BridgeEvent where
  | advance (ms : Nat)
  | environmentRegister
  | enqueueWork (environmentId : EnvironmentId) (item : WorkItem)
  | enqueueSessionWork (sessionId : SessionId) (secret : JsString)
  | workPoll (environmentId : EnvironmentId)
  | lapse (timer : TimerId)
  /-- The client of a poll goes away. -/
  | disconnect (res : Res)
  /-- Its response is destroyed. -/
  | destroy (res : Res)
  /-- Its request's `close` event comes. -/
  | requestClosed (res : Res)
  | settlePendingPolls

/-- Whether the poll's client is gone: without that, neither is its response destroyed nor its request closed. -/
def BridgeState.gone (s : BridgeState) (res : Res) : Bool := ((s.polls.get res).map (·.disconnected)).getD false

open BridgeState in
def bridgeStep (s : BridgeState) : BridgeEvent → BridgeState
  | .advance ms => { s with now := s.now + ms }
  | .environmentRegister => handleEnvironmentRegister s
  | .enqueueWork environmentId item => (enqueueWork s environmentId item).1
  | .enqueueSessionWork sessionId secret => enqueueSessionWork s sessionId secret
  | .workPoll environmentId => (handleWorkPoll s environmentId).1
  | .lapse t => lapse s t
  | .disconnect res => touch s res fun waiter => { waiter with disconnected := true }
  | .destroy res => if s.gone res then touch s res fun waiter => { waiter with destroyed := true } else s
  | .requestClosed res => if s.gone res then requestClosed s res else s
  | .settlePendingPolls => settlePendingPolls s

/-- Nothing registered, nothing held. -/
def startBridge (now next workPollTimeoutMs : Nat) : BridgeState :=
  { now, next, workPollTimeoutMs, environments := OrdMap.empty, polls := OrdMap.empty, timers := OrdMap.empty
    answered := [] }

def DEFAULT_WORK_POLL_TIMEOUT_MS : Nat := 25000

end Ccctl.Server
