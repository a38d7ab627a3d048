import Ccctl.Server.State
/-
  Ccctl.Server.EventStream — the per-session relay the browsers listen on
  (`packages/server/src/event-stream.ts`: `relayFor`, `broadcastEvent`, `handleEventStream`,
  `sessionMessageCursor`, `closeSessionRelay`, `closeEventStreams`).

  A relay is made on the first use of its session, by a broadcast or by a subscriber. A
  subscriber's response is ended only where its relay forgets it, so a response in
  `subscribers` is always writable.
-/

namespace Ccctl.Server

open Ccctl.Core Ccctl.Lib

def EVENT_REPLAY_BUFFER_SIZE : Nat := 1024

def createEventStreamState : EventStreamState := ⟨[], [], 1⟩

/-- The relay as the caller finds it; the caller's own `set` is what creates it. -/
def relayFor (s : ServerState) (sessionId : SessionId) : EventStreamState :=
  (s.eventRelays.get sessionId).getD createEventStreamState

/-- `buffer.push`, then `buffer.shift` past the bound. -/
def buffered (relay : EventStreamState) (payload : Payload) : List (Nat × Payload) :=
  let pushed := relay.buffer ++ [(relay.nextEventId, payload)]
  if EVENT_REPLAY_BUFFER_SIZE < pushed.length then pushed.tail else pushed

@[simps]
def broadcastEvent (s : ServerState) (sessionId : SessionId) (payload : Payload) : ServerState :=
  { s with
    eventRelays := s.eventRelays.set sessionId
      { subscribers := (relayFor s sessionId).subscribers
        buffer := buffered (relayFor s sessionId) payload
        nextEventId := (relayFor s sessionId).nextEventId + 1 }
    out := s.out ++
      [.broadcast sessionId (relayFor s sessionId).nextEventId payload (relayFor s sessionId).subscribers] }

/-- `lastEventId` is the parsed `Last-Event-ID`; the response is the `next` of the state before. -/
def handleEventStream (s : ServerState) (sessionId : SessionId) (lastEventId : Option Int) : ServerState × Reply :=
  if s.sessions.has sessionId then
    let relay := relayFor s sessionId
    let replayed := match lastEventId with
      | none => []
      | some last => relay.buffer.filter fun e => last < e.1
    ({ s with
      next := s.next + 1
      eventRelays := s.eventRelays.set sessionId { relay with subscribers := relay.subscribers ++ [s.next] }
      out := s.out ++ [.replay s.next replayed] }, .stream s.next)
  else (s, .error 404 s!"ccctl: no session {sessionId}")

/-- A subscriber's `close` event. -/
def closeSubscriber (s : ServerState) (sessionId : SessionId) (res : Res) : ServerState :=
  { s with eventRelays := s.eventRelays.mapVals fun id relay =>
      if id = sessionId then { relay with subscribers := relay.subscribers.filter (· ≠ res) } else relay }

/-- The id of the last event emitted. A bare read: unlike `relayFor`'s callers it sets nothing. -/
def sessionMessageCursor (s : ServerState) (sessionId : SessionId) : Nat :=
  match s.eventRelays.get sessionId with
  | none => 0
  | some relay => relay.nextEventId - 1

/-- Without a relay there is nobody to end and nothing to delete. -/
@[simps]
def closeSessionRelay (s : ServerState) (sessionId : SessionId) : ServerState :=
  { s with
    eventRelays := s.eventRelays.erase sessionId
    out := s.out ++ (relayFor s sessionId).subscribers.map .ended }

/-- `closeEventStreams`, at shutdown: every subscriber ended, the relays kept. -/
@[simps]
def closeEventStreams (s : ServerState) : ServerState :=
  { s with
    eventRelays := s.eventRelays.mapVals fun _ relay => { relay with subscribers := [] }
    out := s.out ++ s.eventRelays.values.flatMap fun relay => relay.subscribers.map .ended }

end Ccctl.Server
