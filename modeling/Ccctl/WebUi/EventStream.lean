import Ccctl.Server.Frames
/-
  Ccctl.WebUi.EventStream — a tab's `EventSource` on one session, across reconnects
  (`packages/web-ui/src/app.js`: `connect`; `packages/server/src/event-stream.ts`).

  The tab opens a response with the last event id it has, if any; bytes of the response arrive in
  any pieces and any number of them; the connection drops anywhere, in the middle of a character
  too; it is opened again any time later. Beside it the server takes any calls of its relays and any
  turns of its own (`RelayEvent`), a late `close` event of a dropped response among them, and only
  the close of the session's own relay is left out.

  - `tab_inOrder`: what the tab was handed is a subsequence of what was broadcast to the session,
    each event once, in order, under its own id and with its own JSON.
  - `tab_gapFree`: where each reconnect still brings a cursor and finds no more than the relay's
    1024 events gone by, it is the feed from no later than the first connection to be handed
    anything, with no gap, and the whole of it to the last event whenever the bytes written so far
    have arrived.

  Whether a new connection keeps the last event id in its buffer is `carries`: engines do; under the
  standard's own text the greeting's empty line clears it, so a connection that drops between its
  greeting and its first event loses the cursor, and with it what is broadcast before the next one.
-/

namespace Ccctl.WebUi.EventStream

open Ccctl.Core Ccctl.Lib Ccctl.Server ServerState

structure Live where
  res : Res
  connection : Connection
  /-- How many of the response's bytes have arrived. -/
  taken : Nat

/-- `new EventSource(sessionEventsPath(sessionId))`. -/
structure Source where
  lastEventId : List Nat
  live : Option Live
  dispatched : List Dispatched

structure Tab where
  server : ServerState
  streams : Streams
  source : Source
  /-- How much had been broadcast at the last connection made with nothing handed out yet. -/
  begun : Nat

inductive Event where
  | server (e : RelayEvent)
  | connect
  | arrive (n : Nat)
  | drop

/-- The `Last-Event-ID` header of the next request. -/
def Source.header (source : Source) : Option JsString :=
  if source.lastEventId = [] then none else some (encode source.lastEventId)

/-- The id of the last event handed out. -/
def Source.reached (source : Source) : Nat :=
  (source.dispatched.getLast?.map fun d => digitsValue (encode d.lastEventId)).getD 0

section
variable (host : JsonHost) (uuids : Uuids) (number : NumberReader) (carries : Bool) (id : SessionId)

/-- What was written to a response. -/
def written (s : ServerState) (res : Res) : List Nat := subscriptionBytes host uuids (received s.out res)

def serve (t : Tab) (e : RelayEvent) : Tab :=
  { t with server := relayStep t.server e, streams := streamsWatch t.server e t.streams }

def step (t : Tab) : Event → Tab
  | .server e => serve t e
  | .connect =>
    match t.source.live with
    | some _ => t
    | none =>
      if t.server.sessions.has id then
        { serve t (.subscribe id (parseLastEventId number t.source.header)) with
          source := { t.source with
            live := some ⟨t.server.next,
              .opened (if carries then t.source.lastEventId else []) t.source.lastEventId, 0⟩ }
          begun := if t.source.dispatched = [] then (t.streams.feeds id).length else t.begun }
      else t
  | .arrive n =>
    match t.source.live with
    | none => t
    | some live =>
      let bytes := ((written host uuids t.server live.res).drop live.taken).take n
      let read := live.connection.receive bytes
      { t with source := ⟨read.1.reader.lastEventId, some ⟨live.res, read.1, live.taken + bytes.length⟩,
        t.source.dispatched ++ read.2⟩ }
  | .drop => { t with source := { t.source with live := none } }

/-- The connection resumes: it is the first to be handed anything, or it brings its cursor and no more
    than the buffer has gone by. -/
def Resumes (t : Tab) : Prop :=
  t.source.dispatched = [] ∨
    ((carries = true ∨ t.source.lastEventId ≠ []) ∧
      (t.streams.feeds id).length ≤ t.source.reached + EVENT_REPLAY_BUFFER_SIZE)

/-- The session's relay stands; where the run is to be `strict`, every connection resumes. -/
def allowed (strict : Prop) (t : Tab) : Event → Prop
  | .server e => relayAllowed t.server e ∧ e ≠ .close id
  | .connect => strict → Resumes carries id t
  | _ => True

def Start (t : Tab) : Prop := RelayStart (t.server, t.streams) ∧ t.source = ⟨[], none, []⟩

abbrev TabRun (strict : Prop) : Tab → Prop :=
  Reach (step host uuids number carries id) Start (allowed carries id strict)

/-! ## The invariant -/

/-- Everything broadcast to the session, as a tab is handed it. -/
def told (feed : List Payload) : List Dispatched := (numbered 1 feed).map (message host uuids)

/-- What was handed out, against the feed: up to the `reached`-th event, and from `begun` on at the latest. -/
structure Caught (strict : Prop) (begun : Nat) (feed : List Payload) (lastEventId : List Nat)
    (dispatched : List Dispatched) (reached : Nat) : Prop where
  bound : reached ≤ feed.length
  seen : List.Sublist dispatched ((told host uuids feed).take reached)
  last : dispatched = [] ∧ reached = 0 ∨
    dispatched.getLast?.map (·.lastEventId) = some (codePoints (digitsText reached))
  cursor : lastEventId = [] ∨ lastEventId = codePoints (digitsText reached)
  carried : carries = true → dispatched ≠ [] → lastEventId = codePoints (digitsText reached)
  gapFree : strict → ∃ first ≤ begun, dispatched = ((told host uuids feed).take reached).drop first

/-- The first event a subscription is sent. -/
def first (sub : Subscription) : Nat := readFrom EVENT_REPLAY_BUFFER_SIZE sub.joined sub.cursor

/-- An open connection: what it was opened with, and how far its bytes have been read. -/
structure Reading (strict : Prop) (t : Tab) (live : Live) (sub : Subscription) (opened : Source) (reached : Nat) :
    Prop where
  res : sub.res = live.res
  own : sub.sessionId = id
  caught : Caught host uuids carries strict t.begun (t.streams.feeds id) opened.lastEventId opened.dispatched reached
  joined : reached < first sub
  begun : opened.dispatched = [] → first sub ≤ t.begun + 1
  resumed : strict → opened.dispatched = [] ∨ first sub = reached + 1
  taken : live.taken ≤ (written host uuids t.server live.res).length
  connection : live.connection = ((Connection.opened (if carries then opened.lastEventId else []) opened.lastEventId).receive
    ((written host uuids t.server live.res).take live.taken)).1
  dispatched : t.source.dispatched = opened.dispatched ++
    ((Connection.opened (if carries then opened.lastEventId else []) opened.lastEventId).receive
      ((written host uuids t.server live.res).take live.taken)).2
  lastEventId : t.source.lastEventId = live.connection.reader.lastEventId

structure Inv (strict : Prop) (t : Tab) : Prop where
  streams : t.streams.Ok t.server
  logs : ∀ sub ∈ t.streams.subscriptions, sub.sessionId = id → sub.log <+: t.streams.feeds id
  idle : (t.streams.feeds id).length ≤ MAX_SAFE_INTEGER → t.source.live = none → ∃ reached,
    Caught host uuids carries strict t.begun (t.streams.feeds id) t.source.lastEventId t.source.dispatched reached
  live : (t.streams.feeds id).length ≤ MAX_SAFE_INTEGER → ∀ live, t.source.live = some live →
    ∃ sub ∈ t.streams.subscriptions, ∃ opened reached, Reading host uuids carries id strict t live sub opened reached

end

section
variable {host : JsonHost} {uuids : Uuids} {number : NumberReader} {carries : Bool} {id : SessionId} {strict : Prop}
variable {begun : Nat}

theorem length_told (feed : List Payload) : (told host uuids feed).length = feed.length := by simp [told]

variable (host uuids) in
theorem told_grows {feed later : List Payload} (h : feed <+: later) : told host uuids feed <+: told host uuids later := by
  obtain ⟨more, rfl⟩ := h
  rw [told, told, numbered_append, List.map_append]
  exact List.prefix_append _ _

variable (host uuids) in
/-- What a longer feed begins with is the shorter one. -/
theorem take_told {feed later : List Payload} (h : feed <+: later) {n : Nat} (hn : n ≤ feed.length) :
    (told host uuids later).take n = (told host uuids feed).take n := by
  obtain ⟨more, hmore⟩ := told_grows host uuids h
  rw [← hmore, List.take_append_of_le_length (by rwa [length_told])]

theorem Caught.grow {feed later : List Payload} {lastEventId : List Nat} {dispatched : List Dispatched} {reached : Nat}
    (h : Caught host uuids carries strict begun feed lastEventId dispatched reached) (hlater : feed <+: later) :
    Caught host uuids carries strict begun later lastEventId dispatched reached := by
  have htake := take_told host uuids hlater h.bound
  exact ⟨h.bound.trans hlater.length_le, htake ▸ h.seen, h.last, h.cursor, h.carried, fun hs => htake ▸ h.gapFree hs⟩

variable (host uuids) in
/-- The events of a subscription are the feed's, from the first it is sent. -/
theorem window_told {sub : Subscription} {feed : List Payload} (hlog : sub.log <+: feed) {k : Nat}
    (hk : k ≤ sub.window.length) :
    (sub.window.take k).map (message host uuids) = ((told host uuids feed).drop (first sub - 1)).take k := by
  obtain ⟨more, hmore⟩ := told_grows host uuids hlog
  have hwindow : (sub.window.take k).map (message host uuids) = ((told host uuids sub.log).drop (first sub - 1)).take k := by
    rw [told, ← List.map_drop, ← List.map_take]
    rfl
  have hlength : sub.window.length = (told host uuids sub.log).length - (first sub - 1) := by
    unfold Subscription.window
    rw [length_told, List.length_drop, length_numbered]
    rfl
  rw [hwindow, ← hmore]
  by_cases hle : first sub - 1 ≤ (told host uuids sub.log).length
  · rw [List.drop_append_of_le_length hle, List.take_append_of_le_length (by rw [List.length_drop]; omega)]
  · obtain rfl : k = 0 := by omega
    rw [List.take_zero, List.take_zero]

/-- The last of the first `k` events of a subscription. -/
theorem window_last {sub : Subscription} {k : Nat} (hk : k < sub.window.length) :
    (sub.window.take (k + 1)).getLast?.map Prod.fst = some (first sub + k) := by
  have hfst := congrArg (fun ids : List Nat => ids[k]?) sub.window_fst
  rw [List.getLast?_eq_getElem?, List.length_take, Nat.min_eq_left hk, Nat.succ_sub_one,
    List.getElem?_take_of_lt (Nat.lt_succ_self k), ← List.getElem?_map]
  refine hfst.trans ?_
  rw [List.getElem?_range' hk]
  simp [first]

theorem Caught.reads {feed : List Payload} {opened : Source} {reached : Nat} {sub : Subscription}
    (h : Caught host uuids carries strict begun feed opened.lastEventId opened.dispatched reached)
    (hlog : sub.log <+: feed) (hjoined : reached < first sub) (hbegun : opened.dispatched = [] → first sub ≤ begun + 1)
    (hresumed : strict → opened.dispatched = [] ∨ first sub = reached + 1) {k : Nat} (hk : k < sub.window.length) :
    Caught host uuids carries strict begun feed
      (idAfter (if carries then opened.lastEventId else []) (sub.window.take (k + 1)))
      (opened.dispatched ++ (sub.window.take (k + 1)).map (message host uuids)) (first sub + k) := by
  have hwindow := window_told host uuids hlog hk
  have hlast := window_last hk
  obtain ⟨e, he, hfst⟩ := Option.map_eq_some_iff.mp hlast
  have hid : idAfter (if carries then opened.lastEventId else []) (sub.window.take (k + 1)) =
      codePoints (digitsText (first sub + k)) := by
    rw [idAfter, he, Option.map_some, Option.getD_some, hfst]
  have hsplit : (told host uuids feed).take (first sub + k) =
      (told host uuids feed).take (first sub - 1) ++ ((told host uuids feed).drop (first sub - 1)).take (k + 1) := by
    rw [← List.take_add]
    congr 1
    omega
  refine ⟨?_, ?_, .inr ?_, .inr hid, fun _ _ => hid, fun hs => ?_⟩
  · have hlength : sub.window.length = sub.log.length - (first sub - 1) := by
      unfold Subscription.window
      rw [List.length_drop, length_numbered]
      rfl
    have hle := hlog.length_le
    omega
  · rw [hsplit, hwindow]
    have hshort : (told host uuids feed).take reached <+: (told host uuids feed).take (first sub - 1) :=
      List.take_prefix_take_left (by omega)
    exact (h.seen.trans hshort.sublist).append (List.Sublist.refl _)
  · rw [List.getLast?_append, List.getLast?_map, he]
    simp [message, hfst]
  · rw [hsplit, ← hwindow]
    rcases hresumed hs with hnone | hnext
    · refine ⟨((told host uuids feed).take (first sub - 1)).length, ?_, ?_⟩
      · have hlength := List.length_take_le (first sub - 1) (told host uuids feed)
        have hfirst := hbegun hnone
        omega
      · rw [hnone, List.drop_left, List.nil_append]
    · obtain ⟨from_, hle, hfrom⟩ := h.gapFree hs
      have hreached : first sub - 1 = reached := by omega
      rw [hreached, hfrom]
      by_cases hin : from_ ≤ ((told host uuids feed).take reached).length
      · exact ⟨from_, hle, (List.drop_append_of_le_length hin).symm⟩
      · refine ⟨((told host uuids feed).take reached).length, by omega, ?_⟩
        rw [List.drop_left, List.drop_eq_nil_of_le (by omega), List.nil_append]

/-- What an open connection has been handed, with what came before it. -/
theorem Reading.now {t : Tab} {live : Live} {sub : Subscription} {opened : Source} {reached : Nat}
    (h : Reading host uuids carries id strict t live sub opened reached) (hok : t.streams.Ok t.server)
    (hsub : sub ∈ t.streams.subscriptions) (hlog : sub.log <+: t.streams.feeds id) :
    ∃ now, Caught host uuids carries strict t.begun (t.streams.feeds id) t.source.lastEventId t.source.dispatched
      now := by
  have hwritten : written host uuids t.server live.res = subscriptionBytes host uuids sub.window := by
    rw [written, ← h.res, hok.window sub hsub]
  have hpre : (written host uuids t.server live.res).take live.taken <+: subscriptionBytes host uuids sub.window := by
    rw [hwritten]
    exact List.take_prefix _ _
  rw [h.dispatched, h.lastEventId, h.connection]
  rcases opened_reads sub.window (if carries then opened.lastEventId else []) opened.lastEventId hpre with
    ⟨-, hnone, hid⟩ | ⟨k, hframed, htold, hid⟩
  · rw [hnone, hid, List.append_nil]
    exact ⟨reached, h.caught⟩
  · rw [htold, hid]
    cases k with
    | zero =>
      refine ⟨reached, ?_⟩
      have hkept : Caught host uuids carries strict t.begun (t.streams.feeds id) (if carries then opened.lastEventId else [])
          opened.dispatched reached := by
        have hold := h.caught
        cases carries with
        | true => exact hold
        | false => exact ⟨hold.bound, hold.seen, hold.last, .inl rfl, fun hc => absurd hc (by decide), hold.gapFree⟩
      rw [List.take_zero, List.map_nil, List.append_nil]
      exact hkept
    | succ k => exact ⟨_, h.caught.reads hlog h.joined h.begun h.resumed (Nat.lt_of_succ_le hframed.count)⟩

/-! ## What each event keeps -/

/-- A subscription later on: it may have heard more. -/
structure Grows (sub later : Subscription) : Prop where
  res : later.res = sub.res
  sessionId : later.sessionId = sub.sessionId
  joined : later.joined = sub.joined
  cursor : later.cursor = sub.cursor
  log : sub.log <+: later.log

theorem Grows.first {sub later : Subscription} (h : Grows sub later) : first later = EventStream.first sub := by
  unfold EventStream.first
  rw [h.joined, h.cursor]

theorem Grows.window {sub later : Subscription} (h : Grows sub later) : sub.window <+: later.window := by
  obtain ⟨more, hmore⟩ := h.log
  unfold Subscription.window
  rw [h.joined, h.cursor, ← hmore, numbered_append, List.drop_append]
  exact List.prefix_append _ _

theorem grows_hears (sub : Subscription) (sessionId : SessionId) (payload : Payload) :
    Grows sub (sub.hears sessionId payload) := by
  refine ⟨sub.hears_res _ _, sub.hears_sessionId _ _, sub.hears_joined _ _, ?_, ?_⟩ <;> unfold Subscription.hears <;> split
  · rfl
  · rfl
  · exact List.prefix_append _ _
  · exact List.prefix_rfl

theorem grows_leaves (sub : Subscription) (goes : Bool) : Grows sub (sub.leaves goes) := by
  refine ⟨sub.leaves_res _, sub.leaves_sessionId _, sub.leaves_joined _, ?_, ?_⟩
  · unfold Subscription.leaves
    split <;> rfl
  · rw [sub.leaves_log]

theorem grows_watch (s : ServerState) (e : RelayEvent) {w : Streams} {sub : Subscription} (hsub : sub ∈ w.subscriptions) :
    ∃ later ∈ (streamsWatch s e w).subscriptions, Grows sub later := by
  have hsame : Grows sub sub := ⟨rfl, rfl, rfl, rfl, List.prefix_rfl⟩
  cases e with
  | broadcast sessionId payload => exact ⟨_, List.mem_map_of_mem hsub, grows_hears sub sessionId payload⟩
  | subscribe sessionId lastEventId =>
    refine ⟨sub, ?_, hsame⟩
    simp only [streamsWatch]
    split
    · exact List.mem_append_left _ hsub
    · exact hsub
  | disconnect | close | closeAll => exact ⟨_, List.mem_map_of_mem hsub, grows_leaves sub _⟩
  | read | elsewhere => exact ⟨sub, hsub, hsame⟩

/-- Only the close of a session's own relay cuts its feed. -/
theorem feed_watch (s : ServerState) {e : RelayEvent} (he : e ≠ .close id) (w : Streams) :
    w.feeds id <+: (streamsWatch s e w).feeds id := by
  cases e with
  | broadcast sessionId payload =>
    rw [Streams.feeds_broadcast]
    split
    case isTrue hid => exact hid ▸ List.prefix_append _ _
    case isFalse => exact List.prefix_rfl
  | subscribe sessionId lastEventId =>
    simp only [streamsWatch]
    split <;> exact List.prefix_rfl
  | close sessionId =>
    have hother : id ≠ sessionId := fun hid => he (hid ▸ rfl)
    show _ <+: Function.update w.feeds sessionId [] id
    rw [Function.update_of_ne hother]
  | disconnect | closeAll | read | elsewhere => exact List.prefix_rfl

theorem logs_watch {s : ServerState} {e : RelayEvent} (he : e ≠ .close id) {w : Streams} (hok : w.Ok s)
    (h : ∀ sub ∈ w.subscriptions, sub.sessionId = id → sub.log <+: w.feeds id) :
    ∀ sub ∈ (streamsWatch s e w).subscriptions, sub.sessionId = id → sub.log <+: (streamsWatch s e w).feeds id := by
  have hfeed := feed_watch s he w
  have hleft (goes : Subscription → Bool) :
      ∀ sub ∈ w.subscriptions.map fun sub => sub.leaves (goes sub), sub.sessionId = id → sub.log <+: w.feeds id := by
    intro later hlater hid
    obtain ⟨sub, hsub, rfl⟩ := List.mem_map.mp hlater
    rw [Subscription.leaves_sessionId] at hid
    rw [Subscription.leaves_log]
    exact h sub hsub hid
  cases e with
  | broadcast sessionId payload =>
    intro later hlater hid
    obtain ⟨sub, hsub, rfl⟩ := List.mem_map.mp hlater
    rw [Subscription.hears_sessionId] at hid
    unfold Subscription.hears
    split
    case isTrue hatt =>
      obtain ⟨hlive, hown⟩ := (sub.attachedTo_iff sessionId).mp hatt
      rw [hok.live sub hsub hlive, Streams.feeds_broadcast, if_pos (hid.symm.trans hown), hown]
    case isFalse => exact (h sub hsub hid).trans hfeed
  | subscribe sessionId lastEventId =>
    simp only [streamsWatch]
    split
    · intro sub hsub hid
      rcases List.mem_append.mp hsub with hsub | hsub
      · exact h sub hsub hid
      · rw [List.mem_singleton.mp hsub] at hid ⊢
        exact hid ▸ List.prefix_rfl
    · exact h
  | disconnect | closeAll => exact hleft _
  | close => exact fun later hlater hid => (hleft _ later hlater hid).trans hfeed
  | read | elsewhere => exact h

variable (host uuids) in
/-- What was written to a response stays written. -/
theorem Grows.written {s : ServerState} {e : RelayEvent} {w : Streams} {sub later : Subscription} (h : Grows sub later)
    (hok : w.Ok s) (hok' : (streamsWatch s e w).Ok (relayStep s e)) (hsub : sub ∈ w.subscriptions)
    (hlater : later ∈ (streamsWatch s e w).subscriptions) :
    written host uuids s sub.res <+: EventStream.written host uuids (relayStep s e) sub.res := by
  unfold EventStream.written
  rw [hok.window sub hsub, ← h.res, hok'.window later hlater]
  exact subscriptionBytes_grows h.window

theorem Reading.serve {t : Tab} {e : RelayEvent} {live : Live} {sub later : Subscription} {opened : Source} {reached : Nat}
    (h : Reading host uuids carries id strict t live sub opened reached) (hgrows : Grows sub later)
    (hwritten : written host uuids t.server live.res <+: written host uuids (relayStep t.server e) live.res)
    (hfeed : t.streams.feeds id <+: (streamsWatch t.server e t.streams).feeds id) :
    Reading host uuids carries id strict (serve t e) live later opened reached := by
  have hsame : (written host uuids (relayStep t.server e) live.res).take live.taken =
      (written host uuids t.server live.res).take live.taken := by
    obtain ⟨more, hmore⟩ := hwritten
    rw [← hmore, List.take_append_of_le_length h.taken]
  exact {
    res := hgrows.res.trans h.res
    own := hgrows.sessionId.trans h.own
    caught := h.caught.grow hfeed
    joined := by rw [hgrows.first]; exact h.joined
    begun := by rw [hgrows.first]; exact h.begun
    resumed := by rw [hgrows.first]; exact h.resumed
    taken := h.taken.trans hwritten.length_le
    connection := by
      show _ = (Connection.receive _ (List.take _ (written _ _ (relayStep _ _) _))).1
      rw [hsame]
      exact h.connection
    dispatched := by
      show _ = _ ++ (Connection.receive _ (List.take _ (written _ _ (relayStep _ _) _))).2
      rw [hsame]
      exact h.dispatched
    lastEventId := h.lastEventId }

theorem Inv.serve {t : Tab} {e : RelayEvent} (h : Inv host uuids carries id strict t) (he : relayAllowed t.server e)
    (hstands : e ≠ .close id) : Inv host uuids carries id strict (serve t e) := by
  have hok' := h.streams.step he
  have hfeed := feed_watch t.server hstands t.streams
  refine ⟨hok', logs_watch hstands h.streams h.logs, ?_, ?_⟩
  · intro hsafe hnone
    obtain ⟨reached, hcaught⟩ := h.idle ((Int.ofNat_le.mpr hfeed.length_le).trans hsafe) hnone
    exact ⟨reached, hcaught.grow hfeed⟩
  · intro hsafe live hlive
    obtain ⟨sub, hsub, opened, reached, hreading⟩ := h.live ((Int.ofNat_le.mpr hfeed.length_le).trans hsafe) live hlive
    obtain ⟨later, hlater, hgrows⟩ := grows_watch t.server e hsub
    have hwritten := hgrows.written host uuids h.streams hok' hsub hlater
    rw [hreading.res] at hwritten
    exact ⟨later, hlater, opened, reached, hreading.serve hgrows hwritten hfeed⟩

/-- The cursor of the next request. -/
theorem Caught.cursor_read {feed : List Payload} {source : Source} {reached : Nat}
    (h : Caught host uuids carries strict begun feed source.lastEventId source.dispatched reached)
    (hsafe : (feed.length : Int) ≤ MAX_SAFE_INTEGER) :
    parseLastEventId number source.header = if source.lastEventId = [] then none else some (reached : Int) := by
  unfold Source.header
  split
  case isTrue => rfl
  case isFalse hne =>
    rcases h.cursor with hnone | hid
    · exact absurd hnone hne
    · have hbound := h.bound
      rw [hid, encode_codePoints]
      refine parseLastEventId_digits number ?_
      unfold MAX_SAFE_INTEGER at hsafe
      omega

/-- The id of the last event is how far the tab has got. -/
theorem Caught.reached_eq {feed : List Payload} {source : Source} {reached : Nat}
    (h : Caught host uuids carries strict begun feed source.lastEventId source.dispatched reached) :
    source.reached = reached := by
  unfold Source.reached
  rcases h.last with ⟨hnone, rfl⟩ | hlast
  · rw [hnone]
    rfl
  · obtain ⟨d, hd, hid⟩ := Option.map_eq_some_iff.mp hlast
    rw [hd, Option.map_some, hid, encode_codePoints, digitsValue_digitsText]
    rfl

/-- A new subscription begins past what was handed out, and right after it if the connection resumes. -/
theorem Caught.first_gt {feed : List Payload} {source : Source} {reached : Nat}
    (h : Caught host uuids carries strict begun feed source.lastEventId source.dispatched reached)
    (hsafe : (feed.length : Int) ≤ MAX_SAFE_INTEGER) {joining : Subscription} (hjoined : joining.joined = feed.length)
    (hcursor : joining.cursor = parseLastEventId number source.header) :
    reached < first joining ∧
      (((carries = true ∨ source.lastEventId ≠ []) ∧ feed.length ≤ reached + EVENT_REPLAY_BUFFER_SIZE) →
        source.dispatched = [] ∨ first joining = reached + 1) := by
  have hbound := h.bound
  rw [h.cursor_read hsafe] at hcursor
  unfold first
  rw [hjoined, hcursor]
  split
  case isTrue hnil =>
    refine ⟨Nat.lt_succ_of_le hbound, fun hresumes => .inl ?_⟩
    by_contra hsome
    have hcarries := hresumes.1.resolve_right (fun hne => hne hnil)
    have hid := h.carried hcarries hsome
    rw [hnil] at hid
    have hempty := congrArg encode hid
    rw [encode_codePoints] at hempty
    obtain ⟨d, rest, htext, -⟩ := digitsText_shape reached
    rw [htext] at hempty
    exact absurd hempty (by simp [encode])
  case isFalse =>
    have hin : (reached : Int) ≤ feed.length := Int.ofNat_le.mpr hbound
    simp only [readFrom, hin, if_true]
    refine ⟨by omega, fun hresumes => .inr ?_⟩
    omega

/-- A connection made with nothing handed out may begin anywhere. -/
theorem Caught.connects {feed : List Payload} {lastEventId : List Nat} {dispatched : List Dispatched} {reached : Nat}
    (h : Caught host uuids carries strict begun feed lastEventId dispatched reached) (now : Nat) :
    Caught host uuids carries strict (if dispatched = [] then now else begun) feed lastEventId dispatched reached := by
  refine ⟨h.bound, h.seen, h.last, h.cursor, h.carried, fun hs => ?_⟩
  split
  case isFalse => exact h.gapFree hs
  case isTrue hnone =>
    subst hnone
    rcases h.last with ⟨-, rfl⟩ | hlast
    · exact ⟨0, Nat.zero_le _, rfl⟩
    · cases hlast

theorem Inv.connect {t : Tab} (h : Inv host uuids carries id strict t) (hresumes : strict → Resumes carries id t) :
    Inv host uuids carries id strict (step host uuids number carries id t .connect) := by
  simp only [step]
  split
  case h_1 => exact h
  case h_2 hnone =>
    split
    case isFalse => exact h
    case isTrue hrow =>
      have hserve := h.serve (e := .subscribe id (parseLastEventId number t.source.header)) trivial (by simp)
      refine ⟨hserve.streams, hserve.logs, fun _ hlive => absurd hlive (by simp), ?_⟩
      intro hsafe live hlive
      obtain rfl := Option.some.inj hlive
      have hstands : RelayEvent.subscribe id (parseLastEventId number t.source.header) ≠ .close id := by simp
      have hfeed := feed_watch t.server hstands t.streams
      have hsafe' : ((t.streams.feeds id).length : Int) ≤ MAX_SAFE_INTEGER :=
        (Int.ofNat_le.mpr hfeed.length_le).trans hsafe
      obtain ⟨reached, hcaught⟩ := h.idle hsafe' hnone
      let joining : Subscription := ⟨t.server.next, id, parseLastEventId number t.source.header,
        (t.streams.feeds id).length, t.streams.feeds id, true⟩
      have hcursor : joining.cursor = parseLastEventId number t.source.header := rfl
      obtain ⟨hjoined, hnext⟩ := hcaught.first_gt hsafe' rfl hcursor
      refine ⟨_, ?_, t.source, reached, rfl, rfl, (hcaught.connects _).grow hfeed, hjoined, ?_, ?_, Nat.zero_le _, rfl,
        ?_, rfl⟩
      · simp only [EventStream.serve, streamsWatch, hrow, if_true]
        exact List.mem_append_right _ List.mem_cons_self
      · intro hnone
        show first joining ≤ (if t.source.dispatched = [] then (t.streams.feeds id).length else t.begun) + 1
        rw [if_pos hnone]
        exact readFrom_le _ _ _
      · intro hs
        rcases hresumes hs with hfresh | hresumed
        · exact .inl hfresh
        · rw [hcaught.reached_eq] at hresumed
          exact hnext hresumed
      · exact (List.append_nil _).symm

theorem Inv.arrive {t : Tab} (h : Inv host uuids carries id strict t) (n : Nat) :
    Inv host uuids carries id strict (step host uuids number carries id t (.arrive n)) := by
  unfold step
  cases hsource : t.source.live with
  | none => exact h
  | some live =>
    refine ⟨h.streams, h.logs, fun _ hnone => absurd hnone (by simp), ?_⟩
    intro hsafe live' hlive
    obtain rfl := Option.some.inj hlive
    obtain ⟨sub, hsub, opened, reached, hreading⟩ := h.live hsafe live hsource
    have hmore : ((written host uuids t.server live.res).drop live.taken).take n <+:
        (written host uuids t.server live.res).drop live.taken := List.take_prefix _ _
    have htake : (written host uuids t.server live.res).take
        (live.taken + (((written host uuids t.server live.res).drop live.taken).take n).length) =
        (written host uuids t.server live.res).take live.taken ++
          ((written host uuids t.server live.res).drop live.taken).take n := by
      rw [List.take_add, ← List.prefix_iff_eq_take.mp hmore]
    refine ⟨sub, hsub, opened, reached, hreading.res, hreading.own, hreading.caught, hreading.joined, hreading.begun,
      hreading.resumed, ?_, ?_, ?_, rfl⟩
    · have hlength := hmore.length_le
      rw [List.length_drop] at hlength
      have htaken := hreading.taken
      show live.taken + _ ≤ (written host uuids t.server live.res).length
      omega
    · show (Connection.receive _ _).1 = (Connection.receive _ (List.take _ (written host uuids t.server live.res))).1
      rw [htake, Connection.receive_append, ← hreading.connection]
    · show _ ++ (Connection.receive _ _).2 = _ ++ (Connection.receive _ (List.take _ (written host uuids t.server live.res))).2
      rw [htake, Connection.receive_append, ← hreading.connection, ← List.append_assoc, ← hreading.dispatched]

theorem Inv.drop {t : Tab} (h : Inv host uuids carries id strict t) :
    Inv host uuids carries id strict (step host uuids number carries id t .drop) := by
  refine ⟨h.streams, h.logs, ?_, fun _ live hlive => absurd hlive (by simp [step])⟩
  intro hsafe _
  cases hlive : t.source.live with
  | none => exact h.idle hsafe hlive
  | some live =>
    obtain ⟨sub, hsub, opened, reached, hreading⟩ := h.live hsafe live hlive
    exact hreading.now h.streams hsub (h.logs sub hsub hreading.own)

theorem TabRun.inv {t : Tab} (h : TabRun host uuids number carries id strict t) : Inv host uuids carries id strict t := by
  refine Reach.inv h (fun t hstart => ?_) fun t e hinv he => ?_
  · obtain ⟨hstreams, hsource⟩ := hstart
    have hempty := hstreams.2.2
    refine ⟨Streams.ok_start hstreams, ?_, fun _ _ => ⟨0, ?_⟩, fun _ live hlive => ?_⟩
    · rw [show t.streams = Streams.empty from hempty]
      exact fun sub hsub => absurd hsub List.not_mem_nil
    · rw [hsource]
      exact ⟨Nat.zero_le _, List.nil_sublist _, .inl ⟨rfl, rfl⟩, .inl rfl, fun _ hne => absurd rfl hne,
        fun _ => ⟨0, Nat.zero_le _, rfl⟩⟩
    · rw [hsource] at hlive
      cases hlive
  · cases e with
    | server e => exact hinv.serve he.1 he.2
    | connect => exact hinv.connect he
    | arrive n => exact hinv.arrive n
    | drop => exact hinv.drop

end

/-! ## What the tab was handed -/

/-- `Number` of digits, and of nothing else. -/
def digitsReader : NumberReader where
  value text := if isDigits text then some (digitsValue text : Rat) else none
  digits n _ := by
    obtain ⟨d, rest, htext, hd, hrest, -⟩ := digitsText_shape n
    have hdigits : isDigits (digitsText n) = true := by
      rw [htext]
      simpa [isDigits] using ⟨hd, hrest⟩
    simp only [hdigits, if_true, digitsValue_digitsText]
    rfl

/-- An event, the tab's connection, its first frame cut short, another event while it is away, and its
    return. -/
def returning : List Event :=
  [.connect, .server (.broadcast 1 (.worker (.bool true))), .arrive 45, .server (.broadcast 1 (.worker .null)),
    .arrive 10, .drop, .server (.broadcast 1 (.worker (.bool false))), .connect, .arrive 200]

/-- The tab of `housing`'s session, before anything. -/
def opening : Tab := ⟨housing, Streams.empty, ⟨[], none, []⟩, 0⟩

theorem opening_run (strict : Prop) : TabRun integerHost digitUuids digitsReader false 1 strict
    (runFrom (step integerHost digitUuids digitsReader false 1) opening returning) := by
  have hstart : Start opening := ⟨⟨fun _ => rfl, rfl, rfl⟩, rfl⟩
  refine (Reach.start hstart).run_allowed ⟨fun _ => .inl rfl, ⟨trivial, nofun⟩, trivial, ⟨trivial, nofun⟩, trivial,
    trivial, ⟨trivial, nofun⟩, fun _ => .inr ⟨.inr ?_, ?_⟩, trivial, trivial⟩
  · decide
  · decide

section
variable {host : JsonHost} {uuids : Uuids} {number : NumberReader} {carries : Bool} {id : SessionId}

/-- In order, each once, with nothing that was not broadcast. -/
theorem tab_inOrder {t : Tab} (h : TabRun host uuids number carries id False t)
    (hsafe : ((t.streams.feeds id).length : Int) ≤ MAX_SAFE_INTEGER) :
    t.source.dispatched.Sublist (told host uuids (t.streams.feeds id)) := by
  have hcaught : ∃ reached, Caught host uuids carries False t.begun (t.streams.feeds id) t.source.lastEventId
      t.source.dispatched reached := by
    cases hlive : t.source.live with
    | none => exact h.inv.idle hsafe hlive
    | some live =>
      obtain ⟨sub, hsub, opened, reached, hreading⟩ := h.inv.live hsafe live hlive
      exact hreading.now h.inv.streams hsub (h.inv.logs sub hsub hreading.own)
  obtain ⟨reached, hcaught⟩ := hcaught
  exact hcaught.seen.trans (List.take_sublist _ _)

end

theorem tab_inOrder_returning :
    let t := runFrom (step integerHost digitUuids digitsReader false 1) opening returning
    t.source.dispatched.map (·.lastEventId) = [ascii "1", ascii "2", ascii "3"] ∧
      t.source.dispatched.Sublist (told integerHost digitUuids (t.streams.feeds 1)) :=
  ⟨rfl, tab_inOrder (opening_run False) (by decide)⟩

section
variable {host : JsonHost} {uuids : Uuids} {number : NumberReader} {carries : Bool} {id : SessionId} {begun : Nat}

theorem Caught.stretch {feed : List Payload} {lastEventId : List Nat} {dispatched : List Dispatched} {reached : Nat}
    (h : Caught host uuids carries True begun feed lastEventId dispatched reached) :
    ∃ first ≤ begun, dispatched <+: (told host uuids feed).drop first := by
  obtain ⟨first, hle, hfirst⟩ := h.gapFree trivial
  refine ⟨first, hle, ?_⟩
  rw [hfirst, List.drop_take]
  exact List.take_prefix _ _

theorem Caught.toEnd {feed : List Payload} {lastEventId : List Nat} {dispatched : List Dispatched} {reached : Nat}
    (h : Caught host uuids carries True begun feed lastEventId dispatched reached) (hend : feed.length ≤ reached) :
    ∃ first ≤ begun, dispatched = (told host uuids feed).drop first := by
  obtain ⟨first, hle, hfirst⟩ := h.gapFree trivial
  refine ⟨first, hle, ?_⟩
  rw [hfirst, List.take_of_length_le (by rwa [length_told])]

/-- Where every byte written has arrived, and the server still holds the response, nothing is missing. -/
theorem Reading.complete {t : Tab} {live : Live} {sub : Subscription} {opened : Source} {reached : Nat}
    (h : Reading host uuids carries id True t live sub opened reached) (hok : t.streams.Ok t.server)
    (hsub : sub ∈ t.streams.subscriptions) (hattached : sub.attached = true)
    (hall : live.taken = (written host uuids t.server live.res).length) :
    ∃ k ≤ t.begun, t.source.dispatched = (told host uuids (t.streams.feeds id)).drop k := by
  have hlog : sub.log = t.streams.feeds id := h.own ▸ hok.live sub hsub hattached
  have hwindow : sub.window.length = (t.streams.feeds id).length - (first sub - 1) := by
    unfold Subscription.window
    rw [List.length_drop, length_numbered, hlog]
    rfl
  have hwritten : (written host uuids t.server live.res).take live.taken = subscriptionBytes host uuids sub.window := by
    rw [hall, List.take_length, written, ← h.res, hok.window sub hsub]
  obtain ⟨hold, hnext⟩ := And.intro h.caught (h.resumed trivial)
  rw [h.dispatched, hwritten]
  rcases opened_handed host uuids sub.window (if carries then opened.lastEventId else [])
    opened.lastEventId List.prefix_rfl with ⟨k, hcount, htold, -, hpartial⟩
  have hk : k = sub.window.length := by
    by_contra hne
    exact hpartial (by omega) (subscriptionBytes_grows (List.take_prefix _ _))
  rw [htold, hk]
  cases hlength : sub.window.length with
  | zero =>
    rw [List.take_zero, List.map_nil, List.append_nil]
    rcases hnext with hnone | hnext
    · refine ⟨(t.streams.feeds id).length, ?_, ?_⟩
      · have hbegun := h.begun hnone
        omega
      · rw [hnone, List.drop_eq_nil_of_le (length_told _).le]
    · refine hold.toEnd ?_
      omega
  | succ n =>
    have hn : n < sub.window.length := by omega
    have hreads := hold.reads (hlog ▸ List.prefix_rfl) h.joined h.begun h.resumed hn
    have hpast := h.joined
    refine hreads.toEnd ?_
    omega

/-- The feed from the first connection to be handed anything, if not from before it, with no gap; and all
    of it to the last event broadcast once all that was written has come. -/
theorem tab_gapFree {t : Tab} (h : TabRun host uuids number carries id True t)
    (hsafe : ((t.streams.feeds id).length : Int) ≤ MAX_SAFE_INTEGER) :
    (∃ k ≤ t.begun, t.source.dispatched <+: (told host uuids (t.streams.feeds id)).drop k) ∧
      ∀ live, t.source.live = some live → live.taken = (written host uuids t.server live.res).length →
        (∃ sub ∈ t.streams.subscriptions, sub.res = live.res ∧ sub.attached = true) →
        ∃ k ≤ t.begun, t.source.dispatched = (told host uuids (t.streams.feeds id)).drop k := by
  have hinv := h.inv
  refine ⟨?_, ?_⟩
  · cases hlive : t.source.live with
    | none =>
      obtain ⟨reached, hcaught⟩ := hinv.idle hsafe hlive
      exact hcaught.stretch
    | some live =>
      obtain ⟨sub, hsub, opened, reached, hreading⟩ := hinv.live hsafe live hlive
      obtain ⟨now, hcaught⟩ := hreading.now hinv.streams hsub (hinv.logs sub hsub hreading.own)
      exact hcaught.stretch
  · intro live hlive hall hattached
    obtain ⟨sub, hsub, hres, hon⟩ := hattached
    obtain ⟨sub', hsub', opened, reached, hreading⟩ := hinv.live hsafe live hlive
    have hsame : sub' = sub :=
      List.inj_on_of_nodup_map hinv.streams.nodup hsub' hsub (hreading.res.trans hres.symm)
    exact hreading.complete hinv.streams hsub' (hsame ▸ hon) hall

end

theorem tab_gapFree_returning :
    let t := runFrom (step integerHost digitUuids digitsReader false 1) opening returning
    t.begun = 0 ∧ (∃ k ≤ t.begun, t.source.dispatched <+: (told integerHost digitUuids (t.streams.feeds 1)).drop k) ∧
      ∀ live, t.source.live = some live → live.taken = (written integerHost digitUuids t.server live.res).length →
        (∃ sub ∈ t.streams.subscriptions, sub.res = live.res ∧ sub.attached = true) →
        ∃ k ≤ t.begun, t.source.dispatched = (told integerHost digitUuids (t.streams.feeds 1)).drop k :=
  ⟨rfl, tab_gapFree (opening_run True) (by decide)⟩

end Ccctl.WebUi.EventStream
