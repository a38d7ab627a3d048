import Ccctl.Core.JsonReadBack
import Ccctl.Core.Loopback
import Ccctl.Lib.Base64
import Ccctl.Server.Frames
import Ccctl.Server.Polls
import Ccctl.Server.Routes
/-
  Ccctl.Server.WorkWire — a work item on the wire, and what a worker makes of it
  (`packages/server/src/environments-bridge.ts`: the secret of `enqueueSessionWork`;
  `bridge-wire.ts`: `toWorkItemWire`; `packages/core/src/index.ts`: `isWorkItemType`,
  `workItemFromValue`, `parseWorkSecret`).

  A poll's answer is JSON, and inside it the secret is JSON again, as base64url of its UTF-8. The
  worker takes both apart and calls the paths of its session on the base it was told.

  `work_received`: in every run of a bridge that enqueues sessions only, every item a poll was
  answered with is read back as the session it was enqueued for, with the token minted for it and
  this server's own base; and each leg's path for that session is routed to that leg of it.
-/

namespace Ccctl.Server

open Ccctl.Core Ccctl.Lib

/-! ## What is written -/

def WORK_SECRET_VERSION : Rat := 1

structure WorkSecret where
  sessionIngressToken : JsString
  apiBaseUrl : JsString
  deriving DecidableEq, Repr

def workSecretJson (secret : WorkSecret) : Json :=
  .obj [(js "version", .num WORK_SECRET_VERSION), (js "session_ingress_token", .str secret.sessionIngressToken),
    (js "api_base_url", .str secret.apiBaseUrl)]

def apiBaseUrl (address : HostEndpoint) : JsString := js "http://" ++ formatAuthority address.host address.port

/-- `Buffer.from(text, "utf8").toString("base64url")`. -/
def toBase64url (text : JsString) : JsString := (Base64.encode Base64.urlSafe (formBytes text)).map UInt16.ofNat

def WorkItemType.text : WorkItemType → JsString
  | .healthcheck => js "healthcheck"
  | .session => js "session"

variable (host : JsonHost) (uuids : Uuids)

/-- The secret of a session's work. -/
def sessionSecret (address : HostEndpoint) (token : JsString) : JsString :=
  toBase64url (Json.stringify host (workSecretJson ⟨token, apiBaseUrl address⟩))

def toWorkItemWire (item : WorkItem) : Json :=
  .obj [(js "id", .str (uuids.text item.id)), (js "secret", .str item.secret),
    (js "data", .obj (match item.data.id with
      | none => [(js "type", .str item.data.type.text)]
      | some sessionId => [(js "type", .str item.data.type.text), (js "id", .str (uuids.text sessionId))]))]

/-! ## What is read -/

/-- `WorkItem`, of texts. -/
structure ReceivedWork where
  id : JsString
  secret : JsString
  type : WorkItemType
  dataId : Option JsString
  deriving DecidableEq, Repr

def isWorkItemType (value : Option Json) : Option WorkItemType :=
  match Json.asString value with
  | some text =>
    if text = js "healthcheck" then some .healthcheck else if text = js "session" then some .session else none
  | none => none

/-- A string that is not empty. -/
def filledText (value : Option Json) : Option JsString :=
  match Json.asString value with
  | some text => if text = [] then none else some text
  | none => none

def workItemFromValue (value : Json) : Option ReceivedWork :=
  if !value.isPlainObject then none
  else
    match filledText (value.get (js "id")), filledText (value.get (js "secret")), value.get (js "data") with
    | some id, some secret, some data =>
      if !data.isPlainObject then none
      else
        match isWorkItemType (data.get (js "type")) with
        | none => none
        | some .session => (filledText (data.get (js "id"))).map fun dataId => ⟨id, secret, .session, some dataId⟩
        | some .healthcheck =>
          match data.get (js "id") with
          | none => some ⟨id, secret, .healthcheck, none⟩
          | some stray => (filledText (some stray)).map fun dataId => ⟨id, secret, .healthcheck, some dataId⟩
    | _, _, _ => none

def parseWorkSecret (value : Json) : Option WorkSecret :=
  if !value.isPlainObject then none
  else
    match value.get (js "version"), filledText (value.get (js "session_ingress_token")),
      filledText (value.get (js "api_base_url")) with
    | some (.num version), some token, some base => if version = WORK_SECRET_VERSION then some ⟨token, base⟩ else none
    | _, _, _ => none

/-- `Buffer.from(text, "base64url").toString("utf8")`, of a text in the alphabet. -/
def fromBase64url (text : JsString) : Option JsString :=
  (Base64.decode Base64.urlSafe (text.map UInt16.toNat)).map fun bytes => encode (utf8Decode bytes)

/-- What a worker takes from a poll's answer: its session, and the secret of it. -/
def workerReads (body : List Nat) : Option (JsString × WorkSecret) := do
  let work ← (Json.parse host (encode (utf8Decode body))).bind workItemFromValue
  let sessionId ← work.dataId
  let secret ← ((fromBase64url work.secret).bind (Json.parse host)).bind parseWorkSecret
  return (sessionId, secret)

/-- The bytes of a poll's answer. -/
def workBody (item : WorkItem) : List Nat := formBytes (Json.stringify host (toWorkItemWire uuids item))

/-! ## Read back -/

variable {host uuids}

theorem filledText_str {text : JsString} (h : text ≠ []) : filledText (some (.str text)) = some text := by
  simp [filledText, Json.asString, h]

theorem fromBase64url_toBase64url {text : JsString} (h : Spelt text) : fromBase64url (toBase64url text) = some text := by
  have hsmall : ∀ n ∈ Base64.encode Base64.urlSafe (formBytes text), n < 0x10000 := by
    intro n hn
    obtain ⟨sextet, hsextet, rfl⟩ := List.mem_map.mp hn
    have hlt := Base64.encodeBytes_lt h.bytes sextet hsextet
    have hall : ∀ m < 64, Base64.symbol Base64.urlSafe m < 0x10000 := by decide
    exact hall sextet hlt
  have hunits : (toBase64url text).map UInt16.toNat = Base64.encode Base64.urlSafe (formBytes text) := by
    rw [toBase64url, List.map_map]
    refine (List.map_congr_left fun n hn => ?_).trans (List.map_id _)
    rw [Function.comp_apply, UInt16.toNat_ofNat', Nat.mod_eq_of_lt (hsmall n hn), id_eq]
  rw [fromBase64url, hunits, Base64.decode_encode Base64.urlSafe_apart h.bytes, Option.map_some, h.readBack]

theorem workSecretJson_wellFormed (hone : host.isNumber WORK_SECRET_VERSION = true) (secret : WorkSecret) :
    (workSecretJson secret).WellFormed host := by
  refine .names [js "version", js "session_ingress_token", js "api_base_url"] rfl (by decide) (by decide) fun f hf => ?_
  simp only [List.mem_cons, List.not_mem_nil, or_false] at hf
  rcases hf with rfl | rfl | rfl
  · exact .num hone
  · exact .str _
  · exact .str _

theorem parseWorkSecret_json {secret : WorkSecret} (htoken : secret.sessionIngressToken ≠ [])
    (hbase : secret.apiBaseUrl ≠ []) : parseWorkSecret (workSecretJson secret) = some secret := by
  simp +decide [parseWorkSecret, workSecretJson, Json.isPlainObject, Json.get_cons, filledText_str htoken,
    filledText_str hbase]

theorem toWorkItemWire_wellFormed (item : WorkItem) : (toWorkItemWire uuids item).WellFormed host := by
  refine .names [js "id", js "secret", js "data"] rfl (by decide) (by decide) fun f hf => ?_
  simp only [List.mem_cons, List.not_mem_nil, or_false] at hf
  rcases hf with rfl | rfl | rfl
  · exact .str _
  · exact .str _
  · cases item.data.id with
    | none =>
      refine .names [js "type"] rfl (by decide) (by decide) fun f hf => ?_
      obtain rfl := List.mem_singleton.mp hf
      exact .str _
    | some sessionId =>
      refine .names [js "type", js "id"] rfl (by decide) (by decide) fun f hf => ?_
      rcases List.mem_pair.mp hf with rfl | rfl
      · exact .str _
      · exact .str _

/-- An item is read as it was written. -/
theorem workItemFromValue_wire {item : WorkItem} (hsecret : item.secret ≠ [])
    (hsession : item.data.type = .session → item.data.id.isSome = true) :
    workItemFromValue (toWorkItemWire uuids item) =
      some ⟨uuids.text item.id, item.secret, item.data.type, item.data.id.map uuids.text⟩ := by
  obtain ⟨id, secret, type, dataId⟩ := item
  have hid := filledText_str (uuids.ne_nil id)
  have hsecret := filledText_str hsecret
  cases dataId with
  | none =>
    cases type with
    | session => exact absurd (hsession rfl) (by simp)
    | healthcheck =>
      simp +decide [workItemFromValue, toWorkItemWire, Json.isPlainObject, Json.get_cons, hid, hsecret, isWorkItemType,
        WorkItemType.text, Json.asString]
  | some sessionId =>
    have hdata := filledText_str (uuids.ne_nil sessionId)
    cases type <;>
      simp +decide [workItemFromValue, toWorkItemWire, Json.isPlainObject, Json.get_cons, hid, hsecret, isWorkItemType,
        WorkItemType.text, Json.asString, hdata]

/-! ## Over a run -/

variable (host) in
/-- Every item is a session's, under a secret made for it: nothing else in the program enqueues. -/
def dispatches (address : HostEndpoint) (_ : BridgeState × List (EnvironmentId × WorkItem)) : BridgeEvent → Prop
  | .enqueueSessionWork _ secret => ∃ token, token ≠ [] ∧ secret = sessionSecret host address token
  | .enqueueWork _ _ => False
  | .advance _ | .environmentRegister | .workPoll _ | .lapse _ | .disconnect _ | .destroy _ | .requestClosed _
  | .settlePendingPolls => True

variable (host) in
abbrev DispatchRun (address : HostEndpoint) : BridgeState × List (EnvironmentId × WorkItem) → Prop :=
  Reach (watched bridgeStep enqueueWatch)
    (fun p => (∃ now next workPollTimeoutMs, p.1 = startBridge now next workPollTimeoutMs) ∧ p.2 = [])
    (dispatches host address)

variable {address : HostEndpoint}

variable (host) in
/-- An item made for a session. -/
def Dispatched (address : HostEndpoint) (item : WorkItem) : Prop :=
  ∃ sessionId token, token ≠ [] ∧ item.data = ⟨.session, some sessionId⟩ ∧
    item.secret = sessionSecret host address token

theorem accepted_dispatched {p : BridgeState × List (EnvironmentId × WorkItem)} {e : BridgeEvent}
    (he : dispatches host address p e) : ∀ entry ∈ BridgeState.accepted p.1 e, Dispatched host address entry.2 := by
  intro entry hentry
  cases e with
  | enqueueSessionWork sessionId secret =>
    obtain ⟨token, htoken, rfl⟩ := he
    simp only [BridgeState.accepted] at hentry
    split at hentry
    · cases hentry
    · obtain rfl := List.mem_singleton.mp hentry
      exact ⟨sessionId, token, htoken, rfl, rfl⟩
  | enqueueWork => exact he.elim
  | advance | environmentRegister | workPoll | lapse | disconnect | destroy | requestClosed | settlePendingPolls =>
    cases hentry

theorem DispatchRun.enqueued {p : BridgeState × List (EnvironmentId × WorkItem)} (h : DispatchRun host address p) :
    ∀ entry ∈ p.2, Dispatched host address entry.2 := by
  refine Reach.inv (P := fun p => ∀ entry ∈ p.2, Dispatched host address entry.2) h (fun p hstart => ?_) fun p e hp he => ?_
  · rw [hstart.2]
    simp
  · intro entry hentry
    rcases List.mem_append.mp hentry with hold | hnew
    · exact hp entry hold
    · exact accepted_dispatched he entry hnew

theorem DispatchRun.answered {p : BridgeState × List (EnvironmentId × WorkItem)} (h : DispatchRun host address p)
    {answer : PollAnswer} (hanswer : answer ∈ p.1.answered) {item : WorkItem} (hitem : answer.item = some item) :
    Dispatched host address item := by
  have hrun : BridgeRun p := h.mono fun _ _ _ => trivial
  have hdelivered : item ∈ BridgeState.delivered p.1.answered answer.environmentId := by
    rw [BridgeState.delivered, List.mem_filterMap]
    exact ⟨answer, hanswer, by rw [if_pos rfl, hitem]⟩
  have hmem : item ∈ BridgeState.enqueuedTo p.2 answer.environmentId := by
    rw [← hrun.backlog]
    exact List.mem_append_left _ hdelivered
  obtain ⟨entry, hentry, hsame⟩ := List.mem_filterMap.mp hmem
  split at hsame
  · obtain rfl := Option.some.inj hsame
    exact h.enqueued entry hentry
  · cases hsame

theorem segment_uuid (n : Nat) : Segment (uuids.text n) := by
  refine ⟨uuids.ne_nil n, fun hslash => ?_⟩
  have hunit := uuids.units n 0x2F hslash
  exact absurd hunit (by decide)

theorem apiBaseUrl_ne_nil (address : HostEndpoint) : apiBaseUrl address ≠ [] := by
  have hhttp : js "http://" ≠ [] := by decide
  exact List.append_ne_nil_of_left_ne_nil hhttp _

theorem toBase64url_ne_nil {text : JsString} (h : Spelt text) (hne : text ≠ []) : toBase64url text ≠ [] := by
  intro hnil
  have hread := fromBase64url_toBase64url h
  rw [hnil] at hread
  exact hne (Option.some.inj hread).symm

variable (host) in
theorem sessionSecret_ne_nil (address : HostEndpoint) (token : JsString) : sessionSecret host address token ≠ [] := by
  refine toBase64url_ne_nil (Json.spelt_stringify host _) ?_
  simp [Json.stringify, workSecretJson, Json.render]

theorem workerReads_dispatched (hone : host.isNumber WORK_SECRET_VERSION = true) {item : WorkItem} {sessionId : SessionId}
    {token : JsString} (htoken : token ≠ []) (hdata : item.data = ⟨.session, some sessionId⟩)
    (hsecret : item.secret = sessionSecret host address token) :
    workerReads host (workBody host uuids item) = some (uuids.text sessionId, ⟨token, apiBaseUrl address⟩) := by
  have hbody : (Json.parse host (encode (utf8Decode (workBody host uuids item)))).bind workItemFromValue =
      some ⟨uuids.text item.id, item.secret, .session, some (uuids.text sessionId)⟩ := by
    rw [workBody, (Json.spelt_stringify host _).readBack, Json.parse_stringify (toWorkItemWire_wellFormed item), Option.bind_some,
      workItemFromValue_wire (hsecret ▸ sessionSecret_ne_nil host address token) (by simp [hdata]), hdata]
    rfl
  have hread : ((fromBase64url item.secret).bind (Json.parse host)).bind parseWorkSecret =
      some ⟨token, apiBaseUrl address⟩ := by
    rw [hsecret, sessionSecret, fromBase64url_toBase64url (Json.spelt_stringify host _), Option.bind_some,
      Json.parse_stringify (workSecretJson_wellFormed hone _), Option.bind_some,
      parseWorkSecret_json htoken (apiBaseUrl_ne_nil address)]
  simp [workerReads, hbody, hread]

/-- What a worker that was answered with an item knows, and where it gets with it. -/
structure Assigned (host : JsonHost) (uuids : Uuids) (address : HostEndpoint) (item : WorkItem) : Prop where
  reads : ∃ sessionId token, item.data = ⟨.session, some sessionId⟩ ∧ item.secret = sessionSecret host address token ∧
    workerReads host (workBody host uuids item) = some (uuids.text sessionId, ⟨token, apiBaseUrl address⟩)
  reaches : ∀ sessionId secret, workerReads host (workBody host uuids item) = some (sessionId, secret) →
    ∀ method leg, route method (leg.pathOf sessionId) = some (workerEndpoint method ⟨leg, sessionId⟩)

/-- Whatever the order of registrations, polls, sessions, disconnects and timers. -/
theorem work_received (hone : host.isNumber WORK_SECRET_VERSION = true)
    {p : BridgeState × List (EnvironmentId × WorkItem)} (h : DispatchRun host address p) {answer : PollAnswer}
    (hanswer : answer ∈ p.1.answered) {item : WorkItem} (hitem : answer.item = some item) :
    Assigned host uuids address item := by
  obtain ⟨sessionId, token, htoken, hdata, hsecret⟩ := h.answered hanswer hitem
  have hreads : workerReads host (workBody host uuids item) = some (uuids.text sessionId, ⟨token, apiBaseUrl address⟩) :=
    workerReads_dispatched hone htoken hdata hsecret
  refine ⟨⟨sessionId, token, hdata, hsecret, hreads⟩, fun id secret hread method leg => ?_⟩
  rw [hreads] at hread
  obtain ⟨rfl, -⟩ := Prod.mk.inj (Option.some.inj hread)
  exact route_worker (workerLeg_iff.mpr ⟨rfl, segment_uuid sessionId⟩)

/-- An environment polls, and a session is created. -/
def polledThenCreated (secret : JsString) : List BridgeEvent :=
  [.environmentRegister, .workPoll 0, .enqueueSessionWork 9 secret]

theorem work_received_polled :
    let address : HostEndpoint := ⟨js "127.0.0.1", 4321⟩
    let secret := sessionSecret integerHost address (js "t")
    let p := runFrom (watched bridgeStep enqueueWatch) (startBridge 0 0 DEFAULT_WORK_POLL_TIMEOUT_MS, [])
      (polledThenCreated secret)
    p.1.answered = [⟨0, 1, some ⟨3, secret, ⟨.session, some 9⟩⟩⟩] ∧
      Assigned integerHost digitUuids address ⟨3, secret, ⟨.session, some 9⟩⟩ := by
  intro address secret p
  have hanswered : p.1.answered = [⟨0, 1, some ⟨3, secret, ⟨.session, some 9⟩⟩⟩] := rfl
  have hstart : DispatchRun integerHost address (startBridge 0 0 DEFAULT_WORK_POLL_TIMEOUT_MS, []) :=
    .start ⟨⟨_, _, _, rfl⟩, rfl⟩
  have hrun : DispatchRun integerHost address p :=
    hstart.run_allowed ⟨trivial, trivial, ⟨js "t", by decide, rfl⟩, trivial⟩
  exact ⟨hanswered, work_received (by decide) hrun (hanswered ▸ List.mem_singleton.mpr rfl) rfl⟩

end Ccctl.Server
