import Ccctl.Core.Text
import Ccctl.Lib.Segments
/-
  Ccctl.Server.Routes — which handler a request goes to (`packages/server/src/index.ts`:
  `handleRequest`; `ui-sessions.ts`: `matchUiSessionRoute`; `environments-bridge.ts`:
  `matchWorkPollPath`, `matchWorkLifecyclePath`; `worker-channel.ts`: `matchWorkerRoute`), and the
  paths the clients are given (`packages/core/src/index.ts`: the path builders;
  `packages/web-ui/src/command.js`, `stop.js`: `sessionEventsPath`, `sessionCommandPath`,
  `sessionStopPath`).

  The matchers are tried in one order, each over the segments of the path. Nothing depends on the
  order: a request goes to an endpoint exactly when it is addressed to it (`route_exact`), and an
  address is the endpoint's own path with ids that are segments.

  Not modeled: the URL parse that finds the path.
-/

namespace Ccctl.Server

open Ccctl.Core Ccctl.Lib

/-! ## Paths -/

def BRIDGE_PROTOCOL_API_VERSION : JsString := js "v1"

def ENVIRONMENTS_PATH : JsString := js "/" ++ BRIDGE_PROTOCOL_API_VERSION ++ js "/environments"

def ENVIRONMENTS_BRIDGE_PATH : JsString := ENVIRONMENTS_PATH ++ js "/bridge"

/-- Of the bridge: the page's own constant of this name is `UI_SESSIONS_PATH` here. -/
def SESSIONS_PATH : JsString := js "/" ++ BRIDGE_PROTOCOL_API_VERSION ++ js "/sessions"

def UI_SESSIONS_PATH : JsString := js "/api/sessions"

def environmentWorkPollPath (environmentId : JsString) : JsString :=
  ENVIRONMENTS_PATH ++ js "/" ++ environmentId ++ js "/work/poll"

def workerChannelPath (sessionId : JsString) : JsString :=
  js "/" ++ BRIDGE_PROTOCOL_API_VERSION ++ js "/code/sessions/" ++ sessionId ++ js "/worker"

def workerRegisterPath (sessionId : JsString) : JsString := workerChannelPath sessionId ++ js "/register"

def workerEventsStreamPath (sessionId : JsString) : JsString := workerChannelPath sessionId ++ js "/events/stream"

def workerEventsPath (sessionId : JsString) : JsString := workerChannelPath sessionId ++ js "/events"

def workerEventsDeliveryPath (sessionId : JsString) : JsString := workerChannelPath sessionId ++ js "/events/delivery"

def workerHeartbeatPath (sessionId : JsString) : JsString := workerChannelPath sessionId ++ js "/heartbeat"

def sessionEventsPath (sessionId : JsString) : JsString := UI_SESSIONS_PATH ++ js "/" ++ sessionId ++ js "/events"

def sessionCommandPath (sessionId : JsString) : JsString := UI_SESSIONS_PATH ++ js "/" ++ sessionId ++ js "/command"

def sessionStopPath (sessionId : JsString) : JsString := UI_SESSIONS_PATH ++ js "/" ++ sessionId ++ js "/stop"

/-! ## The matchers -/

inductive UiSessionRoute where
  | list
  | events (sessionId : JsString)
  | command (sessionId : JsString)
  | stop (sessionId : JsString)
  deriving DecidableEq, Repr

inductive WorkLifecycleVerb where
  | ack | heartbeat | stop
  deriving DecidableEq, Repr

def WorkLifecycleVerb.text : WorkLifecycleVerb → JsString
  | .ack => js "ack"
  | .heartbeat => js "heartbeat"
  | .stop => js "stop"

structure WorkLifecycleRoute where
  environmentId : JsString
  workId : JsString
  verb : WorkLifecycleVerb
  deriving DecidableEq, Repr

inductive WorkerLeg where
  | register | eventsStream | events | eventsDelivery | heartbeat | status
  deriving DecidableEq, Repr

structure WorkerRoute where
  leg : WorkerLeg
  sessionId : JsString
  deriving DecidableEq, Repr

/-- `pathname.split("/")`. -/
def segmentsOf (pathname : JsString) : List JsString := pathname.splitOn 0x2F

def matchUiSessionRoute (pathname : JsString) : Option UiSessionRoute :=
  match segmentsOf pathname with
  | root :: api :: sessions :: tail =>
    if root ≠ [] ∨ api ≠ js "api" ∨ sessions ≠ js "sessions" then none
    else if tail = [] ∨ tail = [[]] then some .list
    else
      match tail with
      | [] => none
      | sessionId :: leg =>
        if sessionId = [] then none
        else if leg = [js "events"] then some (.events sessionId)
        else if leg = [js "command"] then some (.command sessionId)
        else if leg = [js "stop"] then some (.stop sessionId)
        else none
  | _ => none

def matchWorkPollPath (pathname : JsString) : Option JsString :=
  match segmentsOf pathname with
  | [root, version, environments, environmentId, work, poll] =>
    if root ≠ [] ∨ version ≠ BRIDGE_PROTOCOL_API_VERSION ∨ environments ≠ js "environments" ∨ work ≠ js "work" ∨
        poll ≠ js "poll" then none
    else if environmentId = [] then none
    else some environmentId
  | _ => none

def matchWorkLifecyclePath (pathname : JsString) : Option WorkLifecycleRoute :=
  match segmentsOf pathname with
  | [root, version, environments, environmentId, work, workId, verb] =>
    if root ≠ [] ∨ version ≠ BRIDGE_PROTOCOL_API_VERSION ∨ environments ≠ js "environments" ∨ work ≠ js "work" then none
    else if environmentId = [] ∨ workId = [] then none
    else if verb = js "ack" then some ⟨environmentId, workId, .ack⟩
    else if verb = js "heartbeat" then some ⟨environmentId, workId, .heartbeat⟩
    else if verb = js "stop" then some ⟨environmentId, workId, .stop⟩
    else none
  | _ => none

def matchWorkerRoute (pathname : JsString) : Option WorkerRoute :=
  match segmentsOf pathname with
  | root :: version :: code :: sessions :: sessionId :: worker :: tail =>
    if root ≠ [] ∨ version ≠ BRIDGE_PROTOCOL_API_VERSION ∨ code ≠ js "code" ∨ sessions ≠ js "sessions" ∨
        worker ≠ js "worker" then none
    else if sessionId = [] then none
    else if tail = [] then some ⟨.status, sessionId⟩
    else if tail = [js "register"] then some ⟨.register, sessionId⟩
    else if tail = [js "events"] then some ⟨.events, sessionId⟩
    else if tail = [js "heartbeat"] then some ⟨.heartbeat, sessionId⟩
    else if tail = [js "events", js "stream"] then some ⟨.eventsStream, sessionId⟩
    else if tail = [js "events", js "delivery"] then some ⟨.eventsDelivery, sessionId⟩
    else none
  | _ => none

/-! ## The dispatch -/

/-- A handler and what the path tells it. -/
inductive Endpoint where
  | sessionLaunch
  | sessionsList
  | eventStream (sessionId : JsString)
  | uiCommand (sessionId : JsString)
  | sessionStop (sessionId : JsString)
  | environmentRegister
  | sessionCreate
  | workPoll (environmentId : JsString)
  | workLifecycle (route : WorkLifecycleRoute)
  | workerRegister (sessionId : JsString)
  | workerEventsStream (sessionId : JsString)
  | workerEvents (sessionId : JsString)
  | workerDelivery (sessionId : JsString)
  | workerHeartbeat (sessionId : JsString)
  | workerStateRestore (sessionId : JsString)
  | workerStatus (sessionId : JsString)
  deriving DecidableEq, Repr

def uiEndpoint (method : JsString) : UiSessionRoute → Endpoint
  | .list => if method = js "POST" then .sessionLaunch else .sessionsList
  | .events sessionId => .eventStream sessionId
  | .command sessionId => .uiCommand sessionId
  | .stop sessionId => .sessionStop sessionId

def workerEndpoint (method : JsString) (route : WorkerRoute) : Endpoint :=
  match route.leg with
  | .register => .workerRegister route.sessionId
  | .eventsStream => .workerEventsStream route.sessionId
  | .events => .workerEvents route.sessionId
  | .eventsDelivery => .workerDelivery route.sessionId
  | .heartbeat => .workerHeartbeat route.sessionId
  | .status => if method = js "GET" then .workerStateRestore route.sessionId else .workerStatus route.sessionId

/-- `handleRequest`; `none` is its 404. -/
def route (method pathname : JsString) : Option Endpoint :=
  match matchUiSessionRoute pathname with
  | some uiSession => some (uiEndpoint method uiSession)
  | none =>
    if pathname = ENVIRONMENTS_BRIDGE_PATH then some .environmentRegister
    else if pathname = SESSIONS_PATH then some .sessionCreate
    else
      match matchWorkPollPath pathname with
      | some environmentId => some (.workPoll environmentId)
      | none =>
        match matchWorkLifecyclePath pathname with
        | some lifecycle => some (.workLifecycle lifecycle)
        | none => (matchWorkerRoute pathname).map (workerEndpoint method)

/-! ## Addresses -/

/-- What an id in a path is: nonempty, without a slash. -/
def Segment (id : JsString) : Prop := id ≠ [] ∧ 0x2F ∉ id

def workLifecyclePath (lifecycle : WorkLifecycleRoute) : JsString :=
  ENVIRONMENTS_PATH ++ js "/" ++ lifecycle.environmentId ++ js "/work/" ++ lifecycle.workId ++ js "/" ++
    lifecycle.verb.text

def Endpoint.paths : Endpoint → List JsString
  | .sessionLaunch | .sessionsList => [UI_SESSIONS_PATH, UI_SESSIONS_PATH ++ js "/"]
  | .eventStream id => [sessionEventsPath id]
  | .uiCommand id => [sessionCommandPath id]
  | .sessionStop id => [sessionStopPath id]
  | .environmentRegister => [ENVIRONMENTS_BRIDGE_PATH]
  | .sessionCreate => [SESSIONS_PATH]
  | .workPoll id => [environmentWorkPollPath id]
  | .workLifecycle lifecycle => [workLifecyclePath lifecycle]
  | .workerRegister id => [workerRegisterPath id]
  | .workerEventsStream id => [workerEventsStreamPath id]
  | .workerEvents id => [workerEventsPath id]
  | .workerDelivery id => [workerEventsDeliveryPath id]
  | .workerHeartbeat id => [workerHeartbeatPath id]
  | .workerStateRestore id | .workerStatus id => [workerChannelPath id]

def Endpoint.ids : Endpoint → List JsString
  | .sessionLaunch | .sessionsList | .environmentRegister | .sessionCreate => []
  | .workLifecycle lifecycle => [lifecycle.environmentId, lifecycle.workId]
  | .eventStream id | .uiCommand id | .sessionStop id | .workPoll id | .workerRegister id | .workerEventsStream id
  | .workerEvents id | .workerDelivery id | .workerHeartbeat id | .workerStateRestore id | .workerStatus id => [id]

/-- The two paths that the method decides. -/
def Endpoint.takes (method : JsString) : Endpoint → Prop
  | .sessionLaunch => method = js "POST"
  | .sessionsList => method ≠ js "POST"
  | .workerStateRestore _ => method = js "GET"
  | .workerStatus _ => method ≠ js "GET"
  | _ => True

structure Addressed (method pathname : JsString) (e : Endpoint) : Prop where
  path : pathname ∈ e.paths
  ids : ∀ id ∈ e.ids, Segment id
  method : e.takes method

/-! ## Segments of an address -/

def WorkerLeg.tail : WorkerLeg → List JsString
  | .status => []
  | .register => [js "register"]
  | .events => [js "events"]
  | .heartbeat => [js "heartbeat"]
  | .eventsStream => [js "events", js "stream"]
  | .eventsDelivery => [js "events", js "delivery"]

/-- The path of a worker's leg, and an id that is one. -/
def workerLeg (leg : WorkerLeg) (sessionId : JsString) (segments : List JsString) : Prop :=
  segments = [[], BRIDGE_PROTOCOL_API_VERSION, js "code", js "sessions"] ++ sessionId :: ([js "worker"] ++ leg.tail) ∧
    sessionId ≠ []

/-- The same of a leg of the page's. -/
def uiLeg (leg : JsString) (sessionId : JsString) (segments : List JsString) : Prop :=
  segments = [[], js "api", js "sessions"] ++ sessionId :: [leg] ∧ sessionId ≠ []

def uiCollection (segments : List JsString) : Prop :=
  segments = [[], js "api", js "sessions"] ∨ segments = [[], js "api", js "sessions", []]

def UiSessionRoute.Is (segments : List JsString) : UiSessionRoute → Prop
  | .list => uiCollection segments
  | .events sessionId => uiLeg (js "events") sessionId segments
  | .command sessionId => uiLeg (js "command") sessionId segments
  | .stop sessionId => uiLeg (js "stop") sessionId segments

def pollLeg (environmentId : JsString) (segments : List JsString) : Prop :=
  segments = [[], BRIDGE_PROTOCOL_API_VERSION, js "environments"] ++ environmentId :: [js "work", js "poll"] ∧
    environmentId ≠ []

def lifecycleLeg (lifecycle : WorkLifecycleRoute) (segments : List JsString) : Prop :=
  segments = [[], BRIDGE_PROTOCOL_API_VERSION, js "environments", lifecycle.environmentId, js "work", lifecycle.workId,
      lifecycle.verb.text] ∧
    lifecycle.environmentId ≠ [] ∧ lifecycle.workId ≠ []

def Endpoint.Is (method : JsString) (segments : List JsString) : Endpoint → Prop
  | .sessionLaunch => uiCollection segments ∧ method = js "POST"
  | .sessionsList => uiCollection segments ∧ method ≠ js "POST"
  | .eventStream id => uiLeg (js "events") id segments
  | .uiCommand id => uiLeg (js "command") id segments
  | .sessionStop id => uiLeg (js "stop") id segments
  | .environmentRegister => segments = [[], BRIDGE_PROTOCOL_API_VERSION, js "environments", js "bridge"]
  | .sessionCreate => segments = [[], BRIDGE_PROTOCOL_API_VERSION, js "sessions"]
  | .workPoll id => pollLeg id segments
  | .workLifecycle lifecycle => lifecycleLeg lifecycle segments
  | .workerRegister id => workerLeg .register id segments
  | .workerEventsStream id => workerLeg .eventsStream id segments
  | .workerEvents id => workerLeg .events id segments
  | .workerDelivery id => workerLeg .eventsDelivery id segments
  | .workerHeartbeat id => workerLeg .heartbeat id segments
  | .workerStateRestore id => workerLeg .status id segments ∧ method = js "GET"
  | .workerStatus id => workerLeg .status id segments ∧ method ≠ js "GET"

section
variable {pathname path : JsString}

theorem segmentsOf_eq {segments : List JsString} (hjoin : [0x2F].intercalate segments = path) (hne : segments ≠ [])
    (hfree : ∀ segment ∈ segments, 0x2F ∉ segment) : segmentsOf pathname = segments ↔ pathname = path := by
  rw [segmentsOf, Segments.splitOn_eq_iff hne, hjoin]
  exact and_iff_left hfree

/-- A path of one id. -/
theorem one_segment {id : JsString} {before after : List JsString}
    (hjoin : [0x2F].intercalate (before ++ id :: after) = path) (hfree : ∀ segment ∈ before ++ after, 0x2F ∉ segment) :
    (segmentsOf pathname = before ++ id :: after ∧ id ≠ []) ↔ pathname = path ∧ Segment id := by
  rw [segmentsOf, Segments.splitOn_eq_iff (by simp), hjoin, and_assoc]
  refine and_congr_right fun _ => ⟨fun ⟨hall, hne⟩ => ⟨hne, hall id (by simp)⟩, fun ⟨hne, hid⟩ => ⟨?_, hne⟩⟩
  intro segment hsegment
  rcases List.mem_append.mp hsegment with hbefore | hafter
  · exact hfree segment (List.mem_append_left _ hbefore)
  · rcases List.mem_cons.mp hafter with rfl | hafter
    · exact hid
    · exact hfree segment (List.mem_append_right _ hafter)

theorem collection_iff :
    uiCollection (segmentsOf pathname) ↔ pathname ∈ [UI_SESSIONS_PATH, UI_SESSIONS_PATH ++ js "/"] := by
  have hbare : segmentsOf pathname = [[], js "api", js "sessions"] ↔ pathname = UI_SESSIONS_PATH :=
    segmentsOf_eq rfl (by simp) (by decide)
  have hslash : segmentsOf pathname = [[], js "api", js "sessions", []] ↔ pathname = UI_SESSIONS_PATH ++ js "/" :=
    segmentsOf_eq rfl (by simp) (by decide)
  rw [uiCollection, hbare, hslash, List.mem_pair]

theorem uiLeg_iff {leg id : JsString} (hleg : 0x2F ∉ leg) :
    uiLeg leg id (segmentsOf pathname) ↔ pathname = UI_SESSIONS_PATH ++ js "/" ++ id ++ (js "/" ++ leg) ∧ Segment id := by
  refine one_segment ?_ ?_
  · have hjoin : [0x2F].intercalate ([[], js "api", js "sessions"] ++ id :: [leg]) =
        js "/api/sessions/" ++ (id ++ (js "/" ++ (leg ++ []))) := by
      rfl
    rw [hjoin, List.append_nil, List.append_assoc (UI_SESSIONS_PATH ++ js "/")]
    rfl
  · intro segment hsegment
    rcases List.mem_append.mp hsegment with hconst | hsame
    · have hfree : ∀ segment ∈ [[], js "api", js "sessions"], 0x2F ∉ segment := by decide
      exact hfree segment hconst
    · rw [List.mem_singleton.mp hsame]
      exact hleg

def WorkerLeg.pathOf : WorkerLeg → JsString → JsString
  | .status => workerChannelPath
  | .register => workerRegisterPath
  | .events => workerEventsPath
  | .heartbeat => workerHeartbeatPath
  | .eventsStream => workerEventsStreamPath
  | .eventsDelivery => workerEventsDeliveryPath

theorem workerLeg_iff {leg : WorkerLeg} {id : JsString} :
    workerLeg leg id (segmentsOf pathname) ↔ pathname = leg.pathOf id ∧ Segment id := by
  refine one_segment ?_ (by cases leg <;> decide)
  cases leg <;>
    simp only [WorkerLeg.pathOf, workerChannelPath, workerRegisterPath, workerEventsPath, workerHeartbeatPath,
      workerEventsStreamPath, workerEventsDeliveryPath, List.append_assoc] <;>
    rfl

theorem pollLeg_iff {id : JsString} :
    pollLeg id (segmentsOf pathname) ↔ pathname = environmentWorkPollPath id ∧ Segment id := by
  refine one_segment ?_ (by decide)
  simp only [environmentWorkPollPath, List.append_assoc]
  rfl

theorem lifecycleLeg_iff {lifecycle : WorkLifecycleRoute} :
    lifecycleLeg lifecycle (segmentsOf pathname) ↔
      pathname = workLifecyclePath lifecycle ∧ Segment lifecycle.environmentId ∧ Segment lifecycle.workId := by
  obtain ⟨environmentId, workId, verb⟩ := lifecycle
  have hjoin : [0x2F].intercalate [[], BRIDGE_PROTOCOL_API_VERSION, js "environments", environmentId, js "work", workId,
      verb.text] = workLifecyclePath ⟨environmentId, workId, verb⟩ := by
    have hassoc : [0x2F].intercalate [[], BRIDGE_PROTOCOL_API_VERSION, js "environments", environmentId, js "work", workId,
        verb.text] = ENVIRONMENTS_PATH ++ (js "/" ++ (environmentId ++ (js "/work/" ++ (workId ++ (js "/" ++
        (verb.text ++ [])))))) := by
      rfl
    rw [hassoc, List.append_nil]
    simp only [workLifecyclePath, List.append_assoc]
  have hverb : 0x2F ∉ verb.text := by cases verb <;> decide
  have hconst : (0x2F : UInt16) ∉ BRIDGE_PROTOCOL_API_VERSION ∧ (0x2F : UInt16) ∉ js "environments" ∧
      (0x2F : UInt16) ∉ js "work" := by decide
  rw [lifecycleLeg, segmentsOf, Segments.splitOn_eq_iff (by simp), hjoin, and_assoc]
  refine and_congr_right fun _ => ?_
  simp only [List.mem_cons, List.not_mem_nil, or_false, forall_eq_or_imp, forall_eq, not_false_iff, true_and, hconst,
    hverb, and_true, Segment, ne_eq]
  tauto

theorem addressed_one {method id path : JsString} {e : Endpoint} (hpaths : e.paths = [path]) (hids : e.ids = [id]) :
    Addressed method pathname e ↔ (pathname = path ∧ Segment id) ∧ e.takes method := by
  constructor
  · intro h
    have hpath := h.path
    have hid := h.ids
    rw [hpaths, List.mem_singleton] at hpath
    rw [hids] at hid
    exact ⟨⟨hpath, hid id List.mem_cons_self⟩, h.method⟩
  · intro hex
    obtain ⟨⟨hpath, hid⟩, hmethod⟩ := hex
    refine ⟨hpaths ▸ List.mem_singleton.mpr hpath, fun other hother => ?_, hmethod⟩
    rw [hids, List.mem_singleton] at hother
    exact hother ▸ hid

theorem addressed_iff {method : JsString} {e : Endpoint} :
    Addressed method pathname e ↔ e.Is method (segmentsOf pathname) := by
  cases e with
  | sessionLaunch | sessionsList =>
    rw [Endpoint.Is, collection_iff]
    exact ⟨fun h => ⟨h.path, h.method⟩, fun ⟨hpath, hmethod⟩ => ⟨hpath, by simp [Endpoint.ids], hmethod⟩⟩
  | environmentRegister =>
    rw [Endpoint.Is, segmentsOf_eq (by rfl : _ = ENVIRONMENTS_BRIDGE_PATH) (by simp) (by decide)]
    exact ⟨fun h => List.mem_singleton.mp h.path, fun heq => ⟨List.mem_singleton.mpr heq, by simp [Endpoint.ids], trivial⟩⟩
  | sessionCreate =>
    rw [Endpoint.Is, segmentsOf_eq (by rfl : _ = SESSIONS_PATH) (by simp) (by decide)]
    exact ⟨fun h => List.mem_singleton.mp h.path, fun heq => ⟨List.mem_singleton.mpr heq, by simp [Endpoint.ids], trivial⟩⟩
  | workLifecycle lifecycle =>
    rw [Endpoint.Is, lifecycleLeg_iff]
    constructor
    · intro h
      exact ⟨List.mem_singleton.mp h.path, h.ids _ List.mem_cons_self, h.ids _ (List.mem_cons_of_mem _ List.mem_cons_self)⟩
    · intro hparts
      obtain ⟨heq, henv, hwork⟩ := hparts
      refine ⟨List.mem_singleton.mpr heq, fun id hid => ?_, trivial⟩
      rcases List.mem_pair.mp hid with rfl | rfl
      · exact henv
      · exact hwork
  | eventStream id | uiCommand id | sessionStop id =>
    rw [Endpoint.Is, uiLeg_iff (by decide)]
    exact (addressed_one rfl rfl).trans (and_iff_left trivial)
  | workPoll id =>
    rw [Endpoint.Is, pollLeg_iff]
    exact (addressed_one rfl rfl).trans (and_iff_left trivial)
  | workerRegister id | workerEventsStream id | workerEvents id | workerDelivery id | workerHeartbeat id =>
    rw [Endpoint.Is, workerLeg_iff]
    exact (addressed_one rfl rfl).trans (and_iff_left trivial)
  | workerStateRestore id | workerStatus id =>
    rw [Endpoint.Is, workerLeg_iff]
    exact addressed_one rfl rfl

/-! ## The matchers' segments -/

theorem matchUiSessionRoute_some {r : UiSessionRoute} :
    matchUiSessionRoute pathname = some r ↔ r.Is (segmentsOf pathname) := by
  have hcommand : js "events" ≠ js "command" := by decide
  have hstop : js "events" ≠ js "stop" := by decide
  have hstop' : js "command" ≠ js "stop" := by decide
  unfold matchUiSessionRoute
  cases r <;> simp only [UiSessionRoute.Is, uiCollection, uiLeg] <;> grind

theorem matchWorkPollPath_some {environmentId : JsString} :
    matchWorkPollPath pathname = some environmentId ↔ pollLeg environmentId (segmentsOf pathname) := by
  unfold matchWorkPollPath pollLeg
  grind

theorem matchWorkLifecyclePath_some {lifecycle : WorkLifecycleRoute} :
    matchWorkLifecyclePath pathname = some lifecycle ↔ lifecycleLeg lifecycle (segmentsOf pathname) := by
  have hheartbeat : js "ack" ≠ js "heartbeat" := by decide
  have hstop : js "ack" ≠ js "stop" := by decide
  have hstop' : js "heartbeat" ≠ js "stop" := by decide
  unfold matchWorkLifecyclePath
  obtain ⟨environmentId, workId, verb⟩ := lifecycle
  cases verb <;> simp only [lifecycleLeg, WorkLifecycleVerb.text] <;> grind

theorem matchWorkerRoute_some {r : WorkerRoute} :
    matchWorkerRoute pathname = some r ↔ workerLeg r.leg r.sessionId (segmentsOf pathname) := by
  have hevents : js "register" ≠ js "events" := by decide
  have hheartbeat : js "register" ≠ js "heartbeat" := by decide
  have hheartbeat' : js "events" ≠ js "heartbeat" := by decide
  have hdelivery : js "stream" ≠ js "delivery" := by decide
  unfold matchWorkerRoute
  obtain ⟨leg, sessionId⟩ := r
  cases leg <;> simp only [workerLeg, WorkerLeg.tail] <;> grind

/-! ## The dispatch, exactly -/

theorem bridgePath_iff :
    pathname = ENVIRONMENTS_BRIDGE_PATH ↔
      segmentsOf pathname = [[], BRIDGE_PROTOCOL_API_VERSION, js "environments", js "bridge"] :=
  (segmentsOf_eq (by rfl : _ = ENVIRONMENTS_BRIDGE_PATH) (by simp) (by decide)).symm

theorem sessionsPath_iff :
    pathname = SESSIONS_PATH ↔ segmentsOf pathname = [[], BRIDGE_PROTOCOL_API_VERSION, js "sessions"] :=
  (segmentsOf_eq (by rfl : _ = SESSIONS_PATH) (by simp) (by decide)).symm

theorem route_some {method : JsString} {e : Endpoint} (h : route method pathname = some e) :
    e.Is method (segmentsOf pathname) := by
  unfold route at h
  split at h
  · rename_i uiSession hui
    rw [matchUiSessionRoute_some] at hui
    obtain rfl := Option.some.inj h
    cases uiSession with
    | list =>
      rw [uiEndpoint]
      split
      · exact ⟨hui, ‹_›⟩
      · exact ⟨hui, ‹_›⟩
    | events | command | stop => exact hui
  split at h
  · obtain rfl := Option.some.inj h
    exact bridgePath_iff.mp ‹_›
  split at h
  · obtain rfl := Option.some.inj h
    exact sessionsPath_iff.mp ‹_›
  split at h
  · obtain rfl := Option.some.inj h
    exact matchWorkPollPath_some.mp ‹_›
  split at h
  · obtain rfl := Option.some.inj h
    exact matchWorkLifecyclePath_some.mp ‹_›
  · obtain ⟨⟨leg, sessionId⟩, hworker, rfl⟩ := Option.map_eq_some_iff.mp h
    rw [matchWorkerRoute_some] at hworker
    cases leg with
    | status =>
      simp only [workerEndpoint]
      split
      · exact ⟨hworker, ‹_›⟩
      · exact ⟨hworker, ‹_›⟩
    | register | eventsStream | events | eventsDelivery | heartbeat => exact hworker

theorem uiSession_none {segments : List JsString} (hsegments : segmentsOf pathname = segments)
    (h : ∀ tail, segments ≠ [] :: js "api" :: tail) : matchUiSessionRoute pathname = none := by
  rw [Option.eq_none_iff_forall_ne_some]
  intro r hr
  rw [matchUiSessionRoute_some, hsegments] at hr
  cases r with
  | list => rcases hr with hr | hr <;> exact h _ hr
  | events | command | stop => exact h _ hr.1

theorem route_worker {method : JsString} {leg : WorkerLeg} {id : JsString} (h : workerLeg leg id (segmentsOf pathname)) :
    route method pathname = some (workerEndpoint method ⟨leg, id⟩) := by
  have hcode : js "environments" ≠ js "code" ∧ js "sessions" ≠ js "code" := by decide
  have hui := uiSession_none h.1 (by simp +decide)
  have hbridge : pathname ≠ ENVIRONMENTS_BRIDGE_PATH := by
    rw [ne_eq, bridgePath_iff, h.1]
    simp
  have hsessions : pathname ≠ SESSIONS_PATH := by
    rw [ne_eq, sessionsPath_iff, h.1]
    simp
  have hpoll : matchWorkPollPath pathname = none := by
    rw [Option.eq_none_iff_forall_ne_some]
    intro environmentId hid
    rw [matchWorkPollPath_some, pollLeg, h.1] at hid
    simp [hcode.1.symm] at hid
  have hlifecycle : matchWorkLifecyclePath pathname = none := by
    rw [Option.eq_none_iff_forall_ne_some]
    intro lifecycle hid
    rw [matchWorkLifecyclePath_some, lifecycleLeg, h.1] at hid
    simp [hcode.1.symm] at hid
  have hworker := matchWorkerRoute_some (r := ⟨leg, id⟩).mpr h
  simp only [route, hui, if_neg hbridge, if_neg hsessions, hpoll, hlifecycle, hworker, Option.map_some]

theorem route_of_is {method : JsString} {e : Endpoint} (h : e.Is method (segmentsOf pathname)) :
    route method pathname = some e := by
  cases e with
  | sessionLaunch =>
    have hui := matchUiSessionRoute_some (r := .list).mpr h.1
    simp only [route, hui, uiEndpoint, if_pos h.2]
  | sessionsList =>
    have hui := matchUiSessionRoute_some (r := .list).mpr h.1
    simp only [route, hui, uiEndpoint, if_neg h.2]
  | eventStream id =>
    have hui := matchUiSessionRoute_some (r := .events id).mpr h
    simp only [route, hui, uiEndpoint]
  | uiCommand id =>
    have hui := matchUiSessionRoute_some (r := .command id).mpr h
    simp only [route, hui, uiEndpoint]
  | sessionStop id =>
    have hui := matchUiSessionRoute_some (r := .stop id).mpr h
    simp only [route, hui, uiEndpoint]
  | environmentRegister =>
    have hui := uiSession_none h (by simp +decide)
    simp only [route, hui, if_pos (bridgePath_iff.mpr h)]
  | sessionCreate =>
    have hui := uiSession_none h (by simp +decide)
    have hbridge : pathname ≠ ENVIRONMENTS_BRIDGE_PATH := by
      rw [ne_eq, bridgePath_iff, h]
      decide
    simp only [route, hui, if_neg hbridge, if_pos (sessionsPath_iff.mpr h)]
  | workPoll id =>
    have hui := uiSession_none h.1 (by simp +decide)
    have hbridge : pathname ≠ ENVIRONMENTS_BRIDGE_PATH := by
      rw [ne_eq, bridgePath_iff, h.1]
      simp
    have hsessions : pathname ≠ SESSIONS_PATH := by
      rw [ne_eq, sessionsPath_iff, h.1]
      simp
    have hpoll := matchWorkPollPath_some.mpr h
    simp only [route, hui, if_neg hbridge, if_neg hsessions, hpoll]
  | workLifecycle lifecycle =>
    have hui := uiSession_none h.1 (by simp +decide)
    have hbridge : pathname ≠ ENVIRONMENTS_BRIDGE_PATH := by
      rw [ne_eq, bridgePath_iff, h.1]
      simp
    have hsessions : pathname ≠ SESSIONS_PATH := by
      rw [ne_eq, sessionsPath_iff, h.1]
      simp
    have hpoll : matchWorkPollPath pathname = none := by
      rw [Option.eq_none_iff_forall_ne_some]
      intro id hid
      rw [matchWorkPollPath_some, pollLeg, h.1] at hid
      simp at hid
    have hlifecycle := matchWorkLifecyclePath_some.mpr h
    simp only [route, hui, if_neg hbridge, if_neg hsessions, hpoll, hlifecycle]
  | workerRegister id | workerEventsStream id | workerEvents id | workerDelivery id | workerHeartbeat id =>
    exact route_worker h
  | workerStateRestore id =>
    rw [route_worker h.1, workerEndpoint, if_pos h.2]
  | workerStatus id =>
    rw [route_worker h.1, workerEndpoint, if_neg h.2]

end

end Ccctl.Server
