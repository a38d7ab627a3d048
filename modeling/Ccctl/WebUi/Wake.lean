import Ccctl.Core.JsonReadBack
import Ccctl.Core.UrlForm
import Ccctl.Lib.Reach
/-
  Ccctl.WebUi.Wake — from a wake to the session it is about (`packages/server/src/push-payload.ts`:
  `toPushPayload`; `packages/web-ui/sw.js`: its `push` and `notificationclick` listeners;
  `packages/web-ui/src/push.js`: `notificationContent`, `sessionDeepLinkUrl`, `deepLinkSessionId`,
  `consumeDeepLinkSessionId`, `navigateMessageSessionId`; `app.js`: what it does with these).

  The service worker cannot import the page's module, so it repeats it. A notification replaces the
  one with its tag; a tap brings the first window that can be focused to the session, by a message,
  or opens one at a deep link, which the page reads and takes out of its address.

  - `consume_deep_link`: where the path does not start with `//`, the parameter is taken out and all
    others stay, in order, under the values they had; a reload finds none.
  - `wake_shown`: in every run the worker shows what the page's module says, one notification for a
    session, each under the tag of the session it carries.
  - `wake_opens`: where the app is at no such path, a tap on a session's notification brings one
    window to that session and leaves every other window and notification alone.

  A path that starts with `//` names a host, once it stands alone: `replaceState` throws at it, and
  the page's script ends there, before it listens for a message. What the browser makes of a URL is
  its own (`Browser`). Not modeled: a message to a page that is still loading.
-/

namespace Ccctl.WebUi.Wake

open Ccctl.Core Ccctl.Lib

def PUSH_NOTIFICATION_TITLE : JsString := js "ccctl"

/-- The server's constant of this name is the same. -/
def PUSH_WAKE_TEXT : JsString := js "A session needs your input"

def NOTIFICATION_CLASS_BLOCKING : JsString := js "blocking"

def DEEP_LINK_SESSION_PARAM : JsString := js "session"

def NAVIGATE_MESSAGE_TYPE : JsString := js "ccctl:navigate"

/-- `typeof value === "string" && value.trim() !== ""`. -/
def nonBlank (value : Option Json) : Option JsString :=
  match Json.asString value with
  | some text => if trim text ≠ [] then some text else none
  | none => none

/-! ## The server's payload -/

def toPushPayload (sessionId : JsString) : Json :=
  .obj [(js "session_id", .str sessionId), (js "text", .str PUSH_WAKE_TEXT),
    (js "notification_class", .str NOTIFICATION_CLASS_BLOCKING)]

/-! ## The page's module -/

structure NotificationContent where
  title : JsString
  body : JsString
  tag : JsString
  /-- `data.session_id`. -/
  sessionId : Option JsString
  deriving DecidableEq

def sessionTag (sessionId : JsString) : JsString := js "ccctl-session-" ++ sessionId

def notificationContent (payload : Json) : NotificationContent :=
  let sessionId := nonBlank (payload.get (js "session_id"))
  { title := PUSH_NOTIFICATION_TITLE
    body := (nonBlank (payload.get (js "text"))).getD PUSH_WAKE_TEXT
    tag := (sessionId.map sessionTag).getD (js "ccctl-wake")
    sessionId }

/-- A `URIError` is `none`. -/
def sessionDeepLinkUrl (sessionId : JsString) : Option JsString :=
  if trim sessionId = [] then some (js "./")
  else (encodeURIComponent sessionId).map fun component => js "./?" ++ DEEP_LINK_SESSION_PARAM ++ js "=" ++ component

/-- `search.startsWith("?") ? search.slice(1) : search`. -/
def rawQuery (search : JsString) : JsString := if search.head? = some 0x3F then search.tail else search

def deepLinkSessionId (search : JsString) : Option JsString :=
  nonBlank ((getParam (searchParams (rawQuery search)) DEEP_LINK_SESSION_PARAM).map .str)

structure Address where
  pathname : JsString
  search : JsString
  hash : JsString
  deriving DecidableEq

/-- What a browser makes of URLs. -/
structure Browser where
  /-- A page of the app can be at the address. -/
  located : Address → Prop
  /-- `history.replaceState` with a URL, of a page at an address: where it is then, or that it threw. -/
  replaceState : Address → JsString → Option Address
  /-- Where `clients.openWindow` leads, in a worker whose `./` is the path. -/
  openWindow : JsString → JsString → Address

/-- `query === "" ? "" : "?" + query`. -/
def searchOf (query : JsString) : JsString := if query = [] then [] else 0x3F :: query

/-- `none` when `replaceState` throws. -/
def consumeDeepLinkSessionId (browser : Browser) (address : Address) : Option (Option JsString × Address) :=
  match deepLinkSessionId address.search with
  | none => some (none, address)
  | some id =>
    let params := (searchParams (rawQuery address.search)).filter fun pair => pair.1 ≠ DEEP_LINK_SESSION_PARAM
    let query := formSerialize params
    (browser.replaceState address (address.pathname ++ searchOf query ++ address.hash)).map fun address => (some id, address)

def navigateMessageSessionId (message : Json) : Option JsString :=
  if Json.isText (message.get (js "type")) NAVIGATE_MESSAGE_TYPE then nonBlank (message.get (js "session_id")) else none

/-! ## The service worker -/

def isTruthy : Json → Bool
  | .null => false
  | .bool b => b
  | .num q => q ≠ 0
  | .str s => s ≠ []
  | .arr _ | .obj _ => true

/-- A window of the app; `focusable` is `"focus" in client`. -/
structure Window where
  focusable : Bool
  address : Address
  currentSessionId : Option JsString
  /-- Its script ran to the end. -/
  booted : Bool
  deriving DecidableEq

structure Device where
  /-- The path that `./` is. -/
  scope : JsString
  canOpenWindow : Bool
  shown : List NotificationContent
  /-- As `matchAll` lists them: the last focused first. -/
  windows : List Window

inductive Event where
  | push (data : Option (List Nat))
  | tapped (tag : JsString)
  | dismissed (tag : JsString)
  /-- The operator's: the app opened at an address, a window focused or closed, a session selected. -/
  | opened (focusable : Bool) (address : Address)
  | focused (i : Nat)
  | closed (i : Nat)
  | selected (i : Nat) (sessionId : JsString)

/-- The page as it boots: with a deep link that throws, no further. -/
def boot (browser : Browser) (focusable : Bool) (address : Address) : Window :=
  match consumeDeepLinkSessionId browser address with
  | some (sessionId, address) => ⟨focusable, address, sessionId, true⟩
  | none => ⟨focusable, address, none, false⟩

/-- The page's `message` listener, once there is one. -/
def onMessage (window : Window) (message : Json) : Window :=
  if window.booted then
    match navigateMessageSessionId message with
    | some sessionId => { window with currentSessionId := some sessionId }
    | none => window
  else window

def navigateMessage (sessionId : JsString) : Json :=
  .obj [(js "type", .str (js "ccctl:navigate")), (js "session_id", .str sessionId)]

section
variable (host : JsonHost)

/-- What the `push` listener shows. -/
def pushShows (data : Option (List Nat)) : NotificationContent :=
  let payload := (data.bind fun bytes => Json.parse host (encode (utf8Decode bytes))).getD .null
  let text :=
    match if isTruthy payload then nonBlank (payload.get (js "text")) else none with
    | some text => text
    | none => js "A session needs your input"
  let sessionId := if isTruthy payload then nonBlank (payload.get (js "session_id")) else none
  { title := js "ccctl"
    body := text
    tag :=
      match sessionId with
      | some sessionId => js "ccctl-session-" ++ sessionId
      | none => js "ccctl-wake"
    sessionId }

end

namespace Device

/-- `showNotification`: in the place of the one with its tag. -/
def show_ (s : Device) (content : NotificationContent) : Device :=
  { s with shown := (s.shown.filter fun n => n.tag ≠ content.tag) ++ [content] }

def dismiss (s : Device) (tag : JsString) : Device := { s with shown := s.shown.filter fun n => n.tag ≠ tag }

/-- `notificationclick`, after its `close`. -/
def click (browser : Browser) (s : Device) (content : NotificationContent) : Device :=
  let sessionId := nonBlank (content.sessionId.map .str)
  let url :=
    match sessionId with
    | some sessionId => (encodeURIComponent sessionId).map fun component => js "./?session=" ++ component
    | none => some (js "./")
  match url with
  | none => s
  | some url =>
    match s.windows.span fun window => !window.focusable with
    | (before, window :: after) =>
      let window :=
        match sessionId with
        | some sessionId => onMessage window (navigateMessage sessionId)
        | none => window
      { s with windows := window :: (before ++ after) }
    | (_, []) =>
      if s.canOpenWindow then { s with windows := boot browser true (browser.openWindow s.scope url) :: s.windows } else s

end Device

open Device in
def wakeStep (browser : Browser) (host : JsonHost) (s : Device) : Event → Device
  | .push data => s.show_ (pushShows host data)
  | .tapped tag =>
    match s.shown.find? fun n => n.tag = tag with
    | some content => (s.dismiss tag).click browser content
    | none => s
  | .dismissed tag => s.dismiss tag
  | .opened focusable address => { s with windows := boot browser focusable address :: s.windows }
  | .focused i =>
    match s.windows[i]? with
    | some window => { s with windows := window :: s.windows.eraseIdx i }
    | none => s
  | .closed i => { s with windows := s.windows.eraseIdx i }
  | .selected i sessionId =>
    { s with windows := s.windows.modify i fun window =>
      if window.booted then { window with currentSessionId := some sessionId } else window }

abbrev WakeRun (browser : Browser) (host : JsonHost) : Device → Prop :=
  Reach (wakeStep browser host) (fun s => s.shown = [] ∧ s.windows = []) anyEvent

/-! ## What a browser documents -/

namespace Browser

/-- An address that is its own host's when its path stands alone. -/
structure Rooted (browser : Browser) (address : Address) : Prop where
  located : browser.located address
  path : ¬ js "//" <+: address.pathname

structure Laws (browser : Browser) : Prop where
  root : ∀ scope, browser.located ⟨scope, [], []⟩ → browser.openWindow scope (js "./") = ⟨scope, [], []⟩
  /-- A page may give itself another query, by its path. -/
  replaceState : ∀ address params, browser.Rooted address →
    browser.replaceState address (address.pathname ++ searchOf (formSerialize params) ++ address.hash) =
      some { address with search := searchOf (formSerialize params) }
  /-- A query of a name and a component is read as it was written, whatever of it the address escapes. -/
  openWindow : ∀ scope name value component, browser.located ⟨scope, [], []⟩ →
    (∀ p ∈ codePoints name, isUnreserved p = true) → encodeURIComponent value = some component →
      ∃ search, browser.openWindow scope (js "./?" ++ (name ++ 0x3D :: component)) = ⟨scope, search, []⟩ ∧
        browser.located ⟨scope, search, []⟩ ∧ searchParams (rawQuery search) = searchParams (name ++ 0x3D :: component)

end Browser

def Event.rooted (browser : Browser) : Event → Prop
  | .opened _ address => browser.Rooted address
  | _ => True

/-- A run in which the app is at no path that starts with `//`. -/
abbrev RootedRun (browser : Browser) (host : JsonHost) : Device → Prop :=
  Reach (wakeStep browser host) (fun s => (s.shown = [] ∧ s.windows = []) ∧ browser.Rooted ⟨s.scope, [], []⟩)
    fun _ e => e.rooted browser

/-! ## The address -/

theorem nonBlank_some {value : Option Json} {text : JsString} (h : nonBlank value = some text) :
    Json.asString value = some text ∧ trim text ≠ [] := by
  unfold nonBlank at h
  split at h
  · rename_i found hfound
    split at h
    · rename_i hblank
      obtain rfl := Option.some.inj h
      exact ⟨hfound, hblank⟩
    · cases h
  · cases h

theorem nonBlank_str {text : JsString} (h : trim text ≠ []) : nonBlank (some (.str text)) = some text := if_pos h

/-- What a query is read as once it is written. -/
theorem searchParams_written {params : List (JsString × JsString)} (h : ∀ pair ∈ params, Scalars pair.1 ∧ Scalars pair.2) :
    searchParams (rawQuery (searchOf (formSerialize params))) = params := by
  unfold searchOf
  split
  · rename_i hnil
    rw [formSerialize_eq_nil.mp hnil]
    decide
  · rw [rawQuery, List.head?_cons, if_pos rfl, List.tail_cons, searchParams_formSerialize h]

/-- The parameters that stay. -/
def kept (address : Address) : List (JsString × JsString) :=
  (searchParams (rawQuery address.search)).filter fun pair => pair.1 ≠ DEEP_LINK_SESSION_PARAM

theorem kept_scalars (address : Address) : ∀ pair ∈ kept address, Scalars pair.1 ∧ Scalars pair.2 := fun pair hpair =>
  searchParams_scalars _ pair (List.mem_filter.mp hpair).1

theorem deepLinkSessionId_kept {address : Address} {search : JsString}
    (h : searchParams (rawQuery search) = kept address) : deepLinkSessionId search = none := by
  have hnone : getParam (searchParams (rawQuery search)) DEEP_LINK_SESSION_PARAM = none := by
    rw [h, getParam, Option.map_eq_none_iff, List.find?_eq_none]
    intro pair hpair
    simpa using (List.mem_filter.mp hpair).2
  rw [deepLinkSessionId, hnone]
  rfl

section
variable {browser : Browser} {address : Address}

theorem consume_none (browser : Browser) (h : deepLinkSessionId address.search = none) :
    consumeDeepLinkSessionId browser address = some (none, address) := by
  rw [consumeDeepLinkSessionId, h]

theorem consume_some (laws : browser.Laws) (hrooted : browser.Rooted address) {id : JsString}
    (h : deepLinkSessionId address.search = some id) :
    consumeDeepLinkSessionId browser address =
      some (some id, { address with search := searchOf (formSerialize (kept address)) }) := by
  have hreplaced := laws.replaceState address (kept address) hrooted
  rw [consumeDeepLinkSessionId, h]
  show (browser.replaceState address (address.pathname ++ searchOf (formSerialize (kept address)) ++ address.hash)).map _ = _
  rw [hreplaced]
  rfl

/-- Whatever the query and the fragment. -/
theorem consume_deep_link (laws : browser.Laws) (hrooted : browser.Rooted address) :
    ∃ after, consumeDeepLinkSessionId browser address = some (deepLinkSessionId address.search, after) ∧
      (deepLinkSessionId address.search = none → after = address) ∧
      ∀ id, deepLinkSessionId address.search = some id →
        searchParams (rawQuery after.search) =
          ((searchParams (rawQuery address.search)).filter fun pair => pair.1 ≠ DEEP_LINK_SESSION_PARAM) ∧
        after.pathname = address.pathname ∧ after.hash = address.hash ∧
        consumeDeepLinkSessionId browser after = some (none, after) := by
  cases hid : deepLinkSessionId address.search with
  | none => exact ⟨address, consume_none browser hid, fun _ => rfl, fun _ h => by cases h⟩
  | some found =>
    have hread := searchParams_written (kept_scalars address)
    exact ⟨_, consume_some laws hrooted hid, fun h => (by cases h), fun _ _ =>
      ⟨hread, rfl, rfl, consume_none browser (deepLinkSessionId_kept hread)⟩⟩

end

/-- A browser that leaves every query as it is. -/
def plainBrowser : Browser where
  located address := (∀ u ∈ address.pathname, u ≠ 0x3F ∧ u ≠ 0x23) ∧ (address.hash = [] ∨ address.hash.head? = some 0x23)
  replaceState _ url :=
    if js "//" <+: url then none
    else
      let before := url.takeWhile (· ≠ 0x23)
      some ⟨before.takeWhile (· ≠ 0x3F), before.dropWhile (· ≠ 0x3F), url.dropWhile (· ≠ 0x23)⟩
  openWindow scope url := ⟨scope, url.drop 2, []⟩

theorem formSerialize_hash (params : List (JsString × JsString)) : ∀ u ∈ formSerialize params, u ≠ 0x23 := by
  intro u hu
  obtain ⟨b, hb, rfl⟩ := List.mem_map.mp hu
  obtain ⟨hascii, hhash, -⟩ := formSerialize_bytes params b hb
  intro heq
  have hvalue := congrArg UInt16.toNat heq
  rw [UInt16.toNat_ofNat', Nat.mod_eq_of_lt (Nat.lt_trans hascii (by decide))] at hvalue
  exact hhash hvalue

theorem head_of_slash {later rest : JsString} (h : 0x2F :: later <+: rest) : rest.head? = some 0x2F := by
  obtain ⟨tail, rfl⟩ := h
  rfl

/-- What follows the path cannot make it one that names a host. -/
theorem hostless {pathname rest : JsString} (h : ¬ js "//" <+: pathname) (hrest : rest.head? ≠ some 0x2F) :
    ¬ js "//" <+: pathname ++ rest := by
  intro hstart
  have hslashes : js "//" = [0x2F, 0x2F] := by decide
  rw [hslashes] at h hstart
  match pathname with
  | [] => exact hrest (head_of_slash hstart)
  | [u] => exact hrest (head_of_slash (List.cons_prefix_cons.mp hstart).2)
  | u :: v :: more =>
    obtain ⟨hu, hlater⟩ := List.cons_prefix_cons.mp hstart
    obtain ⟨hv, -⟩ := List.cons_prefix_cons.mp hlater
    exact h ⟨more, by rw [← hu, ← hv]; rfl⟩

/-- Up to a unit that ends it. -/
theorem split_at {u : UInt16} {before after : JsString} (hbefore : ∀ v ∈ before, v ≠ u)
    (hafter : after = [] ∨ after.head? = some u) :
    (before ++ after).takeWhile (· ≠ u) = before ∧ (before ++ after).dropWhile (· ≠ u) = after := by
  have hall : ∀ v ∈ before, decide (v ≠ u) = true := fun v hv => decide_eq_true (hbefore v hv)
  rw [List.takeWhile_append_of_pos hall, List.dropWhile_append_of_pos hall]
  cases after with
  | nil => simp
  | cons v rest =>
    obtain rfl : v = u := by simpa using hafter
    simp

theorem plainBrowser_laws : plainBrowser.Laws where
  root _ _ := rfl
  replaceState address params hrooted := by
    obtain ⟨⟨hpath, hhash⟩, hhost⟩ := hrooted
    have hquery : ∀ u ∈ searchOf (formSerialize params), u ≠ 0x23 := by
      unfold searchOf
      split
      · exact fun u hu => absurd hu List.not_mem_nil
      · exact List.forall_mem_cons.mpr ⟨by decide, formSerialize_hash params⟩
    have hfirst : searchOf (formSerialize params) = [] ∨ (searchOf (formSerialize params)).head? = some 0x3F := by
      unfold searchOf
      split
      · exact .inl rfl
      · exact .inr rfl
    generalize searchOf (formSerialize params) = search at hquery hfirst
    have hbefore : ∀ u ∈ address.pathname ++ search, u ≠ 0x23 :=
      List.forall_mem_append.mpr ⟨fun u hu => (hpath u hu).2, hquery⟩
    obtain ⟨htake, hdrop⟩ := split_at hbefore hhash
    obtain ⟨htake', hdrop'⟩ := split_at (fun u hu => (hpath u hu).1) hfirst
    have hrest : (search ++ address.hash).head? ≠ some 0x2F := by
      rcases hfirst with rfl | hmark
      · rcases hhash with hnil | hsign
        · rw [hnil]
          decide
        · rw [List.nil_append, hsign]
          decide
      · rw [List.head?_append, hmark, Option.some_or]
        decide
    have hurl : ¬ js "//" <+: address.pathname ++ search ++ address.hash := by
      rw [List.append_assoc]
      exact hostless hhost hrest
    show (if js "//" <+: address.pathname ++ search ++ address.hash then none else some _) = _
    rw [if_neg hurl, htake, hdrop, htake', hdrop']
  openWindow scope name value component hscope _ _ := ⟨_, rfl, hscope, rfl⟩

theorem plainBrowser_rooted {address : Address}
    (hpath : (address.pathname.all fun u => u != 0x3F && u != 0x23) = true)
    (hhash : address.hash = [] ∨ address.hash.head? = some 0x23) (hhost : ¬ js "//" <+: address.pathname) :
    plainBrowser.Rooted address := ⟨⟨by simpa using hpath, hhash⟩, hhost⟩

/-- A link among other parameters, and a fragment. -/
theorem consume_deep_link_tapped :
    ∃ after, consumeDeepLinkSessionId plainBrowser ⟨js "/app/", js "?a=1&session=s%201&b=x+y", js "#top"⟩ =
        some (some (js "s 1"), after) ∧ searchParams (rawQuery after.search) = [(js "a", js "1"), (js "b", js "x y")] ∧
      after.pathname = js "/app/" ∧ after.hash = js "#top" ∧
      consumeDeepLinkSessionId plainBrowser after = some (none, after) := by
  have hrooted : plainBrowser.Rooted ⟨js "/app/", js "?a=1&session=s%201&b=x+y", js "#top"⟩ :=
    plainBrowser_rooted (by decide) (by decide) (by decide)
  have hid : deepLinkSessionId (js "?a=1&session=s%201&b=x+y") = some (js "s 1") := by decide +kernel
  obtain ⟨after, hconsume, -, hlink⟩ := consume_deep_link plainBrowser_laws hrooted
  obtain ⟨hparams, hpath, hhash, hagain⟩ := hlink _ hid
  refine ⟨after, hid ▸ hconsume, hparams.trans ?_, hpath, hhash, hagain⟩
  decide +kernel

/-- At such a path the page ends. -/
example : consumeDeepLinkSessionId plainBrowser ⟨js "//", js "?session=a", []⟩ = none := by decide +kernel

/-! ## The two sides of the worker -/

theorem pushShows_eq (host : JsonHost) (data : Option (List Nat)) :
    pushShows host data =
      notificationContent ((data.bind fun bytes => Json.parse host (encode (utf8Decode bytes))).getD .null) := by
  unfold pushShows notificationContent
  generalize (data.bind fun bytes => Json.parse host (encode (utf8Decode bytes))).getD .null = payload
  have hfalsy : isTruthy payload = false → ∀ key, nonBlank (payload.get key) = none := by
    intro h key
    cases payload with
    | obj fields => cases h
    | _ => rfl
  cases htruthy : isTruthy payload with
  | true =>
    simp only [htruthy, if_true]
    cases nonBlank (payload.get (js "text")) <;> cases nonBlank (payload.get (js "session_id")) <;> rfl
  | false =>
    simp only [htruthy, hfalsy htruthy]
    rfl

variable {host : JsonHost}

theorem toPushPayload_wellFormed (sessionId : JsString) : (toPushPayload sessionId).WellFormed host := by
  refine .names [js "session_id", js "text", js "notification_class"] rfl (by decide) (by decide) ?_
  simp [Json.WellFormed.str]

/-- What the server pushes for a session. -/
def wakeData (host : JsonHost) (sessionId : JsString) : List Nat := formBytes (Json.stringify host (toPushPayload sessionId))

def wakeContent (sessionId : JsString) : NotificationContent :=
  ⟨PUSH_NOTIFICATION_TITLE, PUSH_WAKE_TEXT, sessionTag sessionId, some sessionId⟩

theorem pushShows_wake {sessionId : JsString} (h : trim sessionId ≠ []) :
    pushShows host (some (wakeData host sessionId)) = wakeContent sessionId := by
  have hparse : Json.parse host (encode (utf8Decode (wakeData host sessionId))) = some (toPushPayload sessionId) := by
    rw [wakeData, (Json.spelt_stringify host _).readBack, Json.parse_stringify (toPushPayload_wellFormed sessionId)]
  rw [pushShows_eq, Option.bind_some, hparse, Option.getD_some]
  have hid : nonBlank ((toPushPayload sessionId).get (js "session_id")) = some sessionId := nonBlank_str h
  have htext : nonBlank ((toPushPayload sessionId).get (js "text")) = some PUSH_WAKE_TEXT :=
    nonBlank_str (by decide)
  rw [notificationContent, hid, htext]
  rfl

/-- The message takes the page to the session. -/
theorem onMessage_navigate {sessionId : JsString} (h : trim sessionId ≠ []) {window : Window} (hbooted : window.booted = true) :
    onMessage window (navigateMessage sessionId) = { window with currentSessionId := some sessionId } := by
  have hid : nonBlank ((navigateMessage sessionId).get (js "session_id")) = some sessionId := nonBlank_str h
  have htype : Json.isText ((navigateMessage sessionId).get (js "type")) NAVIGATE_MESSAGE_TYPE = true := by
    show Json.isText (some (.str (js "ccctl:navigate"))) NAVIGATE_MESSAGE_TYPE = true
    decide
  rw [onMessage, if_pos hbooted, navigateMessageSessionId, if_pos htype, hid]

/-- The URL the worker opens is the page's module's. -/
theorem click_url (sessionId : Option JsString) :
    (match nonBlank (sessionId.map .str) with
      | some sessionId => (encodeURIComponent sessionId).map fun component => js "./?session=" ++ component
      | none => some (js "./")) = sessionDeepLinkUrl (sessionId.getD []) := by
  cases sessionId with
  | none => rfl
  | some sessionId =>
    rw [Option.map_some, Option.getD_some]
    by_cases hblank : trim sessionId = []
    · rw [sessionDeepLinkUrl, if_pos hblank]
      simp [nonBlank, Json.asString, hblank]
    · rw [sessionDeepLinkUrl, if_neg hblank, nonBlank_str hblank]
      rfl

variable {browser : Browser}

/-- The deep link is one parameter, and the page takes it out. -/
theorem boot_deepLink (laws : browser.Laws) {scope sessionId url : JsString} (hscope : browser.Rooted ⟨scope, [], []⟩)
    (h : trim sessionId ≠ []) (hurl : sessionDeepLinkUrl sessionId = some url) (focusable : Bool) :
    boot browser focusable (browser.openWindow scope url) = ⟨focusable, ⟨scope, [], []⟩, some sessionId, true⟩ := by
  rw [sessionDeepLinkUrl, if_neg h] at hurl
  obtain ⟨component, hcomponent, hwritten⟩ := Option.map_eq_some_iff.mp hurl
  rw [List.append_assoc, List.append_assoc] at hwritten
  have hname : ∀ p ∈ codePoints DEEP_LINK_SESSION_PARAM, isUnreserved p = true := by decide
  obtain ⟨search, hopened, hlocated, hread⟩ := laws.openWindow scope _ sessionId component hscope.located hname hcomponent
  have hopened : browser.openWindow scope url = ⟨scope, search, []⟩ := hwritten ▸ hopened
  rw [hopened]
  have hparams : searchParams (rawQuery search) = [(DEEP_LINK_SESSION_PARAM, sessionId)] :=
    hread.trans (searchParams_component hname hcomponent)
  have hid : deepLinkSessionId search = some sessionId := by
    have hget : getParam [(DEEP_LINK_SESSION_PARAM, sessionId)] DEEP_LINK_SESSION_PARAM = some sessionId := by simp [getParam]
    rw [deepLinkSessionId, hparams, hget]
    exact nonBlank_str h
  have hkept : kept ⟨scope, search, []⟩ = [] := by
    rw [kept, hparams]
    simp
  have hrooted : browser.Rooted ⟨scope, search, []⟩ := ⟨hlocated, hscope.path⟩
  have hconsume : consumeDeepLinkSessionId browser ⟨scope, search, []⟩ = some (some sessionId, ⟨scope, [], []⟩) := by
    have hnil : searchOf (formSerialize []) = [] := if_pos (formSerialize_eq_nil.mpr (Eq.refl []))
    have hconsumed : consumeDeepLinkSessionId browser ⟨scope, search, []⟩ = _ := consume_some laws hrooted hid
    rw [hkept, hnil] at hconsumed
    exact hconsumed
  rw [boot, hconsume]

/-- A page at a path of its own host boots. -/
theorem boot_booted (laws : browser.Laws) {address : Address} (hrooted : browser.Rooted address) (focusable : Bool) :
    (boot browser focusable address).booted = true := by
  obtain ⟨after, hconsume, -⟩ := consume_deep_link laws hrooted
  rw [boot, hconsume]

/-! ## Runs -/

variable {s : Device}

/-- One notification for a tag, and the tag is its session's. -/
structure Shown (s : Device) : Prop where
  tags : (s.shown.map (·.tag)).Nodup
  tag : ∀ n ∈ s.shown, n.tag = (n.sessionId.map sessionTag).getD (js "ccctl-wake")
  sessionId : ∀ n ∈ s.shown, ∀ id, n.sessionId = some id → trim id ≠ []

theorem Shown.dismiss (h : Shown s) (tag : JsString) : Shown (s.dismiss tag) where
  tags := h.tags.sublist (List.filter_sublist.map _)
  tag n hn := h.tag n (List.mem_filter.mp hn).1
  sessionId n hn := h.sessionId n (List.mem_filter.mp hn).1

theorem notificationContent_tag (payload : Json) :
    (notificationContent payload).tag = ((notificationContent payload).sessionId.map sessionTag).getD (js "ccctl-wake") := rfl

theorem Shown.show_ (h : Shown s) (payload : Json) : Shown (s.show_ (notificationContent payload)) := by
  have hmem : ∀ n ∈ (s.show_ (notificationContent payload)).shown, n ∈ s.shown ∨ n = notificationContent payload := by
    intro n hn
    rcases List.mem_append.mp hn with hn | hn
    · exact .inl (List.mem_filter.mp hn).1
    · exact .inr (List.mem_singleton.mp hn)
  refine ⟨?_, fun n hn => ?_, fun n hn id hid => ?_⟩
  · rw [Device.show_, List.map_append, List.nodup_append]
    refine ⟨h.tags.sublist (List.filter_sublist.map _), by simp, fun tag htag other hother heq => ?_⟩
    obtain ⟨n, hn, rfl⟩ := List.mem_map.mp htag
    have hne : n.tag ≠ (notificationContent payload).tag := by simpa using (List.mem_filter.mp hn).2
    exact hne (heq.trans (by simpa using hother))
  · rcases hmem n hn with hn | rfl
    · exact h.tag n hn
    · exact notificationContent_tag payload
  · rcases hmem n hn with hn | rfl
    · exact h.sessionId n hn id hid
    · exact (nonBlank_some hid).2

theorem click_shown (browser : Browser) (s : Device) (content : NotificationContent) :
    (s.click browser content).shown = s.shown := by
  unfold Device.click
  dsimp only
  split
  · rfl
  · split
    · rfl
    · split <;> rfl

theorem Shown.congr {s' : Device} (h : Shown s) (hsame : s'.shown = s.shown) : Shown s' where
  tags := hsame ▸ h.tags
  tag := hsame ▸ h.tag
  sessionId := hsame ▸ h.sessionId

theorem wakeStep_shown (h : Shown s) (e : Event) : Shown (wakeStep browser host s e) := by
  cases e with
  | push data =>
    rw [wakeStep, pushShows_eq]
    exact h.show_ _
  | tapped tag =>
    unfold wakeStep
    dsimp only
    split
    · exact (h.dismiss tag).congr (click_shown _ _ _)
    · exact h
  | dismissed tag => exact h.dismiss tag
  | opened focusable address => exact h.congr rfl
  | focused i =>
    unfold wakeStep
    dsimp only
    split
    · exact h.congr rfl
    · exact h
  | closed i => exact h.congr rfl
  | selected i sessionId => exact h.congr rfl

theorem WakeRun.shown (h : WakeRun browser host s) : Shown s :=
  h.inv (fun _ hs => ⟨by simp [hs.1], by simp [hs.1], by simp [hs.1]⟩) fun _ e hs _ => wakeStep_shown hs e

theorem sessionTag_injective {id id' : JsString} (h : sessionTag id = sessionTag id') : id = id' := List.append_cancel_left h

theorem Shown.tag_iff (h : Shown s) {n : NotificationContent} (hn : n ∈ s.shown) {sessionId : JsString} :
    n.tag = sessionTag sessionId ↔ n.sessionId = some sessionId := by
  rw [h.tag n hn]
  cases n.sessionId with
  | none =>
    refine ⟨fun heq => ?_, fun heq => by cases heq⟩
    -- the two kinds of tag differ in their seventh unit
    have hstart := congrArg (List.take 7) heq
    rw [Option.map_none, Option.getD_none, sessionTag, List.take_append_of_le_length (by decide)] at hstart
    exact absurd hstart (by decide)
  | some id => exact ⟨fun heq => congrArg some (sessionTag_injective heq), fun heq => congrArg sessionTag (Option.some.inj heq)⟩

theorem Shown.others (h : Shown s) (sessionId : JsString) :
    (s.shown.filter fun n => n.tag ≠ sessionTag sessionId) = s.shown.filter fun n => n.sessionId ≠ some sessionId :=
  List.filter_congr fun _ hn => decide_eq_decide.mpr (not_congr (h.tag_iff hn))

/-- What is shown is one for a session; and a wake for a session shows that session's, in the place of the one before. -/
theorem wake_shown (h : WakeRun browser host s) :
    (∀ n ∈ s.shown, ∀ n' ∈ s.shown, n.sessionId = n'.sessionId → n = n') ∧
    ∀ sessionId, trim sessionId ≠ [] →
      (wakeStep browser host s (.push (some (wakeData host sessionId)))).shown =
        (s.shown.filter fun n => n.sessionId ≠ some sessionId) ++ [wakeContent sessionId] := by
  refine ⟨fun n hn n' hn' hsame => ?_, fun sessionId hid => ?_⟩
  · have htag : n.tag = n'.tag := by rw [h.shown.tag n hn, h.shown.tag n' hn', hsame]
    exact List.inj_on_of_nodup_map h.shown.tags hn hn' htag
  · rw [wakeStep, pushShows_wake hid, ← h.shown.others sessionId]
    rfl

/-! ## Taps -/

theorem find_shown (h : Shown s) {n : NotificationContent} (hn : n ∈ s.shown) :
    (s.shown.find? fun m => m.tag = n.tag) = some n := by
  cases hfind : s.shown.find? fun m => m.tag = n.tag with
  | none => exact absurd (List.find?_eq_none.mp hfind n hn) (by simp)
  | some m =>
    have htag : m.tag = n.tag := by simpa using List.find?_some hfind
    rw [List.inj_on_of_nodup_map h.tags (List.mem_of_find?_eq_some hfind) hn htag]

/-- The first window that can be focused goes to the session, or a new one does. -/
inductive Brought (s : Device) (sessionId : JsString) : List Window → Prop where
  | focused {before after : List Window} {window : Window} (hwindows : s.windows = before ++ window :: after)
      (hbefore : ∀ w ∈ before, w.focusable = false) (hwindow : window.focusable = true) :
      Brought s sessionId ({ window with currentSessionId := some sessionId } :: (before ++ after))
  | opened (hnone : ∀ w ∈ s.windows, w.focusable = false) (hcan : s.canOpenWindow = true) :
      Brought s sessionId (⟨true, ⟨s.scope, [], []⟩, some sessionId, true⟩ :: s.windows)
  | nowhere (hnone : ∀ w ∈ s.windows, w.focusable = false) (hcan : s.canOpenWindow = false) :
      Brought s sessionId s.windows

/-- The app is at a path of its own host, and its windows have booted. -/
structure Booted (browser : Browser) (s : Device) : Prop where
  scope : browser.Rooted ⟨s.scope, [], []⟩
  windows : ∀ w ∈ s.windows, w.booted = true

theorem onMessage_booted (window : Window) (message : Json) : (onMessage window message).booted = window.booted := by
  unfold onMessage
  split
  · split <;> rfl
  · rfl

theorem Booted.click (laws : browser.Laws) (h : Booted browser s) (content : NotificationContent) :
    Booted browser (s.click browser content) := by
  have hroot : ∀ sessionId url, sessionDeepLinkUrl sessionId = some url →
      (boot browser true (browser.openWindow s.scope url)).booted = true := by
    intro sessionId url hurl
    by_cases hblank : trim sessionId = []
    · rw [sessionDeepLinkUrl, if_pos hblank] at hurl
      obtain rfl := Option.some.inj hurl
      rw [laws.root s.scope h.scope.located]
      exact boot_booted laws h.scope true
    · rw [boot_deepLink laws h.scope hblank hurl]
  unfold Device.click
  dsimp only
  rw [click_url]
  split
  · exact h
  · rename_i url hurl
    split
    · rename_i before window after hspan
      rw [List.span_eq_takeWhile_dropWhile, Prod.mk.injEq] at hspan
      have hsplit : s.windows = before ++ window :: after := by
        rw [← hspan.1, ← hspan.2, List.takeWhile_append_dropWhile]
      have hwindows : ∀ w ∈ before ++ window :: after, w.booted = true := hsplit ▸ h.windows
      obtain ⟨hbefore, hrest⟩ := List.forall_mem_append.mp hwindows
      obtain ⟨hwindow, hafter⟩ := List.forall_mem_cons.mp hrest
      refine ⟨h.scope, List.forall_mem_cons.mpr ⟨?_, List.forall_mem_append.mpr ⟨hbefore, hafter⟩⟩⟩
      split
      · rwa [onMessage_booted]
      · exact hwindow
    · split
      · exact ⟨h.scope, List.forall_mem_cons.mpr ⟨hroot _ url hurl, h.windows⟩⟩
      · exact h

theorem wakeStep_booted (laws : browser.Laws) (h : Booted browser s) (e : Event) (hok : e.rooted browser) :
    Booted browser (wakeStep browser host s e) := by
  cases e with
  | push data => exact ⟨h.scope, h.windows⟩
  | tapped tag =>
    unfold wakeStep
    dsimp only
    split
    · have hdismissed : Booted browser (s.dismiss tag) := ⟨h.scope, h.windows⟩
      exact hdismissed.click laws _
    · exact h
  | dismissed tag => exact ⟨h.scope, h.windows⟩
  | opened focusable address =>
    exact ⟨h.scope, List.forall_mem_cons.mpr ⟨boot_booted laws hok focusable, h.windows⟩⟩
  | focused i =>
    unfold wakeStep
    dsimp only
    split
    · rename_i window hwindow
      exact ⟨h.scope, List.forall_mem_cons.mpr ⟨h.windows window (List.mem_of_getElem? hwindow),
        fun w hw => h.windows w (List.mem_of_mem_eraseIdx hw)⟩⟩
    · exact h
  | closed i => exact ⟨h.scope, fun w hw => h.windows w (List.mem_of_mem_eraseIdx hw)⟩
  | selected i sessionId =>
    refine ⟨h.scope, fun w hw => ?_⟩
    obtain ⟨j, hj⟩ := List.mem_iff_getElem?.mp hw
    rw [wakeStep, List.getElem?_modify] at hj
    split at hj
    · obtain ⟨was, hwas, rfl⟩ := Option.map_eq_some_iff.mp hj
      have hbooted := h.windows was (List.mem_of_getElem? hwas)
      rw [if_pos hbooted]
      exact hbooted
    · exact h.windows w (List.mem_of_getElem? (by simpa using hj))

theorem RootedRun.wake (h : RootedRun browser host s) : WakeRun browser host s :=
  h.inv (fun _ hs => .start hs.1) fun _ e hs _ => .step e hs trivial

theorem RootedRun.booted (laws : browser.Laws) (h : RootedRun browser host s) : Booted browser s :=
  h.inv (fun _ hs => ⟨hs.2, by simp [hs.1.2]⟩) fun _ e hs hok => wakeStep_booted laws hs e hok

theorem click_brought (laws : browser.Laws) (hbooted : Booted browser s) {content : NotificationContent}
    {sessionId : JsString} (hid : content.sessionId = some sessionId) (hblank : trim sessionId ≠ [])
    (hwell : isWellFormed sessionId = true) : Brought s sessionId (s.click browser content).windows := by
  obtain ⟨url, hurl⟩ : ∃ url, sessionDeepLinkUrl sessionId = some url := by
    rw [sessionDeepLinkUrl, if_neg hblank, encodeURIComponent, if_pos hwell]
    exact ⟨_, rfl⟩
  have hsession : nonBlank ((some sessionId).map .str) = some sessionId := nonBlank_str hblank
  have hsplit := List.takeWhile_append_dropWhile (p := fun w : Window => !w.focusable) (l := s.windows)
  have hbefore : ∀ w ∈ s.windows.takeWhile (fun w => !w.focusable), w.focusable = false := fun w hw => by
    simpa using List.mem_takeWhile_imp hw
  unfold Device.click
  dsimp only
  rw [click_url, hid, Option.getD_some, hurl]
  simp only [hsession, List.span_eq_takeWhile_dropWhile]
  cases hdrop : s.windows.dropWhile fun w => !w.focusable with
  | nil =>
    rw [hdrop, List.append_nil] at hsplit
    have hnone : ∀ w ∈ s.windows, w.focusable = false := fun w hw => hbefore w (by rwa [hsplit])
    dsimp only
    cases hcan : s.canOpenWindow with
    | true =>
      rw [if_pos rfl, boot_deepLink laws hbooted.scope hblank hurl]
      exact .opened hnone hcan
    | false => exact .nowhere hnone hcan
  | cons window after =>
    have hwindow : window.focusable = true := by
      have hhead := List.head?_dropWhile_not (fun w : Window => !w.focusable) s.windows
      rw [hdrop] at hhead
      simpa using hhead
    have hmem : window ∈ s.windows := by
      rw [← hsplit, hdrop]
      exact List.mem_append_right _ List.mem_cons_self
    dsimp only
    rw [onMessage_navigate hblank (hbooted.windows window hmem)]
    exact .focused (hdrop ▸ hsplit.symm) hbefore hwindow

/-- A tap on what is shown for a session. -/
theorem wake_opens (laws : browser.Laws) (h : RootedRun browser host s) {n : NotificationContent} (hn : n ∈ s.shown)
    {sessionId : JsString} (hid : n.sessionId = some sessionId) (hwell : isWellFormed sessionId = true) :
    (wakeStep browser host s (.tapped n.tag)).shown = (s.shown.filter fun m => m.sessionId ≠ some sessionId) ∧
      Brought s sessionId (wakeStep browser host s (.tapped n.tag)).windows := by
  have hshown : Shown s := (RootedRun.wake h).shown
  have hstep : wakeStep browser host s (.tapped n.tag) = (s.dismiss n.tag).click browser n := by
    rw [wakeStep, find_shown hshown hn]
  have htag : n.tag = sessionTag sessionId := (hshown.tag_iff hn).mpr hid
  rw [hstep, click_shown]
  refine ⟨?_, ?_⟩
  · rw [htag]
    exact hshown.others sessionId
  · have hrun : Booted browser s := RootedRun.booted laws h
    have hbooted : Booted browser (s.dismiss n.tag) := ⟨hrun.scope, hrun.windows⟩
    have hbrought := click_brought laws hbooted hid (hshown.sessionId n hn sessionId hid) hwell
    generalize ((s.dismiss n.tag).click browser n).windows = windows at hbrought ⊢
    cases hbrought with
    | focused hwindows hbefore hwindow => exact .focused hwindows hbefore hwindow
    | opened hnone hcan => exact .opened hnone hcan
    | nowhere hnone hcan => exact .nowhere hnone hcan

/-- Two wakes, one of them again; a tap on the first with a window open, on the second with none. -/
def woken : List Event :=
  [.opened true ⟨js "/", js "?a=1", []⟩, .push (some (wakeData integerHost (js "s1"))),
    .push (some (wakeData integerHost (js "s 2"))), .push (some (wakeData integerHost (js "s1")))]

def phone : Device := ⟨js "/", true, [], []⟩

abbrev phoneStep : Device → Event → Device := wakeStep plainBrowser integerHost

theorem wake_shown_woken :
    (runFrom phoneStep phone woken).shown.map (·.sessionId) = [some (js "s 2"), some (js "s1")] ∧
    (phoneStep (runFrom phoneStep phone woken) (.push (some (wakeData integerHost (js "s 2"))))).shown =
      [wakeContent (js "s1"), wakeContent (js "s 2")] := by
  have hstart : WakeRun plainBrowser integerHost phone := .start ⟨rfl, rfl⟩
  have hrun : WakeRun plainBrowser integerHost (runFrom phoneStep phone woken) := hstart.run
  have hshown : (runFrom phoneStep phone woken).shown = [wakeContent (js "s 2"), wakeContent (js "s1")] := by
    decide +kernel
  refine ⟨by rw [hshown]; rfl, ?_⟩
  have hpushed := (wake_shown hrun).2 (js "s 2") (by decide)
  rw [hpushed, hshown]
  decide

theorem wake_opens_woken :
    Brought (runFrom phoneStep phone woken) (js "s1")
      (phoneStep (runFrom phoneStep phone woken) (.tapped (sessionTag (js "s1")))).windows ∧
    Brought (runFrom phoneStep phone (woken ++ [.closed 0])) (js "s 2")
      (phoneStep (runFrom phoneStep phone (woken ++ [.closed 0])) (.tapped (sessionTag (js "s 2")))).windows := by
  have hroot : plainBrowser.Rooted ⟨js "/", [], []⟩ := plainBrowser_rooted (by decide) (.inl rfl) (by decide)
  have haddress : plainBrowser.Rooted ⟨js "/", js "?a=1", []⟩ := plainBrowser_rooted (by decide) (.inl rfl) (by decide)
  have hstart : RootedRun plainBrowser integerHost phone := .start ⟨⟨rfl, rfl⟩, hroot⟩
  have hopen : wakeContent (js "s1") ∈ (runFrom phoneStep phone woken).shown := by decide +kernel
  have hclosed : wakeContent (js "s 2") ∈ (runFrom phoneStep phone (woken ++ [.closed 0])).shown := by
    decide +kernel
  have hrun : RootedRun plainBrowser integerHost (runFrom phoneStep phone woken) :=
    hstart.run_allowed ⟨haddress, trivial, trivial, trivial, trivial⟩
  have hrun' : RootedRun plainBrowser integerHost (runFrom phoneStep phone (woken ++ [.closed 0])) :=
    hstart.run_allowed ⟨haddress, trivial, trivial, trivial, trivial, trivial⟩
  exact ⟨(wake_opens plainBrowser_laws hrun hopen rfl (by decide)).2,
    (wake_opens plainBrowser_laws hrun' hclosed rfl (by decide)).2⟩

end Ccctl.WebUi.Wake
