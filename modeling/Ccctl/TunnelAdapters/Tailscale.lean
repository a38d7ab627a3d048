import Ccctl.Core.JsonReadBack
import Ccctl.Core.Loopback
import Ccctl.TunnelAdapters.Policy
/-
  Ccctl.TunnelAdapters.Tailscale — the Tailscale tunnel (`packages/tunnel-adapters/src/index.ts`:
  `defaultTailscaleAclClient`, `TailscaleTunnel`).

  A call runs to its next `await`: `establish` and `teardown` start one, `resume` goes on from
  the answer, and what a call holds across the wait is in its `Await`. The instance writes a
  handle down only once the step that earned it was answered: the mapping after `serve`, the
  grant after the policy was saved.
-/

namespace Ccctl.TunnelAdapters

open Ccctl.Core

/-! ## The policy API -/

structure AclPolicyDocument where
  policy : AclPolicy
  etag : JsString

/-- What `response.json()` reads. -/
inductive Body where
  | object (policy : AclPolicy)
  | notObject
  | unreadable (error : JsString)

/-- `response.json()`. -/
def readBody (host : JsonHost) (text : JsString) : Body :=
  match h : Json.parse host text with
  | none => .unreadable (host.syntaxError text)
  | some (.obj fields) => .object ⟨fields, (Json.parse_uniqueKeys host h).nodup⟩
  | some _ => .notObject

theorem readBody_object {host : JsonHost} {text : JsString} {policy : AclPolicy}
    (h : Json.parse host text = some (.obj policy.fields)) : readBody host text = .object policy := by
  unfold readBody
  split
  · rename_i hnone
    rw [h] at hnone
    cases hnone
  · rename_i fields hread
    rw [h] at hread
    cases hread
    rfl
  · rename_i v hother hread
    rw [h] at hread
    cases hread
    exact absurd rfl (hother _)

structure Response where
  ok : Bool
  status : Nat
  etag : Option JsString
  body : Body

def fetchPolicy (response : Response) : Except JsString AclPolicyDocument :=
  if response.ok then
    match response.body with
    | .object policy => .ok ⟨policy, response.etag.getD []⟩
    | .notObject => .error (js "ccctl: tailscale ACL response is not a JSON object")
    | .unreadable error => .error error
  else
    .error (js "ccctl: tailscale ACL fetch failed (HTTP " ++ digitsText response.status ++
      js ") — check the API credential and tailnet")

def savePolicy (response : Response) : Except JsString Unit :=
  if response.ok then .ok ()
  else .error (js "ccctl: tailscale ACL save failed (HTTP " ++ digitsText response.status ++
    js ") — the policy was not modified")

/-- The `If-Match` of a save. -/
def ifMatch (etag : JsString) : Option JsString := if etag = [] then none else some etag

/-! ## `tailscale status --json` -/

def parseTailscaleStatus (host : JsonHost) (stdout : JsString) : Except JsString Json :=
  match Json.parse host stdout with
  | none => .error (js "ccctl: tailscale status did not return valid JSON")
  | some parsed =>
    if parsed.isPlainObject then .ok parsed else .error (js "ccctl: tailscale status JSON is not an object")

def requireTailnetAuth (status : Json) : Except JsString Unit :=
  if Json.isText (status.get (js "BackendState")) (js "Running") then .ok ()
  else
    let reported :=
      match Json.asString (status.get (js "BackendState")) with
      | some state => if trim state = [] then js "unset" else state
      | none => js "unset"
    .error (js "ccctl: tailscale is not an authenticated tailnet member (BackendState=" ++ reported ++
      js ") — refusing to expose the daemon without mandatory tunnel-auth; run `tailscale up` to join a tailnet first")

def selfFromStatus (status : Json) : Except JsString Json :=
  match status.get (js "Self") with
  | none => .error (js "ccctl: tailscale status JSON has no `Self` — cannot resolve the tailnet host")
  | some (.arr items) => .ok (.arr items)
  | some (.obj fields) => .ok (.obj fields)
  | some _ => .error (js "ccctl: tailscale status `Self` is not an object")

/-- `text.replace(/\.$/, "")`. -/
def dropTrailingDot (text : JsString) : JsString := if text.getLast? = some 0x2E then text.dropLast else text

def tailnetHostFromSelf (self : Json) : Option JsString :=
  let ips := ((Json.asArray (self.get (js "TailscaleIPs"))).getD []).filterMap fun ip =>
    (Json.asString (some ip)).filter fun text => trim text ≠ []
  match Json.asString (self.get (js "DNSName")) with
  | some name => if trim name = [] then ips.head? else some (dropTrailingDot (trim name))
  | none => ips.head?

def resolveReachableHost (host : JsonHost) (stdout : JsString) : Except JsString JsString := do
  let status ← parseTailscaleStatus host stdout
  requireTailnetAuth status
  let self ← selfFromStatus status
  match tailnetHostFromSelf self with
  | some publicHost => .ok publicHost
  | none =>
    .error (js "ccctl: tailscale is serving but reported no tailnet host (DNSName / TailscaleIPs) — is it logged in?")

/-- What a connected node reports. -/
def runningStatus : JsString :=
  Json.stringify integerHost (.obj [(js "BackendState", .str (js "Running")),
    (js "Self", .obj [(js "DNSName", .str (js "box.ts.net."))])])

theorem resolve_running : resolveReachableHost integerHost runningStatus = .ok (js "box.ts.net") := by
  have hself : Json.WellFormed integerHost (.obj [(js "DNSName", .str (js "box.ts.net."))]) :=
    .names [js "DNSName"] rfl (by decide) (by decide) fun f hf => by
      rw [List.mem_singleton.mp hf]
      exact .str _
  have hstatus : Json.WellFormed integerHost (.obj [(js "BackendState", .str (js "Running")),
      (js "Self", .obj [(js "DNSName", .str (js "box.ts.net."))])]) :=
    .names [js "BackendState", js "Self"] rfl (by decide) (by decide) fun f hf => by
      rcases List.mem_pair.mp hf with rfl | rfl
      · exact .str _
      · exact hself
  unfold resolveReachableHost parseTailscaleStatus
  rw [runningStatus, Json.parse_stringify hstatus]
  rfl

/-! ## The instance -/

inductive TunnelKind where
  | tailscale
  | cloudflare
  | headscale

structure EstablishedTunnel where
  kind : TunnelKind
  publicHost : JsString

inductive TunnelStatus where
  | up (kind : TunnelKind) (publicHost : JsString)
  | down (kind : TunnelKind)

structure TailscaleTunnel where
  /-- The declared grant; the client is the policy API. -/
  provisioning : Option AclGrant
  servedLocal : Option HostEndpoint := none
  established : Option EstablishedTunnel := none
  provisionedGrant : Option AclGrant := none
  createdGrantsKey : Bool := false

def TailscaleTunnel.status (tunnel : TailscaleTunnel) : TunnelStatus :=
  match tunnel.established with
  | none => .down .tailscale
  | some established => .up .tailscale established.publicHost

/-- What a call is waiting for. -/
inductive Await where
  | serve (endpoint : HostEndpoint)
  | status
  | provisionFetch (publicHost : JsString) (grant : AclGrant)
  | provisionSave (publicHost : JsString) (grant : AclGrant) (document : AclPolicyDocument) (next : AclPolicy)
  | revertFetch (provisioned : AclGrant)
  | revertSave (document : AclPolicyDocument) (next : AclPolicy)
  | off (served : HostEndpoint)

/-- What went out for it. -/
inductive Request where
  | run (command : JsString) (args : List JsString)
  | get
  | post (policy : AclPolicy) (ifMatch : Option JsString)

def serveTarget (endpoint : HostEndpoint) : JsString := js "http://" ++ formatAuthority endpoint.host endpoint.port

def Await.request : Await → Request
  | .serve endpoint => .run (js "tailscale") [js "serve", js "--bg", serveTarget endpoint]
  | .status => .run (js "tailscale") [js "status", js "--json"]
  | .provisionFetch _ _ => .get
  | .provisionSave _ _ document next => .post next (ifMatch document.etag)
  | .revertFetch _ => .get
  | .revertSave document next => .post next (ifMatch document.etag)
  | .off served => .run (js "tailscale") [js "serve", js "--bg", serveTarget served, js "off"]

/-- How the promise settles. -/
inductive Answer where
  | ran (stdout : JsString)
  | responded (response : Response)
  | failed (error : JsString)

inductive Progress where
  | awaiting (await : Await)
  | resolved
  | rejected (error : JsString)

def Progress.call : Progress → Option Await
  | .awaiting await => some await
  | _ => none

namespace TailscaleTunnel

variable (tunnel : TailscaleTunnel)

def establish (endpoint : HostEndpoint) : Progress :=
  if isLoopbackHost endpoint.host then .awaiting (.serve endpoint)
  else .rejected (js "ccctl: tailscale establish expects a loopback endpoint, got \"" ++ endpoint.host ++
    js "\" — the server binds loopback and the tunnel is its only off-box path")

def adopt (endpoint : HostEndpoint) : TailscaleTunnel :=
  { tunnel with
    servedLocal := some endpoint
    provisionedGrant := tunnel.provisioning
    createdGrantsKey := false }

/-- The end of `teardown`: the mapping off, if one is recorded. -/
def releaseServe : Progress :=
  match tunnel.servedLocal with
  | none => .resolved
  | some served => .awaiting (.off served)

def teardown : Progress :=
  match tunnel.provisionedGrant, tunnel.provisioning with
  | some provisioned, some _ => .awaiting (.revertFetch provisioned)
  | _, _ => tunnel.releaseServe

/-- The end of `establish`. -/
def up (publicHost : JsString) : TailscaleTunnel × Progress :=
  ({ tunnel with established := some ⟨.tailscale, publicHost⟩ }, .resolved)

/-- The end of `#revertAcl`. -/
def reverted : TailscaleTunnel × Progress :=
  let cleared := { tunnel with provisionedGrant := none, createdGrantsKey := false }
  (cleared, cleared.releaseServe)

/-- A call goes on from its answer. -/
def resume (host : JsonHost) : Await → Answer → TailscaleTunnel × Progress
  | .serve endpoint, .ran _ => ({ tunnel with servedLocal := some endpoint }, .awaiting .status)
  | .status, .ran stdout =>
    match resolveReachableHost host stdout with
    | .error error => (tunnel, .rejected error)
    | .ok publicHost =>
      match tunnel.provisioning with
      | none => tunnel.up publicHost
      | some grant => (tunnel, .awaiting (.provisionFetch publicHost grant))
  | .provisionFetch publicHost grant, .responded response =>
    match fetchPolicy response with
    | .error error => (tunnel, .rejected error)
    | .ok document =>
      match provisionedPolicy grant document.policy with
      | none => tunnel.up publicHost
      | some next => (tunnel, .awaiting (.provisionSave publicHost grant document next))
  | .provisionSave publicHost grant document _, .responded response =>
    match savePolicy response with
    | .error error => (tunnel, .rejected error)
    | .ok () =>
      -- `!hadGrants`: a `grants` that is not an array counts as absent
      let recorded := { tunnel with
        provisionedGrant := some grant
        createdGrantsKey := document.policy.grantItems.isNone }
      recorded.up publicHost
  | .revertFetch provisioned, .responded response =>
    match fetchPolicy response with
    | .error error => (tunnel, .rejected error)
    | .ok document =>
      match revertedPolicy tunnel.createdGrantsKey provisioned document.policy with
      | none => tunnel.reverted
      | some next => (tunnel, .awaiting (.revertSave document next))
  | .revertSave _ _, .responded response =>
    match savePolicy response with
    | .error error => (tunnel, .rejected error)
    | .ok () => tunnel.reverted
  | .off _, .ran _ => ({ tunnel with servedLocal := none, established := none }, .resolved)
  | _, .failed error => (tunnel, .rejected error)
  -- an answer to something else
  | await, _ => (tunnel, .awaiting await)

end TailscaleTunnel

theorem resume_failed {host : JsonHost} (tunnel : TailscaleTunnel) (await : Await) (error : JsString) :
    tunnel.resume host await (.failed error) = (tunnel, .rejected error) := by
  cases await <;> rfl

end Ccctl.TunnelAdapters
