import Ccctl.Lib.Reach
import Ccctl.TunnelAdapters.Tailscale
/-
  Ccctl.TunnelAdapters.AclService — a tunnel and the policy service, with the operator's edits in
  between.

  The service keeps the policy and a revision that every change moves. Its `ETag` is a function
  of both, and two equal tags mean one policy or one revision (`identifies`): tags that count
  revisions and tags that hash the content both do, and it may report none. A save with an
  `If-Match` that is not the current tag is refused; a save without one is taken. A request that
  fails was carried out (`lost`) or was not (`failed`). An operation starts when none is under way.

  The policy travels as text both ways: the service writes it so that a reader gets it back
  (`reads`), and keeps what it reads of a save's body. Policies whose numbers are no doubles are
  no part of it (`Event.wellFormed`): such a number changes in the reading, whoever reads.

  What a step can do to the policy and to the instance's handles is one of a few `Move`s
  (`step_moves`).
-/

namespace Ccctl.TunnelAdapters

open Ccctl.Core
open Ccctl.Lib

structure AclService (host : JsonHost) where
  tag : AclPolicy → Nat → Option JsString
  identifies : ∀ {p q : AclPolicy} {m n : Nat} {etag : JsString}, tag p m = some etag → tag q n = some etag →
    etag ≠ [] → p = q ∨ m = n
  /-- The body of a `GET`. -/
  text : AclPolicy → JsString
  reads : ∀ policy, policy.WellFormed host → Json.parse host (text policy) = some (.obj policy.fields)

structure World where
  tunnel : TailscaleTunnel
  /-- The operation under way. -/
  call : Option Await
  remote : AclPolicy
  revision : Nat

/-- What becomes of the request under way. -/
inductive Outcome where
  | done (stdout : JsString)
  | lost (error : JsString)
  | failed (error : JsString)
  | refused (status : Nat)
  | garbled (error : Option JsString)

inductive Event where
  | establish (endpoint : HostEndpoint)
  | adopt (endpoint : HostEndpoint)
  | teardown
  | edit (policy : AclPolicy)
  | answer (outcome : Outcome)

namespace World

def write (w : World) (policy : AclPolicy) : World := { w with remote := policy, revision := w.revision + 1 }

def begin_ (w : World) (progress : Progress) : World := { w with call := progress.call }

end World

variable {host : JsonHost} (service : AclService host)

/-- A save is refused when its `If-Match` is not the current tag. -/
def AclService.accepts (w : World) : Option JsString → Bool
  | none => true
  | some etag => service.tag w.remote w.revision = some etag

/-- The body of a save. -/
def AclPolicy.text (host : JsonHost) (policy : AclPolicy) : JsString := Json.stringify host (.obj policy.fields)

/-- The service, and the machine under the CLI, carry a request out. -/
def AclService.answer (w : World) : Request → Outcome → World × Answer
  | .run _ _, .done stdout => (w, .ran stdout)
  | .get, .done _ =>
    (w, .responded ⟨true, 200, service.tag w.remote w.revision, readBody host (service.text w.remote)⟩)
  | .post policy condition, .done _ =>
    match readBody host (policy.text host) with
    | .object received =>
      if service.accepts w condition then (w.write received, .responded ⟨true, 200, none, .notObject⟩)
      else (w, .responded ⟨false, 412, none, .notObject⟩)
    | _ => (w, .responded ⟨false, 400, none, .notObject⟩)
  | .post policy condition, .lost error =>
    match readBody host (policy.text host) with
    | .object received => if service.accepts w condition then (w.write received, .failed error) else (w, .failed error)
    | _ => (w, .failed error)
  | _, .lost error => (w, .failed error)
  | _, .failed error => (w, .failed error)
  | .run _ _, .refused _ => (w, .failed [])
  | _, .refused status => (w, .responded ⟨false, status, none, .notObject⟩)
  | .get, .garbled none => (w, .responded ⟨true, 200, none, .notObject⟩)
  | .get, .garbled (some error) => (w, .responded ⟨true, 200, none, .unreadable error⟩)
  | _, .garbled _ => (w, .failed [])

/-- The call under way takes its answer. -/
def World.takes (host : JsonHost) (w : World) (await : Await) (answer : Answer) : World :=
  { w with tunnel := (w.tunnel.resume host await answer).1, call := (w.tunnel.resume host await answer).2.call }

def step (w : World) : Event → World
  | .establish endpoint => if w.call.isSome then w else w.begin_ (TailscaleTunnel.establish endpoint)
  | .adopt endpoint => if w.call.isSome then w else { w with tunnel := w.tunnel.adopt endpoint }
  | .teardown => if w.call.isSome then w else w.begin_ w.tunnel.teardown
  | .edit policy => w.write policy
  | .answer outcome =>
    match w.call with
    | none => w
    | some await =>
      let settled := service.answer w await.request outcome
      settled.1.takes host await settled.2

/-- An instance that has done nothing yet, over any policy its text gives back. -/
structure Start (host : JsonHost) (w : World) : Prop where
  tunnel : ∃ provisioning, w.tunnel = { provisioning }
  call : w.call = none
  remote : w.remote.WellFormed host
  declared : ∀ grant, w.tunnel.provisioning = some grant → grant.value.WellFormed host

/-- The operator writes such policies too. -/
def Event.wellFormed (host : JsonHost) : Event → Prop
  | .edit policy => policy.WellFormed host
  | _ => True

/-! ## What a step does -/

/-- What the instance answers for. -/
def TailscaleTunnel.handles (tunnel : TailscaleTunnel) : Option AclGrant × Option AclGrant × Bool :=
  (tunnel.provisioning, tunnel.provisionedGrant, tunnel.createdGrantsKey)

def Await.aboutPolicy : Await → Bool
  | .serve _ => false
  | .status => false
  | .off _ => false
  | _ => true

def World.held (w : World) : Option Await := w.call.filter Await.aboutPolicy

/-- The document a `GET` gives now. -/
def AclService.document (w : World) : AclPolicyDocument := ⟨w.remote, (service.tag w.remote w.revision).getD []⟩

/-- The document a save was computed from, and what it saves. -/
def Await.save : Await → Option (AclPolicyDocument × AclPolicy)
  | .provisionSave _ _ document next => some (document, next)
  | .revertSave document next => some (document, next)
  | _ => none

structure Unwritten (w w' : World) : Prop where
  remote : w'.remote = w.remote
  revision : w'.revision = w.revision

/-- The save under way was taken. -/
structure Landed (document : AclPolicyDocument) (next : AclPolicy) (w w' : World) : Prop where
  accepted : service.accepts w (ifMatch document.etag) = true
  remote : w'.remote = next
  revision : w'.revision = w.revision + 1

/-- A step that is no edit and no `adopt`. -/
inductive Move (w w' : World) : Prop where
  | calm (hwrite : Unwritten w w') (hhandles : w'.tunnel.handles = w.tunnel.handles)
      (hheld : w'.held = none ∨ w'.held = w.held)
  | toProvision {publicHost : JsString} {grant : AclGrant} (hwrite : Unwritten w w')
      (hhandles : w'.tunnel.handles = w.tunnel.handles) (hgrant : w.tunnel.provisioning = some grant)
      (hheld : w'.held = some (.provisionFetch publicHost grant))
  | toRevert {grant : AclGrant} (hwrite : Unwritten w w') (hhandles : w'.tunnel.handles = w.tunnel.handles)
      (hgrant : w.tunnel.provisionedGrant = some grant) (hheld : w'.held = some (.revertFetch grant))
  | provisionRead {publicHost : JsString} {grant : AclGrant} {next : AclPolicy} (hwrite : Unwritten w w')
      (hhandles : w'.tunnel.handles = w.tunnel.handles) (hbefore : w.held = some (.provisionFetch publicHost grant))
      (hnext : provisionedPolicy grant w.remote = some next)
      (hheld : w'.held = some (.provisionSave publicHost grant (service.document w) next))
  | revertRead {grant : AclGrant} {next : AclPolicy} (hwrite : Unwritten w w')
      (hhandles : w'.tunnel.handles = w.tunnel.handles) (hbefore : w.held = some (.revertFetch grant))
      (hnext : revertedPolicy w.tunnel.createdGrantsKey grant w.remote = some next)
      (hheld : w'.held = some (.revertSave (service.document w) next))
  | unanswered {await : Await} {document : AclPolicyDocument} {next : AclPolicy} (hbefore : w.held = some await)
      (hsave : await.save = some (document, next)) (hland : Landed service document next w w')
      (hhandles : w'.tunnel.handles = w.tunnel.handles) (hheld : w'.held = none)
  | provisioned {publicHost : JsString} {grant : AclGrant} {document : AclPolicyDocument} {next : AclPolicy}
      (hbefore : w.held = some (.provisionSave publicHost grant document next))
      (hland : Landed service document next w w')
      (hhandles : w'.tunnel.handles = (w.tunnel.provisioning, some grant, document.policy.grantItems.isNone))
      (hheld : w'.held = none)
  | reverted {document : AclPolicyDocument} {next : AclPolicy} (hbefore : w.held = some (.revertSave document next))
      (hland : Landed service document next w w') (hhandles : w'.tunnel.handles = (w.tunnel.provisioning, none, false))
      (hheld : w'.held = none)
  | nothingToRevert {grant : AclGrant} (hwrite : Unwritten w w') (hbefore : w.held = some (.revertFetch grant))
      (hnext : revertedPolicy w.tunnel.createdGrantsKey grant w.remote = none)
      (hhandles : w'.tunnel.handles = (w.tunnel.provisioning, none, false)) (hheld : w'.held = none)

/-- Every policy that is kept or held reads back from its text. -/
structure Readable (host : JsonHost) (w : World) : Prop where
  remote : w.remote.WellFormed host
  declared : ∀ grant, w.tunnel.provisioning = some grant → grant.value.WellFormed host
  saved : ∀ await document next, w.held = some await → await.save = some (document, next) → next.WellFormed host

variable {service} {w : World}

theorem readBody_text {policy : AclPolicy} (h : policy.WellFormed host) :
    readBody host (policy.text host) = .object policy :=
  readBody_object (Json.parse_stringify h)

theorem answer_run (service : AclService host) (w : World) (command : JsString) (args : List JsString) (outcome : Outcome) :
    (service.answer w (.run command args) outcome).1 = w ∧
      ((∃ stdout, (service.answer w (.run command args) outcome).2 = .ran stdout) ∨
        ∃ error, (service.answer w (.run command args) outcome).2 = .failed error) := by
  cases outcome with
  | done stdout => exact ⟨rfl, .inl ⟨stdout, rfl⟩⟩
  | lost error => exact ⟨rfl, .inr ⟨error, rfl⟩⟩
  | failed error => exact ⟨rfl, .inr ⟨error, rfl⟩⟩
  | refused status => exact ⟨rfl, .inr ⟨[], rfl⟩⟩
  | garbled error => exact ⟨by cases error <;> rfl, .inr ⟨[], by cases error <;> rfl⟩⟩

/-- A `GET` reads the current document, or the call rejects. -/
theorem answer_get (service : AclService host) (h : w.remote.WellFormed host) (outcome : Outcome) :
    (service.answer w .get outcome).1 = w ∧
      ((∃ response, (service.answer w .get outcome).2 = .responded response ∧
          (fetchPolicy response = .ok (service.document w) ∨ ∃ error, fetchPolicy response = .error error)) ∨
        ∃ error, (service.answer w .get outcome).2 = .failed error) := by
  cases outcome with
  | done stdout =>
    refine ⟨rfl, .inl ⟨_, rfl, .inl ?_⟩⟩
    rw [readBody_object (service.reads _ h)]
    rfl
  | lost error => exact ⟨rfl, .inr ⟨error, rfl⟩⟩
  | failed error => exact ⟨rfl, .inr ⟨error, rfl⟩⟩
  | refused status => exact ⟨rfl, .inl ⟨_, rfl, .inr ⟨_, rfl⟩⟩⟩
  | garbled error => cases error <;> exact ⟨rfl, .inl ⟨_, rfl, .inr ⟨_, rfl⟩⟩⟩

/-- A save that was taken and answered. -/
theorem answer_saved {policy : AclPolicy} (h : policy.WellFormed host) {condition : Option JsString}
    (haccept : service.accepts w condition = true) (stdout : JsString) :
    service.answer w (.post policy condition) (.done stdout) =
      (w.write policy, .responded ⟨true, 200, none, .notObject⟩) := by
  simp [AclService.answer, readBody_text h, haccept]

/-- A save answered with success landed; one that was not may have landed too. -/
theorem answer_post (service : AclService host) (w : World) {policy : AclPolicy} (h : policy.WellFormed host)
    (condition : Option JsString) (outcome : Outcome) :
    (service.accepts w condition = true ∧ (service.answer w (.post policy condition) outcome).1 = w.write policy ∧
        ((∃ response, (service.answer w (.post policy condition) outcome).2 = .responded response ∧
            savePolicy response = .ok ()) ∨
          ∃ error, (service.answer w (.post policy condition) outcome).2 = .failed error)) ∨
      ((service.answer w (.post policy condition) outcome).1 = w ∧
        ((∃ response error, (service.answer w (.post policy condition) outcome).2 = .responded response ∧
            savePolicy response = .error error) ∨
          ∃ error, (service.answer w (.post policy condition) outcome).2 = .failed error)) := by
  cases outcome with
  | done stdout =>
    by_cases haccept : service.accepts w condition = true
    · rw [answer_saved h haccept]
      exact .inl ⟨haccept, rfl, .inl ⟨_, rfl, rfl⟩⟩
    · have heq : service.answer w (.post policy condition) (.done stdout) =
          (w, .responded ⟨false, 412, none, .notObject⟩) := by
        simp [AclService.answer, readBody_text h, haccept]
      rw [heq]
      exact .inr ⟨rfl, .inl ⟨_, _, rfl, rfl⟩⟩
  | lost error =>
    by_cases haccept : service.accepts w condition = true
    · have heq : service.answer w (.post policy condition) (.lost error) = (w.write policy, .failed error) := by
        simp [AclService.answer, readBody_text h, haccept]
      rw [heq]
      exact .inl ⟨haccept, rfl, .inr ⟨error, rfl⟩⟩
    · have heq : service.answer w (.post policy condition) (.lost error) = (w, .failed error) := by
        simp [AclService.answer, readBody_text h, haccept]
      rw [heq]
      exact .inr ⟨rfl, .inr ⟨error, rfl⟩⟩
  | failed error => exact .inr ⟨rfl, .inr ⟨error, rfl⟩⟩
  | refused status => exact .inr ⟨rfl, .inl ⟨_, _, rfl, rfl⟩⟩
  | garbled error => cases error <;> exact .inr ⟨rfl, .inr ⟨[], rfl⟩⟩

/-- No policy is held once the calls ends or the mapping is next. -/
theorem releaseServe_plain (tunnel : TailscaleTunnel) : tunnel.releaseServe.call.filter Await.aboutPolicy = none := by
  unfold TailscaleTunnel.releaseServe
  split <;> rfl

/-- A call that holds no policy after its answer, and whose handles stay. -/
theorem Move.takes_calm {await : Await} {answer : Answer} (hhandles : (w.tunnel.resume host await answer).1.handles =
    w.tunnel.handles) (hheld : (w.tunnel.resume host await answer).2.call.filter Await.aboutPolicy = none) :
    Move service w (w.takes host await answer) :=
  .calm ⟨rfl, rfl⟩ hhandles (.inl hheld)

theorem Move.takes_failed (await : Await) (error : JsString) : Move service w (w.takes host await (.failed error)) := by
  apply Move.takes_calm
  · rw [resume_failed]
  · rw [resume_failed]
    rfl

theorem reverted_plain (tunnel : TailscaleTunnel) : tunnel.reverted.2.call.filter Await.aboutPolicy = none :=
  releaseServe_plain _

theorem handles_reverted (tunnel : TailscaleTunnel) :
    tunnel.reverted.1.handles = (tunnel.provisioning, none, false) := rfl

theorem move_status (stdout : JsString) : Move service w (w.takes host .status (.ran stdout)) := by
  rcases hhost : resolveReachableHost host stdout with error | publicHost
  · apply Move.takes_calm <;> simp [TailscaleTunnel.resume, hhost, Progress.call]
  · rcases hprov : w.tunnel.provisioning with _ | grant
    · apply Move.takes_calm <;> simp [TailscaleTunnel.resume, hhost, hprov, TailscaleTunnel.up, TailscaleTunnel.handles,
        Progress.call]
    · have hheld : (w.takes host .status (.ran stdout)).held = some (.provisionFetch publicHost grant) := by
        simp [World.held, World.takes, TailscaleTunnel.resume, hhost, hprov, Progress.call, Await.aboutPolicy]
      refine .toProvision ⟨rfl, rfl⟩ ?_ hprov hheld
      simp [World.takes, TailscaleTunnel.resume, hhost, hprov]

theorem move_provisionRead {publicHost : JsString} {grant : AclGrant} {response : Response}
    (hcall : w.call = some (.provisionFetch publicHost grant))
    (hdocument : fetchPolicy response = .ok (service.document w)) :
    Move service w (w.takes host (.provisionFetch publicHost grant) (.responded response)) := by
  have hheld : w.held = some (.provisionFetch publicHost grant) := by rw [World.held, hcall]; rfl
  rcases hnext : provisionedPolicy grant w.remote with _ | next
  · have hnone : provisionedPolicy grant (service.document w).policy = none := hnext
    apply Move.takes_calm <;> simp [TailscaleTunnel.resume, hdocument, hnone, TailscaleTunnel.up,
      TailscaleTunnel.handles, Progress.call]
  · have hsome : provisionedPolicy grant (service.document w).policy = some next := hnext
    refine .provisionRead ⟨rfl, rfl⟩ ?_ hheld hnext ?_
    · simp [World.takes, TailscaleTunnel.resume, hdocument, hsome]
    · simp [World.held, World.takes, TailscaleTunnel.resume, hdocument, hsome, Progress.call, Await.aboutPolicy]

theorem move_revertRead {grant : AclGrant} {response : Response} (hcall : w.call = some (.revertFetch grant))
    (hdocument : fetchPolicy response = .ok (service.document w)) :
    Move service w (w.takes host (.revertFetch grant) (.responded response)) := by
  have hheld : w.held = some (.revertFetch grant) := by rw [World.held, hcall]; rfl
  rcases hnext : revertedPolicy w.tunnel.createdGrantsKey grant w.remote with _ | next
  · have hnone : revertedPolicy w.tunnel.createdGrantsKey grant (service.document w).policy = none := hnext
    refine .nothingToRevert ⟨rfl, rfl⟩ hheld hnext ?_ ?_
    · simp [World.takes, TailscaleTunnel.resume, hdocument, hnone, handles_reverted]
    · show (w.tunnel.resume host _ _).2.call.filter Await.aboutPolicy = none
      simp only [TailscaleTunnel.resume, hdocument, hnone]
      exact reverted_plain _
  · have hsome : revertedPolicy w.tunnel.createdGrantsKey grant (service.document w).policy = some next := hnext
    refine .revertRead ⟨rfl, rfl⟩ ?_ hheld hnext ?_
    · simp [World.takes, TailscaleTunnel.resume, hdocument, hsome]
    · simp [World.held, World.takes, TailscaleTunnel.resume, hdocument, hsome, Progress.call, Await.aboutPolicy]

/-- A save that was not taken leaves everything as it was. -/
theorem move_saveError {await : Await} {document : AclPolicyDocument} {next : AclPolicy}
    (hsave : await.save = some (document, next)) {response : Response} {error : JsString}
    (herror : savePolicy response = .error error) : Move service w (w.takes host await (.responded response)) := by
  cases await <;> cases hsave <;> apply Move.takes_calm <;> simp [TailscaleTunnel.resume, herror, Progress.call]

theorem landed_write {document : AclPolicyDocument} {next : AclPolicy} {await : Await} {answer : Answer}
    (haccept : service.accepts w (ifMatch document.etag) = true) :
    Landed service document next w ((w.write next).takes host await answer) := ⟨haccept, rfl, rfl⟩

/-- A save that was taken, answered or not. -/
theorem move_saved {await : Await} {document : AclPolicyDocument} {next : AclPolicy} (hcall : w.call = some await)
    (hsave : await.save = some (document, next)) (haccept : service.accepts w (ifMatch document.etag) = true)
    {answer : Answer} (hanswer : (∃ response, answer = .responded response ∧ savePolicy response = .ok ()) ∨
      ∃ error, answer = .failed error) : Move service w ((w.write next).takes host await answer) := by
  have hheld : ∀ a, await = a → a.aboutPolicy = true → w.held = some a := by
    rintro _ rfl habout
    rw [World.held, hcall, Option.filter_some, if_pos habout]
  rcases hanswer with ⟨response, rfl, hok⟩ | ⟨error, rfl⟩
  · cases await <;> cases hsave
    · refine .provisioned (hheld _ rfl rfl) (landed_write haccept) ?_ ?_
      · simp [World.takes, TailscaleTunnel.resume, hok, TailscaleTunnel.up, TailscaleTunnel.handles, World.write]
      · simp [World.held, World.takes, TailscaleTunnel.resume, hok, TailscaleTunnel.up, Progress.call]
    · refine .reverted (hheld _ rfl rfl) (landed_write haccept) ?_ ?_
      · simp [World.takes, TailscaleTunnel.resume, hok, handles_reverted, World.write]
      · show (w.tunnel.resume host _ _).2.call.filter Await.aboutPolicy = none
        simp only [TailscaleTunnel.resume, hok]
        exact reverted_plain _
  · refine .unanswered (hheld await rfl ?_) hsave (landed_write haccept) ?_ ?_
    · cases await <;> cases hsave <;> rfl
    · simp [World.takes, resume_failed, World.write]
    · simp [World.held, World.takes, resume_failed, Progress.call]

section

variable {command : JsString} {args : List JsString} {await : Await}

/-- A command's answer moves what its success does. -/
theorem move_run (outcome : Outcome) (h : ∀ stdout, Move service w (w.takes host await (.ran stdout))) :
    Move service w ((service.answer w (.run command args) outcome).1.takes host await
      (service.answer w (.run command args) outcome).2) := by
  obtain ⟨hw, hanswer⟩ := answer_run service w command args outcome
  rw [hw]
  rcases hanswer with ⟨stdout, hran⟩ | ⟨error, hfailed⟩
  · rw [hran]
    exact h stdout
  · rw [hfailed]
    exact Move.takes_failed _ error

/-- A fetch's answer moves what reading the current document does. -/
theorem move_fetch (hremote : w.remote.WellFormed host) (outcome : Outcome)
    (hread : ∀ response, fetchPolicy response = .ok (service.document w) →
      Move service w (w.takes host await (.responded response)))
    (herror : ∀ response error, fetchPolicy response = .error error →
      Move service w (w.takes host await (.responded response))) :
    Move service w ((service.answer w .get outcome).1.takes host await (service.answer w .get outcome).2) := by
  obtain ⟨hw, hanswer⟩ := answer_get service hremote outcome
  rw [hw]
  rcases hanswer with ⟨response, hresponded, hdocument | ⟨error, hfetch⟩⟩ | ⟨error, hfailed⟩
  · rw [hresponded]
    exact hread response hdocument
  · rw [hresponded]
    exact herror response error hfetch
  · rw [hfailed]
    exact Move.takes_failed _ error

theorem move_save {document : AclPolicyDocument} {next : AclPolicy} (hcall : w.call = some await)
    (hsave : await.save = some (document, next)) (hnext : next.WellFormed host) (outcome : Outcome) :
    Move service w ((service.answer w (.post next (ifMatch document.etag)) outcome).1.takes host await
      (service.answer w (.post next (ifMatch document.etag)) outcome).2) := by
  rcases answer_post service w hnext (ifMatch document.etag) outcome with ⟨haccept, hw, hanswer⟩ | ⟨hw, hanswer⟩
  · rw [hw]
    exact move_saved hcall hsave haccept hanswer
  · rw [hw]
    rcases hanswer with ⟨response, error, hresponded, herror⟩ | ⟨error, hfailed⟩
    · rw [hresponded]
      exact move_saveError hsave herror
    · rw [hfailed]
      exact Move.takes_failed _ error

end

theorem step_answer {await : Await} (hcall : w.call = some await) (outcome : Outcome) :
    step service w (.answer outcome) =
      (service.answer w await.request outcome).1.takes host await (service.answer w await.request outcome).2 := by
  unfold step
  rw [hcall]

theorem move_answer (h : Readable host w) {await : Await} (hcall : w.call = some await) (outcome : Outcome) :
    Move service w (step service w (.answer outcome)) := by
  have hheld : await.aboutPolicy = true → w.held = some await := fun habout => by
    rw [World.held, hcall, Option.filter_some, if_pos habout]
  rw [step_answer hcall]
  cases await with
  | serve endpoint => exact move_run outcome fun stdout => Move.takes_calm rfl rfl
  | status => exact move_run outcome fun stdout => move_status stdout
  | provisionFetch publicHost grant =>
    refine move_fetch h.remote outcome (fun response hdocument => move_provisionRead hcall hdocument)
      fun response error herror => ?_
    apply Move.takes_calm <;> simp [TailscaleTunnel.resume, herror, Progress.call]
  | provisionSave publicHost grant document next =>
    exact move_save hcall rfl (h.saved _ _ _ (hheld rfl) rfl) outcome
  | revertFetch grant =>
    refine move_fetch h.remote outcome (fun response hdocument => move_revertRead hcall hdocument)
      fun response error herror => ?_
    apply Move.takes_calm <;> simp [TailscaleTunnel.resume, herror, Progress.call]
  | revertSave document next => exact move_save hcall rfl (h.saved _ _ _ (hheld rfl) rfl) outcome
  | off served => exact move_run outcome fun stdout => Move.takes_calm rfl rfl

theorem teardown_cases (tunnel : TailscaleTunnel) :
    (∃ grant, tunnel.provisionedGrant = some grant ∧ tunnel.teardown = .awaiting (.revertFetch grant)) ∨
      tunnel.teardown = tunnel.releaseServe := by
  unfold TailscaleTunnel.teardown
  split
  · rename_i grant declared hgrant hprov
    exact .inl ⟨grant, hgrant, rfl⟩
  · exact .inr rfl

theorem Move.same : Move service w w := .calm ⟨rfl, rfl⟩ rfl (.inr rfl)

theorem step_moves (h : Readable host w) {e : Event} (hedit : ∀ policy, e ≠ .edit policy)
    (hadopt : ∀ endpoint, e ≠ .adopt endpoint) : Move service w (step service w e) := by
  cases e with
  | establish endpoint =>
    by_cases hbusy : w.call.isSome = true
    · have hstep : step service w (.establish endpoint) = w := if_pos hbusy
      rw [hstep]
      exact Move.same
    · have hstep : step service w (.establish endpoint) = w.begin_ (TailscaleTunnel.establish endpoint) :=
        if_neg hbusy
      rw [hstep]
      refine .calm ⟨rfl, rfl⟩ rfl (.inl ?_)
      show (TailscaleTunnel.establish endpoint).call.filter Await.aboutPolicy = none
      unfold TailscaleTunnel.establish
      split <;> rfl
  | adopt endpoint => exact absurd rfl (hadopt endpoint)
  | teardown =>
    by_cases hbusy : w.call.isSome = true
    · have hstep : step service w .teardown = w := if_pos hbusy
      rw [hstep]
      exact Move.same
    · have hstep : step service w .teardown = w.begin_ w.tunnel.teardown := if_neg hbusy
      rw [hstep]
      rcases teardown_cases w.tunnel with ⟨grant, hgrant, hcall⟩ | hcall
      · refine .toRevert ⟨rfl, rfl⟩ rfl hgrant ?_
        show w.tunnel.teardown.call.filter Await.aboutPolicy = _
        rw [hcall]
        rfl
      · refine .calm ⟨rfl, rfl⟩ rfl (.inl ?_)
        show w.tunnel.teardown.call.filter Await.aboutPolicy = none
        rw [hcall]
        exact releaseServe_plain _
  | edit policy => exact absurd rfl (hedit policy)
  | answer outcome =>
    rcases hcall : w.call with _ | await
    · have hstep : step service w (.answer outcome) = w := by
        unfold step
        rw [hcall]
      rw [hstep]
      exact Move.same
    · exact move_answer h hcall outcome

end Ccctl.TunnelAdapters
