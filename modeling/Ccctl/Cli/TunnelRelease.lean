import Ccctl.Cli.ShutdownOrder
/-
  Ccctl.Cli.TunnelRelease — what a daemon that exits with 0 has left behind.

  What is out the instance holds the handle of (`Books`), as long as no step that creates is
  rejected after it was carried out; a teardown that resolves has dropped every handle
  (`Progress.releases`). So a shutdown that tears the tunnel down exits with 0 only once all of
  it is released.

  As built, a shutdown that finds the establish failed takes it that there is nothing to release
  and exits with 0, with the inline release still on its way or failed (`mapping_stranded`).
-/

namespace Ccctl.Cli

open Ccctl.Core
open Ccctl.Lib
open Ccctl.TunnelAdapters

variable {host : JsonHost} {s : Serve}

/-! ## What is left out -/

def TailscaleTunnel.clear (tunnel : TailscaleTunnel) : Bool :=
  tunnel.servedLocal.isNone && tunnel.provisionedGrant.isNone

/-- What is out, the instance holds the handle of. -/
structure Books (tunnel : TailscaleTunnel) (out : Leftover) : Prop where
  declared : tunnel.provisionedGrant.isSome = true → tunnel.provisioning.isSome = true
  mapping : out.mapping = true → tunnel.servedLocal.isSome = true
  grant : out.grant = true → tunnel.provisionedGrant.isSome = true

/-- A step of `establish`. -/
def Await.establishes (tunnel : TailscaleTunnel) : Await → Prop
  | .serve _ => True
  | .status => True
  | .provisionFetch _ grant => tunnel.provisioning = some grant
  | .provisionSave _ grant _ _ => tunnel.provisioning = some grant
  | _ => False

/-- A step of `teardown`; the mapping goes last. -/
def Await.releases (tunnel : TailscaleTunnel) : Await → Prop
  | .revertFetch _ => True
  | .revertSave _ _ => True
  | .off _ => tunnel.provisionedGrant = none
  | _ => False

def Progress.establishes (tunnel : TailscaleTunnel) : Progress → Prop
  | .awaiting await => Await.establishes tunnel await
  | _ => True

def Progress.releases (tunnel : TailscaleTunnel) : Progress → Prop
  | .awaiting await => Await.releases tunnel await
  | .resolved => TailscaleTunnel.clear tunnel = true
  | .rejected _ => True

variable {tunnel : TailscaleTunnel} {out : Leftover}

theorem Books.clear (h : Books tunnel out) (hclear : TailscaleTunnel.clear tunnel = true) :
    out.mapping = false ∧ out.grant = false := by
  simp only [TailscaleTunnel.clear, Bool.and_eq_true, Option.isNone_iff_eq_none] at hclear
  constructor
  · by_contra hmapping
    have hserved := h.mapping (by simpa using hmapping)
    rw [hclear.1] at hserved
    cases hserved
  · by_contra hgrant
    have hprovisioned := h.grant (by simpa using hgrant)
    rw [hclear.2] at hprovisioned
    cases hprovisioned

theorem releaseServe_releases (hgrant : tunnel.provisionedGrant = none) :
    Progress.releases tunnel tunnel.releaseServe := by
  unfold TailscaleTunnel.releaseServe
  split
  · rename_i hserved
    simp [Progress.releases, TailscaleTunnel.clear, hserved, hgrant]
  · exact hgrant

theorem teardown_releases (h : Books tunnel out) : Progress.releases tunnel tunnel.teardown := by
  unfold TailscaleTunnel.teardown
  split
  · trivial
  · rename_i hnone
    apply releaseServe_releases
    rcases hgrant : tunnel.provisionedGrant with _ | grant
    · rfl
    · obtain ⟨declared, hprov⟩ := Option.isSome_iff_exists.mp (h.declared (by rw [hgrant]; rfl))
      exact absurd hprov (hnone grant declared hgrant)

theorem reverted_releases : Progress.releases tunnel.reverted.1 tunnel.reverted.2 := releaseServe_releases rfl

theorem after_false (await : Await) : out.after await false = out := by cases await <;> simp [Leftover.after]

/-- A rejected step that created nothing. -/
theorem Books.rejected (h : Books tunnel out) (await : Await) (error : JsString) :
    Books (tunnel.resume host await (.failed error)).1 (out.after await false) := by
  rw [after_false, resume_failed]
  exact h

theorem savePolicy_cases (response : Response) : (response.ok = true ∧ savePolicy response = .ok ()) ∨
    (response.ok = false ∧ ∃ error, savePolicy response = .error error) := by
  by_cases hok : response.ok = true
  · exact .inl ⟨hok, if_pos hok⟩
  · exact .inr ⟨by simpa using hok, _, if_neg hok⟩

/-- An answer to something else leaves the call where it is. -/
theorem resume_other {await : Await} {answer : Answer} (h : Books tunnel out)
    (hresume : tunnel.resume host await answer = (tunnel, .awaiting await))
    (hdone : completes tunnel await answer = false) :
    Books (tunnel.resume host await answer).1 (out.after await (completes tunnel await answer)) := by
  rw [hresume, hdone, after_false]
  exact h

theorem resume_status (h : Books tunnel out) (stdout : JsString) :
    Books (tunnel.resume host .status (.ran stdout)).1 out ∧
      Progress.establishes (tunnel.resume host .status (.ran stdout)).1
        (tunnel.resume host .status (.ran stdout)).2 := by
  rcases hhost : resolveReachableHost host stdout with error | publicHost
  · simp only [TailscaleTunnel.resume, hhost]
    exact ⟨h, trivial⟩
  · rcases hprov : tunnel.provisioning with _ | grant
    · simp only [TailscaleTunnel.resume, hhost, hprov]
      exact ⟨⟨h.declared, h.mapping, h.grant⟩, trivial⟩
    · simp only [TailscaleTunnel.resume, hhost, hprov]
      exact ⟨h, hprov⟩

theorem resume_establishes {await : Await} (h : Books tunnel out) (hawait : Await.establishes tunnel await)
    (answer : Answer) :
    Books (tunnel.resume host await answer).1 (out.after await (completes tunnel await answer)) ∧
      Progress.establishes (tunnel.resume host await answer).1 (tunnel.resume host await answer).2 := by
  cases await with
  | serve endpoint =>
    cases answer with
    | ran stdout => exact ⟨⟨h.declared, fun _ => rfl, h.grant⟩, trivial⟩
    | responded response => exact ⟨resume_other h rfl rfl, trivial⟩
    | failed error => exact ⟨h.rejected _ error, trivial⟩
  | status =>
    cases answer with
    | ran stdout => exact resume_status h stdout
    | responded response => exact ⟨h, trivial⟩
    | failed error => exact ⟨h, trivial⟩
  | provisionFetch publicHost grant =>
    cases answer with
    | ran stdout => exact ⟨h, hawait⟩
    | responded response =>
      rcases hfetch : fetchPolicy response with error | document
      · simp only [TailscaleTunnel.resume, hfetch]
        exact ⟨h, trivial⟩
      · rcases hnext : provisionedPolicy grant document.policy with _ | next
        · simp only [TailscaleTunnel.resume, hfetch, hnext]
          exact ⟨⟨h.declared, h.mapping, h.grant⟩, trivial⟩
        · simp only [TailscaleTunnel.resume, hfetch, hnext]
          exact ⟨h, hawait⟩
    | failed error => exact ⟨h, trivial⟩
  | provisionSave publicHost grant document next =>
    cases answer with
    | ran stdout => exact ⟨resume_other h rfl rfl, hawait⟩
    | responded response =>
      rcases savePolicy_cases response with ⟨hok, hsave⟩ | ⟨hok, error, hsave⟩
      · simp only [TailscaleTunnel.resume, hsave]
        have hprov : tunnel.provisioning = some grant := hawait
        exact ⟨⟨fun _ => by show tunnel.provisioning.isSome = true; rw [hprov]; rfl, h.mapping, fun _ => rfl⟩, trivial⟩
      · have hdone : completes tunnel (.provisionSave publicHost grant document next) (.responded response) = false :=
          hok
        rw [hdone, after_false]
        simp only [TailscaleTunnel.resume, hsave]
        exact ⟨h, trivial⟩
    | failed error => exact ⟨h.rejected _ error, trivial⟩
  | revertFetch provisioned => cases hawait
  | revertSave document next => cases hawait
  | off served => cases hawait

/-- A revert run to its end. -/
theorem Books.reverted (h : Books tunnel out) {await : Await}
    (hafter : out.after await true = { out with grant := false }) :
    Books tunnel.reverted.1 (out.after await true) := by
  rw [hafter]
  refine ⟨fun hgrant => ?_, h.mapping, fun hgrant => ?_⟩
  · cases hgrant
  · cases hgrant

theorem after_revert {await : Await}
    (hawait : (∃ grant, await = .revertFetch grant) ∨ ∃ document next, await = .revertSave document next) :
    out.after await true = { out with grant := false } := by
  rcases hawait with ⟨grant, rfl⟩ | ⟨document, next, rfl⟩ <;> simp [Leftover.after]

theorem resume_revertFetch (h : Books tunnel out) (provisioned : AclGrant) (response : Response) :
    Books (tunnel.resume host (.revertFetch provisioned) (.responded response)).1
        (out.after (.revertFetch provisioned) (completes tunnel (.revertFetch provisioned) (.responded response))) ∧
      Progress.releases (tunnel.resume host (.revertFetch provisioned) (.responded response)).1
        (tunnel.resume host (.revertFetch provisioned) (.responded response)).2 := by
  rcases hfetch : fetchPolicy response with error | document
  · have hdone : completes tunnel (.revertFetch provisioned) (.responded response) = false := by
      simp [completes, hfetch]
    rw [hdone, after_false]
    simp only [TailscaleTunnel.resume, hfetch]
    exact ⟨h, trivial⟩
  · rcases hnext : revertedPolicy tunnel.createdGrantsKey provisioned document.policy with _ | next
    · have hdone : completes tunnel (.revertFetch provisioned) (.responded response) = true := by
        simp [completes, hfetch, hnext]
      rw [hdone]
      simp only [TailscaleTunnel.resume, hfetch, hnext]
      exact ⟨h.reverted (after_revert (.inl ⟨_, rfl⟩)), reverted_releases⟩
    · have hdone : completes tunnel (.revertFetch provisioned) (.responded response) = false := by
        simp [completes, hfetch, hnext]
      rw [hdone, after_false]
      simp only [TailscaleTunnel.resume, hfetch, hnext]
      exact ⟨h, trivial⟩

theorem resume_releases {await : Await} (h : Books tunnel out) (hawait : Await.releases tunnel await)
    (answer : Answer) :
    Books (tunnel.resume host await answer).1 (out.after await (completes tunnel await answer)) ∧
      Progress.releases (tunnel.resume host await answer).1 (tunnel.resume host await answer).2 := by
  cases await with
  | revertFetch provisioned =>
    cases answer with
    | ran stdout => exact ⟨resume_other h rfl rfl, trivial⟩
    | responded response => exact resume_revertFetch h provisioned response
    | failed error => exact ⟨h.rejected _ error, trivial⟩
  | revertSave document next =>
    cases answer with
    | ran stdout => exact ⟨resume_other h rfl rfl, trivial⟩
    | responded response =>
      rcases savePolicy_cases response with ⟨hok, hsave⟩ | ⟨hok, error, hsave⟩
      · have hdone : completes tunnel (.revertSave document next) (.responded response) = true := hok
        rw [hdone]
        simp only [TailscaleTunnel.resume, hsave]
        exact ⟨h.reverted (after_revert (.inr ⟨_, _, rfl⟩)), reverted_releases⟩
      · have hdone : completes tunnel (.revertSave document next) (.responded response) = false := hok
        rw [hdone, after_false]
        simp only [TailscaleTunnel.resume, hsave]
        exact ⟨h, trivial⟩
    | failed error => exact ⟨h.rejected _ error, trivial⟩
  | off served =>
    have hgrant : tunnel.provisionedGrant = none := hawait
    cases answer with
    | ran stdout =>
      refine ⟨⟨h.declared, fun hmapping => ?_, h.grant⟩, ?_⟩
      · simp [Leftover.after, completes] at hmapping
      · show TailscaleTunnel.clear { tunnel with servedLocal := none, established := none } = true
        simp [TailscaleTunnel.clear, hgrant]
    | responded response => exact ⟨resume_other h rfl rfl, hgrant⟩
    | failed error => exact ⟨h.rejected _ error, trivial⟩
  | serve endpoint => cases hawait
  | status => cases hawait
  | provisionFetch publicHost grant => cases hawait
  | provisionSave publicHost grant document next => cases hawait

/-! ## A clean exit -/

def Verb.stands (tunnel : TailscaleTunnel) : Verb → Prop
  | .serving => TailscaleTunnel.clear tunnel = true
  | .establishing await => Await.establishes tunnel await
  | .releasing await _ => Await.releases tunnel await
  | _ => True

structure Standing (s : Serve) : Prop where
  verb : s.verb.stands s.tunnel
  handler : ∀ code await, s.handler = .releasing code await → s.owns = true ∧ Await.releases s.tunnel await

structure Accounted (s : Serve) : Prop where
  books : Books s.tunnel s.out
  standing : s.exit = none → Standing s
  clean : s.exit = some 0 → s.out.mapping = false ∧ s.out.grant = false

/-- No step that creates is rejected once it was carried out, and a shutdown that has failed at
    nothing finds no tunnel only where the inline release has left none. -/
def orderly (s : Serve) : Event → Bool
  | .lost _ =>
    match s.verb with
    | .establishing await => !creates await
    | _ => true
  | .closed none => s.inFlight || !s.establishFailed || TailscaleTunnel.clear s.tunnel
  | .turn =>
    match s.handler with
    | .waiting 0 => !s.establishFailed || TailscaleTunnel.clear s.tunnel
    | _ => true
  | _ => true

theorem accounted_exit {code : Nat} (h : Books s.tunnel s.out)
    (hclear : code = 0 → TailscaleTunnel.clear s.tunnel = true) :
    Accounted (s.exitWith code) := by
  refine ⟨h, fun hexit => (by cases hexit), fun hexit => ?_⟩
  have hzero : code = 0 := Option.some.inj hexit
  exact h.clear (hclear hzero)

theorem accounted_released {code : Nat} {p : Progress} (h : Books s.tunnel s.out) (hlive : s.exit = none)
    (howns : s.owns = true) (hp : Progress.releases s.tunnel p) : Accounted (s.released code p) := by
  cases p with
  | awaiting await =>
    refine ⟨h, fun _ => ⟨?_, fun code' await' hhandler => ?_⟩, fun hexit => ?_⟩
    · show s.verb.stands s.tunnel
      unfold Serve.owns at howns
      split at howns
      · rename_i hverb
        rw [hverb]
        trivial
      · cases howns
    · cases hhandler
      exact ⟨howns, hp⟩
    · rw [show (s.released code (.awaiting await)).exit = s.exit from rfl, hlive] at hexit
      cases hexit
  | resolved => exact accounted_exit h fun _ => hp
  | rejected error => exact accounted_exit (s := s.teardownFailed error) h fun hcode => (by cases hcode)

theorem accounted_teardown {code : Nat} (h : Books s.tunnel s.out) (hlive : s.exit = none) (howns : s.owns = true) :
    Accounted (s.startTeardown code) :=
  accounted_released (s := { s with acts := s.acts ++ [.teardownStarted] }) h hlive howns (teardown_releases h)

/-- The action moves on while the handler releases nothing. -/
theorem accounted_verb {s' : Serve} (h : Books s'.tunnel s'.out) (hlive : s'.exit = none)
    (hhandler : ∀ code await, s'.handler ≠ .releasing code await) (hverb : s'.verb.stands s'.tunnel) :
    Accounted s' := by
  refine ⟨h, fun _ => ⟨hverb, fun code await heq => absurd heq (hhandler code await)⟩, fun hexit => ?_⟩
  rw [hlive] at hexit
  cases hexit

section

variable (h : Books s.tunnel s.out) (hlive : s.exit = none) (hhandler : ∀ code await, s.handler ≠ .releasing code await)
include h hlive hhandler

theorem accounted_failed (error : JsString) : Accounted (s.releaseFailedEstablish error) := by
  have hteardown := teardown_releases h
  unfold Serve.releaseFailedEstablish
  split
  · rename_i await hawait
    rw [hawait] at hteardown
    exact accounted_verb h hlive hhandler hteardown
  · exact accounted_verb h hlive hhandler trivial

theorem accounted_established {p : Progress} (hp : Progress.establishes s.tunnel p) : Accounted (s.established p) := by
  cases p with
  | awaiting await => exact accounted_verb h hlive hhandler hp
  | resolved => exact accounted_verb h hlive hhandler trivial
  | rejected error => exact accounted_failed h hlive hhandler error

theorem accounted_unwinds (error : JsString) {p : Progress} (hp : Progress.releases s.tunnel p) :
    Accounted (s.unwinds error p) := by
  cases p with
  | awaiting await => exact accounted_verb h hlive hhandler hp
  | resolved => exact accounted_verb h hlive hhandler trivial
  | rejected error' => exact accounted_verb h hlive hhandler trivial

end

/-- Where the close is settled and nothing is in flight, nothing is out or the exit says so. -/
theorem accounted_afterClose {code : Nat} (h : Books s.tunnel s.out) (hlive : s.exit = none)
    (hverb : s.verb.stands s.tunnel)
    (horderly : code = 0 → s.inFlight = false → s.establishFailed = true → TailscaleTunnel.clear s.tunnel = true) :
    Accounted (s.afterClose code) := by
  unfold Serve.afterClose
  split
  · exact accounted_verb h hlive (fun _ _ heq => by cases heq) hverb
  · rename_i hflight
    split
    · rename_i howns
      exact accounted_teardown h hlive howns
    · rename_i howns
      refine accounted_exit h fun hcode => ?_
      have hsettled : s.inFlight = false := by simpa using hflight
      have hnone : s.owns = false := by simpa using howns
      rcases hplace : s.verb with _ | await | _ | _ | ⟨await, error⟩ | error | error
      · rw [hplace] at hverb
        exact hverb
      · simp [Serve.inFlight, hplace] at hsettled
      · simp [Serve.inFlight, hplace] at hsettled
      · simp [Serve.owns, hplace] at hnone
      · simp [Serve.inFlight, hplace] at hsettled
      · simp [Serve.inFlight, hplace] at hsettled
      · exact horderly hcode hsettled (by simp [Serve.establishFailed, hplace])

/-- An answer, by what it leaves of the tunnel in either program's hands. -/
theorem accounted_answered (h : Accounted s) (hlive : s.exit = none) {answer : Answer} {done : Await → Bool}
    (hestablish : ∀ await, s.verb = .establishing await → Await.establishes s.tunnel await →
      Books (s.tunnel.resume host await answer).1 (s.out.after await (done await)) ∧
        Progress.establishes (s.tunnel.resume host await answer).1 (s.tunnel.resume host await answer).2)
    (hrelease : ∀ await, Await.releases s.tunnel await →
      Books (s.tunnel.resume host await answer).1 (s.out.after await (done await)) ∧
        Progress.releases (s.tunnel.resume host await answer).1 (s.tunnel.resume host await answer).2) :
    Accounted (s.answered host answer done) := by
  have hstanding := h.standing hlive
  have hverb := hstanding.verb
  unfold Serve.answered
  split
  · rename_i code await hhandler
    obtain ⟨howns, hawait⟩ := hstanding.handler code await hhandler
    obtain ⟨hbooks, hp⟩ := hrelease await hawait
    exact accounted_released (s := s.took host await answer (done await)) hbooks hlive howns hp
  · rename_i hhandler
    have hidle : ∀ code await, s.handler ≠ .releasing code await := fun code await heq => hhandler code await heq
    split
    · rename_i await hplace
      rw [hplace] at hverb
      obtain ⟨hbooks, hp⟩ := hestablish await hplace hverb
      exact accounted_established (s := s.took host await answer (done await)) hbooks hlive hidle hp
    · rename_i await error hplace
      rw [hplace] at hverb
      obtain ⟨hbooks, hp⟩ := hrelease await hverb
      exact accounted_unwinds (s := s.took host await answer (done await)) hbooks hlive hidle error hp
    · exact h

theorem accounted_lost (h : Accounted s) (hlive : s.exit = none) (error : JsString)
    (horderly : orderly s (.lost error) = true) : Accounted (s.answered host (.failed error) creates) := by
  refine accounted_answered h hlive (fun await hplace _ => ?_) fun await hawait => ?_
  · have hcreates : creates await = false := by simpa [orderly, hplace] using horderly
    rw [hcreates]
    refine ⟨h.books.rejected await error, ?_⟩
    rw [resume_failed]
    trivial
  · have hcreates : creates await = false := by cases await <;> first | rfl | cases hawait
    rw [hcreates]
    refine ⟨h.books.rejected await error, ?_⟩
    rw [resume_failed]
    trivial

theorem accounted_closed (h : Accounted s) (hlive : s.exit = none) (error : Option JsString)
    (horderly : orderly s (.closed error) = true) : Accounted (s.closed error) := by
  unfold Serve.closed
  split
  · have hverb := (h.standing hlive).verb
    cases error with
    | none =>
      refine accounted_afterClose h.books hlive hverb fun _ hflight hfailed => ?_
      have hflight : s.inFlight = false := hflight
      have hfailed : s.establishFailed = true := hfailed
      simpa [orderly, hflight, hfailed] using horderly
    | some reason => exact accounted_afterClose h.books hlive hverb fun hcode => (by cases hcode)
  · exact h

theorem accounted_turned (h : Accounted s) (hlive : s.exit = none) (horderly : orderly s .turn = true) :
    Accounted s.turned := by
  unfold Serve.turned
  split
  · rename_i code hhandler
    split
    · rename_i howns
      exact accounted_teardown h.books hlive howns
    · split
      · rename_i hfailed
        refine accounted_exit h.books fun hcode => ?_
        subst hcode
        simpa [orderly, hhandler, hfailed] using horderly
      · exact h
  · exact h

theorem accounted_react (h : Accounted s) (hlive : s.exit = none) (e : Event) (horderly : orderly s e = true) :
    Accounted (react host s e) := by
  have hstanding := h.standing hlive
  cases e with
  | signal =>
    show Accounted s.signalled
    unfold Serve.signalled
    split
    · exact accounted_verb h.books hlive (fun _ _ heq => by cases heq) hstanding.verb
    · exact accounted_exit h.books fun hcode => (by cases hcode)
  | closed error => exact accounted_closed h hlive error horderly
  | turn => exact accounted_turned h hlive horderly
  | budget =>
    show Accounted s.outran
    unfold Serve.outran
    split
    · exact accounted_exit (s := s.teardownFailed _) h.books fun hcode => (by cases hcode)
    · exact accounted_exit (s := s.teardownFailed _) h.books fun hcode => (by cases hcode)
    · exact h
  | answer answer =>
    exact accounted_answered h hlive (fun await _ hawait => resume_establishes h.books hawait answer)
      fun await hawait => resume_releases h.books hawait answer
  | lost error => exact accounted_lost h hlive error horderly
  | reported error =>
    show Accounted (s.reported error)
    unfold Serve.reported
    split
    · rename_i hplace
      have hidle : ∀ code await, s.handler ≠ .releasing code await := by
        intro code await heq
        have howns := (hstanding.handler code await heq).1
        simp [Serve.owns, hplace] at howns
      cases error with
      | none => exact accounted_verb h.books hlive hidle trivial
      | some error => exact accounted_failed h.books hlive hidle error
    · exact h
  | unwound error =>
    show Accounted s.unwound
    unfold Serve.unwound
    split
    · rename_i hplace
      refine accounted_verb h.books hlive (fun code await heq => ?_) trivial
      have howns := (hstanding.handler code await heq).1
      simp [Serve.owns, hplace] at howns
    · exact h

theorem books_fresh (provisioning : Option AclGrant) : Books { provisioning } {} := by
  refine ⟨fun h => ?_, fun h => ?_, fun h => ?_⟩ <;> cases h

theorem accounted {s : Serve} (h : Reach (step host) Start (fun s e => orderly s e = true) s) : Accounted s := by
  refine h.inv (fun s hs => ?_) fun s e hs horderly => ?_
  · obtain ⟨provisioning, rfl | ⟨endpoint, rfl⟩⟩ := hs
    · exact accounted_verb (books_fresh provisioning) rfl (fun _ _ heq => by cases heq) rfl
    · refine accounted_established (s := { tunnel := { provisioning }, verb := .serving })
        (books_fresh provisioning) rfl (fun _ _ heq => by cases heq) ?_
      unfold TailscaleTunnel.establish
      split <;> trivial
  · by_cases hlive : s.exit = none
    · rw [step_live hlive]
      exact accounted_react hs hlive e horderly
    · rw [step_dead hlive]
      exact hs

/-- A signal starts one close, ever, and a second one exits with 1; a teardown starts once the
    close is settled. In an orderly run the process exits with 0 only when nothing is left out. -/
theorem serve_shutdown (host : JsonHost) {s : Serve} :
    (Reach (step host) Start anyEvent s →
      (∃ failed, s.acts <+: [.closeStarted, .closeSettled failed, .teardownStarted]) ∧
      (s.exit = none → ∀ s', Reach (step host) (· = step host s .signal) anyEvent s' →
        s'.acts.count .closeStarted = 1 ∧ (s'.exit = none → (step host s' .signal).exit = some 1))) ∧
    (Reach (step host) Start (fun s e => orderly s e = true) s → s.exit = some 0 →
      s.out.mapping = false ∧ s.out.grant = false) := by
  refine ⟨fun h => ?_, fun h hexit => (accounted h).clean hexit⟩
  have hordered := ordered h
  refine ⟨hordered.acts, fun hlive s' hrun => ?_⟩
  have hbegun : Ordered s' ∧ .closeStarted ∈ s'.acts := by
    refine hrun.inv (P := fun s' => Ordered s' ∧ .closeStarted ∈ s'.acts) (fun s' hs => ?_) fun s' e hs _ => ?_
    · rw [hs]
      exact ⟨hordered.step _, signalled_begun hordered hlive⟩
    · exact ⟨hs.1.step e, (acts_step e).subset hs.2⟩
  exact ⟨closes_once hbegun.1 hbegun.2, fun hlive' => signalled_again hbegun.1 hlive' hbegun.2⟩

/-- A daemon whose serve mapping is being made. -/
def exposing (provisioning : Option AclGrant) : Serve :=
  { tunnel := { provisioning }, verb := .establishing (.serve ⟨js "127.0.0.1", 4321⟩) }

theorem expose_loopback (provisioning : Option AclGrant) :
    expose provisioning ⟨js "127.0.0.1", 4321⟩ = exposing provisioning := by
  have hloopback : TailscaleTunnel.establish ⟨js "127.0.0.1", 4321⟩ = .awaiting (.serve ⟨js "127.0.0.1", 4321⟩) :=
    if_pos (by decide)
  unfold expose
  rw [hloopback]
  rfl

/-- A signal while the mapping is being made, up to the status. -/
def interrupted : List Event := [.signal, .closed none, .answer (.ran [])]

/-- The establish that goes on to its end, and the teardown that waited for it. -/
def resumed : List Event := [.answer (.ran runningStatus), .reported none, .turn, .answer (.ran [])]

/-- The daemon after the status, reachable. -/
def reachable : Serve where
  tunnel := {
    provisioning := none
    servedLocal := some ⟨js "127.0.0.1", 4321⟩
    established := some ⟨.tailscale, js "box.ts.net"⟩ }
  verb := .reporting
  handler := .waiting 0
  acts := [.closeStarted, .closeSettled false]
  out := { mapping := true }

theorem interrupted_status :
    step integerHost (runFrom (step integerHost) (exposing none) interrupted) (.answer (.ran runningStatus)) =
      reachable := by
  have hbefore : runFrom (step integerHost) (exposing none) interrupted =
      { reachable with
        tunnel := { provisioning := none, servedLocal := some ⟨js "127.0.0.1", 4321⟩ }
        verb := .establishing .status } := rfl
  rw [hbefore, step_live rfl]
  simp only [react, Serve.answered, Serve.took, reachable, TailscaleTunnel.resume, resolve_running]
  rfl

theorem interrupted_allowed :
    allowed (step integerHost) (fun s e => orderly s e = true) (exposing none) (interrupted ++ resumed) := by
  apply allowed_append
  · exact ⟨rfl, rfl, rfl, trivial⟩
  · refine ⟨rfl, ?_⟩
    rw [interrupted_status]
    exact ⟨rfl, rfl, rfl, trivial⟩

theorem interrupted_exit : (runFrom (step integerHost) (exposing none) (interrupted ++ resumed)).exit = some 0 := by
  rw [runFrom_append, resumed]
  unfold runFrom
  rw [List.foldl_cons]
  have hstatus := interrupted_status
  unfold runFrom at hstatus
  rw [hstatus]
  rfl

theorem serve_shutdown_interrupted :
    let s := runFrom (step integerHost) (exposing none) (interrupted ++ resumed)
    (∃ failed, s.acts <+: [.closeStarted, .closeSettled failed, .teardownStarted]) ∧
      (step integerHost (exposing none) .signal).acts.count .closeStarted = 1 ∧
      (step integerHost (step integerHost (exposing none) .signal) .signal).exit = some 1 ∧
      s.exit = some 0 ∧ s.out.mapping = false ∧ s.out.grant = false := by
  intro s
  have hstart : Start (exposing none) := ⟨none, .inr ⟨_, (expose_loopback none).symm⟩⟩
  have hrun : Reach (step integerHost) Start (fun s e => orderly s e = true) s :=
    (Reach.start hstart).run_allowed interrupted_allowed
  have hacts := ((serve_shutdown integerHost).1 (hrun.mono fun _ _ _ => trivial)).1
  have hfirst := ((serve_shutdown integerHost).1 (Reach.start hstart)).2 rfl _ (Reach.start rfl)
  exact ⟨hacts, hfirst.1, hfirst.2 rfl, interrupted_exit, (serve_shutdown integerHost).2 hrun interrupted_exit⟩

/-- The signal comes before the establish fails at its status: the shutdown exits with 0 while the
    inline release has not turned the mapping off. -/
theorem mapping_stranded :
    let s := runFrom (step integerHost) (expose none ⟨js "127.0.0.1", 4321⟩)
      [.answer (.ran []), .signal, .closed none, .answer (.failed (js "tailscale: not running")), .turn]
    s.exit = some 0 ∧ s.out.mapping = true := by
  intro s
  have hs : s = runFrom (step integerHost) (exposing none)
      [.answer (.ran []), .signal, .closed none, .answer (.failed (js "tailscale: not running")), .turn] := by
    rw [← expose_loopback]
  rw [hs]
  exact ⟨rfl, rfl⟩

end Ccctl.Cli
