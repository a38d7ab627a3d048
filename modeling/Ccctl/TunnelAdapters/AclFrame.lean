import Ccctl.TunnelAdapters.AclService
/-
  Ccctl.TunnelAdapters.AclFrame — what provisioning leaves of the operator's policy.

  A save lands on the policy it was computed from once the document it was computed from came
  with a tag (`Known.current`), so it moves one entry equal to the grant; without a tag it does
  so only over the policy it read. A revert that completes after a provision, whatever failed in
  between, leaves the policy the provision found (`Restoring`).

  As built, a save without a tag undoes an edit made after the read, and an `adopt` forgets that
  the provision created `grants` (`policy_not_restored`).
-/

namespace Ccctl.TunnelAdapters

open Ccctl.Core
open Ccctl.Lib

variable {host : JsonHost} {service : AclService host} {w : World}

/-! ## Every write is framed -/

/-- A tag the policy was read under, and that it is the current policy if nothing was written since. -/
structure Known (service : AclService host) (w : World) (document : AclPolicyDocument) (read : Nat) : Prop where
  tag : document.etag ≠ [] → service.tag document.policy read = some document.etag
  past : read ≤ w.revision
  fresh : read = w.revision → document.policy = w.remote

/-- What is held is about the declared grant. -/
def Await.Holds (service : AclService host) (w : World) : Await → Prop
  | .provisionFetch _ grant => w.tunnel.provisioning = some grant
  | .provisionSave _ grant document next =>
    w.tunnel.provisioning = some grant ∧ provisionedPolicy grant document.policy = some next ∧
      ∃ read, Known service w document read
  | .revertFetch grant => w.tunnel.provisioning = some grant
  | .revertSave document next =>
    (∃ grant created, w.tunnel.provisioning = some grant ∧ revertedPolicy created grant document.policy = some next) ∧
      ∃ read, Known service w document read
  | _ => True

structure Framing (service : AclService host) (w : World) : Prop where
  recorded : ∀ grant, w.tunnel.provisionedGrant = some grant → w.tunnel.provisioning = some grant
  held : ∀ await, w.held = some await → await.Holds service w

theorem Known.current {document : AclPolicyDocument} {read : Nat} (h : Known service w document read)
    (haccept : service.accepts w (ifMatch document.etag) = true)
    (hguard : document.etag ≠ [] ∨ document.policy = w.remote) : document.policy = w.remote := by
  rcases hguard with htag | hsame
  · rw [ifMatch, if_neg htag] at haccept
    have hnow : service.tag w.remote w.revision = some document.etag := by simpa [AclService.accepts] using haccept
    rcases service.identifies (h.tag htag) hnow htag with hpolicy | hread
    · exact hpolicy
    · exact h.fresh hread
  · exact hsame

theorem known_now : Known service w (service.document w) w.revision := by
  refine ⟨fun htag => ?_, Nat.le_refl _, fun _ => rfl⟩
  show service.tag w.remote w.revision = some ((service.tag w.remote w.revision).getD [])
  have htag : (service.tag w.remote w.revision).getD [] ≠ [] := htag
  cases hnow : service.tag w.remote w.revision with
  | none => simp [hnow] at htag
  | some etag => rfl

theorem Known.later {w' : World} {document : AclPolicyDocument} {read : Nat} (h : Known service w document read)
    (hwrite : Unwritten w w' ∨ w'.revision = w.revision + 1) : Known service w' document read := by
  have hpast := h.past
  rcases hwrite with hsame | hnext
  · refine ⟨h.tag, by rw [hsame.revision]; exact hpast, fun hread => ?_⟩
    rw [hsame.remote]
    exact h.fresh (hread.trans hsame.revision)
  · exact ⟨h.tag, by omega, fun hread => by omega⟩

theorem Await.Holds.later {w' : World} {await : Await} (h : await.Holds service w)
    (hprov : w'.tunnel.provisioning = w.tunnel.provisioning) (hwrite : Unwritten w w' ∨ w'.revision = w.revision + 1) :
    await.Holds service w' := by
  cases await with
  | serve endpoint => trivial
  | status => trivial
  | provisionFetch publicHost grant => exact hprov.trans h
  | provisionSave publicHost grant document next =>
    obtain ⟨hgrant, hnext, read, hread⟩ := h
    exact ⟨hprov.trans hgrant, hnext, read, hread.later hwrite⟩
  | revertFetch grant => exact hprov.trans h
  | revertSave document next =>
    obtain ⟨⟨grant, created, hgrant, hnext⟩, read, hread⟩ := h
    exact ⟨⟨grant, created, hprov.trans hgrant, hnext⟩, read, hread.later hwrite⟩
  | off served => trivial

theorem handles_eq {t t' : TailscaleTunnel} (h : t'.handles = t.handles) : t'.provisioning = t.provisioning ∧
    t'.provisionedGrant = t.provisionedGrant ∧ t'.createdGrantsKey = t.createdGrantsKey := by
  simpa [TailscaleTunnel.handles] using h

theorem Framing.of_handles {w' : World} (h : Framing service w) (hhandles : w'.tunnel.handles = w.tunnel.handles)
    (hheld : ∀ await, w'.held = some await → await.Holds service w') : Framing service w' := by
  obtain ⟨hprov, hrecorded, -⟩ := handles_eq hhandles
  refine ⟨fun grant hgrant => ?_, hheld⟩
  rw [hprov]
  exact h.recorded grant (hrecorded.symm.trans hgrant)

theorem Framing.cleared {w' : World} (hhandles : w'.tunnel.handles = (w.tunnel.provisioning, none, false))
    (hheld : w'.held = none) : Framing service w' := by
  simp only [TailscaleTunnel.handles, Prod.mk.injEq] at hhandles
  refine ⟨fun grant hgrant => ?_, fun await h => ?_⟩
  · rw [hhandles.2.1] at hgrant
    cases hgrant
  · rw [hheld] at h
    cases h

theorem Framing.move {w' : World} (h : Framing service w) (hmove : Move service w w') : Framing service w' := by
  cases hmove with
  | calm hwrite hhandles hheld =>
    refine h.of_handles hhandles fun await hnow => ?_
    rcases hheld with hnone | hsame
    · rw [hnone] at hnow
      cases hnow
    · exact (h.held await (hsame.symm.trans hnow)).later (handles_eq hhandles).1 (.inl hwrite)
  | toProvision hwrite hhandles hgrant hheld =>
    refine h.of_handles hhandles fun await hnow => ?_
    rw [hheld] at hnow
    cases hnow
    exact (handles_eq hhandles).1.trans hgrant
  | toRevert hwrite hhandles hgrant hheld =>
    refine h.of_handles hhandles fun await hnow => ?_
    rw [hheld] at hnow
    cases hnow
    exact (handles_eq hhandles).1.trans (h.recorded _ hgrant)
  | provisionRead hwrite hhandles hbefore hnext hheld =>
    refine h.of_handles hhandles fun await hnow => ?_
    rw [hheld] at hnow
    cases hnow
    exact ⟨(handles_eq hhandles).1.trans (h.held _ hbefore), hnext, w.revision, known_now.later (.inl hwrite)⟩
  | revertRead hwrite hhandles hbefore hnext hheld =>
    refine h.of_handles hhandles fun await hnow => ?_
    rw [hheld] at hnow
    cases hnow
    exact ⟨⟨_, _, (handles_eq hhandles).1.trans (h.held _ hbefore), hnext⟩, w.revision, known_now.later (.inl hwrite)⟩
  | unanswered hbefore hsave hland hhandles hheld =>
    refine h.of_handles hhandles fun await hnow => ?_
    rw [hheld] at hnow
    cases hnow
  | provisioned hbefore hland hhandles hheld =>
    have hgrant := (h.held _ hbefore).1
    simp only [TailscaleTunnel.handles, Prod.mk.injEq] at hhandles
    refine ⟨fun grant hnow => ?_, fun await hnow => ?_⟩
    · rw [hhandles.2.1] at hnow
      cases hnow
      exact hhandles.1.trans hgrant
    · rw [hheld] at hnow
      cases hnow
  | reverted hbefore hland hhandles hheld => exact Framing.cleared hhandles hheld
  | nothingToRevert hwrite hbefore hnext hhandles hheld => exact Framing.cleared hhandles hheld

theorem Framing.step {e : Event} (h : Framing service w) (hread : Readable host w) :
    Framing service (step service w e) := by
  by_cases hedit : ∃ policy, e = .edit policy
  · obtain ⟨policy, rfl⟩ := hedit
    exact ⟨h.recorded, fun await hnow => (h.held await hnow).later rfl (.inr rfl)⟩
  by_cases hadopt : ∃ endpoint, e = .adopt endpoint
  · obtain ⟨endpoint, rfl⟩ := hadopt
    by_cases hbusy : w.call.isSome = true
    · have hstep : TunnelAdapters.step service w (.adopt endpoint) = w := if_pos hbusy
      rw [hstep]
      exact h
    · have hstep : TunnelAdapters.step service w (.adopt endpoint) =
          { w with tunnel := w.tunnel.adopt endpoint } := if_neg hbusy
      rw [hstep]
      refine ⟨fun grant hgrant => hgrant, fun await hnow => ?_⟩
      have hcall : w.call = none := by simpa using hbusy
      have hheld : w.held = some await := hnow
      rw [World.held, hcall] at hheld
      cases hheld
  · exact h.move (step_moves hread (fun policy he => hedit ⟨policy, he⟩) fun endpoint he => hadopt ⟨endpoint, he⟩)

theorem Readable.of_tunnel {w' : World} (h : Readable host w) (hremote : w'.remote.WellFormed host)
    (hprov : w'.tunnel.provisioning = w.tunnel.provisioning)
    (hsaved : ∀ await document next, w'.held = some await → await.save = some (document, next) →
      next.WellFormed host) : Readable host w' :=
  ⟨hremote, fun grant hgrant => h.declared grant (hprov.symm.trans hgrant), hsaved⟩

/-- A save is computed from a policy that reads back, and so is what it leaves. -/
theorem Readable.move {w' : World} (h : Readable host w) (hframe : Framing service w) (hmove : Move service w w') :
    Readable host w' := by
  have hidle : w'.held = none → ∀ await document next, w'.held = some await → await.save = some (document, next) →
      next.WellFormed host := fun hnone await document next hnow => by simp [hnone] at hnow
  cases hmove with
  | calm hwrite hhandles hheld =>
    refine h.of_tunnel (hwrite.remote ▸ h.remote) (handles_eq hhandles).1 fun await document next hnow hsave => ?_
    rcases hheld with hnone | hsame
    · exact hidle hnone await document next hnow hsave
    · exact h.saved await document next (hsame.symm.trans hnow) hsave
  | toProvision hwrite hhandles hgrant hheld =>
    refine h.of_tunnel (hwrite.remote ▸ h.remote) (handles_eq hhandles).1 fun await document next hnow hsave => ?_
    rw [hheld] at hnow
    cases hnow
    cases hsave
  | toRevert hwrite hhandles hgrant hheld =>
    refine h.of_tunnel (hwrite.remote ▸ h.remote) (handles_eq hhandles).1 fun await document next hnow hsave => ?_
    rw [hheld] at hnow
    cases hnow
    cases hsave
  | provisionRead hwrite hhandles hbefore hnext hheld =>
    refine h.of_tunnel (hwrite.remote ▸ h.remote) (handles_eq hhandles).1 fun await document next hnow hsave => ?_
    rw [hheld] at hnow
    cases hnow
    cases hsave
    exact provision_wellFormed h.remote (h.declared _ (hframe.held _ hbefore)) hnext
  | revertRead hwrite hhandles hbefore hnext hheld =>
    refine h.of_tunnel (hwrite.remote ▸ h.remote) (handles_eq hhandles).1 fun await document next hnow hsave => ?_
    rw [hheld] at hnow
    cases hnow
    cases hsave
    exact revert_wellFormed h.remote hnext
  | unanswered hbefore hsave hland hhandles hheld =>
    exact h.of_tunnel (hland.remote ▸ h.saved _ _ _ hbefore hsave) (handles_eq hhandles).1 (hidle hheld)
  | provisioned hbefore hland hhandles hheld =>
    exact h.of_tunnel (hland.remote ▸ h.saved _ _ _ hbefore rfl) (congrArg Prod.fst hhandles) (hidle hheld)
  | reverted hbefore hland hhandles hheld =>
    exact h.of_tunnel (hland.remote ▸ h.saved _ _ _ hbefore rfl) (congrArg Prod.fst hhandles) (hidle hheld)
  | nothingToRevert hwrite hbefore hnext hhandles hheld =>
    exact h.of_tunnel (hwrite.remote ▸ h.remote) (congrArg Prod.fst hhandles) (hidle hheld)

theorem Readable.step {e : Event} (h : Readable host w) (hframe : Framing service w) (hwell : e.wellFormed host) :
    Readable host (step service w e) := by
  by_cases hadopt : ∃ endpoint, e = .adopt endpoint
  · obtain ⟨endpoint, rfl⟩ := hadopt
    unfold TunnelAdapters.step
    dsimp only
    split
    · exact h
    · exact ⟨h.remote, h.declared, h.saved⟩
  by_cases hedit : ∃ policy, e = .edit policy
  · obtain ⟨policy, rfl⟩ := hedit
    exact ⟨hwell, h.declared, h.saved⟩
  · exact h.move hframe (step_moves h (fun policy he => hedit ⟨policy, he⟩) fun endpoint he => hadopt ⟨endpoint, he⟩)

theorem framing (h : Reach (TunnelAdapters.step service) (Start host) (fun _ e => e.wellFormed host) w) :
    Framing service w ∧ Readable host w := by
  refine h.inv (P := fun s => Framing service s ∧ Readable host s) (fun s hs => ?_)
    fun s e hs hwell => ⟨hs.1.step hs.2, hs.2.step hs.1 hwell⟩
  have hheld : s.held = none := by rw [World.held, hs.call]; rfl
  obtain ⟨provisioning, htunnel⟩ := hs.tunnel
  refine ⟨⟨fun grant hgrant => ?_, fun await hnow => ?_⟩, hs.remote, hs.declared, fun await document next hnow => ?_⟩
  · rw [htunnel] at hgrant
    cases hgrant
  · rw [hheld] at hnow
    cases hnow
  · rw [hheld] at hnow
    cases hnow

/-- A step writes nothing, or a save that landed. -/
theorem Move.writes {w' : World} (h : Move service w w') : w'.remote = w.remote ∨
    ∃ await document next, w.held = some await ∧ await.save = some (document, next) ∧
      Landed service document next w w' := by
  cases h with
  | calm hwrite hhandles hheld => exact .inl hwrite.remote
  | toProvision hwrite hhandles hgrant hheld => exact .inl hwrite.remote
  | toRevert hwrite hhandles hgrant hheld => exact .inl hwrite.remote
  | provisionRead hwrite hhandles hbefore hnext hheld => exact .inl hwrite.remote
  | revertRead hwrite hhandles hbefore hnext hheld => exact .inl hwrite.remote
  | unanswered hbefore hsave hland hhandles hheld => exact .inr ⟨_, _, _, hbefore, hsave, hland⟩
  | provisioned hbefore hland hhandles hheld => exact .inr ⟨_, _, _, hbefore, rfl, hland⟩
  | reverted hbefore hland hhandles hheld => exact .inr ⟨_, _, _, hbefore, rfl, hland⟩
  | nothingToRevert hwrite hbefore hnext hhandles hheld => exact .inl hwrite.remote

/-- A save over the policy it was computed from moves one entry equal to the grant. -/
theorem landed_framed {w' : World} {await : Await} {document : AclPolicyDocument} {next : AclPolicy}
    (h : await.Holds service w) (hsave : await.save = some (document, next)) (hland : Landed service document next w w')
    (hguard : document.etag ≠ [] ∨ document.policy = w.remote) :
    ∃ grant, w.tunnel.provisioning = some grant ∧ Framed grant w.remote w'.remote := by
  cases await <;> cases hsave
  · obtain ⟨hgrant, hnext, read, hread⟩ := h
    refine ⟨_, hgrant, ?_⟩
    rw [hland.remote, ← hread.current hland.accepted hguard]
    exact provision_framed hnext
  · obtain ⟨⟨grant, created, hgrant, hnext⟩, read, hread⟩ := h
    refine ⟨grant, hgrant, ?_⟩
    rw [hland.remote, ← hread.current hland.accepted hguard]
    exact revert_framed hnext

/-! ## A revert restores -/

/-- No edit by others, and no `adopt`. -/
def Event.ours : Event → Bool
  | .edit _ => false
  | .adopt _ => false
  | _ => true

/-- What is held between a provision of `before` and its revert. -/
def Await.Restores (tunnel : TailscaleTunnel) (before next : AclPolicy) : Await → Prop
  | .provisionSave _ _ document saved => document.policy = before ∧ saved = next
  | .revertFetch grant => tunnel.provisionedGrant = some grant
  | .revertSave _ saved => saved = before
  | _ => True

structure Restoring (grant : AclGrant) (before next : AclPolicy) (w : World) : Prop where
  declared : w.tunnel.provisioning = some grant
  remote : w.remote = before ∨ w.remote = next
  recorded : w.tunnel.provisionedGrant = none ∨
    (w.tunnel.provisionedGrant = some grant ∧ w.tunnel.createdGrantsKey = before.grantItems.isNone)
  held : ∀ await, w.held = some await → await.Restores w.tunnel before next

section

variable {grant : AclGrant} {before next : AclPolicy}

theorem Restoring.of_handles {w' : World} (h : Restoring grant before next w)
    (hhandles : w'.tunnel.handles = w.tunnel.handles) (hremote : w'.remote = before ∨ w'.remote = next)
    (hheld : ∀ await, w'.held = some await → await.Restores w'.tunnel before next) :
    Restoring grant before next w' := by
  obtain ⟨hprov, hgrant, hcreated⟩ := handles_eq hhandles
  refine ⟨hprov.trans h.declared, hremote, ?_, hheld⟩
  rw [hgrant, hcreated]
  exact h.recorded

theorem Restoring.cleared {w' : World} (h : Restoring grant before next w)
    (hhandles : w'.tunnel.handles = (w.tunnel.provisioning, none, false)) (hremote : w'.remote = before)
    (hheld : w'.held = none) : Restoring grant before next w' := by
  simp only [TailscaleTunnel.handles, Prod.mk.injEq] at hhandles
  refine ⟨hhandles.1.trans h.declared, .inl hremote, .inl hhandles.2.1, fun await hnow => ?_⟩
  rw [hheld] at hnow
  cases hnow

theorem Restoring.recorded_of_fetch {g : AclGrant} (h : Restoring grant before next w)
    (hheld : w.held = some (.revertFetch g)) : g = grant ∧ w.tunnel.createdGrantsKey = before.grantItems.isNone := by
  have hgrant : w.tunnel.provisionedGrant = some g := h.held _ hheld
  rcases h.recorded with hnone | ⟨hsome, hcreated⟩
  · rw [hnone] at hgrant
    cases hgrant
  · rw [hsome] at hgrant
    exact ⟨(Option.some.inj hgrant).symm, hcreated⟩

variable (hshape : before.wellShaped) (hnext : provisionedPolicy grant before = some next)
include hshape hnext

/-- With the grant there a revert brings `before` back, and without it there is nothing to remove. -/
theorem Restoring.reverts {g : AclGrant} (h : Restoring grant before next w) (hheld : w.held = some (.revertFetch g)) :
    (w.remote = next ∧ revertedPolicy w.tunnel.createdGrantsKey g w.remote = some before) ∨
      (w.remote = before ∧ revertedPolicy w.tunnel.createdGrantsKey g w.remote = none) := by
  obtain ⟨rfl, hcreated⟩ := h.recorded_of_fetch hheld
  rcases h.remote with hbefore | hafter
  · rw [hbefore]
    exact .inr ⟨rfl, revert_unprovisioned hnext _⟩
  · rw [hafter, hcreated]
    exact .inl ⟨rfl, revert_provision hshape hnext⟩

theorem Restoring.move {w' : World} (h : Restoring grant before next w) (hframe : Framing service w)
    (hmove : Move service w w') : Restoring grant before next w' := by
  cases hmove with
  | calm hwrite hhandles hheld =>
    refine h.of_handles hhandles (hwrite.remote ▸ h.remote) fun await hnow => ?_
    rcases hheld with hnone | hsame
    · rw [hnone] at hnow
      cases hnow
    · have hkept := h.held await (hsame.symm.trans hnow)
      cases await with
      | revertFetch g => exact (handles_eq hhandles).2.1.trans hkept
      | _ => exact hkept
  | toProvision hwrite hhandles hgrant hheld =>
    refine h.of_handles hhandles (hwrite.remote ▸ h.remote) fun await hnow => ?_
    rw [hheld] at hnow
    cases hnow
    trivial
  | toRevert hwrite hhandles hgrant hheld =>
    refine h.of_handles hhandles (hwrite.remote ▸ h.remote) fun await hnow => ?_
    rw [hheld] at hnow
    cases hnow
    exact (handles_eq hhandles).2.1.trans hgrant
  | @provisionRead publicHost g saved hwrite hhandles hbefore hsaved hheld =>
    refine h.of_handles hhandles (hwrite.remote ▸ h.remote) fun await hnow => ?_
    rw [hheld] at hnow
    cases hnow
    have hgrant : w.tunnel.provisioning = some g := hframe.held _ hbefore
    obtain rfl : grant = g := Option.some.inj (h.declared.symm.trans hgrant)
    -- over its own write a provision writes nothing
    rcases h.remote with hold | hnew
    · rw [hold, hnext] at hsaved
      exact ⟨hold, (Option.some.inj hsaved).symm⟩
    · rw [hnew, provision_again hnext] at hsaved
      cases hsaved
  | revertRead hwrite hhandles hbefore hsaved hheld =>
    refine h.of_handles hhandles (hwrite.remote ▸ h.remote) fun await hnow => ?_
    rw [hheld] at hnow
    cases hnow
    rcases h.reverts hshape hnext hbefore with ⟨-, hback⟩ | ⟨-, hnone⟩
    · rw [hback] at hsaved
      exact (Option.some.inj hsaved).symm
    · rw [hnone] at hsaved
      cases hsaved
  | @unanswered await document saved hbefore hsave hland hhandles hheld =>
    have hkept := h.held _ hbefore
    refine h.of_handles hhandles ?_ fun await hnow => ?_
    · rw [hland.remote]
      cases await <;> cases hsave
      · exact .inr hkept.2
      · exact .inl hkept
    · rw [hheld] at hnow
      cases hnow
  | provisioned hbefore hland hhandles hheld =>
    obtain ⟨hread, hsaved⟩ := h.held _ hbefore
    have hgrant := (hframe.held _ hbefore).1
    simp only [TailscaleTunnel.handles, Prod.mk.injEq] at hhandles
    refine ⟨hhandles.1.trans h.declared, .inr (hland.remote.trans hsaved), .inr ⟨?_, ?_⟩, fun await hnow => ?_⟩
    · rw [hhandles.2.1, ← hgrant, h.declared]
    · rw [hhandles.2.2, hread]
    · rw [hheld] at hnow
      cases hnow
  | reverted hbefore hland hhandles hheld =>
    exact h.cleared hhandles (hland.remote.trans (h.held _ hbefore)) hheld
  | nothingToRevert hwrite hbefore hsaved hhandles hheld =>
    refine h.cleared hhandles (hwrite.remote.trans ?_) hheld
    rcases h.reverts hshape hnext hbefore with ⟨-, hback⟩ | ⟨hold, -⟩
    · rw [hback] at hsaved
      cases hsaved
    · exact hold

/-- A revert that completes leaves the policy the provision found. -/
theorem Restoring.restored {w' : World} (h : Restoring grant before next w) (hmove : Move service w w')
    (hrecorded : w.tunnel.provisionedGrant.isSome = true) (hcleared : w'.tunnel.provisionedGrant = none) :
    w'.remote = before := by
  have hkept : w'.tunnel.handles = w.tunnel.handles → w'.remote = before := by
    intro hhandles
    rw [(handles_eq hhandles).2.1] at hcleared
    rw [hcleared] at hrecorded
    cases hrecorded
  cases hmove with
  | calm hwrite hhandles hheld => exact hkept hhandles
  | toProvision hwrite hhandles hgrant hheld => exact hkept hhandles
  | toRevert hwrite hhandles hgrant hheld => exact hkept hhandles
  | provisionRead hwrite hhandles hbefore hsaved hheld => exact hkept hhandles
  | revertRead hwrite hhandles hbefore hsaved hheld => exact hkept hhandles
  | unanswered hbefore hsave hland hhandles hheld => exact hkept hhandles
  | provisioned hbefore hland hhandles hheld =>
    simp only [TailscaleTunnel.handles, Prod.mk.injEq] at hhandles
    rw [hcleared] at hhandles
    cases hhandles.2.1
  | reverted hbefore hland hhandles hheld => exact hland.remote.trans (h.held _ hbefore)
  | nothingToRevert hwrite hbefore hsaved hhandles hheld =>
    rcases h.reverts hshape hnext hbefore with ⟨-, hback⟩ | ⟨hold, -⟩
    · rw [hback] at hsaved
      cases hsaved
    · exact hwrite.remote.trans hold

end

/-- A provision that was taken and answered. -/
theorem step_provisioned {publicHost : JsString} {grant : AclGrant} {document : AclPolicyDocument} {next : AclPolicy}
    (hcall : w.call = some (.provisionSave publicHost grant document next))
    (hwell : next.WellFormed host) (haccept : service.accepts w (ifMatch document.etag) = true) (stdout : JsString) :
    step service w (.answer (.done stdout)) =
      { tunnel := { w.tunnel with
          provisionedGrant := some grant
          createdGrantsKey := document.policy.grantItems.isNone
          established := some ⟨.tailscale, publicHost⟩ }
        call := none
        remote := next
        revision := w.revision + 1 } := by
  rw [step_answer hcall, Await.request, answer_saved hwell haccept]
  rfl

/-- A tag just read is the current one. -/
theorem accepts_document (service : AclService host) (w : World) :
    service.accepts w (ifMatch (service.document w).etag) = true := by
  rcases htag : service.tag w.remote w.revision with _ | etag
  · simp [AclService.document, htag, ifMatch, AclService.accepts]
  · by_cases hempty : etag = []
    · simp [AclService.document, htag, ifMatch, AclService.accepts, hempty]
    · simp [AclService.document, htag, ifMatch, AclService.accepts, hempty]

/-- A teardown with nothing in its way saves what reverting the current policy gives. -/
theorem teardown_saves (hread : Readable host w) (hcall : w.call = none) {declared grant : AclGrant} {next : AclPolicy}
    (hprov : w.tunnel.provisioning = some declared) (hgrant : w.tunnel.provisionedGrant = some grant)
    (hnext : revertedPolicy w.tunnel.createdGrantsKey grant w.remote = some next) (stdout stdout' : JsString) :
    (runFrom (step service) w [.teardown, .answer (.done stdout), .answer (.done stdout')]).remote = next := by
  have hteardown : step service w .teardown = { w with call := some (.revertFetch grant) } := by
    have hidle : step service w .teardown = w.begin_ w.tunnel.teardown := if_neg (by simp [hcall])
    have hreverts : w.tunnel.teardown = .awaiting (.revertFetch grant) := by
      rw [TailscaleTunnel.teardown, hgrant, hprov]
    rw [hidle, hreverts]
    rfl
  have hfetched : step service { w with call := some (.revertFetch grant) } (.answer (.done stdout)) =
      { w with call := some (.revertSave (service.document w) next) } := by
    have hnow : revertedPolicy w.tunnel.createdGrantsKey grant (service.document w).policy = some next := hnext
    rw [step_answer rfl]
    show World.takes host w (.revertFetch grant)
      (.responded ⟨true, 200, service.tag w.remote w.revision, readBody host (service.text w.remote)⟩) = _
    have hfetch : fetchPolicy ⟨true, 200, service.tag w.remote w.revision, .object w.remote⟩ =
        .ok (service.document w) := rfl
    rw [readBody_object (service.reads _ hread.remote)]
    simp only [World.takes, TailscaleTunnel.resume, hfetch, hnow, Progress.call]
  have hsaved : (step service { w with call := some (.revertSave (service.document w) next) }
      (.answer (.done stdout'))).remote = next := by
    have haccept : service.accepts { w with call := some (.revertSave (service.document w) next) }
        (ifMatch (service.document w).etag) = true := accepts_document service w
    rw [step_answer rfl, Await.request, answer_saved (revert_wellFormed hread.remote hnext) haccept]
    rfl
  simp only [runFrom, List.foldl_cons, List.foldl_nil]
  rw [hteardown, hfetched]
  exact hsaved

/-- The teardown right after a provision. -/
theorem teardown_restores {grant : AclGrant} {before next : AclPolicy} (h : Restoring grant before next w)
    (hread : Readable host w) (hshape : before.wellShaped) (hnext : provisionedPolicy grant before = some next)
    (hcall : w.call = none) (hremote : w.remote = next) (hgrant : w.tunnel.provisionedGrant = some grant)
    (stdout stdout' : JsString) :
    (runFrom (step service) w [.teardown, .answer (.done stdout), .answer (.done stdout')]).remote = before := by
  have hcreated : w.tunnel.createdGrantsKey = before.grantItems.isNone := by
    rcases h.recorded with hnone | hsome
    · rw [hgrant] at hnone
      cases hnone
    · exact hsome.2
  refine teardown_saves hread hcall h.declared hgrant ?_ stdout stdout'
  rw [hcreated, hremote]
  exact revert_provision hshape hnext

theorem ours_moves (hread : Readable host w) {e : Event} (h : e.ours = true) : Move service w (step service w e) := by
  apply step_moves hread
  · intro policy heq
    subst heq
    cases h
  · intro endpoint heq
    subst heq
    cases h

theorem adopt_remote (endpoint : HostEndpoint) : (step service w (.adopt endpoint)).remote = w.remote := by
  unfold step
  dsimp only
  split <;> rfl

/-! ## Provisioning touches only its own grant -/

/-- In a run of any operations, failures and edits, a step of ours leaves the policy as it is or
    moves one entry equal to the declared grant; and a provision then a revert, whatever fails or
    is retried in between, bring back the policy the provision found. -/
theorem provisioning_framed (service : AclService host) {w : World}
    (h : Reach (step service) (Start host) (fun _ e => e.wellFormed host) w) :
    (∀ e, (∀ policy, e ≠ .edit policy) → (step service w e).remote = w.remote ∨
      ∃ await document next, w.call = some await ∧ await.save = some (document, next) ∧
        ((document.etag ≠ [] ∨ document.policy = w.remote) →
          ∃ grant, w.tunnel.provisioning = some grant ∧ Framed grant w.remote (step service w e).remote)) ∧
    (∀ publicHost grant document next stdout, w.call = some (.provisionSave publicHost grant document next) →
      service.accepts w (ifMatch document.etag) = true → (document.etag ≠ [] ∨ document.policy = w.remote) →
      w.remote.wellShaped →
      (∀ stdout' stdout'', (runFrom (step service) (step service w (.answer (.done stdout)))
        [.teardown, .answer (.done stdout'), .answer (.done stdout'')]).remote = w.remote) ∧
      (∀ w', Reach (step service) (· = step service w (.answer (.done stdout)))
          (fun _ e => e.ours = true) w' → ∀ e, e.ours = true → w'.tunnel.provisionedGrant.isSome = true →
          (step service w' e).tunnel.provisionedGrant = none → (step service w' e).remote = w.remote)) := by
  obtain ⟨hframe, hread⟩ := framing h
  refine ⟨fun e hedit => ?_, fun publicHost grant document next stdout hcall haccept hguard hshape => ?_⟩
  · by_cases hadopt : ∃ endpoint, e = .adopt endpoint
    · obtain ⟨endpoint, rfl⟩ := hadopt
      exact .inl (adopt_remote endpoint)
    · have hmove : Move service w (step service w e) :=
        step_moves hread hedit fun endpoint he => hadopt ⟨endpoint, he⟩
      rcases hmove.writes with hsame | ⟨await, document, next, hheld, hsave, hland⟩
      · exact .inl hsame
      · refine .inr ⟨await, document, next, (Option.filter_eq_some_iff.mp hheld).1, hsave, fun hguard => ?_⟩
        exact landed_framed (hframe.held await hheld) hsave hland hguard
  · have hheld : w.held = some (.provisionSave publicHost grant document next) := by
      rw [World.held, hcall]
      rfl
    obtain ⟨hdeclared, hnext, read, hknown⟩ := hframe.held _ hheld
    have hwell : next.WellFormed host := hread.saved _ _ _ hheld rfl
    have hcurrent : document.policy = w.remote := hknown.current haccept hguard
    rw [hcurrent] at hnext
    have hstart : Restoring grant w.remote next (step service w (.answer (.done stdout))) := by
      rw [step_provisioned hcall hwell haccept, hcurrent]
      refine ⟨hdeclared, .inr rfl, .inr ⟨rfl, rfl⟩, fun await hnow => ?_⟩
      cases hnow
    refine ⟨fun stdout' stdout'' => ?_, fun w' hrun => ?_⟩
    · apply teardown_restores hstart (hread.step hframe trivial) hshape hnext
      · rw [step_provisioned hcall hwell haccept]
      · rw [step_provisioned hcall hwell haccept]
      · rw [step_provisioned hcall hwell haccept]
    · have hall : Framing service w' ∧ Readable host w' ∧ Restoring grant w.remote next w' := by
        refine hrun.inv (P := fun s => Framing service s ∧ Readable host s ∧ Restoring grant w.remote next s)
          (fun s hs => ?_) fun s e hs hours => ?_
        · rw [hs]
          exact ⟨hframe.step hread, hread.step hframe trivial, hstart⟩
        · obtain ⟨hframed, hreads, hrestores⟩ := hs
          have hmove : Move service s (step service s e) := ours_moves hreads hours
          exact ⟨hframed.move hmove, hreads.move hframed hmove, hrestores.move hshape hnext hframed hmove⟩
      intro e hours hrecorded hcleared
      exact hall.2.2.restored hshape hnext (ours_moves hall.2.1 hours) hrecorded hcleared

/-! ## A first provision -/

/-- A service whose tags count revisions. -/
def numbered : AclService integerHost where
  tag _ revision := some (List.replicate (revision + 1) 0x31)
  identifies h h' _ := by
    simp only [Option.some.injEq] at h h'
    have hlength := congrArg List.length (h.trans h'.symm)
    simp only [List.length_replicate] at hlength
    exact .inr (by omega)
  text := AclPolicy.text integerHost
  reads _ h := Json.parse_stringify h

/-- A service that reports no tag. -/
def untagged : AclService integerHost where
  tag _ _ := none
  identifies h := by cases h
  text := AclPolicy.text integerHost
  reads _ h := Json.parse_stringify h

def tagGrant : AclGrant where
  value := .obj [(js "dst", .arr [.str (js "tag:ccctl")])]
  unique := by
    refine .obj (by decide) fun f hf => ?_
    rw [List.mem_singleton.mp hf]
    refine .arr fun v hv => ?_
    rw [List.mem_singleton.mp hv]
    exact .str _

def emptyPolicy : AclPolicy := ⟨[], .nil⟩

def aclsPolicy : AclPolicy := ⟨[(js "acls", .arr [])], by decide⟩

theorem emptyPolicy_wellFormed : emptyPolicy.WellFormed integerHost := .obj rfl (by simp [emptyPolicy])

theorem tagGrant_wellFormed : tagGrant.value.WellFormed integerHost := by
  refine .names [js "dst"] rfl (by decide) (by decide) fun f hf => ?_
  rw [List.mem_singleton.mp hf]
  refine .arr fun v hv => ?_
  rw [List.mem_singleton.mp hv]
  exact .str _

def fresh (policy : AclPolicy) : World := ⟨{ provisioning := some tagGrant }, none, policy, 0⟩

theorem start_fresh {policy : AclPolicy} (h : policy.WellFormed integerHost) : Start integerHost (fresh policy) := by
  refine ⟨⟨some tagGrant, rfl⟩, rfl, h, fun grant hgrant => ?_⟩
  cases hgrant
  exact tagGrant_wellFormed

/-- `establish` up to its save. -/
def establishing : List Event :=
  [.establish ⟨js "127.0.0.1", 4321⟩, .answer (.done []), .answer (.done runningStatus), .answer (.done [])]

/-- `fresh` with its mapping up, waiting for `await`. -/
def served (policy : AclPolicy) (await : Await) : World :=
  { fresh policy with
    tunnel := { (fresh policy).tunnel with servedLocal := some ⟨js "127.0.0.1", 4321⟩ }
    call := some await }

/-- `fresh` reads a policy with no grants. -/
theorem establish_read (service : AclService integerHost) {policy : AclPolicy} (h : policy.WellFormed integerHost)
    (hnone : policy.grantItems = none) :
    runFrom (step service) (fresh policy) establishing =
      served policy (.provisionSave (js "box.ts.net") tagGrant (service.document (fresh policy))
        (policy.setGrants [tagGrant.value])) := by
  have hserve : step service (fresh policy) (.establish ⟨js "127.0.0.1", 4321⟩) =
      { fresh policy with call := some (.serve ⟨js "127.0.0.1", 4321⟩) } := by
    have hloop : TailscaleTunnel.establish ⟨js "127.0.0.1", 4321⟩ = .awaiting (.serve ⟨js "127.0.0.1", 4321⟩) :=
      if_pos (by decide)
    have hidle : step service (fresh policy) (.establish ⟨js "127.0.0.1", 4321⟩) =
      (fresh policy).begin_ (TailscaleTunnel.establish ⟨js "127.0.0.1", 4321⟩) := rfl
    rw [hidle, hloop]
    rfl
  have hserved : step service { fresh policy with call := some (.serve ⟨js "127.0.0.1", 4321⟩) }
      (.answer (.done [])) = served policy .status := rfl
  have hstatus : step service (served policy .status) (.answer (.done runningStatus)) =
      served policy (.provisionFetch (js "box.ts.net") tagGrant) := by
    rw [step_answer rfl]
    show World.takes integerHost (served policy .status) .status (.ran runningStatus) = _
    simp only [World.takes, TailscaleTunnel.resume, resolve_running]
    rfl
  have hnext : provisionedPolicy tagGrant policy = some (policy.setGrants [tagGrant.value]) := by
    rw [provisionedPolicy, hnone]
    rfl
  have hread : step service (served policy (.provisionFetch (js "box.ts.net") tagGrant)) (.answer (.done [])) =
      served policy (.provisionSave (js "box.ts.net") tagGrant (service.document (fresh policy))
        (policy.setGrants [tagGrant.value])) := by
    have hfetch : fetchPolicy ⟨true, 200, service.tag policy 0, .object policy⟩ =
        .ok (service.document (fresh policy)) := rfl
    have hdocument : (service.document (fresh policy)).policy = policy := rfl
    rw [step_answer rfl]
    show World.takes integerHost (served policy _) _
      (.responded ⟨true, 200, service.tag policy 0, readBody integerHost (service.text policy)⟩) = _
    rw [readBody_object (service.reads policy h)]
    simp only [World.takes, TailscaleTunnel.resume, hfetch, hdocument, hnext]
    rfl
  simp only [establishing, runFrom, List.foldl_cons, List.foldl_nil]
  rw [hserve, hserved, hstatus, hread]

theorem granted_wellFormed {policy : AclPolicy} (h : policy.WellFormed integerHost) :
    (policy.setGrants [tagGrant.value]).WellFormed integerHost :=
  wellFormed_set h fun v hv => by
    rw [List.mem_singleton.mp hv]
    exact tagGrant_wellFormed

/-- A first provision over a service that tags, and the teardown after it. -/
theorem provisioning_framed_fresh :
    let w := runFrom (step numbered) (fresh emptyPolicy) establishing
    (runFrom (step numbered) (step numbered w (.answer (.done [])))
      [.teardown, .answer (.done []), .answer (.done [])]).remote = w.remote ∧
    ∃ grant, w.tunnel.provisioning = some grant ∧
      Framed grant w.remote (step numbered w (.answer (.done []))).remote := by
  intro w
  have hrun : Reach (step numbered) (Start integerHost) (fun _ e => e.wellFormed integerHost) w :=
    (Reach.start (start_fresh emptyPolicy_wellFormed)).run_allowed ⟨trivial, trivial, trivial, trivial, trivial⟩
  have hw : w = _ := establish_read numbered emptyPolicy_wellFormed rfl
  obtain ⟨hframed, hrestored⟩ := provisioning_framed numbered hrun
  have hcall : w.call = some (.provisionSave (js "box.ts.net") tagGrant (numbered.document (fresh emptyPolicy))
      (emptyPolicy.setGrants [tagGrant.value])) := by rw [hw]; rfl
  have htag : (numbered.document (fresh emptyPolicy)).etag ≠ [] := by decide
  have haccept : numbered.accepts w (ifMatch (numbered.document (fresh emptyPolicy)).etag) = true := by rw [hw]; rfl
  refine ⟨(hrestored _ _ _ _ [] hcall haccept (.inl htag) ?_).1 [] [], ?_⟩
  · rw [hw]
    exact .inl rfl
  · rcases hframed (.answer (.done [])) (by simp) with hsame | ⟨await, document, next, hnow, hsave, hframe⟩
    · rw [step_provisioned hcall (granted_wellFormed emptyPolicy_wellFormed) haccept] at hsame
      have hgrants := congrArg AclPolicy.grantItems hsame
      rw [hw] at hgrants
      cases hgrants
    · rw [hcall] at hnow
      cases hnow
      cases hsave
      exact hframe (.inl htag)

/-- `fresh` after its provision and an `adopt`. -/
def provisionedAdopted : World :=
  { tunnel :=
      { provisioning := some tagGrant
        servedLocal := some ⟨js "127.0.0.1", 4321⟩
        established := some ⟨.tailscale, js "box.ts.net"⟩
        provisionedGrant := some tagGrant }
    call := none
    remote := emptyPolicy.setGrants [tagGrant.value]
    revision := 1 }

/-- An `adopt` after the provision leaves `grants: []` where there was none, and a save without a
    tag takes away the `acls` written after its read. -/
theorem policy_not_restored :
    ((fresh emptyPolicy).remote.grants = none ∧
      (runFrom (step numbered) (fresh emptyPolicy) (establishing ++ [.answer (.done []),
        .adopt ⟨js "127.0.0.1", 4321⟩, .teardown, .answer (.done []), .answer (.done [])])).remote.grants =
          some (.arr [])) ∧
    ((runFrom (step untagged) (fresh emptyPolicy) (establishing ++ [.edit aclsPolicy])).remote = aclsPolicy ∧
      (runFrom (step untagged) (fresh emptyPolicy)
        (establishing ++ [.edit aclsPolicy, .answer (.done [])])).remote.others = []) := by
  have hwell := granted_wellFormed emptyPolicy_wellFormed
  refine ⟨⟨rfl, ?_⟩, ?_, ?_⟩
  · have hadopted : runFrom (step numbered) (fresh emptyPolicy)
        (establishing ++ [.answer (.done []), .adopt ⟨js "127.0.0.1", 4321⟩]) = provisionedAdopted := by
      rw [runFrom_append, establish_read _ emptyPolicy_wellFormed rfl]
      simp only [runFrom, List.foldl_cons, List.foldl_nil]
      rw [step_provisioned (w := served emptyPolicy _) rfl hwell (accepts_document numbered (fresh emptyPolicy))]
      rfl
    have hread : Readable integerHost provisionedAdopted := by
      refine ⟨hwell, fun grant hgrant => ?_, fun await document next hnow => by cases hnow⟩
      cases hgrant
      exact tagGrant_wellFormed
    have hnext : revertedPolicy provisionedAdopted.tunnel.createdGrantsKey tagGrant provisionedAdopted.remote =
        some (emptyPolicy.setGrants []) := rfl
    have hrun : (runFrom (step numbered) provisionedAdopted [.teardown, .answer (.done []),
        .answer (.done [])]).remote = emptyPolicy.setGrants [] := teardown_saves hread rfl rfl rfl hnext [] []
    rw [← hadopted, ← runFrom_append, List.append_assoc] at hrun
    exact congrArg AclPolicy.grants hrun
  · rw [runFrom_append, establish_read _ emptyPolicy_wellFormed rfl]
    rfl
  · rw [runFrom_append, establish_read _ emptyPolicy_wellFormed rfl]
    simp only [runFrom, List.foldl_cons, List.foldl_nil]
    rw [step_provisioned (w := step untagged _ (.edit aclsPolicy)) rfl hwell rfl]
    rfl

end Ccctl.TunnelAdapters
