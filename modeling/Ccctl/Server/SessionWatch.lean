import Ccctl.Server.Moves
/-
  Ccctl.Server.SessionWatch — history of one session kept beside the server.

  `see c act c' history` writes down the act that took the session from `c` to `c'`; `SessionRun` is
  a run of the server so watched, from boot, under a condition on its events. `SessionRun.inv` is the rule
  every temporal result uses: a relation between a session and its history that each move keeps
  holds in every state reached.
-/

namespace Ccctl.Server

open Ccctl.Core Ccctl.Lib

variable {μ : Type}

def sessionWatch (id : SessionId) (see : Chan → Act → Chan → μ → μ) (s : ServerState) (e : Event) (history : μ) : μ :=
  see (chan s id) (observe s e id) (chan (step s e) id) history

/-- The server with the history of `id` beside it, from boot with the history `begin_`. -/
abbrev SessionRun (id : SessionId) (see : Chan → Act → Chan → μ → μ) (begin_ : μ)
    (ok : ServerState × μ → Event → Prop) :
    ServerState × μ → Prop :=
  Reach (watched step (sessionWatch id see)) (fun p => Booted p.1 ∧ p.2 = begin_) ok

/-- A session no worker has registered for since boot. -/
def Chan.Resting (c : Chan) : Prop := c.pending = false ∧ c.link = none ∧ c.question = none ∧ c.raised = []

namespace SessionRun

variable {id : SessionId} {see : Chan → Act → Chan → μ → μ} {begin_ : μ} {ok : ServerState × μ → Event → Prop}
  {p : ServerState × μ}

theorem reachable (h : SessionRun id see begin_ ok p) : Reachable p.1 :=
  h.machine (fun _ hp => hp.1) fun _ _ _ => trivial

/-- Before its id is minted, a session has no history. -/
theorem unminted (h : SessionRun id see begin_ ok p)
    (hquiet : ∀ act, act.Enabled .blank → act.births = false → see .blank act .blank begin_ = begin_)
    (hid : p.1.next ≤ id) : p.2 = begin_ := by
  induction h with
  | start hp => exact hp.2
  | @step p e hr _ ih =>
    have hg := (reachable hr).grounded
    have hle : p.1.next ≤ id := (next_le_step p.1 e).trans hid
    have hb := observe_unborn hid
    have he := observe_enabled hg.timers e id
    show see (chan p.1 id) (observe p.1 e id) (chan (step p.1 e) id) p.2 = begin_
    rw [chan_step hg.timers hg.ok e id]
    rw [hg.unminted id hle] at he ⊢
    rw [ih hle, blank_step he hb]
    exact hquiet _ he hb

theorem inv (h : SessionRun id see begin_ ok p) {I : Chan → μ → Prop}
    (hquiet : ∀ act, act.Enabled .blank → act.births = false → see .blank act .blank begin_ = begin_)
    (hstart : ∀ c, c.Resting → I c begin_)
    (hstep : ∀ p e, ok p e → ((observe p.1 e id).births = true → chan p.1 id = .blank ∧ p.2 = begin_) →
      (observe p.1 e id).Enabled (chan p.1 id) → (chan p.1 id).Ok true → I (chan p.1 id) p.2 →
      I ((chan p.1 id).step (observe p.1 e id))
        (see (chan p.1 id) (observe p.1 e id) ((chan p.1 id).step (observe p.1 e id)) p.2)) : I (chan p.1 id) p.2 := by
  induction h with
  | start hp =>
    obtain ⟨⟨image, himage⟩, hbegin⟩ := hp
    rw [himage, hbegin]
    exact hstart _ ⟨rfl, rfl, rfl, rfl⟩
  | @step p e hr hok ih =>
    have hg := (reachable hr).grounded
    have hmove := chan_step hg.timers hg.ok e id
    show I (chan (step p.1 e) id) (see (chan p.1 id) (observe p.1 e id) (chan (step p.1 e) id) p.2)
    rw [hmove]
    refine hstep p e hok (fun hb => ?_) (observe_enabled hg.timers e id) (hg.ok id).weaken ih
    exact ⟨hg.blank_of_births hb, unminted hr hquiet (Nat.le_of_eq (observe_births hb).1.symm)⟩

end SessionRun

end Ccctl.Server
