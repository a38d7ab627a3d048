import Ccctl.Cli.ServeTunnel
/-
  Ccctl.Cli.ShutdownOrder — what the signal handler does, and in which order.

  It starts one close, waits for it to settle, and starts at most one teardown after that
  (`Ordered`); what it has done stays done (`acts_step`), so a signal after the first finds it
  begun and exits with 1 (`signalled_again`).
-/

namespace Ccctl.Cli

open Ccctl.Core
open Ccctl.Lib
open Ccctl.TunnelAdapters

variable {host : JsonHost} {s : Serve}

/-- What a handler that is still at it has done. -/
def Handler.did (acts : List Act) : Handler → Prop
  | .armed => acts = []
  | .closing => acts = [.closeStarted]
  | .waiting _ => ∃ failed, acts = [.closeStarted, .closeSettled failed]
  | .releasing _ _ => ∃ failed, acts = [.closeStarted, .closeSettled failed, .teardownStarted]

/-- What was done is the start of a shutdown, and while the program lives, as much of it as its handler says. -/
structure Ordered (s : Serve) : Prop where
  live : s.exit = none → s.handler.did s.acts
  acts : ∃ failed, s.acts <+: [.closeStarted, .closeSettled failed, .teardownStarted]

theorem Handler.did.shape {acts : List Act} {handler : Handler} (h : handler.did acts) :
    ∃ failed, acts <+: [.closeStarted, .closeSettled failed, .teardownStarted] := by
  cases handler with
  | armed =>
    obtain rfl : acts = [] := h
    exact ⟨false, List.nil_prefix⟩
  | closing =>
    obtain rfl : acts = [.closeStarted] := h
    exact ⟨false, [.closeSettled false, .teardownStarted], rfl⟩
  | waiting code =>
    obtain ⟨failed, rfl⟩ := h
    exact ⟨failed, [.teardownStarted], rfl⟩
  | releasing code await =>
    obtain ⟨failed, rfl⟩ := h
    exact ⟨failed, List.prefix_rfl⟩

theorem Ordered.of_did (h : s.handler.did s.acts) : Ordered s := ⟨fun _ => h, h.shape⟩

/-- The handler's part of the process is as it was, or the process is on its way out. -/
structure Kept (s s' : Serve) : Prop where
  acts : s'.acts = s.acts
  handler : s'.exit = none → s'.handler = s.handler

theorem Ordered.kept {s' : Serve} (h : Ordered s) (hlive : s.exit = none) (hkept : Kept s s') : Ordered s' := by
  refine ⟨fun hexit => ?_, hkept.acts ▸ h.acts⟩
  rw [hkept.acts, hkept.handler hexit]
  exact h.live hlive

theorem kept_releaseFailed (error : JsString) : Kept s (s.releaseFailedEstablish error) := by
  unfold Serve.releaseFailedEstablish
  split <;> exact ⟨rfl, fun _ => rfl⟩

theorem kept_established (p : Progress) : Kept s (s.established p) := by
  cases p with
  | awaiting await => exact ⟨rfl, fun _ => rfl⟩
  | resolved => exact ⟨rfl, fun _ => rfl⟩
  | rejected error => exact kept_releaseFailed error

theorem kept_unwinds (error : JsString) (p : Progress) : Kept s (s.unwinds error p) := by
  cases p <;> exact ⟨rfl, fun _ => rfl⟩

theorem kept_exit (code : Nat) : Kept s (s.exitWith code) := ⟨rfl, fun hexit => by cases hexit⟩

theorem released_did {code : Nat} {p : Progress} {failed : Bool}
    (h : s.acts = [.closeStarted, .closeSettled failed, .teardownStarted]) : Ordered (s.released code p) := by
  have hacts : (s.released code p).acts = s.acts := by cases p <;> rfl
  refine ⟨fun hexit => ?_, failed, by rw [hacts, h]⟩
  cases p with
  | awaiting await => exact ⟨failed, h⟩
  | resolved => cases hexit
  | rejected error => cases hexit

theorem startTeardown_did {code : Nat} {failed : Bool} (h : s.acts = [.closeStarted, .closeSettled failed]) :
    Ordered (s.startTeardown code) := by
  apply released_did
  show s.acts ++ [.teardownStarted] = [.closeStarted, .closeSettled failed, .teardownStarted]
  rw [h]
  rfl

theorem exited_did {code : Nat} {failed : Bool} (h : s.acts = [.closeStarted, .closeSettled failed]) :
    Ordered (s.exitWith code) :=
  ⟨fun hexit => (by cases hexit), failed, [.teardownStarted], by show s.acts ++ _ = _; rw [h]; rfl⟩

theorem afterClose_did {code : Nat} {failed : Bool} (h : s.acts = [.closeStarted, .closeSettled failed]) :
    Ordered (s.afterClose code) := by
  unfold Serve.afterClose
  split
  · exact Ordered.of_did ⟨failed, h⟩
  · split
    · exact startTeardown_did h
    · exact exited_did h

/-- An answer goes to the release that waits for it, or to the verb, which does no part of a shutdown. -/
theorem answered_did (h : Ordered s) (hlive : s.exit = none) (answer : Answer) (done : Await → Bool) :
    Ordered (s.answered host answer done) := by
  have hdid := h.live hlive
  unfold Serve.answered
  split
  · rename_i code await hhandler
    rw [hhandler] at hdid
    obtain ⟨failed, hacts⟩ := hdid
    exact released_did hacts
  · split
    · rename_i await hverb
      have hkept := kept_established (s := s.took host await answer (done await)) (s.tunnel.resume host await answer).2
      exact h.kept hlive ⟨hkept.acts, hkept.handler⟩
    · rename_i await error hverb
      have hkept := kept_unwinds (s := s.took host await answer (done await)) error
        (s.tunnel.resume host await answer).2
      exact h.kept hlive ⟨hkept.acts, hkept.handler⟩
    · exact h

/-- The first signal begins the close; another one exits. -/
theorem signalled_did (h : Ordered s) (hlive : s.exit = none) : Ordered s.signalled := by
  have hdid := h.live hlive
  unfold Serve.signalled
  split
  · rename_i hhandler
    rw [hhandler] at hdid
    have hacts : s.acts = [] := hdid
    apply Ordered.of_did
    show s.acts ++ [.closeStarted] = [.closeStarted]
    rw [hacts]
    rfl
  · exact h.kept hlive (kept_exit 1)

theorem closed_did (h : Ordered s) (hlive : s.exit = none) (error : Option JsString) : Ordered (s.closed error) := by
  have hdid := h.live hlive
  unfold Serve.closed
  split
  · rename_i hhandler
    rw [hhandler] at hdid
    have hacts : s.acts = [.closeStarted] := hdid
    have hsettled : s.acts ++ [.closeSettled error.isSome] = [.closeStarted, .closeSettled error.isSome] := by
      rw [hacts]
      rfl
    cases error with
    | none => exact afterClose_did hsettled
    | some reason => exact afterClose_did hsettled
  · exact h

theorem turned_did (h : Ordered s) (hlive : s.exit = none) : Ordered s.turned := by
  have hdid := h.live hlive
  unfold Serve.turned
  split
  · rename_i code hhandler
    rw [hhandler] at hdid
    obtain ⟨failed, hacts⟩ := hdid
    split
    · exact startTeardown_did hacts
    · split
      · exact exited_did hacts
      · exact h
  · exact h

theorem kept_outran : Kept s s.outran := by
  unfold Serve.outran
  split
  · exact ⟨rfl, fun hexit => by cases hexit⟩
  · exact ⟨rfl, fun hexit => by cases hexit⟩
  · exact ⟨rfl, fun _ => rfl⟩

theorem kept_reported (error : Option JsString) : Kept s (s.reported error) := by
  unfold Serve.reported
  split
  · cases error with
    | none => exact ⟨rfl, fun _ => rfl⟩
    | some error => exact kept_releaseFailed error
  · exact ⟨rfl, fun _ => rfl⟩

theorem kept_unwound : Kept s s.unwound := by
  unfold Serve.unwound
  split <;> exact ⟨rfl, fun _ => rfl⟩

theorem react_did (h : Ordered s) (hlive : s.exit = none) (e : Event) : Ordered (react host s e) := by
  cases e with
  | signal => exact signalled_did h hlive
  | closed error => exact closed_did h hlive error
  | turn => exact turned_did h hlive
  | budget => exact h.kept hlive kept_outran
  | answer answer => exact answered_did h hlive answer _
  | lost error => exact answered_did h hlive _ _
  | reported error => exact h.kept hlive (kept_reported error)
  | unwound error => exact h.kept hlive kept_unwound

theorem step_live (hlive : s.exit = none) (e : Event) : step host s e = react host s e := if_neg (by simp [hlive])

theorem step_dead (hdead : s.exit ≠ none) (e : Event) : step host s e = s :=
  if_pos (by simpa [Option.isSome_iff_ne_none])

theorem Ordered.step (h : Ordered s) (e : Event) : Ordered (step host s e) := by
  by_cases hlive : s.exit = none
  · rw [step_live hlive]
    exact react_did h hlive e
  · rw [step_dead hlive]
    exact h

/-- Over every run. -/
theorem ordered {ok : Serve → Event → Prop} (h : Reach (step host) Start ok s) : Ordered s := by
  refine h.inv (fun s hs => ?_) fun s e hs _ => hs.step e
  obtain ⟨provisioning, rfl | ⟨endpoint, rfl⟩⟩ := hs
  · exact Ordered.of_did rfl
  · have hbound : Ordered { tunnel := { provisioning }, verb := .serving } := Ordered.of_did rfl
    exact hbound.kept rfl (kept_established _)

/-- The handler has started its close, once. -/
theorem closes_once (h : Ordered s) (hbegun : .closeStarted ∈ s.acts) : s.acts.count .closeStarted = 1 := by
  obtain ⟨failed, hacts⟩ := h.acts
  have hle := hacts.sublist.count_le .closeStarted
  have hpos := List.count_pos_iff.mpr hbegun
  have htotal : [Act.closeStarted, .closeSettled failed, .teardownStarted].count .closeStarted = 1 := by
    cases failed <;> rfl
  omega

theorem acts_released (code : Nat) (p : Progress) : (s.released code p).acts = s.acts := by cases p <;> rfl

theorem acts_startTeardown (code : Nat) : (s.startTeardown code).acts = s.acts ++ [.teardownStarted] :=
  acts_released code _

theorem acts_afterClose (code : Nat) : s.acts <+: (s.afterClose code).acts := by
  unfold Serve.afterClose
  split
  · exact List.prefix_rfl
  · split
    · rw [acts_startTeardown]
      exact List.prefix_append _ _
    · exact List.prefix_rfl

theorem acts_answered (answer : Answer) (done : Await → Bool) : (s.answered host answer done).acts = s.acts := by
  unfold Serve.answered
  split
  · exact acts_released _ _
  · split
    · exact (kept_established _).acts
    · exact (kept_unwinds _ _).acts
    · rfl

/-- What the handler has done stays done. -/
theorem acts_step (e : Event) : s.acts <+: (step host s e).acts := by
  by_cases hlive : s.exit = none
  · rw [step_live hlive]
    cases e with
    | signal =>
      show s.acts <+: s.signalled.acts
      unfold Serve.signalled
      split
      · exact List.prefix_append _ _
      · exact List.prefix_rfl
    | closed error =>
      show s.acts <+: (s.closed error).acts
      unfold Serve.closed
      split
      · cases error with
        | none =>
          have hclose := acts_afterClose (s := { s with acts := s.acts ++ [.closeSettled false] }) 0
          exact (List.prefix_append _ _).trans hclose
        | some reason =>
          have hclose := acts_afterClose
            (s := Serve.shutdownFailed { s with acts := s.acts ++ [.closeSettled true] } reason) 1
          exact (List.prefix_append s.acts _).trans hclose
      · exact List.prefix_rfl
    | turn =>
      show s.acts <+: s.turned.acts
      unfold Serve.turned
      split
      · split
        · rw [acts_startTeardown]
          exact List.prefix_append _ _
        · split <;> exact List.prefix_rfl
      · exact List.prefix_rfl
    | budget => exact kept_outran.acts ▸ List.prefix_rfl
    | answer answer => exact (acts_answered answer _).symm ▸ List.prefix_rfl
    | lost error => exact (acts_answered _ _).symm ▸ List.prefix_rfl
    | reported error => exact (kept_reported error).acts ▸ List.prefix_rfl
    | unwound error => exact kept_unwound.acts ▸ List.prefix_rfl
  · rw [step_dead hlive]

/-- A handler that was signalled has started its close. -/
theorem Handler.did.begun {acts : List Act} {handler : Handler} (h : handler.did acts) (hplace : handler ≠ .armed) :
    .closeStarted ∈ acts := by
  cases handler with
  | armed => exact absurd rfl hplace
  | closing =>
    obtain rfl : acts = [.closeStarted] := h
    exact List.mem_cons_self
  | waiting code =>
    obtain ⟨failed, rfl⟩ := h
    exact List.mem_cons_self
  | releasing code await =>
    obtain ⟨failed, rfl⟩ := h
    exact List.mem_cons_self

theorem signalled_begun (h : Ordered s) (hlive : s.exit = none) : .closeStarted ∈ (step host s .signal).acts := by
  rw [step_live hlive]
  show .closeStarted ∈ s.signalled.acts
  unfold Serve.signalled
  split
  · exact List.mem_append_right _ List.mem_cons_self
  · rename_i hplace
    exact (h.live hlive).begun hplace

/-- A signal after the first. -/
theorem signalled_again (h : Ordered s) (hlive : s.exit = none) (hbegun : .closeStarted ∈ s.acts) :
    (step host s .signal).exit = some 1 := by
  have hdid := h.live hlive
  rw [step_live hlive]
  show s.signalled.exit = some 1
  unfold Serve.signalled
  split
  · rename_i hhandler
    rw [hhandler] at hdid
    rw [show s.acts = [] from hdid] at hbegun
    cases hbegun
  · rfl

end Ccctl.Cli
