import Ccctl.Lib.Reach
import Ccctl.Lib.Timers
import Ccctl.Server.State
/-
  Ccctl.Server.OwnedPty — closing the pty that a launch owns
  (`packages/server/src/session-launcher-pty.ts`: the handle that `launch` returns).

  `close()` latches `closed`, asks the child to go, arms the escalation and awaits the exit. The
  events are the calls, the child's exit, the clock, the timer's callback and the continuation of
  the await; a `kill` may throw, and the exit may be observed before it returns. A timer's
  callback runs when the timer is due and no continuation is waiting to run.

  `Phase` is every state a run can be in. Whatever the order of events the child is asked once and
  forced once, after the whole window and only while it is up; the call that took the latch
  resolves after the exit, and every later call resolves where it stands (`close_teardown`), so
  over a child that is still running too (`second_close_early`).
-/

namespace Ccctl.Server

open Ccctl.Lib

def DEFAULT_CHILD_KILL_ESCALATION_MS : Nat := 2000

/-- `kill()` and `kill(FORCED_CHILD_SIGNAL)`. -/
inductive ChildSignal where
  | polite
  | forced
  deriving DecidableEq

/-- What a `kill` does before it is over. -/
structure KillReply where
  exits : Bool
  throws : Bool
  deriving DecidableEq

/-- A signal, when it was sent and what the child's liveness read then. -/
structure Sent where
  signal : ChildSignal
  sentAt : Nat
  reading : SurfaceLiveness
  deriving DecidableEq

/-- A `close()` that resolved, and what the child's liveness read then. -/
structure Resolved where
  call : Nat
  reading : SurfaceLiveness
  deriving DecidableEq

/-- The handle's variables, the host's timers and clock, and what was done. A waiter, a
    continuation and a timer are each named by the `close()` call they belong to. -/
structure OwnedPty where
  killEscalationMs : Nat
  exited : Bool
  exitWaiters : List Nat
  closed : Bool
  continuations : List Nat
  timers : List (Timer Nat)
  clock : Nat
  calls : Nat
  signals : List Sent
  resolved : List Resolved
  deriving DecidableEq

def OwnedPty.launch (killEscalationMs : Option Nat) (clock : Nat) : OwnedPty where
  killEscalationMs := killEscalationMs.getD DEFAULT_CHILD_KILL_ESCALATION_MS
  exited := false
  exitWaiters := []
  closed := false
  continuations := []
  timers := []
  clock := clock
  calls := 0
  signals := []
  resolved := []

namespace OwnedPty

def liveness (s : OwnedPty) : SurfaceLiveness := if s.exited then .exited else .aliveServerOwned

/-- The exit listener: each waiter's promise resolves, and its await has a continuation to run. -/
def onExit (s : OwnedPty) : OwnedPty :=
  { s with exited := true, exitWaiters := [], continuations := s.continuations ++ s.exitWaiters }

/-- The handle after a `pty.kill`, and whether it threw. -/
def kill (s : OwnedPty) (signal : ChildSignal) (reply : KillReply) : OwnedPty × Bool :=
  let sent := { s with signals := s.signals ++ [⟨signal, s.clock, s.liveness⟩] }
  (if reply.exits then sent.onExit else sent, reply.throws)

/-- A `kill` in a `try` whose `catch` is empty. -/
def tryKill (s : OwnedPty) (signal : ChildSignal) (reply : KillReply) : OwnedPty := (s.kill signal reply).1

def resolve (s : OwnedPty) (call : Nat) : OwnedPty := { s with resolved := s.resolved ++ [⟨call, s.liveness⟩] }

def close (s : OwnedPty) (reply : KillReply) : OwnedPty :=
  let call := s.calls
  let s := { s with calls := s.calls + 1 }
  if s.closed then s.resolve call
  else
    let s := { s with closed := true }
    if s.exited then s.resolve call
    else
      let s := { s with exitWaiters := s.exitWaiters ++ [call] }.tryKill .polite reply
      { s with timers := s.timers ++ [⟨s.clock + timeoutDelay s.killEscalationMs, call⟩] }

/-- The rest of a `close()` whose `reaped` resolved. -/
def afterReaped (s : OwnedPty) : OwnedPty :=
  match s.continuations with
  | [] => s
  | call :: rest =>
    { s with continuations := rest, timers := s.timers.filter fun timer => timer.callback ≠ call }.resolve call

/-- The escalation's callback. -/
def escalate (s : OwnedPty) (call : Nat) (reply : KillReply) : OwnedPty :=
  { s with timers := s.timers.filter fun timer => timer.callback ≠ call }.tryKill .forced reply

inductive Event where
  | close (reply : KillReply)
  | exit
  | afterReaped
  | elapse (ms : Nat)
  | escalate (call : Nat) (reply : KillReply)
  deriving DecidableEq

def step (s : OwnedPty) : Event → OwnedPty
  | .close reply => s.close reply
  | .exit => s.onExit
  | .afterReaped => s.afterReaped
  | .elapse ms => { s with clock := s.clock + ms }
  | .escalate call reply =>
    if s.continuations = [] ∧ ∃ timer ∈ s.timers, timer.callback = call ∧ timer.due ≤ s.clock then s.escalate call reply
    else s

abbrev Reachable : OwnedPty → Prop := Reach step (fun s => ∃ killEscalationMs clock, s = launch killEscalationMs clock) anyEvent

/-- What a close does to the child, and when its calls resolve. -/
structure Teardown (s : OwnedPty) : Prop where
  polite : (s.signals.filter fun sent => sent.signal = .polite).length ≤ 1
  forced : (s.signals.filter fun sent => sent.signal = .forced).length ≤ 1
  grace : ∀ sent ∈ s.signals, sent.signal = .forced →
    ∃ asked ∈ s.signals, asked.signal = .polite ∧ asked.sentAt + timeoutDelay s.killEscalationMs ≤ sent.sentAt
  live : ∀ sent ∈ s.signals, sent.reading = .aliveServerOwned
  first : ∀ done ∈ s.resolved, done.call = 0 → done.reading = .exited
  later : 0 < s.calls → ∀ reply,
    step s (.close reply) = { s with calls := s.calls + 1, resolved := s.resolved ++ [⟨s.calls, s.liveness⟩] }

/-! ## The phases of a run -/

def asked (t : Nat) : Sent := ⟨.polite, t, .aliveServerOwned⟩

def forced (t : Nat) : Sent := ⟨.forced, t, .aliveServerOwned⟩

/-- The latch, the exit, the waiters, the continuations, the timers and the signals, together. -/
inductive Phase (window : Nat) : Bool → Bool → List Nat → List Nat → List (Timer Nat) → List Sent → Prop where
  | launched (exited : Bool) : Phase window false exited [] [] [] []
  | foundExited : Phase window true true [] [] [] []
  | waiting (t : Nat) : Phase window true false [0] [] [⟨t + window, 0⟩] [asked t]
  | waitingForced (t t' : Nat) (h : t + window ≤ t') : Phase window true false [0] [] [] [asked t, forced t']
  | reaping (t : Nat) : Phase window true true [] [0] [⟨t + window, 0⟩] [asked t]
  | reapingForced (t t' : Nat) (h : t + window ≤ t') : Phase window true true [] [0] [] [asked t, forced t']
  | reaped (t : Nat) : Phase window true true [] [] [] [asked t]
  | reapedForced (t t' : Nat) (h : t + window ≤ t') : Phase window true true [] [] [] [asked t, forced t']

def InPhase (s : OwnedPty) : Prop :=
  Phase (timeoutDelay s.killEscalationMs) s.closed s.exited s.exitWaiters s.continuations s.timers s.signals

structure Kept (s : OwnedPty) : Prop where
  phase : s.InPhase
  latch : s.closed = true ↔ 0 < s.calls
  first : ∀ done ∈ s.resolved, done.call = 0 → done.reading = .exited

theorem close_closed {s : OwnedPty} (h : s.closed = true) (reply : KillReply) :
    s.close reply = { s with calls := s.calls + 1, resolved := s.resolved ++ [⟨s.calls, s.liveness⟩] } := by
  rw [close, if_pos h]
  rfl

theorem close_exited {s : OwnedPty} (h : s.closed = false) (hexited : s.exited = true) (reply : KillReply) :
    s.close reply =
      { s with calls := s.calls + 1, closed := true, resolved := s.resolved ++ [⟨s.calls, .exited⟩] } := by
  simp [close, h, hexited, resolve, liveness]

theorem close_asks {s : OwnedPty} (h : s.InPhase) (hclosed : s.closed = false) (hexited : s.exited = false)
    (reply : KillReply) :
    s.close reply =
      { s with
        calls := s.calls + 1
        closed := true
        exited := reply.exits
        exitWaiters := if reply.exits then [] else [s.calls]
        continuations := if reply.exits then [s.calls] else []
        timers := [⟨s.clock + timeoutDelay s.killEscalationMs, s.calls⟩]
        signals := [asked s.clock] } := by
  obtain ⟨killEscalationMs, exited, exitWaiters, closed, continuations, timers, clock, calls, signals, resolved⟩ := s
  obtain rfl : closed = false := hclosed
  obtain rfl : exited = false := hexited
  cases h
  cases hexits : reply.exits <;> simp [close, tryKill, kill, onExit, liveness, asked, hexits]

theorem phase_close {s : OwnedPty} (h : Kept s) (reply : KillReply) : (s.close reply).InPhase := by
  cases hclosed : s.closed with
  | true =>
    rw [close_closed hclosed]
    exact h.phase
  | false =>
    have hcalls : s.calls = 0 := Nat.eq_zero_of_not_pos fun hpos => by simpa [hclosed] using h.latch.mpr hpos
    cases hexited : s.exited with
    | true =>
      have hphase := h.phase
      rw [close_exited hclosed hexited]
      obtain ⟨killEscalationMs, exited, exitWaiters, closed, continuations, timers, clock, calls, signals, resolved⟩ := s
      obtain rfl : closed = false := hclosed
      obtain rfl : exited = true := hexited
      cases hphase
      exact .foundExited
    | false =>
      rw [close_asks h.phase hclosed hexited, InPhase, hcalls]
      cases reply.exits with
      | true => exact .reaping s.clock
      | false => exact .waiting s.clock

theorem phase_onExit {s : OwnedPty} (h : s.InPhase) : s.onExit.InPhase := by
  obtain ⟨killEscalationMs, exited, exitWaiters, closed, continuations, timers, clock, calls, signals, resolved⟩ := s
  dsimp only [InPhase] at h
  cases h with
  | launched => exact .launched true
  | foundExited => exact .foundExited
  | waiting t => exact .reaping t
  | waitingForced t t' h => exact .reapingForced t t' h
  | reaping t => exact .reaping t
  | reapingForced t t' h => exact .reapingForced t t' h
  | reaped t => exact .reaped t
  | reapedForced t t' h => exact .reapedForced t t' h

theorem phase_afterReaped {s : OwnedPty} (h : s.InPhase) : s.afterReaped.InPhase := by
  obtain ⟨killEscalationMs, exited, exitWaiters, closed, continuations, timers, clock, calls, signals, resolved⟩ := s
  dsimp only [InPhase] at h
  cases h with
  | launched exited => exact .launched exited
  | foundExited => exact .foundExited
  | waiting t => exact .waiting t
  | waitingForced t t' h => exact .waitingForced t t' h
  | reaping t => exact .reaped t
  | reapingForced t t' h => exact .reapedForced t t' h
  | reaped t => exact .reaped t
  | reapedForced t t' h => exact .reapedForced t t' h

/-- A timer that is due is the escalation of a child that is still up, or its await is about to
    clear it. -/
theorem phase_escalate {s : OwnedPty} (h : s.InPhase) (call : Nat) (reply : KillReply) :
    (step s (.escalate call reply)).InPhase := by
  rw [step]
  split
  · rename_i hdue
    obtain ⟨hidle, timer, htimer, rfl, hdue⟩ := hdue
    obtain ⟨killEscalationMs, exited, exitWaiters, closed, continuations, timers, clock, calls, signals, resolved⟩ := s
    dsimp only [InPhase] at h
    cases h with
    | waiting t =>
      obtain rfl := List.mem_singleton.mp htimer
      cases hexits : reply.exits with
      | true =>
        simpa [InPhase, escalate, tryKill, kill, onExit, liveness, forced, hexits] using Phase.reapingForced t clock hdue
      | false =>
        simpa [InPhase, escalate, tryKill, kill, liveness, forced, hexits] using Phase.waitingForced t clock hdue
    | reaping t => cases hidle
    | launched | foundExited | waitingForced | reapingForced | reaped | reapedForced => cases htimer
  · exact h

theorem phase_step {s : OwnedPty} (h : Kept s) (e : Event) : (step s e).InPhase := by
  cases e with
  | close reply => exact phase_close h reply
  | exit => exact phase_onExit h.phase
  | afterReaped => exact phase_afterReaped h.phase
  | elapse ms => exact h.phase
  | escalate call reply => exact phase_escalate h.phase call reply

/-- An event other than a call changes no call, and resolves at most the one that was reaped. -/
theorem step_calls {s : OwnedPty} (h : s.InPhase) (e : Event) (he : ∀ reply, e ≠ .close reply) :
    (step s e).closed = s.closed ∧ (step s e).calls = s.calls ∧
      ((step s e).resolved = s.resolved ∨ (step s e).resolved = s.resolved ++ [⟨0, .exited⟩]) := by
  cases e with
  | close reply => exact absurd rfl (he reply)
  | exit => exact ⟨rfl, rfl, .inl rfl⟩
  | elapse ms => exact ⟨rfl, rfl, .inl rfl⟩
  | escalate call reply =>
    rw [step]
    split
    · cases hexits : reply.exits <;> simp [escalate, tryKill, kill, onExit, hexits]
    · exact ⟨rfl, rfl, .inl rfl⟩
  | afterReaped =>
    obtain ⟨killEscalationMs, exited, exitWaiters, closed, continuations, timers, clock, calls, signals, resolved⟩ := s
    dsimp only [InPhase] at h
    cases h with
    | reaping | reapingForced => exact ⟨rfl, rfl, .inr rfl⟩
    | launched | foundExited | waiting | waitingForced | reaped | reapedForced => exact ⟨rfl, rfl, .inl rfl⟩

theorem kept_close {s : OwnedPty} (h : Kept s) (reply : KillReply) : Kept (s.close reply) := by
  cases hclosed : s.closed with
  | true =>
    have hcalls := h.latch.mp hclosed
    refine ⟨phase_close h reply, ?_, ?_⟩
    · rw [close_closed hclosed]
      exact iff_of_true hclosed (Nat.succ_pos _)
    · rw [close_closed hclosed]
      refine List.forall_mem_append.mpr ⟨h.first, List.forall_mem_singleton.mpr fun hfirst => ?_⟩
      exact absurd hfirst hcalls.ne'
  | false =>
    cases hexited : s.exited with
    | true =>
      refine ⟨phase_close h reply, ?_, ?_⟩
      · rw [close_exited hclosed hexited]
        exact iff_of_true rfl (Nat.succ_pos _)
      · rw [close_exited hclosed hexited]
        exact List.forall_mem_append.mpr ⟨h.first, List.forall_mem_singleton.mpr fun _ => rfl⟩
    | false =>
      refine ⟨phase_close h reply, ?_, ?_⟩
      · rw [close_asks h.phase hclosed hexited]
        exact iff_of_true rfl (Nat.succ_pos _)
      · rw [close_asks h.phase hclosed hexited]
        exact h.first

theorem kept_step {s : OwnedPty} (h : Kept s) (e : Event) : Kept (step s e) := by
  by_cases he : ∃ reply, e = .close reply
  · obtain ⟨reply, rfl⟩ := he
    exact kept_close h reply
  · obtain ⟨hclosed, hcalls, hresolved⟩ := step_calls h.phase e fun reply heq => he ⟨reply, heq⟩
    refine ⟨phase_step h e, by rw [hclosed, hcalls]; exact h.latch, ?_⟩
    rcases hresolved with hresolved | hresolved
    · rw [hresolved]
      exact h.first
    · rw [hresolved]
      exact List.forall_mem_append.mpr ⟨h.first, List.forall_mem_singleton.mpr fun _ => rfl⟩

theorem kept_launch (killEscalationMs : Option Nat) (clock : Nat) : Kept (launch killEscalationMs clock) where
  phase := .launched false
  latch := by simp [launch]
  first := by simp [launch]

theorem Reachable.kept {s : OwnedPty} (h : Reachable s) : Kept s := by
  refine h.inv ?_ fun _ e hkept _ => kept_step hkept e
  intro _ hex
  obtain ⟨killEscalationMs, clock, rfl⟩ := hex
  exact kept_launch killEscalationMs clock

/-- Each phase has asked at most once, and forced at most once and after the window. -/
theorem Phase.signals {window : Nat} {closed exited : Bool} {exitWaiters continuations : List Nat}
    {timers : List (Timer Nat)} {signals : List Sent}
    (h : Phase window closed exited exitWaiters continuations timers signals) :
    signals = [] ∨ (∃ t, signals = [asked t]) ∨ ∃ t t', t + window ≤ t' ∧ signals = [asked t, forced t'] := by
  cases h with
  | launched | foundExited => exact .inl rfl
  | waiting t | reaping t | reaped t => exact .inr (.inl ⟨t, rfl⟩)
  | waitingForced t t' h | reapingForced t t' h | reapedForced t t' h => exact .inr (.inr ⟨t, t', h, rfl⟩)

/-- In every state of every run: one polite signal, one forced signal after the whole window, none
    after the exit, and a first call that resolves after the exit; a later call resolves at once. -/
theorem close_teardown {s : OwnedPty} (h : Reachable s) : Teardown s := by
  have hkept := h.kept
  have hlater : 0 < s.calls → ∀ reply,
      step s (.close reply) = { s with calls := s.calls + 1, resolved := s.resolved ++ [⟨s.calls, s.liveness⟩] } :=
    fun hcalls reply => close_closed (hkept.latch.mpr hcalls) reply
  rcases hkept.phase.signals with hsent | ⟨t, hsent⟩ | ⟨t, t', hwindow, hsent⟩
  · exact ⟨by simp [hsent], by simp [hsent], by simp [hsent], by simp [hsent], hkept.first, hlater⟩
  · exact ⟨by simp [hsent, asked], by simp [hsent, asked], by simp [hsent, asked], by simp [hsent, asked],
      hkept.first, hlater⟩
  · exact ⟨by simp [hsent, asked, forced], by simp [hsent, asked, forced], by simp [hsent, asked, forced, hwindow],
      by simp [hsent, asked, forced], hkept.first, hlater⟩

/-- A child that ignores the polite signal. -/
def stubborn : List Event :=
  [.close ⟨false, true⟩, .elapse 2000, .escalate 0 ⟨false, false⟩, .exit, .afterReaped, .close ⟨false, false⟩]

theorem close_teardown_stubborn : Teardown (runFrom step (launch none 0) stubborn) :=
  close_teardown (Reach.run (.start ⟨none, 0, rfl⟩))

/-- A second `close()` over a child that has not gone yet. -/
theorem second_close_early :
    ¬ ∀ s, Reachable s → ∀ done ∈ s.resolved, done.reading = .exited := by
  intro h
  have hrun : Reachable (runFrom step (launch none 0) [.close ⟨false, false⟩, .close ⟨false, false⟩]) :=
    Reach.run (.start ⟨none, 0, rfl⟩)
  have hearly := h _ hrun ⟨1, .aliveServerOwned⟩ (by decide)
  cases hearly

end OwnedPty

end Ccctl.Server
