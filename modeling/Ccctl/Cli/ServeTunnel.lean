import Ccctl.Lib.Reach
import Ccctl.TunnelAdapters.Tailscale
/-
  Ccctl.Cli.ServeTunnel — `ccctl serve --tunnel` and its shutdown signal
  (`packages/cli/src/index.ts`: the `serve` action once the server is bound;
  `packages/server/src/shutdown-signal.ts`: `installShutdownSignalHandler`).

  Two programs share one tunnel. The action establishes and reports it; when that fails it
  releases the half-up tunnel (`releaseFailedEstablish`), closes the server
  (`closeFailedServe`) and rethrows. The signal handler closes the server and then asks what
  the daemon owns: nothing, the tunnel, or, while `establishing` is set, a releaser that waits
  for the establish to settle (`turn`) and asks again. A command or a request that is rejected
  was carried out (`lost`) or was not. What goes to the terminal is left out.

  `acts` lists what the handler did, `out` what the establish created and no release has
  completed for.
-/

namespace Ccctl.Cli

open Ccctl.Core
open Ccctl.Lib
open Ccctl.TunnelAdapters

/-! ## The process -/

/-- The `serve` action. -/
inductive Verb where
  /-- No tunnel was asked for. -/
  | serving
  | establishing (await : Await)
  | reporting
  | exposed
  | releasing (await : Await) (error : JsString)
  | closing (error : JsString)
  | failed (error : JsString)

/-- The signal handler. -/
inductive Handler where
  | armed
  | closing
  | waiting (code : Nat)
  | releasing (code : Nat) (await : Await)

inductive Act where
  | closeStarted
  | closeSettled (failed : Bool)
  | teardownStarted
  deriving DecidableEq

structure LogEvent where
  event : JsString
  detail : JsString

/-- What the establish created and is not released. -/
structure Leftover where
  mapping : Bool := false
  grant : Bool := false

structure Serve where
  tunnel : TailscaleTunnel
  verb : Verb
  handler : Handler := .armed
  exit : Option Nat := none
  trail : List LogEvent := []
  acts : List Act := []
  out : Leftover := {}

inductive Event where
  | signal
  /-- The close the handler started settles. -/
  | closed (error : Option JsString)
  /-- The waiting releaser goes on. -/
  | turn
  | budget
  | answer (answer : Answer)
  /-- Carried out, and rejected. -/
  | lost (error : JsString)
  | reported (error : Option JsString)
  /-- The close of `closeFailedServe` settles. -/
  | unwound (error : Option JsString)

def DEFAULT_TUNNEL_TEARDOWN_TIMEOUT_MS : Nat := 5000

namespace Serve

variable (s : Serve)

/-- `establishing` is not null. -/
def inFlight : Bool :=
  match s.verb with
  | .serving | .exposed | .failed _ => false
  | _ => true

/-- The establish was rejected. -/
def establishFailed : Bool :=
  match s.verb with
  | .releasing _ _ | .closing _ | .failed _ => true
  | _ => false

/-- `tunnel` is not null. -/
def owns : Bool :=
  match s.verb with
  | .exposed => true
  | _ => false

/-- The end of `releaseFailedEstablish`, one way or the other. -/
def closeFailedServe (error : JsString) : Serve := { s with verb := .closing error }

def releaseFailedEstablish (error : JsString) : Serve :=
  match s.tunnel.teardown with
  | .awaiting await => { s with verb := .releasing await error }
  | _ => s.closeFailedServe error

def exitWith (code : Nat) : Serve := { s with exit := some code }

def shutdownFailed (reason : JsString) : Serve :=
  { s with trail := s.trail ++ [⟨js "shutdown-failed", js "graceful shutdown failed, exiting anyway: " ++ reason⟩] }

def teardownFailed (reason : JsString) : Serve :=
  { s with trail := s.trail ++ [⟨js "tunnel-teardown-failed",
    js "tunnel teardown failed, exiting anyway — the tunnel, and any ACL grant it provisioned, may " ++
      js "still be in place; clear them with `ccctl tunnel <kind> --off`: " ++ reason⟩] }

/-- The handler's teardown goes on. -/
def released (code : Nat) : Progress → Serve
  | .awaiting await => { s with handler := .releasing code await }
  | .resolved => s.exitWith code
  | .rejected error => (s.teardownFailed error).exitWith 1

def startTeardown (code : Nat) : Serve :=
  let started : Serve := { s with acts := s.acts ++ [.teardownStarted] }
  started.released code s.tunnel.teardown

/-- After the close: `tunnel()` and what follows. -/
def afterClose (code : Nat) : Serve :=
  if s.inFlight then { s with handler := .waiting code }
  else if s.owns then s.startTeardown code
  else s.exitWith code

/-- The establish goes on. -/
def established : Progress → Serve
  | .awaiting await => { s with verb := .establishing await }
  | .resolved => { s with verb := .reporting }
  | .rejected error => s.releaseFailedEstablish error

/-- The inline release goes on; its own failure is only reported. -/
def unwinds (error : JsString) : Progress → Serve
  | .awaiting await => { s with verb := .releasing await error }
  | _ => s.closeFailedServe error

end Serve

/-- The answer carries its request through: for a revert, to its end. -/
def completes (tunnel : TailscaleTunnel) : Await → Answer → Bool
  | .serve _, .ran _ => true
  | .provisionSave _ _ _ _, .responded response => response.ok
  | .revertFetch provisioned, .responded response =>
    match fetchPolicy response with
    | .ok document => (revertedPolicy tunnel.createdGrantsKey provisioned document.policy).isNone
    | .error _ => false
  | .revertSave _ _, .responded response => response.ok
  | .off _, .ran _ => true
  | _, _ => false

/-- A step done, or not. -/
def Leftover.after (out : Leftover) (await : Await) (done : Bool) : Leftover :=
  match await with
  | .serve _ => { out with mapping := out.mapping || done }
  | .provisionSave _ _ _ _ => { out with grant := out.grant || done }
  | .revertFetch _ | .revertSave _ _ => { out with grant := out.grant && !done }
  | .off _ => { out with mapping := out.mapping && !done }
  | _ => out

/-- The step creates something. -/
def creates : Await → Bool
  | .serve _ => true
  | .provisionSave _ _ _ _ => true
  | _ => false

variable (host : JsonHost)

/-- The tunnel takes an answer; `done` is whether the step was carried through. -/
def Serve.took (s : Serve) (await : Await) (answer : Answer) (done : Bool) : Serve :=
  { s with tunnel := (s.tunnel.resume host await answer).1, out := s.out.after await done }

/-- An answer to the one step of the tunnel that is under way. -/
def Serve.answered (s : Serve) (answer : Answer) (done : Await → Bool) : Serve :=
  match s.handler with
  | .releasing code await => (s.took host await answer (done await)).released code (s.tunnel.resume host await answer).2
  | _ =>
    match s.verb with
    | .establishing await => (s.took host await answer (done await)).established (s.tunnel.resume host await answer).2
    | .releasing await error =>
      (s.took host await answer (done await)).unwinds error (s.tunnel.resume host await answer).2
    | _ => s

namespace Serve

variable (s : Serve)

def signalled : Serve :=
  match s.handler with
  | .armed => { s with handler := .closing, acts := s.acts ++ [.closeStarted] }
  | _ => s.exitWith 1

def closed (error : Option JsString) : Serve :=
  match s.handler with
  | .closing =>
    let settled : Serve := { s with acts := s.acts ++ [.closeSettled error.isSome] }
    match error with
    | none => settled.afterClose 0
    | some reason => (settled.shutdownFailed reason).afterClose 1
  | _ => s

/-- The waiting releaser: `await inFlight.catch(() => undefined); await tunnel?.teardown()`. -/
def turned : Serve :=
  match s.handler with
  | .waiting code => if s.owns then s.startTeardown code else if s.establishFailed then s.exitWith code else s
  | _ => s

def outran : Serve :=
  match s.handler with
  | .waiting _ | .releasing _ _ =>
    (s.teardownFailed (js "gave up after " ++ digitsText DEFAULT_TUNNEL_TEARDOWN_TIMEOUT_MS ++ js "ms")).exitWith 1
  | _ => s

def reported (error : Option JsString) : Serve :=
  match s.verb with
  | .reporting =>
    match error with
    | none => { s with verb := .exposed }
    | some error => s.releaseFailedEstablish error
  | _ => s

def unwound : Serve :=
  match s.verb with
  | .closing error => { s with verb := .failed error }
  | _ => s

end Serve

def react (s : Serve) : Event → Serve
  | .signal => s.signalled
  | .closed error => s.closed error
  | .turn => s.turned
  | .budget => s.outran
  | .answer answer => s.answered host answer fun await => completes s.tunnel await answer
  | .lost error => s.answered host (.failed error) creates
  | .reported error => s.reported error
  | .unwound _ => s.unwound

/-- `process.exit` ends the process. -/
def step (s : Serve) (e : Event) : Serve := if s.exit.isSome then s else react host s e

/-- The server bound and the establish begun. -/
def expose (provisioning : Option AclGrant) (endpoint : HostEndpoint) : Serve :=
  let bound : Serve := { tunnel := { provisioning }, verb := .serving }
  bound.established (TailscaleTunnel.establish endpoint)

/-- The server bound, with a tunnel or without. -/
def Start (s : Serve) : Prop :=
  ∃ provisioning, s = { tunnel := { provisioning }, verb := .serving } ∨ ∃ endpoint, s = expose provisioning endpoint

end Ccctl.Cli
