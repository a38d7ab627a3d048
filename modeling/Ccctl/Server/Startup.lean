import Ccctl.Core.Loopback
/-
  Ccctl.Server.Startup — where the server binds
  (`packages/server/src/startup.ts`: `resolveBindHost`; `packages/server/src/index.ts`:
  `startServer` up to its `listen`).

  The host that is listened on is the configured one or the default, and it is one of the
  loopback hosts: every other string is refused with a reason that names it (`bind_loopback`).
-/

namespace Ccctl.Server

open Ccctl.Core

def DEFAULT_HOST : JsString := js "127.0.0.1"

def WILDCARD_BIND_HOST : JsString := js "0.0.0.0"

/-- The reason a host is refused with. -/
def bindRefusal (host : JsString) : JsString :=
  let label := if host = [] then js "the empty host" else host
  js "ccctl: refusing to bind " ++ label ++ js " — the local server binds loopback only (default " ++ DEFAULT_HOST ++
    js "; any 127.0.0.0/8 or ::1) and is reached off-box solely through an explicit tunnel. " ++ WILDCARD_BIND_HOST ++
    js ", ::, and any LAN or public address are refused."

/-- The host to bind, or the reason thrown; an absent host takes the default. -/
def resolveBindHost (host : Option JsString) : Except JsString JsString :=
  let host := host.getD DEFAULT_HOST
  if !isLoopbackHost host then .error (bindRefusal host) else .ok host

/-- What the start of a server reads of its configuration; a number that is not finite is `none`. -/
structure ListenConfig where
  host : Option JsString
  port : Nat
  maxSessions : Option (Option Rat)
  sessionIdleThresholdMs : Option (Option Rat)

/-- `Number.isInteger(value) && value > 0`. -/
def isPositiveInteger (value : Option Rat) : Bool := value.any fun q => q.den = 1 ∧ 0 < q.num

def maxSessionsRefusal (got : JsString) : JsString :=
  js "ccctl: maxSessions must be a positive integer (got `" ++ got ++ js "`) — " ++
    js "it is the ceiling on live sessions, and a cap that is not a counting number cannot bound anything"

def idleThresholdRefusal (got : JsString) : JsString :=
  js "ccctl: sessionIdleThresholdMs must be a positive integer (got `" ++ got ++ js "`) — " ++
    js "it is the ms a session may sit idle before the nudge, and a non-positive/NaN value would fire it immediately, not after the lull"

/-- What `startServer` hands to `listen`, or the reason it rejects with. -/
def listenEndpoint (numberText : Option Rat → JsString) (config : ListenConfig) : Except JsString HostEndpoint := do
  let host ← resolveBindHost config.host
  if let some got := config.maxSessions.filter fun value => !isPositiveInteger value then
    throw (maxSessionsRefusal (numberText got))
  if let some got := config.sessionIdleThresholdMs.filter fun value => !isPositiveInteger value then
    throw (idleThresholdRefusal (numberText got))
  return ⟨host, config.port⟩

theorem resolveBindHost_ok {host : Option JsString} {bound : JsString} :
    resolveBindHost host = .ok bound ↔ bound = host.getD DEFAULT_HOST ∧ Loopback bound := by
  unfold resolveBindHost
  dsimp only
  cases hloop : isLoopbackHost (host.getD DEFAULT_HOST) with
  | false =>
    refine iff_of_false (by simp) ?_
    intro hboth
    obtain ⟨rfl, hloopback⟩ := hboth
    rw [(loopback_iff _).mpr hloopback] at hloop
    cases hloop
  | true =>
    simp only [Bool.not_true, Bool.false_eq_true, if_false, Except.ok.injEq]
    constructor
    · intro heq
      subst heq
      exact ⟨rfl, (loopback_iff _).mp hloop⟩
    · intro hand
      obtain ⟨rfl, -⟩ := hand
      rfl

theorem listenEndpoint_ok {numberText : Option Rat → JsString} {config : ListenConfig} {endpoint : HostEndpoint}
    (h : listenEndpoint numberText config = .ok endpoint) : resolveBindHost config.host = .ok endpoint.host := by
  unfold listenEndpoint at h
  cases hbind : resolveBindHost config.host with
  | error reason =>
    rw [hbind] at h
    cases h
  | ok host =>
    rw [hbind] at h
    rcases hcap : config.maxSessions.filter (fun value => !isPositiveInteger value) with _ | got
    · rcases hidle : config.sessionIdleThresholdMs.filter (fun value => !isPositiveInteger value) with _ | got
      · simp only [hcap, hidle] at h
        cases h
        rfl
      · simp only [hcap, hidle] at h
        cases h
    · simp only [hcap] at h
      cases h

/-- The guard accepts the loopback hosts and no other string, hands back the host it was given, and
    whatever the configuration nothing else is listened on. -/
theorem bind_loopback :
    (∀ host, isLoopbackHost host = true ↔ Loopback host) ∧
    (∀ host bound, resolveBindHost (some host) = .ok bound ↔ bound = host ∧ Loopback host) ∧
    (∀ host, resolveBindHost (some host) = .error (bindRefusal host) ↔ ¬ Loopback host) ∧
    (∀ numberText config endpoint, listenEndpoint numberText config = .ok endpoint → Loopback endpoint.host) := by
  refine ⟨loopback_iff, fun host bound => ?_, fun host => ?_, fun numberText config endpoint h => ?_⟩
  · rw [resolveBindHost_ok, Option.getD_some]
    constructor
    · intro hboth
      obtain ⟨rfl, hloop⟩ := hboth
      exact ⟨rfl, hloop⟩
    · intro hand
      obtain ⟨rfl, hloop⟩ := hand
      exact ⟨rfl, hloop⟩
  · rw [← loopback_iff, resolveBindHost, Option.getD_some]
    cases isLoopbackHost host <;> simp
  · exact (resolveBindHost_ok.mp (listenEndpoint_ok h)).2

example : resolveBindHost (some (js "127.01.0.1")) = .error (bindRefusal (js "127.01.0.1")) := rfl

end Ccctl.Server
