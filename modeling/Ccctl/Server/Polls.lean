import Ccctl.Lib.Reach
import Ccctl.Server.WorkPoll
/-
  Ccctl.Server.Polls — the work queue delivers in order, once, and to whoever waits.

  `Held` is what holds between the waiters and the rest: a waiter that is not settled is in its
  environment's set and has its timer armed, and no other is; a response is written to once or not
  at all. `backlog` is what an environment's polls were given and what is still queued: no turn
  but an enqueue changes it. `Starved`: where work is queued, nobody live is waiting.
-/

namespace Ccctl.Server

open Ccctl.Core Ccctl.Lib

namespace BridgeState

/-- What a poll was answered. -/
def answersTo (answered : List PollAnswer) (res : Res) : List PollAnswer := answered.filter (·.res = res)

/-- What an environment's polls were given, in order. -/
def delivered (answered : List PollAnswer) (id : EnvironmentId) : List WorkItem :=
  answered.filterMap fun a => if a.environmentId = id then a.item else none

/-- The environment's queue; no environment, no work. -/
def queueOf (s : BridgeState) (id : EnvironmentId) : List WorkItem := ((s.environments.get id).map (·.queue)).getD []

/-- Delivered and queued. -/
def backlog (s : BridgeState) (id : EnvironmentId) : List WorkItem := delivered s.answered id ++ s.queueOf id

/-- The timer of a waiter that is not settled. -/
def holder (polls : OrdMap Res PollWaiter) (res : Res) : Option TimerId :=
  (polls.get res).bind fun waiter => if waiter.settled then none else some waiter.timer

/-- What every turn of the bridge preserves. -/
structure Held (s : BridgeState) : Prop where
  armed : Armed (holder s.polls) s.timers s.next
  minted : ∀ res waiter, s.polls.get res = some waiter → res < s.next
  founded : ∀ id env, s.environments.get id = some env → id < s.next
  /-- A waiter is in its environment's set exactly while it is not settled. -/
  waiting : ∀ id env, s.environments.get id = some env → ∀ res, res ∈ env.waiters ↔
    ∃ waiter, s.polls.get res = some waiter ∧ waiter.environmentId = id ∧ waiter.settled = false
  housed : ∀ res waiter, s.polls.get res = some waiter → waiter.settled = false →
    ∃ env, s.environments.get waiter.environmentId = some env
  ended : ∀ res waiter, s.polls.get res = some waiter → waiter.writableEnded = true → waiter.settled = true
  /-- Settled without an answer is settled by the request's `close`. -/
  dropped : ∀ res waiter, s.polls.get res = some waiter → waiter.settled = true → waiter.writableEnded = false →
    waiter.disconnected = true
  /-- A response is written once, and ended by that. -/
  answers : ∀ res waiter, s.polls.get res = some waiter →
    (answersTo s.answered res).length = if waiter.writableEnded then 1 else 0
  /-- A poll answered at once was never held. -/
  stray : ∀ res, s.polls.get res = none → (answersTo s.answered res).length ≤ 1
  unborn : ∀ res, s.next ≤ res → answersTo s.answered res = []

/-- Nobody live waits for the environment's work. -/
def Starved (s : BridgeState) (id : EnvironmentId) : Prop :=
  ∀ env, s.environments.get id = some env → env.queue ≠ [] →
    ∀ res ∈ env.waiters, ∃ waiter, s.polls.get res = some waiter ∧ waiter.destroyed = true

/-- Kept by a turn that gives the environment no new waiter while work is queued, and brings no client back. -/
theorem Starved.later {s s' : BridgeState} {id : EnvironmentId} (h : Starved s id)
    (henv : ∀ env', s'.environments.get id = some env' → env'.queue ≠ [] →
      ∃ env, s.environments.get id = some env ∧ env.queue ≠ [] ∧ env'.waiters ⊆ env.waiters)
    (hpoll : ∀ res waiter, s.polls.get res = some waiter → waiter.destroyed = true →
      ∃ waiter', s'.polls.get res = some waiter' ∧ waiter'.destroyed = true) : Starved s' id := by
  intro env' hget hqueue res hres
  obtain ⟨env, hold, hne, hsub⟩ := henv env' hget hqueue
  obtain ⟨waiter, hw, hd⟩ := h env hold hne res (hsub hres)
  exact hpoll res waiter hw hd

theorem answersTo_append (answered said : List PollAnswer) (res : Res) :
    answersTo (answered ++ said) res = answersTo answered res ++ answersTo said res := List.filter_append ..

theorem delivered_append (answered said : List PollAnswer) (id : EnvironmentId) :
    delivered (answered ++ said) id = delivered answered id ++ delivered said id := List.filterMap_append

theorem withoutWaiter_get (environments : OrdMap EnvironmentId EnvironmentRecord) (environmentId : EnvironmentId)
    (res : Res) (id : EnvironmentId) :
    (withoutWaiter environments environmentId res).get id = (environments.get id).map fun env =>
      if id = environmentId then { env with waiters := env.waiters.filter (· ≠ res) } else env :=
  OrdMap.get_mapVals _ _ _

/-! ## A waiter let go -/

/-- A waiter settled, answered with `said`. -/
def released (s : BridgeState) (res : Res) (waiter : PollWaiter) (ended : Bool) (said : List PollAnswer) :
    BridgeState :=
  { s with
    polls := s.polls.set res { waiter with settled := true, writableEnded := ended }
    environments := withoutWaiter s.environments waiter.environmentId res
    timers := cleared s.timers (some waiter.timer)
    answered := s.answered ++ said }

/-- An answer, to a waiter that is not settled. -/
theorem finish_eq {s : BridgeState} {res : Res} {waiter : PollWaiter} (hw : s.polls.get res = some waiter)
    (hopen : waiter.settled = false) (item : Option WorkItem) :
    finish s res item = released s res waiter true [⟨waiter.environmentId, res, item⟩] := by
  simp [finish, hw, hopen, released]

/-- The request's `close` lets the waiter go and writes nothing. -/
theorem requestClosed_eq {s : BridgeState} {res : Res} {waiter : PollWaiter} (hw : s.polls.get res = some waiter)
    (hopen : waiter.settled = false) :
    requestClosed s res = released s res waiter waiter.writableEnded [] := by
  simp [requestClosed, hw, hopen, released]

/-- A poll that is answered lets a waiter go, or finds none to let go. -/
theorem finish_cases (s : BridgeState) (res : Res) (item : Option WorkItem) :
    finish s res item = s ∨ ∃ waiter, s.polls.get res = some waiter ∧ waiter.settled = false ∧
      finish s res item = released s res waiter true [⟨waiter.environmentId, res, item⟩] := by
  cases hw : s.polls.get res with
  | none => exact Or.inl (by simp [finish, hw])
  | some waiter =>
    cases hopen : waiter.settled with
    | true => exact Or.inl (by simp [finish, hw, hopen])
    | false => exact Or.inr ⟨waiter, rfl, hopen, finish_eq hw hopen item⟩

/-- Likewise of the request's `close`. -/
theorem requestClosed_cases (s : BridgeState) (res : Res) :
    requestClosed s res = s ∨ ∃ waiter, s.polls.get res = some waiter ∧ waiter.settled = false ∧
      requestClosed s res = released s res waiter waiter.writableEnded [] := by
  cases hw : s.polls.get res with
  | none => exact Or.inl (by simp [requestClosed, hw])
  | some waiter =>
    cases hopen : waiter.settled with
    | true => exact Or.inl (by simp [requestClosed, hw, hopen])
    | false => exact Or.inr ⟨waiter, rfl, hopen, requestClosed_eq hw hopen⟩

/-- A waiter that is not settled has a response that is not ended. -/
theorem Held.unended {s : BridgeState} (h : Held s) {res : Res} {waiter : PollWaiter}
    (hw : s.polls.get res = some waiter) (hopen : waiter.settled = false) : waiter.writableEnded = false := by
  cases he : waiter.writableEnded with
  | false => rfl
  | true =>
    rw [h.ended res waiter hw he] at hopen
    cases hopen

/-- Letting a waiter go keeps the invariant, when it was answered once or its client is gone: the waiter leaves the set,
    its timer the table, and no other poll's answers are touched. -/
theorem Held.released {s : BridgeState} (h : Held s) {res : Res} {waiter : PollWaiter}
    (hw : s.polls.get res = some waiter) (hopen : waiter.settled = false) {ended : Bool} {said : List PollAnswer}
    (hsaid : ∀ a ∈ said, a.res = res) (hlen : said.length = if ended then 1 else 0)
    (hgone : ended = false → waiter.disconnected = true) : Held (released s res waiter ended said) := by
  have hended := h.unended hw hopen
  have hown : holder s.polls res = some waiter.timer := by simp [holder, hw, hopen]
  have hself : answersTo said res = said := List.filter_eq_self.mpr fun a ha => by simpa using hsaid a ha
  have hother : ∀ res', res' ≠ res → answersTo said res' = [] := by
    intro res' hne
    refine List.filter_eq_nil_iff.mpr fun a ha heq => hne ?_
    rw [← of_decide_eq_true heq, hsaid a ha]
  -- a poll of the state after is the one let go, or one of before
  have hpoll : ∀ {res' : Res} {waiter' : PollWaiter},
      (s.polls.set res { waiter with settled := true, writableEnded := ended }).get res' = some waiter' →
      (res' = res ∧ waiter' = { waiter with settled := true, writableEnded := ended }) ∨
        (res' ≠ res ∧ s.polls.get res' = some waiter') := by
    intro res' waiter' hget
    rw [OrdMap.get_set] at hget
    split at hget
    · cases hget
      exact Or.inl ⟨‹_›, rfl⟩
    · exact Or.inr ⟨‹_›, hget⟩
  refine ⟨?_, ?_, ?_, ?_, ?_, ?_, ?_, ?_, ?_, ?_⟩
  · -- the timer goes with its owner
    have hnew : holder (s.polls.set res { waiter with settled := true, writableEnded := ended }) =
        Function.update (holder s.polls) res none := by
      funext res'
      by_cases hr : res' = res
      · subst hr
        simp [holder]
      · rw [Function.update_of_ne hr]
        simp [holder, OrdMap.get_set_ne _ _ hr]
    have hclear := h.armed.clear res
    rw [hown, ← hnew] at hclear
    exact hclear
  · intro res' waiter' hget
    rcases hpoll hget with ⟨rfl, -⟩ | ⟨-, hold⟩
    · exact h.minted _ _ hw
    · exact h.minted _ _ hold
  · intro id env henv
    rw [BridgeState.released, withoutWaiter_get] at henv
    obtain ⟨env₀, henv₀, -⟩ := Option.map_eq_some_iff.mp henv
    exact h.founded id env₀ henv₀
  · intro id env henv res'
    rw [BridgeState.released, withoutWaiter_get] at henv
    obtain ⟨env₀, henv₀, rfl⟩ := Option.map_eq_some_iff.mp henv
    have hmem := h.waiting id env₀ henv₀ res'
    constructor
    · -- who is still in the set is not the one let go
      intro hin
      have hboth : res' ∈ env₀.waiters ∧ (id = waiter.environmentId → res' ≠ res) := by
        by_cases hid : id = waiter.environmentId
        · rw [if_pos hid] at hin
          exact ⟨(List.mem_filter.mp hin).1, fun _ => by simpa using (List.mem_filter.mp hin).2⟩
        · rw [if_neg hid] at hin
          exact ⟨hin, fun he => absurd he hid⟩
      obtain ⟨w, hget, hid, hs⟩ := hmem.mp hboth.1
      have hne : res' ≠ res := by
        intro heq
        subst heq
        rw [hw] at hget
        cases hget
        exact hboth.2 hid.symm rfl
      exact ⟨w, by rw [BridgeState.released, OrdMap.get_set_ne _ _ hne, hget], hid, hs⟩
    · -- who is not settled is not the one let go either
      intro hex
      obtain ⟨w, hget, hid, hs⟩ := hex
      rcases hpoll hget with ⟨-, rfl⟩ | ⟨hne, hold⟩
      · cases hs
      · have hin := hmem.mpr ⟨w, hold, hid, hs⟩
        by_cases hid' : id = waiter.environmentId
        · rw [if_pos hid']
          exact List.mem_filter.mpr ⟨hin, by simpa using hne⟩
        · rw [if_neg hid']
          exact hin
  · intro res' waiter' hget hs
    rcases hpoll hget with ⟨-, rfl⟩ | ⟨-, hold⟩
    · cases hs
    · obtain ⟨env, henv⟩ := h.housed _ _ hold hs
      rw [BridgeState.released, withoutWaiter_get, henv]
      exact ⟨_, rfl⟩
  · intro res' waiter' hget he
    rcases hpoll hget with ⟨-, rfl⟩ | ⟨-, hold⟩
    · rfl
    · exact h.ended _ _ hold he
  · intro res' waiter' hget hs he
    rcases hpoll hget with ⟨-, rfl⟩ | ⟨-, hold⟩
    · exact hgone he
    · exact h.dropped _ _ hold hs he
  · intro res' waiter' hget
    rw [BridgeState.released, answersTo_append, List.length_append]
    rcases hpoll hget with ⟨rfl, rfl⟩ | ⟨hne, hold⟩
    · -- its response was not ended, so nothing had been written to it
      rw [h.answers _ _ hw, hself, hlen, hended]
      simp
    · rw [hother _ hne, h.answers _ _ hold]
      rfl
  · intro res' hget
    have hne : res' ≠ res ∧ s.polls.get res' = none := OrdMap.get_set_of_none hget
    rw [BridgeState.released, answersTo_append, hother _ hne.1, List.append_nil]
    exact h.stray res' hne.2
  · intro res' hle
    have hne : res' ≠ res := by
      intro heq
      subst heq
      exact absurd (h.minted _ _ hw) (Nat.not_lt.mpr hle)
    rw [BridgeState.released, answersTo_append, hother _ hne, List.append_nil]
    exact h.unborn res' hle

/-- An answer settles the waiter, or finds it settled. -/
theorem Held.finish {s : BridgeState} (h : Held s) (res : Res) (item : Option WorkItem) : Held (finish s res item) := by
  rcases finish_cases s res item with heq | ⟨waiter, hw, hopen, heq⟩
  · rwa [heq]
  · rw [heq]
    refine h.released hw hopen ?_ rfl (fun he => by cases he)
    intro a ha
    rw [List.mem_singleton.mp ha]

/-- The `close` comes after the client went. -/
theorem Held.requestClosed {s : BridgeState} (h : Held s) {res : Res} (hgone : s.gone res = true) :
    Held (requestClosed s res) := by
  rcases requestClosed_cases s res with heq | ⟨waiter, hw, hopen, heq⟩
  · rwa [heq]
  · rw [heq, h.unended hw hopen]
    refine h.released hw hopen (fun a ha => by cases ha) rfl fun _ => ?_
    simpa [gone, hw] using hgone

/-! ## The queue -/

/-- Work queued or taken from the queue, and nobody told yet. -/
theorem Held.requeue {s : BridgeState} (h : Held s) {id : EnvironmentId} {env : EnvironmentRecord}
    (henv : s.environments.get id = some env) (queue : List WorkItem) :
    Held { s with environments := s.environments.set id { env with queue } } := by
  have hget : ∀ {id' : EnvironmentId} {env' : EnvironmentRecord},
      (s.environments.set id { env with queue }).get id' = some env' →
        ∃ env₀, s.environments.get id' = some env₀ ∧ env₀.waiters = env'.waiters := by
    intro id' env' hg
    rw [OrdMap.get_set] at hg
    split at hg
    · rename_i heq
      cases hg
      exact ⟨env, heq ▸ henv, rfl⟩
    · exact ⟨env', hg, rfl⟩
  refine { h with founded := ?_, waiting := ?_, housed := ?_ }
  · intro id' env' hg
    obtain ⟨env₀, h₀, -⟩ := hget hg
    exact h.founded id' env₀ h₀
  · intro id' env' hg res
    obtain ⟨env₀, h₀, hsame⟩ := hget hg
    rw [← hsame]
    exact h.waiting id' env₀ h₀ res
  · intro res waiter hw hs
    obtain ⟨env', henv'⟩ := h.housed res waiter hw hs
    by_cases heq : waiter.environmentId = id
    · exact ⟨_, by rw [heq]; exact OrdMap.get_set_self _ _ _⟩
    · exact ⟨env', by rw [← henv']; exact OrdMap.get_set_ne _ _ heq⟩

/-- What a delivery is: the head of the queue, to a waiter that is live. -/
structure Delivers (s : BridgeState) (res : Res) (waiter : PollWaiter) (env : EnvironmentRecord) (item : WorkItem)
    (queue : List WorkItem) : Prop where
  poll : s.polls.get res = some waiter
  unsettled : waiter.settled = false
  live : waiter.destroyed = false
  environment : s.environments.get waiter.environmentId = some env
  head : env.queue = item :: queue
  after : deliverQueued s res =
    (finish { s with environments := s.environments.set waiter.environmentId { env with queue } } res (some item), true)

/-- Who is passed over: with work queued, only a waiter that is settled or whose response is closed. -/
structure PassedOver (s : BridgeState) (res : Res) : Prop where
  same : deliverQueued s res = (s, false)
  dead : ∀ waiter env, s.polls.get res = some waiter → waiter.settled = false → waiter.writableEnded = false →
    s.environments.get waiter.environmentId = some env → env.queue ≠ [] → waiter.destroyed = true

/-- One turn of the loop: the head goes to this waiter, or it is passed over. -/
theorem deliverQueued_cases (s : BridgeState) (res : Res) :
    PassedOver s res ∨ ∃ waiter env item queue, Delivers s res waiter env item queue := by
  cases hw : s.polls.get res with
  | none =>
    left
    refine ⟨by simp [deliverQueued, hw], ?_⟩
    intro waiter env hget
    rw [hw] at hget
    cases hget
  | some waiter =>
    have hmine : ∀ {waiter' : PollWaiter}, s.polls.get res = some waiter' → waiter' = waiter :=
      fun hget => Option.some.inj (hget.symm.trans hw)
    by_cases hopen : (waiter.settled || isResponseClosed waiter) = true
    · left
      refine ⟨by simp [deliverQueued, hw, hopen], ?_⟩
      intro waiter' env hget hs he _ _
      rw [hmine hget] at hs he ⊢
      simpa [isResponseClosed, hs, he] using hopen
    · have hclosed : waiter.settled = false ∧ waiter.writableEnded = false ∧ waiter.destroyed = false := by
        simpa [isResponseClosed] using hopen
      cases henv : s.environments.get waiter.environmentId with
      | none =>
        left
        refine ⟨by simp [deliverQueued, hw, hopen, henv], ?_⟩
        intro waiter' env hget _ _ henv' _
        rw [hmine hget, henv] at henv'
        cases henv'
      | some env =>
        cases hq : env.queue with
        | nil =>
          left
          refine ⟨by simp [deliverQueued, hw, hopen, henv, hq], ?_⟩
          intro waiter' env' hget _ _ henv' hne
          rw [hmine hget, henv] at henv'
          cases henv'
          exact absurd hq hne
        | cons item queue =>
          -- unsettled, open, and something to give
          right
          exact ⟨waiter, env, item, queue, hw, hclosed.1, hclosed.2.2, henv, hq, by
            simp [deliverQueued, hw, hopen, henv, hq]⟩

/-- The loop gives the head of the queue to the first waiter that is live, if any is. -/
theorem flushWaiters_cases (s : BridgeState) (waiters : List Res) :
    (flushWaiters s waiters = s ∧ ∀ res ∈ waiters, PassedOver s res) ∨
      ∃ res ∈ waiters, ∃ waiter env item queue, Delivers s res waiter env item queue ∧
        flushWaiters s waiters = (deliverQueued s res).1 := by
  induction waiters with
  | nil => exact Or.inl ⟨rfl, by simp⟩
  | cons res rest ih =>
    rcases deliverQueued_cases s res with hpass | ⟨waiter, env, item, queue, hd⟩
    · have hnext : flushWaiters s (res :: rest) = flushWaiters s rest := by simp [flushWaiters, hpass.same]
      rcases ih with ⟨hsame, hall⟩ | ⟨res', hmem, hex⟩
      · left
        refine ⟨hnext.trans hsame, ?_⟩
        intro res' hres'
        rcases List.mem_cons.mp hres' with rfl | hres'
        · exact hpass
        · exact hall res' hres'
      · right
        rw [hnext]
        exact ⟨res', List.mem_cons_of_mem _ hmem, hex⟩
    · right
      exact ⟨res, List.mem_cons_self, waiter, env, item, queue, hd, by simp [flushWaiters, hd.after]⟩

/-- A delivery is a change of the queue and an answer. -/
theorem Held.delivers {s : BridgeState} (h : Held s) {res : Res} {waiter : PollWaiter} {env : EnvironmentRecord}
    {item : WorkItem} {queue : List WorkItem} (hd : Delivers s res waiter env item queue) :
    Held (deliverQueued s res).1 := by
  rw [hd.after]
  exact (h.requeue hd.environment queue).finish res (some item)

/-- A flush delivers once or not at all. -/
theorem Held.flushWaiters {s : BridgeState} (h : Held s) (waiters : List Res) : Held (flushWaiters s waiters) := by
  rcases flushWaiters_cases s waiters with ⟨hsame, -⟩ | ⟨res, -, waiter, env, item, queue, hd, heq⟩
  · rw [hsame]
    exact h
  · rw [heq]
    exact h.delivers hd

theorem Held.flushWaiter {s : BridgeState} (h : Held s) (id : EnvironmentId) : Held (flushWaiter s id) := by
  unfold BridgeState.flushWaiter
  split
  · exact h
  · split
    · exact h
    · exact h.flushWaiters _

/-- Queued first, then offered to who waits. -/
theorem Held.enqueueWork {s : BridgeState} (h : Held s) (id : EnvironmentId) (item : WorkItem) :
    Held (enqueueWork s id item).1 := by
  unfold BridgeState.enqueueWork
  split
  · exact h
  · rename_i env henv
    exact (h.requeue henv _).flushWaiter id

/-- A larger counter: what was minted stays minted. -/
theorem Held.mint {s : BridgeState} (h : Held s) {next : Nat} (hle : s.next ≤ next) : Held { s with next } :=
  { h with
    armed := h.armed.mono hle
    minted := fun res waiter hw => Nat.lt_of_lt_of_le (h.minted res waiter hw) hle
    founded := fun id env henv => Nat.lt_of_lt_of_le (h.founded id env henv) hle
    unborn := fun res hres => h.unborn res (hle.trans hres) }

theorem Held.enqueueSessionWork {s : BridgeState} (h : Held s) (sessionId : SessionId) (secret : JsString) :
    Held (enqueueSessionWork s sessionId secret) := by
  unfold BridgeState.enqueueSessionWork
  split
  · exact h
  · exact (h.mint (Nat.le_succ _)).enqueueWork _ _

/-! ## Polls, timers, clients -/

/-- A new environment has an id nobody waits under. -/
theorem Held.register {s : BridgeState} (h : Held s) : Held (handleEnvironmentRegister s) := by
  have hmint := h.mint (Nat.le_succ s.next)
  refine { hmint with founded := ?_, waiting := ?_, housed := ?_ }
  · intro id env hget
    rw [handleEnvironmentRegister, OrdMap.get_set] at hget
    split at hget
    · rename_i heq
      rw [heq]
      exact Nat.lt_succ_self _
    · exact hmint.founded id env hget
  · intro id env hget res
    rw [handleEnvironmentRegister, OrdMap.get_set] at hget
    split at hget
    · rename_i heq
      cases hget
      refine iff_of_false (by simp) ?_
      intro hex
      obtain ⟨waiter, hw, hid, hs⟩ := hex
      obtain ⟨env, henv⟩ := h.housed res waiter hw hs
      rw [hid, heq] at henv
      exact absurd (h.founded _ _ henv) (Nat.lt_irrefl _)
    · exact h.waiting id env hget res
  · intro res waiter hw hs
    obtain ⟨env, henv⟩ := h.housed res waiter hw hs
    have hne : waiter.environmentId ≠ s.next := Nat.ne_of_lt (h.founded _ _ henv)
    exact ⟨env, by rw [handleEnvironmentRegister, OrdMap.get_set_ne _ _ hne, henv]⟩

/-- A poll answered at once is answered once. -/
theorem Held.answer {s : BridgeState} (h : Held s) (id : EnvironmentId) (item : WorkItem) :
    Held { s with next := s.next + 1, answered := s.answered ++ [⟨id, s.next, some item⟩] } := by
  have hmint := h.mint (Nat.le_succ s.next)
  have hother : ∀ res, res ≠ s.next → answersTo [⟨id, s.next, some item⟩] res = [] := by
    intro res hne
    simp [answersTo, Ne.symm hne]
  refine { hmint with answers := ?_, stray := ?_, unborn := ?_ }
  · intro res waiter hw
    have hne : res ≠ s.next := Nat.ne_of_lt (h.minted res waiter hw)
    rw [answersTo_append, hother res hne, List.append_nil]
    exact h.answers res waiter hw
  · intro res hnone
    rw [answersTo_append, List.length_append]
    by_cases hres : res = s.next
    · subst hres
      rw [h.unborn _ (Nat.le_refl _)]
      simp [answersTo]
    · rw [hother res hres]
      exact h.stray res hnone
  · intro res hle
    have hne : res ≠ s.next := Nat.ne_of_gt hle
    rw [answersTo_append, hother res hne, List.append_nil]
    exact h.unborn res (Nat.le_of_succ_le hle)

/-- A poll held, with its timer. -/
theorem Held.hold {s : BridgeState} (h : Held s) {id : EnvironmentId} {env : EnvironmentRecord}
    (henv : s.environments.get id = some env) (due : Nat) :
    Held { s with
      next := s.next + 2
      timers := s.timers.set (s.next + 1) ⟨due, s.next⟩
      polls := s.polls.set s.next ⟨id, s.next + 1, false, false, false, false⟩
      environments := s.environments.set id { env with waiters := env.waiters ++ [s.next] } } := by
  -- the response is new, so no waiter has it and nothing was written to it
  have hnone : s.polls.get s.next = none := by
    cases hw : s.polls.get s.next with
    | none => rfl
    | some waiter => exact absurd (h.minted _ _ hw) (Nat.lt_irrefl _)
  have hpoll : ∀ {res : Res} {waiter : PollWaiter},
      (s.polls.set s.next ⟨id, s.next + 1, false, false, false, false⟩).get res = some waiter →
      (res = s.next ∧ waiter = ⟨id, s.next + 1, false, false, false, false⟩) ∨ s.polls.get res = some waiter := by
    intro res waiter hget
    rw [OrdMap.get_set] at hget
    split at hget
    · cases hget
      exact Or.inl ⟨‹_›, rfl⟩
    · exact Or.inr hget
  have hkept : ∀ {res : Res} {waiter : PollWaiter}, s.polls.get res = some waiter →
      (s.polls.set s.next ⟨id, s.next + 1, false, false, false, false⟩).get res = some waiter := by
    intro res waiter hget
    have hne : res ≠ s.next := Nat.ne_of_lt (h.minted res waiter hget)
    rw [OrdMap.get_set_ne _ _ hne, hget]
  refine ⟨?_, ?_, ?_, ?_, ?_, ?_, ?_, ?_, ?_, ?_⟩
  · have hnew : holder (s.polls.set s.next ⟨id, s.next + 1, false, false, false, false⟩) =
        Function.update (holder s.polls) s.next (some (s.next + 1)) := by
      funext res
      by_cases hr : res = s.next
      · subst hr
        simp [holder]
      · rw [Function.update_of_ne hr]
        simp [holder, OrdMap.get_set_ne _ _ hr]
    rw [hnew]
    exact (h.armed.mono (Nat.le_succ _)).arm (by simp [holder, hnone]) due
  · intro res waiter hget
    rcases hpoll hget with ⟨rfl, -⟩ | hold
    · show s.next < s.next + 2
      omega
    · have hlt := h.minted res waiter hold
      show res < s.next + 2
      exact Nat.lt_add_right 2 hlt
  · intro id' env' hget
    show id' < s.next + 2
    rw [OrdMap.get_set] at hget
    split at hget
    · rename_i heq
      exact Nat.lt_add_right 2 (h.founded id' env (heq ▸ henv))
    · exact Nat.lt_add_right 2 (h.founded id' env' hget)
  · intro id' env' hget res
    rw [OrdMap.get_set] at hget
    split at hget
    · -- the environment polled: its old waiters, and the new one
      rename_i heq
      cases hget
      subst heq
      rw [List.mem_append, List.mem_singleton, h.waiting id' env henv res]
      constructor
      · intro hor
        rcases hor with ⟨waiter, hw, hid, hs⟩ | rfl
        · exact ⟨waiter, hkept hw, hid, hs⟩
        · exact ⟨_, OrdMap.get_set_self _ _ _, rfl, rfl⟩
      · intro hex
        obtain ⟨waiter, hw, hid, hs⟩ := hex
        rcases hpoll hw with ⟨rfl, -⟩ | hold
        · exact Or.inr rfl
        · exact Or.inl ⟨waiter, hold, hid, hs⟩
    · -- another environment: the new waiter is not its own
      rename_i hne
      rw [h.waiting id' env' hget res]
      constructor
      · intro hex
        obtain ⟨waiter, hw, hid, hs⟩ := hex
        exact ⟨waiter, hkept hw, hid, hs⟩
      · intro hex
        obtain ⟨waiter, hw, hid, hs⟩ := hex
        rcases hpoll hw with ⟨-, rfl⟩ | hold
        · exact absurd hid.symm hne
        · exact ⟨waiter, hold, hid, hs⟩
  · intro res waiter hget hs
    rcases hpoll hget with ⟨-, rfl⟩ | hold
    · exact ⟨_, OrdMap.get_set_self _ _ _⟩
    · obtain ⟨env', henv'⟩ := h.housed res waiter hold hs
      by_cases heq : waiter.environmentId = id
      · exact ⟨_, by rw [heq]; exact OrdMap.get_set_self _ _ _⟩
      · exact ⟨env', by rw [← henv']; exact OrdMap.get_set_ne _ _ heq⟩
  · intro res waiter hget he
    rcases hpoll hget with ⟨-, rfl⟩ | hold
    · cases he
    · exact h.ended res waiter hold he
  · intro res waiter hget hs he
    rcases hpoll hget with ⟨-, rfl⟩ | hold
    · cases hs
    · exact h.dropped res waiter hold hs he
  · intro res waiter hget
    rcases hpoll hget with ⟨rfl, rfl⟩ | hold
    · rw [h.unborn s.next (Nat.le_refl _)]
      rfl
    · exact h.answers res waiter hold
  · intro res hget
    exact h.stray res (OrdMap.get_set_of_none hget).2
  · intro res hle
    have hle' : s.next + 2 ≤ res := hle
    exact h.unborn res (by omega)

/-- A poll is answered from the queue, or held where the queue is empty. -/
theorem Held.workPoll {s : BridgeState} (h : Held s) (id : EnvironmentId) : Held (handleWorkPoll s id).1 := by
  unfold handleWorkPoll
  cases henv : s.environments.get id with
  | none => exact h
  | some env =>
    cases hq : env.queue with
    | cons item queue =>
      simp only [hq]
      exact (h.requeue henv queue).answer id item
    | nil =>
      simp only [hq]
      rw [← hq]
      exact h.hold henv _

/-- Nothing that the invariant reads but who is gone. -/
theorem Held.touch {s : BridgeState} (h : Held s) (res : Res) {f : PollWaiter → PollWaiter}
    (hf : ∀ waiter, (f waiter).environmentId = waiter.environmentId ∧ (f waiter).timer = waiter.timer ∧
      (f waiter).settled = waiter.settled ∧ (f waiter).writableEnded = waiter.writableEnded ∧
      (waiter.disconnected = true → (f waiter).disconnected = true)) : Held (s.touch res f) := by
  have hpoll : ∀ {res' : Res} {waiter' : PollWaiter}, (s.touch res f).polls.get res' = some waiter' →
      ∃ waiter, s.polls.get res' = some waiter ∧ waiter'.environmentId = waiter.environmentId ∧
        waiter'.settled = waiter.settled ∧ waiter'.writableEnded = waiter.writableEnded ∧
        (waiter.disconnected = true → waiter'.disconnected = true) := by
    intro res' waiter' hget
    rw [BridgeState.touch, OrdMap.get_mapVals] at hget
    obtain ⟨waiter, hw, rfl⟩ := Option.map_eq_some_iff.mp hget
    obtain ⟨hid, -, hs, he, hd⟩ := hf waiter
    refine ⟨waiter, hw, ?_⟩
    split
    · exact ⟨hid, hs, he, hd⟩
    · exact ⟨rfl, rfl, rfl, fun hd => hd⟩
  have hsame : holder (s.touch res f).polls = holder s.polls := by
    funext res'
    unfold holder
    rw [BridgeState.touch, OrdMap.get_mapVals]
    cases s.polls.get res' with
    | none => rfl
    | some waiter =>
      obtain ⟨-, ht, hs, -, -⟩ := hf waiter
      rw [Option.map_some, Option.bind_some, Option.bind_some]
      split <;> simp [*]
  refine ⟨?_, ?_, h.founded, ?_, ?_, ?_, ?_, ?_, ?_, h.unborn⟩
  · rw [hsame]
    exact h.armed
  · intro res' waiter' hget
    obtain ⟨waiter, hw, -⟩ := hpoll hget
    exact h.minted res' waiter hw
  · intro id env henv res'
    rw [h.waiting id env henv res']
    constructor
    · intro hex
      obtain ⟨waiter, hw, hid, hs⟩ := hex
      have hget : (s.touch res f).polls.get res' = some (if res' = res then f waiter else waiter) := by
        rw [BridgeState.touch, OrdMap.get_mapVals, hw, Option.map_some]
      obtain ⟨waiter₀, hw₀, hid₀, hs₀, -⟩ := hpoll hget
      rw [hw] at hw₀
      cases hw₀
      exact ⟨_, hget, hid₀.trans hid, hs₀.trans hs⟩
    · intro hex
      obtain ⟨waiter', hw', hid, hs⟩ := hex
      obtain ⟨waiter, hw, hid', hs', -⟩ := hpoll hw'
      exact ⟨waiter, hw, hid'.symm.trans hid, hs'.symm.trans hs⟩
  · intro res' waiter' hget hs
    obtain ⟨waiter, hw, hid, hs', -⟩ := hpoll hget
    rw [hid]
    exact h.housed res' waiter hw (hs'.symm.trans hs)
  · intro res' waiter' hget he
    obtain ⟨waiter, hw, -, hs', he', -⟩ := hpoll hget
    rw [hs']
    exact h.ended res' waiter hw (he'.symm.trans he)
  · intro res' waiter' hget hs he
    obtain ⟨waiter, hw, -, hs', he', hd⟩ := hpoll hget
    exact hd (h.dropped res' waiter hw (hs'.symm.trans hs) (he'.symm.trans he))
  · intro res' waiter' hget
    obtain ⟨waiter, hw, -, -, he', -⟩ := hpoll hget
    rw [he']
    exact h.answers res' waiter hw
  · intro res' hget
    rw [BridgeState.touch, OrdMap.get_mapVals, Option.map_eq_none_iff] at hget
    exact h.stray res' hget

/-- A timer that fires settles the waiter that armed it. -/
theorem lapse_eq {s : BridgeState} (h : Held s) {t : TimerId} {timer : Timer Res} (ht : s.timers.get t = some timer)
    (hdue : timer.due ≤ s.now) : lapse s t = finish s timer.callback none := by
  obtain ⟨due, res⟩ := timer
  have hown := h.armed.owner_of_get ht
  obtain ⟨waiter, hw, hif⟩ := Option.bind_eq_some_iff.mp hown
  have hopen : waiter.settled = false ∧ waiter.timer = t := by
    cases hs : waiter.settled with
    | true => simp [hs] at hif
    | false => exact ⟨rfl, by simpa [hs] using hif⟩
  have htwice : cleared (s.timers.erase t) (some waiter.timer) = cleared s.timers (some waiter.timer) := by
    rw [hopen.2]
    exact OrdMap.erase_of_none (OrdMap.get_erase_self _ _)
  simp only [lapse, ht, if_neg (Nat.not_lt.mpr hdue), BridgeState.finish, hw, hopen.1, htwice,
    Bool.false_eq_true, if_false]

/-- A timer that fires is one that a waiter armed. -/
theorem Held.lapse {s : BridgeState} (h : Held s) (t : TimerId) : Held (lapse s t) := by
  cases ht : s.timers.get t with
  | none => simpa [BridgeState.lapse, ht] using h
  | some timer =>
    by_cases hdue : s.now < timer.due
    · simpa [BridgeState.lapse, ht, hdue] using h
    · rw [lapse_eq h ht (Nat.le_of_not_lt hdue)]
      exact h.finish _ none

/-- The waiters of one environment, one after another. -/
theorem Held.settle {s : BridgeState} (h : Held s) (waiters : List Res) : Held (waiters.foldl settleEmpty s) := by
  induction waiters generalizing s with
  | nil => exact h
  | cons res rest ih => exact ih (h.finish res none)

/-- `settlePendingPolls`, environment by environment. -/
theorem Held.settleAll {s : BridgeState} (h : Held s) (envs : List EnvironmentRecord) :
    Held (envs.foldl (fun s env => env.waiters.foldl settleEmpty s) s) := by
  induction envs generalizing s with
  | nil => exact h
  | cons env rest ih => exact ih (h.settle env.waiters)

/-- Whatever the turn. -/
theorem held_step {s : BridgeState} (h : Held s) (e : BridgeEvent) : Held (bridgeStep s e) := by
  cases e with
  | advance ms => exact { h with }
  | environmentRegister => exact h.register
  | enqueueWork id item => exact h.enqueueWork id item
  | enqueueSessionWork sessionId secret => exact h.enqueueSessionWork sessionId secret
  | workPoll id => exact h.workPoll id
  | lapse t => exact h.lapse t
  | disconnect res => exact h.touch res fun _ => ⟨rfl, rfl, rfl, rfl, fun _ => rfl⟩
  | destroy res =>
    simp only [bridgeStep]
    split
    · exact h.touch res fun _ => ⟨rfl, rfl, rfl, rfl, fun hd => hd⟩
    · exact h
  | requestClosed res =>
    simp only [bridgeStep]
    split
    · exact h.requestClosed ‹_›
    · exact h
  | settlePendingPolls => exact h.settleAll _

/-! ## What was enqueued is delivered or queued -/

/-- What a turn enqueues, and for whom. -/
def accepted (s : BridgeState) (e : BridgeEvent) : List (EnvironmentId × WorkItem) :=
  match e with
  | .enqueueWork id item => if s.environments.has id then [(id, item)] else []
  | .enqueueSessionWork sessionId secret =>
    match s.latestEnvironment with
    | none => []
    | some id => [(id, s.sessionWork sessionId secret)]
  | _ => []

/-- Of what was enqueued, what this environment was meant to get. -/
def enqueuedTo (enqueued : List (EnvironmentId × WorkItem)) (id : EnvironmentId) : List WorkItem :=
  enqueued.filterMap fun entry => if entry.1 = id then some entry.2 else none

theorem queueOf_set (s : BridgeState) {id : EnvironmentId} {env : EnvironmentRecord} (polls : OrdMap Res PollWaiter)
    (timers : OrdMap TimerId (Timer Res)) (answered : List PollAnswer) (next : Nat) (id' : EnvironmentId) :
    queueOf { s with environments := s.environments.set id env, polls, timers, answered, next } id' =
      if id' = id then env.queue else s.queueOf id' := by
  unfold queueOf
  rw [OrdMap.get_set]
  split <;> rfl

theorem queueOf_of_get {s : BridgeState} {id : EnvironmentId} {env : EnvironmentRecord}
    (h : s.environments.get id = some env) : s.queueOf id = env.queue := by
  simp [queueOf, h]

/-- Letting a waiter go adds what it was answered. -/
theorem released_backlog (s : BridgeState) (res : Res) (waiter : PollWaiter) (ended : Bool) (said : List PollAnswer)
    (id : EnvironmentId) :
    backlog (released s res waiter ended said) id = delivered s.answered id ++ delivered said id ++ s.queueOf id := by
  have hqueue : queueOf (released s res waiter ended said) id = s.queueOf id := by
    unfold queueOf released
    rw [withoutWaiter_get]
    cases s.environments.get id with
    | none => rfl
    | some env =>
      simp only [Option.map_some, Option.getD_some]
      split <;> rfl
  rw [backlog, hqueue, released, delivered_append]

/-- An answer without work takes none. -/
theorem finish_backlog (s : BridgeState) (res : Res) (id : EnvironmentId) :
    backlog (finish s res none) id = backlog s id := by
  rcases finish_cases s res none with heq | ⟨waiter, -, -, heq⟩
  · rw [heq]
  · rw [heq, released_backlog]
    simp [delivered, backlog]

theorem requestClosed_backlog (s : BridgeState) (res : Res) (id : EnvironmentId) :
    backlog (requestClosed s res) id = backlog s id := by
  rcases requestClosed_cases s res with heq | ⟨waiter, -, -, heq⟩
  · rw [heq]
  · rw [heq, released_backlog]
    simp [delivered, backlog]

/-- A delivery moves the head of the queue to the end of what was delivered: the backlog reads the same. -/
theorem Delivers.backlog {s : BridgeState} {res : Res} {waiter : PollWaiter} {env : EnvironmentRecord}
    {item : WorkItem} {queue : List WorkItem} (h : Delivers s res waiter env item queue) (id : EnvironmentId) :
    backlog (deliverQueued s res).1 id = backlog s id := by
  have hpoll : { s with
      environments := s.environments.set waiter.environmentId { env with queue } }.polls.get res = some waiter := h.poll
  rw [h.after]
  show BridgeState.backlog (finish _ _ _) id = _
  rw [finish_eq hpoll h.unsettled, released_backlog, queueOf_set]
  unfold BridgeState.backlog
  by_cases hid : id = waiter.environmentId
  · subst hid
    rw [if_pos rfl, queueOf_of_get h.environment, h.head]
    simp [delivered]
  · rw [if_neg hid]
    simp [delivered, Ne.symm hid]

theorem flushWaiter_backlog (s : BridgeState) (id id' : EnvironmentId) :
    backlog (flushWaiter s id) id' = backlog s id' := by
  unfold flushWaiter
  split
  · rfl
  · rename_i env _
    split
    · rfl
    · rcases flushWaiters_cases s env.waiters with ⟨hsame, -⟩ | ⟨res, -, waiter, env', item, queue, hd, heq⟩
      · rw [hsame]
      · rw [heq]
        exact hd.backlog id'

/-- An item goes to the end of its environment's backlog, delivered at once or not. -/
theorem enqueueWork_backlog (s : BridgeState) (id : EnvironmentId) (item : WorkItem) (id' : EnvironmentId) :
    backlog (enqueueWork s id item).1 id' =
      backlog s id' ++ enqueuedTo (if s.environments.has id then [(id, item)] else []) id' := by
  unfold enqueueWork
  cases henv : s.environments.get id with
  | none =>
    rw [OrdMap.has_eq_false.mpr henv]
    simp [enqueuedTo]
  | some env =>
    rw [OrdMap.has_eq_true.mpr ⟨env, henv⟩, if_pos rfl]
    show backlog (flushWaiter _ id) id' = _
    rw [flushWaiter_backlog]
    unfold backlog
    rw [queueOf_set]
    by_cases hid : id' = id
    · subst hid
      rw [if_pos rfl, queueOf_of_get henv]
      simp [enqueuedTo]
    · rw [if_neg hid]
      simp [enqueuedTo, Ne.symm hid]

/-- A poll takes the head, or nothing. -/
theorem handleWorkPoll_backlog (s : BridgeState) (id id' : EnvironmentId) :
    backlog (handleWorkPoll s id).1 id' = backlog s id' := by
  unfold handleWorkPoll
  cases henv : s.environments.get id with
  | none => rfl
  | some env =>
    cases hq : env.queue with
    | cons item queue =>
      simp only [hq, backlog, queueOf_set, delivered_append]
      by_cases hid : id' = id
      · subst hid
        rw [if_pos rfl, queueOf_of_get henv, hq]
        simp [delivered]
      · rw [if_neg hid]
        simp [delivered, Ne.symm hid]
    | nil =>
      simp only [hq, backlog, queueOf_set]
      by_cases hid : id' = id
      · subst hid
        rw [if_pos rfl, queueOf_of_get henv, hq]
      · rw [if_neg hid]

/-- Polls are settled empty-handed: the work stays queued. -/
theorem settleAll_backlog (envs : List EnvironmentRecord) (s : BridgeState) (id : EnvironmentId) :
    backlog (envs.foldl (fun s env => env.waiters.foldl settleEmpty s) s) id = backlog s id := by
  have hone : ∀ (waiters : List Res) (s : BridgeState), backlog (waiters.foldl settleEmpty s) id = backlog s id := by
    intro waiters
    induction waiters with
    | nil => exact fun _ => rfl
    | cons res rest ih => exact fun s => (ih _).trans (finish_backlog s res id)
  induction envs generalizing s with
  | nil => rfl
  | cons env rest ih => exact (ih _).trans (hone env.waiters s)

theorem latestEnvironment_get {s : BridgeState} {id : EnvironmentId} (h : s.latestEnvironment = some id) :
    s.environments.has id = true :=
  OrdMap.has_eq_true.mpr (OrdMap.mem_keys.mp (List.mem_of_getLast? h))

/-- A turn adds to what is delivered or queued what it enqueues, at the end. -/
theorem backlog_step {s : BridgeState} (h : Held s) (e : BridgeEvent) (id : EnvironmentId) :
    backlog (bridgeStep s e) id = backlog s id ++ enqueuedTo (accepted s e) id := by
  have hnone : ∀ {s' : BridgeState}, backlog s' id = backlog s id →
      backlog s' id = backlog s id ++ enqueuedTo [] id := by
    intro s' hsame
    rw [hsame]
    exact (List.append_nil _).symm
  cases e with
  | advance ms => exact hnone rfl
  | environmentRegister =>
    -- the new environment's queue is empty, and its id was no environment's
    refine hnone ?_
    unfold backlog
    show delivered s.answered id ++ queueOf (handleEnvironmentRegister s) id = _
    rw [handleEnvironmentRegister, queueOf_set]
    split
    · rename_i heq
      have hfresh : s.environments.get id = none := by
        cases henv : s.environments.get id with
        | none => rfl
        | some env => exact absurd (h.founded id env henv) (by simp [heq])
      simp [queueOf, hfresh]
    · rfl
  | enqueueWork id' item => exact enqueueWork_backlog s id' item id
  | enqueueSessionWork sessionId secret =>
    simp only [bridgeStep, enqueueSessionWork, accepted]
    cases hl : s.latestEnvironment with
    | none => exact hnone rfl
    | some id' =>
      have hwork := enqueueWork_backlog { s with next := s.next + 1 } id' (sessionWork s sessionId secret) id
      have hhas : { s with next := s.next + 1 }.environments.has id' = true := latestEnvironment_get hl
      rw [hhas, if_pos rfl] at hwork
      exact hwork
  | workPoll id' => exact hnone (handleWorkPoll_backlog s id' id)
  | lapse t =>
    refine hnone ?_
    show backlog (lapse s t) id = _
    cases ht : s.timers.get t with
    | none => simp [lapse, ht]
    | some timer =>
      by_cases hdue : s.now < timer.due
      · simp [lapse, ht, hdue]
      · rw [lapse_eq h ht (Nat.le_of_not_lt hdue)]
        exact finish_backlog s _ id
  | disconnect res => exact hnone rfl
  | destroy res =>
    refine hnone ?_
    simp only [bridgeStep]
    split <;> rfl
  | requestClosed res =>
    refine hnone ?_
    simp only [bridgeStep]
    split
    · exact requestClosed_backlog s res id
    · rfl
  | settlePendingPolls => exact hnone (settleAll_backlog _ s id)

/-! ## Nobody live waits where work is queued -/

/-- Who is let go is no longer waiting, and a client that is gone stays gone. -/
theorem Starved.released {s : BridgeState} {id : EnvironmentId} (h : Starved s id) {res : Res} {waiter : PollWaiter}
    (hw : s.polls.get res = some waiter) (ended : Bool) (said : List PollAnswer) :
    Starved (released s res waiter ended said) id := by
  refine h.later ?_ ?_
  · intro env' hget hqueue
    rw [BridgeState.released, withoutWaiter_get] at hget
    obtain ⟨env, henv, rfl⟩ := Option.map_eq_some_iff.mp hget
    refine ⟨env, henv, ?_⟩
    split at hqueue
    · rw [if_pos ‹_›]
      exact ⟨hqueue, fun _ hm => (List.mem_filter.mp hm).1⟩
    · rw [if_neg ‹_›]
      exact ⟨hqueue, List.Subset.refl _⟩
  · intro res' waiter' hget hd
    rw [BridgeState.released, OrdMap.get_set]
    split
    · rename_i heq
      subst heq
      rw [hw] at hget
      cases hget
      exact ⟨_, rfl, hd⟩
    · exact ⟨waiter', hget, hd⟩

theorem Starved.finish {s : BridgeState} {id : EnvironmentId} (h : Starved s id) (res : Res) (item : Option WorkItem) :
    Starved (finish s res item) id := by
  rcases finish_cases s res item with heq | ⟨waiter, hw, -, heq⟩
  · rwa [heq]
  · rw [heq]
    exact h.released hw true _

theorem Starved.requestClosed {s : BridgeState} {id : EnvironmentId} (h : Starved s id) (res : Res) :
    Starved (requestClosed s res) id := by
  rcases requestClosed_cases s res with heq | ⟨waiter, hw, -, heq⟩
  · rwa [heq]
  · rw [heq]
    exact h.released hw _ _

/-- Another environment's record rewritten. -/
theorem Starved.elsewhere {s : BridgeState} {id : EnvironmentId} (h : Starved s id) {id' : EnvironmentId}
    (hne : id ≠ id') (env : EnvironmentRecord) :
    Starved { s with environments := s.environments.set id' env } id := by
  refine h.later ?_ fun _ waiter hw hd => ⟨waiter, hw, hd⟩
  intro env' hget hqueue
  rw [OrdMap.get_set_ne _ _ hne] at hget
  exact ⟨env', hget, hqueue, List.Subset.refl _⟩

/-- Work taken from the head of the queue, or added where there was some. -/
theorem Starved.requeue {s : BridgeState} {id : EnvironmentId} (h : Starved s id) {env : EnvironmentRecord}
    (henv : s.environments.get id = some env) (hne : env.queue ≠ []) (queue : List WorkItem) :
    Starved { s with environments := s.environments.set id { env with queue } } id := by
  refine h.later ?_ fun _ waiter hw hd => ⟨waiter, hw, hd⟩
  intro env' hget _
  rw [OrdMap.get_set_self, Option.some.injEq] at hget
  subst hget
  exact ⟨env, henv, hne, List.Subset.refl _⟩

/-- Where nothing is queued there is nobody to serve. -/
theorem Starved.empty {s : BridgeState} {id : EnvironmentId} (h : s.queueOf id = []) : Starved s id := by
  intro env henv hne
  rw [queueOf_of_get henv] at h
  exact absurd h hne

/-- A delivery serves one waiter; what it leaves is the queue's tail, so that is what must be starved. -/
theorem Delivers.starved {s : BridgeState} {res : Res} {waiter : PollWaiter} {env : EnvironmentRecord}
    {item : WorkItem} {queue : List WorkItem} (h : Delivers s res waiter env item queue) {id : EnvironmentId}
    (hs : Starved { s with environments := s.environments.set waiter.environmentId { env with queue } } id) :
    Starved (deliverQueued s res).1 id := by
  rw [h.after]
  exact hs.finish res (some item)

/-- A flush leaves nobody live waiting for what is queued: one item goes to the first who is live, and more than one
    was queued only where nobody was. -/
theorem flushWaiter_starved {s : BridgeState} (h : Held s) {id : EnvironmentId} {env : EnvironmentRecord}
    (henv : s.environments.get id = some env) (hq : env.queue.length ≤ 1 ∨ Starved s id) :
    Starved (flushWaiter s id) id := by
  unfold flushWaiter
  simp only [henv]
  split
  · rename_i hempty
    exact .empty (by rw [queueOf_of_get henv, hempty])
  · rename_i hne
    rcases flushWaiters_cases s env.waiters with ⟨hsame, hall⟩ | ⟨res, hmem, waiter, env', item, queue, hd, heq⟩
    · -- everyone was passed over
      rw [hsame]
      intro env₁ henv₁ _ res hres
      rw [henv] at henv₁
      cases henv₁
      obtain ⟨waiter, hw, hid, hopen⟩ := (h.waiting id env henv res).mp hres
      have hended : waiter.writableEnded = false := by
        cases he : waiter.writableEnded with
        | false => rfl
        | true => exact absurd (h.ended res waiter hw he) (by simp [hopen])
      refine ⟨waiter, hw, (hall res hres).dead waiter env hw hopen hended ?_ hne⟩
      rw [hid, henv]
    · -- the first who is live takes the head
      rw [heq]
      obtain ⟨waiter₀, hw₀, hid, -⟩ := (h.waiting id env henv res).mp hmem
      rw [hd.poll] at hw₀
      cases hw₀
      have hsame : env' = env := by
        have henv' := hd.environment
        rw [hid, henv] at henv'
        exact (Option.some.inj henv').symm
      subst hsame
      refine hd.starved ?_
      rw [hid]
      rcases hq with hlen | hstarved
      · have hnil : queue = [] := by
          rw [hd.head, List.length_cons] at hlen
          exact List.eq_nil_of_length_eq_zero (by omega)
        refine .empty ?_
        rw [hnil]
        simp [queueOf]
      · -- more than one was queued: then who took the head was gone, which a delivery rules out
        obtain ⟨waiter₁, hw₁, hdead⟩ := hstarved env' henv hne res hmem
        rw [hd.poll] at hw₁
        cases hw₁
        rw [hd.live] at hdead
        cases hdead

/-- A flush of another environment serves its own waiters only. -/
theorem flushWaiter_elsewhere {s : BridgeState} (h : Held s) {id id' : EnvironmentId} (hne : id' ≠ id)
    (hs : Starved s id') : Starved (flushWaiter s id) id' := by
  unfold flushWaiter
  cases henv : s.environments.get id with
  | none => exact hs
  | some env =>
    simp only
    split
    · exact hs
    · rcases flushWaiters_cases s env.waiters with ⟨hsame, -⟩ | ⟨res, hmem, waiter, env', item, queue, hd, heq⟩
      · rw [hsame]
        exact hs
      · rw [heq]
        obtain ⟨waiter₀, hw₀, hid, -⟩ := (h.waiting id env henv res).mp hmem
        rw [hd.poll] at hw₀
        cases hw₀
        refine hd.starved ?_
        rw [hid]
        exact hs.elsewhere hne _

/-- An item is queued behind others, where nobody live waited, or it is the one the flush hands on. -/
theorem enqueueWork_starved {s : BridgeState} (h : Held s) {id' : EnvironmentId} (hs : Starved s id')
    (id : EnvironmentId) (item : WorkItem) : Starved (enqueueWork s id item).1 id' := by
  unfold enqueueWork
  cases henv : s.environments.get id with
  | none => exact hs
  | some env =>
    have hpush := h.requeue henv (env.queue ++ [item])
    by_cases hid : id' = id
    · subst hid
      refine flushWaiter_starved hpush (OrdMap.get_set_self _ _ _) ?_
      by_cases hempty : env.queue = []
      · left
        simp [hempty]
      · right
        exact hs.requeue henv hempty _
    · exact flushWaiter_elsewhere hpush hid (hs.elsewhere hid _)

/-- A poll is held only where the queue is empty. -/
theorem handleWorkPoll_starved {s : BridgeState} (h : Held s) {id' : EnvironmentId} (hs : Starved s id')
    (id : EnvironmentId) : Starved (handleWorkPoll s id).1 id' := by
  unfold handleWorkPoll
  cases henv : s.environments.get id with
  | none => exact hs
  | some env =>
    cases hq : env.queue with
    | cons item queue =>
      simp only [hq]
      have hpop : Starved { s with environments := s.environments.set id { env with queue } } id' := by
        by_cases hid : id' = id
        · subst hid
          exact hs.requeue henv (by simp [hq]) _
        · exact hs.elsewhere hid _
      exact hpop.later (fun env' hget hne => ⟨env', hget, hne, List.Subset.refl _⟩) fun _ w hw hd => ⟨w, hw, hd⟩
    | nil =>
      simp only [hq]
      refine hs.later ?_ ?_
      · intro env' hget hne
        rw [OrdMap.get_set] at hget
        split at hget
        · cases hget
          exact absurd rfl hne
        · exact ⟨env', hget, hne, List.Subset.refl _⟩
      · intro res waiter hw hd
        have hold : res ≠ s.next := Nat.ne_of_lt (h.minted res waiter hw)
        exact ⟨waiter, by rw [OrdMap.get_set_ne _ _ hold, hw], hd⟩

theorem touch_starved {s : BridgeState} {id : EnvironmentId} (hs : Starved s id) (res : Res)
    {f : PollWaiter → PollWaiter} (hf : ∀ waiter, waiter.destroyed = true → (f waiter).destroyed = true) :
    Starved (s.touch res f) id := by
  refine hs.later (fun env' hget hne => ⟨env', hget, hne, List.Subset.refl _⟩) ?_
  intro res' waiter hw hd
  refine ⟨if res' = res then f waiter else waiter, ?_, ?_⟩
  · rw [touch, OrdMap.get_mapVals, hw, Option.map_some]
  · split
    · exact hf waiter hd
    · exact hd

theorem settleAll_starved {s : BridgeState} {id : EnvironmentId} (hs : Starved s id) (envs : List EnvironmentRecord) :
    Starved (envs.foldl (fun s env => env.waiters.foldl settleEmpty s) s) id := by
  have hone : ∀ (waiters : List Res) {s : BridgeState}, Starved s id → Starved (waiters.foldl settleEmpty s) id := by
    intro waiters
    induction waiters with
    | nil => exact fun hs => hs
    | cons res rest ih => exact fun hs => ih (hs.finish res none)
  induction envs generalizing s with
  | nil => exact hs
  | cons env rest ih => exact ih (hone env.waiters hs)

/-- Whatever the turn: only an enqueue adds work and only a held poll a waiter, and each looks at the other. -/
theorem starved_step {s : BridgeState} (h : Held s) (hs : ∀ id, Starved s id) (e : BridgeEvent) (id : EnvironmentId) :
    Starved (bridgeStep s e) id := by
  cases e with
  | advance ms => exact hs id
  | environmentRegister =>
    refine (hs id).later ?_ fun _ waiter hw hd => ⟨waiter, hw, hd⟩
    intro env' hget hne
    have hget' : (s.environments.set s.next ⟨[], []⟩).get id = some env' := hget
    rw [OrdMap.get_set] at hget'
    split at hget'
    · cases hget'
      exact absurd rfl hne
    · exact ⟨env', hget', hne, List.Subset.refl _⟩
  | enqueueWork id' item => exact enqueueWork_starved h (hs id) id' item
  | enqueueSessionWork sessionId secret =>
    simp only [bridgeStep, enqueueSessionWork]
    split
    · exact hs id
    · exact enqueueWork_starved (h.mint (Nat.le_succ _)) (hs id) _ _
  | workPoll id' => exact handleWorkPoll_starved h (hs id) id'
  | lapse t =>
    show Starved (lapse s t) id
    cases ht : s.timers.get t with
    | none => simpa [lapse, ht] using hs id
    | some timer =>
      by_cases hdue : s.now < timer.due
      · simpa [lapse, ht, hdue] using hs id
      · rw [lapse_eq h ht (Nat.le_of_not_lt hdue)]
        exact (hs id).finish _ none
  | disconnect res => exact touch_starved (hs id) res fun _ hd => hd
  | destroy res =>
    simp only [bridgeStep]
    split
    · exact touch_starved (hs id) res fun _ _ => rfl
    · exact hs id
  | requestClosed res =>
    simp only [bridgeStep]
    split
    · exact (hs id).requestClosed res
    · exact hs id
  | settlePendingPolls => exact settleAll_starved (hs id) _

/-! ## Settling -/

/-- The waiter an answer is for is settled after it. -/
theorem finish_settles {s : BridgeState} {res : Res} {waiter : PollWaiter} (hw : s.polls.get res = some waiter)
    (item : Option WorkItem) : ∃ waiter', (finish s res item).polls.get res = some waiter' ∧
      waiter'.settled = true ∧ waiter'.disconnected = waiter.disconnected := by
  cases hopen : waiter.settled with
  | true => exact ⟨waiter, by simp [finish, hw, hopen], hopen, rfl⟩
  | false =>
    rw [finish_eq hw hopen]
    exact ⟨_, OrdMap.get_set_self _ _ _, rfl, rfl⟩

/-- Once settled, a waiter stays so, and its client is where it was. -/
theorem finish_keeps (s : BridgeState) (res : Res) (item : Option WorkItem) {res' : Res} {waiter : PollWaiter}
    (hw : s.polls.get res' = some waiter) : ∃ waiter', (finish s res item).polls.get res' = some waiter' ∧
      (waiter.settled = true → waiter'.settled = true) ∧ waiter'.disconnected = waiter.disconnected := by
  by_cases hres : res' = res
  · subst hres
    obtain ⟨waiter', hget, hs, hd⟩ := finish_settles hw item
    exact ⟨waiter', hget, fun _ => hs, hd⟩
  · refine ⟨waiter, ?_, fun hs => hs, rfl⟩
    rcases finish_cases s res item with heq | ⟨other, -, -, heq⟩
    · rw [heq, hw]
    · rw [heq, released, OrdMap.get_set_ne _ _ hres, hw]

/-- Settling a list of waiters settles each of them, and none loses its client by it. -/
theorem settle_keeps (waiters : List Res) (s : BridgeState) {res : Res} {waiter : PollWaiter}
    (hw : s.polls.get res = some waiter) : ∃ waiter', (waiters.foldl settleEmpty s).polls.get res = some waiter' ∧
      (waiter.settled = true ∨ res ∈ waiters → waiter'.settled = true) ∧
        waiter'.disconnected = waiter.disconnected := by
  induction waiters generalizing s waiter with
  | nil => exact ⟨waiter, hw, fun hor => hor.elim (fun hs => hs) (fun hm => by cases hm), rfl⟩
  | cons first rest ih =>
    obtain ⟨waiter₁, hw₁, hs₁, hd₁⟩ := finish_keeps s first none hw
    obtain ⟨waiter₂, hw₂, hs₂, hd₂⟩ := ih (s := settleEmpty s first) hw₁
    refine ⟨waiter₂, hw₂, ?_, hd₂.trans hd₁⟩
    intro hor
    apply hs₂
    rcases hor with hs | hm
    · exact Or.inl (hs₁ hs)
    · rcases List.mem_cons.mp hm with rfl | hm
      · obtain ⟨waiter', hget, hs, -⟩ := finish_settles hw none
        rw [hw₁] at hget
        cases hget
        exact Or.inl hs
      · exact Or.inr hm

theorem settleAll_keeps (envs : List EnvironmentRecord) (s : BridgeState) {res : Res} {waiter : PollWaiter}
    (hw : s.polls.get res = some waiter) :
    ∃ waiter', (envs.foldl (fun s env => env.waiters.foldl settleEmpty s) s).polls.get res = some waiter' ∧
      (waiter.settled = true ∨ (∃ env ∈ envs, res ∈ env.waiters) → waiter'.settled = true) ∧
      waiter'.disconnected = waiter.disconnected := by
  induction envs generalizing s waiter with
  | nil => exact ⟨waiter, hw, fun hor => hor.elim (fun hs => hs) (fun hex => by simp at hex), rfl⟩
  | cons env rest ih =>
    obtain ⟨waiter₁, hw₁, hs₁, hd₁⟩ := settle_keeps env.waiters s hw
    obtain ⟨waiter₂, hw₂, hs₂, hd₂⟩ := ih _ hw₁
    refine ⟨waiter₂, hw₂, ?_, hd₂.trans hd₁⟩
    intro hor
    apply hs₂
    rcases hor with hs | ⟨env', hmem, hin⟩
    · exact Or.inl (hs₁ (Or.inl hs))
    · rcases List.mem_cons.mp hmem with rfl | hmem
      · exact Or.inl (hs₁ (Or.inr hin))
      · exact Or.inr ⟨env', hmem, hin⟩

/-- A settled poll whose client is there was answered. -/
theorem Held.answered {s : BridgeState} (h : Held s) {res : Res} {waiter : PollWaiter}
    (hw : s.polls.get res = some waiter) (hs : waiter.settled = true) (hd : waiter.disconnected = false) :
    (answersTo s.answered res).length = 1 := by
  have hended : waiter.writableEnded = true := by
    cases he : waiter.writableEnded with
    | true => rfl
    | false =>
      rw [h.dropped res waiter hw hs he] at hd
      cases hd
  rw [h.answers res waiter hw, if_pos hended]

end BridgeState

/-! ## Over whole runs -/

open BridgeState

def enqueueWatch (s : BridgeState) (e : BridgeEvent) (enqueued : List (EnvironmentId × WorkItem)) :
    List (EnvironmentId × WorkItem) := enqueued ++ accepted s e

/-- A bridge from its start, with what was enqueued beside it. -/
abbrev BridgeRun : BridgeState × List (EnvironmentId × WorkItem) → Prop :=
  Reach (watched bridgeStep enqueueWatch)
    (fun p => (∃ now next workPollTimeoutMs, p.1 = startBridge now next workPollTimeoutMs) ∧ p.2 = []) anyEvent

theorem startBridge_held (now next workPollTimeoutMs : Nat) : Held (startBridge now next workPollTimeoutMs) where
  armed := Armed.empty next
  minted _ _ h := by cases h
  founded _ _ h := by cases h
  waiting _ _ h := by cases h
  housed _ _ h := by cases h
  ended _ _ h := by cases h
  dropped _ _ h := by cases h
  answers _ _ h := by cases h
  stray _ _ := Nat.zero_le _
  unborn _ _ := rfl

/-- Both invariants, in every state a bridge comes to. -/
theorem BridgeRun.held {p : BridgeState × List (EnvironmentId × WorkItem)} (h : BridgeRun p) :
    Held p.1 ∧ ∀ id, Starved p.1 id := by
  induction h with
  | start hp =>
    obtain ⟨⟨now, next, workPollTimeoutMs, hs⟩, -⟩ := hp
    rw [hs]
    refine ⟨startBridge_held _ _ _, ?_⟩
    intro id env henv
    cases henv
  | step e _ _ ih => exact ⟨held_step ih.1 e, starved_step ih.1 ih.2 e⟩

/-- The backlog is what was enqueued, no more and in that order. -/
theorem BridgeRun.backlog {p : BridgeState × List (EnvironmentId × WorkItem)} (h : BridgeRun p) (id : EnvironmentId) :
    backlog p.1 id = enqueuedTo p.2 id := by
  induction h with
  | start hp =>
    obtain ⟨⟨now, next, workPollTimeoutMs, hs⟩, hnil⟩ := hp
    rw [hs, hnil]
    rfl
  | @step p e hr _ ih =>
    show BridgeState.backlog (bridgeStep p.1 e) id = enqueuedTo (p.2 ++ accepted p.1 e) id
    rw [backlog_step (BridgeRun.held hr).1 e id, ih]
    exact (List.filterMap_append ..).symm

/-- How a bridge has delivered what was enqueued. -/
structure Delivered (s : BridgeState) (enqueued : List (EnvironmentId × WorkItem)) : Prop where
  /-- Each item to one poll, in the order they were enqueued, and the rest queued in that order. -/
  order : ∀ id, delivered s.answered id ++ s.queueOf id = enqueuedTo enqueued id
  once : ∀ res, (answersTo s.answered res).length ≤ 1
  /-- A held poll was answered, or it waits with its timer armed. -/
  held : ∀ res waiter, s.polls.get res = some waiter → waiter.disconnected = false →
    (answersTo s.answered res).length = 1 ∨ answersTo s.answered res = [] ∧
      (∃ env, s.environments.get waiter.environmentId = some env ∧ res ∈ env.waiters) ∧
      ∃ due, s.timers.get waiter.timer = some ⟨due, res⟩
  lapses : ∀ res waiter due, s.polls.get res = some waiter → waiter.disconnected = false →
    s.timers.get waiter.timer = some ⟨due, res⟩ → due ≤ s.now →
      (answersTo (bridgeStep s (.lapse waiter.timer)).answered res).length = 1
  drains : ∀ res waiter, s.polls.get res = some waiter → waiter.disconnected = false →
    (answersTo (bridgeStep s .settlePendingPolls).answered res).length = 1
  /-- Nobody live waits where work is queued. -/
  starved : ∀ id env, s.environments.get id = some env → env.queue ≠ [] →
    ∀ res ∈ env.waiters, ∃ waiter, s.polls.get res = some waiter ∧ waiter.destroyed = true

/-- Work is delivered in order and to one poll each, a held poll is settled once, and work waits only where nobody
    does. -/
theorem work_delivered {p : BridgeState × List (EnvironmentId × WorkItem)} (h : BridgeRun p) : Delivered p.1 p.2 := by
  obtain ⟨hheld, hstarved⟩ := h.held
  refine ⟨h.backlog, ?_, ?_, ?_, ?_, hstarved⟩
  · intro res
    cases hw : p.1.polls.get res with
    | none => exact hheld.stray res hw
    | some waiter =>
      rw [hheld.answers res waiter hw]
      split <;> omega
  · intro res waiter hw hd
    cases hs : waiter.settled with
    | true => exact Or.inl (hheld.answered hw hs hd)
    | false =>
      right
      have hended : waiter.writableEnded = false := by
        cases he : waiter.writableEnded with
        | false => rfl
        | true => exact absurd (hheld.ended res waiter hw he) (by simp [hs])
      have hlen := hheld.answers res waiter hw
      rw [hended] at hlen
      obtain ⟨env, henv⟩ := hheld.housed res waiter hw hs
      refine ⟨List.eq_nil_of_length_eq_zero hlen, ⟨env, henv, ?_⟩, ?_⟩
      · exact (hheld.waiting _ env henv res).mpr ⟨waiter, hw, rfl, hs⟩
      · exact hheld.armed.get_of_owner (by simp [holder, hw, hs])
  · intro res waiter due hw hd ht hdue
    have hafter := held_step hheld (.lapse waiter.timer)
    obtain ⟨waiter', hw', hs', hd'⟩ := finish_settles hw none
    have hlapse : bridgeStep p.1 (.lapse waiter.timer) = finish p.1 res none := lapse_eq hheld ht hdue
    rw [hlapse] at hafter ⊢
    exact hafter.answered hw' hs' (hd'.trans hd)
  · intro res waiter hw hd
    have hafter := held_step hheld .settlePendingPolls
    obtain ⟨waiter', hw', hs', hd'⟩ := settleAll_keeps p.1.environments.values p.1 hw
    refine hafter.answered hw' (hs' ?_) (hd'.trans hd)
    cases hs : waiter.settled with
    | true => exact Or.inl rfl
    | false =>
      right
      obtain ⟨env, henv⟩ := hheld.housed res waiter hw hs
      exact ⟨env, OrdMap.mem_values.mpr ⟨_, henv⟩, (hheld.waiting _ env henv res).mpr ⟨waiter, hw, rfl, hs⟩⟩

/-- Two polls held, the first one's client gone: the second gets the session's work. -/
def dispatched : List BridgeEvent :=
  [.environmentRegister, .workPoll 0, .workPoll 0, .disconnect 1, .destroy 1, .enqueueSessionWork 9 [],
    .enqueueSessionWork 10 []]

theorem work_delivered_dispatched :
    let p := runFrom (watched bridgeStep enqueueWatch) (startBridge 0 0 DEFAULT_WORK_POLL_TIMEOUT_MS, []) dispatched
    p.1.answered = [⟨0, 3, some ⟨5, [], ⟨.session, some 9⟩⟩⟩] ∧ p.1.queueOf 0 = [⟨6, [], ⟨.session, some 10⟩⟩] ∧
      Delivered p.1 p.2 :=
  ⟨by decide, by decide, work_delivered (Reach.start ⟨⟨_, _, _, rfl⟩, rfl⟩).run⟩

end Ccctl.Server
