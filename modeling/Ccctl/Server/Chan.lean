import Ccctl.Server.StatusLegs
import Mathlib.Tactic.Common
/-
  Ccctl.Server.Chan — one session as its worker and its browsers see it.

  The server keeps a session in five tables, and every claim about what it tells a browser or
  what it lets a browser answer is about one session at a time. `Chan` is that session: its row,
  whether its launch is pending, its current worker's channel, the question it holds, and the
  attentions raised so far. `Act` is what can happen to it, `Chan.step` what then becomes of it.
  `Observe` says that the server moves every session so.

  `Act.Enabled` is what the server's own checks guarantee when an act happens. `Chan.Ok` is what
  the five tables agree on: a row is `registering` exactly while its launch is pending, a channel
  stands on a registered row, a question on a channel.
-/

namespace Ccctl.Server

open Ccctl.Core Ccctl.Lib

/-- What a browser is alerted with. -/
inductive Attention where
  | needsInput (detail : JsString)
  | idle (thresholdMs : Nat)
  deriving DecidableEq, Repr

def Attention.isNeedsInput : Attention → Bool
  | .needsInput _ => true
  | .idle _ => false

def Attention.isIdle : Attention → Bool
  | .needsInput _ => false
  | .idle _ => true

/-- The current worker's channel. -/
structure Link where
  epoch : Nat
  highest : Option Nat
  connected : Bool
  idleArmed : Bool
  deriving DecidableEq, Repr

@[ext]
structure Chan where
  row : Option Session
  pending : Bool
  link : Option Link
  question : Option RequiresActionEnrichment
  raised : List Attention

/-- A worker's status report, on either leg, as the server received it. -/
structure Report where
  status : WorkerStatus
  detail : Option JsString
  sequence : Option Nat
  /-- What a hook left to be stored with it. -/
  capture : Option RequiresActionEnrichment
  now : Nat
  graceMs : Nat

inductive Act where
  | other
  /-- A registration makes the session. -/
  | created (row : Session)
  /-- A launch makes the session, `registering`. -/
  | placed (row : Session)
  /-- A registration takes the placeholder. -/
  | claimed (row : Session)
  /-- The placeholder is dropped. -/
  | dropped
  /-- Stopped, or evicted as silent. -/
  | ended
  | registered
  | streamOpened
  | streamClosed
  | beat (now : Nat)
  | report (r : Report)
  /-- A question frame. -/
  | asked (q : RequiresActionEnrichment)
  /-- An answer echoing `echoed` was relayed. -/
  | answered (echoed : Option Nat)
  /-- A turn or another command was relayed. -/
  | steered
  | idleFired (now graceMs thresholdMs : Nat)
  /-- The server shut down. -/
  | halted

/-- The report an act applies. -/
def Act.asReport : Act → Option Report
  | .report r => some r
  | _ => none

/-! ## The session's moves -/

def Chan.blank : Chan := ⟨none, false, none, none, []⟩

/-- A report below the mark is refused. -/
def Report.refused (r : Report) (link : Link) : Bool := isStaleWorkerStatusSequence r.sequence link.highest

def Report.row (r : Report) (row : Session) : Session := applyWorkerStatus row r.status r.detail r.now

/-- Raised by the report that moves a live session into `requires_action`. -/
def Report.alert (r : Report) (row : Session) : List Attention :=
  if isInputAwaited row.activity then []
  else
    match (r.row row).activity with
    | .requiresAction detail => if isSessionStale (r.row row) r.now r.graceMs then [] else [.needsInput detail]
    | _ => []

/-- The question after the report. -/
def Report.question (r : Report) (row : Session) (held : Option RequiresActionEnrichment) :
    Option RequiresActionEnrichment :=
  (handoff row.activity (r.row row).activity r.capture).or
    (if isInputAwaited (r.row row).activity then held else none)

def Chan.reported (c : Chan) (row : Session) (link : Link) (r : Report) : Chan :=
  { c with
    row := some (r.row row)
    link := some { link with
      highest := advanced r.sequence link.highest
      idleArmed := decide ((r.row row).activity = .idle) }
    question := r.question row c.question
    raised := c.raised ++ r.alert row }

/-- The nudge of an idle timer that ran out. -/
def idleAlert (row : Option Session) (now graceMs thresholdMs : Nat) : List Attention :=
  match row with
  | none => []
  | some row =>
    if row.activity ≠ .idle then [] else if isSessionStale row now graceMs then [] else [.idle thresholdMs]

def freshLink (prev : Option Link) : Link := ⟨(prev.map (·.epoch)).getD 0 + 1, none, false, false⟩

def Chan.mapLink (c : Chan) (f : Link → Link) : Chan := { c with link := c.link.map f }

def Chan.step (c : Chan) : Act → Chan
  | .other => c
  | .created row => { c with row := some row }
  | .placed row => { c with row := some row, pending := true }
  | .claimed row => { c with row := some row, pending := false }
  | .dropped => { c with row := none, pending := false }
  | .ended => { c with row := none, pending := false, link := none, question := none }
  | .registered => { c with link := some (freshLink c.link) }
  | .streamOpened =>
    { c with
      row := c.row.map markSessionReady
      link := c.link.map fun link => { link with connected := true, idleArmed := false } }
  | .streamClosed => c.mapLink fun link => { link with connected := false }
  | .beat now => { c with row := c.row.map fun row => recordHeartbeat row now }
  | .report r =>
    match c.row, c.link with
    | some row, some link => if r.refused link then c else c.reported row link r
    | _, _ => c
  | .asked q => { c with question := some q }
  | .answered _ => { c.mapLink fun link => { link with idleArmed := false } with question := none }
  | .steered => c.mapLink fun link => { link with idleArmed := false }
  | .idleFired now graceMs thresholdMs =>
    { c.mapLink fun link => { link with idleArmed := false } with
      raised := c.raised ++ idleAlert c.row now graceMs thresholdMs }
  | .halted => { c.mapLink fun link => { link with connected := false, idleArmed := false } with pending := false }

/-- What an act raises. -/
def Chan.raises (c : Chan) : Act → List Attention
  | .report r =>
    match c.row, c.link with
    | some row, some link => if r.refused link then [] else r.alert row
    | _, _ => []
  | .idleFired now graceMs thresholdMs => idleAlert c.row now graceMs thresholdMs
  | _ => []

theorem Chan.step_raised (c : Chan) (act : Act) : (c.step act).raised = c.raised ++ c.raises act := by
  cases act with
  | report r =>
    simp only [Chan.step, Chan.raises]
    split
    · split
      · exact (List.append_nil _).symm
      · rfl
    · exact (List.append_nil _).symm
  | idleFired now graceMs thresholdMs => rfl
  | _ => exact (List.append_nil _).symm

section Report

variable {c : Chan} {r : Report} {row : Session} {link : Link}

/-- A report that is let through. -/
theorem Chan.step_reported (hrow : c.row = some row) (hlink : c.link = some link) (href : r.refused link = false) :
    c.step (.report r) = c.reported row link r := by
  simp [Chan.step, hrow, hlink, href]

theorem Chan.raises_reported (hrow : c.row = some row) (hlink : c.link = some link) (href : r.refused link = false) :
    c.raises (.report r) = r.alert row := by
  simp [Chan.raises, hrow, hlink, href]

theorem Chan.step_refused (hlink : c.link = some link) (href : r.refused link = true) : c.step (.report r) = c := by
  cases hrow : c.row <;> simp [Chan.step, hrow, hlink, href]

theorem Chan.raises_refused (hlink : c.link = some link) (href : r.refused link = true) :
    c.raises (.report r) = [] := by
  cases hrow : c.row <;> simp [Chan.raises, hrow, hlink, href]

end Report

/-- The acts that make a session. -/
def Act.births : Act → Bool
  | .created _ | .placed _ => true
  | _ => false

/-- The acts of a session that is there, while the server is up. -/
def Act.plain : Act → Bool
  | .created _ | .placed _ | .halted => false
  | _ => true

theorem Act.births_of_plain {act : Act} (h : act.plain = true) : act.births = false := by
  cases act <;> first | rfl | cases h

theorem Act.ne_halted_of_plain {act : Act} (h : act.plain = true) : act ≠ .halted := by
  intro heq
  subst heq
  cases h

/-- What the server checked before letting the act happen. -/
def Act.Enabled (c : Chan) : Act → Prop
  | .created row => row.status = .connecting ∧ row.activity = .idle
  | .placed row => row.status = .registering ∧ row.activity = .idle
  | .claimed row => c.pending = true ∧ row.status = .connecting ∧ row.activity = .idle
  | .dropped => c.pending = true
  | .registered => ∃ row, c.row = some row ∧ row.status ≠ .registering
  | .streamOpened | .streamClosed | .asked _ => c.link ≠ none
  | .report r => c.link ≠ none ∧ ∀ q, r.capture = some q → r.sequence = some q.sequenceNum
  | .answered echoed => ∃ q, c.question = some q ∧ echoed = some q.sequenceNum
  | .steered => c.link ≠ none
  | .idleFired _ _ _ => ∃ link, c.link = some link ∧ link.idleArmed = true
  | _ => True

/-! ## What stays -/

/-- The acts that keep the row's activity and the channel's epoch and mark. -/
def Act.keeps : Act → Bool
  | .created _ | .placed _ | .claimed _ | .dropped | .ended | .registered | .report _ => false
  | _ => true

theorem Chan.kept_row {c : Chan} {act : Act} {row : Session} (h : act.keeps = true) (hrow : c.row = some row) :
    ∃ row', (c.step act).row = some row' ∧ row'.activity = row.activity := by
  cases act with
  | streamOpened => exact ⟨markSessionReady row, by simp [Chan.step, hrow], markSessionReady_activity row⟩
  | beat now => exact ⟨recordHeartbeat row now, by simp [Chan.step, hrow], rfl⟩
  | created _ | placed _ | claimed _ | dropped | ended | registered | report _ => cases h
  | _ => exact ⟨row, hrow, rfl⟩

theorem Chan.kept_link {c : Chan} {act : Act} {link' : Link} (h : act.keeps = true)
    (hlink : (c.step act).link = some link') :
    ∃ link, c.link = some link ∧ link'.epoch = link.epoch ∧ link'.highest = link.highest := by
  have hmap : ∀ {f : Link → Link}, c.link.map f = some link' →
      (∀ link, (f link).epoch = link.epoch ∧ (f link).highest = link.highest) →
      ∃ link, c.link = some link ∧ link'.epoch = link.epoch ∧ link'.highest = link.highest := by
    intro f hl hf
    obtain ⟨link, hbefore, rfl⟩ := Option.map_eq_some_iff.mp hl
    exact ⟨link, hbefore, hf link⟩
  cases act with
  | created _ | placed _ | claimed _ | dropped | ended | registered | report _ => cases h
  | streamOpened | streamClosed | answered _ | steered | idleFired _ _ _ | halted =>
    exact hmap hlink fun _ => ⟨rfl, rfl⟩
  | _ => exact ⟨link', hlink, rfl, rfl⟩

/-- A channel keeps its epoch and its mark never goes back, until a worker registers. -/
theorem Chan.step_link {c : Chan} {act : Act} {link' : Link} (hreg : act ≠ .registered)
    (h : (c.step act).link = some link') : ∃ link, c.link = some link ∧ link'.epoch = link.epoch ∧
      ∀ n, link.highest = some n → ∃ n', link'.highest = some n' ∧ n ≤ n' := by
  have hsame : c.link = some link' → ∃ link, c.link = some link ∧ link'.epoch = link.epoch ∧
      ∀ n, link.highest = some n → ∃ n', link'.highest = some n' ∧ n ≤ n' :=
    fun hl => ⟨link', hl, rfl, fun n hn => ⟨n, hn, Nat.le_refl n⟩⟩
  by_cases hkeeps : act.keeps = true
  · obtain ⟨link, hlink, hepoch, hmark⟩ := Chan.kept_link hkeeps h
    refine ⟨link, hlink, hepoch, fun n hn => ⟨n, ?_, Nat.le_refl n⟩⟩
    rw [hmark, hn]
  · cases act with
    | registered => exact absurd rfl hreg
    | ended => cases h
    | created _ | placed _ | claimed _ | dropped => exact hsame h
    | report r =>
      simp only [Chan.step] at h
      split at h
      · rename_i row link hrow hlink
        split at h
        · exact hsame h
        · cases h
          exact ⟨link, hlink, rfl, fun n hn => advanced_le hn⟩
      · exact hsame h
    | _ => exact absurd rfl hkeeps

/-- Only its end takes a session's channel. -/
theorem Chan.step_linked {c : Chan} {act : Act} (hend : act ≠ .ended) (h : (c.step act).link = none) :
    c.link = none := by
  cases act with
  | ended => exact absurd rfl hend
  | registered => cases h
  | streamOpened | streamClosed | answered _ | steered | idleFired _ _ _ | halted => exact Option.map_eq_none_iff.mp h
  | report r =>
    simp only [Chan.step] at h
    split at h
    · split at h
      · exact h
      · cases h
    · exact h
  | _ => exact h

/-- Only a drop and an end take a session's row. -/
theorem Chan.row_taken {c : Chan} {act : Act} (hrow : c.row ≠ none) (h : (c.step act).row = none) :
    act = .dropped ∨ act = .ended := by
  cases act with
  | dropped => exact Or.inl rfl
  | ended => exact Or.inr rfl
  | created _ | placed _ | claimed _ => cases h
  | streamOpened | beat _ => exact absurd (Option.map_eq_none_iff.mp h) hrow
  | report r =>
    simp only [Chan.step] at h
    split at h
    · split at h
      · exact absurd h hrow
      · cases h
    · exact absurd h hrow
  | _ => exact absurd h hrow

/-! ## What the tables agree on -/

structure Chan.Ok (closed : Bool) (c : Chan) : Prop where
  placeholder : c.pending = true → ∃ row, c.row = some row ∧ row.status = .registering
  pending : closed = false → ∀ row, c.row = some row → row.status = .registering → c.pending = true
  linked : c.link ≠ none → ∃ row, c.row = some row ∧ row.status ≠ .registering
  asked : c.question ≠ none → c.link ≠ none

namespace Chan.Ok

variable {closed : Bool} {c : Chan}

/-- A pending launch has no worker yet. -/
theorem no_link (h : c.Ok closed) (hp : c.pending = true) : c.link = none := by
  by_contra hl
  obtain ⟨row, hrow, hs⟩ := h.placeholder hp
  obtain ⟨row', hrow', hs'⟩ := h.linked hl
  rw [hrow, Option.some.injEq] at hrow'
  exact hs' (hrow' ▸ hs)

/-- Without a row, nothing is left. -/
theorem rowless (h : c.Ok closed) (hr : c.row = none) : c.pending = false ∧ c.link = none ∧ c.question = none := by
  have hl : c.link = none := by
    by_contra hl
    obtain ⟨row, hrow, -⟩ := h.linked hl
    rw [hr] at hrow
    cases hrow
  refine ⟨?_, hl, ?_⟩
  · rw [Bool.eq_false_iff]
    intro hp
    obtain ⟨row, hrow, -⟩ := h.placeholder hp
    rw [hr] at hrow
    cases hrow
  · by_contra hq
    exact h.asked hq hl

/-- A row rewritten where it stands, and a channel likewise. -/
theorem rewrite (h : c.Ok closed) {f : Session → Session} {g : Link → Link} {q : Option RequiresActionEnrichment}
    (hf : ∀ row, (f row).status = .registering ↔ row.status = .registering)
    (hq : q ≠ none → c.link ≠ none) (raised : List Attention) :
    Chan.Ok closed ⟨c.row.map f, c.pending, c.link.map g, q, raised⟩ where
  placeholder hp := by
    obtain ⟨row, hrow, hs⟩ := h.placeholder hp
    exact ⟨f row, by rw [hrow]; rfl, (hf row).mpr hs⟩
  pending hc row hrow hs := by
    obtain ⟨row₀, h0, rfl⟩ := Option.map_eq_some_iff.mp hrow
    exact h.pending hc row₀ h0 ((hf row₀).mp hs)
  linked hl := by
    obtain ⟨row, hrow, hs⟩ := h.linked (by simpa using hl)
    exact ⟨f row, by rw [hrow]; rfl, fun hr => hs ((hf row).mp hr)⟩
  asked hne := by simpa using hq hne

theorem step (h : c.Ok closed) {act : Act} (he : act.Enabled c) (hb : act.births = true → c.row = none)
    (hh : act ≠ .halted) : (c.step act).Ok closed := by
  have hid : ∀ row : Session, (id row).status = .registering ↔ row.status = .registering := fun _ => Iff.rfl
  cases act with
  | other => exact h
  | created row =>
    obtain ⟨hp, hl, hq⟩ := h.rowless (hb rfl)
    refine ⟨?_, ?_, fun h' => absurd hl h', fun h' => absurd hq h'⟩
    · intro h'
      exact absurd (hp.symm.trans h') (by decide)
    · intro _ row' hrow hs
      cases hrow
      exact absurd (he.1.symm.trans hs) (by decide)
  | placed row =>
    obtain ⟨hp, hl, hq⟩ := h.rowless (hb rfl)
    exact ⟨fun _ => ⟨row, rfl, he.1⟩, fun _ _ _ _ => rfl, fun h' => absurd hl h', fun h' => absurd hq h'⟩
  | claimed row =>
    have hl := h.no_link he.1
    refine ⟨fun h' => (by cases h'), ?_, fun h' => absurd hl h', fun h' => absurd hl (h.asked h')⟩
    intro _ row' hrow hs
    cases hrow
    exact absurd (he.2.1.symm.trans hs) (by decide)
  | dropped =>
    have hl := h.no_link he
    exact ⟨fun h' => (by cases h'), fun _ _ h' => (by cases h'), fun h' => absurd hl h',
      fun h' => absurd hl (h.asked h')⟩
  | ended =>
    exact ⟨fun h' => (by cases h'), fun _ _ h' => (by cases h'), fun h' => absurd rfl h', fun h' => absurd rfl h'⟩
  | registered => exact ⟨h.placeholder, h.pending, fun _ => he, fun _ => by simp [Chan.step]⟩
  | streamOpened => exact h.rewrite markSessionReady_registering h.asked _
  | streamClosed =>
    have := h.rewrite (g := fun link => { link with connected := false }) hid h.asked c.raised
    rwa [Option.map_id_fun, id] at this
  | beat now =>
    have := h.rewrite (f := fun row => recordHeartbeat row now) (g := id) (fun _ => Iff.rfl) h.asked c.raised
    rwa [Option.map_id_fun, id] at this
  | report r =>
    simp only [Chan.step]
    split
    · rename_i row link hrow hlink
      split
      · exact h
      · have := h.rewrite (f := fun row => r.row row)
          (g := fun _ => { link with highest := advanced r.sequence link.highest,
                                     idleArmed := decide ((r.row row).activity = .idle) })
          (q := r.question row c.question) (fun _ => Iff.rfl) (fun _ => by simp [hlink])
          (c.raised ++ r.alert row)
        rwa [hrow, hlink] at this
    · exact h
  | asked q => exact ⟨h.placeholder, h.pending, h.linked, fun _ => he⟩
  | answered echoed =>
    have := h.rewrite (g := fun link => { link with idleArmed := false }) (q := none) hid
      (fun h' => absurd rfl h') c.raised
    rwa [Option.map_id_fun, id] at this
  | steered =>
    have := h.rewrite (g := fun link => { link with idleArmed := false }) hid h.asked c.raised
    rwa [Option.map_id_fun, id] at this
  | idleFired now graceMs thresholdMs =>
    have := h.rewrite (g := fun link => { link with idleArmed := false }) hid h.asked
      (c.raised ++ idleAlert c.row now graceMs thresholdMs)
    rwa [Option.map_id_fun, id] at this
  | halted => exact absurd rfl hh

/-- Only a birth gives a session a row. -/
theorem row_born (h : c.Ok closed) {act : Act} (he : act.Enabled c) (hrow : c.row = none)
    (h' : (c.step act).row ≠ none) : act.births = true := by
  cases act with
  | created _ | placed _ => rfl
  | claimed row =>
    obtain ⟨row', hrow', -⟩ := h.placeholder he.1
    cases hrow.symm.trans hrow'
  | streamOpened | beat _ => exact absurd (by simp [Chan.step, hrow]) h'
  | report r => exact absurd (by simp [Chan.step, hrow]) h'
  | dropped | ended => exact absurd rfl h'
  | _ => exact absurd hrow h'

/-- Less is known of a server that may have shut down. -/
theorem weaken (h : c.Ok closed) : c.Ok true := ⟨h.placeholder, fun hc => (by cases hc), h.linked, h.asked⟩

/-- Past a shutdown, a row may stay `registering` with nothing pending. -/
theorem halt (h : c.Ok closed) : (c.step .halted).Ok true where
  placeholder hp := by cases hp
  pending hc := by cases hc
  linked hl := h.linked (by simpa [Chan.step, Chan.mapLink] using hl)
  asked hq := by
    have hl := h.asked hq
    simpa [Chan.step, Chan.mapLink] using hl

end Chan.Ok

end Ccctl.Server
