import Ccctl.Server.SessionWatch
/-
  Ccctl.Server.Convergence — status reports delivered in any order, any number of times.

  A worker's report comes on two legs: the `PUT …/worker` body carries its status, the
  `worker/events` frame its status and detail. `Delivered` is the history of one session under its
  present epoch: every stamped report let through the epoch gate, on either leg. In a run where two
  reports of one number never disagree, the row shows the report of the highest number,
  whatever order they came in (`Delivered.Inv`).

  The detail shown is the normalized line of that report if the normalizer leaves that line as it is, and
  never otherwise: every further frame of the report sends the line through it again. A line with a
  format point in it (two halves of a pair that a dropped point kept apart) does not survive, so
  `converges_iff` is exact.
-/

namespace Ccctl.Server

open Ccctl.Core Ccctl.Lib

/-! ## A refused frame -/

/-- A frame refused as stale is not relayed and changes nothing. -/
theorem refused_step {s : ServerState} {e : Event} {id : SessionId} {r : Report} {link : Link}
    (hok : (chan s id).Ok true) (h : observe s e id = .report r) (hlink : (chan s id).link = some link)
    (href : r.refused link = true) : step s e = s := by
  obtain ⟨row, hrow, -⟩ := hok.linked (by simp [hlink])
  obtain ⟨rec, hrec, hrefused, -⟩ := report_turn h hrow
  rw [link_of_current hrec, Option.some.injEq] at hlink
  subst hlink
  exact hrefused href

/-! ## The reports of an epoch -/

/-- The status an activity comes from. -/
def activityStatus : SessionActivity → WorkerStatus
  | .running => .running
  | .requiresAction _ => .requiresAction
  | .idle => .idle

/-- A stamped report as one of its legs brought it. -/
structure Delivery where
  sequence : Nat
  status : WorkerStatus
  detail : Option JsString
  deriving DecidableEq, Repr

/-- The normalized form of a detail, when it has one. -/
def Delivery.line (d : Delivery) : Option JsString := displayableDetail d.detail MAX_REQUIRES_ACTION_DETAIL_LENGTH

/-- Two legs of one report: the same status, and the same detail where both carry one. -/
def Delivery.Same (d d' : Delivery) : Prop :=
  d.status = d'.status ∧ (d.detail = none ∨ d'.detail = none ∨ d.detail = d'.detail)

instance (d d' : Delivery) : Decidable (Delivery.Same d d') := by
  unfold Delivery.Same
  infer_instance

namespace Delivered

/-- The stamped reports under the present epoch, oldest first. -/
def see (c : Chan) (act : Act) (_ : Chan) (ds : List Delivery) : List Delivery :=
  match act, c.link with
  | .registered, _ | .ended, _ => []
  | .report r, some _ =>
    match r.sequence with
    | some n => ds ++ [⟨n, r.status, r.detail⟩]
    | none => ds
  | _, _ => ds

/-- A report is stamped, and is the one already delivered under its number, if any was. -/
def Stamped (act : Act) (ds : List Delivery) : Prop :=
  ∀ r ∈ act.asReport, ∃ n ∈ r.sequence, ∀ d ∈ ds, d.sequence = n → Delivery.Same d ⟨n, r.status, r.detail⟩

instance (act : Act) (ds : List Delivery) : Decidable (Stamped act ds) := by
  unfold Stamped
  infer_instance

/-- A report of the highest number delivered. -/
def Top (ds : List Delivery) (d : Delivery) : Prop := d ∈ ds ∧ ∀ d' ∈ ds, d'.sequence ≤ d.sequence

/-- What the row shows of the report: its status, and its line, or what repeated normalization made of it. -/
def Shown (d : Delivery) (activity : SessionActivity) : Prop :=
  activityStatus activity = d.status ∧ ∀ line, d.status = .requiresAction → d.line = some line →
    ∃ shown, activity = .requiresAction shown ∧ (FormatFree line → shown = line) ∧ (¬ FormatFree line → Worn line shown)

structure Inv (c : Chan) (ds : List Delivery) : Prop where
  linked : ds ≠ [] → c.link ≠ none
  bounded : ∀ link, c.link = some link → ∀ d ∈ ds, ∃ h, link.highest = some h ∧ d.sequence ≤ h
  reached : ∀ link h, c.link = some link → link.highest = some h → ∃ d ∈ ds, d.sequence = h
  shown : ∀ d, Top ds d → ∃ row, c.row = some row ∧ Shown d row.activity

theorem Inv.nil {c : Chan} (h : ∀ link, c.link = some link → link.highest = none) : Inv c [] where
  linked hne := absurd rfl hne
  bounded _ _ d hd := by cases hd
  reached link n hlink hn := by
    rw [h link hlink] at hn
    cases hn
  shown d hd := by cases hd.1

theorem Inv.empty {c : Chan} {ds : List Delivery} (h : Inv c ds) (hl : c.link = none) : ds = [] := by
  by_contra hne
  exact h.linked hne hl

theorem Inv.quiet {c : Chan} {act : Act} {ds : List Delivery} (h : Inv c ds) (hkeeps : act.keeps = true) :
    Inv (c.step act) ds where
  linked hne hnone := by
    refine h.linked hne (Chan.step_linked ?_ hnone)
    intro heq
    subst heq
    cases hkeeps
  bounded link hlink d hd := by
    obtain ⟨link₀, hl₀, -, hmark⟩ := Chan.kept_link hkeeps hlink
    rw [hmark]
    exact h.bounded link₀ hl₀ d hd
  reached link n hlink hn := by
    obtain ⟨link₀, hl₀, -, hmark⟩ := Chan.kept_link hkeeps hlink
    rw [hmark] at hn
    exact h.reached link₀ n hl₀ hn
  shown d hd := by
    obtain ⟨row, hrow, hshown⟩ := h.shown d hd
    obtain ⟨row', hrow', hact⟩ := Chan.kept_row hkeeps hrow
    exact ⟨row', hrow', by rwa [hact]⟩

/-- A normalized line is shown as it is when it has no format point, and never when it has one. -/
theorem shown_line {line : JsString} {detail : Option JsString}
    (h : displayableDetail detail MAX_REQUIRES_ACTION_DETAIL_LENGTH = some line) :
    (FormatFree line → requiresActionDetail (some line) = line) ∧
      (¬ FormatFree line → Worn line (requiresActionDetail (some line))) := by
  refine ⟨?_, worn_once⟩
  intro hfree
  exact requiresActionDetail_of_fixed (displayableDetail_of_formatFree (displayableDetail_tidy (by decide) h) hfree)

/-- The report itself, as the row shows it once it is applied. -/
theorem shown_applied (row : Session) (r : Report) (n : Nat) :
    Shown ⟨n, r.status, r.detail⟩ (r.row row).activity := by
  refine ⟨?_, ?_⟩
  · simp only [Report.row, applyWorkerStatus]
    cases r.status <;> rfl
  · intro line hra hline
    have hline' : displayableDetail r.detail MAX_REQUIRES_ACTION_DETAIL_LENGTH = some line := hline
    have hra' : r.status = .requiresAction := hra
    refine ⟨requiresActionDetail (some line), ?_, shown_line hline'⟩
    simp [Report.row, applyWorkerStatus, hline', hra', sessionActivityFromStatus]

/-- What the row showed of a report, after another leg of it is applied. -/
theorem Shown.again {d : Delivery} {row : Session} (h : Shown d row.activity) {r : Report} {n : Nat}
    (hsame : Delivery.Same d ⟨n, r.status, r.detail⟩) : Shown d (r.row row).activity := by
  have hnew := shown_applied row r n
  refine ⟨hnew.1.trans hsame.1.symm, ?_⟩
  intro line hra hline
  have hra' : r.status = .requiresAction := hsame.1.symm.trans hra
  cases hr : displayableDetail r.detail MAX_REQUIRES_ACTION_DETAIL_LENGTH with
  | some line' =>
    -- both legs carry the detail, so they carry the same
    have hdetail : d.detail = r.detail := by
      rcases hsame.2 with hnone | hnone | heq
      · rw [Delivery.line, hnone] at hline
        cases hline
      · have hnone' : r.detail = none := hnone
        rw [hnone'] at hr
        cases hr
      · exact heq
    rw [Delivery.line, hdetail, hr, Option.some.injEq] at hline
    subst hline
    exact hnew.2 line' hra' hr
  | none =>
    obtain ⟨shown, hact, hfree, hworn⟩ := h.2 line hra hline
    have hkept : (r.row row).activity = .requiresAction (requiresActionDetail (some shown)) := by
      simp [Report.row, applyWorkerStatus, hr, hra', capturedRequiresActionDetail, hact, sessionActivityFromStatus]
    refine ⟨_, hkept, ?_, fun hf => (hworn hf).again⟩
    intro hf
    rw [hfree hf]
    exact (shown_line hline).1 hf

/-- A report that is let through is at the top. -/
theorem Inv.applied {c : Chan} {ds : List Delivery} {r : Report} {n : Nat} {row : Session} {link : Link} (h : Inv c ds)
    (hrow : c.row = some row) (hlink : c.link = some link) (href : r.refused link = false) (hn : r.sequence = some n)
    (hsame : ∀ d ∈ ds, d.sequence = n → Delivery.Same d ⟨n, r.status, r.detail⟩) :
    Inv (c.step (.report r)) (ds ++ [⟨n, r.status, r.detail⟩]) := by
  have hstep := Chan.step_reported hrow hlink href
  obtain ⟨hmark, hbelow⟩ := advanced_fresh href hn
  have hle : ∀ d ∈ ds, d.sequence ≤ n := by
    intro d hd
    obtain ⟨m, hm, hdm⟩ := h.bounded link hlink d hd
    exact hdm.trans (hbelow m hm)
  have hhighest : ∀ link', (c.step (.report r)).link = some link' → link'.highest = some n := by
    intro link' hl'
    rw [hstep] at hl'
    cases hl'
    exact hmark
  refine ⟨?_, fun link' hl' d hd => ⟨n, hhighest link' hl', ?_⟩, ?_, ?_⟩
  · intro _ hnone
    rw [hstep] at hnone
    cases hnone
  · rcases List.mem_append.mp hd with hold | hnew
    · exact hle d hold
    · rw [List.mem_singleton.mp hnew]
  · intro link' m hl' hm
    rw [hhighest link' hl', Option.some.injEq] at hm
    exact ⟨_, List.mem_append_right _ (List.mem_singleton.mpr rfl), hm⟩
  · intro d hd
    refine ⟨r.row row, by rw [hstep]; rfl, ?_⟩
    rcases List.mem_append.mp hd.1 with hold | hnew
    · -- another leg of the same report
      have htop : n ≤ d.sequence := hd.2 _ (List.mem_append_right _ (List.mem_singleton.mpr rfl))
      have heq : d.sequence = n := Nat.le_antisymm (hle d hold) htop
      obtain ⟨row₀, hr₀, hshown⟩ := h.shown d ⟨hold, fun d' hd' => heq ▸ hle d' hd'⟩
      rw [hrow, Option.some.injEq] at hr₀
      subst hr₀
      exact hshown.again (hsame d hold heq)
    · rw [List.mem_singleton.mp hnew]
      exact shown_applied row r n

/-- A refused report is below the top. -/
theorem Inv.refused {c : Chan} {ds : List Delivery} {r : Report} {n : Nat} {link : Link} (h : Inv c ds)
    (hlink : c.link = some link) (href : r.refused link = true) (hn : r.sequence = some n) :
    Inv c (ds ++ [⟨n, r.status, r.detail⟩]) := by
  obtain ⟨n', m, hn', hm, hlt⟩ := isStale_iff.mp href
  rw [hn, Option.some.injEq] at hn'
  subst hn'
  obtain ⟨top, htop, hm'⟩ := h.reached link m hlink hm
  refine ⟨fun _ => by simp [hlink], ?_, ?_, ?_⟩
  · intro link' hl' d hd
    rcases List.mem_append.mp hd with hold | hnew
    · exact h.bounded link' hl' d hold
    · rw [hlink, Option.some.injEq] at hl'
      subst hl'
      rw [List.mem_singleton.mp hnew]
      exact ⟨m, hm, Nat.le_of_lt hlt⟩
  · intro link' k hl' hk
    obtain ⟨d, hd, hdk⟩ := h.reached link' k hl' hk
    exact ⟨d, List.mem_append_left _ hd, hdk⟩
  · intro d hd
    have hge := hd.2 top (List.mem_append_left _ htop)
    rcases List.mem_append.mp hd.1 with hold | hnew
    · exact h.shown d ⟨hold, fun d' hd' => hd.2 d' (List.mem_append_left _ hd')⟩
    · rw [List.mem_singleton.mp hnew] at hge
      simp only [hm'] at hge
      omega

theorem Inv.step {c : Chan} {act : Act} {ds : List Delivery} (h : Inv c ds) (hok : Stamped act ds) (he : act.Enabled c)
    (hb : act.births = true → c = .blank) (hc : c.Ok true) : Inv (c.step act) (see c act (c.step act) ds) := by
  have hunlinked : ∀ {c' : Chan}, c.link = none → c'.link = none → Inv c' ds := by
    intro c' hl hl'
    rw [h.empty hl]
    refine .nil fun link hlink => ?_
    rw [hl'] at hlink
    cases hlink
  cases act with
  | created row => exact hunlinked (by rw [hb rfl]; rfl) (by rw [hb rfl]; rfl)
  | placed row => exact hunlinked (by rw [hb rfl]; rfl) (by rw [hb rfl]; rfl)
  | claimed row => exact hunlinked (hc.no_link he.1) (hc.no_link he.1)
  | dropped => exact hunlinked (hc.no_link he) (hc.no_link he)
  | ended => exact .nil fun link hlink => by cases hlink
  | registered =>
    refine .nil fun link hlink => ?_
    cases hlink
    rfl
  | other | streamOpened | streamClosed | beat _ | asked _ | answered _ | steered | idleFired _ _ _ | halted =>
    exact h.quiet rfl
  | report r =>
    cases hlink : c.link with
    | none => exact absurd hlink he.1
    | some link =>
      obtain ⟨n, hn, hsame⟩ := hok r rfl
      rw [Option.mem_def] at hn
      have hsee : see c (.report r) (c.step (.report r)) ds = ds ++ [⟨n, r.status, r.detail⟩] := by
        simp [see, hlink, hn]
      rw [hsee]
      obtain ⟨row, hrow, -⟩ := hc.linked (by simp [hlink])
      by_cases href : r.refused link = true
      · rw [Chan.step_refused hlink href]
        exact h.refused hlink href hn
      · rw [Bool.not_eq_true] at href
        exact h.applied hrow hlink href hn hsame

end Delivered

/-! ## What they converge to -/

/-- The server watched for the reports delivered to `id`, each stamped and the same under one number. -/
abbrev DeliveryRun (id : SessionId) : ServerState × List Delivery → Prop :=
  SessionRun id Delivered.see [] fun p e => Delivered.Stamped (observe p.1 e id) p.2

/-- The reports delivered under the present epoch have converged, and go on to. -/
structure Converges (s : ServerState) (id : SessionId) (ds : List Delivery) : Prop where
  /-- The activity is that of the report of the highest number. -/
  activity : ∀ d, Delivered.Top ds d → ∃ row, s.sessions.get id = some row ∧ activityStatus row.activity = d.status
  /-- The detail is the normalized form of that report's. -/
  detail : ∀ d line, Delivered.Top ds d → d.status = .requiresAction → d.line = some line →
    ∃ row, s.sessions.get id = some row ∧ row.activity = .requiresAction line
  /-- The applied sequence never decreases under an epoch. -/
  monotone : ∀ e link link' n, (chan s id).link = some link → (chan (step s e) id).link = some link' →
    link'.epoch = link.epoch → link.highest = some n → ∃ n', link'.highest = some n' ∧ n ≤ n'
  /-- A frame refused as stale leaves the row as it is and is broadcast to nobody. -/
  stale : ∀ e r link, observe s e id = .report r → (chan s id).link = some link → r.refused link = true →
    (step s e).sessions.get id = s.sessions.get id ∧ (step s e).out = s.out

/-- The normalized line of a report of the highest number has no format point left in it. -/
def LineFormatFree (ds : List Delivery) : Prop :=
  ∀ d line, Delivered.Top ds d → d.status = .requiresAction → d.line = some line → FormatFree line

theorem converges_iff {id : SessionId} {p : ServerState × List Delivery} (h : DeliveryRun id p) :
    Converges p.1 id p.2 ↔ LineFormatFree p.2 := by
  have hinv : Delivered.Inv (chan p.1 id) p.2 := by
    refine h.inv (I := Delivered.Inv) (fun act _ _ => ?_) (fun c hc => .nil fun link hlink => ?_)
      fun q e hok hborn he hc hi => hi.step hok he (fun hb => (hborn hb).1) hc
    · cases act <;> rfl
    · rw [hc.2.1] at hlink
      cases hlink
  have hg := h.reachable.grounded
  constructor
  · intro hconv d line htop hra hline
    by_contra hfree
    obtain ⟨row, hrow, hact⟩ := hconv.detail d line htop hra hline
    obtain ⟨row', hrow', hshown⟩ := hinv.shown d htop
    obtain ⟨shown, hact', -, hworn⟩ := hshown.2 line hra hline
    obtain rfl : row = row' := Option.some.inj (hrow.symm.trans hrow')
    obtain rfl : line = shown := SessionActivity.requiresAction.inj (hact.symm.trans hact')
    exact (hworn hfree).ne hfree rfl
  · intro hfree
    refine ⟨fun d htop => ?_, fun d line htop hra hline => ?_, fun e link link' n hl hl' hepoch hn => ?_,
      fun e r link hact hl href => ?_⟩
    · obtain ⟨row, hrow, hshown⟩ := hinv.shown d htop
      exact ⟨row, hrow, hshown.1⟩
    · obtain ⟨row, hrow, hshown⟩ := hinv.shown d htop
      obtain ⟨shown, hact, hsame, -⟩ := hshown.2 line hra hline
      exact ⟨row, hrow, by rw [hact, hsame (hfree d line htop hra hline)]⟩
    · rw [chan_step hg.timers hg.ok e id] at hl'
      by_cases hreg : observe p.1 e id = .registered
      · -- a registration moves to the next epoch
        rw [hreg] at hl'
        cases hl'
        simp [freshLink, hl] at hepoch
      · obtain ⟨link₀, hl₀, -, hmark⟩ := Chan.step_link hreg hl'
        rw [hl, Option.some.injEq] at hl₀
        subst hl₀
        exact hmark n hn
    · rw [refused_step (hg.ok id).weaken hact hl href]
      exact ⟨rfl, rfl⟩

/-- The second report on both legs, the second leg twice, and the first report last. -/
def reordered : List Event :=
  [.sessionCreate none (js "/w") .default, .workerRegister 0,
    .workerEvent 0 (some (.num 1)) (statusEntry "requires_action" 2 (js "Run it?")),
    .workerStatus 0 (statusBody 1 "requires_action" 2), .workerStatus 0 (statusBody 1 "running" 1),
    .workerStatus 0 (statusBody 1 "requires_action" 2)]

theorem converges_iff_reordered :
    let p := runFrom (watched step (sessionWatch 0 Delivered.see)) (freshServer, []) reordered
    p.2 = [⟨2, .requiresAction, some (js "Run it?")⟩, ⟨2, .requiresAction, none⟩, ⟨1, .running, none⟩,
      ⟨2, .requiresAction, none⟩] ∧ (Converges p.1 0 p.2 ↔ LineFormatFree p.2) :=
  ⟨by decide, converges_iff ((Reach.start ⟨freshServer_booted, rfl⟩).run_allowed (by decide))⟩

/-- A pair of halves with a zero-width space between them. -/
def splitPair : JsString := [0x41, 0xDB40, 0x200B, 0xDC01, 0x42]

/-- Normalizing the detail joins the halves to a format point, which the second pass drops. -/
theorem detail_lost :
    ((runFrom step freshServer [.sessionCreate none (js "/w") .default, .workerRegister 0,
      .workerEvent 0 (some (.num 1)) (statusEntry "requires_action" 1 splitPair)]).sessions.get 0).map (·.activity) =
        some (.requiresAction (js "AB")) ∧
      displayableDetail (some splitPair) MAX_REQUIRES_ACTION_DETAIL_LENGTH = some [0x41, 0xDB40, 0xDC01, 0x42] := by
  decide

end Ccctl.Server
