/-
  Ccctl.Lib.Reach — the runs of a machine whose choices are all in its events.

  `step` is total: an event that is not enabled leaves the state as it is. `ok` is what a run's
  events must meet in the state they arrive in; a run without a condition takes `anyEvent`.

  The rules: an invariant of the start states that every allowed event keeps holds of every state
  reached (`Reach.inv`); a run under `ok` is a run under anything weaker (`Reach.mono`). A watch
  carries ghost state beside the machine and never steers it: `watched` runs project onto the
  machine's own (`Reach.machine`), and each of the machine's own runs is one of them (`Reach.shadowed`).
-/

namespace Ccctl.Lib

variable {σ ε μ : Type}

inductive Reach (step : σ → ε → σ) (start : σ → Prop) (ok : σ → ε → Prop) : σ → Prop where
  | start {s : σ} : start s → Reach step start ok s
  | step {s : σ} (e : ε) : Reach step start ok s → ok s e → Reach step start ok (step s e)

def anyEvent : σ → ε → Prop := fun _ _ => True

/-- The machine and a ghost that sees each event in the state it arrives in. -/
def watched (step : σ → ε → σ) (watch : σ → ε → μ → μ) (p : σ × μ) (e : ε) : σ × μ :=
  (step p.1 e, watch p.1 e p.2)

variable {step : σ → ε → σ} {start : σ → Prop} {ok : σ → ε → Prop} {s : σ}

theorem Reach.inv {P : σ → Prop} (h : Reach step start ok s) (hstart : ∀ s, start s → P s)
    (hstep : ∀ s e, P s → ok s e → P (step s e)) : P s := by
  induction h with
  | start hs => exact hstart _ hs
  | step e _ hok ih => exact hstep _ e ih hok

theorem Reach.mono {ok' : σ → ε → Prop} (h : Reach step start ok s) (hw : ∀ s e, ok s e → ok' s e) :
    Reach step start ok' s := by
  induction h with
  | start hs => exact .start hs
  | step e _ hok ih => exact .step e ih (hw _ _ hok)

theorem Reach.machine {watch : σ → ε → μ → μ} {begin_ : σ × μ → Prop} {allowed : σ × μ → ε → Prop} {p : σ × μ}
    (h : Reach (watched step watch) begin_ allowed p) (hstart : ∀ p, begin_ p → start p.1)
    (hok : ∀ p e, allowed p e → ok p.1 e) : Reach step start ok p.1 := by
  induction h with
  | start hs => exact .start (hstart _ hs)
  | step e _ ha ih => exact .step e ih (hok _ _ ha)

/-- Every run can be watched. -/
theorem Reach.shadowed (watch : σ → ε → μ → μ) (begin_ : μ) (h : Reach step start anyEvent s) :
    ∃ ghost, Reach (watched step watch) (fun p => start p.1 ∧ p.2 = begin_) anyEvent (s, ghost) := by
  induction h with
  | start hs => exact ⟨begin_, .start ⟨hs, rfl⟩⟩
  | @step s e _ _ ih =>
    obtain ⟨ghost, hrun⟩ := ih
    exact ⟨watch s e ghost, .step (s := (s, ghost)) e hrun trivial⟩

/-- Running a list of events. -/
def runFrom (step : σ → ε → σ) (s : σ) (es : List ε) : σ := es.foldl step s

theorem Reach.run {es : List ε} (h : Reach step start anyEvent s) : Reach step start anyEvent (runFrom step s es) := by
  induction es generalizing s with
  | nil => exact h
  | cons e es ih => exact ih (.step e h trivial)

/-- Each event of the list is allowed where it arrives. -/
def allowed (step : σ → ε → σ) (ok : σ → ε → Prop) : σ → List ε → Prop
  | _, [] => True
  | s, e :: es => ok s e ∧ allowed step ok (step s e) es

instance allowed.decide [∀ s e, Decidable (ok s e)] : (s : σ) → (es : List ε) → Decidable (allowed step ok s es)
  | _, [] => .isTrue trivial
  | s, e :: es => @instDecidableAnd (ok s e) (allowed step ok (step s e) es) _ (allowed.decide (step s e) es)

theorem allowed_append {es es' : List ε} (h : allowed step ok s es) (h' : allowed step ok (runFrom step s es) es') :
    allowed step ok s (es ++ es') := by
  induction es generalizing s with
  | nil => exact h'
  | cons e es ih => exact ⟨h.1, ih h.2 h'⟩

theorem runFrom_append (es es' : List ε) : runFrom step s (es ++ es') = runFrom step (runFrom step s es) es' :=
  List.foldl_append

theorem Reach.run_allowed {es : List ε} (h : Reach step start ok s) (hes : allowed step ok s es) :
    Reach step start ok (runFrom step s es) := by
  induction es generalizing s with
  | nil => exact h
  | cons e es ih => exact ih (.step e h hes.1) hes.2

end Ccctl.Lib
