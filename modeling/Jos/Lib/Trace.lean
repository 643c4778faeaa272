import Mathlib.Tactic.Common

/-!
# Runs that are labelled by events

A `Trace step s evs s'` goes from `s` to `s'` by one step for each of the events `evs`.  Where each
step of one system is a step of another one under an abstraction, so is each trace.
-/

/-- A run from one state to another, with the events of its steps. -/
inductive Trace {ε σ : Type} (step : ε → σ → σ → Prop) : σ → List ε → σ → Prop where
  | nil (s : σ) : Trace step s [] s
  | cons {s s' s'' : σ} {ev : ε} {evs : List ε} :
      step ev s s' → Trace step s' evs s'' → Trace step s (ev :: evs) s''

namespace Trace

variable {ε σ τ : Type} {step : ε → σ → σ → Prop} {step' : ε → τ → τ → Prop} {s s' s'' : σ}
  {evs evs' : List ε}

/-- What every step keeps is kept by a run. -/
theorem keeps {I : σ → Prop} (hstep : ∀ ev s s', I s → step ev s s' → I s')
    (hrun : Trace step s evs s') (h : I s) :
  I s'
  := by
  induction hrun with
  | nil => exact h
  | cons hfirst _ ih => exact ih (hstep _ _ _ h hfirst)

/-- A run is matched step by step. -/
theorem simulates {I : σ → Prop} (abs : σ → τ)
    (hstep : ∀ ev s s', I s → step ev s s' → I s' ∧ step' ev (abs s) (abs s'))
    (hrun : Trace step s evs s') (h : I s) :
  I s' ∧ Trace step' (abs s) evs (abs s')
  := by
  induction hrun with
  | nil => exact ⟨h, nil _⟩
  | cons hfirst _ ih =>
      obtain ⟨hI, habs⟩ := hstep _ _ _ h hfirst
      obtain ⟨hlast, hrest⟩ := ih hI
      exact ⟨hlast, cons habs hrest⟩

/-- A run is matched step by step, where the states are related. -/
theorem matched {R : σ → τ → Prop}
    (hstep : ∀ ev s s' t, R s t → step ev s s' → ∃ t', step' ev t t' ∧ R s' t') {t : τ}
    (hrun : Trace step s evs s') (h : R s t) :
  ∃ t', Trace step' t evs t' ∧ R s' t'
  := by
  induction hrun generalizing t with
  | nil => exact ⟨t, nil t, h⟩
  | cons hfirst _ ih =>
      obtain ⟨t₁, hfirst', h₁⟩ := hstep _ _ _ _ h hfirst
      obtain ⟨t', hrest, h'⟩ := ih h₁
      exact ⟨t', cons hfirst' hrest, h'⟩

end Trace
