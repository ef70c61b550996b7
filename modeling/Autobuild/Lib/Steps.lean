/-
# Machines that are stepped by actions

A machine is `step : σ → α → Option σ`: an action that cannot happen gives nothing.  `perform` plays
a list of actions, and what it plays is a run (`run_of_perform`).
-/
import Mathlib.Logic.Relation

namespace Autobuild.Steps

variable {σ α : Type*} (step : σ → α → Option σ)

/-- One action, whichever. -/
def Step (s s' : σ) : Prop := ∃ action, step s action = some s'

def Run : σ → σ → Prop := Relation.ReflTransGen (Step step)

def perform : List α → σ → Option σ
  | [], s => some s
  | action :: rest, s => (step s action).bind (perform rest)

variable {step}

theorem run_of_perform {actions : List α} {s s' : σ} (h : perform step actions s = some s') :
    Run step s s' := by
  induction actions generalizing s with
  | nil => exact Option.some.inj h ▸ .refl
  | cons action rest ih =>
    obtain ⟨next, hnext, hrest⟩ := Option.bind_eq_some_iff.mp h
    exact .head ⟨action, hnext⟩ (ih hrest)

/-- What every step keeps, a run keeps. -/
theorem Run.invariant {P : σ → Prop} (hstep : ∀ s s', Step step s s' → P s → P s') {s s' : σ}
    (hrun : Run step s s') (h : P s) : P s' := by
  induction hrun with
  | refl => exact h
  | tail _ hlast ih => exact hstep _ _ hlast ih

end Autobuild.Steps
