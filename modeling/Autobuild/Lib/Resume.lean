/-
# Programs that are run again

A program is a list of steps.  If every prefix of it may be run twice, a run that was interrupted
after any prefix is made up by running the whole program again.

* `exec_resume`: the rule.
* `exec_hom`: a component of the state by itself.
* `overwrite_again`, `ensure_again`: two kinds of steps whose prefixes may be run twice, the last
  write of a value and the addition of what is missing.
-/
import Mathlib.Data.List.Induction

namespace Autobuild.Resume

universe u v w

variable {σ : Type u} {α : Type v} {ω : Type w}

def exec (run : ω → σ → σ) (program : List ω) (state : σ) : σ :=
  program.foldl (fun state step => run step state) state

theorem exec_append (run : ω → σ → σ) (first second : List ω) (state : σ) :
    exec run (first ++ second) state = exec run second (exec run first state) :=
  List.foldl_append

/-- A component of the state that each step acts on by itself. -/
theorem exec_hom {τ : Type v} {run : ω → σ → σ} {run' : ω → τ → τ} (component : σ → τ)
    (h : ∀ step state, component (run step state) = run' step (component state))
    (program : List ω) (state : σ) :
    component (exec run program state) = exec run' program (component state) := by
  induction program generalizing state with
  | nil => rfl
  | cons step program ih => exact (ih (run step state)).trans (by rw [h]; rfl)

/-- **An interrupted program is made up for** by running it again. -/
theorem exec_resume {run : ω → σ → σ} {program : List ω}
    (h : ∀ first, first <+: program → ∀ state,
      exec run first (exec run first state) = exec run first state) (count : Nat) (state : σ) :
    exec run program (exec run (program.take count) state) = exec run program state := by
  have hsplit := List.take_append_drop count program
  have htwice := h (program.take count) (List.take_prefix ..) state
  calc exec run program (exec run (program.take count) state)
      = exec run (program.take count ++ program.drop count)
          (exec run (program.take count) state) := by rw [hsplit]
    _ = exec run (program.drop count) (exec run (program.take count) state) := by
        rw [exec_append, htwice]
    _ = exec run program state := by rw [← exec_append, hsplit]

/-- Steps that set a value or leave it. -/
def overwrite (written : ω → Option α) (program : List ω) (value : α) : α :=
  program.foldl (fun value step => (written step).getD value) value

theorem overwrite_again (written : ω → Option α) (program : List ω) (value : α) :
    overwrite written program (overwrite written program value)
      = overwrite written program value := by
  suffices h : ∀ other, overwrite written program (overwrite written program other)
      = overwrite written program other from h value
  induction program using List.reverseRecOn with
  | nil => exact fun _ => rfl
  | append_singleton program step ih =>
    intro other
    unfold overwrite at *
    rw [List.foldl_append, List.foldl_append]
    cases hstep : written step with
    | some value => simp only [List.foldl_cons, List.foldl_nil, hstep, Option.getD_some]
    | none =>
      simp only [List.foldl_cons, List.foldl_nil, hstep, Option.getD_none]
      exact ih other

variable [DecidableEq α]

/-- A step that adds a value where it is missing. -/
def ensureStep (wanted : ω → Option α) (step : ω) (values : List α) : List α :=
  match wanted step with
  | none => values
  | some value => if value ∈ values then values else values ++ [value]

def ensure (wanted : ω → Option α) (program : List ω) (values : List α) : List α :=
  exec (ensureStep wanted) program values

theorem mem_ensure_of_mem (wanted : ω → Option α) {program : List ω} {values : List α} {value : α}
    (h : value ∈ values) : value ∈ ensure wanted program values := by
  induction program generalizing values with
  | nil => exact h
  | cons step program ih =>
    change value ∈ ensure wanted program (ensureStep wanted step values)
    refine ih ?_
    unfold ensureStep
    cases wanted step with
    | none => exact h
    | some other =>
      dsimp only
      split_ifs
      · exact h
      · exact List.mem_append_left _ h

/-- What is wanted is there in the end. -/
theorem mem_ensure (wanted : ω → Option α) {program : List ω} {step : ω} {value : α}
    (hstep : step ∈ program) (hvalue : wanted step = some value) (values : List α) :
    value ∈ ensure wanted program values := by
  induction program generalizing values with
  | nil => exact absurd hstep List.not_mem_nil
  | cons first program ih =>
    rcases List.mem_cons.mp hstep with rfl | hstep
    · change value ∈ ensure wanted program (ensureStep wanted step values)
      refine mem_ensure_of_mem wanted ?_
      simp only [ensureStep, hvalue]
      split_ifs with hmem
      · exact hmem
      · exact List.mem_append_right _ (List.mem_singleton_self _)
    · exact ih hstep _

theorem ensure_of_forall_mem (wanted : ω → Option α) {program : List ω} {values : List α}
    (h : ∀ step ∈ program, ∀ value, wanted step = some value → value ∈ values) :
    ensure wanted program values = values := by
  induction program with
  | nil => rfl
  | cons step program ih =>
    have hrest := ih fun other ho => h other (List.mem_cons_of_mem _ ho)
    have hstep : ensureStep wanted step values = values := by
      unfold ensureStep
      cases hvalue : wanted step with
      | none => rfl
      | some value => exact if_pos (h step List.mem_cons_self value hvalue)
    calc ensure wanted (step :: program) values
        = ensure wanted program (ensureStep wanted step values) := rfl
      _ = values := by rw [hstep, hrest]

theorem ensure_again (wanted : ω → Option α) (program : List ω) (values : List α) :
    ensure wanted program (ensure wanted program values) = ensure wanted program values :=
  ensure_of_forall_mem wanted fun _ hstep _ hvalue => mem_ensure wanted hstep hvalue values

end Autobuild.Resume
