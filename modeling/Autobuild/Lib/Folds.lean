/-
# Folds over a log

* A latch is a flag of the state that a step only ever raises (`latch_foldl`).
* `Latest`: an item of some kind after which every item is quiet.  What a fold keeps until it is
  replaced or withdrawn is the latest of its kind, and `latest_snoc` is the step of the proof.
-/
import Mathlib.Data.List.Basic

namespace Autobuild.Folds

/-! ## 1. Latches -/

section Latch

variable {σ α : Type*} {step : σ → α → σ}

/-- **A flag that one step raises exactly at some items is up after exactly the runs that met
one of them**, or had it up to begin with. -/
theorem latch_foldl (flag : σ → Bool) {raises : α → Bool}
    (h : ∀ s a, flag (step s a) = (raises a || flag s)) :
    ∀ (items : List α) (s : σ), flag (items.foldl step s) = (items.any raises || flag s)
  | [], _ => rfl
  | a :: rest, s => by
    rw [List.foldl_cons, latch_foldl flag h rest, h, List.any_cons]
    cases raises a <;> cases rest.any raises <;> rfl

end Latch

/-! ## 2. The latest of a kind -/

section Latest

variable {α : Type*} {kind : List α → α → Prop} {quiet : α → Prop} {items : List α} {a : α}

/-- An item of the kind, given what came before it, with only quiet items after it. -/
def Latest (kind : List α → α → Prop) (quiet : α → Prop) (items : List α) : Prop :=
  ∃ before a after, items = before ++ a :: after ∧ kind before a ∧ ∀ x ∈ after, quiet x

theorem not_latest_nil : ¬Latest kind quiet [] := by
  rintro ⟨before, a, after, h, -⟩
  cases before <;> cases h

/-- **One more item is the latest itself, or quiet.** -/
theorem latest_snoc :
    Latest kind quiet (items ++ [a]) ↔ kind items a ∨ (quiet a ∧ Latest kind quiet items) := by
  constructor
  · rintro ⟨before, b, after, h, hb, hq⟩
    rcases List.eq_nil_or_concat after with rfl | ⟨init, last, rfl⟩
    · obtain ⟨rfl, hlast⟩ := List.append_inj' h rfl
      cases hlast
      exact Or.inl hb
    · have hsplit : items ++ [a] = (before ++ b :: init) ++ [last] := by simpa using h
      obtain ⟨rfl, hlast⟩ := List.append_inj' hsplit rfl
      cases hlast
      exact Or.inr ⟨hq a (by simp), before, b, init, rfl, hb,
        fun x hx => hq x (by simp [hx])⟩
  · rintro (hk | ⟨hq, before, b, after, rfl, hb, hall⟩)
    · exact ⟨items, a, [], rfl, hk, fun x hx => absurd hx List.not_mem_nil⟩
    · refine ⟨before, b, after ++ [a], by simp, hb, fun x hx => ?_⟩
      rcases List.mem_append.mp hx with hx | hx
      · exact hall x hx
      · exact List.mem_singleton.mp hx ▸ hq

end Latest

end Autobuild.Folds
