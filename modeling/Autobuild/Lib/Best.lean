/-
# The best of a list

A loop that keeps the best element so far, taking a later one only when it is strictly better.
Where the elements are ranked apart, what it ends with does not depend on the order of the list.
-/
import Mathlib.Data.List.Induction
import Mathlib.Data.List.Sort
import Mathlib.Order.Lattice

universe u v

variable {α : Type u} {β : Type v}

/-- A later element replaces the best one only when it is better. -/
def pickBetter (better : α → α → Bool) (best : Option α) (x : α) : Option α :=
  match best with
  | none => some x
  | some b => if better x b then some x else some b

def bestOf (better : α → α → Bool) (xs : List α) : Option α := xs.foldl (pickBetter better) none

theorem bestOf_snoc (better : α → α → Bool) (xs : List α) (x : α) :
    bestOf better (xs ++ [x]) = pickBetter better (bestOf better xs) x := by
  unfold bestOf
  rw [List.foldl_append, List.foldl_cons, List.foldl_nil]

theorem bestOf_eq_none {better : α → α → Bool} {xs : List α} (h : bestOf better xs = none) :
    xs = [] := by
  induction xs using List.reverseRecOn with
  | nil => rfl
  | append_singleton xs x ih =>
    rw [bestOf_snoc] at h
    unfold pickBetter at h
    split at h
    · exact absurd h nofun
    · split at h <;> exact absurd h nofun

section Ranked

variable [LinearOrder β] {better : α → α → Bool} {rank : α → β}
  (hrank : ∀ x y, better x y = true ↔ rank x < rank y)

include hrank

/-- The best element is one of the list, and none is better. -/
theorem bestOf_spec {xs : List α} {b : α} (h : bestOf better xs = some b) :
    b ∈ xs ∧ ∀ x ∈ xs, rank b ≤ rank x := by
  induction xs using List.reverseRecOn generalizing b with
  | nil => exact absurd h nofun
  | append_singleton xs x ih =>
    rw [bestOf_snoc] at h
    unfold pickBetter at h
    split at h
    · rename_i hnone
      rw [bestOf_eq_none hnone, ← Option.some.inj h]
      exact ⟨List.mem_cons_self, fun y hy => (congrArg rank (List.mem_singleton.mp hy)).ge⟩
    · rename_i best hbest
      obtain ⟨hm, hle⟩ := ih hbest
      split at h
      · rename_i hbetter
        rw [← Option.some.inj h]
        refine ⟨List.mem_append_right _ List.mem_cons_self, fun y hy => ?_⟩
        rcases List.mem_append.mp hy with hy | hy
        · exact ((hrank x best).mp hbetter).le.trans (hle y hy)
        · exact (congrArg rank (List.mem_singleton.mp hy)).ge
      · rename_i hworse
        rw [← Option.some.inj h]
        refine ⟨List.mem_append_left _ hm, fun y hy => ?_⟩
        rcases List.mem_append.mp hy with hy | hy
        · exact hle y hy
        · rw [List.mem_singleton.mp hy]
          exact not_lt.mp fun hlt => hworse ((hrank x best).mpr hlt)

/-- **The best element does not depend on the order**, where no two are ranked alike. -/
theorem bestOf_perm {xs ys : List α} (hp : xs.Perm ys)
    (hinj : ∀ x ∈ xs, ∀ y ∈ xs, rank x = rank y → x = y) : bestOf better xs = bestOf better ys := by
  cases hx : bestOf better xs with
  | none =>
    have hnil := bestOf_eq_none hx
    rw [hnil] at hp
    have hys : ys = [] := hp.nil_eq.symm
    rw [hys]
    rfl
  | some b =>
    cases hy : bestOf better ys with
    | none =>
      have hnil := bestOf_eq_none hy
      rw [hnil] at hp
      rw [hp.eq_nil] at hx
      exact absurd hx nofun
    | some c =>
      obtain ⟨hb, hble⟩ := bestOf_spec hrank hx
      obtain ⟨hc, hcle⟩ := bestOf_spec hrank hy
      have hcx := hp.mem_iff.mpr hc
      exact congrArg some (hinj b hb c hcx (le_antisymm (hble c hcx) (hcle b (hp.mem_iff.mp hb))))

end Ranked

/-- A sorted list does not depend on the order it is sorted from, if no two elements are level. -/
theorem insertionSort_eq_of_perm {r : α → α → Prop} [DecidableRel r] [Std.Total r] [IsTrans α r]
    {xs ys : List α} (hp : xs.Perm ys)
    (hinj : ∀ x ∈ xs, ∀ y ∈ xs, r x y → r y x → x = y) :
    xs.insertionSort r = ys.insertionSort r := by
  have hsorted : (xs.insertionSort r).Perm (ys.insertionSort r) :=
    ((List.perm_insertionSort r xs).trans hp).trans (List.perm_insertionSort r ys).symm
  refine List.Perm.eq_of_pairwise ?_ (List.pairwise_insertionSort r xs)
    (List.pairwise_insertionSort r ys) hsorted
  intro a b ha hb hab hba
  exact hinj a ((List.perm_insertionSort r xs).mem_iff.mp ha) b
    (hp.mem_iff.mpr ((List.perm_insertionSort r ys).mem_iff.mp hb)) hab hba
