/-
# Worklist loops

The loop

    while (pending.length) {
      const x = pending.pop()!
      if (visited.has(x)) continue
      visited.add(x)
      acc = act(acc, x)
      pending.push(...next(x))
    }

over a graph in which only finitely many nodes have successors.  `pending` is a stack, kept
here with its top first.

* `run` is the loop with fuel and `run_isSome` says that the fuel `explore` gives is enough:
  a pop either drops a node that was visited or pays for its successors once.
* `explore_eq_foldl`: the loop is a fold of `act` over a list of nodes, and the nodes are
  exactly those reachable from the starting ones.
-/
import Mathlib.Logic.Relation
import Mathlib.Algebra.Order.Group.Nat
import Mathlib.Algebra.BigOperators.Group.List.Basic
import Mathlib.Algebra.Ring.Nat

universe u v

namespace Worklist

/-- A graph by successor lists, with the finitely many nodes that have successors. -/
structure Graph (α : Type u) where
  next : α → List α
  sources : List α
  mem_sources : ∀ {x y}, y ∈ next x → x ∈ sources

namespace Graph

variable {α : Type u} (g : Graph α)

/-- `y` is a successor of `x`. -/
def Step (x y : α) : Prop := y ∈ g.next x

/-- `x` is reachable from one of the nodes `start`. -/
def Reaches (start : List α) (x : α) : Prop :=
  ∃ s ∈ start, Relation.ReflTransGen g.Step s x

end Graph

variable {α : Type u} {β : Type v} [DecidableEq α]

/-! ## 1. The loop -/

/-- The loop, `none` when the fuel runs out with work left. -/
def run (next : α → List α) (act : β → α → β) : Nat → β → List α → List α → Option β
  | _, acc, _, [] => some acc
  | 0, _, _, _ :: _ => none
  | fuel + 1, acc, visited, x :: pending =>
    if x ∈ visited then run next act fuel acc visited pending
    else run next act fuel (act acc x) (x :: visited) ((next x).reverse ++ pending)

/-- What the nodes not visited yet can still push. -/
def unpaid (g : Graph α) (visited : List α) : Nat :=
  ((g.sources.filter (· ∉ visited)).map (fun x => (g.next x).length)).sum

/-- Visiting a node pays for its successors. -/
theorem unpaid_cons_le (g : Graph α) {visited : List α} {x : α} (hx : x ∉ visited) :
    (g.next x).length + unpaid g (x :: visited) ≤ unpaid g visited := by
  have drop : ∀ xs : List α,
      ((xs.filter (· ∉ x :: visited)).map (fun y => (g.next y).length)).sum
          + (if x ∈ xs then (g.next x).length else 0)
        ≤ ((xs.filter (· ∉ visited)).map (fun y => (g.next y).length)).sum := by
    intro xs
    induction xs with
    | nil => simp
    | cons a xs ih =>
      by_cases hax : a = x
      · subst hax
        simp only [List.mem_cons, true_or, not_true_eq_false, decide_false,
          Bool.false_eq_true, not_false_eq_true, List.filter_cons_of_neg, if_true, hx,
          decide_true, List.filter_cons_of_pos, List.map_cons, List.sum_cons] at ih ⊢
        split at ih <;> omega
      · have hmem : (x ∈ a :: xs) = (x ∈ xs) := by simp [Ne.symm hax]
        by_cases hav : a ∈ visited
        · rw [List.filter_cons_of_neg (by simp [hav]), List.filter_cons_of_neg (by simp [hav])]
          simpa only [hmem] using ih
        · have h1 : a ∉ x :: visited := by simp [hax, hav]
          rw [List.filter_cons_of_pos (by simpa using h1),
            List.filter_cons_of_pos (by simpa using hav)]
          simp only [List.map_cons, List.sum_cons, hmem]
          omega
  by_cases hs : x ∈ g.sources
  · have h := drop g.sources
    rw [if_pos hs] at h
    simp only [unpaid]
    omega
  · have hnil : g.next x = [] := List.eq_nil_iff_forall_not_mem.mpr fun y hy =>
      hs (g.mem_sources hy)
    have h := drop g.sources
    rw [if_neg hs] at h
    simp only [unpaid, hnil, List.length_nil]
    omega

/-- The loop ends: with enough fuel for what is pending and what can still be pushed. -/
theorem run_isSome (g : Graph α) (act : β → α → β) :
    ∀ (fuel : Nat) (acc : β) (visited pending : List α),
      pending.length + unpaid g visited ≤ fuel →
        (run g.next act fuel acc visited pending).isSome = true
  | fuel, acc, visited, [], _ => by cases fuel <;> rfl
  | 0, _, _, _ :: _, h => by simp at h
  | fuel + 1, acc, visited, x :: pending, h => by
    rw [List.length_cons] at h
    rw [run]
    split
    · exact run_isSome g act fuel acc visited pending (by omega)
    · rename_i hx
      refine run_isSome g act fuel _ _ _ ?_
      have hp := unpaid_cons_le g hx
      rw [List.length_append, List.length_reverse]
      omega

/-- The loop from an empty visited set, with the fuel it needs. -/
def explore (g : Graph α) (act : β → α → β) (acc : β) (start : List α) : β :=
  (run g.next act (start.length + unpaid g []) acc [] start).get
    (run_isSome g act _ acc [] start (Nat.le_refl _))

/-! ## 2. What it visits -/

/-- The loop acts on a list of nodes that does not depend on what the action computes. -/
theorem run_eq_foldl (next : α → List α) (act : β → α → β) :
    ∀ (fuel : Nat) (acc : β) (visited pending : List α) (r : β),
      run next act fuel acc visited pending = some r →
        ∃ xs, run next (fun ys y => ys ++ [y]) fuel [] visited pending = some xs ∧
          r = xs.foldl act acc := by
  -- the recorded list is carried along: `ys` are the nodes acted on so far
  have gen : ∀ (fuel : Nat) (acc : β) (ys : List α) (visited pending : List α) (r : β),
      run next act fuel (ys.foldl act acc) visited pending = some r →
        ∃ xs, run next (fun ys y => ys ++ [y]) fuel ys visited pending = some xs ∧
          r = xs.foldl act acc := by
    intro fuel
    induction fuel with
    | zero =>
      rintro acc ys visited (_ | ⟨x, pending⟩) r h
      · exact ⟨ys, rfl, (Option.some.inj h).symm⟩
      · exact absurd h (by simp [run])
    | succ fuel ih =>
      rintro acc ys visited (_ | ⟨x, pending⟩) r h
      · exact ⟨ys, rfl, (Option.some.inj h).symm⟩
      · rw [run] at h ⊢
        by_cases hx : x ∈ visited
        · rw [if_pos hx] at h ⊢
          exact ih acc ys visited pending r h
        · rw [if_neg hx] at h ⊢
          refine ih acc (ys ++ [x]) _ _ r ?_
          rw [List.foldl_append]
          exact h
  intro fuel acc visited pending r h
  exact gen fuel acc [] visited pending r h

/-- The nodes recorded, in terms of those visited before: everything pending is reached, and
what has been reached is closed under successors. -/
theorem run_record_spec (g : Graph α) :
    ∀ (fuel : Nat) (ys visited pending xs : List α),
      run g.next (fun ys y => ys ++ [y]) fuel ys visited pending = some xs →
      (∀ v ∈ visited, v ∈ ys) → (∀ v ∈ ys, v ∈ visited) →
      (∀ v ∈ visited, ∀ y ∈ g.next v, y ∈ visited ∨ y ∈ pending) →
      (∀ x ∈ xs, x ∈ ys ∨ g.Reaches pending x) ∧ (∀ x ∈ ys, x ∈ xs) ∧
        (∀ p ∈ pending, p ∈ xs) ∧ ∀ v ∈ xs, ∀ y ∈ g.next v, y ∈ xs
  | fuel, ys, visited, [], xs, h, hvy, hyv, hcl => by
    have hxs : ys = xs := by
      cases fuel <;> exact Option.some.inj h
    subst hxs
    refine ⟨fun x hx => Or.inl hx, fun x hx => hx, fun p hp => absurd hp (by simp), ?_⟩
    intro v hv y hy
    rcases hcl v (hyv v hv) y hy with hy' | hy'
    · exact hvy y hy'
    · exact absurd hy' (by simp)
  | 0, _, _, _ :: _, _, h, _, _, _ => by simp [run] at h
  | fuel + 1, ys, visited, x :: pending, xs, h, hvy, hyv, hcl => by
    rw [run] at h
    by_cases hx : x ∈ visited
    · rw [if_pos hx] at h
      have hcl' : ∀ v ∈ visited, ∀ y ∈ g.next v, y ∈ visited ∨ y ∈ pending := by
        intro v hv y hy
        rcases hcl v hv y hy with hy' | hy'
        · exact Or.inl hy'
        · rcases List.mem_cons.mp hy' with rfl | hy''
          · exact Or.inl hx
          · exact Or.inr hy''
      obtain ⟨hs, hk, hp, hc⟩ := run_record_spec g fuel ys visited pending xs h hvy hyv hcl'
      refine ⟨?_, hk, ?_, hc⟩
      · intro z hz
        rcases hs z hz with hz' | ⟨s, hsp, hr⟩
        · exact Or.inl hz'
        · exact Or.inr ⟨s, List.mem_cons_of_mem _ hsp, hr⟩
      · intro p hpm
        rcases List.mem_cons.mp hpm with rfl | hpm
        · exact hk _ (hvy _ hx)
        · exact hp p hpm
    · rw [if_neg hx] at h
      have hvy' : ∀ v ∈ x :: visited, v ∈ ys ++ [x] := by
        intro v hv
        rcases List.mem_cons.mp hv with rfl | hv
        · simp
        · exact List.mem_append_left _ (hvy v hv)
      have hyv' : ∀ v ∈ ys ++ [x], v ∈ x :: visited := by
        intro v hv
        rcases List.mem_append.mp hv with hv | hv
        · exact List.mem_cons_of_mem _ (hyv v hv)
        · rw [List.mem_singleton.mp hv]; exact List.mem_cons_self
      have hcl' : ∀ v ∈ x :: visited, ∀ y ∈ g.next v,
          y ∈ x :: visited ∨ y ∈ (g.next x).reverse ++ pending := by
        intro v hv y hy
        rcases List.mem_cons.mp hv with rfl | hv
        · exact Or.inr (List.mem_append_left _ (List.mem_reverse.mpr hy))
        · rcases hcl v hv y hy with hy' | hy'
          · exact Or.inl (List.mem_cons_of_mem _ hy')
          · rcases List.mem_cons.mp hy' with rfl | hy''
            · exact Or.inl List.mem_cons_self
            · exact Or.inr (List.mem_append_right _ hy'')
      obtain ⟨hs, hk, hp, hc⟩ := run_record_spec g fuel _ _ _ xs h hvy' hyv' hcl'
      have hxx : x ∈ xs := hk x (List.mem_append_right _ (List.mem_singleton_self x))
      refine ⟨?_, fun z hz => hk z (List.mem_append_left _ hz), ?_, hc⟩
      · intro z hz
        rcases hs z hz with hz' | ⟨s, hsp, hr⟩
        · rcases List.mem_append.mp hz' with hz' | hz'
          · exact Or.inl hz'
          · rw [List.mem_singleton.mp hz']
            exact Or.inr ⟨x, List.mem_cons_self, Relation.ReflTransGen.refl⟩
        · rcases List.mem_append.mp hsp with hsp | hsp
          · exact Or.inr ⟨x, List.mem_cons_self,
              Relation.ReflTransGen.head (List.mem_reverse.mp hsp) hr⟩
          · exact Or.inr ⟨s, List.mem_cons_of_mem _ hsp, hr⟩
      · intro p hpm
        rcases List.mem_cons.mp hpm with rfl | hpm
        · exact hxx
        · exact hp p (List.mem_append_right _ hpm)

/-- **What the loop computes**: the action folded over nodes that are exactly the reachable
ones. -/
theorem explore_eq_foldl (g : Graph α) (act : β → α → β) (acc : β) (start : List α) :
    ∃ xs : List α, explore g act acc start = xs.foldl act acc ∧
      ∀ x, x ∈ xs ↔ g.Reaches start x := by
  have hr : run g.next act (start.length + unpaid g []) acc [] start
      = some (explore g act acc start) := (Option.some_get _).symm
  obtain ⟨xs, hxs, he⟩ := run_eq_foldl g.next act _ acc [] start _ hr
  obtain ⟨hs, -, hp, hc⟩ := run_record_spec g _ [] [] start xs hxs (by simp) (by simp) (by simp)
  refine ⟨xs, he, fun x => ⟨fun hx => ?_, ?_⟩⟩
  · exact (hs x hx).resolve_left (by simp)
  · rintro ⟨s, hsm, hsx⟩
    induction hsx with
    | refl => exact hp s hsm
    | tail _ hstep ih => exact hc _ ih _ hstep

end Worklist
