/-
# Lists whose neighbours are merged

A list is grown at its end, and a new element may merge with the last one.  A fold that cannot
tell a merged element from the two it was made of gives the same on the grown list as on all the
elements (`foldl_coalesce`).

A search from the end is such a fold (`findSome?_reverse_eq_foldl`).
-/
universe u v w

namespace Coalesce

variable {α : Type u} {σ : Type v} {β : Type w} (merge : α → α → Option α)

/-- Put an element at the end, merged with the last one where they merge. -/
def push (xs : List α) (x : α) : List α :=
  match xs.getLast? with
  | some last =>
    match merge last x with
    | some merged => xs.dropLast ++ [merged]
    | none => xs ++ [x]
  | none => xs ++ [x]

def coalesce (xs ys : List α) : List α := ys.foldl (push merge) xs

/-- The fold does not tell a merged element from its parts. -/
def Blind (f : σ → α → σ) : Prop :=
  ∀ s a b merged, merge a b = some merged → f s merged = f (f s a) b

variable {merge}

theorem foldl_push {f : σ → α → σ} (hf : Blind merge f) (s : σ) (xs : List α) (x : α) :
    (push merge xs x).foldl f s = f (xs.foldl f s) x := by
  rw [push]
  split
  · rename_i last hlast
    split
    · rename_i merged hmerged
      obtain ⟨before, rfl⟩ := List.getLast?_eq_some_iff.mp hlast
      rw [List.dropLast_concat, List.foldl_append, List.foldl_append]
      exact hf _ _ _ _ hmerged
    · rw [List.foldl_append]
      rfl
  · rw [List.foldl_append]
    rfl

theorem foldl_coalesce {f : σ → α → σ} (hf : Blind merge f) (s : σ) (xs ys : List α) :
    (coalesce merge xs ys).foldl f s = (xs ++ ys).foldl f s := by
  induction ys generalizing xs with
  | nil => rw [List.append_nil]; rfl
  | cons y ys ih =>
    rw [coalesce, List.foldl_cons]
    refine (ih (push merge xs y)).trans ?_
    rw [List.foldl_append, foldl_push hf, List.foldl_append, List.foldl_cons]

/-- The last element that has a value is the last value. -/
theorem findSome?_reverse_eq_foldl (f : α → Option β) (xs : List α) :
    xs.reverse.findSome? f = xs.foldl (fun found x => (f x).or found) none := by
  have hgeneral : ∀ found : Option β, (xs.reverse.findSome? f).or found =
      xs.foldl (fun found x => (f x).or found) found := by
    induction xs with
    | nil => intro found; rfl
    | cons x xs ih =>
      intro found
      rw [List.reverse_cons, List.findSome?_append, List.foldl_cons, ← ih]
      cases hx : f x <;> simp [hx]
  rw [← hgeneral, Option.or_none]

end Coalesce
