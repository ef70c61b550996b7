/-
# Parent maps

A partial map from a node to its parent is a forest if every way up ends.

* `EndsClear`: a way up that ends and does not meet a given node.
* `Forest.of_acyclic`: finitely many nodes are a forest if no way up returns.
* `Forest.change`: a forest stays one when a single node gets another parent, if the way up from
  the new parent ends clear of the node.
-/
import Mathlib.Logic.Relation
import Mathlib.Order.WellFounded
import Mathlib.Order.WellFoundedSet

namespace Autobuild.ParentMap

universe u

variable {α : Type u}

/-- `above` is the parent of `node`. -/
def Up (parent : α → Option α) (above node : α) : Prop := parent node = some above

/-- Every way up ends. -/
def Forest (parent : α → Option α) : Prop := WellFounded (Up parent)

/-- The way up from a node ends, and does not meet `clear`. -/
inductive EndsClear (parent : α → Option α) (clear : α) : α → Prop
  | root {node : α} : node ≠ clear → parent node = none → EndsClear parent clear node
  | up {node above : α} : node ≠ clear → parent node = some above →
      EndsClear parent clear above → EndsClear parent clear node

theorem EndsClear.ne {parent : α → Option α} {clear node : α} (h : EndsClear parent clear node) :
    node ≠ clear := by
  cases h with
  | root hne _ => exact hne
  | up hne _ _ => exact hne

theorem acc_of_eq_none {parent : α → Option α} {node : α} (h : parent node = none) :
    Acc (Up parent) node :=
  ⟨node, fun above (habove : parent node = some above) => by
    rw [h] at habove
    exact absurd habove.symm (Option.some_ne_none _)⟩

theorem acc_of_eq_some {parent : α → Option α} {node above : α} (h : parent node = some above)
    (ha : Acc (Up parent) above) : Acc (Up parent) node :=
  ⟨node, fun other (hother : parent node = some other) => by
    rw [h] at hother
    cases hother
    exact ha⟩

/-- A way up that ends does not return to where it started. -/
theorem acc_not_transGen {parent : α → Option α} {node : α} (h : Acc (Up parent) node) :
    ¬ Relation.TransGen (fun node above => parent node = some above) node node := by
  induction h with
  | intro node _ ih =>
    intro hcycle
    obtain ⟨above, hup, hrest⟩ := Relation.TransGen.head'_iff.mp hcycle
    -- the cycle through the node is one through its parent
    exact ih above hup (Relation.TransGen.tail' hrest hup)

/-- A way up that ends has a top. -/
theorem exists_way_of_acc {parent : α → Option α} {node : α} (h : Acc (Up parent) node) :
    ∃ way top, (node :: way).IsChain (fun node above => parent node = some above) ∧
      (node :: way).getLast? = some top ∧ parent top = none := by
  induction h with
  | intro node _ ih =>
    cases hparent : parent node with
    | none => exact ⟨[], node, .singleton _, rfl, hparent⟩
    | some above =>
      obtain ⟨way, top, hchain, hlast, htop⟩ := ih above hparent
      exact ⟨above :: way, top, .cons_cons hparent hchain,
        List.getLast?_cons_cons.trans hlast, htop⟩

/-- The way is the same in a map that differs at the node it is clear of. -/
theorem EndsClear.acc {parent parent' : α → Option α} {clear node : α}
    (h : EndsClear parent clear node)
    (hoff : ∀ other, other ≠ clear → parent' other = parent other) :
    Acc (Up parent') node := by
  induction h with
  | root hne hnone => exact acc_of_eq_none ((hoff _ hne).trans hnone)
  | up hne hsome _ ih => exact acc_of_eq_some ((hoff _ hne).trans hsome) ih

namespace Forest

variable {parent parent' : α → Option α}

theorem of_eq_none (h : ∀ node, parent node = none) : Forest parent :=
  ⟨fun node => acc_of_eq_none (h node)⟩

/-- Finitely many nodes with a parent are a forest if no way up returns. -/
theorem of_acyclic (hfinite : {node | parent node ≠ none}.Finite)
    (hacyclic : ∀ node,
      ¬ Relation.TransGen (fun node above => parent node = some above) node node) :
    Forest parent := by
  have : IsStrictOrder α (Relation.TransGen (Up parent)) :=
    { irrefl := fun node hcycle => hacyclic node (Relation.transGen_swap.mp hcycle)
      trans := fun _ _ _ => Relation.TransGen.trans }
  have hwf := Set.wellFoundedOn_iff.mp (hfinite.wellFoundedOn (r := Relation.TransGen (Up parent)))
  refine ⟨fun node => ?_⟩
  induction node using hwf.induction with
  | _ node ih =>
    refine ⟨node, fun above hup => ?_⟩
    cases habove : parent above with
    | none => exact acc_of_eq_none habove
    | some _ =>
      refine ih above ⟨.single hup, ?_, ?_⟩
      · exact fun hnone => Option.some_ne_none _ (habove.symm.trans hnone)
      · exact fun hnone => Option.some_ne_none _ (Eq.symm hup |>.trans hnone)

/-- **One node may move** under a parent from which the way up ends clear of it. -/
theorem change (hforest : Forest parent) (moved : α)
    (hoff : ∀ other, other ≠ moved → parent' other = parent other)
    (hmoved : ∀ above, parent' moved = some above → EndsClear parent moved above) :
    Forest parent' := by
  have hacc : Acc (Up parent') moved := by
    cases h : parent' moved with
    | none => exact acc_of_eq_none h
    | some above => exact acc_of_eq_some h ((hmoved above h).acc hoff)
  refine ⟨fun node => ?_⟩
  induction node using hforest.induction with
  | _ node ih =>
    by_cases hnode : node = moved
    · rw [hnode]
      exact hacc
    · cases h : parent node with
      | none => exact acc_of_eq_none ((hoff node hnode).trans h)
      | some above => exact acc_of_eq_some ((hoff node hnode).trans h) (ih above h)

/-- No way up returns to where it started. -/
theorem not_transGen (hforest : Forest parent) (node : α) :
    ¬ Relation.TransGen (fun node above => parent node = some above) node node :=
  acc_not_transGen (hforest.apply node)

theorem mono (hforest : Forest parent)
    (h : ∀ node above, parent' node = some above → parent node = some above) : Forest parent' :=
  ⟨fun node => Subrelation.accessible (fun {above node} => h node above) (hforest.apply node)⟩

/-- A way up meets no node twice. -/
theorem nodup_of_isChain (hforest : Forest parent) {path : List α}
    (h : path.IsChain fun node above => parent node = some above) : path.Nodup := by
  have htrans : path.IsChain (Relation.TransGen fun node above => parent node = some above) :=
    h.imp fun _ _ => Relation.TransGen.single
  refine (List.isChain_iff_pairwise.mp htrans).imp fun {node above} hway heq => ?_
  rw [heq] at hway
  exact hforest.not_transGen above hway

end Forest

end Autobuild.ParentMap
