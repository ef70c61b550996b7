/-
# The rewrites of a node

A node publishes its branch anew with a `node.rewritten` receipt.  The memory store keeps tables of
these receipts beside the log of a build and answers `getNodeRewrite` from them; the postgres store
asks the log.

* `Determined`: the tables are what the receipts of the log determine; an append keeps it.
* `getNodeRewrite_tables`: the tables answer as the query of the log.
-/
import Autobuild.Events.Catalog
import Autobuild.Lib.ObjectMap
import Mathlib.Data.List.Induction

namespace Autobuild

open ObjectMap

/-! ## 1. The query of the log -/

def NodeRewritten.receipt (payload : NodeRewritten) : LineageReceipt :=
  ⟨payload.id, payload.previous, payload.head⟩

def rewriteOf : EventBody → Option LineageReceipt
  | .node (.rewritten payload) => some payload.receipt
  | _ => none

/-- The receipts of a log, the latest first. -/
def rewritesOf (events : List AbEvent) : List LineageReceipt :=
  (events.filterMap fun event => rewriteOf event.body).reverse

/-- `getNodeRewrite` as the query of the log: the latest receipt, the latest one that replaced a
commit, or the one right before that. -/
def getNodeRewrite (receipts : List LineageReceipt) (previous beforePrevious : Option String) :
    Option LineageReceipt :=
  match beforePrevious with
  | some before => ((receipts.dropWhile fun receipt => receipt.previous ≠ before).drop 1).head?
  | none =>
    match previous with
    | some previous => receipts.find? fun receipt => receipt.previous = previous
    | none => receipts.head?

theorem mem_of_getNodeRewrite {receipts : List LineageReceipt} {previous before : Option String}
    {receipt : LineageReceipt} (h : getNodeRewrite receipts previous before = some receipt) :
    receipt ∈ receipts := by
  unfold getNodeRewrite at h
  split at h
  · have hmem := List.mem_of_mem_drop (List.mem_of_mem_head? h)
    exact (List.dropWhile_sublist _).mem hmem
  · split at h
    · exact List.mem_of_find?_eq_some h
    · exact List.mem_of_mem_head? h

theorem mem_rewritesOf {events : List AbEvent} {receipt : LineageReceipt} :
    receipt ∈ rewritesOf events ↔
      ∃ event ∈ events, ∃ payload, event.body = .node (.rewritten payload) ∧
        payload.receipt = receipt := by
  unfold rewritesOf
  rw [List.mem_reverse, List.mem_filterMap]
  constructor
  · rintro ⟨event, he, hr⟩
    unfold rewriteOf at hr
    split at hr
    · rename_i payload hb
      exact ⟨event, he, payload, hb, Option.some.inj hr⟩
    · cases hr
  · rintro ⟨event, he, payload, hb, rfl⟩
    exact ⟨event, he, by rw [hb]; rfl⟩

/-! ## 2. The tables of the memory store -/

/-- What the memory store keeps beside the log of a build. -/
structure RewriteTables where
  rewrites : JsMap String LineageReceipt := ∅
  /-- By the commit a receipt replaced, the receipt before it. -/
  earlierRewrites : JsMap String (Option LineageReceipt) := ∅
  latestRewrite : Option LineageReceipt := none

namespace RewriteTables

def note (tables : RewriteTables) (receipt : LineageReceipt) : RewriteTables where
  earlierRewrites := tables.earlierRewrites.set ⟨receipt.previous⟩ tables.latestRewrite
  rewrites := tables.rewrites.set ⟨receipt.previous⟩ receipt
  latestRewrite := some receipt

def append (tables : RewriteTables) (event : AbEvent) : RewriteTables :=
  match rewriteOf event.body with
  | some receipt => tables.note receipt
  | none => tables

def getNodeRewrite (tables : RewriteTables) (previous beforePrevious : Option String) :
    Option LineageReceipt :=
  match beforePrevious with
  | some before => (tables.earlierRewrites.get? ⟨before⟩).join
  | none =>
    match previous with
    | some previous => tables.rewrites.get? ⟨previous⟩
    | none => tables.latestRewrite

end RewriteTables

/-- What the newest receipt of the commit follows. -/
def followedBy (previous : String) : List LineageReceipt → Option (Option LineageReceipt)
  | [] => none
  | receipt :: older =>
    if receipt.previous = previous then some older.head? else followedBy previous older

/-- The tables of some receipts, newest first. -/
structure Determined (receipts : List LineageReceipt) (tables : RewriteTables) : Prop where
  latest : tables.latestRewrite = receipts.head?
  rewrites : ∀ previous, tables.rewrites.get? ⟨previous⟩
    = receipts.find? (fun receipt => receipt.previous = previous)
  earlier : ∀ previous, tables.earlierRewrites.get? ⟨previous⟩ = followedBy previous receipts

/-! ## 3. The tables are what the log determines -/

theorem followedBy_join (before : String) (receipts : List LineageReceipt) :
    (followedBy before receipts).join
      = ((receipts.dropWhile fun receipt => receipt.previous ≠ before).drop 1).head? := by
  induction receipts with
  | nil => rfl
  | cons receipt older ih =>
    unfold followedBy
    rw [List.dropWhile_cons]
    by_cases hb : receipt.previous = before
    · rw [if_pos hb, if_neg (by simp [hb])]
      rfl
    · rw [if_neg hb, if_pos (by simpa using hb)]
      exact ih

section

variable {tables : RewriteTables}

theorem Determined.note {receipts : List LineageReceipt} (h : Determined receipts tables)
    (receipt : LineageReceipt) : Determined (receipt :: receipts) (tables.note receipt) := by
  refine ⟨rfl, fun previous => ?_, fun previous => ?_⟩
  · show (tables.rewrites.set ⟨receipt.previous⟩ receipt).get? ⟨previous⟩ = _
    rw [get?_set, List.find?_cons]
    by_cases hp : receipt.previous = previous
    · rw [if_pos (by rw [hp]), decide_eq_true hp]
    · rw [if_neg fun he => hp (MapKey.mk.inj he).symm, decide_eq_false hp, h.rewrites]
  · show (tables.earlierRewrites.set ⟨receipt.previous⟩ tables.latestRewrite).get? ⟨previous⟩ = _
    rw [get?_set]
    unfold followedBy
    by_cases hp : receipt.previous = previous
    · rw [if_pos (by rw [hp]), if_pos hp, h.latest]
    · rw [if_neg fun he => hp (MapKey.mk.inj he).symm, if_neg hp, h.earlier]

theorem Determined.append {events : List AbEvent} (h : Determined (rewritesOf events) tables)
    (event : AbEvent) : Determined (rewritesOf (events ++ [event])) (tables.append event) := by
  have hreceipts : rewritesOf (events ++ [event])
      = (rewriteOf event.body).toList ++ rewritesOf events := by
    unfold rewritesOf
    rw [List.filterMap_append, List.reverse_append]
    cases h : rewriteOf event.body <;> simp [h]
  rw [hreceipts]
  unfold RewriteTables.append
  cases rewriteOf event.body with
  | none => exact h
  | some receipt => exact h.note receipt

theorem Determined.getNodeRewrite {receipts : List LineageReceipt} (h : Determined receipts tables)
    (previous before : Option String) :
    tables.getNodeRewrite previous before = Autobuild.getNodeRewrite receipts previous before := by
  cases before with
  | some before => exact (congrArg Option.join (h.earlier before)).trans (followedBy_join _ _)
  | none =>
    cases previous with
    | none => exact h.latest
    | some previous => exact h.rewrites previous

end

theorem determined_foldl (events : List AbEvent) :
    Determined (rewritesOf events) (events.foldl RewriteTables.append {}) := by
  induction events using List.reverseRecOn with
  | nil => exact ⟨rfl, fun _ => rfl, fun _ => rfl⟩
  | append_singleton events event ih =>
    rw [List.foldl_append]
    exact ih.append event

/-- **The tables of the memory store answer every lookup as the query of the log does.** -/
theorem getNodeRewrite_tables (events : List AbEvent) (previous before : Option String) :
    (events.foldl RewriteTables.append {}).getNodeRewrite previous before
      = getNodeRewrite (rewritesOf events) previous before :=
  (determined_foldl events).getNodeRewrite previous before

end Autobuild
