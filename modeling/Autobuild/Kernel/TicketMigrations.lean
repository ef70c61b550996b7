/-
# Ticket migrations

A migration takes the tickets of one source to another, by a mapping of their ids.  Recording one
is refused if it sends an id elsewhere than an earlier one does, or if following the migrations
from an id that one of them maps returns to a reference it has already left.

Together the migrations are a partial map on references: `next`.  What `walk` does depends on
that map only, and records that do not conflict give the same map in any order.  They are accepted
if no two conflict and the map is a forest (`recordAll_eq_ok`), which says nothing of the order.
-/
import Mathlib.Data.List.Chain
import Autobuild.Ontology
import Autobuild.Lib.ObjectMap
import Autobuild.Lib.ParentMap

namespace Autobuild

open ParentMap

/-! ## 1. Recording and resolving -/

/-- The payload of `tickets.migration-recorded`. -/
structure TicketMigration where
  identity : String
  fromSource : String
  toSource : String
  mapping : ObjectMap String String
  deriving DecidableEq

structure TicketMigrations where
  migrations : List TicketMigration
  deriving DecidableEq

namespace TicketMigrations

/-- `JSON.stringify([ref.source, ref.id])` tells two references apart as the pair does. -/
def key (ref : TicketRef) : String × String := (ref.source, ref.id)

/-- `{ ...ref, source, id }`. -/
def setKey (ref : TicketRef) (key : String × String) : TicketRef :=
  { ref with source := key.1, id := key.2 }

/-- `Array.prototype.sort` compares the entries as text. -/
def entryText (entry : String × String) : String := entry.1 ++ "," ++ entry.2

def stable (value : TicketMigration) : String × String × List (String × String) :=
  (value.fromSource, value.toSource,
    value.mapping.entries.mergeSort fun a b => decide (entryText a ≤ entryText b))

/-- The migrations that leave a source. -/
def routes (state : TicketMigrations) (source : String) : List TicketMigration :=
  state.migrations.filter fun m => m.fromSource = source ∧ m.fromSource ≠ m.toSource

/-- No migration leads on from `current`. -/
def stopped (state : TicketMigrations) (original : TicketRef) (destination : Option String)
    (build : String) (current : TicketRef) : Except String TicketRef :=
  if destination = none then .ok current
  else .error ("build " ++ build ++ " ticket " ++ original.source ++ ":" ++ original.id ++ ": "
    ++ (if routes state current.source ≠ [] then "recorded migration does not cover id"
      else "configured ticket source differs from the frozen node source")
    ++ "; record continuity with ab ticket migration record <export-dir>")

/-- The `while` of `walk`, for a number of rounds. -/
def walkLoop (state : TicketMigrations) (original : TicketRef) (destination : Option String)
    (build : String) : ℕ → List (String × String) → TicketRef → Option (Except String TicketRef)
  | 0, _, _ => none
  | rounds + 1, visited, current =>
    if destination = some current.source then some (.ok current)
    else if key current ∈ visited then
      some (.error ("ticket migration cycle at " ++ current.source ++ ":" ++ current.id))
    else
      match (routes state current.source).find? fun m => m.mapping.has current.id with
      | none => some (stopped state original destination build current)
      | some route =>
        if route.toSource = current.source ∧ route.mapping.get? current.id = some current.id then
          some (.ok current)
        else walkLoop state original destination build rounds (key current :: visited)
          (setKey current (route.toSource, (route.mapping.get? current.id).getD ""))

/-- The references that a migration maps. -/
def mapped (state : TicketMigrations) : List (String × String) :=
  state.migrations.flatMap fun m => m.mapping.keys.map fun id => (m.fromSource, id)

/-- Every round but the last leaves a mapped reference for good, so they bound the rounds. -/
def walk (state : TicketMigrations) (original : TicketRef) (destination : Option String)
    (build : String) : Except String TicketRef :=
  (walkLoop state original destination build ((mapped state).length + 1) [] original).getD
    (.error "ticket migration cycle")

/-- The id at which a migration contradicts an earlier one. -/
def conflict (old migration : TicketMigration) : Option String :=
  if old.fromSource ≠ old.toSource ∧ migration.fromSource ≠ migration.toSource ∧
      old.fromSource = migration.fromSource then
    (migration.mapping.entries.find? fun entry => old.mapping.has entry.1 ∧
      (old.toSource ≠ migration.toSource ∨ old.mapping.get? entry.1 ≠ some entry.2)).map Prod.fst
  else none

/-- `for (const m of state.migrations) for (const id of Object.keys(m.mapping)) walk(...)`. -/
def walkMapped (state : TicketMigrations) : Except String Unit :=
  (mapped state).forM fun k => do
    let _ ← walk state ⟨k.1, k.2, none, none⟩ none "unknown"

def add (state : TicketMigrations) (migration : TicketMigration) :
    Except String TicketMigrations :=
  match state.migrations.find? fun m => m.identity = migration.identity with
  | some previous =>
    if stable previous ≠ stable migration then
      .error ("conflicting ticket migration " ++ migration.identity)
    else .ok state
  | none =>
    match state.migrations.findSome? fun old => conflict old migration with
    | some id =>
      .error ("conflicting ticket migration for " ++ migration.fromSource ++ ":" ++ id)
    | none =>
      let state : TicketMigrations := ⟨state.migrations ++ [migration]⟩
      (walkMapped state).map fun _ => state

/-- `ticketMigrationsReducer` over the records of a log. -/
def recordAll (migrations : List TicketMigration) : Except String TicketMigrations :=
  migrations.foldlM add ⟨[]⟩

def resolveTicketRef (state : TicketMigrations) (ref : TicketRef) (destination : String)
    (build : String) : Except String TicketRef :=
  -- the pre-existing database/hosted adapter compatibility
  let hosted := destination = "hosted" ∨ destination = "database"
  let compatible := if ref.source = "database" ∧ hosted then { ref with source := "hosted" }
    else ref
  (walk state compatible (some (if destination = "database" then "hosted" else destination))
    build).map fun current =>
      if destination = "database" then { current with source := "database" } else current

@[simp] theorem key_setKey (ref : TicketRef) (k : String × String) : key (setKey ref k) = k := rfl

@[simp] theorem setKey_source (ref : TicketRef) (k : String × String) :
    (setKey ref k).source = k.1 := rfl

@[simp] theorem setKey_setKey (ref : TicketRef) (k j : String × String) :
    setKey (setKey ref k) j = setKey ref j := rfl

/-! ## 2. The map that the migrations are -/

/-- A migration takes one reference to another. -/
def Moves (m : TicketMigration) (k k' : String × String) : Prop :=
  m.fromSource = k.1 ∧ m.fromSource ≠ m.toSource ∧ m.mapping.get? k.2 = some k'.2 ∧
    m.toSource = k'.1

/-- Where one step of the walk leads. -/
def next (state : TicketMigrations) (k : String × String) : Option (String × String) :=
  ((routes state k.1).find? fun m => m.mapping.has k.2).map fun m =>
    (m.toSource, (m.mapping.get? k.2).getD "")

/-- Two migrations send no id to different places. -/
def Agree (m m' : TicketMigration) : Prop :=
  ∀ k j j', Moves m k j → Moves m' k j' → j = j'

theorem Agree.symm {m m' : TicketMigration} (h : Agree m m') : Agree m' m :=
  fun k j j' hj hj' => (h k j' j hj' hj).symm

instance : Std.Symm Agree := ⟨fun _ _ => Agree.symm⟩

theorem mem_routes {state : TicketMigrations} {source : String} {m : TicketMigration} :
    m ∈ routes state source ↔
      m ∈ state.migrations ∧ m.fromSource = source ∧ m.fromSource ≠ m.toSource := by
  simp [routes]

theorem conflict_eq_none {old migration : TicketMigration} :
    conflict old migration = none ↔ Agree old migration := by
  unfold conflict
  split
  · rename_i h
    obtain ⟨hold, hnew, hfrom⟩ := h
    simp only [Option.map_eq_none_iff, List.find?_eq_none, decide_eq_true_eq, not_and, not_or,
      not_not, ne_eq]
    constructor
    · rintro hagree ⟨source, id⟩ ⟨dest, target⟩ ⟨dest', target'⟩ ⟨-, -, hget, hto⟩
        ⟨-, -, hget', hto'⟩
      simp only at hget hget' hto hto'
      have hhas : old.mapping.has id = true := by rw [ObjectMap.has_eq_isSome, hget]; rfl
      obtain ⟨hsame, hid⟩ := hagree (id, target') (ObjectMap.get?_eq_some.mp hget') hhas
      rw [hget] at hid
      rw [Prod.mk.injEq, ← hto, ← hto']
      exact ⟨hsame, Option.some.inj hid⟩
    · rintro hagree ⟨id, target'⟩ hentry hhas
      rw [ObjectMap.has_eq_isSome, Option.isSome_iff_exists] at hhas
      obtain ⟨target, hget⟩ := hhas
      have heq := hagree (old.fromSource, id) (old.toSource, target) (migration.toSource, target')
        ⟨rfl, hold, hget, rfl⟩ ⟨hfrom.symm, hnew, ObjectMap.get?_eq_some.mpr hentry, rfl⟩
      rw [Prod.mk.injEq] at heq
      exact ⟨heq.1, by rw [hget, heq.2]⟩
  · rename_i h
    refine iff_of_true rfl fun k j j' hj hj' => absurd ⟨hj.2.1, hj'.2.1, ?_⟩ h
    rw [hj.1, hj'.1]

theorem exists_moves_of_next {state : TicketMigrations} {k j : String × String}
    (h : next state k = some j) : ∃ m ∈ state.migrations, Moves m k j := by
  simp only [next, Option.map_eq_some_iff] at h
  obtain ⟨m, hfind, rfl⟩ := h
  obtain ⟨hm, hfrom, hne⟩ := mem_routes.mp (List.mem_of_find?_eq_some hfind)
  have hhas := List.find?_some hfind
  rw [ObjectMap.has_eq_isSome, Option.isSome_iff_exists] at hhas
  obtain ⟨target, hget⟩ := hhas
  exact ⟨m, hm, hfrom, hne, by simp [hget], rfl⟩

theorem next_eq_none {state : TicketMigrations} {k : String × String} :
    next state k = none ↔ ∀ m ∈ state.migrations, ∀ j, ¬ Moves m k j := by
  constructor
  · rintro h m hm j ⟨hfrom, hne, hget, -⟩
    simp only [next, Option.map_eq_none_iff, List.find?_eq_none] at h
    refine h m (mem_routes.mpr ⟨hm, hfrom, hne⟩) ?_
    rw [ObjectMap.has_eq_isSome, hget]
    rfl
  · intro h
    cases hnext : next state k with
    | none => rfl
    | some j =>
      obtain ⟨m, hm, hmoves⟩ := exists_moves_of_next hnext
      exact absurd hmoves (h m hm j)

/-- No two of the migrations conflict. -/
def Consistent (state : TicketMigrations) : Prop :=
  state.migrations.Pairwise Agree

theorem Consistent.agree {state : TicketMigrations} (h : Consistent state)
    {m m' : TicketMigration} (hm : m ∈ state.migrations) (hm' : m' ∈ state.migrations)
    {k j j' : String × String} (hj : Moves m k j) (hj' : Moves m' k j') : j = j' := by
  by_cases heq : m = m'
  · subst heq
    have htarget := hj.2.2.1.symm.trans hj'.2.2.1
    exact Prod.ext (hj.2.2.2.symm.trans hj'.2.2.2) (Option.some.inj htarget)
  · exact List.Pairwise.forall h hm hm' heq k j j' hj hj'

theorem Consistent.next_eq_some {state : TicketMigrations} (h : Consistent state)
    {k j : String × String} : next state k = some j ↔ ∃ m ∈ state.migrations, Moves m k j := by
  refine ⟨exists_moves_of_next, fun ⟨m, hm, hmoves⟩ => ?_⟩
  cases hnext : next state k with
  | none => exact absurd hmoves (next_eq_none.mp hnext m hm j)
  | some j' =>
    obtain ⟨m', hm', hmoves'⟩ := exists_moves_of_next hnext
    rw [h.agree hm' hm hmoves' hmoves]

/-- Consistent migrations are one map, in whatever order they were recorded. -/
theorem Consistent.next_perm {state state' : TicketMigrations} (h : Consistent state)
    (hperm : state.migrations.Perm state'.migrations) : next state = next state' := by
  have h' : Consistent state' := hperm.pairwise h Agree.symm
  funext k
  ext j
  rw [h.next_eq_some, h'.next_eq_some]
  exact exists_congr fun m => and_congr_left' hperm.mem_iff

theorem Consistent.of_append {state : TicketMigrations} {migration : TicketMigration} :
    Consistent ⟨state.migrations ++ [migration]⟩ ↔
      Consistent state ∧ ∀ old ∈ state.migrations, Agree old migration := by
  simp [Consistent, List.pairwise_append]

theorem next_append {state : TicketMigrations} {migration : TicketMigration}
    {k j : String × String} (h : next state k = some j) :
    next ⟨state.migrations ++ [migration]⟩ k = some j := by
  simp only [next, routes, List.filter_append, List.find?_append, Option.map_eq_some_iff] at h ⊢
  obtain ⟨m, hfind, rfl⟩ := h
  exact ⟨m, by rw [hfind]; rfl, rfl⟩

theorem mem_mapped {state : TicketMigrations} {k j : String × String}
    (h : next state k = some j) : k ∈ mapped state := by
  obtain ⟨m, hm, hfrom, -, hget, -⟩ := exists_moves_of_next h
  refine List.mem_flatMap.mpr ⟨m, hm, List.mem_map.mpr ⟨k.2, ?_, Prod.ext hfrom rfl⟩⟩
  rw [← ObjectMap.isSome_get?, hget]
  rfl

/-! ## 3. The walk -/

section
variable {state : TicketMigrations} {original : TicketRef} {destination : Option String}
  {build : String}

/-- **One round** looks at the map only. -/
theorem walkLoop_succ (rounds : ℕ) (visited : List (String × String)) (current : TicketRef) :
    walkLoop state original destination build (rounds + 1) visited current =
      if destination = some current.source then some (.ok current)
      else if key current ∈ visited then
        some (.error ("ticket migration cycle at " ++ current.source ++ ":" ++ current.id))
      else
        match next state (key current) with
        | none => some (stopped state original destination build current)
        | some j => walkLoop state original destination build rounds (key current :: visited)
            (setKey current j) := by
  rw [walkLoop]
  refine if_congr Iff.rfl rfl (if_congr Iff.rfl rfl ?_)
  unfold next key
  dsimp only
  cases hfind : (routes state current.source).find? fun m => m.mapping.has current.id with
  | none => rfl
  | some route =>
    obtain ⟨-, hfrom, hne⟩ := mem_routes.mp (List.mem_of_find?_eq_some hfind)
    dsimp only [Option.map_some]
    -- a route leaves the source, so it does not lead to where it starts
    rw [if_neg fun hsame => hne (hfrom.trans hsame.1.symm)]

/-- A round that goes on leaves a mapped reference for good. -/
theorem walkLoop_isSome {rounds : ℕ} {visited : List (String × String)} {current : TicketRef}
    (hnodup : visited.Nodup) (hsub : visited ⊆ mapped state)
    (hrounds : (mapped state).length < visited.length + rounds) :
    (walkLoop state original destination build rounds visited current).isSome := by
  induction rounds generalizing visited current with
  | zero =>
    have := (List.subperm_of_subset hnodup hsub).length_le
    omega
  | succ rounds ih =>
    rw [walkLoop_succ]
    split
    · rfl
    · split
      · rfl
      · rename_i hfresh
        cases hnext : next state (key current) with
        | none => rfl
        | some j =>
          refine ih (List.nodup_cons.mpr ⟨hfresh, hnodup⟩)
            (List.cons_subset.mpr ⟨mem_mapped hnext, hsub⟩) ?_
          rw [List.length_cons]
          omega

/-- **No walk goes on for ever**, whatever is recorded, and whatever turns in circles: the rounds
that `walk` gives its loop are enough. -/
theorem walk_ends (state : TicketMigrations) (original : TicketRef) (destination : Option String)
    (build : String) :
    ∃ result, walkLoop state original destination build ((mapped state).length + 1) [] original
        = some result ∧ walk state original destination build = result := by
  obtain ⟨result, hresult⟩ := Option.isSome_iff_exists.mp
    (@walkLoop_isSome state original destination build ((mapped state).length + 1) [] original
      List.nodup_nil (List.nil_subset _) (by rw [List.length_nil]; omega))
  exact ⟨result, hresult, by rw [walk, hresult, Option.getD_some]⟩

/-- A walk that is not refused is a way up that ends. -/
theorem acc_of_walkLoop {rounds : ℕ} {visited : List (String × String)} {current ref : TicketRef}
    (h : walkLoop state original none build rounds visited current = some (.ok ref)) :
    Acc (Up (next state)) (key current) := by
  induction rounds generalizing visited current with
  | zero => cases h
  | succ rounds ih =>
    rw [walkLoop_succ, if_neg (Option.some_ne_none _).symm] at h
    split at h
    · cases h
    · cases hnext : next state (key current) with
      | none => exact acc_of_eq_none hnext
      | some j =>
        rw [hnext] at h
        exact acc_of_eq_some hnext (ih h)

/-- Where a walk along a way arrives: at the first reference in the destination, or at the top. -/
def arrival (state : TicketMigrations) (original : TicketRef) (destination : Option String)
    (build : String) (ref : TicketRef) (way : List (String × String)) (top : String × String) :
    Except String TicketRef :=
  match way.find? fun k => destination = some k.1 with
  | some k => .ok (setKey ref k)
  | none => stopped state original destination build (setKey ref top)

theorem arrival_of_eq {ref : TicketRef} {k : String × String} (h : destination = some k.1)
    (way : List (String × String)) (top : String × String) :
    arrival state original destination build ref (k :: way) top = .ok (setKey ref k) := by
  simp only [arrival, List.find?_cons, h, decide_true]

theorem arrival_of_ne {ref : TicketRef} {k : String × String} (h : destination ≠ some k.1)
    (way : List (String × String)) (top : String × String) :
    arrival state original destination build ref (k :: way) top =
      arrival state original destination build ref way top := by
  simp only [arrival, List.find?_cons, h, decide_false]

/-- Without a destination the walk goes to the top. -/
theorem arrival_none (ref : TicketRef) (way : List (String × String)) (top : String × String) :
    arrival state original none build ref way top = .ok (setKey ref top) := by
  induction way with
  | nil => rfl
  | cons k way ih => rw [arrival_of_ne (Option.some_ne_none _).symm, ih]

/-- A way along the migrations, to its end. -/
structure Way (state : TicketMigrations) (way : List (String × String))
    (top : String × String) : Prop where
  isChain : way.IsChain fun k j => next state k = some j
  nodup : way.Nodup
  last : way.getLast? = some top
  ends : next state top = none

theorem walkLoop_way {ref : TicketRef} {way : List (String × String)}
    {k top : String × String} {rounds : ℕ} {visited : List (String × String)}
    (hway : Way state (k :: way) top) (hfresh : ∀ j ∈ k :: way, j ∉ visited)
    (hrounds : way.length < rounds) :
    walkLoop state original destination build rounds visited (setKey ref k) =
      some (arrival state original destination build ref (k :: way) top) := by
  induction way generalizing k rounds visited with
  | nil =>
    obtain ⟨rounds, rfl⟩ := Nat.exists_eq_succ_of_ne_zero (Nat.ne_of_gt hrounds)
    have htop : k = top := Option.some.inj hway.last
    subst htop
    rw [walkLoop_succ, key_setKey, setKey_source, hway.ends, if_neg (hfresh k List.mem_cons_self)]
    by_cases hd : destination = some k.1
    · rw [if_pos hd, arrival_of_eq hd]
    · rw [if_neg hd, arrival_of_ne hd]
      rfl
  | cons j way ih =>
    obtain ⟨rounds, rfl⟩ := Nat.exists_eq_succ_of_ne_zero (Nat.ne_of_gt (Nat.zero_lt_of_lt hrounds))
    have hchain := List.isChain_cons_cons.mp hway.isChain
    have hnodup := List.nodup_cons.mp hway.nodup
    rw [walkLoop_succ, key_setKey, setKey_source, hchain.1, if_neg (hfresh k List.mem_cons_self)]
    by_cases hd : destination = some k.1
    · rw [if_pos hd, arrival_of_eq hd]
    · rw [if_neg hd, arrival_of_ne hd]
      dsimp only
      rw [setKey_setKey]
      refine ih ⟨hchain.2, hnodup.2, ?_, hway.ends⟩ ?_ (Nat.lt_of_succ_lt_succ hrounds)
      · exact List.getLast?_cons_cons.symm.trans hway.last
      · intro i hi hmem
        rcases List.mem_cons.mp hmem with rfl | hmem
        · exact hnodup.1 hi
        · exact hfresh i (List.mem_cons_of_mem k hi) hmem

theorem Way.length_le {way : List (String × String)} {k top : String × String}
    (hway : Way state (k :: way) top) : way.length ≤ (mapped state).length := by
  have hmapped : (k :: way).dropLast ⊆ mapped state := by
    have hchain := hway.isChain
    clear hway
    induction way generalizing k with
    | nil => exact List.nil_subset _
    | cons j way ih =>
      obtain ⟨hnext, hrest⟩ := List.isChain_cons_cons.mp hchain
      rw [List.dropLast_cons_of_ne_nil (List.cons_ne_nil j way)]
      exact List.cons_subset.mpr ⟨mem_mapped hnext, ih hrest⟩
  have hle := (List.subperm_of_subset (hway.nodup.sublist (List.dropLast_sublist _))
    hmapped).length_le
  rwa [List.length_dropLast, List.length_cons, Nat.add_sub_cancel] at hle

theorem walk_way {ref : TicketRef} {way : List (String × String)} {top : String × String}
    (hway : Way state (key ref :: way) top) (destination : Option String) (build : String) :
    walk state ref destination build =
      arrival state ref destination build ref (key ref :: way) top := by
  have hwalk : walkLoop state ref destination build ((mapped state).length + 1) [] ref = _ :=
    walkLoop_way hway (fun _ _ => List.not_mem_nil) (Nat.lt_succ_of_le hway.length_le)
  rw [walk, hwalk]
  rfl

theorem exists_way (hforest : Forest (next state)) (k : String × String) :
    ∃ way top, Way state (k :: way) top := by
  obtain ⟨way, top, hchain, hlast, hends⟩ := exists_way_of_acc (hforest.apply k)
  exact ⟨way, top, hchain, hforest.nodup_of_isChain hchain, hlast, hends⟩

end

/-! ## 4. What is accepted -/

theorem forM_eq_ok {α : Type} {f : α → Except String Unit} {l : List α} :
    l.forM f = .ok () ↔ ∀ x ∈ l, f x = .ok () := by
  induction l with
  | nil => exact iff_of_true rfl fun _ hx => absurd hx List.not_mem_nil
  | cons x l ih =>
    rw [List.forall_mem_cons]
    change (f x >>= fun _ => l.forM f) = .ok () ↔ _
    cases hx : f x with
    | error text => exact iff_of_false (by rintro ⟨⟩) (by rintro ⟨⟨⟩, -⟩)
    | ok u => exact ih.trans (iff_and_self.mpr fun _ => rfl)

theorem walkMapped_eq_ok {state : TicketMigrations} :
    walkMapped state = .ok () ↔ Forest (next state) := by
  rw [walkMapped, forM_eq_ok]
  constructor
  · refine fun h => ⟨fun k => ?_⟩
    cases hnext : next state k with
    | none => exact acc_of_eq_none hnext
    | some j =>
      have hk := h k (mem_mapped hnext)
      cases hwalk : walk state ⟨k.1, k.2, none, none⟩ none "unknown" with
      | error text =>
        rw [hwalk] at hk
        cases hk
      | ok ref =>
        cases hloop : walkLoop state ⟨k.1, k.2, none, none⟩ none "unknown"
            ((mapped state).length + 1) [] ⟨k.1, k.2, none, none⟩ with
        | none =>
          rw [walk, hloop] at hwalk
          cases hwalk
        | some result =>
          rw [walk, hloop] at hwalk
          cases hwalk
          exact acc_of_walkLoop hloop
  · intro hforest k _
    obtain ⟨way, top, hway⟩ := exists_way hforest k
    have hwalk := walk_way
      (show Way state (key ⟨k.1, k.2, none, none⟩ :: way) top from hway) none "unknown"
    rw [hwalk, arrival_none]
    rfl

theorem add_eq_ok {state after : TicketMigrations} {migration : TicketMigration}
    (hfresh : ∀ m ∈ state.migrations, m.identity ≠ migration.identity) :
    add state migration = .ok after ↔
      after = ⟨state.migrations ++ [migration]⟩ ∧
        (∀ old ∈ state.migrations, Agree old migration) ∧
        Forest (next ⟨state.migrations ++ [migration]⟩) := by
  have hfind : (state.migrations.find? fun m => m.identity = migration.identity) = none := by
    simpa using hfresh
  have hagree : (state.migrations.findSome? fun old => conflict old migration) = none ↔
      ∀ old ∈ state.migrations, Agree old migration := by
    simp only [List.findSome?_eq_none_iff, conflict_eq_none]
  rw [add, hfind]
  dsimp only
  cases hconflict : state.migrations.findSome? fun old => conflict old migration with
  | some id =>
    refine iff_of_false (by rintro ⟨⟩) fun h => ?_
    rw [hagree.mpr h.2.1] at hconflict
    cases hconflict
  | none =>
    dsimp only
    cases hwalk : walkMapped ⟨state.migrations ++ [migration]⟩ with
    | error text =>
      refine iff_of_false (by rintro ⟨⟩) fun h => ?_
      rw [walkMapped_eq_ok.mpr h.2.2] at hwalk
      cases hwalk
    | ok u =>
      refine ⟨?_, fun h => by rw [h.1]; rfl⟩
      rintro ⟨⟩
      exact ⟨rfl, hagree.mp hconflict, walkMapped_eq_ok.mp hwalk⟩

/-- **Acceptance**: migrations of different identities are recorded if no two conflict and no way
along them returns. -/
theorem recordAll_eq_ok {ms : List TicketMigration} {state : TicketMigrations}
    (hids : (ms.map TicketMigration.identity).Nodup) :
    recordAll ms = .ok state ↔ state = ⟨ms⟩ ∧ Consistent ⟨ms⟩ ∧ Forest (next ⟨ms⟩) := by
  induction ms using List.reverseRecOn generalizing state with
  | nil =>
    refine ⟨?_, fun h => by rw [h.1]; rfl⟩
    rintro ⟨⟩
    exact ⟨rfl, List.Pairwise.nil, .of_eq_none fun _ => rfl⟩
  | append_singleton ms m ih =>
    rw [List.map_append, List.nodup_append] at hids
    have hfresh : ∀ old ∈ ms, old.identity ≠ m.identity := fun old hold =>
      hids.2.2 _ (List.mem_map_of_mem hold) _ (List.mem_singleton.mpr rfl)
    have hsplit : recordAll (ms ++ [m]) = recordAll ms >>= fun before => add before m := by
      rw [recordAll, List.foldlM_append, recordAll]
      refine bind_congr fun before => ?_
      rw [List.foldlM_cons]
      exact bind_pure _
    have hof := @Consistent.of_append ⟨ms⟩ m
    rw [hsplit, hof]
    constructor
    · intro h
      cases hbefore : recordAll ms with
      | error text =>
        rw [hbefore] at h
        cases h
      | ok before =>
        rw [hbefore] at h
        obtain ⟨rfl, hconsistent, -⟩ := (ih hids.1).mp hbefore
        obtain ⟨hstate, hagree, hforest⟩ := (add_eq_ok hfresh).mp h
        exact ⟨hstate, ⟨hconsistent, hagree⟩, hforest⟩
    · rintro ⟨hstate, ⟨hconsistent, hagree⟩, hforest⟩
      have hbefore : recordAll ms = .ok ⟨ms⟩ := (ih hids.1).mpr
        ⟨rfl, hconsistent, hforest.mono fun k j => @next_append ⟨ms⟩ m k j⟩
      rw [hbefore]
      exact (add_eq_ok hfresh).mpr ⟨hstate, hagree, hforest⟩

/-! ## 5. The order of recording -/

theorem routes_perm {state state' : TicketMigrations}
    (hperm : state.migrations.Perm state'.migrations) (source : String) :
    routes state source = [] ↔ routes state' source = [] := by
  unfold routes
  rw [← List.length_eq_zero_iff, ← List.length_eq_zero_iff, (hperm.filter _).length_eq]

/-- Where a walk arrives depends on the map, and on whether a migration leaves the source. -/
theorem arrival_perm {state state' : TicketMigrations}
    (hperm : state.migrations.Perm state'.migrations) (original : TicketRef)
    (destination : Option String) (build : String) (ref : TicketRef)
    (way : List (String × String)) (top : String × String) :
    arrival state original destination build ref way top =
      arrival state' original destination build ref way top := by
  unfold arrival stopped
  simp only [ne_eq, routes_perm hperm]

theorem walk_perm {state state' : TicketMigrations} (hconsistent : Consistent state)
    (hforest : Forest (next state)) (hperm : state.migrations.Perm state'.migrations) :
    walk state = walk state' := by
  funext ref destination build
  obtain ⟨way, top, hway⟩ := exists_way hforest (key ref)
  have hnext := hconsistent.next_perm hperm
  have hway' : Way state' (key ref :: way) top :=
    ⟨hnext ▸ hway.isChain, hway.nodup, hway.last, hnext ▸ hway.ends⟩
  rw [walk_way hway, walk_way hway', arrival_perm hperm]

end TicketMigrations

open TicketMigrations

/-- **Migrations have no order.**  Whether they are accepted, and where a reference resolves, is
the same however they were recorded; and from every reference there is one way along them, which
visits none twice and ends where the walk does. -/
theorem ticketMigrations_order_independent {ms ms' : List TicketMigration}
    (hids : (ms.map TicketMigration.identity).Nodup) (hperm : ms.Perm ms') :
    ((∃ state, recordAll ms = .ok state) ↔ ∃ state, recordAll ms' = .ok state) ∧
      ∀ state, recordAll ms = .ok state →
        (∀ state', recordAll ms' = .ok state' → ∀ ref destination build,
          resolveTicketRef state ref destination build =
            resolveTicketRef state' ref destination build) ∧
        ∀ ref, ∃ way top, Way state (key ref :: way) top ∧ ∀ destination build,
          walk state ref destination build =
            arrival state ref destination build ref (key ref :: way) top := by
  have hids' : (ms'.map TicketMigration.identity).Nodup :=
    (hperm.map TicketMigration.identity).nodup hids
  refine ⟨?_, fun state hstate => ?_⟩
  · have hacc : Consistent ⟨ms⟩ ∧ Forest (next ⟨ms⟩) ↔ Consistent ⟨ms'⟩ ∧ Forest (next ⟨ms'⟩) := by
      constructor
      · rintro ⟨hconsistent, hforest⟩
        have hnext := @Consistent.next_perm ⟨ms⟩ ⟨ms'⟩ hconsistent hperm
        exact ⟨hperm.pairwise hconsistent Agree.symm, hnext ▸ hforest⟩
      · rintro ⟨hconsistent, hforest⟩
        have hnext := @Consistent.next_perm ⟨ms'⟩ ⟨ms⟩ hconsistent hperm.symm
        exact ⟨hperm.symm.pairwise hconsistent Agree.symm, hnext ▸ hforest⟩
    simp only [recordAll_eq_ok hids, recordAll_eq_ok hids', hacc]
    simp
  · obtain ⟨rfl, hconsistent, hforest⟩ := (recordAll_eq_ok hids).mp hstate
    refine ⟨fun state' hstate' ref destination build => ?_, fun ref => ?_⟩
    · obtain ⟨rfl, -, -⟩ := (recordAll_eq_ok hids').mp hstate'
      unfold resolveTicketRef
      rw [@walk_perm ⟨ms⟩ ⟨ms'⟩ hconsistent hforest hperm]
    · obtain ⟨way, top, hway⟩ := exists_way hforest (key ref)
      exact ⟨way, top, hway, walk_way hway⟩

/-- A chain of two sources, recorded from its far end and from its near one. -/
theorem ticketMigrations_order_independent_chain :
    let near : TicketMigration := ⟨"near", "file", "hosted", ⟨[("1", "a")], by decide⟩⟩
    let far : TicketMigration := ⟨"far", "hosted", "linear", ⟨[("a", "x")], by decide⟩⟩
    ∃ state, recordAll [far, near] = .ok state ∧
      (∃ state', recordAll [near, far] = .ok state') ∧
      ∃ way top, Way state (("file", "1") :: way) top := by
  intro near far
  have hboth := ticketMigrations_order_independent (by decide)
    (List.Perm.swap near far [])
  have hrecorded : recordAll [far, near] = .ok ⟨[far, near]⟩ := by rfl
  obtain ⟨way, top, hway, -⟩ := (hboth.2 _ hrecorded).2 ⟨"file", "1", none, none⟩
  exact ⟨_, hrecorded, hboth.1.mp ⟨_, hrecorded⟩, way, top, hway⟩

end Autobuild
