/-
# Looking for a cycle, depth first

The search

    function findCycle(from, path, explored) {
      for (const next of successors(from)) {
        const seen = path.indexOf(next)
        if (seen !== -1) return [...path.slice(seen), next]
        if (explored.has(next)) continue
        const cycle = findCycle(next, [...path, next], explored)
        if (cycle) return cycle
        explored.add(next)
      }
      return null
    }

over a graph in which only finitely many nodes have successors.

* `search` is the search with fuel and `search_isSome` says how much is enough: the nodes with
  successors that are not on the path yet.
* `Explored` is what the pruning rests on: what was explored is closed under successors, has no
  cycle in it and does not meet the path.
* `search_cycle` and `search_null`: what it returns is a closed walk, and it returns nothing
  only where no cycle is reachable.
* `search_congr`: it asks for no successors but those of the nodes it walks to.
-/
import Autobuild.Lib.Worklist
import Mathlib.Data.List.Chain

universe u

namespace CycleSearch

open Relation

variable {α : Type u}

/-! ## 1. Walks and cycles -/

section Walks

variable {successors : α → List α}

/-- One step of the walk. -/
def Step (successors : α → List α) (x y : α) : Prop := y ∈ successors x

/-- A walk along the steps that ends where it began. -/
structure IsClosedWalk (successors : α → List α) (cycle : List α) : Prop where
  walk : cycle.IsChain (Step successors)
  long : 2 ≤ cycle.length
  closed : cycle.head? = cycle.getLast?

/-- A cycle can be reached from `x`. -/
def ReachesCycle (successors : α → List α) (x : α) : Prop :=
  ∃ y, ReflTransGen (Step successors) x y ∧ TransGen (Step successors) y y

/-- Along a walk every member reaches the last one. -/
theorem transGen_of_isChain : ∀ {walk : List α} {x y : α},
    (x :: walk).IsChain (Step successors) → walk.getLast? = some y →
      TransGen (Step successors) x y
  | [], _, _, _, hlast => absurd hlast nofun
  | [z], x, y, hchain, hlast => by
    obtain ⟨hstep, -⟩ := List.isChain_cons_cons.mp hchain
    rw [List.getLast?_singleton, Option.some_inj] at hlast
    exact hlast ▸ TransGen.single hstep
  | z :: w :: walk, x, y, hchain, hlast => by
    obtain ⟨hstep, hrest⟩ := List.isChain_cons_cons.mp hchain
    rw [List.getLast?_cons_cons] at hlast
    exact TransGen.head hstep (transGen_of_isChain hrest hlast)

theorem IsClosedWalk.transGen {cycle : List α} {x : α} (h : IsClosedWalk successors cycle)
    (hx : cycle.head? = some x) : TransGen (Step successors) x x := by
  obtain ⟨hwalk, hlong, hclosed⟩ := h
  match cycle, hwalk, hlong, hclosed, hx with
  | a :: b :: rest, hwalk, _, hclosed, hx =>
    rw [List.head?_cons, Option.some_inj] at hx
    subst hx
    rw [List.head?_cons, List.getLast?_cons_cons] at hclosed
    exact transGen_of_isChain hwalk hclosed.symm

/-- What the pruning rests on. -/
structure Explored (successors : α → List α) (path explored : List α) : Prop where
  closed : ∀ x ∈ explored, ∀ y, Step successors x y → y ∈ explored
  acyclic : ∀ x ∈ explored, ¬TransGen (Step successors) x x
  offPath : ∀ x ∈ explored, x ∉ path

theorem Explored.nil (path : List α) : Explored successors path [] :=
  ⟨fun _ h => absurd h List.not_mem_nil, fun _ h => absurd h List.not_mem_nil,
    fun _ h => absurd h List.not_mem_nil⟩

theorem Explored.reach {path explored : List α} (h : Explored successors path explored)
    {x y : α} (hx : x ∈ explored) (hreach : TransGen (Step successors) x y) : y ∈ explored := by
  induction hreach with
  | single hstep => exact h.closed _ hx _ hstep
  | tail _ hstep ih => exact h.closed _ ih _ hstep

/-- A node outside, with all its successors explored, is on no cycle. -/
theorem Explored.not_cycle {path explored : List α} (h : Explored successors path explored)
    {x : α} (hx : x ∉ explored) (hnext : ∀ y, Step successors x y → y ∈ explored) :
    ¬TransGen (Step successors) x x := by
  intro hcycle
  obtain ⟨y, hstep, hback⟩ := TransGen.head'_iff.mp hcycle
  rcases reflTransGen_iff_eq_or_transGen.mp hback with heq | hback
  · exact hx (heq ▸ hnext y hstep)
  · exact hx (h.reach (hnext y hstep) hback)

theorem Explored.add {path explored : List α} {x : α}
    (h : Explored successors (path ++ [x]) explored) (hx : x ∉ path)
    (hnext : ∀ y, Step successors x y → y ∈ explored) :
    Explored successors path (x :: explored) := by
  have hout : x ∉ explored := fun hin =>
    h.offPath x hin (List.mem_append_right _ List.mem_cons_self)
  refine ⟨?_, ?_, ?_⟩
  · rintro a ha y hstep
    rcases List.mem_cons.mp ha with rfl | ha
    · exact List.mem_cons_of_mem _ (hnext y hstep)
    · exact List.mem_cons_of_mem _ (h.closed a ha y hstep)
  · rintro a ha
    rcases List.mem_cons.mp ha with rfl | ha
    · exact h.not_cycle hout hnext
    · exact h.acyclic a ha
  · rintro a ha hin
    rcases List.mem_cons.mp ha with rfl | ha
    · exact hx hin
    · exact h.offPath a ha (List.mem_append_left _ hin)

theorem Explored.enter {path explored : List α} {x : α} (h : Explored successors path explored)
    (hx : x ∉ explored) : Explored successors (path ++ [x]) explored := by
  refine ⟨h.closed, h.acyclic, fun a ha hin => ?_⟩
  rcases List.mem_append.mp hin with hin | hin
  · exact h.offPath a ha hin
  · exact hx (List.mem_singleton.mp hin ▸ ha)

end Walks

variable [DecidableEq α]

/-! ## 2. The search -/

/-- The loop over the successors of one node; `visit` walks on from one of them. -/
def among (visit : α → List α → List α → Option (Option (List α) × List α)) (path : List α) :
    List α → List α → Option (Option (List α) × List α)
  | explored, [] => some (none, explored)
  | explored, next :: rest =>
    if next ∈ path then some (some (path.drop (path.idxOf next) ++ [next]), explored)
    else if next ∈ explored then among visit path explored rest
    else
      match visit next (path ++ [next]) explored with
      | none => none
      | some (some cycle, explored) => some (some cycle, explored)
      | some (none, explored) => among visit path (next :: explored) rest

/-- The search, `none` when the fuel runs out, with what was explored. -/
def search (successors : α → List α) :
    Nat → α → List α → List α → Option (Option (List α) × List α)
  | 0, _, _, _ => none
  | fuel + 1, x, path, explored => among (search successors fuel) path explored (successors x)

/-- The nodes with successors that are not on the path. -/
def unwalked (g : Worklist.Graph α) (path : List α) : Nat :=
  (g.sources.filter (· ∉ path)).length

theorem unwalked_append_lt (g : Worklist.Graph α) {path : List α} {x : α} (hx : x ∈ g.sources)
    (hpath : x ∉ path) : unwalked g (path ++ [x]) < unwalked g path := by
  have hfilter : g.sources.filter (· ∉ path ++ [x]) =
      (g.sources.filter (· ∉ path)).filter (· ≠ x) := by
    rw [List.filter_filter]
    refine List.filter_congr fun y _ => ?_
    simp only [List.mem_append, List.mem_singleton, not_or, Bool.decide_and, Bool.and_comm, ne_eq]
  unfold unwalked
  rw [hfilter]
  refine List.length_filter_lt_length_iff_exists.mpr ⟨x, List.mem_filter.mpr ⟨hx, ?_⟩, ?_⟩
  · exact decide_eq_true hpath
  · simp

theorem among_isSome {visit : α → List α → List α → Option (Option (List α) × List α)}
    {path : List α} : ∀ (explored rest : List α),
      (∀ next ∈ rest, next ∉ path → ∀ explored, (visit next (path ++ [next]) explored).isSome) →
        (among visit path explored rest).isSome
  | _, [], _ => rfl
  | explored, next :: rest, hvisit => by
    have hrest : ∀ y ∈ rest, y ∉ path → ∀ explored, (visit y (path ++ [y]) explored).isSome :=
      fun y hy => hvisit y (List.mem_cons_of_mem _ hy)
    rw [among]
    split
    · rfl
    next hpath =>
      split
      · exact among_isSome explored rest hrest
      · split
        next hnone =>
          have hsome := hvisit next List.mem_cons_self hpath explored
          rw [hnone] at hsome
          exact absurd hsome nofun
        · rfl
        · exact among_isSome _ rest hrest

/-- The search ends: every node it walks to with successors leaves one fewer for the rest. -/
theorem search_isSome (g : Worklist.Graph α) : ∀ (fuel : Nat) (x : α) (path explored : List α),
    0 < fuel → (g.next x = [] ∨ unwalked g path + 2 ≤ fuel) →
      (search g.next fuel x path explored).isSome
  | 0, _, _, _, hpos, _ => absurd hpos (Nat.lt_irrefl 0)
  | fuel + 1, x, path, explored, _, henough => by
    rw [search]
    refine among_isSome explored _ fun next hnext hpath explored => ?_
    rcases henough with hnil | henough
    · rw [hnil] at hnext
      exact absurd hnext List.not_mem_nil
    · refine search_isSome g fuel next _ explored (by omega) ?_
      by_cases hsource : next ∈ g.sources
      · have := unwalked_append_lt g hsource hpath
        exact .inr (by omega)
      · exact .inl (List.eq_nil_iff_forall_not_mem.mpr fun y hy =>
          hsource (g.mem_sources hy))

/-! ## 3. Which successors it asks for -/

theorem among_congr {visit visit' : α → List α → List α → Option (Option (List α) × List α)}
    {path : List α} : ∀ (explored rest : List α),
      (∀ next ∈ rest, next ∉ path → ∀ explored,
        visit next (path ++ [next]) explored = visit' next (path ++ [next]) explored) →
        among visit path explored rest = among visit' path explored rest
  | _, [], _ => rfl
  | explored, next :: rest, hvisit => by
    have hrest : ∀ y ∈ rest, y ∉ path → ∀ explored,
        visit y (path ++ [y]) explored = visit' y (path ++ [y]) explored :=
      fun y hy => hvisit y (List.mem_cons_of_mem _ hy)
    rw [among, among]
    split
    · rfl
    next hpath =>
      rw [among_congr explored rest hrest, hvisit next List.mem_cons_self hpath explored]
      split
      · rfl
      · split
        · rfl
        · rfl
        next hnull => exact among_congr _ rest hrest

/-- Two graphs that agree on what is walked to, off the path, have the same search. -/
theorem search_congr {successors successors' : α → List α} {Known : α → Prop} :
    ∀ (fuel : Nat) (x : α) (path explored : List α),
      successors x = successors' x → (∀ y ∈ successors x, Known y) →
        (∀ y, Known y → y ∉ path →
          successors y = successors' y ∧ ∀ z ∈ successors y, Known z) →
          search successors fuel x path explored = search successors' fuel x path explored
  | 0, _, _, _, _, _, _ => rfl
  | fuel + 1, x, path, explored, hx, hknown, hagree => by
    rw [search, search, ← hx]
    refine among_congr explored _ fun next hnext hpath explored => ?_
    obtain ⟨hnext', hthere⟩ := hagree next (hknown next hnext) hpath
    refine search_congr fuel next _ explored hnext' hthere fun y hy hoff => ?_
    exact hagree y hy fun hin => hoff (List.mem_append_left _ hin)

/-! ## 4. What it returns is a closed walk -/

section Found

variable {successors : α → List α}

theorem head?_drop_idxOf {path : List α} {x : α} (hx : x ∈ path) :
    (path.drop (path.idxOf x)).head? = some x := by
  rw [List.head?_drop, List.getElem?_eq_getElem (List.idxOf_lt_length_iff.mpr hx),
    List.getElem_idxOf]

theorem isClosedWalk_of_path {path : List α} {x next : α} (hpath : path.IsChain (Step successors))
    (hlast : path.getLast? = some x) (hstep : Step successors x next) (hin : next ∈ path) :
    IsClosedWalk successors (path.drop (path.idxOf next) ++ [next]) := by
  have hhead := head?_drop_idxOf hin
  have hdrop : (path.drop (path.idxOf next)).getLast? = some x := by
    rw [List.getLast?_drop, if_neg (by
      have := List.idxOf_lt_length_iff.mpr hin
      omega), hlast]
  refine ⟨?_, ?_, ?_⟩
  · rw [List.isChain_append]
    refine ⟨hpath.drop _, List.isChain_singleton _, fun a ha b hb => ?_⟩
    rw [hdrop, Option.mem_some] at ha
    rw [List.head?_cons, Option.mem_some] at hb
    rw [← ha, ← hb]
    exact hstep
  · rw [List.length_append, List.length_singleton]
    have : 0 < (path.drop (path.idxOf next)).length :=
      List.length_pos_iff.mpr fun hnil => by rw [hnil] at hhead; exact absurd hhead nofun
    omega
  · rw [List.head?_append, hhead, Option.some_or, List.getLast?_append, List.getLast?_singleton,
      Option.some_or]

/-- What one visit may return, of the node it walks on from. -/
def Sound (successors : α → List α) (x : α) (cycle : List α) : Prop :=
  IsClosedWalk successors cycle ∧ ReachesCycle successors x

theorem among_cycle {visit : α → List α → List α → Option (Option (List α) × List α)}
    {path cycle explored' : List α} {x : α} (hpath : path.IsChain (Step successors))
    (hlast : path.getLast? = some x) : ∀ (explored rest : List α),
      (∀ next ∈ rest, Step successors x next) →
        (∀ next ∈ rest, next ∉ path → ∀ explored cycle explored',
          visit next (path ++ [next]) explored = some (some cycle, explored') →
            Sound successors next cycle) →
          among visit path explored rest = some (some cycle, explored') →
            Sound successors x cycle
  | _, [], _, _, h => by
    rw [among, Option.some_inj, Prod.mk.injEq] at h
    exact absurd h.1 nofun
  | explored, next :: rest, hsteps, hvisit, h => by
    have hrest : ∀ y ∈ rest, y ∉ path → ∀ explored cycle explored',
        visit y (path ++ [y]) explored = some (some cycle, explored') →
          Sound successors y cycle := fun y hy => hvisit y (List.mem_cons_of_mem _ hy)
    have hsteps' : ∀ y ∈ rest, Step successors x y :=
      fun y hy => hsteps y (List.mem_cons_of_mem _ hy)
    have hstep := hsteps next List.mem_cons_self
    rw [among] at h
    split at h
    next hin =>
      rw [Option.some_inj, Prod.mk.injEq, Option.some_inj] at h
      obtain ⟨rfl, -⟩ := h
      have hclosed := isClosedWalk_of_path hpath hlast hstep hin
      refine ⟨hclosed, next, ReflTransGen.single hstep, hclosed.transGen ?_⟩
      rw [List.head?_append, head?_drop_idxOf hin, Option.some_or]
    next hout =>
      split at h
      · exact among_cycle hpath hlast explored rest hsteps' hrest h
      · split at h
        · exact absurd h nofun
        next hfound =>
          rw [Option.some_inj, Prod.mk.injEq, Option.some_inj] at h
          obtain ⟨rfl, -⟩ := h
          obtain ⟨hclosed, y, hreach, hcycle⟩ :=
            hvisit next List.mem_cons_self hout _ _ _ hfound
          exact ⟨hclosed, y, ReflTransGen.head hstep hreach, hcycle⟩
        · exact among_cycle hpath hlast _ rest hsteps' hrest h

/-- The path is a walk to the node the search is at, so a successor on it closes a walk. -/
theorem search_cycle : ∀ (fuel : Nat) {x : α} {path explored cycle explored' : List α},
    path.IsChain (Step successors) → path.getLast? = some x →
      search successors fuel x path explored = some (some cycle, explored') →
        Sound successors x cycle
  | 0, _, _, _, _, _, _, _, h => absurd h nofun
  | fuel + 1, x, path, explored, cycle, explored', hpath, hlast, h => by
    rw [search] at h
    refine among_cycle hpath hlast explored _ (fun _ hnext => hnext) ?_ h
    intro next hnext _ explored cycle explored' hvisit
    refine search_cycle fuel ?_ ?_ hvisit
    · rw [List.isChain_append]
      refine ⟨hpath, List.isChain_singleton _, fun a ha b hb => ?_⟩
      rw [hlast, Option.mem_some] at ha
      rw [List.head?_cons, Option.mem_some] at hb
      rw [← ha, ← hb]
      exact hnext
    · rw [List.getLast?_append, List.getLast?_singleton, Option.some_or]

end Found

/-! ## 5. It returns nothing only where there is no cycle -/

section Null

variable {successors : α → List α}

theorem among_null {visit : α → List α → List α → Option (Option (List α) × List α)}
    {path explored' : List α} : ∀ (explored rest : List α),
      Explored successors path explored →
        (∀ next ∈ rest, next ∉ path → ∀ explored explored',
          Explored successors (path ++ [next]) explored →
            visit next (path ++ [next]) explored = some (none, explored') →
              Explored successors (path ++ [next]) explored' ∧ explored ⊆ explored' ∧
                ∀ y, Step successors next y → y ∈ explored') →
          among visit path explored rest = some (none, explored') →
            Explored successors path explored' ∧ explored ⊆ explored' ∧
              ∀ next ∈ rest, next ∈ explored'
  | explored, [], hok, _, h => by
    rw [among, Option.some_inj, Prod.mk.injEq] at h
    exact h.2 ▸ ⟨hok, fun _ => id, fun _ hnext => absurd hnext List.not_mem_nil⟩
  | explored, next :: rest, hok, hvisit, h => by
    have hvisit' := fun y hy => hvisit y (List.mem_cons_of_mem next hy)
    rw [among] at h
    split at h
    · rw [Option.some_inj, Prod.mk.injEq] at h
      exact absurd h.1 nofun
    next hout =>
      split at h
      next hold =>
        obtain ⟨hok', hsub, hall⟩ := among_null explored rest hok hvisit' h
        refine ⟨hok', hsub, fun y hy => ?_⟩
        rcases List.mem_cons.mp hy with rfl | hy
        · exact hsub hold
        · exact hall y hy
      next hnew =>
        split at h
        · exact absurd h nofun
        · rw [Option.some_inj, Prod.mk.injEq] at h
          exact absurd h.1 nofun
        next hnull =>
          obtain ⟨hok₁, hsub₁, hnext⟩ :=
            hvisit next List.mem_cons_self hout _ _ (hok.enter hnew) hnull
          obtain ⟨hok', hsub, hall⟩ :=
            among_null _ rest (hok₁.add hout hnext) hvisit' h
          refine ⟨hok', fun y hy => hsub (List.mem_cons_of_mem _ (hsub₁ hy)), fun y hy => ?_⟩
          rcases List.mem_cons.mp hy with rfl | hy
          · exact hsub List.mem_cons_self
          · exact hall y hy

theorem search_explored : ∀ (fuel : Nat) {x : α} {path explored explored' : List α},
    Explored successors path explored →
      search successors fuel x path explored = some (none, explored') →
        Explored successors path explored' ∧ explored ⊆ explored' ∧
          ∀ y, Step successors x y → y ∈ explored'
  | 0, _, _, _, _, _, h => absurd h nofun
  | fuel + 1, x, path, explored, explored', hok, h => by
    rw [search] at h
    exact among_null explored _ hok
      (fun next _ _ explored explored' hok' => search_explored fuel hok') h

theorem search_null {fuel : Nat} {x : α} {path explored : List α} (hx : x ∈ path)
    (h : search successors fuel x path [] = some (none, explored)) :
    ¬ReachesCycle successors x := by
  obtain ⟨hok, -, hnext⟩ := search_explored fuel (Explored.nil path) h
  rintro ⟨y, hreach, hcycle⟩
  have hout : x ∉ explored := fun hin => hok.offPath x hin hx
  rcases reflTransGen_iff_eq_or_transGen.mp hreach with rfl | hreach
  · exact hok.not_cycle hout hnext hcycle
  · obtain ⟨z, hstep, hrest⟩ := TransGen.head'_iff.mp hreach
    have hy : y ∈ explored := by
      rcases reflTransGen_iff_eq_or_transGen.mp hrest with rfl | hrest
      · exact hnext _ hstep
      · exact hok.reach (hnext z hstep) hrest
    exact hok.acyclic y hy hcycle

end Null

end CycleSearch
