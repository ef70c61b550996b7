/-
# The parent of a node

A node may ask for another parent.  The request is a fact of its log, and so are its acceptance,
which moves the node, its cancellation, and the completion of the move.  A parent is admitted if
the node is not met on a walk up from it, over the targets in force and the requested ones.

* `ParentFacts`: what the events say of a parent, as the reducers fold it (`NodeParentFacts`).
* `ParentWalk`: the walk, one read at a time.
* `ParentWalk.Sound`: what a walk that did not refuse has seen, whatever happens to the logs
  between its reads as long as no build it may have seen moves.
* `ParentWalk.Sound.endsClear`: once it is over, the way up from the parent is clear of the node.
-/
import Autobuild.Kernel.Reducer
import Autobuild.Lib.ParentMap

namespace Autobuild

open ParentMap

/-! ## 1. The facts -/

/-- The parts of the reduced state that a move reads. -/
structure ParentFacts where
  kind : Option BuildKind := none
  nodeOpened : Bool := false
  target : Option BuildTarget := none
  baseBranch : Option String := none
  parentRequest : Option ParentChange := none
  parentChange : Option ParentChange := none

namespace ParentFacts

/-- An accepted move is in force, and answers the request. -/
def accept (facts : ParentFacts) (move : ParentChange) : ParentFacts :=
  { facts with
    target := if facts.kind = some .node then move.next.target else facts.target
    baseBranch := if facts.kind = some .node then some move.next.branch else facts.baseBranch
    parentRequest := none
    parentChange := some move }

def note (facts : ParentFacts) : EventBody → ParentFacts
  | .build (.created payload) =>
    { facts with
      kind := payload.kind, target := payload.target, baseBranch := some payload.baseBranch }
  | .node (.opened _) => { facts with nodeOpened := true }
  | .node (.parentRequested request) => { facts with parentRequest := some request }
  | .node (.parentAccepted move) => facts.accept move
  | .node (.parentCancelled id _) =>
    { facts with parentRequest := facts.parentRequest.filter (·.id ≠ id) }
  | .node (.parentCompleted id) =>
    { facts with parentChange := facts.parentChange.filter (·.id ≠ id) }
  | _ => facts

/-- `new Set([target, requested target])`, without the missing ones. -/
def edges (facts : ParentFacts) : List String :=
  ((facts.target.map (·.build)).toList ++
    ((facts.parentRequest.bind (·.next.target)).map (·.build)).toList).eraseDups.filter (· ≠ "")

theorem mem_edges {facts : ParentFacts} {target : BuildTarget} (h : facts.target = some target)
    (hne : target.build ≠ "") : target.build ∈ facts.edges := by
  refine List.mem_filter.mpr ⟨List.mem_eraseDups.mpr ?_, by simpa using hne⟩
  rw [h]
  exact List.mem_append_left _ (List.mem_singleton_self _)

end ParentFacts

def parentFacts (log : List EventBody) : ParentFacts := log.foldl .note {}

@[simp] theorem parentFacts_snoc (log : List EventBody) (body : EventBody) :
    parentFacts (log ++ [body]) = (parentFacts log).note body := by
  unfold parentFacts
  rw [List.foldl_append]
  rfl

/-! ## 2. The walk -/

inductive ParentFrame where
  /-- `await walk(slug, path)` -/
  | enter (slug : String) (path : List String)
  /-- `visited.add(slug)` -/
  | leave (slug : String)

/-- The walk between two reads: what is still to be done, innermost call first. -/
structure ParentWalk where
  visited : List String := []
  todo : List ParentFrame := []

namespace ParentWalk

/-- The next call or return, with what a read shows now. -/
def step (read : String → Option ParentFacts) (walk : ParentWalk) : Except String ParentWalk :=
  match walk.todo with
  | [] => .ok walk
  | .leave slug :: rest => .ok ⟨slug :: walk.visited, rest⟩
  | .enter slug path :: rest =>
    if slug ∈ path then .error "parent change would create an effective or pending cycle"
    else if slug ∈ walk.visited then .ok { walk with todo := rest }
    else
      match read slug with
      | none => .error "no such build"
      | some ancestor =>
        .ok { walk with
          todo := ancestor.edges.map (.enter · (path ++ [slug])) ++ .leave slug :: rest }

/-- `walk(target, new Set([record]))` -/
def start (record target : String) : ParentWalk := ⟨[], [.enter target [record]]⟩

/-- Its facts were read. -/
def Passed (walk : ParentWalk) (slug : String) : Prop :=
  slug ∈ walk.visited ∨ .leave slug ∈ walk.todo

def Met (walk : ParentWalk) (slug : String) : Prop :=
  walk.Passed slug ∨ ∃ path, .enter slug path ∈ walk.todo

/-- What a walk up from a target has seen.  Builds it passed are there, are not the node, and what
is above them was met. -/
structure Sound (built : String → Prop) (up : String → Option String) (record target : String)
    (walk : ParentWalk) : Prop where
  path : ∀ slug path, .enter slug path ∈ walk.todo → record ∈ path
  built : ∀ slug, walk.Passed slug → built slug
  clear : ¬ walk.Passed record
  above : ∀ slug, walk.Passed slug → ∀ above, up slug = some above → above ≠ "" → walk.Met above
  first : walk.Met target

theorem Sound.start (built : String → Prop) (up : String → Option String)
    (record target : String) : (start record target).Sound built up record target := by
  have hnone : ∀ slug, ¬ (ParentWalk.start record target).Passed slug := by
    rintro slug (hv | hl)
    · exact absurd hv List.not_mem_nil
    · cases List.mem_singleton.mp hl
  refine ⟨fun slug path he => ?_, fun slug hp => absurd hp (hnone slug), hnone record,
    fun slug hp => absurd hp (hnone slug), .inr ⟨[record], List.mem_singleton_self _⟩⟩
  cases List.mem_singleton.mp he
  exact List.mem_singleton_self _

variable {built built' : String → Prop} {up up' : String → Option String}
  {record target : String} {walk walk' : ParentWalk}

/-- A walk stays sound while builds stay, and stay where they are. -/
theorem Sound.mono (h : walk.Sound built up record target)
    (hbuilt : ∀ slug, built slug → built' slug)
    (hup : ∀ slug, built slug → up' slug = up slug) : walk.Sound built' up' record target where
  path := h.path
  built slug hp := hbuilt slug (h.built slug hp)
  clear := h.clear
  above slug hp above habove :=
    h.above slug hp above ((hup slug (h.built slug hp)).symm.trans habove)
  first := h.first

/-- A walk that passed no more and met no less. -/
theorem Sound.transport (h : walk.Sound built up record target)
    (hpath : ∀ slug path, .enter slug path ∈ walk'.todo → .enter slug path ∈ walk.todo)
    (hpassed : ∀ slug, walk'.Passed slug → walk.Passed slug)
    (hmet : ∀ slug, walk.Met slug → walk'.Met slug) : walk'.Sound built up record target where
  path slug path he := h.path slug path (hpath slug path he)
  built slug hp := h.built slug (hpassed slug hp)
  clear hp := h.clear (hpassed record hp)
  above slug hp above habove hne := hmet above (h.above slug (hpassed slug hp) above habove hne)
  first := hmet target h.first

section Step

variable {visited path : List String} {rest : List ParentFrame} {slug : String}

theorem Sound.leave (h : Sound built up record target ⟨visited, .leave slug :: rest⟩) :
    Sound built up record target ⟨slug :: visited, rest⟩ := by
  refine h.transport (fun _ _ he => List.mem_cons_of_mem _ he) ?_ ?_
  · rintro other (hv | hl)
    · rcases List.mem_cons.mp hv with rfl | hv
      · exact .inr List.mem_cons_self
      · exact .inl hv
    · exact .inr (List.mem_cons_of_mem _ hl)
  · rintro other ((hv | hl) | ⟨path, he⟩)
    · exact .inl (.inl (List.mem_cons_of_mem _ hv))
    · rcases List.mem_cons.mp hl with heq | hl
      · cases heq
        exact .inl (.inl List.mem_cons_self)
      · exact .inl (.inr hl)
    · rcases List.mem_cons.mp he with heq | he
      · cases heq
      · exact .inr ⟨path, he⟩

/-- A build that was left before is not walked again. -/
theorem Sound.skip (h : Sound built up record target ⟨visited, .enter slug path :: rest⟩)
    (hseen : slug ∈ visited) : Sound built up record target ⟨visited, rest⟩ := by
  refine h.transport (fun _ _ he => List.mem_cons_of_mem _ he) ?_ ?_
  · rintro other (hv | hl)
    · exact .inl hv
    · exact .inr (List.mem_cons_of_mem _ hl)
  · rintro other ((hv | hl) | ⟨path', he⟩)
    · exact .inl (.inl hv)
    · rcases List.mem_cons.mp hl with heq | hl
      · cases heq
      · exact .inl (.inr hl)
    · rcases List.mem_cons.mp he with heq | he
      · cases heq
        exact .inl (.inl hseen)
      · exact .inr ⟨path', he⟩

/-- The walk after a build was read that is not on the path. -/
def expand (facts : ParentFacts) (visited : List String) (slug : String) (path : List String)
    (rest : List ParentFrame) : ParentWalk :=
  ⟨visited, facts.edges.map (.enter · (path ++ [slug])) ++ .leave slug :: rest⟩

variable {facts : ParentFacts}

theorem passed_of_expand {other : String}
    (h : (expand facts visited slug path rest).Passed other) :
    other = slug ∨ Passed ⟨visited, .enter slug path :: rest⟩ other := by
  rcases h with hv | hl
  · exact .inr (.inl hv)
  · rcases List.mem_append.mp hl with hl | hl
    · obtain ⟨_, -, heq⟩ := List.mem_map.mp hl
      cases heq
    · rcases List.mem_cons.mp hl with heq | hl
      · cases heq
        exact .inl rfl
      · exact .inr (.inr (List.mem_cons_of_mem _ hl))

theorem met_expand {other : String} (h : Met ⟨visited, .enter slug path :: rest⟩ other) :
    (expand facts visited slug path rest).Met other := by
  rcases h with (hv | hl) | ⟨path', he⟩
  · exact .inl (.inl hv)
  · rcases List.mem_cons.mp hl with heq | hl
    · cases heq
    · exact .inl (.inr (List.mem_append_right _ (List.mem_cons_of_mem _ hl)))
  · rcases List.mem_cons.mp he with heq | he
    · cases heq
      exact .inl (.inr (List.mem_append_right _ List.mem_cons_self))
    · exact .inr ⟨path', List.mem_append_right _ (List.mem_cons_of_mem _ he)⟩

theorem Sound.expand (h : Sound built up record target ⟨visited, .enter slug path :: rest⟩)
    (hcycle : slug ∉ path) (hbuilt : built slug) (hup : up slug = facts.target.map (·.build)) :
    (ParentWalk.expand facts visited slug path rest).Sound built up record target := by
  have hrecord : record ∈ path := h.path slug path List.mem_cons_self
  refine ⟨fun other path' he => ?_, fun other hp => ?_, fun hp => ?_,
    fun other hp above habove hne => ?_, met_expand h.first⟩
  · rcases List.mem_append.mp he with he | he
    · obtain ⟨_, -, heq⟩ := List.mem_map.mp he
      cases heq
      exact List.mem_append_left _ hrecord
    · rcases List.mem_cons.mp he with heq | he
      · cases heq
      · exact h.path other path' (List.mem_cons_of_mem _ he)
  · rcases passed_of_expand hp with rfl | hp
    · exact hbuilt
    · exact h.built other hp
  · rcases passed_of_expand hp with rfl | hp
    · exact hcycle hrecord
    · exact h.clear hp
  · rcases passed_of_expand hp with rfl | hp
    · -- its target is among the edges that are walked next
      rw [hup] at habove
      obtain ⟨target, ht, rfl⟩ := Option.map_eq_some_iff.mp habove
      exact .inr ⟨_, List.mem_append_left _
        (List.mem_map_of_mem (ParentFacts.mem_edges ht hne))⟩
    · exact met_expand (h.above other hp above habove hne)

end Step

/-- **A step of the walk** reads what is above a build before it passes it. -/
theorem Sound.step {read : String → Option ParentFacts} (h : walk.Sound built up record target)
    (hbuilt : ∀ slug facts, read slug = some facts → built slug)
    (hread : ∀ slug facts, read slug = some facts → up slug = facts.target.map (·.build))
    (hstep : walk.step read = .ok walk') : walk'.Sound built up record target := by
  obtain ⟨visited, todo⟩ := walk
  unfold ParentWalk.step at hstep
  cases todo with
  | nil =>
    cases hstep
    exact h
  | cons frame rest =>
    cases frame with
    | leave slug =>
      cases hstep
      exact h.leave
    | enter slug path =>
      dsimp only at hstep
      split_ifs at hstep with hcycle hseen
      · cases hstep
        exact h.skip hseen
      · cases hancestor : read slug with
        | none =>
          rw [hancestor] at hstep
          cases hstep
        | some ancestor =>
          rw [hancestor] at hstep
          cases hstep
          exact h.expand hcycle (hbuilt _ _ hancestor) (hread _ _ hancestor)

/-- **A walk that is over** saw the whole way up, and not the node. -/
theorem Sound.endsClear (h : walk.Sound built up record target) (hdone : walk.todo = [])
    (hforest : Forest up) (hblank : up "" = none) (hrecord : record ≠ "") :
    EndsClear up record target := by
  have hvisited : ∀ slug, walk.Met slug → slug ∈ walk.visited := by
    rintro slug ((hv | hl) | ⟨path, he⟩)
    · exact hv
    · rw [hdone] at hl
      exact absurd hl List.not_mem_nil
    · rw [hdone] at he
      exact absurd he List.not_mem_nil
  have hends : ∀ slug, slug ∈ walk.visited → EndsClear up record slug := by
    intro slug
    induction slug using hforest.induction with
    | _ slug ih =>
      intro hv
      have hne : slug ≠ record := by
        rintro rfl
        exact h.clear (.inl hv)
      cases hup : up slug with
      | none => exact .root hne hup
      | some above =>
        refine .up hne hup ?_
        by_cases hab : above = ""
        · rw [hab]
          exact .root hrecord.symm hblank
        · exact ih above hup (hvisited above (h.above slug (.inl hv) above hup hab))
  exact hends target (hvisited target h.first)

end ParentWalk

end Autobuild
