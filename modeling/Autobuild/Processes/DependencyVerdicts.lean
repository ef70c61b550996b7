/-
# What a dependency verdict says

Before a ticket is dispatched its blockers are loaded round by round, through the cache of the
whole scan, and the verdict over them lists the unresolved ones.

* `loadDependencyGraph_loaded`: without builds and a budget limit the rounds end, and what they
  visited is in the cache with the source's facts, closed under the edges that are walked.
* `analyzeDependencies_eq`: the verdict is one line for every obstacle, in the declared order.
* `dependency_verdicts`: the obstacles are the real ones, and a cycle is named where one is.

The edges are those of the source (`blockersOf`), but for the ticket under analysis, which has
the blockers it declares.
-/
import Autobuild.Lib.CycleSearch
import Autobuild.Lib.Json
import Autobuild.Lib.JsText
import Autobuild.Lib.ObjectMap
import Autobuild.Ontology

namespace Autobuild.DependencyVerdicts

open ObjectMap

/-! ## 1. The source and the verdict -/

/-- `DependencyState`; `found` is its `exists`. -/
structure DependencyState where
  id : String
  found : Bool
  resolved : Bool
  state : Option String
  blockedBy : List String
  deriving DecidableEq, Repr

/-- `DependencyNode`. -/
structure DependencyNode extends DependencyState where
  rejected : Bool
  deriving DecidableEq, Repr

structure Ticket where
  ref : TicketRef
  blockedBy : Option (List String)

/-- `ticket.blockedBy ?? []`. -/
def Ticket.declared (ticket : Ticket) : List String := ticket.blockedBy.getD []

/-- `holdsState`; `fold` trims a name and makes it lower case. -/
def holdsState (fold : String → String) (state name : Option String) : Bool :=
  match state, name with
  | some state, some name => fold state = fold name
  | _, _ => false

def markRejected (fold : String → String) (node : DependencyState)
    (rejectedState : Option String) : DependencyNode :=
  if node.found && holdsState fold node.state rejectedState then
    { node with resolved := false, rejected := true }
  else { node with rejected := false }

abbrev Nodes := JsMap String DependencyNode

inductive Diagnostic where
  | dependsOnItself (ticketId : String)
  | missing (ticketId blockerId : String)
  | rejected (ticketId blockerId : String)
  | cycle (ticketId : String) (cycle : List String)
  | notComplete (ticketId blockerId : String)
  deriving DecidableEq, Repr

def Diagnostic.text : Diagnostic → String
  | .dependsOnItself ticketId => "ticket " ++ ticketId ++ " depends on itself"
  | .missing ticketId blockerId =>
    "ticket " ++ ticketId ++ " blocked by " ++ blockerId ++ ", which does not exist in " ++
      "this ticket source"
  | .rejected ticketId blockerId =>
    "ticket " ++ ticketId ++ " blocked by " ++ blockerId ++ ", which was rejected"
  | .cycle ticketId path =>
    "ticket " ++ ticketId ++ ": dependency cycle " ++ " → ".intercalate path
  | .notComplete ticketId blockerId =>
    "ticket " ++ ticketId ++ " blocked by " ++ blockerId ++ " (not complete)"

structure DependencyVerdict where
  unresolved : List String
  diagnostics : List Diagnostic
  deriving DecidableEq, Repr

/-! ## 2. The walk and the verdict over loaded nodes -/

/-- The blockers that are walked to from a ticket: none where it is missing or resolved. -/
def blockersOf (node : Option DependencyNode) : List String :=
  match node with
  | some node => if !node.found || node.resolved then [] else node.blockedBy
  | none => []

def nodeBlockers (nodes : Nodes) (id : String) : List String := blockersOf (nodes.get? ⟨id⟩)

/-- The nodes as a graph: only what is in the map has blockers. -/
def graphOf (nodes : Nodes) : Worklist.Graph String where
  next := nodeBlockers nodes
  sources := nodes.keys.map (·.key)
  mem_sources {x y} h := by
    cases hnode : nodes.get? ⟨x⟩ with
    | none =>
      rw [nodeBlockers, hnode] at h
      exact absurd h List.not_mem_nil
    | some node =>
      refine List.mem_map.mpr ⟨⟨x⟩, isSome_get?.mp ?_, rfl⟩
      rw [hnode]
      rfl

/-- `findCycle`, which also says what it explored. -/
def findCycle (start : String) (path : List String) (nodes : Nodes) (explored : List String) :
    Option (List String) × List String :=
  (CycleSearch.search (nodeBlockers nodes) (nodes.size + 2) start path explored).get
    (CycleSearch.search_isSome (graphOf nodes) _ start path explored (Nat.succ_pos _) (.inr (by
      have := List.length_filter_le (· ∉ path) (graphOf nodes).sources
      have hsize : (graphOf nodes).sources.length = nodes.size := by
        rw [size_eq_length_keys]
        exact List.length_map _
      simp only [CycleSearch.unwalked]
      omega)))

theorem some_findCycle (start : String) (path : List String) (nodes : Nodes)
    (explored : List String) : some (findCycle start path nodes explored) =
      CycleSearch.search (nodeBlockers nodes) (nodes.size + 2) start path explored :=
  Option.some_get _

def DependencyVerdict.push (verdict : DependencyVerdict) (blockerId : String)
    (line : Diagnostic) : DependencyVerdict :=
  ⟨verdict.unresolved ++ [blockerId], verdict.diagnostics ++ [line]⟩

/-- The body of the loop of `analyzeDependencies`. -/
def analyzeBlocker (ticketId : String) (nodes : Nodes) (verdict : DependencyVerdict)
    (blockerId : String) : DependencyVerdict :=
  if blockerId = ticketId then verdict.push blockerId (.dependsOnItself ticketId)
  else
    match nodes.get? ⟨blockerId⟩ with
    | none => verdict.push blockerId (.missing ticketId blockerId)
    | some node =>
      if !node.found then verdict.push blockerId (.missing ticketId blockerId)
      else if node.rejected then verdict.push blockerId (.rejected ticketId blockerId)
      else if node.resolved then verdict
      else
        match (findCycle blockerId [ticketId, blockerId] nodes []).1 with
        | some cycle => verdict.push blockerId (.cycle ticketId cycle)
        | none => verdict.push blockerId (.notComplete ticketId blockerId)

def analyzeDependencies (ticketId : String) (blockedBy : List String) (nodes : Nodes) :
    DependencyVerdict :=
  blockedBy.foldl (analyzeBlocker ticketId nodes) ⟨[], []⟩

/-! ## 3. Loading the graph -/

/-- A source that does not change and has finitely many tickets. -/
structure DependencySource where
  state : String → DependencyState
  tickets : List String
  state_id : ∀ id, (state id).id = id
  mem_tickets : ∀ {id}, (state id).found = true → id ∈ tickets

/-- `dependencyStates`: every id in the order asked for. -/
def DependencySource.dependencyStates (source : DependencySource) (ids : List String) :
    List DependencyState := ids.map source.state

/-- What a load reads beside the ticket and the cache. -/
structure LoadInputs where
  source : DependencySource
  fold : String → String
  rejectedState : Option String
  /-- Whether the budget of the tick is used up before a round. -/
  outOfBudget : Nat → Bool
  builtTickets : Option (List String)

namespace LoadInputs

variable (inputs : LoadInputs)

/-- The key of a ticket with a build. -/
def builtKey (ref : TicketRef) (id : String) : String :=
  Json.stringify (.arr [.str ref.source, .str id])

def isBuilt (ref : TicketRef) (id : String) : Bool :=
  match inputs.builtTickets with
  | some built => decide (builtKey ref id ∈ built)
  | none => false

/-- The states of the uncached ones are fetched and noted. -/
def fetch (nodes : Nodes) (frontier : List String) : Nodes :=
  (inputs.source.dependencyStates (frontier.filter fun id => !nodes.has ⟨id⟩)).foldl
    (fun nodes state =>
      nodes.set ⟨state.id⟩ (markRejected inputs.fold state inputs.rejectedState)) nodes

/-- What one ticket of the frontier leads to. -/
def nextOf (ref : TicketRef) (nodes : Nodes) (id : String) : List String :=
  if inputs.isBuilt ref id then [] else nodeBlockers nodes id

/-- The `while` loop of `loadDependencyGraph`, `none` when the fuel runs out. -/
def loadRounds (ref : TicketRef) : Nat → Nat → List String → List String → Nodes →
    Option (Bool × Nodes)
  | _, _, _, [], nodes => some (true, nodes)
  | 0, _, _, _ :: _, _ => none
  | fuel + 1, round, visited, id :: rest, nodes =>
    if inputs.outOfBudget round then some (false, nodes)
    else
      let frontier := id :: rest
      let nodes := inputs.fetch nodes frontier
      let visited := visited ++ frontier
      let next := frontier.flatMap (inputs.nextOf ref nodes)
      loadRounds ref fuel (round + 1) visited
        ((JsText.distinct next).filter fun id => decide (id ∉ visited)) nodes

/-- `loadDependencyGraph`, with the cache as it leaves it. -/
def loadDependencyGraph (fuel : Nat) (ticket : Ticket) (nodes : Nodes) : Option (Bool × Nodes) :=
  inputs.loadRounds ticket.ref fuel 0 [] (JsText.distinct ticket.declared) nodes

/-! ## 4. What a load leaves in the cache -/

/-- A ticket as the cache holds it. -/
def marked (id : String) : DependencyNode :=
  markRejected inputs.fold (inputs.source.state id) inputs.rejectedState

/-- Every entry is what the source says of its ticket. -/
def OfSource (nodes : Nodes) : Prop :=
  ∀ id node, nodes.get? ⟨id⟩ = some node → node = inputs.marked id

/-- The edges that are walked, by the source. -/
def blockers (id : String) : List String := blockersOf (some (inputs.marked id))

variable {inputs}

theorem marked_found (id : String) : (inputs.marked id).found = (inputs.source.state id).found := by
  unfold marked markRejected
  split <;> rfl

theorem marked_blockedBy (id : String) :
    (inputs.marked id).blockedBy = (inputs.source.state id).blockedBy := by
  unfold marked markRejected
  split <;> rfl

theorem mem_blockers {id next : String} : next ∈ inputs.blockers id ↔
    (inputs.marked id).found = true ∧ (inputs.marked id).resolved = false ∧
      next ∈ (inputs.source.state id).blockedBy := by
  rw [← marked_blockedBy, blockers]
  dsimp only [blockersOf]
  cases (inputs.marked id).found <;> cases (inputs.marked id).resolved <;> simp

theorem OfSource.empty : inputs.OfSource ∅ := fun _ _ h => absurd h nofun

theorem nodeBlockers_of_get? {nodes : Nodes} {id : String}
    (h : nodes.get? ⟨id⟩ = some (inputs.marked id)) :
    nodeBlockers nodes id = inputs.blockers id := by
  rw [nodeBlockers, h, blockers]

theorem get?_foldl_set (x : String) : ∀ (ids : List String) (nodes : Nodes),
    ((inputs.source.dependencyStates ids).foldl (fun nodes state =>
        nodes.set ⟨state.id⟩ (markRejected inputs.fold state inputs.rejectedState))
          nodes).get? ⟨x⟩ =
      if x ∈ ids then some (inputs.marked x) else nodes.get? ⟨x⟩
  | [], nodes => by
    rw [if_neg List.not_mem_nil]
    rfl
  | id :: ids, nodes => by
    have ih := get?_foldl_set x ids (nodes.set ⟨id⟩ (inputs.marked id))
    rw [DependencySource.dependencyStates, List.map_cons, List.foldl_cons, inputs.source.state_id]
    refine ih.trans ?_
    rw [get?_set]
    by_cases hx : x ∈ ids
    · rw [if_pos hx, if_pos (List.mem_cons_of_mem _ hx)]
    · by_cases heq : x = id
      · rw [if_neg hx, heq, if_pos rfl, if_pos List.mem_cons_self]
      · rw [if_neg hx, if_neg (fun h => heq (congrArg MapKey.key h)),
          if_neg fun h => (List.mem_cons.mp h).elim heq hx]

theorem get?_fetch {nodes : Nodes} {frontier : List String} {id : String} :
    (inputs.fetch nodes frontier).get? ⟨id⟩ =
      if id ∈ frontier ∧ nodes.get? ⟨id⟩ = none then some (inputs.marked id)
      else nodes.get? ⟨id⟩ := by
  rw [fetch, get?_foldl_set]
  refine if_congr ?_ rfl rfl
  rw [List.mem_filter, has_eq_isSome, Bool.not_eq_true', Option.isSome_eq_false_iff,
    Option.isNone_iff_eq_none]

theorem OfSource.fetch {nodes : Nodes} (h : inputs.OfSource nodes) (frontier : List String) :
    inputs.OfSource (inputs.fetch nodes frontier) := by
  intro id node hnode
  rw [get?_fetch] at hnode
  split at hnode
  · exact (Option.some.inj hnode).symm
  · exact h id node hnode

theorem OfSource.get?_fetch {nodes : Nodes} (h : inputs.OfSource nodes) {frontier : List String}
    {id : String} (hid : id ∈ frontier ∨ nodes.get? ⟨id⟩ = some (inputs.marked id)) :
    (inputs.fetch nodes frontier).get? ⟨id⟩ = some (inputs.marked id) := by
  rw [LoadInputs.get?_fetch]
  split
  · rfl
  next hnot =>
    rcases hid with hid | hid
    · cases hnode : nodes.get? ⟨id⟩ with
      | none => exact absurd ⟨hid, hnode⟩ hnot
      | some node => rw [h id node hnode]
    · exact hid

/-- Every id that can be visited. -/
def reachable (inputs : LoadInputs) (declared : List String) : List String :=
  declared ++ inputs.source.tickets.flatMap fun id => (inputs.source.state id).blockedBy

theorem mem_reachable_of_mem_blockers {declared : List String} {id next : String}
    (h : next ∈ inputs.blockers id) : next ∈ inputs.reachable declared := by
  obtain ⟨hfound, -, hnext⟩ := mem_blockers.mp h
  rw [marked_found] at hfound
  exact List.mem_append_right _
    (List.mem_flatMap.mpr ⟨id, inputs.source.mem_tickets hfound, hnext⟩)

/-- Between two rounds: what was visited is loaded, and closed but for the frontier. -/
structure Loading (inputs : LoadInputs) (declared visited frontier : List String)
    (nodes : Nodes) : Prop where
  ofSource : inputs.OfSource nodes
  loaded : ∀ id ∈ visited, nodes.get? ⟨id⟩ = some (inputs.marked id)
  closed : ∀ id ∈ visited, ∀ next ∈ inputs.blockers id, next ∈ visited ∨ next ∈ frontier
  started : ∀ id ∈ declared, id ∈ visited ∨ id ∈ frontier
  fresh : ∀ id ∈ frontier, id ∉ visited ∧ id ∈ inputs.reachable declared

theorem Loading.start (declared : List String) {nodes : Nodes} (h : inputs.OfSource nodes) :
    Loading inputs declared [] (JsText.distinct declared) nodes where
  ofSource := h
  loaded _ hid := absurd hid List.not_mem_nil
  closed _ hid := absurd hid List.not_mem_nil
  started _ hid := .inr (JsText.mem_distinct.mpr hid)
  fresh _ hid := ⟨List.not_mem_nil, List.mem_append_left _ (JsText.mem_distinct.mp hid)⟩

theorem Loading.round {ref : TicketRef} {declared visited frontier : List String} {nodes : Nodes}
    (hbuilt : inputs.builtTickets = none) (h : Loading inputs declared visited frontier nodes) :
    Loading inputs declared (visited ++ frontier)
      ((JsText.distinct (frontier.flatMap (inputs.nextOf ref (inputs.fetch nodes frontier)))).filter
        fun id => decide (id ∉ visited ++ frontier)) (inputs.fetch nodes frontier) := by
  have hload : ∀ id ∈ visited ++ frontier,
      (inputs.fetch nodes frontier).get? ⟨id⟩ = some (inputs.marked id) := by
    intro id hid
    refine h.ofSource.get?_fetch ?_
    rcases List.mem_append.mp hid with hid | hid
    · exact .inr (h.loaded id hid)
    · exact .inl hid
  have hnext : ∀ id ∈ frontier,
      inputs.nextOf ref (inputs.fetch nodes frontier) id = inputs.blockers id := by
    intro id hid
    rw [nextOf, isBuilt, hbuilt, if_neg Bool.false_ne_true]
    exact nodeBlockers_of_get? (hload id (List.mem_append_right _ hid))
  refine ⟨h.ofSource.fetch frontier, hload, ?_, ?_, ?_⟩
  · intro id hid next hmem
    by_cases hin : next ∈ visited ++ frontier
    · exact .inl hin
    rcases List.mem_append.mp hid with hid | hid
    · exact absurd (List.mem_append.mpr (h.closed id hid next hmem)) hin
    · refine .inr (List.mem_filter.mpr ⟨JsText.mem_distinct.mpr ?_, decide_eq_true hin⟩)
      exact List.mem_flatMap.mpr ⟨id, hid, by rwa [hnext id hid]⟩
  · exact fun id hid => .inl (List.mem_append.mpr (h.started id hid))
  · intro id hid
    obtain ⟨hmem, hout⟩ := List.mem_filter.mp hid
    obtain ⟨prior, hprior, hmem⟩ := List.mem_flatMap.mp (JsText.mem_distinct.mp hmem)
    rw [hnext prior hprior] at hmem
    exact ⟨of_decide_eq_true hout, mem_reachable_of_mem_blockers hmem⟩

/-- What is left to visit. -/
def unvisited (inputs : LoadInputs) (declared visited : List String) : Nat :=
  ((inputs.reachable declared).filter (· ∉ visited)).length

theorem Loading.unvisited_lt {declared visited frontier : List String} {nodes : Nodes}
    (h : Loading inputs declared visited frontier nodes) {id : String} (hid : id ∈ frontier) :
    unvisited inputs declared (visited ++ frontier) < unvisited inputs declared visited := by
  have hfilter : (inputs.reachable declared).filter (· ∉ visited ++ frontier) =
      ((inputs.reachable declared).filter (· ∉ visited)).filter (· ∉ frontier) := by
    rw [List.filter_filter]
    refine List.filter_congr fun other _ => ?_
    simp only [List.mem_append, not_or, Bool.decide_and, Bool.and_comm]
  obtain ⟨hout, hin⟩ := h.fresh id hid
  unfold unvisited
  rw [hfilter]
  refine List.length_filter_lt_length_iff_exists.mpr
    ⟨id, List.mem_filter.mpr ⟨hin, decide_eq_true hout⟩, ?_⟩
  simpa using hid

/-- **The rounds end**: a round visits at least one more of the finitely many ids. -/
theorem loadRounds_loaded {ref : TicketRef} {declared : List String}
    (hbuilt : inputs.builtTickets = none) (hbudget : ∀ round, inputs.outOfBudget round = false) :
    ∀ (fuel round : Nat) (visited frontier : List String) (nodes : Nodes),
      Loading inputs declared visited frontier nodes →
        unvisited inputs declared visited ≤ fuel →
          ∃ visited' loaded, inputs.loadRounds ref fuel round visited frontier nodes =
            some (true, loaded) ∧ Loading inputs declared visited' [] loaded
  | fuel, _, visited, [], nodes, h, _ => ⟨visited, nodes, by cases fuel <;> rfl, h⟩
  | 0, _, visited, id :: rest, nodes, h, hfuel => by
    have := h.unvisited_lt List.mem_cons_self
    omega
  | fuel + 1, round, visited, id :: rest, nodes, h, hfuel => by
    have hless := h.unvisited_lt List.mem_cons_self
    rw [loadRounds, hbudget, if_neg Bool.false_ne_true]
    exact loadRounds_loaded hbuilt hbudget fuel _ _ _ _ (h.round hbuilt) (by omega)

theorem loadDependencyGraph_loaded {ticket : Ticket} {nodes : Nodes} {fuel : Nat}
    (hbuilt : inputs.builtTickets = none) (hbudget : ∀ round, inputs.outOfBudget round = false)
    (hcache : inputs.OfSource nodes)
    (hfuel : (inputs.reachable ticket.declared).length ≤ fuel) :
    ∃ visited loaded, inputs.loadDependencyGraph fuel ticket nodes = some (true, loaded) ∧
      Loading inputs ticket.declared visited [] loaded :=
  loadRounds_loaded hbuilt hbudget fuel 0 [] _ nodes (Loading.start ticket.declared hcache)
    ((List.length_filter_le _ _).trans hfuel)

end LoadInputs

/-! ## 5. The lines of a verdict -/

/-- The line of a blocker that is in the way. -/
def obstacleLine (ticketId : String) (nodes : Nodes) (blockerId : String) : Option Diagnostic :=
  (analyzeBlocker ticketId nodes ⟨[], []⟩ blockerId).diagnostics.head?

theorem analyzeBlocker_eq (ticketId : String) (nodes : Nodes) (verdict : DependencyVerdict)
    (blockerId : String) : analyzeBlocker ticketId nodes verdict blockerId =
      match obstacleLine ticketId nodes blockerId with
      | some line => verdict.push blockerId line
      | none => verdict := by
  unfold obstacleLine analyzeBlocker
  split
  · rfl
  · split
    · rfl
    · split
      · rfl
      · split
        · rfl
        · split
          · rfl
          · split <;> rfl

theorem foldl_analyzeBlocker (ticketId : String) (nodes : Nodes) :
    ∀ (blockedBy : List String) (verdict : DependencyVerdict),
      blockedBy.foldl (analyzeBlocker ticketId nodes) verdict =
        ⟨verdict.unresolved ++
            blockedBy.filter (fun id => (obstacleLine ticketId nodes id).isSome),
          verdict.diagnostics ++ blockedBy.filterMap (obstacleLine ticketId nodes)⟩
  | [], verdict => by
    rw [List.filter_nil, List.filterMap_nil, List.append_nil, List.append_nil]
    rfl
  | id :: rest, verdict => by
    rw [List.foldl_cons, foldl_analyzeBlocker ticketId nodes rest, analyzeBlocker_eq]
    cases hline : obstacleLine ticketId nodes id with
    | none =>
      rw [List.filterMap_cons_none hline, List.filter_cons_of_neg]
      rw [hline]
      exact Bool.false_ne_true
    | some line =>
      rw [List.filterMap_cons_some hline, List.filter_cons_of_pos]
      · simp only [DependencyVerdict.push, List.append_assoc, List.cons_append, List.nil_append]
      · rw [hline]
        rfl

/-- The verdict lists the blockers in the way, in the declared order, with a line for each. -/
theorem analyzeDependencies_eq (ticketId : String) (blockedBy : List String) (nodes : Nodes) :
    analyzeDependencies ticketId blockedBy nodes =
      ⟨blockedBy.filter fun id => (obstacleLine ticketId nodes id).isSome,
        blockedBy.filterMap (obstacleLine ticketId nodes)⟩ :=
  foldl_analyzeBlocker ticketId nodes blockedBy ⟨[], []⟩

theorem filterMap_eq_map_filter {α β : Type} (f : α → Option β) (g : α → β) :
    ∀ (xs : List α), (∀ x y, f x = some y → g x = y) →
      xs.filterMap f = (xs.filter fun x => (f x).isSome).map g
  | [], _ => rfl
  | x :: xs, h => by
    have ih := filterMap_eq_map_filter f g xs h
    cases hx : f x with
    | none =>
      rw [List.filterMap_cons_none hx, List.filter_cons_of_neg, ih]
      rw [hx]
      exact Bool.false_ne_true
    | some y =>
      rw [List.filterMap_cons_some hx, List.filter_cons_of_pos (by rw [hx]; rfl), List.map_cons,
        h x y hx, ih]

section Walked

variable (inputs : LoadInputs) (ticket : Ticket)

def LoadInputs.isRejected (id : String) : Bool :=
  (inputs.source.state id).found &&
    holdsState inputs.fold (inputs.source.state id).state inputs.rejectedState

/-- The ticket itself, a missing one, a rejected one or one that is not resolved. -/
def LoadInputs.isObstacle (id : String) : Bool :=
  decide (id = ticket.ref.id) || !(inputs.source.state id).found || inputs.isRejected id ||
    !(inputs.source.state id).resolved

/-- A blocker that exists, is unresolved, not rejected and not the ticket itself. -/
structure LoadInputs.IsPending (id : String) : Prop where
  other : id ≠ ticket.ref.id
  found : (inputs.source.state id).found = true
  accepted : inputs.isRejected id = false
  unresolved : (inputs.source.state id).resolved = false

/-- The edges along blockers: the ticket under analysis has those it declares, another one
those of the source while it exists and is unresolved. -/
def LoadInputs.edges (id : String) : List String :=
  if id = ticket.ref.id then ticket.declared
  else if (inputs.source.state id).found &&
      (inputs.isRejected id || !(inputs.source.state id).resolved) then
    (inputs.source.state id).blockedBy
  else []

variable {inputs ticket}

theorem marked_rejected (id : String) : (inputs.marked id).rejected = inputs.isRejected id := by
  unfold LoadInputs.marked markRejected LoadInputs.isRejected
  split
  next h => exact h.symm
  next h => exact (Bool.eq_false_of_not_eq_true h).symm

theorem marked_resolved (id : String) : (inputs.marked id).resolved =
    (!inputs.isRejected id && (inputs.source.state id).resolved) := by
  unfold LoadInputs.marked markRejected LoadInputs.isRejected
  split
  next h => rw [h]; rfl
  next h => rw [Bool.eq_false_of_not_eq_true h]; rfl

theorem edges_of_ne {id : String} (hid : id ≠ ticket.ref.id) :
    inputs.edges ticket id = inputs.blockers id := by
  rw [LoadInputs.edges, if_neg hid, LoadInputs.blockers]
  dsimp only [blockersOf]
  rw [marked_resolved, LoadInputs.marked_found, LoadInputs.marked_blockedBy]
  cases (inputs.source.state id).found <;> cases inputs.isRejected id <;>
    cases (inputs.source.state id).resolved <;> rfl

/-- The walk over what was loaded is the walk along the edges of the source. -/
theorem findCycle_eq {visited : List String} {loaded : Nodes}
    (hload : inputs.Loading ticket.declared visited [] loaded) {id : String}
    (hid : id ∈ ticket.declared) (hother : id ≠ ticket.ref.id) :
    CycleSearch.search (inputs.edges ticket) (loaded.size + 2) id [ticket.ref.id, id] [] =
      some (findCycle id [ticket.ref.id, id] loaded []) := by
  have hvisited : ∀ {x}, x ∈ visited ∨ x ∈ [] → x ∈ visited :=
    fun h => h.resolve_right List.not_mem_nil
  have hedges : ∀ x ∈ visited, x ≠ ticket.ref.id →
      nodeBlockers loaded x = inputs.edges ticket x ∧
        ∀ y ∈ nodeBlockers loaded x, y ∈ visited := by
    intro x hx hne
    rw [LoadInputs.nodeBlockers_of_get? (hload.loaded x hx), edges_of_ne hne]
    exact ⟨rfl, fun y hy => hvisited (hload.closed x hx y hy)⟩
  obtain ⟨hstart, hthere⟩ := hedges id (hvisited (hload.started id hid)) hother
  rw [some_findCycle]
  exact (CycleSearch.search_congr _ _ _ _ hstart hthere fun y hy hoff =>
    hedges y hy fun heq => hoff (heq ▸ List.mem_cons_self)).symm

theorem LoadInputs.IsPending.isObstacle {id : String} (h : inputs.IsPending ticket id) :
    inputs.isObstacle ticket id = true := by
  rw [LoadInputs.isObstacle, h.unresolved, Bool.not_false, Bool.or_true]

theorem obstacleLine_loaded {visited : List String} {loaded : Nodes}
    (hload : inputs.Loading ticket.declared visited [] loaded) {id : String}
    (hid : id ∈ ticket.declared) :
    (obstacleLine ticket.ref.id loaded id).isSome = inputs.isObstacle ticket id ∧
      (inputs.IsPending ticket id →
        ((∃ path, obstacleLine ticket.ref.id loaded id = some (.cycle ticket.ref.id path)) ↔
          CycleSearch.ReachesCycle (inputs.edges ticket) id)) ∧
      ∀ ticketId path, obstacleLine ticket.ref.id loaded id = some (.cycle ticketId path) →
        CycleSearch.IsClosedWalk (inputs.edges ticket) path := by
  have hnode := hload.loaded id ((hload.started id hid).resolve_right List.not_mem_nil)
  unfold obstacleLine analyzeBlocker LoadInputs.isObstacle
  by_cases hself : id = ticket.ref.id
  · rw [if_pos hself, decide_eq_true hself]
    exact ⟨rfl, fun hpending => absurd hself hpending.other, fun _ _ h => absurd h nofun⟩
  rw [if_neg hself, decide_eq_false hself, hnode]
  dsimp only
  rw [LoadInputs.marked_found, marked_rejected, marked_resolved]
  cases hfound : (inputs.source.state id).found with
  | false =>
    refine ⟨rfl, fun hpending => ?_, fun _ _ h => absurd h nofun⟩
    exact absurd (hfound.symm.trans hpending.found) Bool.false_ne_true
  | true =>
    cases hrejected : inputs.isRejected id with
    | true =>
      refine ⟨rfl, fun hpending => ?_, fun _ _ h => absurd h nofun⟩
      exact absurd (hpending.accepted.symm.trans hrejected) Bool.false_ne_true
    | false =>
      cases hresolved : (inputs.source.state id).resolved with
      | true =>
        refine ⟨rfl, fun hpending => ?_, fun _ _ h => absurd h nofun⟩
        exact absurd (hpending.unresolved.symm.trans hresolved) Bool.false_ne_true
      | false =>
        have hsearch := findCycle_eq hload hid hself
        simp only [Bool.not_true, Bool.not_false, Bool.false_eq_true, if_false, Bool.and_false,
          Bool.false_or, Bool.or_true]
        cases hfind : findCycle id [ticket.ref.id, id] loaded [] with
        | mk found explored =>
          rw [hfind] at hsearch
          cases found with
          | none =>
            refine ⟨rfl, fun _ => ⟨fun ⟨_, h⟩ => absurd h nofun, fun h => ?_⟩,
              fun _ _ h => absurd h nofun⟩
            exact absurd h (CycleSearch.search_null
              (List.mem_cons_of_mem _ List.mem_cons_self) hsearch)
          | some path =>
            have hedge : CycleSearch.Step (inputs.edges ticket) ticket.ref.id id := by
              rw [CycleSearch.Step, LoadInputs.edges, if_pos rfl]
              exact hid
            obtain ⟨hclosed, hreach⟩ := CycleSearch.search_cycle _
              (List.isChain_cons_cons.mpr ⟨hedge, List.isChain_singleton _⟩) rfl hsearch
            refine ⟨rfl, fun _ => ⟨fun _ => hreach, fun _ => ⟨path, rfl⟩⟩, ?_⟩
            intro ticketId path' h
            obtain ⟨-, rfl⟩ := Diagnostic.cycle.inj (Option.some.inj h)
            exact hclosed

end Walked

/-- **Dependency verdicts name exactly the real obstacles.** -/
theorem dependency_verdicts (inputs : LoadInputs) (ticket : Ticket) (nodes : Nodes)
    (hbuilt : inputs.builtTickets = none) (hbudget : ∀ round, inputs.outOfBudget round = false)
    (hcache : inputs.OfSource nodes) :
    ∃ rounds, ∀ fuel, rounds ≤ fuel → ∃ loaded,
      inputs.loadDependencyGraph fuel ticket nodes = some (true, loaded) ∧
        inputs.OfSource loaded ∧
        ∃ line : String → Diagnostic,
          analyzeDependencies ticket.ref.id ticket.declared loaded =
            ⟨ticket.declared.filter (inputs.isObstacle ticket),
              (ticket.declared.filter (inputs.isObstacle ticket)).map line⟩ ∧
          ∀ id ∈ ticket.declared,
            (inputs.IsPending ticket id →
              ((∃ path, line id = .cycle ticket.ref.id path) ↔
                CycleSearch.ReachesCycle (inputs.edges ticket) id)) ∧
            (inputs.isObstacle ticket id = true →
              ∀ ticketId path, line id = .cycle ticketId path →
                CycleSearch.IsClosedWalk (inputs.edges ticket) path) := by
  refine ⟨(inputs.reachable ticket.declared).length, fun fuel hfuel => ?_⟩
  obtain ⟨visited, loaded, hrun, hload⟩ :=
    LoadInputs.loadDependencyGraph_loaded hbuilt hbudget hcache hfuel
  have hline : ∀ id line, obstacleLine ticket.ref.id loaded id = some line →
      (obstacleLine ticket.ref.id loaded id).getD (.dependsOnItself id) = line := by
    intro id line h
    rw [h]
    rfl
  refine ⟨loaded, hrun, hload.ofSource,
    fun id => (obstacleLine ticket.ref.id loaded id).getD (.dependsOnItself id), ?_, ?_⟩
  · have hfilter :
        ticket.declared.filter (fun id => (obstacleLine ticket.ref.id loaded id).isSome) =
          ticket.declared.filter (inputs.isObstacle ticket) :=
      List.filter_congr fun id hid => (obstacleLine_loaded hload hid).1
    rw [analyzeDependencies_eq, filterMap_eq_map_filter _ _ _ hline, hfilter]
  · intro id hid
    obtain ⟨hsome, hpending, hclosed⟩ := obstacleLine_loaded hload hid
    have hexact : inputs.isObstacle ticket id = true → ∀ line,
        (obstacleLine ticket.ref.id loaded id).getD (.dependsOnItself id) = line ↔
          obstacleLine ticket.ref.id loaded id = some line := by
      intro hobstacle line
      obtain ⟨found, hfound⟩ := Option.isSome_iff_exists.mp (hsome.trans hobstacle)
      rw [hfound, Option.getD_some, Option.some_inj]
    refine ⟨fun h => ?_, fun hobstacle ticketId path h => ?_⟩
    · rw [← hpending h]
      exact exists_congr fun path => hexact h.isObstacle _
    · exact hclosed ticketId path ((hexact hobstacle _).mp h)

/-! Two tickets that block each other. -/

def twoTickets : DependencySource where
  state id :=
    if id = "A" then ⟨"A", true, false, none, ["B"]⟩
    else if id = "B" then ⟨"B", true, false, some "Ready", ["A"]⟩
    else ⟨id, false, false, none, []⟩
  tickets := ["A", "B"]
  state_id id := by
    split
    next h => exact h.symm
    · split
      next h => exact h.symm
      · rfl
  mem_tickets {id} h := by
    split at h
    next heq => exact heq ▸ List.mem_cons_self
    · split at h
      next heq => exact heq ▸ List.mem_cons_of_mem _ List.mem_cons_self
      · exact absurd h Bool.false_ne_true

def twoTicketInputs : LoadInputs where
  source := twoTickets
  fold := id
  rejectedState := some "Rejected"
  outOfBudget _ := false
  builtTickets := none

theorem dependency_verdicts_of_two :
    ∃ rounds, ∀ fuel, rounds ≤ fuel → ∃ loaded,
      twoTicketInputs.loadDependencyGraph fuel ⟨⟨"file", "A", none, none⟩, some ["B"]⟩ ∅ =
          some (true, loaded) ∧
        (analyzeDependencies "A" ["B"] loaded).unresolved = ["B"] := by
  obtain ⟨rounds, h⟩ := dependency_verdicts twoTicketInputs
    ⟨⟨"file", "A", none, none⟩, some ["B"]⟩ ∅ rfl (fun _ => rfl) LoadInputs.OfSource.empty
  refine ⟨rounds, fun fuel hfuel => ?_⟩
  obtain ⟨loaded, hrun, -, line, hverdict, -⟩ := h fuel hfuel
  refine ⟨loaded, hrun, ?_⟩
  rw [Ticket.declared, Option.getD_some] at hverdict
  rw [hverdict]
  rfl

end Autobuild.DependencyVerdicts
