/-
# Persistence chains

A reviewer marks a finding as the continuation of earlier ones.  A chain is identified by its
root, a finding that continues none; it survives the rounds its members are found in.

* `buildChains` follows the links and groups the findings of all rounds by their roots.
* `stalledChains` are those whose longest streak reached the threshold and whose tip no human
  dismissed.
* One more round leaves a chain as it was or adds a finding of that round to it
  (`mem_buildChains_snoc`), so a chain that newly stalls has a member in the latest round
  (`live_of_newly_stalled`).
-/
import Autobuild.Lib.ObjectMap
import Autobuild.Ontology
import Mathlib.Data.List.Induction

namespace Autobuild

open ObjectMap

/-! ## 1. Findings and their roots -/

/-- A finding with the round it was first found in, counted from one. -/
structure ChainNode where
  finding : Finding
  round : Nat
  deriving DecidableEq

def ChainNode.id (node : ChainNode) : String := node.finding.id

/-- A finding id that was seen before keeps its first round. -/
def noteFinding (round : Nat) (nodes : List ChainNode) (finding : Finding) : List ChainNode :=
  if nodes.any (fun node => node.id = finding.id) then nodes else nodes ++ [⟨finding, round⟩]

/-- The findings of every round in the order of the rounds, each once. -/
def chainNodes (roundFindings : List (List Finding)) : List ChainNode :=
  roundFindings.zipIdx.foldl
    (fun nodes entry => entry.1.foldl (noteFinding (entry.2 + 1)) nodes) []

/-- `byId.get(id)`. -/
def nodeById (nodes : List ChainNode) (id : String) : Option ChainNode :=
  nodes.find? fun node => node.id = id

/-- Only targets in a strictly earlier round are links. -/
def parentsOf (nodes : List ChainNode) (node : ChainNode) : List String :=
  node.finding.persists.filter fun parentId =>
    ((nodeById nodes parentId).map fun parent => decide (parent.round < node.round)).getD false

/-- The roots of a finding.  A link goes to an earlier round, so as many steps as there are
rounds follow them all. -/
def rootsOf (nodes : List ChainNode) : Nat → String → List String
  | 0, _ => []
  | steps + 1, id =>
    match nodeById nodes id with
    | none => []
    | some node =>
      let parents := parentsOf nodes node
      if parents = [] then [id] else JsText.distinct (parents.flatMap (rootsOf nodes steps))

/-! ## 2. Chains -/

structure ChainMembers where
  ids : List String
  /-- The round each member was found in. -/
  memberRounds : List Nat
  deriving DecidableEq

def joinChain (node : ChainNode) (chains : JsMap String ChainMembers) (root : String) :
    JsMap String ChainMembers :=
  let chain := (chains.get? ⟨root⟩).getD ⟨[], []⟩
  chains.set ⟨root⟩ ⟨chain.ids ++ [node.id], chain.memberRounds ++ [node.round]⟩

/-- A finding joins the chain of each of its roots. -/
def joinChains (nodes : List ChainNode) (steps : Nat) (chains : JsMap String ChainMembers)
    (node : ChainNode) : JsMap String ChainMembers :=
  (rootsOf nodes steps node.id).foldl (joinChain node) chains

def chainMap (roundFindings : List (List Finding)) : JsMap String ChainMembers :=
  let nodes := chainNodes roundFindings
  nodes.foldl (joinChains nodes roundFindings.length) ∅

def buildChains (roundFindings : List (List Finding)) : List ChainMembers :=
  (chainMap roundFindings).values

/-- How many rounds follow one another from a round on. -/
def runFrom (rounds : List Nat) : Nat → Nat → Nat
  | 0, _ => 0
  | steps + 1, round => if round ∈ rounds then runFrom rounds steps (round + 1) + 1 else 0

/-- The longest run of consecutive rounds, which are counted from one. -/
def longestConsecutiveRun (rounds : List Nat) : Nat :=
  rounds.foldl (fun longest round =>
    if 0 < round ∧ round - 1 ∈ rounds then longest
    else max longest (runFrom rounds rounds.length round)) 0

/-- Every finding of the latest round of the chain is dismissed. -/
def tipDismissed (chain : ChainMembers) (dismissedIds : List String) : Bool :=
  let tipRound := chain.memberRounds.foldl max 0
  (chain.ids.zip chain.memberRounds).all fun member =>
    member.2 ≠ tipRound || decide (member.1 ∈ dismissedIds)

structure FindingChain where
  /-- Member ids in round order, the root first. -/
  ids : List String
  rounds : Nat
  deriving DecidableEq

/-- What a chain is reported as once it stalled. -/
def stalledChain? (stallRounds : Nat) (dismissedIds : List String) (chain : ChainMembers) :
    Option FindingChain :=
  let rounds := longestConsecutiveRun chain.memberRounds
  if rounds < stallRounds then none
  else if tipDismissed chain dismissedIds then none
  else some ⟨chain.ids, rounds⟩

def stalledChains (roundFindings : List (List Finding)) (stallRounds : Nat)
    (dismissedIds : List String) : List FindingChain :=
  (buildChains roundFindings).filterMap (stalledChain? stallRounds dismissedIds)

/-- The deepest chain; the first in root order on ties. -/
def deepestChain : List FindingChain → Option FindingChain
  | [] => none
  | first :: rest =>
    some (rest.foldl (fun deepest candidate =>
      if candidate.rounds > deepest.rounds then candidate else deepest) first)

/-- The sentence a stalled chain is reported with. -/
def FindingChain.report (chain : FindingChain) : String :=
  "finding chain persisted " ++ toString chain.rounds ++ " rounds: " ++
    String.intercalate " -> " chain.ids

/-! ## 3. One more round -/

/-- The findings of one round are added at the end, in that round. -/
theorem foldl_noteFinding (round : Nat) : ∀ (findings : List Finding) (nodes : List ChainNode),
    ∃ added, findings.foldl (noteFinding round) nodes = nodes ++ added ∧
      ∀ node ∈ added, node.round = round ∧ node.id ∈ findings.map (·.id)
  | [], nodes => ⟨[], (List.append_nil nodes).symm, fun _ h => absurd h List.not_mem_nil⟩
  | finding :: rest, nodes => by
    rw [List.foldl_cons]
    unfold noteFinding
    split
    · obtain ⟨added, he, ha⟩ := foldl_noteFinding round rest nodes
      refine ⟨added, he, fun node hn => ⟨(ha node hn).1, ?_⟩⟩
      exact List.mem_cons_of_mem _ (ha node hn).2
    · obtain ⟨added, he, ha⟩ := foldl_noteFinding round rest (nodes ++ [⟨finding, round⟩])
      refine ⟨⟨finding, round⟩ :: added, he.trans (List.append_assoc _ _ _), ?_⟩
      intro node hn
      rcases List.mem_cons.mp hn with rfl | hn
      · exact ⟨rfl, List.mem_cons_self⟩
      · exact ⟨(ha node hn).1, List.mem_cons_of_mem _ (ha node hn).2⟩

theorem chainNodes_snoc (rounds : List (List Finding)) (findings : List Finding) :
    chainNodes (rounds ++ [findings])
      = findings.foldl (noteFinding (rounds.length + 1)) (chainNodes rounds) := by
  unfold chainNodes
  rw [List.zipIdx_append, List.foldl_append]
  simp

/-- Every finding is in a round there is. -/
theorem round_of_mem_chainNodes (rounds : List (List Finding)) :
    ∀ node ∈ chainNodes rounds, 0 < node.round ∧ node.round ≤ rounds.length := by
  induction rounds using List.reverseRecOn with
  | nil => exact fun _ h => absurd h List.not_mem_nil
  | append_singleton rounds findings ih =>
    intro node hn
    rw [chainNodes_snoc] at hn
    obtain ⟨added, he, ha⟩ := foldl_noteFinding (rounds.length + 1) findings (chainNodes rounds)
    rw [he, List.mem_append] at hn
    rw [List.length_append, List.length_singleton]
    rcases hn with hn | hn
    · have := ih node hn
      omega
    · have := (ha node hn).1
      omega

section Snoc

variable {nodes added : List ChainNode} {round : Nat}

theorem nodeById_append_of_some {id : String} {node : ChainNode}
    (h : nodeById nodes id = some node) : nodeById (nodes ++ added) id = some node := by
  unfold nodeById at h ⊢
  rw [List.find?_append, h]
  rfl

theorem mem_of_nodeById {id : String} {node : ChainNode} (h : nodeById nodes id = some node) :
    node ∈ nodes :=
  List.mem_of_find?_eq_some h

/-- A later round gives an earlier finding no new parents. -/
theorem parentsOf_append (ha : ∀ node ∈ added, node.round = round) {node : ChainNode}
    (hn : node.round < round) : parentsOf (nodes ++ added) node = parentsOf nodes node := by
  unfold parentsOf
  refine List.filter_congr fun parentId _ => ?_
  cases hp : nodeById nodes parentId with
  | some parent => rw [nodeById_append_of_some hp]
  | none =>
    cases hq : nodeById (nodes ++ added) parentId with
    | none => rfl
    | some parent =>
      unfold nodeById at hp hq
      rw [List.find?_append, hp, Option.none_or] at hq
      have hr := ha parent (List.mem_of_find?_eq_some hq)
      have hlt : ¬parent.round < node.round := by omega
      simp [hlt]

/-- Nor new roots, however many steps beyond its round the search is given. -/
theorem rootsOf_append (hnodes : ∀ node ∈ nodes, 0 < node.round ∧ node.round < round)
    (ha : ∀ node ∈ added, node.round = round) :
    ∀ (steps steps' : Nat) {id : String} {node : ChainNode}, nodeById nodes id = some node →
      node.round ≤ steps → node.round ≤ steps' →
      rootsOf (nodes ++ added) steps' id = rootsOf nodes steps id
  | 0, _, _, node, hid, hs, _ => by
    have := hnodes node (mem_of_nodeById hid)
    omega
  | _ + 1, 0, _, node, hid, _, hs' => by
    have := hnodes node (mem_of_nodeById hid)
    omega
  | steps + 1, steps' + 1, id, node, hid, hs, hs' => by
    unfold rootsOf
    rw [nodeById_append_of_some hid, hid]
    dsimp only
    rw [parentsOf_append ha (hnodes node (mem_of_nodeById hid)).2]
    have hparents : (parentsOf nodes node).flatMap (rootsOf (nodes ++ added) steps')
        = (parentsOf nodes node).flatMap (rootsOf nodes steps) := by
      refine List.flatMap_congr fun parentId hp => ?_
      unfold parentsOf at hp
      obtain ⟨-, hlt⟩ := List.mem_filter.mp hp
      cases hparent : nodeById nodes parentId with
      | none =>
        rw [hparent] at hlt
        exact absurd hlt nofun
      | some parent =>
        rw [hparent] at hlt
        have hlt : parent.round < node.round := of_decide_eq_true hlt
        exact rootsOf_append hnodes ha steps steps' hparent (by omega) (by omega)
    rw [hparents]

end Snoc

/-- Joining chains with findings whose ids are among some leaves a chain as it was or with a
member among them. -/
theorem mem_values_joinChain {chains : JsMap String ChainMembers} {node : ChainNode}
    {root : String} {chain : ChainMembers} (h : chain ∈ (joinChain node chains root).values) :
    chain ∈ chains.values ∨ node.id ∈ chain.ids := by
  obtain ⟨key, hk⟩ := mem_values.mp h
  unfold joinChain at hk
  rw [get?_set] at hk
  split at hk
  · right
    rw [← Option.some.inj hk]
    exact List.mem_append_right _ List.mem_cons_self
  · exact Or.inl (mem_values.mpr ⟨key, hk⟩)

theorem mem_values_foldl_joinChain {node : ChainNode} {chain : ChainMembers} :
    ∀ (roots : List String) {chains : JsMap String ChainMembers},
      chain ∈ (roots.foldl (joinChain node) chains).values →
        chain ∈ chains.values ∨ node.id ∈ chain.ids
  | [], _, h => Or.inl h
  | root :: rest, _, h => by
    rcases mem_values_foldl_joinChain rest h with hm | hid
    · exact mem_values_joinChain hm
    · exact Or.inr hid

theorem mem_values_foldl_joinChains {nodes : List ChainNode} {steps : Nat}
    {chain : ChainMembers} :
    ∀ (added : List ChainNode) {chains : JsMap String ChainMembers},
      chain ∈ (added.foldl (joinChains nodes steps) chains).values →
        chain ∈ chains.values ∨ ∃ node ∈ added, node.id ∈ chain.ids
  | [], _, h => Or.inl h
  | node :: rest, _, h => by
    rcases mem_values_foldl_joinChains rest h with hm | ⟨other, ho, hid⟩
    · rcases mem_values_foldl_joinChain _ hm with hm | hid
      · exact Or.inl hm
      · exact Or.inr ⟨node, List.mem_cons_self, hid⟩
    · exact Or.inr ⟨other, List.mem_cons_of_mem _ ho, hid⟩

/-- **A chain of one more round is a chain of the rounds before, or has a finding of the new
round.** -/
theorem mem_buildChains_snoc {rounds : List (List Finding)} {findings : List Finding}
    {chain : ChainMembers} (h : chain ∈ buildChains (rounds ++ [findings])) :
    chain ∈ buildChains rounds ∨ ∃ id ∈ findings.map (·.id), id ∈ chain.ids := by
  obtain ⟨added, he, ha⟩ :=
    foldl_noteFinding (rounds.length + 1) findings (chainNodes rounds)
  have hnodes : ∀ node ∈ chainNodes rounds, 0 < node.round ∧ node.round < rounds.length + 1 :=
    fun node hn => ⟨(round_of_mem_chainNodes rounds node hn).1,
      Nat.lt_succ_of_le (round_of_mem_chainNodes rounds node hn).2⟩
  -- the chains of the findings there were do not change
  have hold : (chainNodes rounds).foldl
      (joinChains (chainNodes rounds ++ added) (rounds ++ [findings]).length) ∅
      = chainMap rounds := by
    unfold chainMap
    refine List.foldl_ext _ _ _ fun chains node hn => ?_
    unfold joinChains
    obtain ⟨first, hfirst⟩ : ∃ first, nodeById (chainNodes rounds) node.id = some first := by
      rw [← Option.isSome_iff_exists]
      exact List.find?_isSome.mpr ⟨node, hn, by simp⟩
    have hr := (round_of_mem_chainNodes rounds first (mem_of_nodeById hfirst)).2
    rw [rootsOf_append hnodes (fun node hn => (ha node hn).1) rounds.length _ hfirst hr
      (by rw [List.length_append]; omega)]
  unfold buildChains at h
  have hmap : chainMap (rounds ++ [findings])
      = added.foldl (joinChains (chainNodes rounds ++ added) (rounds ++ [findings]).length)
          (chainMap rounds) := by
    rw [← hold, ← List.foldl_append]
    unfold chainMap
    rw [chainNodes_snoc, he]
  rw [hmap] at h
  rcases mem_values_foldl_joinChains added h with hm | ⟨node, hn, hid⟩
  · exact Or.inl hm
  · exact Or.inr ⟨node.id, (ha node hn).2, hid⟩

/-- **A chain that stalls with a round, where none had stalled before, has a member in it.** -/
theorem live_of_newly_stalled {rounds : List (List Finding)} {findings : List Finding}
    {stallRounds : Nat} {dismissedIds : List String}
    (hnone : stalledChains rounds stallRounds dismissedIds = []) {chain : FindingChain}
    (h : chain ∈ stalledChains (rounds ++ [findings]) stallRounds dismissedIds) :
    ∃ id ∈ findings.map (·.id), id ∈ chain.ids := by
  obtain ⟨members, hm, hs⟩ := List.mem_filterMap.mp h
  rcases mem_buildChains_snoc hm with hold | ⟨id, hid, hin⟩
  · have : chain ∈ stalledChains rounds stallRounds dismissedIds :=
      List.mem_filterMap.mpr ⟨members, hold, hs⟩
    rw [hnone] at this
    exact absurd this List.not_mem_nil
  · refine ⟨id, hid, ?_⟩
    unfold stalledChain? at hs
    dsimp only at hs
    split at hs
    · exact absurd hs nofun
    · split at hs
      · exact absurd hs nofun
      · rw [← Option.some.inj hs]
        exact hin

end Autobuild
