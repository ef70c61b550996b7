/-
# What the persistence chains of all rounds are

A link of a finding is honored when its target is a known finding of an earlier round.  A finding
without one is a root, and a chain has the findings that reach its root through honored links.

* `Honored`, `IsRoot`, `IsChainOf`: what chains are for, on the findings themselves.
* `mem_rootsOf`: the search of roots finds those that are reached.
* `buildChains_eq`: the chains are one for every root, in the order of the roots.
* `isLongestRun`: a streak is the longest run of consecutive rounds.
* `persistence_chains`: all of it, with one more round and the chains that stall.
-/
import Autobuild.Kernel.Stall
import Mathlib.Logic.Relation

namespace Autobuild

open ObjectMap Relation

/-- `persistenceChains`. -/
def persistenceChains (roundFindings : List (List Finding)) : List FindingChain :=
  (buildChains roundFindings).map fun chain =>
    ⟨chain.ids, longestConsecutiveRun chain.memberRounds⟩

/-! ## 1. Findings and links -/

/-- All findings with their rounds, in the order they came. -/
def foundFindings (roundFindings : List (List Finding)) : List ChainNode :=
  roundFindings.zipIdx.flatMap fun entry => entry.1.map fun finding => ⟨finding, entry.2 + 1⟩

/-- The first finding of its id. -/
def FirstFound (roundFindings : List (List Finding)) (node : ChainNode) : Prop :=
  ∃ before after, foundFindings roundFindings = before ++ node :: after ∧
    ∀ other ∈ before, other.id ≠ node.id

/-- A link to a known finding of a strictly earlier round. -/
def Honored (nodes : List ChainNode) (child parent : ChainNode) : Prop :=
  child ∈ nodes ∧ parent ∈ nodes ∧ parent.id ∈ child.finding.persists ∧ parent.round < child.round

def IsRoot (nodes : List ChainNode) (node : ChainNode) : Prop :=
  ∀ parent, ¬Honored nodes node parent

/-- The round an id was first found in. -/
def foundIn (nodes : List ChainNode) (id : String) : Nat :=
  ((nodeById nodes id).map (·.round)).getD 0

/-- A run of rounds as long as there is one. -/
def IsLongestRun (occupied : Nat → Prop) (length : Nat) : Prop :=
  (∃ start, ∀ k < length, occupied (start + k)) ∧
    ∀ start n, (∀ k < n, occupied (start + k)) → n ≤ length

structure IsChainOf (nodes : List ChainNode) (root : ChainNode) (chain : FindingChain) : Prop where
  head : chain.ids.head? = some root.id
  known : ∀ id ∈ chain.ids, ∃ node ∈ nodes, node.id = id
  members : ∀ node ∈ nodes, node.id ∈ chain.ids ↔ ReflTransGen (Honored nodes) node root
  ordered : chain.ids.Pairwise fun a b => foundIn nodes a ≤ foundIn nodes b
  nodup : chain.ids.Nodup
  streak : IsLongestRun (fun round => ∃ id ∈ chain.ids, foundIn nodes id = round) chain.rounds

/-- The findings as the chains are built over them: every id once, in the order of the rounds. -/
structure NodesOk (nodes : List ChainNode) (rounds : Nat) : Prop where
  nodup : (nodes.map (·.id)).Nodup
  ordered : nodes.Pairwise fun a b => a.round ≤ b.round
  round : ∀ node ∈ nodes, 0 < node.round ∧ node.round ≤ rounds

section Nodes

theorem noteFinding_append_singleton (nodes : List ChainNode) (round : Nat) (finding : Finding) :
    noteFinding round nodes finding = nodes ∧ (∃ node ∈ nodes, node.id = finding.id) ∨
      noteFinding round nodes finding = nodes ++ [⟨finding, round⟩] ∧
        ∀ node ∈ nodes, node.id ≠ finding.id := by
  unfold noteFinding
  split
  next hany =>
    obtain ⟨node, hnode, hid⟩ := List.any_eq_true.mp hany
    exact .inl ⟨rfl, node, hnode, of_decide_eq_true hid⟩
  next hany =>
    refine .inr ⟨rfl, fun node hnode hid => hany ?_⟩
    exact List.any_eq_true.mpr ⟨node, hnode, decide_eq_true hid⟩

theorem chainNodes_eq_foldl (roundFindings : List (List Finding)) :
    chainNodes roundFindings =
      (foundFindings roundFindings).foldl
        (fun nodes node => noteFinding node.round nodes node.finding) [] := by
  unfold chainNodes foundFindings
  rw [List.foldl_flatMap]
  refine List.foldl_ext _ _ _ fun nodes entry _ => ?_
  rw [List.foldl_map]

theorem mem_foldl_noteFinding {node : ChainNode} : ∀ (found nodes : List ChainNode),
    node ∈ found.foldl (fun nodes node => noteFinding node.round nodes node.finding) nodes ↔
      node ∈ nodes ∨ (∀ other ∈ nodes, other.id ≠ node.id) ∧
        ∃ before after, found = before ++ node :: after ∧ ∀ other ∈ before, other.id ≠ node.id
  | [], nodes => by simp
  | first :: rest, nodes => by
    rw [List.foldl_cons]
    rcases noteFinding_append_singleton nodes first.round first.finding with
      ⟨heq, old, hold, hid⟩ | ⟨heq, hnew⟩
    · rw [heq, mem_foldl_noteFinding rest nodes]
      refine or_congr_right (and_congr_right fun hnodes => ?_)
      constructor
      · rintro ⟨before, after, rfl, hbefore⟩
        refine ⟨first :: before, after, rfl, fun other hother => ?_⟩
        rcases List.mem_cons.mp hother with rfl | hother
        · exact fun hsame => hnodes old hold (hid.trans hsame)
        · exact hbefore other hother
      · rintro ⟨before, after, hfound, hbefore⟩
        cases before with
        | nil =>
          obtain ⟨rfl, rfl⟩ := List.cons.inj hfound
          exact absurd hid (hnodes old hold)
        | cons _ before =>
          obtain ⟨rfl, rfl⟩ := List.cons.inj hfound
          exact ⟨before, after, rfl, fun other hother =>
            hbefore other (List.mem_cons_of_mem _ hother)⟩
    · rw [heq, mem_foldl_noteFinding rest]
      constructor
      · rintro (hin | ⟨hnodes, before, after, rfl, hbefore⟩)
        · rcases List.mem_append.mp hin with hin | hin
          · exact .inl hin
          · rw [List.mem_singleton] at hin
            subst hin
            exact .inr ⟨hnew, [], rest, rfl, fun _ hother => absurd hother List.not_mem_nil⟩
        · refine .inr ⟨fun other hother => hnodes other (List.mem_append_left _ hother),
            first :: before, after, rfl, fun other hother => ?_⟩
          rcases List.mem_cons.mp hother with rfl | hother
          · exact hnodes _ (List.mem_append_right _ List.mem_cons_self)
          · exact hbefore other hother
      · rintro (hin | ⟨hnodes, before, after, hfound, hbefore⟩)
        · exact .inl (List.mem_append_left _ hin)
        · cases before with
          | nil =>
            obtain ⟨rfl, rfl⟩ := List.cons.inj hfound
            exact .inl (List.mem_append_right _ List.mem_cons_self)
          | cons _ before =>
            obtain ⟨rfl, rfl⟩ := List.cons.inj hfound
            refine .inr ⟨fun other hother => ?_, before, after, rfl, fun other hother =>
              hbefore other (List.mem_cons_of_mem _ hother)⟩
            rcases List.mem_append.mp hother with hother | hother
            · exact hnodes other hother
            · rw [List.mem_singleton] at hother
              subst hother
              exact hbefore _ List.mem_cons_self

theorem mem_chainNodes {roundFindings : List (List Finding)} {node : ChainNode} :
    node ∈ chainNodes roundFindings ↔ FirstFound roundFindings node := by
  rw [chainNodes_eq_foldl, mem_foldl_noteFinding]
  simp [FirstFound]

/-- A round adds new ids only. -/
theorem NodesOk.foldl_noteFinding {rounds round : Nat} (hround : 0 < round)
    (hbound : rounds ≤ round) : ∀ (findings : List Finding) {nodes : List ChainNode},
      NodesOk nodes rounds → NodesOk (findings.foldl (noteFinding round) nodes) round := by
  suffices hstep : ∀ (findings : List Finding) {nodes : List ChainNode}, NodesOk nodes round →
      NodesOk (findings.foldl (noteFinding round) nodes) round from
    fun findings nodes h => hstep findings
      ⟨h.nodup, h.ordered, fun node hnode =>
        ⟨(h.round node hnode).1, (h.round node hnode).2.trans hbound⟩⟩
  intro findings
  induction findings with
  | nil => exact fun h => h
  | cons finding findings ih =>
    intro nodes h
    refine ih ?_
    rcases noteFinding_append_singleton nodes round finding with ⟨heq, -⟩ | ⟨heq, hnew⟩
    · rwa [heq]
    · rw [heq]
      refine ⟨?_, ?_, ?_⟩
      · rw [List.map_append, List.nodup_append]
        refine ⟨h.nodup, List.nodup_singleton _, fun id hid other hother => ?_⟩
        obtain ⟨node, hnode, rfl⟩ := List.mem_map.mp hid
        rw [List.map_singleton, List.mem_singleton] at hother
        rw [hother]
        exact hnew node hnode
      · rw [List.pairwise_append]
        refine ⟨h.ordered, List.pairwise_singleton _ _, fun node hnode other hother => ?_⟩
        rw [List.mem_singleton] at hother
        subst hother
        exact (h.round node hnode).2
      · intro node hnode
        rcases List.mem_append.mp hnode with hnode | hnode
        · exact h.round node hnode
        · rw [List.mem_singleton] at hnode
          subst hnode
          exact ⟨hround, Nat.le_refl _⟩

theorem nodesOk_chainNodes (roundFindings : List (List Finding)) :
    NodesOk (chainNodes roundFindings) roundFindings.length := by
  induction roundFindings using List.reverseRecOn with
  | nil => exact ⟨List.nodup_nil, List.Pairwise.nil, fun _ h => absurd h List.not_mem_nil⟩
  | append_singleton rounds findings ih =>
    rw [chainNodes_snoc, List.length_append, List.length_singleton]
    exact ih.foldl_noteFinding (Nat.succ_pos _) (Nat.le_succ _) findings

variable {nodes : List ChainNode} {rounds : Nat} {node other : ChainNode}

theorem NodesOk.eq_of_id (h : NodesOk nodes rounds) (hnode : node ∈ nodes) (hother : other ∈ nodes)
    (hid : node.id = other.id) : node = other :=
  List.inj_on_of_nodup_map h.nodup hnode hother hid

theorem NodesOk.nodeById (h : NodesOk nodes rounds) (hnode : node ∈ nodes) :
    nodeById nodes node.id = some node := by
  obtain ⟨found, hfound⟩ : ∃ found, Autobuild.nodeById nodes node.id = some found := by
    rw [← Option.isSome_iff_exists]
    exact List.find?_isSome.mpr ⟨node, hnode, by simp⟩
  have hid : found.id = node.id := by
    have hsome := List.find?_some hfound
    exact of_decide_eq_true hsome
  rw [hfound, h.eq_of_id (mem_of_nodeById hfound) hnode hid]

theorem id_of_nodeById {id : String} (h : Autobuild.nodeById nodes id = some node) :
    node.id = id := by
  have hsome := List.find?_some h
  exact of_decide_eq_true hsome

theorem NodesOk.foundIn_eq (h : NodesOk nodes rounds) (hnode : node ∈ nodes) :
    foundIn nodes node.id = node.round := by
  rw [foundIn, h.nodeById hnode, Option.map_some, Option.getD_some]

theorem NodesOk.mem_parentsOf (h : NodesOk nodes rounds) (hnode : node ∈ nodes) {id : String} :
    id ∈ parentsOf nodes node ↔ ∃ parent, Honored nodes node parent ∧ parent.id = id := by
  unfold parentsOf
  rw [List.mem_filter]
  constructor
  · rintro ⟨hpersists, hfound⟩
    cases hparent : Autobuild.nodeById nodes id with
    | none =>
      rw [hparent] at hfound
      exact absurd hfound nofun
    | some parent =>
      rw [hparent] at hfound
      have hid := id_of_nodeById hparent
      exact ⟨parent, ⟨hnode, mem_of_nodeById hparent, hid ▸ hpersists,
        of_decide_eq_true hfound⟩, hid⟩
  · rintro ⟨parent, ⟨-, hparent, hpersists, hlt⟩, rfl⟩
    refine ⟨hpersists, ?_⟩
    rw [h.nodeById hparent, Option.map_some, Option.getD_some]
    exact decide_eq_true hlt

theorem NodesOk.isRoot_iff (h : NodesOk nodes rounds) (hnode : node ∈ nodes) :
    IsRoot nodes node ↔ parentsOf nodes node = [] := by
  rw [List.eq_nil_iff_forall_not_mem]
  constructor
  · intro hroot id hid
    obtain ⟨parent, hparent, -⟩ := (h.mem_parentsOf hnode).mp hid
    exact hroot parent hparent
  · intro hnone parent hparent
    exact hnone parent.id ((h.mem_parentsOf hnode).mpr ⟨parent, hparent, rfl⟩)

/-- **The roots that the search finds are those that are reached.** -/
theorem NodesOk.mem_rootsOf (h : NodesOk nodes rounds) {id : String} :
    ∀ {steps : Nat} {node : ChainNode}, node ∈ nodes → node.round ≤ steps →
      (id ∈ rootsOf nodes steps node.id ↔
        ∃ root, ReflTransGen (Honored nodes) node root ∧ IsRoot nodes root ∧ root.id = id)
  | 0, node, hnode, hsteps => by
    have := (h.round node hnode).1
    omega
  | steps + 1, node, hnode, hsteps => by
    unfold rootsOf
    rw [h.nodeById hnode]
    simp only
    split
    next hparents =>
      have hroot := (h.isRoot_iff hnode).mpr hparents
      rw [List.mem_singleton]
      constructor
      · rintro rfl
        exact ⟨node, .refl, hroot, rfl⟩
      · rintro ⟨root, hreach, -, rfl⟩
        rcases hreach.cases_head with rfl | ⟨parent, hparent, -⟩
        · rfl
        · exact absurd hparent (hroot parent)
    next hparents =>
      rw [JsText.mem_distinct, List.mem_flatMap]
      constructor
      · rintro ⟨parentId, hin, hid⟩
        obtain ⟨parent, hparent, rfl⟩ := (h.mem_parentsOf hnode).mp hin
        have hlt := hparent.2.2.2
        obtain ⟨root, hreach, hroot⟩ := (h.mem_rootsOf hparent.2.1 (by omega)).mp hid
        exact ⟨root, hreach.head hparent, hroot⟩
      · rintro ⟨root, hreach, hroot, rfl⟩
        rcases hreach.cases_head with rfl | ⟨parent, hparent, hreach⟩
        · exact absurd ((h.isRoot_iff hnode).mp hroot) hparents
        · have hlt := hparent.2.2.2
          refine ⟨parent.id, (h.mem_parentsOf hnode).mpr ⟨parent, hparent, rfl⟩, ?_⟩
          exact (h.mem_rootsOf hparent.2.1 (by omega)).mpr ⟨root, hreach, hroot, rfl⟩

theorem nodup_rootsOf (steps : Nat) (id : String) : (rootsOf nodes steps id).Nodup := by
  cases steps with
  | zero => exact List.nodup_nil
  | succ steps =>
    unfold rootsOf
    split
    · exact List.nodup_nil
    · simp only
      split
      · exact List.nodup_singleton _
      · exact JsText.distinct_nodup _

theorem Honored.round_le {root : ChainNode} (h : ReflTransGen (Honored nodes) node root) :
    root.round ≤ node.round := by
  induction h with
  | refl => exact Nat.le_refl _
  | tail _ hlink ih => exact hlink.2.2.2.le.trans ih

theorem Honored.mem {root : ChainNode} (hnode : node ∈ nodes)
    (h : ReflTransGen (Honored nodes) node root) : root ∈ nodes := by
  cases h with
  | refl => exact hnode
  | tail _ hlink => exact hlink.2.1

/-- A finding is a root, or its roots are of earlier rounds. -/
theorem Honored.eq_or_lt {root : ChainNode} (h : ReflTransGen (Honored nodes) node root) :
    root = node ∨ root.round < node.round := by
  rcases h.cases_tail with rfl | ⟨middle, hreach, hlink⟩
  · exact .inl rfl
  · exact .inr (hlink.2.2.2.trans_le (Honored.round_le hreach))

theorem NodesOk.rootsOf_eq_singleton (h : NodesOk nodes rounds) {steps : Nat} (hnode : node ∈ nodes)
    (hsteps : node.round ≤ steps) :
    rootsOf nodes steps node.id = [node.id] ↔ IsRoot nodes node := by
  constructor
  · intro hroots
    have hin : node.id ∈ rootsOf nodes steps node.id := by
      rw [hroots]
      exact List.mem_cons_self
    obtain ⟨root, hreach, hroot, hid⟩ := (h.mem_rootsOf hnode hsteps).mp hin
    rwa [← h.eq_of_id (Honored.mem hnode hreach) hnode hid]
  · intro hroot
    obtain ⟨steps, rfl⟩ : ∃ before, steps = before + 1 :=
      ⟨steps - 1, by have := (h.round node hnode).1; omega⟩
    unfold rootsOf
    rw [h.nodeById hnode]
    exact if_pos ((h.isRoot_iff hnode).mp hroot)

end Nodes

/-! ## 2. The chains -/

def ChainMembers.add (chain : ChainMembers) (node : ChainNode) : ChainMembers :=
  ⟨chain.ids ++ [node.id], chain.memberRounds ++ [node.round]⟩

/-- The chain of some members. -/
def chainOf (members : List ChainNode) : ChainMembers :=
  ⟨members.map (·.id), members.map (·.round)⟩

theorem chainOf_append_singleton (members : List ChainNode) (node : ChainNode) :
    chainOf (members ++ [node]) = (chainOf members).add node := by
  simp [chainOf, ChainMembers.add]

section Chains

variable {node : ChainNode}

theorem entries_joinChain {chains : JsMap String ChainMembers} {root : String}
    (h : ⟨root⟩ ∈ chains.keys) :
    (joinChain node chains root).entries =
      chains.entries.map fun e => if e.1 = ⟨root⟩ then (e.1, e.2.add node) else e := by
  unfold joinChain
  rw [entries_set_of_mem h, overwrite]
  refine List.map_congr_left fun e he => ?_
  obtain ⟨key, chain⟩ := e
  by_cases hkey : key = ⟨root⟩
  · subst hkey
    rw [if_pos rfl, if_pos rfl, get?_eq_some.mpr he]
    rfl
  · rw [if_neg hkey, if_neg hkey]

theorem entries_foldl_joinChain : ∀ {roots : List String} {chains : JsMap String ChainMembers},
    roots.Nodup → (∀ root ∈ roots, ⟨root⟩ ∈ chains.keys) →
      (roots.foldl (joinChain node) chains).entries =
        chains.entries.map fun e => if e.1.key ∈ roots then (e.1, e.2.add node) else e
  | [], chains, _, _ => by simp
  | root :: roots, chains, hnodup, hin => by
    obtain ⟨hroot, hnodup⟩ := List.nodup_cons.mp hnodup
    have hjoined : (joinChain node chains root).entries = _ :=
      entries_joinChain (hin root List.mem_cons_self)
    have hkeys : (joinChain node chains root).keys = chains.keys := by
      unfold ObjectMap.keys
      rw [hjoined, List.map_map]
      refine List.map_congr_left fun e _ => ?_
      simp only [Function.comp_apply]
      split <;> rfl
    rw [List.foldl_cons, entries_foldl_joinChain hnodup, hjoined, List.map_map]
    · refine List.map_congr_left fun e _ => ?_
      simp only [Function.comp_apply]
      by_cases hkey : e.1 = ⟨root⟩
      · rw [if_pos hkey]
        simp only [hkey]
        rw [if_neg hroot, if_pos List.mem_cons_self]
      · have hne : e.1.key ≠ root := fun h => hkey (congrArg MapKey.mk h)
        rw [if_neg hkey]
        simp only [List.mem_cons, hne, false_or]
    · intro other hother
      rw [hkeys]
      exact hin other (List.mem_cons_of_mem _ hother)

/-- The chains of a list of findings whose roots are known: one for every finding that is its own
root. -/
def chainEntries (roots : String → List String) (nodes : List ChainNode) :
    List (MapKey String × ChainMembers) :=
  (nodes.filter fun node => roots node.id = [node.id]).map fun root =>
    (⟨root.id⟩, chainOf (nodes.filter fun node => root.id ∈ roots node.id))

/-- Every finding is its own root, or its roots came before it. -/
def RootsFirst (roots : String → List String) (nodes : List ChainNode) : Prop :=
  ∀ before node after, nodes = before ++ node :: after →
    (∀ other ∈ before, other.id ≠ node.id ∧ node.id ∉ roots other.id) ∧
      (roots node.id = [node.id] ∨ (roots node.id).Nodup ∧
        ∀ root ∈ roots node.id, ∃ other ∈ before, other.id = root ∧ roots root = [root])

theorem keys_chainEntries {roots : String → List String} {nodes : List ChainNode} {id : String} :
    ⟨id⟩ ∈ (chainEntries roots nodes).map Prod.fst ↔
      ∃ node ∈ nodes, roots node.id = [node.id] ∧ node.id = id := by
  simp [chainEntries, and_assoc]

theorem entries_foldl_joinChains {roots : String → List String} {nodes : List ChainNode}
    (h : RootsFirst roots nodes) : ∀ done, done <+: nodes →
      (done.foldl (fun chains node => (roots node.id).foldl (joinChain node) chains) ∅).entries =
        chainEntries roots done := by
  intro done
  induction done using List.reverseRecOn with
  | nil => exact fun _ => rfl
  | append_singleton done node ih =>
    rintro ⟨after, hnodes⟩
    rw [List.append_assoc, List.singleton_append] at hnodes
    obtain ⟨hbefore, hroots⟩ := h done node after hnodes.symm
    have hdone := ih ⟨node :: after, hnodes⟩
    rw [List.foldl_append, List.foldl_cons, List.foldl_nil]
    generalize done.foldl (fun chains node => (roots node.id).foldl (joinChain node) chains) ∅ =
      chains at hdone
    have hkeys : ∀ id, ⟨id⟩ ∈ chains.keys ↔
        ∃ other ∈ done, roots other.id = [other.id] ∧ other.id = id := by
      intro id
      unfold ObjectMap.keys
      rw [hdone]
      exact keys_chainEntries
    have hfilter : ∀ root : String, (done ++ [node]).filter (fun n => root ∈ roots n.id) =
        done.filter (fun n => root ∈ roots n.id) ++
          if root ∈ roots node.id then [node] else [] := by
      intro root
      rw [List.filter_append]
      by_cases hin : root ∈ roots node.id <;> simp [hin]
    unfold chainEntries at hdone ⊢
    rw [List.filter_append]
    rcases hroots with hself | ⟨hnodup, hearlier⟩
    · -- A root begins its chain behind the others.
      have hfresh : (⟨node.id⟩ : MapKey String) ∉ chains.keys := by
        rw [hkeys]
        rintro ⟨other, hother, -, hid⟩
        exact (hbefore other hother).1 hid
      have hnone : done.filter (fun n => node.id ∈ roots n.id) = [] :=
        List.filter_eq_nil_iff.mpr fun other hother hin =>
          (hbefore other hother).2 (of_decide_eq_true hin)
      rw [hself, List.foldl_cons, List.foldl_nil, joinChain, get?_eq_none.mpr hfresh,
        entries_set_of_not_mem hfresh rfl, hdone, List.map_append]
      congr 1
      · refine List.map_congr_left fun root hroot => ?_
        have hne := (hbefore root (List.mem_filter.mp hroot).1).1
        rw [hfilter, if_neg (by rw [hself, List.mem_singleton]; exact hne), List.append_nil]
      · simp [hself, chainOf, hnone]
    · have hother : roots node.id ≠ [node.id] := by
        intro hself
        obtain ⟨other, hin, hid, -⟩ := hearlier node.id (by rw [hself]; exact List.mem_cons_self)
        exact (hbefore other hin).1 hid
      rw [entries_foldl_joinChain hnodup fun root hroot => ?_, hdone, List.map_map]
      · rw [List.filter_singleton, decide_eq_false hother, cond_false,
          List.append_nil]
        refine List.map_congr_left fun root _ => ?_
        simp only [Function.comp_apply]
        rw [hfilter]
        by_cases hin : root.id ∈ roots node.id
        · rw [if_pos hin, if_pos hin, chainOf_append_singleton]
        · rw [if_neg hin, if_neg hin, List.append_nil]
      · obtain ⟨other, hin, hid, hself⟩ := hearlier root hroot
        exact (hkeys root).mpr ⟨other, hin, by rw [hid, hself], hid⟩

variable {nodes : List ChainNode} {rounds : Nat}

theorem NodesOk.rootsFirst (h : NodesOk nodes rounds) :
    RootsFirst (rootsOf nodes rounds) nodes := by
  intro before node after hnodes
  have hin : ∀ other ∈ before, other ∈ nodes := fun other hother => by
    rw [hnodes]
    exact List.mem_append_left _ hother
  have hnode : node ∈ nodes := by
    rw [hnodes]
    exact List.mem_append_right _ List.mem_cons_self
  have hordered := h.ordered
  rw [hnodes, List.pairwise_append, List.pairwise_cons] at hordered
  obtain ⟨-, ⟨hafter, -⟩, hcross⟩ := hordered
  have hnodup := h.nodup
  rw [hnodes, List.map_append, List.map_cons, List.nodup_append] at hnodup
  have hids : ∀ other ∈ before, other.id ≠ node.id := fun other hother =>
    hnodup.2.2 other.id (List.mem_map_of_mem hother) node.id List.mem_cons_self
  have hround := fun other hother => (h.round other hother).2
  refine ⟨fun other hother => ⟨hids other hother, fun hroot => ?_⟩, ?_⟩
  · obtain ⟨root, hreach, -, hid⟩ :=
      (h.mem_rootsOf (hin other hother) (hround other (hin other hother))).mp hroot
    obtain rfl := h.eq_of_id (Honored.mem (hin other hother) hreach) hnode hid
    have hle := hcross other hother root List.mem_cons_self
    rcases Honored.eq_or_lt hreach with rfl | hlt
    · exact hids _ hother rfl
    · omega
  · by_cases hself : IsRoot nodes node
    · exact .inl ((h.rootsOf_eq_singleton hnode (hround node hnode)).mpr hself)
    · refine .inr ⟨nodup_rootsOf _ _, fun id hid => ?_⟩
      obtain ⟨root, hreach, hroot, rfl⟩ := (h.mem_rootsOf hnode (hround node hnode)).mp hid
      have hmem := Honored.mem hnode hreach
      have hlt : root.round < node.round := by
        rcases Honored.eq_or_lt hreach with rfl | hlt
        · exact absurd hroot hself
        · exact hlt
      refine ⟨root, ?_, rfl, (h.rootsOf_eq_singleton hmem (hround root hmem)).mpr hroot⟩
      rw [hnodes, List.mem_append, List.mem_cons] at hmem
      rcases hmem with hmem | rfl | hmem
      · exact hmem
      · exact absurd hlt (Nat.lt_irrefl _)
      · have := hafter root hmem
        omega

/-- The roots of a list of findings, and the members of a root's chain, as the search finds them. -/
def rootNodes (nodes : List ChainNode) (rounds : Nat) : List ChainNode :=
  nodes.filter fun node => rootsOf nodes rounds node.id = [node.id]

def membersOf (nodes : List ChainNode) (rounds : Nat) (root : ChainNode) : List ChainNode :=
  nodes.filter fun node => root.id ∈ rootsOf nodes rounds node.id

/-- **One chain for every root, in the order of the roots.** -/
theorem buildChains_eq (roundFindings : List (List Finding)) :
    buildChains roundFindings =
      (rootNodes (chainNodes roundFindings) roundFindings.length).map fun root =>
        chainOf (membersOf (chainNodes roundFindings) roundFindings.length root) := by
  have hentries := entries_foldl_joinChains (nodesOk_chainNodes roundFindings).rootsFirst _
    (List.prefix_refl _)
  have hmap : (chainMap roundFindings).entries = _ := hentries
  rw [buildChains, ObjectMap.values, hmap, chainEntries, List.map_map]
  rfl

theorem NodesOk.mem_rootNodes (h : NodesOk nodes rounds) :
    node ∈ rootNodes nodes rounds ↔ node ∈ nodes ∧ IsRoot nodes node := by
  unfold rootNodes
  rw [List.mem_filter, decide_eq_true_iff]
  exact and_congr_right fun hnode => h.rootsOf_eq_singleton hnode (h.round node hnode).2

theorem NodesOk.mem_membersOf (h : NodesOk nodes rounds) {root : ChainNode}
    (hroot : root ∈ rootNodes nodes rounds) :
    node ∈ membersOf nodes rounds root ↔ node ∈ nodes ∧ ReflTransGen (Honored nodes) node root := by
  obtain ⟨hin, hself⟩ := h.mem_rootNodes.mp hroot
  unfold membersOf
  rw [List.mem_filter, decide_eq_true_iff]
  refine and_congr_right fun hnode => ?_
  rw [h.mem_rootsOf hnode (h.round node hnode).2]
  constructor
  · rintro ⟨other, hreach, -, hid⟩
    rwa [← h.eq_of_id (Honored.mem hnode hreach) hin hid]
  · exact fun hreach => ⟨root, hreach, hself, rfl⟩

end Chains

/-! ## 3. Streaks -/

section Streaks

variable {rounds : List Nat}

theorem runFrom_mem : ∀ {steps round k : Nat}, k < runFrom rounds steps round → round + k ∈ rounds
  | 0, _, _, h => absurd h (Nat.not_lt_zero _)
  | steps + 1, round, k, h => by
    unfold runFrom at h
    split at h
    next hin =>
      cases k with
      | zero => exact hin
      | succ k =>
        have hk := runFrom_mem (Nat.lt_of_succ_lt_succ h)
        rwa [Nat.add_right_comm] at hk
    next => exact absurd h (Nat.not_lt_zero _)

/-- A run that is not stopped by the steps is stopped by a round that is missing. -/
theorem le_runFrom : ∀ {steps round n : Nat}, n ≤ steps → (∀ k < n, round + k ∈ rounds) →
    n ≤ runFrom rounds steps round
  | _, _, 0, _, _ => Nat.zero_le _
  | steps + 1, round, n + 1, hn, h => by
    have hround : round ∈ rounds := h 0 (Nat.succ_pos n)
    unfold runFrom
    rw [if_pos hround]
    refine Nat.succ_le_succ (le_runFrom (Nat.le_of_succ_le_succ hn) fun k hk => ?_)
    have hin := h (k + 1) (Nat.succ_lt_succ hk)
    rwa [← Nat.add_assoc, Nat.add_right_comm] at hin

/-- A run is no longer than the list its rounds are in. -/
theorem run_le_length {start n : Nat} (h : ∀ k < n, start + k ∈ rounds) : n ≤ rounds.length := by
  have hsub : List.range' start n ⊆ rounds := by
    intro round hround
    obtain ⟨k, hk, rfl⟩ := List.mem_range'.mp hround
    rw [Nat.one_mul]
    exact h k hk
  have hnodup : (List.range' start n).Nodup := List.nodup_range'
  have hle := (List.subperm_of_subset hnodup hsub).length_le
  rwa [List.length_range'] at hle

/-- Every run is part of one that no round comes right before. -/
theorem exists_first_of_run : ∀ {start n : Nat}, 0 < n → (∀ k < n, start + k ∈ rounds) →
    ∃ first, first ∈ rounds ∧ ¬(0 < first ∧ first - 1 ∈ rounds) ∧
      ∃ m, n ≤ m ∧ ∀ k < m, first + k ∈ rounds
  | 0, n, hn, h => ⟨0, h 0 hn, fun hpos => absurd hpos.1 (Nat.lt_irrefl 0), n, Nat.le_refl n, h⟩
  | start + 1, n, hn, h => by
    by_cases hbefore : start ∈ rounds
    · have hlonger : ∀ k < n + 1, start + k ∈ rounds := fun k hk => by
        cases k with
        | zero => exact hbefore
        | succ k =>
          have hin := h k (Nat.lt_of_succ_lt_succ hk)
          rwa [Nat.add_right_comm] at hin
      obtain ⟨first, hin, hfirst, m, hm, hrun⟩ := exists_first_of_run (Nat.succ_pos n) hlonger
      exact ⟨first, hin, hfirst, m, (Nat.le_succ n).trans hm, hrun⟩
    · exact ⟨start + 1, h 0 hn, fun hpos => hbefore hpos.2, n, Nat.le_refl n, h⟩

theorem foldl_max_unless (skip : Nat → Prop) [DecidablePred skip] (value : Nat → Nat) :
    ∀ (rounds : List Nat) (longest : Nat),
      let result := rounds.foldl
        (fun longest round => if skip round then longest else max longest (value round)) longest
      longest ≤ result ∧ (∀ round ∈ rounds, ¬skip round → value round ≤ result) ∧
        (result = longest ∨ ∃ round ∈ rounds, ¬skip round ∧ result = value round)
  | [], longest => ⟨Nat.le_refl _, fun _ h => absurd h List.not_mem_nil, .inl rfl⟩
  | round :: rest, longest => by
    dsimp only
    rw [List.foldl_cons]
    by_cases hskip : skip round
    · rw [if_pos hskip]
      obtain ⟨hle, hall, hattained⟩ := foldl_max_unless skip value rest longest
      refine ⟨hle, fun other hother hnot => ?_, hattained.imp_right ?_⟩
      · rcases List.mem_cons.mp hother with rfl | hother
        · exact absurd hskip hnot
        · exact hall other hother hnot
      · rintro ⟨other, hother, hnot⟩
        exact ⟨other, List.mem_cons_of_mem _ hother, hnot⟩
    · rw [if_neg hskip]
      obtain ⟨hle, hall, hattained⟩ := foldl_max_unless skip value rest (max longest (value round))
      refine ⟨(Nat.le_max_left _ _).trans hle, fun other hother hnot => ?_, ?_⟩
      · rcases List.mem_cons.mp hother with rfl | hother
        · exact (Nat.le_max_right _ _).trans hle
        · exact hall other hother hnot
      · rcases hattained with heq | ⟨other, hother, hnot⟩
        · rcases Nat.le_total longest (value round) with hmax | hmax
          · exact .inr ⟨round, List.mem_cons_self, hskip, heq.trans (Nat.max_eq_right hmax)⟩
          · exact .inl (heq.trans (Nat.max_eq_left hmax))
        · exact .inr ⟨other, List.mem_cons_of_mem _ hother, hnot⟩

/-- **A streak is the longest run of consecutive rounds.** -/
theorem isLongestRun (rounds : List Nat) :
    IsLongestRun (· ∈ rounds) (longestConsecutiveRun rounds) := by
  obtain ⟨-, hall, hattained⟩ := foldl_max_unless
    (fun round => 0 < round ∧ round - 1 ∈ rounds) (runFrom rounds rounds.length) rounds 0
  constructor
  · rcases hattained with heq | ⟨start, -, -, heq⟩
    · refine ⟨0, fun k hk => ?_⟩
      rw [longestConsecutiveRun, heq] at hk
      exact absurd hk (Nat.not_lt_zero _)
    · refine ⟨start, fun k hk => ?_⟩
      rw [longestConsecutiveRun, heq] at hk
      exact runFrom_mem hk
  · intro start n hrun
    rcases Nat.eq_zero_or_pos n with rfl | hn
    · exact Nat.zero_le _
    · obtain ⟨first, hin, hfirst, m, hm, hrun⟩ := exists_first_of_run hn hrun
      calc n ≤ m := hm
        _ ≤ runFrom rounds rounds.length first := le_runFrom (run_le_length hrun) hrun
        _ ≤ longestConsecutiveRun rounds := hall first hin hfirst

theorem IsLongestRun.le {occupied more : Nat → Prop} {length longer : Nat}
    (h : IsLongestRun occupied length) (hmore : IsLongestRun more longer)
    (hsub : ∀ round, occupied round → more round) : length ≤ longer := by
  obtain ⟨start, hrun⟩ := h.1
  exact hmore.2 start length fun k hk => hsub _ (hrun k hk)

end Streaks

/-! ## 4. What a chain is -/

section IsChain

variable {nodes : List ChainNode} {rounds : Nat} {root : ChainNode}

/-- The root comes first: it is of an earlier round than the other members. -/
theorem NodesOk.head_membersOf (h : NodesOk nodes rounds) (hroot : root ∈ rootNodes nodes rounds) :
    (membersOf nodes rounds root).head? = some root := by
  have hin : root ∈ membersOf nodes rounds root :=
    (h.mem_membersOf hroot).mpr ⟨(h.mem_rootNodes.mp hroot).1, .refl⟩
  have hordered : (membersOf nodes rounds root).Pairwise fun a b => a.round ≤ b.round :=
    h.ordered.sublist List.filter_sublist
  cases hmembers : membersOf nodes rounds root with
  | nil =>
    rw [hmembers] at hin
    exact absurd hin List.not_mem_nil
  | cons first rest =>
    rw [hmembers] at hin hordered
    rcases List.mem_cons.mp hin with rfl | hrest
    · rfl
    · have hle := (List.pairwise_cons.mp hordered).1 root hrest
      have hfirst : first ∈ membersOf nodes rounds root := by
        rw [hmembers]
        exact List.mem_cons_self
      rcases Honored.eq_or_lt ((h.mem_membersOf hroot).mp hfirst).2 with rfl | hlt
      · rfl
      · omega

theorem NodesOk.isChainOf (h : NodesOk nodes rounds) (hroot : root ∈ rootNodes nodes rounds) :
    IsChainOf nodes root
      ⟨(chainOf (membersOf nodes rounds root)).ids,
        longestConsecutiveRun (chainOf (membersOf nodes rounds root)).memberRounds⟩ := by
  have hsub : (membersOf nodes rounds root).Sublist nodes := List.filter_sublist
  have hmem : ∀ id, id ∈ (membersOf nodes rounds root).map (·.id) ↔
      ∃ node ∈ membersOf nodes rounds root, node.id = id := fun id => List.mem_map
  refine ⟨?_, ?_, ?_, ?_, ?_, ?_⟩
  · rw [chainOf, List.head?_map, h.head_membersOf hroot, Option.map_some]
  · intro id hid
    obtain ⟨node, hnode, rfl⟩ := (hmem id).mp hid
    exact ⟨node, hsub.subset hnode, rfl⟩
  · intro node hnode
    simp only [chainOf, hmem]
    constructor
    · rintro ⟨other, hother, hid⟩
      have hreach := (h.mem_membersOf hroot).mp hother
      rw [← h.eq_of_id hreach.1 hnode hid]
      exact hreach.2
    · exact fun hreach => ⟨node, (h.mem_membersOf hroot).mpr ⟨hnode, hreach⟩, rfl⟩
  · simp only [chainOf]
    rw [List.pairwise_map]
    refine (h.ordered.sublist hsub).imp_of_mem fun ha hb hle => ?_
    rwa [h.foundIn_eq (hsub.subset ha), h.foundIn_eq (hsub.subset hb)]
  · exact h.nodup.sublist (hsub.map _)
  · have hoccupied : (fun round => ∃ id ∈ (membersOf nodes rounds root).map (·.id),
        foundIn nodes id = round) = (· ∈ (membersOf nodes rounds root).map (·.round)) := by
      funext round
      rw [List.mem_map]
      refine propext ⟨?_, ?_⟩
      · rintro ⟨id, hid, rfl⟩
        obtain ⟨node, hnode, rfl⟩ := (hmem id).mp hid
        exact ⟨node, hnode, (h.foundIn_eq (hsub.subset hnode)).symm⟩
      · rintro ⟨node, hnode, rfl⟩
        exact ⟨node.id, (hmem _).mpr ⟨node, hnode, rfl⟩, h.foundIn_eq (hsub.subset hnode)⟩
    simp only [chainOf]
    rw [hoccupied]
    exact isLongestRun _

end IsChain

/-! ## 5. One more round -/

/-- The chain of a root. -/
def chainFrom (nodes : List ChainNode) (rounds : Nat) (root : ChainNode) : FindingChain :=
  let chain := chainOf (membersOf nodes rounds root)
  ⟨chain.ids, longestConsecutiveRun chain.memberRounds⟩

theorem persistenceChains_eq (roundFindings : List (List Finding)) :
    persistenceChains roundFindings =
      (rootNodes (chainNodes roundFindings) roundFindings.length).map
        (chainFrom (chainNodes roundFindings) roundFindings.length) := by
  rw [persistenceChains, buildChains_eq, List.map_map]
  rfl

section Snoc

variable {nodes added : List ChainNode} {rounds : Nat} {root : ChainNode}

/-- The roots of an earlier finding stay what they were. -/
theorem NodesOk.rootsOf_append (h : NodesOk nodes rounds)
    (hadded : ∀ node ∈ added, node.round = rounds + 1) {node : ChainNode} (hnode : node ∈ nodes) :
    rootsOf (nodes ++ added) (rounds + 1) node.id = rootsOf nodes rounds node.id :=
  Autobuild.rootsOf_append
    (fun node hnode => ⟨(h.round node hnode).1, Nat.lt_succ_of_le (h.round node hnode).2⟩) hadded
    rounds (rounds + 1) (h.nodeById hnode) (h.round node hnode).2
    ((h.round node hnode).2.trans (Nat.le_succ _))

theorem NodesOk.rootNodes_append (h : NodesOk nodes rounds)
    (hadded : ∀ node ∈ added, node.round = rounds + 1) :
    rootNodes (nodes ++ added) (rounds + 1) = rootNodes nodes rounds ++
      added.filter fun node => rootsOf (nodes ++ added) (rounds + 1) node.id = [node.id] := by
  unfold rootNodes
  rw [List.filter_append]
  congr 1
  exact List.filter_congr fun node hnode => by rw [h.rootsOf_append hadded hnode]

theorem NodesOk.membersOf_append (h : NodesOk nodes rounds)
    (hadded : ∀ node ∈ added, node.round = rounds + 1) :
    membersOf (nodes ++ added) (rounds + 1) root = membersOf nodes rounds root ++
      added.filter fun node => root.id ∈ rootsOf (nodes ++ added) (rounds + 1) node.id := by
  unfold membersOf
  rw [List.filter_append]
  congr 1
  exact List.filter_congr fun node hnode => by rw [h.rootsOf_append hadded hnode]

/-- A chain gets the new findings that reach its root, behind its members. -/
theorem NodesOk.chainFrom_append (h : NodesOk nodes rounds)
    (hadded : ∀ node ∈ added, node.round = rounds + 1)
    (hmore : NodesOk (nodes ++ added) (rounds + 1)) :
    let longer := chainFrom (nodes ++ added) (rounds + 1) root
    (chainFrom nodes rounds root).ids <+: longer.ids ∧
      (chainFrom nodes rounds root).rounds ≤ longer.rounds ∧
      (longer = chainFrom nodes rounds root ∨
        ∃ id ∈ longer.ids, foundIn (nodes ++ added) id = rounds + 1) := by
  unfold chainFrom
  dsimp only
  rw [h.membersOf_append hadded]
  generalize hnew : added.filter (fun node =>
    decide (root.id ∈ rootsOf (nodes ++ added) (rounds + 1) node.id)) = new
  have hsub : ∀ node ∈ new, node ∈ added := fun node hnode => by
    rw [← hnew] at hnode
    exact List.mem_of_mem_filter hnode
  have hids : (chainOf (membersOf nodes rounds root ++ new)).ids =
      (membersOf nodes rounds root).map (·.id) ++ new.map (·.id) := List.map_append
  have hrounds : (chainOf (membersOf nodes rounds root ++ new)).memberRounds =
      (membersOf nodes rounds root).map (·.round) ++ new.map (·.round) := List.map_append
  refine ⟨⟨new.map ChainNode.id, hids.symm⟩, ?_, ?_⟩
  · refine (isLongestRun _).le (isLongestRun _) fun round hround => ?_
    rw [hrounds]
    exact List.mem_append_left _ hround
  · cases new with
    | nil =>
      left
      rw [List.append_nil]
    | cons node rest =>
      have hnode := hsub node List.mem_cons_self
      refine .inr ⟨node.id, ?_, ?_⟩
      · rw [hids]
        exact List.mem_append_right _ (List.mem_map_of_mem List.mem_cons_self)
      · rw [hmore.foundIn_eq (List.mem_append_right _ hnode), hadded node hnode]

/-- The chain of a root of the new round has findings of that round only. -/
theorem NodesOk.found_of_mem_chainFrom (hadded : ∀ node ∈ added, node.round = rounds + 1)
    (hmore : NodesOk (nodes ++ added) (rounds + 1)) (hin : root ∈ added)
    (hroot : root ∈ rootNodes (nodes ++ added) (rounds + 1)) {id : String}
    (hid : id ∈ (chainFrom (nodes ++ added) (rounds + 1) root).ids) :
    foundIn (nodes ++ added) id = rounds + 1 := by
  obtain ⟨node, hmember, rfl⟩ := List.mem_map.mp hid
  obtain ⟨hnode, hreach⟩ := (hmore.mem_membersOf hroot).mp hmember
  have hle := Honored.round_le hreach
  have hround := hadded root hin
  have hbound := (hmore.round node hnode).2
  rw [hmore.foundIn_eq hnode]
  omega

end Snoc

/-- **One more round keeps the chains in their places, puts its findings behind their members and
begins the chains of its own roots behind them all.** -/
theorem persistenceChains_append_singleton (roundFindings : List (List Finding))
    (findings : List Finding) :
    let nodes := chainNodes (roundFindings ++ [findings])
    ∃ longer fresh, persistenceChains (roundFindings ++ [findings]) = longer ++ fresh ∧
      List.Forall₂ (fun chain next => chain.ids <+: next.ids ∧ chain.rounds ≤ next.rounds ∧
        (next = chain ∨ ∃ id ∈ next.ids, foundIn nodes id = roundFindings.length + 1))
        (persistenceChains roundFindings) longer ∧
      ∀ chain ∈ fresh, ∀ id ∈ chain.ids, foundIn nodes id = roundFindings.length + 1 := by
  have h := nodesOk_chainNodes roundFindings
  have hmore := nodesOk_chainNodes (roundFindings ++ [findings])
  obtain ⟨added, hnodes, hadded⟩ :=
    foldl_noteFinding (roundFindings.length + 1) findings (chainNodes roundFindings)
  rw [← chainNodes_snoc] at hnodes
  rw [List.length_append, List.length_singleton, hnodes] at hmore
  have hround := fun node hnode => (hadded node hnode).1
  have hroots := h.rootNodes_append hround
  intro nodes
  rw [show nodes = chainNodes roundFindings ++ added from hnodes, persistenceChains_eq,
    persistenceChains_eq, List.length_append, List.length_singleton, hnodes, hroots,
    List.map_append]
  refine ⟨_, _, rfl, ?_, ?_⟩
  · rw [List.forall₂_map_left_iff, List.forall₂_map_right_iff, List.forall₂_same]
    exact fun root _ => h.chainFrom_append hround hmore
  · intro chain hchain id hid
    obtain ⟨root, hroot, rfl⟩ := List.mem_map.mp hchain
    refine NodesOk.found_of_mem_chainFrom hround hmore (List.mem_of_mem_filter hroot) ?_ hid
    rw [hroots]
    exact List.mem_append_right _ hroot

/-! ## 6. Chains that stall -/

/-- The streak reached the limit, and a finding of the chain's latest round is not dismissed. -/
def Stalls (nodes : List ChainNode) (stallRounds : Nat) (dismissedIds : List String)
    (chain : FindingChain) : Prop :=
  stallRounds ≤ chain.rounds ∧ ∃ id ∈ chain.ids, id ∉ dismissedIds ∧
    ∀ other ∈ chain.ids, foundIn nodes other ≤ foundIn nodes id

instance (nodes : List ChainNode) (stallRounds : Nat) (dismissedIds : List String)
    (chain : FindingChain) : Decidable (Stalls nodes stallRounds dismissedIds chain) :=
  inferInstanceAs (Decidable (_ ∧ _))

section Stalled

variable {nodes : List ChainNode} {rounds stallRounds : Nat} {root : ChainNode}
  {dismissedIds : List String}

theorem foldl_max_spec (values : List Nat) :
    (∀ value ∈ values, value ≤ values.foldl max 0) ∧
      (values ≠ [] → values.foldl max 0 ∈ values) := by
  have hfold : values.foldl max 0 = values.foldl
      (fun longest value => if False then longest else max longest (id value)) 0 :=
    List.foldl_ext _ _ _ fun longest value _ => (if_neg not_false).symm
  obtain ⟨-, hall, hattained⟩ := foldl_max_unless (fun _ => False) id values 0
  rw [hfold]
  refine ⟨fun value hvalue => hall value hvalue not_false, fun hne => ?_⟩
  rcases hattained with heq | ⟨value, hvalue, -, heq⟩
  · obtain ⟨value, hvalue⟩ := List.exists_mem_of_ne_nil _ hne
    have hle := hall value hvalue not_false
    rw [heq] at hle ⊢
    rwa [← Nat.le_zero.mp hle]
  · rw [heq]
    exact hvalue

theorem tipDismissed_chainOf {members : List ChainNode} (hne : members ≠ []) :
    tipDismissed (chainOf members) dismissedIds = false ↔
      ∃ node ∈ members, node.id ∉ dismissedIds ∧ ∀ other ∈ members, other.round ≤ node.round := by
  obtain ⟨hall, hattained⟩ := foldl_max_spec (members.map (·.round))
  have hattained := hattained fun h => hne (List.map_eq_nil_iff.mp h)
  obtain ⟨latest, hlatest, hmax⟩ := List.mem_map.mp hattained
  unfold tipDismissed chainOf
  dsimp only
  rw [List.zip_map', List.all_eq_false]
  simp only [List.mem_map, exists_exists_and_eq_and, Bool.or_eq_true, decide_eq_true_iff, not_or,
    not_not]
  refine exists_congr fun node => and_congr_right fun hnode => ?_
  rw [and_comm]
  refine and_congr_right fun _ => ⟨fun heq other hother => ?_, fun htip => ?_⟩
  · rw [heq]
    exact hall _ (List.mem_map_of_mem hother)
  · rw [← hmax]
    exact Nat.le_antisymm (hmax ▸ hall _ (List.mem_map_of_mem hnode)) (htip latest hlatest)

theorem NodesOk.stalledChain?_eq (h : NodesOk nodes rounds)
    (hroot : root ∈ rootNodes nodes rounds) :
    stalledChain? stallRounds dismissedIds (chainOf (membersOf nodes rounds root)) =
      Option.guard (fun chain => decide (Stalls nodes stallRounds dismissedIds chain))
        (chainFrom nodes rounds root) := by
  have hne : membersOf nodes rounds root ≠ [] := by
    intro hnil
    have hhead := h.head_membersOf hroot
    rw [hnil] at hhead
    exact absurd hhead nofun
  have hin : ∀ node ∈ membersOf nodes rounds root, node ∈ nodes := fun node hnode =>
    List.mem_of_mem_filter hnode
  have hstalls : Stalls nodes stallRounds dismissedIds (chainFrom nodes rounds root) ↔
      stallRounds ≤ (chainFrom nodes rounds root).rounds ∧
        tipDismissed (chainOf (membersOf nodes rounds root)) dismissedIds = false := by
    rw [tipDismissed_chainOf hne, Stalls]
    refine and_congr_right fun _ => ?_
    simp only [chainFrom, chainOf, List.mem_map, exists_exists_and_eq_and, forall_exists_index,
      and_imp, forall_apply_eq_imp_iff₂]
    refine exists_congr fun node => and_congr_right fun hnode => and_congr_right fun _ =>
      forall₂_congr fun other hother => ?_
    rw [h.foundIn_eq (hin other hother), h.foundIn_eq (hin node hnode)]
  unfold stalledChain? Option.guard
  dsimp only
  by_cases hlimit : stallRounds ≤ (chainFrom nodes rounds root).rounds
  · have hreached : ¬longestConsecutiveRun
        (chainOf (membersOf nodes rounds root)).memberRounds < stallRounds := Nat.not_lt.mpr hlimit
    rw [if_neg hreached]
    cases htip : tipDismissed (chainOf (membersOf nodes rounds root)) dismissedIds
    · rw [if_neg Bool.false_ne_true, if_pos (decide_eq_true (hstalls.mpr ⟨hlimit, htip⟩))]
      rfl
    · rw [if_pos rfl, if_neg fun hin => ?_]
      have hopen := (hstalls.mp (of_decide_eq_true hin)).2
      rw [htip] at hopen
      exact Bool.noConfusion hopen
  · have hshort : longestConsecutiveRun
        (chainOf (membersOf nodes rounds root)).memberRounds < stallRounds := Nat.not_le.mp hlimit
    rw [if_pos hshort, if_neg fun hin => hlimit (hstalls.mp (of_decide_eq_true hin)).1]

/-- **The chains that stall are the chains, in their order, that meet the condition.** -/
theorem stalledChains_eq (roundFindings : List (List Finding)) (stallRounds : Nat)
    (dismissedIds : List String) :
    stalledChains roundFindings stallRounds dismissedIds =
      (persistenceChains roundFindings).filter fun chain =>
        Stalls (chainNodes roundFindings) stallRounds dismissedIds chain := by
  rw [stalledChains, buildChains_eq, persistenceChains_eq, ← List.filterMap_eq_filter,
    List.filterMap_map, List.filterMap_map]
  refine List.filterMap_congr fun root hroot => ?_
  exact (nodesOk_chainNodes roundFindings).stalledChain?_eq hroot

end Stalled

/-- **Persistence chains**: one for every finding without an honored link, with the findings that
reach it; one more round leaves the others as they are; the chains that stall are those of the
condition. -/
theorem persistence_chains (roundFindings : List (List Finding)) :
    let nodes := chainNodes roundFindings
    (∀ node, node ∈ nodes ↔ FirstFound roundFindings node) ∧
    (∃ roots : List ChainNode, roots.Nodup ∧
      (∀ node, node ∈ roots ↔ node ∈ nodes ∧ IsRoot nodes node) ∧
      List.Forall₂ (IsChainOf nodes) roots (persistenceChains roundFindings)) ∧
    (∀ findings, let nodes := chainNodes (roundFindings ++ [findings])
      ∃ longer fresh, persistenceChains (roundFindings ++ [findings]) = longer ++ fresh ∧
        List.Forall₂ (fun chain next => chain.ids <+: next.ids ∧ chain.rounds ≤ next.rounds ∧
          (next = chain ∨ ∃ id ∈ next.ids, foundIn nodes id = roundFindings.length + 1))
          (persistenceChains roundFindings) longer ∧
        ∀ chain ∈ fresh, ∀ id ∈ chain.ids, foundIn nodes id = roundFindings.length + 1) ∧
    (∀ stallRounds dismissedIds, stalledChains roundFindings stallRounds dismissedIds =
      (persistenceChains roundFindings).filter fun chain =>
        Stalls nodes stallRounds dismissedIds chain) := by
  have h := nodesOk_chainNodes roundFindings
  refine ⟨fun node => mem_chainNodes, ⟨rootNodes (chainNodes roundFindings) roundFindings.length,
    (List.Nodup.of_map _ h.nodup).filter _, fun node => h.mem_rootNodes, ?_⟩,
    persistenceChains_append_singleton roundFindings, stalledChains_eq roundFindings⟩
  rw [persistenceChains_eq, List.forall₂_map_right_iff, List.forall₂_same]
  exact fun root hroot => h.isChainOf hroot

end Autobuild
