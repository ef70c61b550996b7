/-
# The lineage of a rewritten target

A build's target may be the branch of a node, and the node's own publications rewrite that
branch.  The dispatcher accepts such a rewrite on receipts only: `proveTargetLineage` reads back
the guarded publications of the node, one point lookup at a time while others publish, and asks
the forge about the commits between them.

* `RewritePath`: from a commit to another through ancestors and receipts, in that order.
* `proveTargetLineage_sound`: whatever is proved is such a path, through publications that are in
  the log of the node.
* `guardedChain_isSome_iff`: over a log that stands still the walk back succeeds exactly when
  one of its suffixes is such a path, within what is left of the cap.
-/
import Autobuild.Kernel.NodeRewrites
import Autobuild.Kernel.TargetObservation
import Autobuild.Lib.Checked

namespace Autobuild

open ObjectMap Checked

/-! ## 1. The proof -/

def maxTargetLineageHops : Nat := 64

/-- What the dispatcher asks, by the read it makes: others publish between two reads. -/
structure LineagePorts where
  /-- The branch on record of the node, if there is one. -/
  branch : Except String (Option String)
  getNodeRewrite :
    Option (Nat → Option String → Option String → Except String (Option LineageReceipt))
  isCommitAncestor : Option (Nat → String → String → Except String Bool)

/-- `gitOid.parse` -/
def parseOid (sha : String) : Except String Unit :=
  if gitOid sha then .ok () else .error "invalid git OID"

inductive ExactChain where
  | proved (receipts : List LineageReceipt)
  /-- The reads that were made. -/
  | broken (reads : Nat)

section Walk

variable (rewrite : Nat → Option String → Option String → Except String (Option LineageReceipt))
  (ancestor : Nat → String → String → Except String Bool)

/-- `a === b || (await forge.isCommitAncestor(a, b))` -/
def reaches (read : Nat) (a b : String) : Except String Bool :=
  if a = b then .ok true else ancestor read a b

/-- Forward, from receipt to receipt that replaces the head of the last. -/
def exactChain (sha : String) : Nat → Nat → String → List LineageReceipt → Except String ExactChain
  | 0, reads, _, _ => .ok (.broken reads)
  | fuel + 1, reads, forward, exact => do
    match ← rewrite reads (some forward) none with
    | none => return .broken (reads + 1)
    | some receipt =>
      if receipt.previous ≠ forward ∨ receipt.head = forward then return .broken (reads + 1)
      parseOid receipt.previous
      parseOid receipt.head
      if ← reaches ancestor reads receipt.head sha then return .proved (exact ++ [receipt])
      exactChain sha fuel (reads + 1) receipt.head (exact ++ [receipt])

/-- Backward from the latest receipt; siblings may have landed between two receipts. -/
def guardedChain (fromSha : String) : Nat → Nat → String → Option String → List String →
    List LineageReceipt → Except String (Option (List LineageReceipt))
  | 0, _, _, _, _, _ => .ok none
  | fuel + 1, reads, head, beforePrevious, seen, receipts => do
    match ← rewrite reads none beforePrevious with
    | none => return none
    | some receipt =>
      if receipt.id ∈ seen then return none
      parseOid receipt.previous
      parseOid receipt.head
      if receipt.previous = receipt.head then return none
      if !(← reaches ancestor reads receipt.head head) then return none
      if ← reaches ancestor reads fromSha receipt.previous then return some (receipt :: receipts)
      guardedChain fromSha fuel (reads + 1) receipt.previous (some receipt.previous)
        (receipt.id :: seen) (receipt :: receipts)

end Walk

def proveTargetLineage (ports : LineagePorts) (node branch fromSha sha : String) :
    Except String (Option TargetLineage) := do
  parseOid fromSha
  parseOid sha
  match ports.getNodeRewrite, ports.isCommitAncestor with
  | some rewrite, some ancestor =>
    if (← ports.branch) ≠ some branch then return none
    match ← exactChain rewrite ancestor sha maxTargetLineageHops 0 fromSha [] with
    | .proved receipts => return some ⟨node, fromSha, receipts⟩
    | .broken reads =>
      let receipts ← guardedChain rewrite ancestor fromSha (maxTargetLineageHops - reads) reads sha
        none [] []
      return receipts.map fun receipts => ⟨node, fromSha, receipts⟩
  | _, _ => return none

/-! ## 2. Paths through receipts -/

/-- The second commit is the first, or descends from it. -/
def SameOrDescends (descends : String → String → Prop) (a b : String) : Prop :=
  a = b ∨ descends a b

instance {descends : String → String → Prop} [∀ a b, Decidable (descends a b)] (a b : String) :
    Decidable (SameOrDescends descends a b) :=
  inferInstanceAs (Decidable (a = b ∨ descends a b))

/-- From a commit to another: ancestors between the receipts, and before and after them. -/
inductive RewritePath (reach : String → String → Prop) :
    String → List LineageReceipt → String → Prop
  | nil {a b : String} (h : reach a b) : RewritePath reach a [] b
  | cons {a b : String} {receipt : LineageReceipt} {rest : List LineageReceipt}
    (h : reach a receipt.previous) (tail : RewritePath reach receipt.head rest b) :
    RewritePath reach a (receipt :: rest) b

theorem rewritePath_snoc {reach : String → String → Prop} {a b : String}
    {receipts : List LineageReceipt} {last : LineageReceipt} :
    RewritePath reach a (receipts ++ [last]) b ↔
      RewritePath reach a receipts last.previous ∧ reach last.head b := by
  induction receipts generalizing a with
  | nil =>
    constructor
    · rintro (_ | ⟨h, ⟨hb⟩⟩)
      exact ⟨.nil h, hb⟩
    · rintro ⟨⟨h⟩, hb⟩
      exact .cons h (.nil hb)
  | cons receipt rest ih =>
    constructor
    · intro h
      cases h with
      | cons h tail =>
        obtain ⟨hrest, hb⟩ := ih.mp tail
        exact ⟨.cons h hrest, hb⟩
    · rintro ⟨h, hb⟩
      cases h with
      | cons h tail => exact .cons h (ih.mpr ⟨tail, hb⟩)

/-- A receipt that may carry a proof: between two commits, which it tells apart. -/
structure LineageReceipt.Valid (receipt : LineageReceipt) : Prop where
  previous : gitOid receipt.previous = true
  head : gitOid receipt.head = true
  moved : receipt.previous ≠ receipt.head

section Walk

variable {rewrite : Nat → Option String → Option String → Except String (Option LineageReceipt)}
  {ancestor : Nat → String → String → Except String Bool}

theorem parseOid_bind {β : Type} {sha : String} {rest : Unit → Except String β} {result : β} :
    (parseOid sha >>= rest) = .ok result ↔ gitOid sha = true ∧ rest () = .ok result := by
  unfold parseOid
  split
  · rename_i h
    exact ⟨fun hr => ⟨h, hr⟩, And.right⟩
  · rename_i h
    exact ⟨fun hr => (by cases hr), fun hr => absurd hr.1 h⟩

/-- What one step of the exact walk does when the walk succeeds. -/
theorem exactChain_succ_proved {sha forward : String} {fuel reads : Nat}
    {exact receipts : List LineageReceipt}
    (h : exactChain rewrite ancestor sha (fuel + 1) reads forward exact = .ok (.proved receipts)) :
    ∃ receipt, rewrite reads (some forward) none = .ok (some receipt) ∧ receipt.Valid ∧
      receipt.previous = forward ∧
      ((reaches ancestor reads receipt.head sha = .ok true ∧ receipts = exact ++ [receipt]) ∨
        exactChain rewrite ancestor sha fuel (reads + 1) receipt.head (exact ++ [receipt])
          = .ok (.proved receipts)) := by
  unfold exactChain at h
  obtain ⟨answer, hanswer, h⟩ := bind_eq_ok.mp h
  cases answer with
  | none => cases h
  | some receipt =>
    dsimp only at h
    split at h
    · cases h
    · rename_i hexact
      push Not at hexact
      obtain ⟨hprevious, h⟩ := parseOid_bind.mp h
      obtain ⟨hhead, h⟩ := parseOid_bind.mp h
      obtain ⟨reached, hreached, h⟩ := bind_eq_ok.mp h
      refine ⟨receipt, hanswer, ⟨hprevious, hhead, ?_⟩, hexact.1, ?_⟩
      · rw [hexact.1]
        exact hexact.2.symm
      · cases reached with
        | true =>
          injection Except.ok.inj h with h
          exact Or.inl ⟨hreached, h.symm⟩
        | false => exact Or.inr h

/-- One step of the walk back. -/
theorem guardedChain_succ {fromSha head : String} {fuel reads : Nat} {before : Option String}
    {seen : List String} {receipts result : List LineageReceipt} :
    guardedChain rewrite ancestor fromSha (fuel + 1) reads head before seen receipts
        = .ok (some result) ↔
      ∃ receipt, rewrite reads none before = .ok (some receipt) ∧ receipt.id ∉ seen ∧
        receipt.Valid ∧ reaches ancestor reads receipt.head head = .ok true ∧
        ((reaches ancestor reads fromSha receipt.previous = .ok true ∧
            result = receipt :: receipts) ∨
          (reaches ancestor reads fromSha receipt.previous = .ok false ∧
            guardedChain rewrite ancestor fromSha fuel (reads + 1) receipt.previous
              (some receipt.previous) (receipt.id :: seen) (receipt :: receipts)
                = .ok (some result))) := by
  constructor
  · intro h
    unfold guardedChain at h
    obtain ⟨answer, hanswer, h⟩ := bind_eq_ok.mp h
    cases answer with
    | none => cases h
    | some receipt =>
      dsimp only at h
      split at h
      · cases h
      · rename_i hseen
        obtain ⟨hprevious, h⟩ := parseOid_bind.mp h
        obtain ⟨hhead, h⟩ := parseOid_bind.mp h
        split at h
        · cases h
        · rename_i hmoved
          obtain ⟨reached, hreached, h⟩ := bind_eq_ok.mp h
          cases reached with
          | false => cases h
          | true =>
            obtain ⟨started, hstarted, h⟩ := bind_eq_ok.mp h
            refine ⟨receipt, hanswer, hseen, ⟨hprevious, hhead, hmoved⟩, hreached, ?_⟩
            cases started with
            | true => exact Or.inl ⟨hstarted, (Option.some.inj (Except.ok.inj h)).symm⟩
            | false => exact Or.inr ⟨hstarted, h⟩
  · rintro ⟨receipt, hanswer, hseen, hvalid, hreached, hrest⟩
    unfold guardedChain
    refine bind_eq_ok.mpr ⟨some receipt, hanswer, ?_⟩
    dsimp only
    rw [if_neg hseen]
    refine parseOid_bind.mpr ⟨hvalid.previous, parseOid_bind.mpr ⟨hvalid.head, ?_⟩⟩
    rw [if_neg hvalid.moved]
    refine bind_eq_ok.mpr ⟨true, hreached, ?_⟩
    rcases hrest with ⟨hstarted, rfl⟩ | ⟨hstarted, h⟩
    · exact bind_eq_ok.mpr ⟨true, hstarted, rfl⟩
    · exact bind_eq_ok.mpr ⟨false, hstarted, h⟩

section Sound

variable {descends : String → String → Prop}
  (htruthful : ∀ read a b, ancestor read a b = .ok true → descends a b)

include htruthful in
theorem sameOrDescends_of_reaches {read : Nat} {a b : String}
    (h : reaches ancestor read a b = .ok true) : SameOrDescends descends a b := by
  unfold reaches at h
  split at h
  · exact Or.inl ‹a = b›
  · exact Or.inr (htruthful read a b h)

/-- The receipt answered one of the reads, and may carry a proof. -/
def Published
    (rewrite : Nat → Option String → Option String → Except String (Option LineageReceipt))
    (receipt : LineageReceipt) : Prop :=
  receipt.Valid ∧ ∃ read previous before, rewrite read previous before = .ok (some receipt)

include htruthful in
/-- What the exact walk proves continues what it has so far. -/
theorem exactChain_sound {sha : String} : ∀ {fuel reads : Nat} {forward : String}
    {exact receipts : List LineageReceipt},
    exactChain rewrite ancestor sha fuel reads forward exact = .ok (.proved receipts) →
    ∃ rest, receipts = exact ++ rest ∧ rest ≠ [] ∧ rest.length ≤ fuel ∧
      RewritePath (SameOrDescends descends) forward rest sha ∧
      ∀ receipt ∈ rest, Published rewrite receipt
  | 0, _, _, _, _, h => by
    cases h
  | fuel + 1, reads, forward, exact, receipts, h => by
    obtain ⟨receipt, hread, hvalid, hforward, hrest⟩ := exactChain_succ_proved h
    have hpublished : Published rewrite receipt := ⟨hvalid, _, _, _, hread⟩
    have hstart : SameOrDescends descends forward receipt.previous := Or.inl hforward.symm
    rcases hrest with ⟨hreached, rfl⟩ | hrest
    · exact ⟨[receipt], rfl, List.cons_ne_nil _ _, Nat.succ_le_succ (Nat.zero_le _),
        .cons hstart (.nil (sameOrDescends_of_reaches htruthful hreached)),
        fun other ho => List.mem_singleton.mp ho ▸ hpublished⟩
    · obtain ⟨rest, rfl, -, hlength, hpath, hall⟩ := exactChain_sound hrest
      refine ⟨receipt :: rest, by simp, List.cons_ne_nil _ _, Nat.succ_le_succ hlength,
        .cons hstart hpath, fun other ho => ?_⟩
      rcases List.mem_cons.mp ho with rfl | ho
      · exact hpublished
      · exact hall other ho

include htruthful in
/-- What the walk back proves goes in front of what it has so far. -/
theorem guardedChain_sound {fromSha : String} : ∀ {fuel reads : Nat} {head : String}
    {before : Option String} {seen : List String} {receipts result : List LineageReceipt},
    guardedChain rewrite ancestor fromSha fuel reads head before seen receipts
      = .ok (some result) →
    ∃ front, result = front ++ receipts ∧ front ≠ [] ∧ front.length ≤ fuel ∧
      RewritePath (SameOrDescends descends) fromSha front head ∧
      ∀ receipt ∈ front, Published rewrite receipt
  | 0, _, _, _, _, _, _, h => by
    cases h
  | fuel + 1, reads, head, before, seen, receipts, result, h => by
    obtain ⟨receipt, hread, -, hvalid, hreached, hrest⟩ := guardedChain_succ.mp h
    have hpublished : Published rewrite receipt := ⟨hvalid, _, _, _, hread⟩
    have hend := sameOrDescends_of_reaches htruthful hreached
    rcases hrest with ⟨hstarted, rfl⟩ | ⟨-, hrest⟩
    · exact ⟨[receipt], rfl, List.cons_ne_nil _ _, Nat.succ_le_succ (Nat.zero_le _),
        .cons (sameOrDescends_of_reaches htruthful hstarted) (.nil hend),
        fun other ho => List.mem_singleton.mp ho ▸ hpublished⟩
    · obtain ⟨front, rfl, -, hlength, hpath, hall⟩ := guardedChain_sound hrest
      refine ⟨front ++ [receipt], by simp, by simp, ?_, rewritePath_snoc.mpr ⟨hpath, hend⟩,
        fun other ho => ?_⟩
      · rw [List.length_append]
        exact Nat.succ_le_succ hlength
      · rcases List.mem_append.mp ho with ho | ho
        · exact hall other ho
        · exact List.mem_singleton.mp ho ▸ hpublished

end Sound

end Walk

/-! ## 3. What is proved -/

/-- Every lookup was answered from the log of the node as it then was. -/
def LineagePorts.Reads (ports : LineagePorts) (log : List AbEvent) : Prop :=
  ∀ rewrite, ports.getNodeRewrite = some rewrite → ∀ read previous before receipt,
    rewrite read previous before = .ok receipt →
    ∃ events, events <+: log ∧
      receipt = Autobuild.getNodeRewrite (rewritesOf events) previous before

/-- Commits do not change, so an ancestor once is one for good. -/
def LineagePorts.Truthful (ports : LineagePorts) (descends : String → String → Prop) : Prop :=
  ∀ ancestor, ports.isCommitAncestor = some ancestor →
    ∀ read a b, ancestor read a b = .ok true → descends a b

/-- **What is proved is a path through publications of the node**, of at most
`maxTargetLineageHops` receipts, whatever is published meanwhile. -/
theorem proveTargetLineage_sound {ports : LineagePorts} {log : List AbEvent}
    {descends : String → String → Prop} {node branch fromSha sha : String}
    {lineage : TargetLineage} (hreads : ports.Reads log) (htruthful : ports.Truthful descends)
    (h : proveTargetLineage ports node branch fromSha sha = .ok (some lineage)) :
    ports.branch = .ok (some branch) ∧ lineage.node = node ∧ lineage.fromSha = fromSha ∧
      lineage.receipts ≠ [] ∧ lineage.receipts.length ≤ maxTargetLineageHops ∧
      RewritePath (SameOrDescends descends) fromSha lineage.receipts sha ∧
      ∀ receipt ∈ lineage.receipts, receipt.Valid ∧
        ∃ event ∈ log, ∃ payload, event.body = .node (.rewritten payload) ∧
          payload.receipt = receipt := by
  unfold proveTargetLineage at h
  obtain ⟨-, h⟩ := parseOid_bind.mp h
  obtain ⟨-, h⟩ := parseOid_bind.mp h
  cases hrewrite : ports.getNodeRewrite with
  | none =>
    rw [hrewrite] at h
    cases h
  | some rewrite =>
    cases hancestor : ports.isCommitAncestor with
    | none =>
      rw [hrewrite, hancestor] at h
      cases h
    | some ancestor =>
      rw [hrewrite, hancestor] at h
      dsimp only at h
      obtain ⟨onRecord, hbranch, h⟩ := bind_eq_ok.mp h
      split at h
      · cases h
      · rename_i hsame
        rw [not_not.mp hsame] at hbranch
        have hpublished : ∀ receipt, Published rewrite receipt → receipt.Valid ∧
            ∃ event ∈ log, ∃ payload, event.body = .node (.rewritten payload) ∧
              payload.receipt = receipt := by
          rintro receipt ⟨hvalid, read, previous, before, hread⟩
          obtain ⟨events, hprefix, hr⟩ := hreads rewrite hrewrite _ _ _ _ hread
          obtain ⟨event, he, hpayload⟩ := mem_rewritesOf.mp (mem_of_getNodeRewrite hr.symm)
          exact ⟨hvalid, event, hprefix.subset he, hpayload⟩
        obtain ⟨chain, hchain, h⟩ := bind_eq_ok.mp h
        cases chain with
        | proved receipts =>
          cases h
          obtain ⟨rest, rfl, hne, hlength, hpath, hall⟩ :=
            exactChain_sound (htruthful ancestor hancestor) hchain
          exact ⟨hbranch, rfl, rfl, hne, hlength, hpath,
            fun receipt hr => hpublished receipt (hall receipt hr)⟩
        | broken reads =>
          obtain ⟨result, hresult, h⟩ := bind_eq_ok.mp h
          obtain ⟨receipts, rfl, rfl⟩ := Option.map_eq_some_iff.mp (Except.ok.inj h)
          obtain ⟨front, rfl, hne, hlength, hpath, hall⟩ :=
            guardedChain_sound (htruthful ancestor hancestor) hresult
          rw [List.append_nil]
          exact ⟨hbranch, rfl, rfl, hne, hlength.trans (Nat.sub_le _ _), hpath,
            fun receipt hr => hpublished receipt (hall receipt hr)⟩

/-! ## 4. A log that stands still -/

section Still

variable (receipts : List LineageReceipt) (descends : String → String → Bool)

/-- Every read sees the same receipts. -/
def stillRewrite (_read : Nat) (previous before : Option String) :
    Except String (Option LineageReceipt) :=
  .ok (getNodeRewrite receipts previous before)

def stillAncestor (_read : Nat) (a b : String) : Except String Bool := .ok (descends a b)

variable {receipts descends}

theorem reaches_still {read : Nat} {a b : String} :
    reaches (stillAncestor descends) read a b
      = .ok (decide (SameOrDescends (descends · ·) a b)) := by
  unfold reaches stillAncestor
  by_cases h : a = b
  · rw [if_pos h, decide_eq_true (show SameOrDescends (descends · ·) a b from Or.inl h)]
  · rw [if_neg h]
    refine congrArg Except.ok ?_
    rw [Bool.eq_iff_iff, decide_eq_true_iff]
    exact ⟨Or.inr, fun hr => hr.resolve_left h⟩

/-- With a commit of its own each, the receipt before one is the next. -/
theorem getNodeRewrite_before {done rest : List LineageReceipt} {receipt : LineageReceipt}
    (h : ((done ++ receipt :: rest).map (·.previous)).Nodup) :
    getNodeRewrite (done ++ receipt :: rest) none (some receipt.previous) = rest.head? := by
  have hdrop : (done ++ receipt :: rest).dropWhile (fun other => other.previous ≠ receipt.previous)
      = receipt :: rest := by
    rw [List.dropWhile_append_of_pos, List.dropWhile_cons, if_neg (by simp)]
    intro other ho
    rw [List.map_append, List.map_cons] at h
    have hnot := (List.nodup_append.mp h).2.2 other.previous (List.mem_map_of_mem ho)
      receipt.previous List.mem_cons_self
    simpa using hnot
  show ((List.dropWhile _ _).drop 1).head? = _
  rw [hdrop]
  rfl

/-- A walk back may end in these receipts, the latest first. -/
structure WalksBack (descends : String → String → Bool) (fromSha head : String)
    (seen : List String) (taken : List LineageReceipt) : Prop where
  nonempty : taken ≠ []
  path : RewritePath (SameOrDescends (descends · ·)) fromSha taken.reverse head
  valid : ∀ receipt ∈ taken, receipt.Valid
  distinct : (taken.map (·.id)).Nodup
  fresh : ∀ receipt ∈ taken, receipt.id ∉ seen

theorem WalksBack.first {fromSha head : String} {seen : List String}
    {receipt : LineageReceipt} {rest : List LineageReceipt}
    (h : WalksBack descends fromSha head seen (receipt :: rest)) :
    RewritePath (SameOrDescends (descends · ·)) fromSha rest.reverse receipt.previous ∧
      SameOrDescends (descends · ·) receipt.head head := by
  have hpath := h.path
  rwa [List.reverse_cons, rewritePath_snoc] at hpath

theorem WalksBack.rest {fromSha head : String} {seen : List String}
    {receipt : LineageReceipt} {rest : List LineageReceipt}
    (h : WalksBack descends fromSha head seen (receipt :: rest)) (hne : rest ≠ []) :
    WalksBack descends fromSha receipt.previous (receipt.id :: seen) rest := by
  obtain ⟨hnew, hdistinct⟩ := List.nodup_cons.mp h.distinct
  refine ⟨hne, h.first.1, fun other ho => h.valid other (List.mem_cons_of_mem _ ho), hdistinct,
    fun other ho hm => ?_⟩
  rcases List.mem_cons.mp hm with he | hm
  · exact hnew (List.mem_map.mpr ⟨other, ho, he⟩)
  · exact h.fresh other (List.mem_cons_of_mem _ ho) hm

theorem walksBack_cons {fromSha head : String} {seen : List String}
    {receipt : LineageReceipt} {rest : List LineageReceipt} (hvalid : receipt.Valid)
    (hseen : receipt.id ∉ seen) (hend : SameOrDescends (descends · ·) receipt.head head)
    (h : WalksBack descends fromSha receipt.previous (receipt.id :: seen) rest) :
    WalksBack descends fromSha head seen (receipt :: rest) := by
  refine ⟨List.cons_ne_nil _ _, ?_, List.forall_mem_cons.mpr ⟨hvalid, h.valid⟩, ?_,
    List.forall_mem_cons.mpr ⟨hseen, fun other ho hm =>
      h.fresh other ho (List.mem_cons_of_mem _ hm)⟩⟩
  · rw [List.reverse_cons, rewritePath_snoc]
    exact ⟨h.path, hend⟩
  · refine List.nodup_cons.mpr ⟨fun hm => ?_, h.distinct⟩
    obtain ⟨other, ho, he⟩ := List.mem_map.mp hm
    exact h.fresh other ho (he ▸ List.mem_cons_self)

/-- **Over a log that stands still the walk back succeeds exactly when the latest receipts that
the cap still admits are a path**, for some number of them. -/
theorem guardedChain_isSome_iff {fromSha : String} {fuel reads : Nat} {head : String}
    {before : Option String} {seen : List String} {found : List LineageReceipt} :
    ∀ {done rest : List LineageReceipt}, ((done ++ rest).map (·.previous)).Nodup →
    getNodeRewrite (done ++ rest) none before = rest.head? →
    ((∃ result, guardedChain (stillRewrite (done ++ rest)) (stillAncestor descends) fromSha fuel
        reads head before seen found = .ok (some result)) ↔
      ∃ taken, taken <+: rest ∧ taken.length ≤ fuel ∧
        WalksBack descends fromSha head seen taken) := by
  induction fuel generalizing reads head before seen found with
  | zero =>
    intro done rest _ _
    constructor
    · rintro ⟨result, h⟩
      cases h
    · rintro ⟨taken, -, hlength, hwalk⟩
      exact absurd (List.length_eq_zero_iff.mp (Nat.le_zero.mp hlength)) hwalk.nonempty
  | succ fuel ih =>
    intro done rest hnodup hbefore
    cases rest with
    | nil =>
      constructor
      · rintro ⟨result, h⟩
        obtain ⟨receipt, hread, -⟩ := guardedChain_succ.mp h
        have hnone : getNodeRewrite (done ++ []) none before = some receipt := Except.ok.inj hread
        rw [hbefore] at hnone
        cases hnone
      · rintro ⟨taken, hprefix, -, hwalk⟩
        exact absurd (List.prefix_nil.mp hprefix) hwalk.nonempty
    | cons next rest =>
      have hsplit : done ++ next :: rest = (done ++ [next]) ++ rest := by simp
      have hnext := @ih (reads + 1) next.previous (some next.previous) (next.id :: seen)
        (next :: found) (done ++ [next]) rest (hsplit ▸ hnodup)
        (hsplit ▸ getNodeRewrite_before hnodup)
      rw [← hsplit] at hnext
      constructor
      · rintro ⟨result, h⟩
        obtain ⟨receipt, hread, hseen, hvalid, hend, hrest⟩ := guardedChain_succ.mp h
        have hsame : some receipt = some next :=
          (Except.ok.inj hread).symm.trans hbefore
        cases hsame
        rw [reaches_still, Except.ok.injEq, decide_eq_true_iff] at hend
        rcases hrest with ⟨hstart, -⟩ | ⟨-, hrest⟩
        · rw [reaches_still, Except.ok.injEq, decide_eq_true_iff] at hstart
          refine ⟨[next], ⟨rest, rfl⟩, Nat.succ_le_succ (Nat.zero_le _), List.cons_ne_nil _ _,
            .cons hstart (.nil hend), ?_, List.nodup_singleton _, ?_⟩
          · exact fun other ho => List.mem_singleton.mp ho ▸ hvalid
          · exact fun other ho => List.mem_singleton.mp ho ▸ hseen
        · obtain ⟨taken, hprefix, hlength, hwalk⟩ := hnext.mp ⟨result, hrest⟩
          exact ⟨next :: taken, List.cons_prefix_cons.mpr ⟨rfl, hprefix⟩,
            Nat.succ_le_succ hlength, walksBack_cons hvalid hseen hend hwalk⟩
      · rintro ⟨taken, hprefix, hlength, hwalk⟩
        cases taken with
        | nil => exact absurd rfl hwalk.nonempty
        | cons receipt taken =>
          obtain ⟨rfl, htail⟩ := List.cons_prefix_cons.mp hprefix
          obtain ⟨hpath, hend⟩ := hwalk.first
          have hvalid := hwalk.valid receipt List.mem_cons_self
          have hseen := hwalk.fresh receipt List.mem_cons_self
          have hread : stillRewrite (done ++ receipt :: rest) reads none before
              = .ok (some receipt) := congrArg Except.ok hbefore
          have hreached : reaches (stillAncestor descends) reads receipt.head head = .ok true := by
            rw [reaches_still, decide_eq_true hend]
          by_cases hstart : SameOrDescends (descends · ·) fromSha receipt.previous
          · exact ⟨_, guardedChain_succ.mpr ⟨receipt, hread, hseen, hvalid, hreached,
              Or.inl ⟨by rw [reaches_still, decide_eq_true hstart], rfl⟩⟩⟩
          · have hne : taken ≠ [] := by
              rintro rfl
              cases hpath with
              | nil h => exact hstart h
            obtain ⟨result, hresult⟩ := hnext.mpr
              ⟨taken, htail, Nat.le_of_succ_le_succ hlength, hwalk.rest hne⟩
            exact ⟨result, guardedChain_succ.mpr ⟨receipt, hread, hseen, hvalid, hreached,
              Or.inr ⟨by rw [reaches_still, decide_eq_false hstart], hresult⟩⟩⟩

/-- Receipts of which each replaces the head of the one before it, from a commit to another. -/
inductive ReceiptChain (receipts : List LineageReceipt) : String → List LineageReceipt → String →
    Prop
  | nil (a : String) : ReceiptChain receipts a [] a
  | cons {receipt : LineageReceipt} {rest : List LineageReceipt} {b : String}
    (mem : receipt ∈ receipts) (valid : receipt.Valid)
    (tail : ReceiptChain receipts receipt.head rest b) :
    ReceiptChain receipts receipt.previous (receipt :: rest) b

/-- No receipt moves on from a commit. -/
def Unreplaced (receipts : List LineageReceipt) (sha : String) : Prop :=
  ∀ receipt ∈ receipts, receipt.previous = sha → receipt.head = sha

instance (receipts : List LineageReceipt) (sha : String) : Decidable (Unreplaced receipts sha) :=
  inferInstanceAs (Decidable (∀ receipt ∈ receipts, receipt.previous = sha → receipt.head = sha))

/-- With a commit of its own each, a receipt is found by the commit it replaced. -/
theorem getNodeRewrite_previous (hnodup : (receipts.map (·.previous)).Nodup)
    {receipt : LineageReceipt} (hmem : receipt ∈ receipts) :
    getNodeRewrite receipts (some receipt.previous) none = some receipt := by
  cases hfind : receipts.find? fun other => other.previous = receipt.previous with
  | none => exact absurd (decide_eq_true rfl) (List.find?_eq_none.mp hfind receipt hmem)
  | some other =>
    have hprevious : other.previous = receipt.previous := by simpa using List.find?_some hfind
    rw [← List.inj_on_of_nodup_map hnodup (List.mem_of_find?_eq_some hfind) hmem hprevious]
    exact hfind ▸ hprevious ▸ rfl

section Exact

variable {sha forward : String} {fuel reads : Nat} {exact : List LineageReceipt}

/-- Where no receipt moves on, the walk has made one read more and is broken. -/
theorem exactChain_unreplaced (h : Unreplaced receipts forward) :
    exactChain (stillRewrite receipts) (stillAncestor descends) sha (fuel + 1) reads forward exact
      = .ok (.broken (reads + 1)) := by
  unfold exactChain
  cases hfind : receipts.find? fun receipt => receipt.previous = forward with
  | none =>
    have hread : stillRewrite receipts reads (some forward) none = .ok none :=
      congrArg Except.ok hfind
    rw [hread]
    rfl
  | some receipt =>
    have hread : stillRewrite receipts reads (some forward) none = .ok (some receipt) :=
      congrArg Except.ok hfind
    have hprevious : receipt.previous = forward := by simpa using List.find?_some hfind
    have hhead := h receipt (List.mem_of_find?_eq_some hfind) hprevious
    rw [hread, ok_bind]
    dsimp only
    rw [if_pos (Or.inr hhead)]
    rfl

/-- A receipt that moves on from the commit is the one that is read, as none has the same. -/
theorem exactChain_replaced (hnodup : (receipts.map (·.previous)).Nodup)
    {receipt : LineageReceipt} (hmem : receipt ∈ receipts) (hvalid : receipt.Valid) :
    exactChain (stillRewrite receipts) (stillAncestor descends) sha (fuel + 1) reads
        receipt.previous exact
      = if SameOrDescends (descends · ·) receipt.head sha then .ok (.proved (exact ++ [receipt]))
        else exactChain (stillRewrite receipts) (stillAncestor descends) sha fuel (reads + 1)
          receipt.head (exact ++ [receipt]) := by
  have hread : stillRewrite receipts reads (some receipt.previous) none = .ok (some receipt) :=
    congrArg Except.ok (getNodeRewrite_previous hnodup hmem)
  have hparse : ∀ {sha}, gitOid sha = true → parseOid sha = .ok () := fun h => if_pos h
  rw [exactChain, hread, ok_bind]
  dsimp only
  rw [if_neg (not_or.mpr ⟨not_not.mpr rfl, hvalid.moved.symm⟩), hparse hvalid.previous,
    hparse hvalid.head, reaches_still, ok_bind, ok_bind, ok_bind]
  by_cases hend : SameOrDescends (descends · ·) receipt.head sha
  · rw [decide_eq_true hend, if_pos rfl, if_pos hend]
    rfl
  · rw [decide_eq_false hend, if_neg Bool.false_ne_true, if_neg hend]

/-- **The walk forward proves exactly when a chain of receipts, no longer than the cap, ends before
the target.** -/
theorem exactChain_proved_iff (hnodup : (receipts.map (·.previous)).Nodup) :
    (∃ found, exactChain (stillRewrite receipts) (stillAncestor descends) sha fuel reads forward
        exact = .ok (.proved found)) ↔
      ∃ chain last, ReceiptChain receipts forward chain last ∧ chain ≠ [] ∧ chain.length ≤ fuel ∧
        SameOrDescends (descends · ·) last sha := by
  constructor
  · rintro ⟨found, h⟩
    induction fuel generalizing reads forward exact with
    | zero => cases h
    | succ fuel ih =>
      obtain ⟨receipt, hread, hvalid, rfl, hrest⟩ := exactChain_succ_proved h
      have hmem := List.mem_of_find?_eq_some (Except.ok.inj hread)
      rcases hrest with ⟨hend, -⟩ | hrest
      · rw [reaches_still, Except.ok.injEq, decide_eq_true_iff] at hend
        exact ⟨[receipt], _, .cons hmem hvalid (.nil _), List.cons_ne_nil _ _,
          Nat.succ_le_succ (Nat.zero_le _), hend⟩
      · obtain ⟨chain, last, hchain, -, hlength, hend⟩ := ih hrest
        exact ⟨receipt :: chain, last, .cons hmem hvalid hchain, List.cons_ne_nil _ _,
          Nat.succ_le_succ hlength, hend⟩
  · rintro ⟨chain, last, hchain, hne, hlength, hend⟩
    induction hchain generalizing fuel reads exact with
    | nil => exact absurd rfl hne
    | @cons receipt rest b hmem hvalid tail ih =>
      obtain ⟨fuel, rfl⟩ := Nat.exists_eq_succ_of_ne_zero
        (Nat.ne_of_gt (Nat.lt_of_lt_of_le (Nat.succ_pos _) hlength))
      rw [exactChain_replaced hnodup hmem hvalid]
      by_cases hreached : SameOrDescends (descends · ·) receipt.head sha
      · rw [if_pos hreached]
        exact ⟨_, rfl⟩
      · rw [if_neg hreached]
        have hrest : rest ≠ [] := by
          rintro rfl
          generalize receipt.head = head at tail hreached
          cases tail
          exact hreached hend
        exact ih hrest (Nat.le_of_succ_le_succ hlength) hend

/-- A walk that is broken has read along a chain to where no receipt moves on, or to the cap. -/
theorem chain_of_broken (hnodup : (receipts.map (·.previous)).Nodup) {made : Nat}
    (h : exactChain (stillRewrite receipts) (stillAncestor descends) sha fuel reads forward exact
      = .ok (.broken made)) :
    made = reads + fuel ∨ ∃ chain last, ReceiptChain receipts forward chain last ∧
      chain.length < fuel ∧ Unreplaced receipts last ∧ made = reads + (chain.length + 1) := by
  induction fuel generalizing reads forward exact with
  | zero =>
    cases h
    exact Or.inl rfl
  | succ fuel ih =>
    by_cases hstops : Unreplaced receipts forward
    · rw [exactChain_unreplaced hstops] at h
      cases h
      exact Or.inr ⟨[], forward, .nil _, Nat.succ_pos _, hstops, rfl⟩
    · unfold Unreplaced at hstops
      push Not at hstops
      obtain ⟨receipt, hmem, rfl, hmoved⟩ := hstops
      have hread : stillRewrite receipts reads (some receipt.previous) none = .ok (some receipt) :=
        congrArg Except.ok (getNodeRewrite_previous hnodup hmem)
      have hvalid : receipt.Valid := by
        rw [exactChain, hread, ok_bind] at h
        dsimp only at h
        rw [if_neg (not_or.mpr ⟨not_not.mpr rfl, hmoved⟩)] at h
        obtain ⟨hprevious, h⟩ := parseOid_bind.mp h
        exact ⟨hprevious, (parseOid_bind.mp h).1, Ne.symm hmoved⟩
      rw [exactChain_replaced hnodup hmem hvalid] at h
      split at h
      · cases h
      · rcases ih h with hmade | ⟨chain, last, hchain, hlength, hstops, hmade⟩
        · exact Or.inl (by omega)
        · refine Or.inr ⟨receipt :: chain, last, .cons hmem hvalid hchain,
            Nat.succ_lt_succ hlength, hstops, ?_⟩
          rw [List.length_cons]
          omega

/-- Along a chain to where no receipt moves on, the walk proves or is broken there. -/
theorem exactChain_of_chain (hnodup : (receipts.map (·.previous)).Nodup)
    {chain : List LineageReceipt} {last : String}
    (hchain : ReceiptChain receipts forward chain last)
    (hlength : chain.length < fuel) (hstops : Unreplaced receipts last) :
    (∃ found, exactChain (stillRewrite receipts) (stillAncestor descends) sha fuel reads forward
        exact = .ok (.proved found)) ∨
      exactChain (stillRewrite receipts) (stillAncestor descends) sha fuel reads forward exact
        = .ok (.broken (reads + (chain.length + 1))) := by
  induction hchain generalizing fuel reads exact with
  | nil a =>
    obtain ⟨fuel, rfl⟩ := Nat.exists_eq_succ_of_ne_zero (Nat.ne_of_gt hlength)
    exact Or.inr (exactChain_unreplaced hstops)
  | @cons receipt rest b hmem hvalid tail ih =>
    obtain ⟨fuel, rfl⟩ := Nat.exists_eq_succ_of_ne_zero
      (Nat.ne_of_gt (Nat.lt_of_le_of_lt (Nat.zero_le _) hlength))
    rw [exactChain_replaced hnodup hmem hvalid]
    split
    · exact Or.inl ⟨_, rfl⟩
    · have hrest := @ih fuel (reads + 1) (exact ++ [receipt]) (Nat.lt_of_succ_lt_succ hlength)
        hstops
      have hmade : reads + 1 + (rest.length + 1) = reads + ((receipt :: rest).length + 1) := by
        rw [List.length_cons]
        omega
      rwa [hmade] at hrest

end Exact

/-- The node on a branch, with all its receipts published. -/
def stillPorts (receipts : List LineageReceipt) (descends : String → String → Bool)
    (branch : String) : LineagePorts where
  branch := .ok (some branch)
  getNodeRewrite := some (stillRewrite receipts)
  isCommitAncestor := some (stillAncestor descends)

/-- **When a rewrite is provable at all**: by an unbroken chain of receipts from the baseline, or,
within the reads that a chain left of the cap where it broke, by the latest receipts of the node. -/
theorem proveTargetLineage_isSome_iff {node branch fromSha sha : String}
    (hfrom : gitOid fromSha = true) (hsha : gitOid sha = true)
    (hnodup : (receipts.map (·.previous)).Nodup) :
    (∃ lineage, proveTargetLineage (stillPorts receipts descends branch) node branch fromSha sha
        = .ok (some lineage)) ↔
      (∃ chain last, ReceiptChain receipts fromSha chain last ∧ chain ≠ [] ∧
        chain.length ≤ maxTargetLineageHops ∧ SameOrDescends (descends · ·) last sha) ∨
      ∃ chain last, ReceiptChain receipts fromSha chain last ∧ chain.length < maxTargetLineageHops ∧
        Unreplaced receipts last ∧ ∃ taken, taken <+: receipts ∧
          taken.length ≤ maxTargetLineageHops - (chain.length + 1) ∧
          WalksBack descends fromSha sha [] taken := by
  have hback : ∀ reads, (∃ result, guardedChain (stillRewrite receipts) (stillAncestor descends)
      fromSha (maxTargetLineageHops - reads) reads sha none [] [] = .ok (some result)) ↔ _ :=
    fun reads => @guardedChain_isSome_iff _ _ _ _ _ _ _ _ [] receipts hnodup rfl
  have hrest : ∀ lineage, proveTargetLineage (stillPorts receipts descends branch) node branch
      fromSha sha = .ok (some lineage) ↔
      ∃ chain, exactChain (stillRewrite receipts) (stillAncestor descends) sha
        maxTargetLineageHops 0 fromSha [] = .ok chain ∧
        ((∃ exact, chain = .proved exact ∧ lineage = ⟨node, fromSha, exact⟩) ∨
          ∃ reads result, chain = .broken reads ∧
            guardedChain (stillRewrite receipts) (stillAncestor descends) fromSha
              (maxTargetLineageHops - reads) reads sha none [] [] = .ok (some result) ∧
            lineage = ⟨node, fromSha, result⟩) := by
    intro lineage
    unfold proveTargetLineage
    rw [parseOid_bind, parseOid_bind]
    constructor
    · rintro ⟨-, -, h⟩
      obtain ⟨onRecord, hbranch, h⟩ := bind_eq_ok.mp h
      cases hbranch
      rw [if_neg (not_not.mpr rfl)] at h
      obtain ⟨chain, hchain, h⟩ := bind_eq_ok.mp h
      refine ⟨chain, hchain, ?_⟩
      cases chain with
      | proved exact =>
        cases h
        exact Or.inl ⟨exact, rfl, rfl⟩
      | broken reads =>
        obtain ⟨result, hresult, h⟩ := bind_eq_ok.mp h
        obtain ⟨found, rfl, rfl⟩ := Option.map_eq_some_iff.mp (Except.ok.inj h)
        exact Or.inr ⟨reads, found, rfl, hresult, rfl⟩
    · rintro ⟨chain, hchain, hrest⟩
      refine ⟨hfrom, hsha, bind_eq_ok.mpr ⟨some branch, rfl, ?_⟩⟩
      rw [if_neg (not_not.mpr rfl)]
      rcases hrest with ⟨exact, rfl, rfl⟩ | ⟨reads, result, rfl, hresult, rfl⟩
      · exact bind_eq_ok.mpr ⟨_, hchain, rfl⟩
      · exact bind_eq_ok.mpr ⟨_, hchain, bind_eq_ok.mpr ⟨_, hresult, rfl⟩⟩
  rw [← @exactChain_proved_iff receipts descends sha fromSha maxTargetLineageHops 0 [] hnodup]
  constructor
  · rintro ⟨lineage, h⟩
    obtain ⟨chain, hchain, ⟨exact, rfl, -⟩ | ⟨reads, result, rfl, hresult, -⟩⟩ :=
      (hrest lineage).mp h
    · exact Or.inl ⟨exact, hchain⟩
    · obtain ⟨taken, hprefix, hlength, hwalk⟩ := (hback reads).mp ⟨result, hresult⟩
      rcases chain_of_broken hnodup hchain with rfl | ⟨exact, last, hexact, hshort, hstops, rfl⟩
      · rw [Nat.zero_add, Nat.sub_self] at hlength
        exact absurd (List.length_eq_zero_iff.mp (Nat.le_zero.mp hlength)) hwalk.nonempty
      · rw [Nat.zero_add] at hlength
        exact Or.inr ⟨exact, last, hexact, hshort, hstops, taken, hprefix, hlength, hwalk⟩
  · rintro (⟨exact, hchain⟩ | ⟨chain, last, hexact, hshort, hstops, hwalk⟩)
    · exact ⟨_, (hrest _).mpr ⟨_, hchain, Or.inl ⟨exact, rfl, rfl⟩⟩⟩
    · rcases @exactChain_of_chain receipts descends sha fromSha maxTargetLineageHops 0 [] hnodup
        chain last hexact hshort hstops with ⟨exact, hchain⟩ | hchain
      · exact ⟨_, (hrest _).mpr ⟨_, hchain, Or.inl ⟨exact, rfl, rfl⟩⟩⟩
      · rw [Nat.zero_add] at hchain
        obtain ⟨result, hresult⟩ := (hback _).mpr hwalk
        exact ⟨_, (hrest _).mpr ⟨_, hchain, Or.inr ⟨_, result, rfl, hresult, rfl⟩⟩⟩

def commitOf (digit : Char) : String := String.ofList (List.replicate 40 digit)

/-- `b` was published over by `c`; `a` is an ancestor of the one and `d` descends from the
other. -/
def landedBetween : List LineageReceipt := [⟨"tx", commitOf 'b', commitOf 'c'⟩]

def landings (a b : String) : Bool :=
  decide ((a, b) = (commitOf 'a', commitOf 'b') ∨ (a, b) = (commitOf 'c', commitOf 'd'))

theorem proveTargetLineage_isSome_iff_landedBetween :
    ∃ lineage, proveTargetLineage (stillPorts landedBetween landings "ab-node/parent") "parent"
      "ab-node/parent" (commitOf 'a') (commitOf 'd') = .ok (some lineage) := by
  refine (proveTargetLineage_isSome_iff (by decide +kernel) (by decide +kernel)
    (by decide +kernel)).mpr (Or.inr ⟨[], _, .nil _, by decide, by decide +kernel,
      landedBetween, ⟨[], rfl⟩, by decide, ?_⟩)
  refine ⟨List.cons_ne_nil _ _, .cons (Or.inr (by decide +kernel))
    (.nil (Or.inr (by decide +kernel))), ?_, by decide, by simp⟩
  intro receipt hr
  rw [List.mem_singleton.mp hr]
  exact ⟨by decide +kernel, by decide +kernel, by decide +kernel⟩

/-- The log of the node with that publication. -/
def landedBetweenLog : List AbEvent :=
  [⟨1, 0, .dispatcher, .node (.rewritten ⟨"tx", commitOf 'b', commitOf 'c'⟩)⟩]

theorem stillPorts_reads {events : List AbEvent} {branch : String} :
    (stillPorts (rewritesOf events) descends branch).Reads events := by
  intro rewrite hrewrite read previous before receipt h
  cases hrewrite
  exact ⟨events, List.prefix_rfl, (Except.ok.inj h).symm⟩

theorem stillPorts_truthful {branch : String} :
    (stillPorts receipts descends branch).Truthful (descends · ·) := by
  intro ancestor hancestor read a b h
  cases hancestor
  exact Except.ok.inj h

end Still

/-! ## 5. The observers of a target -/

/-- What the observers of the dispatcher ask. -/
def dispatcherProofs (ports : String → LineagePorts)
    (isCommitAncestor : String → String → Except String Bool) (branch sha : String) :
    TargetProofs where
  isCommitAncestor := some isCommitAncestor
  proveRewrite := some fun node baseline =>
    proveTargetLineage (ports node) node branch baseline sha

/-- The commits and the logs of the nodes, as the proofs of one target tell of them. -/
def lineageGraph (descends : String → String → Prop) (logs : String → List AbEvent)
    (sha : String) : CommitGraph where
  descends := descends
  proved node baseline proof :=
    proof.node = node ∧ proof.fromSha = baseline ∧
      RewritePath (SameOrDescends descends) baseline proof.receipts sha ∧
      ∀ receipt ∈ proof.receipts, ∃ event ∈ logs node, ∃ payload,
        event.body = .node (.rewritten payload) ∧ payload.receipt = receipt

section Observers

variable {ports : String → LineagePorts} {logs : String → List AbEvent}
  {descends : String → String → Prop}
  {isCommitAncestor : String → String → Except String Bool}

theorem dispatcherProofs_truthful (hreads : ∀ node, (ports node).Reads (logs node))
    (htruthful : ∀ node, (ports node).Truthful descends)
    (hforge : ∀ a b, isCommitAncestor a b = .ok true → descends a b) (branch sha : String) :
    (dispatcherProofs ports isCommitAncestor branch sha).Truthful
      (lineageGraph descends logs sha) := by
  refine ⟨fun ask hask a b hab => ?_, fun prove hprove node baseline proof hproof => ?_⟩
  · cases hask
    exact hforge a b hab
  · cases hprove
    obtain ⟨-, hnode, hfrom, -, -, hpath, hall⟩ :=
      proveTargetLineage_sound (hreads node) (htruthful node) hproof
    exact ⟨hnode, hfrom, hpath, fun receipt hr => (hall receipt hr).2⟩

/-- **A target the dispatcher admits is reached from every baseline by commits and guarded
publications**, but for the proofs an accepted target was recorded with before. -/
theorem classify_lineage (hreads : ∀ node, (ports node).Reads (logs node))
    (htruthful : ∀ node, (ports node).Truthful descends)
    (hforge : ∀ a b, isCommitAncestor a b = .ok true → descends a b) {input : ObserveInput}
    {facts : TargetFacts} {event : TargetEvent}
    (h : classify input (dispatcherProofs ports isCommitAncestor input.branch input.sha) facts
      = .ok (.append event)) :
    EventForward (lineageGraph descends logs input.sha) facts input event :=
  classify_forward (dispatcherProofs_truthful hreads htruthful hforge _ _) h

/-- A build whose target is the node's branch, accepted as it was before the publication. -/
def behindLanding : List StoredEvent :=
  [.known ⟨1, 0, .dispatcher, .build (.created ⟨⟨"tracker", "T-1", none, none⟩, "repo", "main",
      none, some ⟨⟨"tracker", "P-1", none, none⟩, "parent"⟩, none, none⟩)⟩,
    ObserveSystem.targetEvent 2 0 .kernel (.moved ⟨"ab-node/parent", commitOf 'a', none⟩)]

def landedTarget : TargetMoved :=
  ⟨"ab-node/parent", commitOf 'd', some [⟨"parent", commitOf 'a', landedBetween⟩]⟩

def observingLanding : ObserveInput :=
  ⟨landedTarget.branch, landedTarget.sha, none, none, .dispatcher⟩

def landingProofs : TargetProofs :=
  dispatcherProofs (fun _ => stillPorts (rewritesOf landedBetweenLog) landings "ab-node/parent")
    (fun a b => .ok (landings a b)) observingLanding.branch observingLanding.sha

/-- The turn of the observer ends in that move. -/
def admitsLanding : Bool :=
  match readTargetFacts behindLanding with
  | .error _ => false
  | .ok facts =>
    match classify observingLanding landingProofs facts with
    | .ok (.append (.moved payload)) => decide (payload = landedTarget)
    | _ => false

theorem classify_lineage_behindLanding : ∃ facts, readTargetFacts behindLanding = .ok facts ∧
    EventForward (lineageGraph (landings · ·) (fun _ => landedBetweenLog) observingLanding.sha)
      facts observingLanding (.moved landedTarget) := by
  have hadmits : admitsLanding = true := by decide +kernel
  unfold admitsLanding at hadmits
  split at hadmits
  · cases hadmits
  · rename_i facts hfacts
    split at hadmits
    · rename_i payload hclassify
      rw [of_decide_eq_true hadmits] at hclassify
      unfold landingProofs at hclassify
      exact ⟨facts, hfacts, @classify_lineage
        (fun _ => stillPorts (rewritesOf landedBetweenLog) landings "ab-node/parent")
        (fun _ => landedBetweenLog) (landings · ·) (fun a b => .ok (landings a b))
        (fun _ => stillPorts_reads) (fun _ => stillPorts_truthful)
        (fun _ _ h => Except.ok.inj h) observingLanding facts _ hclassify⟩
    · cases hadmits

end Observers

end Autobuild
