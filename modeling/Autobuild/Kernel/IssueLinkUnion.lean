/-
# The union of issue links is a join

Per issue a link weighs as much as its verdict: `refs`, then `closes`, then a downgrade.  A merge
takes the higher verdict of each issue, so the union of a node depends on which contributions it saw
and on nothing else.

* `weightAt`: the verdict of a list on an issue; `Normalized.ext`: a normalized list is its
  verdicts.
* `weightAt_merge`: a merge is the join.
* `IssueUnion.of_facts`: the union of a log is that of the set of its contributions.
* `nodeIssueLinks_union_insensitive`: order, repetition and other events make no difference.
-/
import Autobuild.Kernel.Docket
import Autobuild.Kernel.NodeFacts
import Mathlib.Data.List.Sort

namespace Autobuild

open Checked ObjectMap

/-! ## 1. Verdicts -/

def NodeIssueLink.weight (link : NodeIssueLink) : Nat :=
  if link.downgraded then 3
  else match link.intent with
    | .closes => 2
    | .refs => 1

theorem NodeIssueLink.weight_pos (link : NodeIssueLink) : 0 < link.weight := by
  obtain ⟨issue, intent, downgraded⟩ := link
  cases intent <;> cases downgraded <;> simp [weight]

/-- The highest verdict of a list on an issue, 0 where it says nothing. -/
def weightAt (links : List NodeIssueLink) (issue : Nat) : Nat :=
  links.foldr (fun link weight => if link.issue = issue then max link.weight weight else weight) 0

theorem weightAt_cons (link : NodeIssueLink) (links : List NodeIssueLink) (issue : Nat) :
    weightAt (link :: links) issue
      = if link.issue = issue then max link.weight (weightAt links issue)
        else weightAt links issue := rfl

theorem weightAt_append (links links' : List NodeIssueLink) (issue : Nat) :
    weightAt (links ++ links') issue = max (weightAt links issue) (weightAt links' issue) := by
  induction links with
  | nil => exact (Nat.zero_max _).symm
  | cons link links ih =>
    rw [List.cons_append, weightAt_cons, weightAt_cons, ih]
    split_ifs
    · exact (max_assoc _ _ _).symm
    · rfl

theorem weight_le_weightAt {links : List NodeIssueLink} {link : NodeIssueLink}
    (h : link ∈ links) : link.weight ≤ weightAt links link.issue := by
  induction links with
  | nil => exact absurd h List.not_mem_nil
  | cons first links ih =>
    rw [weightAt_cons]
    rcases List.mem_cons.mp h with rfl | h
    · rw [if_pos rfl]
      exact le_max_left _ _
    · split_ifs
      · exact (ih h).trans (le_max_right _ _)
      · exact ih h

theorem exists_of_weightAt_pos {links : List NodeIssueLink} {issue : Nat}
    (h : 0 < weightAt links issue) :
    ∃ link ∈ links, link.issue = issue ∧ link.weight = weightAt links issue := by
  induction links with
  | nil => exact absurd h (lt_irrefl 0)
  | cons first links ih =>
    rw [weightAt_cons] at h ⊢
    by_cases hissue : first.issue = issue
    · rw [if_pos hissue] at h ⊢
      rcases le_total (weightAt links issue) first.weight with hle | hle
      · exact ⟨first, List.mem_cons_self, hissue, (max_eq_left hle).symm⟩
      · rw [max_eq_right hle] at h ⊢
        obtain ⟨link, hlink, hrest⟩ := ih h
        exact ⟨link, List.mem_cons_of_mem _ hlink, hrest⟩
    · rw [if_neg hissue] at h ⊢
      obtain ⟨link, hlink, hrest⟩ := ih h
      exact ⟨link, List.mem_cons_of_mem _ hlink, hrest⟩

theorem weightAt_le {links links' : List NodeIssueLink} (h : ∀ link ∈ links, link ∈ links')
    (issue : Nat) : weightAt links issue ≤ weightAt links' issue := by
  rcases Nat.eq_zero_or_pos (weightAt links issue) with hzero | hpos
  · rw [hzero]
    exact Nat.zero_le _
  · obtain ⟨link, hlink, rfl, hweight⟩ := exists_of_weightAt_pos hpos
    rw [← hweight]
    exact weight_le_weightAt (h link hlink)

/-! ## 2. Normalized lists -/

/-- What a merge returns: ascending issues, and a downgraded link is `refs`. -/
structure Normalized (links : List NodeIssueLink) : Prop where
  ascending : links.Pairwise (fun a b => a.issue < b.issue)
  downgraded : ∀ link ∈ links, link.downgraded = true → link.intent = .refs

theorem Normalized.nodup_issues {links : List NodeIssueLink} (h : Normalized links) :
    (links.map (·.issue)).Nodup :=
  (List.pairwise_map.mpr h.ascending).imp fun hlt => Nat.ne_of_lt hlt

theorem Normalized.eq_of_issue {links : List NodeIssueLink} (h : Normalized links)
    {a b : NodeIssueLink} (ha : a ∈ links) (hb : b ∈ links) (hissue : a.issue = b.issue) :
    a = b :=
  List.inj_on_of_nodup_map h.nodup_issues ha hb hissue

/-- A link of a normalized list is its verdict on the issue. -/
theorem Normalized.weightAt_of_mem {links : List NodeIssueLink} (h : Normalized links)
    {link : NodeIssueLink} (hlink : link ∈ links) : weightAt links link.issue = link.weight := by
  have hle := weight_le_weightAt hlink
  obtain ⟨other, hother, hissue, hweight⟩ :=
    exists_of_weightAt_pos (lt_of_lt_of_le link.weight_pos hle)
  rw [← hweight, h.eq_of_issue hother hlink hissue]

/-- The weight of a link that is not both downgraded and `closes` tells it. -/
theorem eq_of_weight_eq {a b : NodeIssueLink} (hissue : a.issue = b.issue)
    (hweight : a.weight = b.weight) (ha : a.downgraded = true → a.intent = .refs)
    (hb : b.downgraded = true → b.intent = .refs) : a = b := by
  obtain ⟨issue, intent, downgraded⟩ := a
  obtain ⟨issue', intent', downgraded'⟩ := b
  obtain rfl : issue = issue' := hissue
  have hweights : NodeIssueLink.weight ⟨issue, intent, downgraded⟩
      = NodeIssueLink.weight ⟨issue, intent', downgraded'⟩ := hweight
  cases downgraded <;> cases downgraded' <;> cases intent <;> cases intent' <;>
    first
    | rfl
    | (cases ha rfl; done)
    | (cases hb rfl; done)
    | simp [NodeIssueLink.weight] at hweights

/-- **A normalized list is its verdicts.** -/
theorem Normalized.ext {links links' : List NodeIssueLink} (h : Normalized links)
    (h' : Normalized links') (hweight : ∀ issue, weightAt links issue = weightAt links' issue) :
    links = links' := by
  have hsub : ∀ {a b : List NodeIssueLink}, Normalized a → Normalized b →
      (∀ issue, weightAt a issue = weightAt b issue) → ∀ link ∈ a, link ∈ b := by
    intro a b ha hb hsame link hlink
    have hlinkWeight := ha.weightAt_of_mem hlink
    rw [hsame] at hlinkWeight
    obtain ⟨other, hother, hissue, hotherWeight⟩ :=
      exists_of_weightAt_pos (hlinkWeight ▸ link.weight_pos)
    have heq : other = link := eq_of_weight_eq hissue (hotherWeight.trans hlinkWeight)
      (hb.downgraded other hother) (ha.downgraded link hlink)
    exact heq ▸ hother
  have hperm : links.Perm links' :=
    (List.perm_ext_iff_of_nodup h.nodup_issues.of_map h'.nodup_issues.of_map).mpr fun link =>
      ⟨hsub h h' hweight link, hsub h' h (fun issue => (hweight issue).symm) link⟩
  exact hperm.eq_of_pairwise (fun a b _ _ hab hba => absurd hab (Nat.lt_asymm hba)) h.ascending
    h'.ascending

/-! ## 3. A merge is the join -/

def MergedLink.weight (entry : MergedLink) : Nat :=
  if entry.downgraded then 3 else if entry.closes then 2 else 1

def entryWeight (entry : Option MergedLink) : Nat :=
  (entry.map MergedLink.weight).getD 0

theorem entryWeight_mergeLink (merged : JsMap Nat MergedLink) (link : NodeIssueLink)
    (issue : Nat) : entryWeight ((mergeLink merged link).get? ⟨issue⟩)
      = if link.issue = issue then max (entryWeight (merged.get? ⟨issue⟩)) link.weight
        else entryWeight (merged.get? ⟨issue⟩) := by
  unfold mergeLink
  dsimp only
  rw [get?_set]
  by_cases hissue : link.issue = issue
  · subst hissue
    rw [if_pos rfl, if_pos rfl]
    obtain ⟨issue, intent, downgraded⟩ := link
    cases merged.get? ⟨issue⟩ with
    | none => cases intent <;> cases downgraded <;> rfl
    | some entry =>
      obtain ⟨closes, lowered⟩ := entry
      cases intent <;> cases downgraded <;> cases closes <;> cases lowered <;> rfl
  · have hkey : (⟨issue⟩ : MapKey Nat) ≠ ⟨link.issue⟩ := fun h => hissue (MapKey.mk.inj h).symm
    rw [if_neg hkey, if_neg hissue]

theorem entryWeight_foldl_mergeLink (links : List NodeIssueLink) (merged : JsMap Nat MergedLink)
    (issue : Nat) : entryWeight ((links.foldl mergeLink merged).get? ⟨issue⟩)
      = max (entryWeight (merged.get? ⟨issue⟩)) (weightAt links issue) := by
  induction links generalizing merged with
  | nil => exact (Nat.max_zero _).symm
  | cons link links ih =>
    rw [List.foldl_cons, ih, entryWeight_mergeLink, weightAt_cons]
    split_ifs
    · exact max_assoc _ _ _
    · rfl

section Merge

variable (current contribution : List NodeIssueLink)

theorem mem_mergeNodeIssueLinks {link : NodeIssueLink} :
    link ∈ mergeNodeIssueLinks current contribution ↔
      ∃ entry, ((current ++ contribution).foldl mergeLink ∅).get? ⟨link.issue⟩ = some entry ∧
        link = mergedNodeIssueLink link.issue entry := by
  unfold mergeNodeIssueLinks
  simp only [List.mem_map, (List.perm_insertionSort _ _).mem_iff]
  constructor
  · rintro ⟨⟨⟨issue⟩, entry⟩, hentry, rfl⟩
    have hissue : (mergedNodeIssueLink issue entry).issue = issue := by
      unfold mergedNodeIssueLink
      split_ifs <;> rfl
    exact ⟨entry, by rw [hissue]; exact get?_eq_some.mpr hentry, by rw [hissue]⟩
  · rintro ⟨entry, hentry, hlink⟩
    exact ⟨(⟨link.issue⟩, entry), get?_eq_some.mp hentry, hlink.symm⟩

theorem mergedNodeIssueLink_issue (issue : Nat) (entry : MergedLink) :
    (mergedNodeIssueLink issue entry).issue = issue := by
  unfold mergedNodeIssueLink
  split_ifs <;> rfl

theorem mergedNodeIssueLink_weight (issue : Nat) (entry : MergedLink) :
    (mergedNodeIssueLink issue entry).weight = entry.weight := by
  obtain ⟨closes, downgraded⟩ := entry
  cases closes <;> cases downgraded <;> rfl

theorem normalized_mergeNodeIssueLinks :
    Normalized (mergeNodeIssueLinks current contribution) where
  ascending := by
    unfold mergeNodeIssueLinks
    dsimp only
    rw [List.pairwise_map]
    set entries := ((current ++ contribution).foldl mergeLink ∅).entries with hentries
    have hnodup : ((entries.insertionSort fun a b => a.1.key ≤ b.1.key).map (·.1)).Nodup :=
      ((List.perm_insertionSort _ entries).map (·.1)).nodup_iff.mpr
        ((current ++ contribution).foldl mergeLink ∅).nodup
    have hsorted := List.pairwise_insertionSort
      (fun a b : MapKey Nat × MergedLink => a.1.key ≤ b.1.key) entries
    refine (hsorted.and (List.pairwise_map.mp hnodup)).imp ?_
    rintro ⟨⟨issue⟩, entry⟩ ⟨⟨issue'⟩, entry'⟩ ⟨hle, hne⟩
    rw [mergedNodeIssueLink_issue, mergedNodeIssueLink_issue]
    exact lt_of_le_of_ne hle fun heq => hne (congrArg MapKey.mk heq)
  downgraded link hlink := by
    obtain ⟨entry, -, hmerged⟩ := (mem_mergeNodeIssueLinks current contribution).mp hlink
    rw [hmerged]
    unfold mergedNodeIssueLink
    split_ifs with hdowngraded
    · exact fun _ => rfl
    · exact False.elim
    · exact False.elim

/-- **A merge takes the higher verdict.** -/
theorem weightAt_mergeNodeIssueLinks (issue : Nat) :
    weightAt (mergeNodeIssueLinks current contribution) issue
      = max (weightAt current issue) (weightAt contribution issue) := by
  have hentry := entryWeight_foldl_mergeLink (current ++ contribution) ∅ issue
  rw [weightAt_append, show entryWeight ((∅ : JsMap Nat MergedLink).get? ⟨issue⟩) = 0 from rfl,
    Nat.zero_max] at hentry
  rw [← hentry]
  have hnormalized := normalized_mergeNodeIssueLinks current contribution
  cases hget : ((current ++ contribution).foldl mergeLink ∅).get? ⟨issue⟩ with
  | none =>
    by_contra hne
    obtain ⟨link, hlink, rfl, -⟩ := exists_of_weightAt_pos (Nat.pos_of_ne_zero hne)
    obtain ⟨entry, hsome, -⟩ := (mem_mergeNodeIssueLinks current contribution).mp hlink
    rw [hget] at hsome
    exact nomatch hsome
  | some entry =>
    have hmem : mergedNodeIssueLink issue entry ∈ mergeNodeIssueLinks current contribution := by
      rw [mem_mergeNodeIssueLinks, mergedNodeIssueLink_issue]
      exact ⟨entry, hget, rfl⟩
    have hweight := hnormalized.weightAt_of_mem hmem
    rw [mergedNodeIssueLink_issue, mergedNodeIssueLink_weight] at hweight
    exact hweight

end Merge

theorem mergeNodeIssueLinks_comm (a b : List NodeIssueLink) :
    mergeNodeIssueLinks a b = mergeNodeIssueLinks b a :=
  (normalized_mergeNodeIssueLinks a b).ext (normalized_mergeNodeIssueLinks b a) fun issue => by
    rw [weightAt_mergeNodeIssueLinks, weightAt_mergeNodeIssueLinks, max_comm]

theorem mergeNodeIssueLinks_assoc (a b c : List NodeIssueLink) :
    mergeNodeIssueLinks (mergeNodeIssueLinks a b) c
      = mergeNodeIssueLinks a (mergeNodeIssueLinks b c) :=
  (normalized_mergeNodeIssueLinks _ c).ext (normalized_mergeNodeIssueLinks a _) fun issue => by
    simp only [weightAt_mergeNodeIssueLinks, max_assoc]

theorem mergeNodeIssueLinks_self {a : List NodeIssueLink} (h : Normalized a) :
    mergeNodeIssueLinks a a = a :=
  (normalized_mergeNodeIssueLinks a a).ext h fun issue => by
    rw [weightAt_mergeNodeIssueLinks, max_self]

/-! ## 4. The union of a log -/

/-- `node.issue-links-recorded` -/
def recorded? : EventBody → Option (String × List NodeIssueLink)
  | .node (.issueLinksRecorded build issueLinks) => some (build, issueLinks)
  | _ => none

/-- The recorded builds and the union. -/
structure IssueUnion where
  builds : List String
  links : List NodeIssueLink

def NodeFacts.issueUnion (facts : NodeFacts) : IssueUnion :=
  ⟨(facts.nodeIssueLinks.getD {}).builds, (facts.nodeIssueLinks.getD {}).links⟩

def IssueUnion.record (union : IssueUnion) (fact : String × List NodeIssueLink) : IssueUnion where
  builds := if fact.1 ∈ union.builds then union.builds
    else JsText.sortOn id (union.builds ++ [fact.1])
  links := mergeNodeIssueLinks union.links fact.2

def IssueUnion.note (union : IssueUnion) (body : EventBody) : IssueUnion :=
  ((recorded? body).map union.record).getD union

theorem foldFacts_issueUnion (acc : BuildAcc) (event : AbEvent) :
    (foldFacts acc event).issueUnion = acc.issueUnion.note event.body := by
  cases hon : onNode event.body with
  | false =>
    have hnote : acc.issueUnion.note event.body = acc.issueUnion := by
      generalize event.body = body at hon
      cases body with
      | node body => cases hon
      | _ => rfl
    rw [hnote]
    exact congrArg NodeFacts.issueUnion (foldFacts_nodeFacts acc hon)
  | true =>
    obtain ⟨seq, ts, actor, body⟩ := event
    cases body with
    | build body => cases body <;> rfl
    | node body =>
      cases body with
      | parentAccepted payload =>
        by_cases h : acc.kind = some .node <;>
          simp [foldFacts, foldNodeEvent, acceptNodeParent, NodeFacts.issueUnion, IssueUnion.note,
            recorded?, h]
      | _ => rfl
    | _ => cases hon

theorem foldActivity_issueUnion (acc : BuildAcc) (event : AbEvent) :
    (foldActivity acc event).issueUnion = acc.issueUnion := by
  obtain ⟨seq, ts, actor, body⟩ := event
  cases body with
  | build body => cases body <;> rfl
  | target body => cases body <;> rfl
  | node body => cases body <;> rfl
  | _ => rfl

/-- **Only a contribution moves the union.** -/
theorem foldEvent_issueUnion {acc next : BuildAcc} {event : AbEvent}
    (h : foldEvent acc event = .ok next) :
    next.issueUnion = acc.issueUnion.note event.body := by
  unfold foldEvent at h
  obtain ⟨nodeRestack, -, h⟩ := bind_eq_ok.mp h
  rw [← Except.ok.inj h]
  refine (foldFacts_issueUnion _ event).trans ?_
  refine congrArg (IssueUnion.note · event.body) ?_
  exact (congrArg NodeFacts.issueUnion (foldSuperseded_nodeFacts _ event.body)).trans
    (foldActivity_issueUnion acc event)

/-- The contributions of a log, in order. -/
def contributions (events : List AbEvent) : List (String × List NodeIssueLink) :=
  events.filterMap fun event => recorded? event.body

theorem foldlM_foldEvent_issueUnion {events : List AbEvent} {acc next : BuildAcc}
    (h : events.foldlM foldEvent acc = .ok next) :
    next.issueUnion = (contributions events).foldl IssueUnion.record acc.issueUnion := by
  have hnoted : next.issueUnion =
      events.foldl (fun union event => union.note event.body) acc.issueUnion :=
    @foldlM_part _ _ _ _ foldEvent (fun acc => acc.issueUnion) _ foldEvent_issueUnion _ _ _ h
  rw [hnoted, contributions, List.foldl_filterMap]
  refine congrArg (fun note => events.foldl note acc.issueUnion) (funext₂ fun union event => ?_)
  unfold IssueUnion.note
  cases recorded? event.body <;> rfl

/-! ## 5. The union of a set of contributions -/

/-- What the union of contributions is: it depends on which there are. -/
structure UnionOf (facts : List (String × List NodeIssueLink)) (union : IssueUnion) : Prop where
  sorted : union.builds.Pairwise (JsText.LeOn id)
  nodup : union.builds.Nodup
  mem_builds : ∀ build, build ∈ union.builds ↔ ∃ fact ∈ facts, fact.1 = build
  normalized : Normalized union.links
  weight : ∀ issue, weightAt union.links issue = weightAt (facts.flatMap (·.2)) issue

theorem UnionOf.record {facts : List (String × List NodeIssueLink)} {union : IssueUnion}
    (h : UnionOf facts union) (fact : String × List NodeIssueLink) :
    UnionOf (facts ++ [fact]) (union.record fact) := by
  have hbuilds : ∀ build, build ∈ (union.record fact).builds ↔
      build ∈ union.builds ∨ build = fact.1 := by
    intro build
    unfold IssueUnion.record
    dsimp only
    split_ifs with hmem
    · exact ⟨.inl, fun hb => hb.elim (fun hb => hb) fun hb => hb ▸ hmem⟩
    · simp
  refine ⟨?_, ?_, fun build => ?_, normalized_mergeNodeIssueLinks _ _, fun issue => ?_⟩
  · unfold IssueUnion.record
    dsimp only
    split_ifs
    · exact h.sorted
    · exact JsText.sortOn_pairwise id _
  · unfold IssueUnion.record
    dsimp only
    split_ifs with hmem
    · exact h.nodup
    · refine (JsText.sortOn_perm id _).nodup_iff.mpr ?_
      exact List.nodup_append_comm.mp (List.nodup_cons.mpr ⟨hmem, h.nodup⟩)
  · rw [hbuilds, h.mem_builds]
    simp [or_and_right, exists_or, eq_comm]
  · refine (weightAt_mergeNodeIssueLinks _ _ issue).trans ?_
    rw [h.weight, List.flatMap_append, weightAt_append, List.flatMap_singleton]

theorem unionOf_foldl (facts : List (String × List NodeIssueLink)) :
    UnionOf facts (facts.foldl IssueUnion.record ⟨[], []⟩) := by
  induction facts using List.reverseRecOn with
  | nil =>
    exact ⟨List.Pairwise.nil, List.nodup_nil, by simp, ⟨List.Pairwise.nil, by simp⟩, fun _ => rfl⟩
  | append_singleton facts fact ih =>
    rw [List.foldl_append]
    exact ih.record fact

/-- **The union of a set.** -/
theorem UnionOf.unique {facts facts' : List (String × List NodeIssueLink)}
    {union union' : IssueUnion} (h : UnionOf facts union) (h' : UnionOf facts' union')
    (hsame : ∀ fact, fact ∈ facts ↔ fact ∈ facts') : union = union' := by
  have hbuilds : union.builds = union'.builds := by
    have hperm : union.builds.Perm union'.builds :=
      (List.perm_ext_iff_of_nodup h.nodup h'.nodup).mpr fun build => by
        simp only [h.mem_builds, h'.mem_builds, hsame]
    exact hperm.eq_of_pairwise (fun a b _ _ hab hba => JsText.Le.antisymm hab hba) h.sorted
      h'.sorted
  have hlinks : union.links = union'.links := by
    refine h.normalized.ext h'.normalized fun issue => ?_
    rw [h.weight, h'.weight]
    have hmem : ∀ link, link ∈ facts.flatMap (·.2) ↔ link ∈ facts'.flatMap (·.2) := by
      intro link
      simp only [List.mem_flatMap, hsame]
    exact le_antisymm (weightAt_le (fun link => (hmem link).mp) issue)
      (weightAt_le (fun link => (hmem link).mpr) issue)
  obtain ⟨builds, links⟩ := union
  obtain ⟨builds', links'⟩ := union'
  cases hbuilds
  cases hlinks
  rfl

theorem reduceBuild_issueUnion {events : List StoredEvent} {state : BuildState}
    (h : reduceBuild events = .ok state) :
    UnionOf (contributions (projectEvents events)) state.issueUnion := by
  unfold reduceBuild foldBuild at h
  obtain ⟨acc, hacc, h⟩ := bind_eq_ok.mp h
  obtain ⟨raw, hraw, hset⟩ := bind_eq_ok.mp hacc
  rw [foldEvents_initial] at hraw
  have hunion : state.issueUnion = raw.issueUnion := by
    rw [← Except.ok.inj h, ← Except.ok.inj hset, settle_eq]
    rfl
  rw [hunion, foldlM_foldEvent_issueUnion hraw]
  exact unionOf_foldl _

/-- **The union of issue links**: a merge is commutative, associative and idempotent, and two logs
with the same contributions, in any order, repeated and between any other events, have the same
union and the same recorded builds. -/
theorem nodeIssueLinks_union_insensitive :
    (∀ a b, Normalized a → Normalized b → mergeNodeIssueLinks a b = mergeNodeIssueLinks b a)
      ∧ (∀ a b c, Normalized a → Normalized b → Normalized c →
        mergeNodeIssueLinks (mergeNodeIssueLinks a b) c
          = mergeNodeIssueLinks a (mergeNodeIssueLinks b c))
      ∧ (∀ a, Normalized a → mergeNodeIssueLinks a a = a)
      ∧ ∀ events events' state state', reduceBuild events = .ok state →
        reduceBuild events' = .ok state' →
        (∀ fact, fact ∈ contributions (projectEvents events)
          ↔ fact ∈ contributions (projectEvents events')) →
        state.issueUnion = state'.issueUnion :=
  ⟨fun a b _ _ => mergeNodeIssueLinks_comm a b, fun a b c _ _ _ => mergeNodeIssueLinks_assoc a b c,
    fun _ => mergeNodeIssueLinks_self, fun _ _ _ _ h h' hsame =>
      (reduceBuild_issueUnion h).unique (reduceBuild_issueUnion h') hsame⟩

/-- One build closes an issue, one only references it, one downgraded it. -/
example :
    mergeNodeIssueLinks (mergeNodeIssueLinks [⟨7, .closes, false⟩] [⟨7, .refs, true⟩])
      [⟨3, .refs, false⟩] = [⟨3, .refs, false⟩, ⟨7, .refs, true⟩] := by
  decide

end Autobuild
