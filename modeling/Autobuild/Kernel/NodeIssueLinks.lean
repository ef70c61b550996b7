/-
# A node's issue-link union

Each landed child records its contribution once; the node's reducer merges it into the union.
A downgrade by any contributor makes an issue `refs`; otherwise any `closes` makes it
`closes`.
-/
import Autobuild.Events.Catalog
import Mathlib.Data.List.Sort

namespace Autobuild

structure PublishedIssueLinks where
  pr : Nat
  issueLinks : List IssueLink
  seq : Nat
  deriving DecidableEq

structure NodeIssueLinksState where
  builds : List String := []
  links : List NodeIssueLink := []
  published : Option PublishedIssueLinks := none
  deriving DecidableEq

/-- `{ closes, downgraded }` of one issue. -/
structure MergedLink where
  closes : Bool
  downgraded : Bool
  deriving DecidableEq

def mergeLink (merged : JsMap Nat MergedLink) (link : NodeIssueLink) : JsMap Nat MergedLink :=
  let entry := (merged.get? ⟨link.issue⟩).getD ⟨false, false⟩
  merged.set ⟨link.issue⟩
    ⟨entry.closes || decide (link.intent = .closes), entry.downgraded || link.downgraded⟩

def mergedNodeIssueLink (issue : Nat) (entry : MergedLink) : NodeIssueLink :=
  if entry.downgraded then ⟨issue, .refs, true⟩
  else ⟨issue, if entry.closes then .closes else .refs, false⟩

/-- Merge a contribution into a union, per issue, sorted ascending by issue. -/
def mergeNodeIssueLinks (current contribution : List NodeIssueLink) : List NodeIssueLink :=
  let merged := (current ++ contribution).foldl mergeLink ∅
  let sorted := merged.entries.insertionSort (fun a b => a.1.key ≤ b.1.key)
  sorted.map (fun entry => mergedNodeIssueLink entry.1.key entry.2)

/-- `node.issue-links-recorded`: a repeated fact merges the same links again. -/
def recordIssueLinks (state : NodeIssueLinksState) (build : String)
    (issueLinks : List NodeIssueLink) : NodeIssueLinksState :=
  { state with
    builds := if build ∈ state.builds then state.builds
      else JsText.sortOn id (state.builds ++ [build])
    links := mergeNodeIssueLinks state.links issueLinks }

end Autobuild
