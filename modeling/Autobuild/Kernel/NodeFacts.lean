/-
# What only a few events say of a node

The facts of a node (its target, its ledger, its issue links) are written by its own events, by the
creation, and before the switch over the types.  Every other event leaves them alone
(`foldFacts_nodeFacts`).
-/
import Autobuild.Kernel.ReducerFrame

namespace Autobuild

/-- The events that the switch over the types hands to the facts of a node. -/
def onNode : EventBody → Bool
  | .build (.created _) => true
  | .node _ => true
  | _ => false

section Families

variable (acc : BuildAcc)

theorem foldSessionEvent_nodeFacts (seq ts : Nat) (body : SessionEvent) :
    (foldSessionEvent acc seq ts body).toNodeFacts = acc.toNodeFacts := by
  obtain ⟨sessions, h⟩ := foldSessionEvent_eq acc seq ts body
  rw [h]

theorem rewriteCommits_nodeFacts (base head : String) :
    (rewriteCommits acc base head).toNodeFacts = acc.toNodeFacts := by
  unfold rewriteCommits
  split <;> rfl

theorem foldReconcileEvent_nodeFacts (seq : Nat) (body : ReconcileEvent) :
    (foldReconcileEvent acc seq body).toNodeFacts = acc.toNodeFacts := by
  cases body with
  | rewritten payload => exact rewriteCommits_nodeFacts acc _ _
  | completed payload =>
    unfold foldReconcileEvent foldReconcileCompleted
    cases payload with
    | merge mergeCommit artifact => rfl
    | rewrite headSha rewriteId artifact =>
      dsimp only
      split <;> rfl
  | _ => rfl

theorem foldVerifyEvent_nodeFacts (seq : Nat) (body : VerifyEvent) :
    (foldVerifyEvent acc seq body).toNodeFacts = acc.toNodeFacts := by
  cases body with
  | completed payload =>
    unfold foldVerifyEvent foldVerifyCompleted
    dsimp only
    split <;> rfl
  | cancelled payload =>
    unfold foldVerifyEvent foldVerifyCancelled
    dsimp only
    split <;> rfl
  | _ => rfl

theorem foldFacts_nodeFacts {event : AbEvent} (h : onNode event.body = false) :
    (foldFacts acc event).toNodeFacts = acc.toNodeFacts := by
  obtain ⟨seq, ts, actor, body⟩ := event
  cases body with
  | build body => cases body <;> first | rfl | cases h
  | node body => cases h
  | integration body => cases body <;> rfl
  | pr body => cases body <;> rfl
  | runner body => cases body <;> rfl
  | execution body => cases body <;> rfl
  | infrastructure body => cases body <;> rfl
  | publication body =>
    cases body with
    | requested operation => cases operation <;> rfl
    | _ => rfl
  | spec body => cases body <;> rfl
  | session body => exact foldSessionEvent_nodeFacts acc seq ts body
  | plan body => cases body <;> rfl
  | planReview body => cases body <;> rfl
  | implement body => cases body <;> rfl
  | codeReview body =>
    cases body with
    | started round => rfl
    | verdict payload =>
      unfold foldFacts foldCodeReviewEvent
      dsimp only
      split <;> rfl
  | verify body => exact foldVerifyEvent_nodeFacts acc seq body
  | finalize body => cases body <;> rfl
  | restack body =>
    cases body with
    | rewritten payload => exact rewriteCommits_nodeFacts acc _ _
    | completed payload => exact rewriteCommits_nodeFacts acc _ _
    | _ => rfl
  | reconcile body => exact foldReconcileEvent_nodeFacts acc seq body
  | issueLinkDowngraded issue reason =>
    unfold foldFacts downgradeIssueLink
    dsimp only
    split <;> rfl
  | escalationRaised payload =>
    unfold foldFacts foldEscalationRaised
    dsimp only
    split <;> rfl
  | escalationAnswered payload =>
    unfold foldFacts foldEscalationAnswered
    dsimp only
    split <;> rfl
  | phase body => cases body <;> rfl
  | plain body => cases body <;> rfl
  | _ => rfl

theorem supersedeOne_nodeFacts (escalation : AnyEscalation) :
    (supersedeOne acc escalation).toNodeFacts = acc.toNodeFacts := by
  unfold supersedeOne
  split <;> rfl

theorem foldSuperseded_nodeFacts (body : EventBody) :
    (foldSuperseded acc body).toNodeFacts = acc.toNodeFacts :=
  foldSuperseded_keeps (P := fun next => next.toNodeFacts = acc.toNodeFacts)
    (fun next escalation h => (supersedeOne_nodeFacts next escalation).trans h) body rfl

end Families

end Autobuild
