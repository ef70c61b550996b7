/-
# The docket of a build

Commands, escalations and verify results are the part of the accumulator that operators and
verifiers write to.  Few events are about it (`onDocket`); every other event leaves it as it is
but for the verify stage, which moves on with each event (`foldEvent_docket`).
-/
import Autobuild.Kernel.Incremental
import Mathlib.Data.List.Induction

namespace Autobuild

open Checked

structure Docket where
  stage : VerifyStageState
  results : List VerifyResult
  openEscalations : List OpenEscalation
  answeredEscalations : List AnsweredEscalation
  pending : PendingCommands
  pausedFlag : Bool
  terminal : Option Terminal

def BuildAcc.docket (acc : BuildAcc) : Docket where
  stage := acc.verifyStage
  results := acc.verify.results
  openEscalations := acc.openEscalations
  answeredEscalations := acc.answeredEscalations
  pending := acc.pending
  pausedFlag := acc.pausedFlag
  terminal := acc.terminal

/-- The events about the docket, beside the cancellations of members. -/
def onDocket : EventBody → Bool
  | .build (.completed _) => true
  | .build (.pauseRequested _) => true
  | .build (.resumeRequested _) => true
  | .build (.abortRequested _) => true
  | .build .paused => true
  | .build .resumed => true
  | .build .aborted => true
  | .verify (.completed _) => true
  | .escalationRaised _ => true
  | .escalationAnswered _ => true
  | .phase (.deferralEscalated _) => true
  | _ => false

/-! ## 1. The families that are not about it -/

section Families

variable (acc : BuildAcc)

theorem foldSessionEvent_docket (seq ts : Nat) (body : SessionEvent) :
    (foldSessionEvent acc seq ts body).docket = acc.docket := by
  obtain ⟨sessions, h⟩ := foldSessionEvent_eq acc seq ts body
  rw [h]
  rfl

theorem rewriteCommits_docket (base head : String) :
    (rewriteCommits acc base head).docket = acc.docket := by
  unfold rewriteCommits
  split <;> rfl

theorem foldRestackEvent_docket (body : RestackEvent) :
    (foldRestackEvent acc body).docket = acc.docket := by
  cases body with
  | rewritten payload => exact rewriteCommits_docket acc _ _
  | completed payload => exact rewriteCommits_docket acc _ _
  | _ => rfl

theorem foldReconcileEvent_docket (seq : Nat) (body : ReconcileEvent) :
    (foldReconcileEvent acc seq body).docket = acc.docket := by
  cases body with
  | rewritten payload => exact rewriteCommits_docket acc _ _
  | completed payload =>
    unfold foldReconcileEvent foldReconcileCompleted
    cases payload with
    | merge mergeCommit artifact => rfl
    | rewrite headSha rewriteId artifact =>
      dsimp only
      split <;> rfl
  | _ => rfl

theorem foldCodeReviewEvent_docket (seq : Nat) (body : ReviewEvent) :
    (foldCodeReviewEvent acc seq body).docket = acc.docket := by
  cases body with
  | started round => rfl
  | verdict payload =>
    unfold foldCodeReviewEvent
    dsimp only
    split <;> rfl

theorem foldVerifyEvent_docket (seq : Nat) {body : VerifyEvent}
    (h : onDocket (.verify body) = false) : (foldVerifyEvent acc seq body).docket = acc.docket := by
  cases body with
  | completed payload => exact absurd h nofun
  | cancelled payload =>
    unfold foldVerifyEvent foldVerifyCancelled
    dsimp only
    split <;> rfl
  | _ => rfl

theorem downgradeIssueLink_docket (seq issue : Nat) (reason : String) :
    (downgradeIssueLink acc seq issue reason).docket = acc.docket := by
  unfold downgradeIssueLink
  split <;> rfl

theorem foldNodeEvent_docket (seq ts : Nat) (body : NodeEvent) :
    (foldNodeEvent acc seq ts body).docket = acc.docket := by
  cases body with
  | parentAccepted payload =>
    unfold foldNodeEvent acceptNodeParent
    dsimp only
    split <;> rfl
  | _ => rfl

/-! ## 2. One event -/

theorem foldFacts_docket {event : AbEvent} (h : onDocket event.body = false) :
    (foldFacts acc event).docket = acc.docket := by
  obtain ⟨seq, ts, actor, body⟩ := event
  cases body with
  | build body => cases body <;> first | rfl | exact absurd h nofun
  | node body => exact foldNodeEvent_docket acc seq ts body
  | integration body => cases body <;> rfl
  | pr body => cases body <;> rfl
  | runner body => cases body <;> rfl
  | execution body => cases body <;> rfl
  | infrastructure body => cases body <;> rfl
  | publication body =>
    cases body with
    | requested operation => cases operation <;> rfl
    | _ => rfl
  | spec body => cases body <;> rfl
  | session body => exact foldSessionEvent_docket acc seq ts body
  | plan body => cases body <;> rfl
  | planReview body => cases body <;> rfl
  | implement body => cases body <;> rfl
  | codeReview body => exact foldCodeReviewEvent_docket acc seq body
  | verify body => exact foldVerifyEvent_docket acc seq h
  | finalize body => cases body <;> rfl
  | restack body => exact foldRestackEvent_docket acc body
  | reconcile body => exact foldReconcileEvent_docket acc seq body
  | issueLinkDowngraded issue reason => exact downgradeIssueLink_docket acc seq issue reason
  | escalationRaised payload => exact absurd h nofun
  | escalationAnswered payload => exact absurd h nofun
  | phase body => cases body <;> first | rfl | exact absurd h nofun
  | plain body => cases body <;> rfl
  | _ => rfl

theorem foldJanitor_docket (body : EventBody) : (foldJanitor acc body).docket = acc.docket := by
  cases body with
  | build body => cases body <;> rfl
  | _ => rfl

theorem foldTargetRewrite_docket (event : AbEvent) :
    (foldTargetRewrite acc event).docket = acc.docket := by
  obtain ⟨seq, ts, actor, body⟩ := event
  cases body with
  | target body => cases body <;> rfl
  | node body => cases body <;> rfl
  | _ => rfl

theorem foldIntegration_docket (event : AbEvent) :
    (foldIntegration acc event).docket = acc.docket := by
  obtain ⟨seq, ts, actor, body⟩ := event
  cases body <;> rfl

theorem foldActivity_docket (event : AbEvent) : (foldActivity acc event).docket = acc.docket := by
  unfold foldActivity
  rw [foldIntegration_docket]
  exact (foldTargetRewrite_docket _ event).trans (foldJanitor_docket _ event.body)

end Families

/-- An event moves the stage on, sweeps if it cancels a member, and is folded. -/
theorem foldEvent_docket {acc next : BuildAcc} {event : AbEvent}
    (h : foldEvent acc event = .ok next) :
    ∃ staged : BuildAcc,
      staged.docket = { acc.docket with stage := advanceVerifyStage acc.verifyStage event } ∧
      next.docket = (foldFacts (foldSuperseded staged event.body) event).docket := by
  unfold foldEvent at h
  obtain ⟨nodeRestack, -, h⟩ := bind_eq_ok.mp h
  have ha := foldActivity_docket acc event
  refine ⟨{ foldActivity acc event with
    nodeRestack := nodeRestack
    verifyStage := advanceVerifyStage (foldActivity acc event).verifyStage event }, ?_, ?_⟩
  · have hs : (foldActivity acc event).verifyStage = acc.verifyStage :=
      congrArg Docket.stage ha
    rw [← ha, ← hs]
    rfl
  · rw [← Except.ok.inj h]
    rfl

theorem foldSuperseded_of_not_cancelled (acc : BuildAcc) {body : EventBody}
    (h : ∀ payload, body ≠ .verify (.cancelled payload)) : foldSuperseded acc body = acc := by
  unfold foldSuperseded
  split
  · rename_i payload
    exact absurd rfl (h payload)
  · rfl

/-! ## 3. Logs -/

/-- What holds of the docket of every log whose seqs increase, by induction along the log. -/
theorem docket_induction {Inv : List AbEvent → Docket → Prop}
    (hinit : Inv [] initialBuildAcc.docket)
    (hstep : ∀ events event acc next, (∀ e ∈ events, e.seq < event.seq) →
      Inv events acc.docket → foldEvent acc event = .ok next →
        Inv (events ++ [event]) next.docket) :
    ∀ {events : List AbEvent} {acc next : BuildAcc},
      events.Pairwise (fun a b => a.seq < b.seq) → acc.docket = initialBuildAcc.docket →
      events.foldlM foldEvent acc = .ok next → Inv events next.docket := by
  intro events
  induction events using List.reverseRecOn with
  | nil =>
    intro acc next _ hacc h
    rw [← Except.ok.inj h, hacc]
    exact hinit
  | append_singleton events event ih =>
    intro acc next hp hacc h
    obtain ⟨hp, -, hlast⟩ := List.pairwise_append.mp hp
    rw [List.foldlM_append] at h
    obtain ⟨middle, hm, h⟩ := bind_eq_ok.mp h
    rw [List.foldlM_cons] at h
    obtain ⟨last, hl, h⟩ := bind_eq_ok.mp h
    rw [← Except.ok.inj h]
    exact hstep events event middle last (fun e he => hlast e he event List.mem_cons_self)
      (ih hp hacc hm) hl

theorem drainBatch_docket (events : List StoredEvent) :
    (initialBuildAcc.withAside (drainBatch initialBuildAcc.aside events)).docket
      = initialBuildAcc.docket := rfl

/-- **The docket of a reduced log**, with what the state shows of it. -/
theorem reduceBuild_docket {events : List StoredEvent} {state : BuildState}
    (h : reduceBuild events = .ok state) :
    ∃ acc next, acc.docket = initialBuildAcc.docket ∧
      (projectEvents events).foldlM foldEvent acc = .ok next ∧
      state.verifyStage = next.verifyStage ∧ state.verify.results = next.verify.results ∧
      state.openEscalations = next.openEscalations ∧
      state.answeredEscalations = next.answeredEscalations ∧
      state.status = buildStatus next ∧
      state.pendingCommands = (next.pending.pause ++ next.pending.resume
        ++ next.pending.abort).insertionSort (fun a b => a.seq ≤ b.seq) := by
  unfold reduceBuild foldBuild at h
  obtain ⟨acc, hacc, h⟩ := bind_eq_ok.mp h
  obtain ⟨raw, hraw, hset⟩ := bind_eq_ok.mp hacc
  rw [foldEvents_initial] at hraw
  refine ⟨_, raw, drainBatch_docket events, hraw, ?_⟩
  rw [← Except.ok.inj h, ← Except.ok.inj hset, settle_eq]
  exact ⟨rfl, rfl, rfl, rfl, rfl, rfl⟩

end Autobuild
