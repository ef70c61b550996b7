/-
# What an event leaves alone

The loop over a batch passes two parts of the accumulator through: the draining executions,
which it neither reads nor writes, and the cursor (current phase, current verify step, running
members), which it writes by a rule of its own.

* `Aside` is that part; `foldEvent_withAside`: exchanging it before an event exchanges it after
  the event, moved on by `advanceAside`.
* the one place where the rest of the accumulator depends on it is the attempt that a
  `reconcile.completed` takes from the reconcile in flight (`reconcileAttempt`).
-/
import Autobuild.Kernel.Reducer

namespace Autobuild

/-! ## 1. The cursor of a log -/

/-- The phase occurrence an event announces. -/
def announcedPhase (event : AbEvent) : Option PhaseContext :=
  match event.body with
  | .plan (.started payload) => some (roundContext .plan payload.round event.seq)
  | .planReview (.started round) => some (roundContext .planReview round event.seq)
  | .implement (.started payload) => some (roundContext .implement payload.round event.seq)
  | .codeReview (.started round) => some (roundContext .codeReview round event.seq)
  | .verify (.started payload) =>
    some (attemptContext (verifyPhase payload.step) payload.attempt event.seq)
  | .finalize .started => some ⟨.core .finalize, none, none, event.seq⟩
  | .reconcile (.started payload) =>
    some (attemptContext (.core .reconcile) payload.attempt event.seq)
  | _ => none

/-- The phase an event ends.  Whether a verify completion or cancellation counts is decided by
the verify stage. -/
def endedPhase (stage : VerifyStageState) (event : AbEvent) : Option Phase :=
  match event.body with
  | .plan (.completed _) => some (.core .plan)
  | .planReview (.verdict _) => some (.core .planReview)
  | .implement (.completed _) => some (.core .implement)
  | .codeReview (.verdict _) => some (.core .codeReview)
  | .verify (.completed payload) =>
    let result := normalizeVerifyCompletion payload
    if stage.hasCancellation (verifyMemberKey result.step result.attempt) then none
    else some (verifyPhase result.step)
  | .verify (.cancelled payload) =>
    let cancellation := stage.cancellations.get? (verifyMemberKey payload.step payload.attempt)
    if cancellation.map (·.seq) = some event.seq then some (verifyPhase payload.step) else none
  | .finalize (.completed _) => some (.core .finalize)
  | .reconcile (.completed _) => some (.core .reconcile)
  | _ => none

/-- The phase in flight after an event. -/
def advancePhase (stage : VerifyStageState) (event : AbEvent) (current : Option PhaseContext) :
    Option PhaseContext :=
  match announcedPhase event, endedPhase stage event with
  | some ctx, _ => some ctx
  | none, some phase => current.filter (fun ctx => ctx.phase ≠ phase)
  | none, none => current

/-- The verify step in flight after an event. -/
def advanceStep (stage : VerifyStageState) (event : AbEvent) (current : Option String) :
    Option String :=
  match event.body with
  | .verify (.started payload) => some payload.step
  | .verify (.completed payload) =>
    let result := normalizeVerifyCompletion payload
    if stage.hasCancellation (verifyMemberKey result.step result.attempt) then current
    else current.filter (fun step => step ≠ result.step)
  | _ => current

/-! ## 2. The part set aside -/

/-- What a batch passes through: the drains and the cursor. -/
structure Aside extends DrainFacts where
  endedExecutionInstances : ObjectMap String Unit
  currentPhase : Option PhaseContext
  currentStep : Option String
  running : Option (List String)

def BuildAcc.aside (acc : BuildAcc) : Aside where
  toDrainFacts := acc.toDrainFacts
  endedExecutionInstances := acc.endedExecutionInstances
  currentPhase := acc.currentPhase
  currentStep := acc.verify.currentStep
  running := acc.verify.running

def BuildAcc.withAside (acc : BuildAcc) (aside : Aside) : BuildAcc :=
  { acc with
    toDrainFacts := aside.toDrainFacts
    endedExecutionInstances := aside.endedExecutionInstances
    currentPhase := aside.currentPhase
    verify := { acc.verify with currentStep := aside.currentStep, running := aside.running } }

def advanceAside (stage : VerifyStageState) (event : AbEvent) (aside : Aside) : Aside :=
  { aside with
    currentPhase := advancePhase stage event aside.currentPhase
    currentStep := advanceStep stage event aside.currentStep }

@[simp] theorem withAside_aside (acc : BuildAcc) : acc.withAside acc.aside = acc := rfl

@[simp] theorem aside_withAside (acc : BuildAcc) (aside : Aside) :
    (acc.withAside aside).aside = aside := rfl

@[simp] theorem withAside_withAside (acc : BuildAcc) (a b : Aside) :
    (acc.withAside a).withAside b = acc.withAside b := rfl

@[simp] theorem verifyStage_withAside (acc : BuildAcc) (a : Aside) :
    (acc.withAside a).verifyStage = acc.verifyStage := rfl

/-! ## 3. Each family passes it through -/

section Families

variable (acc : BuildAcc) (a : Aside)

theorem foldSessionStarted_withAside (seq ts : Nat) (payload : SessionStarted) :
    foldSessionStarted (acc.withAside a) seq ts payload
      = (foldSessionStarted acc seq ts payload).withAside a := by
  unfold foldSessionStarted
  cases payload.continuation <;> rfl

theorem foldHandleRecorded_withAside (payload : SessionHandleRecorded) :
    foldHandleRecorded (acc.withAside a) payload
      = (foldHandleRecorded acc payload).withAside a := by
  unfold foldHandleRecorded
  have h : openSession? (acc.withAside a) payload.session = openSession? acc payload.session := rfl
  rw [h]
  cases openSession? acc payload.session with
  | none => rfl
  | some opened =>
    dsimp only
    split <;> rfl

theorem foldSessionSuspended_withAside (payload : SessionSuspended) :
    foldSessionSuspended (acc.withAside a) payload
      = (foldSessionSuspended acc payload).withAside a := by
  unfold foldSessionSuspended
  have h : openSession? (acc.withAside a) payload.session = openSession? acc payload.session := rfl
  have hl : (acc.withAside a).lastCompletedPhase = acc.lastCompletedPhase := rfl
  rw [h, hl]
  cases openSession? acc payload.session with
  | none => rfl
  | some opened =>
    dsimp only
    split <;> rfl

theorem foldResumeFallback_withAside (payload : SessionResumeFallback) :
    foldResumeFallback (acc.withAside a) payload
      = (foldResumeFallback acc payload).withAside a := by
  unfold foldResumeFallback
  have h : openSession? (acc.withAside a) payload.session = openSession? acc payload.session := rfl
  split
  · rfl
  · unfold openSession? at *
    dsimp only
    rw [h]
    split <;> rfl

theorem foldSessionResumed_withAside (payload : SessionResumed) :
    foldSessionResumed (acc.withAside a) payload
      = (foldSessionResumed acc payload).withAside a := by
  unfold foldSessionResumed
  have h : openSession? (acc.withAside a) payload.session = openSession? acc payload.session := rfl
  rw [h]
  cases openSession? acc payload.session with
  | none => rfl
  | some opened =>
    dsimp only
    split <;> rfl

theorem foldSessionEnded_withAside (ts : Nat) (payload : SessionEnded) :
    foldSessionEnded (acc.withAside a) ts payload
      = (foldSessionEnded acc ts payload).withAside a := by
  unfold foldSessionEnded
  have h : openSession? (acc.withAside a) payload.session = openSession? acc payload.session := rfl
  rw [h]
  cases openSession? acc payload.session with
  | none => rfl
  | some opened => cases payload <;> rfl

theorem foldSessionEvent_withAside (seq ts : Nat) (body : SessionEvent) :
    foldSessionEvent (acc.withAside a) seq ts body
      = (foldSessionEvent acc seq ts body).withAside a := by
  cases body with
  | started payload => exact foldSessionStarted_withAside acc a seq ts payload
  | nativeHandleRecorded payload => exact foldHandleRecorded_withAside acc a payload
  | suspended payload => exact foldSessionSuspended_withAside acc a payload
  | resumeFallback payload => exact foldResumeFallback_withAside acc a payload
  | resumed payload => exact foldSessionResumed_withAside acc a payload
  | ended payload => exact foldSessionEnded_withAside acc a ts payload
  | buildReadFailed payload => rfl
  | buildReadRecovered payload => rfl

theorem foldNodeEvent_withAside (seq ts : Nat) (body : NodeEvent) :
    foldNodeEvent (acc.withAside a) seq ts body
      = (foldNodeEvent acc seq ts body).withAside a := by
  cases body with
  | parentAccepted payload =>
    unfold foldNodeEvent acceptNodeParent
    have h : (acc.withAside a).kind = acc.kind := rfl
    dsimp only
    rw [h]
    split <;> rfl
  | _ => rfl

theorem foldBuildEvent_withAside (seq : Nat) (actor : Actor) (body : BuildEvent) :
    foldBuildEvent (acc.withAside a) seq actor body
      = (foldBuildEvent acc seq actor body).withAside a := by
  cases body <;> rfl

theorem downgradeIssueLink_withAside (seq issue : Nat) (reason : String) :
    downgradeIssueLink (acc.withAside a) seq issue reason
      = (downgradeIssueLink acc seq issue reason).withAside a := by
  unfold downgradeIssueLink
  have h : (acc.withAside a).issueLinksSealedSeq = acc.issueLinksSealedSeq := rfl
  rw [h]
  split <;> rfl

theorem foldEscalationRaised_withAside (seq : Nat) (actor : Actor) (payload : EscalationRaised) :
    foldEscalationRaised (acc.withAside a) seq actor payload
      = (foldEscalationRaised acc seq actor payload).withAside a := by
  unfold foldEscalationRaised
  dsimp only [verifyStage_withAside]
  split <;> rfl

theorem foldEscalationAnswered_withAside (seq : Nat) (actor : Actor)
    (payload : EscalationAnswered) :
    foldEscalationAnswered (acc.withAside a) seq actor payload
      = (foldEscalationAnswered acc seq actor payload).withAside a := by
  unfold foldEscalationAnswered
  have h : (acc.withAside a).openEscalations = acc.openEscalations := rfl
  rw [h]
  split <;> rfl

theorem rewriteCommits_withAside (base head : String) :
    rewriteCommits (acc.withAside a) base head = (rewriteCommits acc base head).withAside a := by
  unfold rewriteCommits
  have hk : (acc.withAside a).kind = acc.kind := rfl
  have hi : (acc.withAside a).implement = acc.implement := rfl
  rw [hk, hi]
  split <;> rfl

theorem foldRestackEvent_withAside (body : RestackEvent) :
    foldRestackEvent (acc.withAside a) body = (foldRestackEvent acc body).withAside a := by
  cases body with
  | rewritten payload =>
    unfold foldRestackEvent
    dsimp only
    rw [rewriteCommits_withAside]
    rfl
  | completed payload =>
    unfold foldRestackEvent
    dsimp only
    rw [rewriteCommits_withAside]
    rfl
  | _ => rfl

/-! ## 4. The families that move the cursor -/

theorem foldCodeReviewEvent_withAside (stage : VerifyStageState) (seq ts : Nat) (actor : Actor)
    (body : ReviewEvent) :
    foldCodeReviewEvent (acc.withAside a) seq body
      = (foldCodeReviewEvent acc seq body).withAside
          (advanceAside stage ⟨seq, ts, actor, .codeReview body⟩ a) := by
  cases body with
  | started round => rfl
  | verdict payload =>
    unfold foldCodeReviewEvent
    dsimp only
    split <;> rfl

theorem foldVerifyCompleted_withAside (seq ts : Nat) (actor : Actor) (payload : VerifyCompleted) :
    foldVerifyCompleted (acc.withAside a) seq payload
      = (foldVerifyCompleted acc seq payload).withAside
          (advanceAside acc.verifyStage ⟨seq, ts, actor, .verify (.completed payload)⟩ a) := by
  unfold foldVerifyCompleted advanceAside advancePhase advanceStep announcedPhase endedPhase
  dsimp only [verifyStage_withAside]
  by_cases hc : acc.verifyStage.hasCancellation (verifyMemberKey
      (normalizeVerifyCompletion payload).step (normalizeVerifyCompletion payload).attempt) = true
  · simp only [hc, if_true]
  · simp only [hc]
    rfl

theorem foldVerifyCancelled_withAside (seq ts : Nat) (actor : Actor) (payload : VerifyCancelled) :
    foldVerifyCancelled (acc.withAside a) seq payload
      = (foldVerifyCancelled acc seq payload).withAside
          (advanceAside acc.verifyStage ⟨seq, ts, actor, .verify (.cancelled payload)⟩ a) := by
  unfold foldVerifyCancelled advanceAside advancePhase advanceStep announcedPhase endedPhase
  dsimp only [verifyStage_withAside]
  by_cases hc : (acc.verifyStage.cancellations.get?
      (verifyMemberKey payload.step payload.attempt)).map (·.seq) = some seq
  · simp only [hc, if_true]
    rfl
  · simp only [hc, if_false]

theorem foldVerifyEvent_withAside (seq ts : Nat) (actor : Actor) (body : VerifyEvent) :
    foldVerifyEvent (acc.withAside a) seq body
      = (foldVerifyEvent acc seq body).withAside
          (advanceAside acc.verifyStage ⟨seq, ts, actor, .verify body⟩ a) := by
  cases body with
  | completed payload => exact foldVerifyCompleted_withAside acc a seq ts actor payload
  | cancelled payload => exact foldVerifyCancelled_withAside acc a seq ts actor payload
  | _ => rfl

/-- The completion of a reconcile reads the reconcile in flight. -/
theorem foldReconcileCompleted_withAside (stage : VerifyStageState) (seq ts : Nat) (actor : Actor)
    (payload : ReconcileCompleted)
    (h : reconcileAttempt a.currentPhase = reconcileAttempt acc.currentPhase) :
    foldReconcileCompleted (acc.withAside a) seq payload
      = (foldReconcileCompleted acc seq payload).withAside
          (advanceAside stage ⟨seq, ts, actor, .reconcile (.completed payload)⟩ a) := by
  have hk : (acc.withAside a).kind = acc.kind := rfl
  cases payload with
  | merge mergeCommit artifact =>
    have ha : reconcileAttempt (acc.withAside a).currentPhase
        = reconcileAttempt acc.currentPhase := h
    unfold foldReconcileCompleted
    dsimp only
    rw [ha]
    rfl
  | rewrite headSha rewriteId artifact =>
    have ha : reconcileAttempt (setPrHead (acc.withAside a) headSha).currentPhase
        = reconcileAttempt acc.currentPhase := h
    have hb : reconcileAttempt (acc.withAside a).currentPhase
        = reconcileAttempt acc.currentPhase := h
    unfold foldReconcileCompleted
    dsimp only
    rw [hk]
    split
    · rw [ha]; rfl
    · rw [hb]; rfl

theorem foldReconcileEvent_withAside (stage : VerifyStageState) (seq ts : Nat) (actor : Actor)
    (body : ReconcileEvent)
    (h : reconcileAttempt a.currentPhase = reconcileAttempt acc.currentPhase) :
    foldReconcileEvent (acc.withAside a) seq body
      = (foldReconcileEvent acc seq body).withAside
          (advanceAside stage ⟨seq, ts, actor, .reconcile body⟩ a) := by
  cases body with
  | completed payload =>
    exact foldReconcileCompleted_withAside acc a stage seq ts actor payload h
  | rewritten payload =>
    unfold foldReconcileEvent
    dsimp only
    rw [rewriteCommits_withAside]
    rfl
  | _ => rfl

/-- Of the families a `reconcile.completed` alone reads the cursor, for its attempt. -/
theorem foldFacts_withAside (event : AbEvent)
    (h : reconcileAttempt a.currentPhase = reconcileAttempt acc.currentPhase) :
    foldFacts (acc.withAside a) event
      = (foldFacts acc event).withAside (advanceAside acc.verifyStage event a) := by
  obtain ⟨seq, ts, actor, body⟩ := event
  cases body with
  | build body => exact foldBuildEvent_withAside acc a seq actor body
  | node body => exact foldNodeEvent_withAside acc a seq ts body
  | integration body => cases body <;> rfl
  | pr body => cases body <;> rfl
  | runner body => cases body <;> rfl
  | execution body => cases body <;> rfl
  | infrastructure body => cases body <;> rfl
  | publication body =>
    cases body with
    | requested operation => cases operation <;> rfl
    | _ => rfl
  | spec body => cases body <;> rfl
  | session body => exact foldSessionEvent_withAside acc a seq ts body
  | plan body => cases body <;> rfl
  | planReview body => cases body <;> rfl
  | implement body => cases body <;> rfl
  | codeReview body => exact foldCodeReviewEvent_withAside acc a acc.verifyStage seq ts actor body
  | verify body => exact foldVerifyEvent_withAside acc a seq ts actor body
  | finalize body => cases body <;> rfl
  | restack body => exact foldRestackEvent_withAside acc a body
  | reconcile body =>
    exact foldReconcileEvent_withAside acc a acc.verifyStage seq ts actor body h
  | issueLinkDowngraded issue reason => exact downgradeIssueLink_withAside acc a seq issue reason
  | escalationRaised payload => exact foldEscalationRaised_withAside acc a seq actor payload
  | escalationAnswered payload => exact foldEscalationAnswered_withAside acc a seq actor payload
  | phase body => cases body <;> rfl
  | plain body => cases body <;> rfl
  | _ => rfl

/-! ## 5. One event, and the loop over a batch -/

theorem foldJanitor_withAside (body : EventBody) :
    foldJanitor (acc.withAside a) body = (foldJanitor acc body).withAside a := by
  cases body with
  | build body => cases body <;> rfl
  | _ => rfl

theorem foldTargetRewrite_withAside (event : AbEvent) :
    foldTargetRewrite (acc.withAside a) event = (foldTargetRewrite acc event).withAside a := by
  obtain ⟨seq, ts, actor, body⟩ := event
  cases body with
  | target body => cases body <;> rfl
  | node body => cases body <;> rfl
  | _ => rfl

theorem foldIntegration_withAside (event : AbEvent) :
    foldIntegration (acc.withAside a) event = (foldIntegration acc event).withAside a := by
  obtain ⟨seq, ts, actor, body⟩ := event
  cases body <;> rfl

theorem foldActivity_withAside (event : AbEvent) :
    foldActivity (acc.withAside a) event = (foldActivity acc event).withAside a := by
  let polled : BuildAcc := { acc with
    pollingActivity := some (advancePollingActivity (acc.pollingActivity.getD ∅) event) }
  let moved := foldTargetRewrite (foldJanitor polled event.body) event
  let landed : BuildAcc := { moved with landing := advanceLanding moved.landing event }
  have h : foldTargetRewrite (foldJanitor (polled.withAside a) event.body) event
      = moved.withAside a := by
    rw [foldJanitor_withAside, foldTargetRewrite_withAside]
  have hl := congrArg
    (fun acc : BuildAcc =>
      foldIntegration { acc with landing := advanceLanding acc.landing event } event) h
  exact hl.trans (foldIntegration_withAside landed a event)

theorem supersedeOne_withAside (escalation : AnyEscalation) :
    supersedeOne (acc.withAside a) escalation = (supersedeOne acc escalation).withAside a := by
  unfold supersedeOne
  dsimp only [verifyStage_withAside]
  split <;> rfl

theorem foldl_supersedeOne_withAside : ∀ (escalations : List AnyEscalation) (acc : BuildAcc),
    escalations.foldl supersedeOne (acc.withAside a)
      = (escalations.foldl supersedeOne acc).withAside a
  | [], _ => rfl
  | escalation :: rest, acc => by
    rw [List.foldl_cons, List.foldl_cons, supersedeOne_withAside,
      foldl_supersedeOne_withAside rest]

theorem foldSuperseded_withAside (body : EventBody) :
    foldSuperseded (acc.withAside a) body = (foldSuperseded acc body).withAside a := by
  cases body with
  | verify body =>
    cases body with
    | cancelled payload => exact foldl_supersedeOne_withAside a _ acc
    | _ => rfl
  | _ => rfl

end Families

/-! ## 6. What decides about the aside and the ledger -/

/-- A verify stage without the escalations its cancellations superseded, which nothing of the
stage depends on. -/
def VerifyStageState.plain (stage : VerifyStageState) : VerifyStageState :=
  { stage with superseded := [] }

theorem plain_ownVerifyMember (stage : VerifyStageState) (payload : SessionStarted) :
    (ownVerifyMember stage payload).plain = ownVerifyMember stage.plain payload := by
  unfold ownVerifyMember
  split
  · exact apply_ite VerifyStageState.plain _ _ _
  · rfl

theorem plain_attributeImplementation (stage : VerifyStageState) (payload : ImplementStarted)
    (seq : Nat) :
    (attributeImplementation stage payload seq).plain
      = attributeImplementation stage.plain payload seq := by
  unfold attributeImplementation
  cases payload.verifyStageFailure with
  | none => rfl
  | some failure => exact apply_ite VerifyStageState.plain _ _ _

/-- What was superseded plays no part in the other fields of the stage. -/
theorem plain_advanceVerifyStage (stage : VerifyStageState) (event : AbEvent) :
    (advanceVerifyStage stage event).plain = advanceVerifyStage stage.plain event := by
  obtain ⟨seq, ts, actor, body⟩ := event
  cases body with
  | verify body =>
    cases body with
    | completed payload => exact apply_ite VerifyStageState.plain _ _ _
    | cancelled payload => exact apply_ite VerifyStageState.plain _ _ _
    | _ => rfl
  | session body =>
    cases body with
    | started payload => exact plain_ownVerifyMember stage payload
    | _ => rfl
  | implement body =>
    cases body with
    | started payload => exact plain_attributeImplementation stage payload seq
    | completed payload => rfl
  | codeReview body =>
    cases body with
    | started round => rfl
    | verdict payload => exact apply_ite VerifyStageState.plain _ _ _
  | spec body => cases body <;> rfl
  | reconcile body => cases body <;> rfl
  | integration body => cases body <;> rfl
  | execution body => cases body <;> rfl
  | _ => rfl

theorem advanceAside_plain (stage : VerifyStageState) (event : AbEvent) (a : Aside) :
    advanceAside stage.plain event a = advanceAside stage event a := rfl

/-- The kind of the build, the node ledger, the verify stage and the cycle boundary. -/
structure Skeleton where
  kind : Option BuildKind
  nodeRestack : Option NodeRestackState
  stage : VerifyStageState
  cycleSince : Nat

def BuildAcc.skeleton (acc : BuildAcc) : Skeleton where
  kind := acc.kind
  nodeRestack := acc.nodeRestack
  stage := acc.verifyStage.plain
  cycleSince := acc.verify.cycleSince

/-- The events that start a verify cycle. -/
def startsCycle : EventBody → Bool
  | .verify (.configCaptured _) => true
  | .verify (.configSuperseded _) => true
  | .spec (.revised _ _) => true
  | .reconcile (.completed _) => true
  | .integration (.prepared _) => true
  | .codeReview (.verdict payload) => decide (payload.verdict = .approve)
  | _ => false

/-- The skeleton after the switch. -/
def Skeleton.note (skeleton : Skeleton) (event : AbEvent) : Skeleton :=
  { skeleton with
    kind := match event.body with
      | .build (.created payload) => payload.kind
      | _ => skeleton.kind
    cycleSince := if startsCycle event.body then max skeleton.cycleSince event.seq
      else skeleton.cycleSince }

section Families

variable (acc : BuildAcc)

/-- A session event changes what is kept of sessions, and nothing else. -/
theorem foldSessionEvent_eq (seq ts : Nat) (body : SessionEvent) :
    ∃ sessions : SessionFacts,
      foldSessionEvent acc seq ts body = { acc with toSessionFacts := sessions } := by
  cases body with
  | started payload =>
    unfold foldSessionEvent foldSessionStarted
    dsimp only
    cases payload.continuation <;> exact ⟨_, rfl⟩
  | nativeHandleRecorded payload =>
    unfold foldSessionEvent foldHandleRecorded
    dsimp only
    split
    · exact ⟨acc.toSessionFacts, rfl⟩
    · split
      · exact ⟨_, rfl⟩
      · exact ⟨acc.toSessionFacts, rfl⟩
  | suspended payload =>
    unfold foldSessionEvent foldSessionSuspended
    dsimp only
    split
    · exact ⟨acc.toSessionFacts, rfl⟩
    · split
      · exact ⟨_, rfl⟩
      · exact ⟨acc.toSessionFacts, rfl⟩
  | resumeFallback payload =>
    unfold foldSessionEvent foldResumeFallback
    dsimp only
    split
    · exact ⟨acc.toSessionFacts, rfl⟩
    · split <;> exact ⟨_, rfl⟩
  | resumed payload =>
    unfold foldSessionEvent foldSessionResumed
    dsimp only
    split
    · exact ⟨acc.toSessionFacts, rfl⟩
    · split
      · exact ⟨_, rfl⟩
      · exact ⟨acc.toSessionFacts, rfl⟩
  | ended payload =>
    unfold foldSessionEvent foldSessionEnded
    dsimp only
    split <;> exact ⟨_, rfl⟩
  | buildReadFailed payload => exact ⟨acc.toSessionFacts, rfl⟩
  | buildReadRecovered payload => exact ⟨acc.toSessionFacts, rfl⟩

theorem foldSessionEvent_skeleton (seq ts : Nat) (body : SessionEvent) :
    (foldSessionEvent acc seq ts body).skeleton = acc.skeleton := by
  obtain ⟨sessions, h⟩ := foldSessionEvent_eq acc seq ts body
  rw [h]
  rfl

theorem foldNodeEvent_skeleton (seq ts : Nat) (body : NodeEvent) :
    (foldNodeEvent acc seq ts body).skeleton = acc.skeleton := by
  cases body with
  | parentAccepted payload =>
    unfold foldNodeEvent acceptNodeParent
    dsimp only
    split <;> rfl
  | _ => rfl

theorem rewriteCommits_skeleton (base head : String) :
    (rewriteCommits acc base head).skeleton = acc.skeleton := by
  unfold rewriteCommits
  split <;> rfl

theorem foldRestackEvent_skeleton (body : RestackEvent) :
    (foldRestackEvent acc body).skeleton = acc.skeleton := by
  cases body with
  | rewritten payload => exact rewriteCommits_skeleton acc _ _
  | completed payload => exact rewriteCommits_skeleton acc _ _
  | _ => rfl

theorem foldReconcileEvent_skeleton (seq ts : Nat) (actor : Actor) (body : ReconcileEvent) :
    (foldReconcileEvent acc seq body).skeleton
      = acc.skeleton.note ⟨seq, ts, actor, .reconcile body⟩ := by
  cases body with
  | rewritten payload => exact rewriteCommits_skeleton acc _ _
  | completed payload =>
    unfold foldReconcileEvent foldReconcileCompleted
    cases payload with
    | merge mergeCommit artifact => rfl
    | rewrite headSha rewriteId artifact =>
      dsimp only
      split <;> rfl
  | _ => rfl

theorem foldCodeReviewEvent_skeleton (seq ts : Nat) (actor : Actor) (body : ReviewEvent) :
    (foldCodeReviewEvent acc seq body).skeleton
      = acc.skeleton.note ⟨seq, ts, actor, .codeReview body⟩ := by
  cases body with
  | started round => rfl
  | verdict payload =>
    unfold foldCodeReviewEvent Skeleton.note startsCycle
    dsimp only
    split <;> rfl

theorem foldVerifyEvent_skeleton (seq ts : Nat) (actor : Actor) (body : VerifyEvent) :
    (foldVerifyEvent acc seq body).skeleton
      = acc.skeleton.note ⟨seq, ts, actor, .verify body⟩ := by
  cases body with
  | completed payload =>
    unfold foldVerifyEvent foldVerifyCompleted
    dsimp only
    split <;> rfl
  | cancelled payload =>
    unfold foldVerifyEvent foldVerifyCancelled
    dsimp only
    split <;> rfl
  | _ => rfl

theorem foldEscalationRaised_skeleton (seq : Nat) (actor : Actor) (payload : EscalationRaised) :
    (foldEscalationRaised acc seq actor payload).skeleton = acc.skeleton := by
  unfold foldEscalationRaised
  dsimp only
  split <;> rfl

theorem foldEscalationAnswered_skeleton (seq : Nat) (actor : Actor)
    (payload : EscalationAnswered) :
    (foldEscalationAnswered acc seq actor payload).skeleton = acc.skeleton := by
  unfold foldEscalationAnswered
  split <;> rfl

theorem downgradeIssueLink_skeleton (seq issue : Nat) (reason : String) :
    (downgradeIssueLink acc seq issue reason).skeleton = acc.skeleton := by
  unfold downgradeIssueLink
  split <;> rfl

/-- The kind is set by the creation, the cycle by the events that start one. -/
theorem foldFacts_skeleton (event : AbEvent) :
    (foldFacts acc event).skeleton = acc.skeleton.note event := by
  obtain ⟨seq, ts, actor, body⟩ := event
  cases body with
  | build body => cases body <;> rfl
  | node body => exact foldNodeEvent_skeleton acc seq ts body
  | integration body => cases body <;> rfl
  | pr body => cases body <;> rfl
  | runner body => cases body <;> rfl
  | execution body => cases body <;> rfl
  | infrastructure body => cases body <;> rfl
  | publication body =>
    cases body with
    | requested operation => cases operation <;> rfl
    | _ => rfl
  | spec body => cases body <;> rfl
  | session body => exact foldSessionEvent_skeleton acc seq ts body
  | plan body => cases body <;> rfl
  | planReview body => cases body <;> rfl
  | implement body => cases body <;> rfl
  | codeReview body => exact foldCodeReviewEvent_skeleton acc seq ts actor body
  | verify body => exact foldVerifyEvent_skeleton acc seq ts actor body
  | finalize body => cases body <;> rfl
  | restack body => exact foldRestackEvent_skeleton acc body
  | reconcile body => exact foldReconcileEvent_skeleton acc seq ts actor body
  | issueLinkDowngraded issue reason => exact downgradeIssueLink_skeleton acc seq issue reason
  | escalationRaised payload => exact foldEscalationRaised_skeleton acc seq actor payload
  | escalationAnswered payload => exact foldEscalationAnswered_skeleton acc seq actor payload
  | phase body => cases body <;> rfl
  | plain body => cases body <;> rfl
  | _ => rfl

theorem supersedeOne_skeleton (escalation : AnyEscalation) :
    (supersedeOne acc escalation).skeleton = acc.skeleton := by
  unfold supersedeOne
  split
  · rfl
  · dsimp only
    unfold BuildAcc.skeleton
    dsimp only
    split <;> rfl

theorem foldSuperseded_skeleton (body : EventBody) :
    (foldSuperseded acc body).skeleton = acc.skeleton :=
  foldSuperseded_keeps (P := fun next => next.skeleton = acc.skeleton)
    (fun next escalation h => (supersedeOne_skeleton next escalation).trans h) body rfl

theorem foldJanitor_skeleton (body : EventBody) :
    (foldJanitor acc body).skeleton = acc.skeleton := by
  cases body with
  | build body => cases body <;> rfl
  | _ => rfl

theorem foldTargetRewrite_skeleton (event : AbEvent) :
    (foldTargetRewrite acc event).skeleton = acc.skeleton := by
  obtain ⟨seq, ts, actor, body⟩ := event
  cases body with
  | target body => cases body <;> rfl
  | node body => cases body <;> rfl
  | _ => rfl

theorem foldIntegration_skeleton (event : AbEvent) :
    (foldIntegration acc event).skeleton = acc.skeleton := by
  obtain ⟨seq, ts, actor, body⟩ := event
  cases body <;> rfl

theorem foldActivity_skeleton (event : AbEvent) :
    (foldActivity acc event).skeleton = acc.skeleton := by
  unfold foldActivity
  rw [foldIntegration_skeleton]
  exact (foldTargetRewrite_skeleton _ event).trans (foldJanitor_skeleton _ event.body)

/-- The stage is advanced before the facts are folded. -/
theorem foldProjection_skeleton (event : AbEvent) :
    (foldProjection acc event).skeleton
      = { acc.skeleton with
          stage := advanceVerifyStage acc.skeleton.stage event }.note event := by
  let staged : BuildAcc :=
    { acc with verifyStage := advanceVerifyStage acc.verifyStage event }
  have h : staged.skeleton
      = { acc.skeleton with stage := advanceVerifyStage acc.skeleton.stage event } := by
    unfold BuildAcc.skeleton
    dsimp only [staged]
    rw [plain_advanceVerifyStage]
  have hf : (foldProjection acc event).skeleton
      = (foldFacts (foldSuperseded staged event.body) event).skeleton := rfl
  rw [hf, foldFacts_skeleton, foldSuperseded_skeleton, h]

/-- The aside a projection leaves is decided by the stage after the event. -/
theorem foldProjection_withAside (a : Aside) (event : AbEvent)
    (h : reconcileAttempt a.currentPhase = reconcileAttempt acc.currentPhase) :
    foldProjection (acc.withAside a) event
      = (foldProjection acc event).withAside
          (advanceAside (advanceVerifyStage acc.skeleton.stage event) event a) := by
  let staged : BuildAcc :=
    { acc with verifyStage := advanceVerifyStage acc.verifyStage event }
  have hs : foldSuperseded (staged.withAside a) event.body
      = (foldSuperseded staged event.body).withAside a := foldSuperseded_withAside staged a _
  have ha : (foldSuperseded staged event.body).aside = staged.aside := by
    have hw := foldSuperseded_withAside staged staged.aside event.body
    rw [withAside_aside] at hw
    rw [hw, aside_withAside]
  have hp : (foldSuperseded staged event.body).currentPhase = acc.currentPhase :=
    congrArg Aside.currentPhase ha
  have hst : (foldSuperseded staged event.body).verifyStage.plain
      = advanceVerifyStage acc.skeleton.stage event :=
    (congrArg Skeleton.stage (foldSuperseded_skeleton staged event.body)).trans
      (plain_advanceVerifyStage acc.verifyStage event)
  have hf := foldFacts_withAside (foldSuperseded staged event.body) a event (by rw [hp]; exact h)
  rw [← advanceAside_plain, hst, ← hs] at hf
  exact congrArg (fun acc : BuildAcc => { acc with lastEvent := some event }) hf

end Families

end Autobuild
