/-
# The event catalog

A build event is an envelope around a typed payload.  The types are grouped by the prefix of
their name, because the reducers ask for prefixes (`node.`, `integration.`, `session.`); a
fact whose payload no reducer here reads is a bare name.

A stored event may also be of a type this reader does not know: such a fact is opaque, and
only its compatibility metadata is read.
-/
import Autobuild.Events.Payloads

namespace Autobuild

/-! ## 1. The families -/

inductive BuildEvent where
  | compatibilityDeferred (boundary : Nat)
  | created (payload : BuildCreated)
  | completed (outcome : BuildOutcome)
  | pauseRequested (reason : Option String)
  | resumeRequested (reason : Option String)
  | abortRequested (reason : Option String)
  | discardRequested
  | janitorAttemptFailed (payload : JanitorAttemptFailed)
  | janitorFailing (message : String)
  | janitorRecovered
  | holdRequested
  | landRequested (decisionSeq : Nat)
  | autoMergeRequested (payload : AutoMergeCommand)
  | autoMergeCancelled (payload : AutoMergeCommand)
  | autoMergeDefaultObserved (defaultSeq : Nat)
  | paused
  | resumed
  | aborted

inductive LandingEvent where
  | applicationFailed (payload : LandingApplicationFailed)
  | decided (payload : LandingDecided)
  | commandAcknowledged (commandSeq : Nat)
  | nativeEnableStarted
  | forgeMerged (payload : LandingForgeMerged)
  | nativeApplied (payload : LandingNativeApplied)

inductive NodeEvent where
  | opening (payload : NodeOpening)
  | restackRequested (payload : NodeRestackRequested)
  | restackSatisfied (id : String)
  | restackAvailabilityObserved (payload : NodeRestackAvailability)
  | parentDistance (payload : NodeParentDistance)
  | parentRequested (payload : ParentChange)
  | parentAccepted (payload : ParentChange)
  | parentPrRetargeted (id base : String)
  | parentCompleted (id : String)
  | parentCancelled (id reason : String)
  | parentRejectionCleared (revision : String) (target : Option String)
  | parentRejected (payload : NodeParentRejected)
  | opened (sha : String)
  | writerReserved (payload : NodeWriterReserved)
  | itemPrepared (payload : NodeItemPrepared)
  | itemReplayed (payload : NodeItemReplayed)
  | itemConflicted (payload : NodeItemConflicted)
  | publishIntended (payload : NodePublishIntended)
  | rewritten (payload : NodeRewritten)
  | writerSettled (payload : NodeWriterSettled)
  | contributionRecorded (payload : NodeContribution)
  | issueLinksRecorded (build : String) (issueLinks : List NodeIssueLink)
  | issueLinksPublished (pr : Nat) (issueLinks : List IssueLink)
  | inventory (payload : NodeInventory)
  | pollChecked (payload : NodePollChecked)
  | compared (payload : NodeCompared)

inductive IntegrationEvent where
  | abandoned (id reason : String)
  | observed (payload : IntegrationObserved)
  | verificationFailed (payload : IntegrationVerificationFailed)
  | prepared (payload : IntegrationPrepared)
  | landingIntended (payload : IntegrationLandingIntended)
  | landed (payload : IntegrationLanded)
  | audited (payload : IntegrationAudited)

inductive PrEvent where
  | opened (pr : PrRef)
  | autoMergeEnabled (commandSeq : Nat)
  | autoMergeDisabled (commandSeq : Nat)
  | merged (sha : String)
  | closed
  | conflicted (baseSha : String)

inductive RunnerEvent where
  | runtimeRecorded
  | attached
  | setupFailed (payload : RunnerSetupFailed)

inductive WorkspaceEvent where
  | provisioned (base : String)
  | cleanupRequired
  | fenced
  | commitsPreserved
  | commitsLost
  | released
  | provisionStarted

inductive ExecutionEvent where
  | relaunchRequested (payload : ExecutionRelaunchRequested)
  | drainAuthorized (payload : ExecutionDrainAuthorized)
  | drainSettled (correlation instanceId : String)
  | started (payload : ExecutionStarted)
  | ended (instanceId : String)

inductive InfrastructureEvent where
  | failed (payload : InfrastructureFailed)
  | cleanupAttempted (payload : InfrastructureCleanupAttempted)

inductive PublicationEvent where
  | retryScheduled
  | retryExhausted
  | requested (operation : PublicationOperation)
  | candidateRetired (payload : PublicationCandidateRetired)
  | lost

inductive SpecEvent where
  | imported (artifact : ArtifactRef)
  | authored (artifact : ArtifactRef)
  | revised (artifact : ArtifactRef) (assets : Option (List PinnedAsset))

inductive SessionEvent where
  | started (payload : SessionStarted)
  | suspended (payload : SessionSuspended)
  | resumed (payload : SessionResumed)
  | resumeFallback (payload : SessionResumeFallback)
  | nativeHandleRecorded (payload : SessionHandleRecorded)
  | ended (payload : SessionEnded)
  | buildReadFailed (payload : SessionBuildReadFailed)
  | buildReadRecovered (payload : SessionBuildReadRecovered)

inductive PlanEvent where
  | started (payload : PlanStarted)
  | completed (payload : PlanCompleted)

/-- `plan-review.*` and `code-review.*`. -/
inductive ReviewEvent where
  | started (round : Nat)
  | verdict (payload : ReviewVerdict)

inductive ImplementEvent where
  | started (payload : ImplementStarted)
  | completed (payload : ImplementCompleted)

inductive VerifyEvent where
  | configCaptured (payload : VerifyConfigCaptured)
  | configSuperseded (captureSeq : Nat)
  | started (payload : VerifyStarted)
  | reconcilePolicyCaptured (payload : VerifyReconcilePolicy)
  | completed (payload : VerifyCompleted)
  | cancelled (payload : VerifyCancelled)
  | stageFailed (payload : VerifyStageFailed)

inductive FinalizeEvent where
  | stepStarted
  | started
  | completed (pr : PrRef)
  | stepCompleted (payload : FinalizeStepCompleted)

inductive TargetEvent where
  | distance (payload : TargetDistance)
  | rewritten (payload : TargetRewritten)
  | rewriteCleared (payload : TargetMoved)
  | moved (payload : TargetMoved)

inductive RestackEvent where
  | prepared (payload : LeafRestack)
  | replayed (payload : RestackReplayed)
  | publishIntended (payload : LeafRestackAt)
  | rewritten (payload : RestackRewritten)
  | contended
  | completed (payload : LeafRestackAt)

inductive ReconcileEvent where
  | progressChecked (payload : ReconcileProgressChecked)
  | started (payload : ReconcileStarted)
  | prepared
  | contended
  | replayed
  | publishIntended
  | rewritten (payload : ReconcileRewritten)
  | completed (payload : ReconcileCompleted)

inductive PhaseEvent where
  | deferred (payload : PhaseDeferred)
  | deferralEscalated (payload : PhaseDeferralEscalated)
  | failed (payload : PhaseFailed)

/-- Facts whose payload nothing here reads, but for those of the attachments. -/
inductive PlainEvent where
  | prSummaryRequested
  | prSummaryAttempted
  | prSummaryResult
  | prSummarySettled
  | abortRemoteBranchDeleted
  | abortLocalBranchDeleted
  | abortTicketReturned
  | dispatchCommentPosted
  | prAttachmentDesignated (payload : PrAttachment)
  | prAttachmentHosted (designationSeq : Nat) (asset : HostedPrAttachmentAsset)
  | prAttachmentReclaimed (hostedSeq : Nat)
  | prAttachmentReclaimFailed
  | issueLinksSealed

/-- The type of an event with its payload. -/
inductive EventBody where
  | build (event : BuildEvent)
  | landing (event : LandingEvent)
  | node (event : NodeEvent)
  | integration (event : IntegrationEvent)
  | pr (event : PrEvent)
  | runner (event : RunnerEvent)
  | workspace (event : WorkspaceEvent)
  | execution (event : ExecutionEvent)
  | infrastructure (event : InfrastructureEvent)
  | dispatchFailed (payload : DispatchFailed)
  | publication (event : PublicationEvent)
  | spec (event : SpecEvent)
  | session (event : SessionEvent)
  | plan (event : PlanEvent)
  | planReview (event : ReviewEvent)
  | implement (event : ImplementEvent)
  | codeReview (event : ReviewEvent)
  | verify (event : VerifyEvent)
  | finalize (event : FinalizeEvent)
  | target (event : TargetEvent)
  | restack (event : RestackEvent)
  | reconcile (event : ReconcileEvent)
  | issueLinkDowngraded (issue : Nat) (reason : String)
  | observationRecorded (payload : ObservationRecorded)
  | escalationRaised (payload : EscalationRaised)
  | escalationAnswered (payload : EscalationAnswered)
  | phase (event : PhaseEvent)
  | plain (event : PlainEvent)

/-- A stored event of a known type. -/
structure AbEvent where
  seq : Nat
  ts : Nat
  actor : Actor
  body : EventBody

/-! ## 2. Names of the types -/

def BuildEvent.type : BuildEvent → String
  | .compatibilityDeferred _ => "build.compatibility-deferred"
  | .created _ => "build.created"
  | .completed _ => "build.completed"
  | .pauseRequested _ => "build.pause-requested"
  | .resumeRequested _ => "build.resume-requested"
  | .abortRequested _ => "build.abort-requested"
  | .discardRequested => "build.discard-requested"
  | .janitorAttemptFailed _ => "build.janitor-attempt-failed"
  | .janitorFailing _ => "build.janitor-failing"
  | .janitorRecovered => "build.janitor-recovered"
  | .holdRequested => "build.hold-requested"
  | .landRequested _ => "build.land-requested"
  | .autoMergeRequested _ => "build.auto-merge-requested"
  | .autoMergeCancelled _ => "build.auto-merge-cancelled"
  | .autoMergeDefaultObserved _ => "build.auto-merge-default-observed"
  | .paused => "build.paused"
  | .resumed => "build.resumed"
  | .aborted => "build.aborted"

def LandingEvent.type : LandingEvent → String
  | .applicationFailed _ => "landing.application-failed"
  | .decided _ => "landing.decided"
  | .commandAcknowledged _ => "landing.command-acknowledged"
  | .nativeEnableStarted => "landing.native-enable-started"
  | .forgeMerged _ => "landing.forge-merged"
  | .nativeApplied _ => "landing.native-applied"

def NodeEvent.type : NodeEvent → String
  | .opening _ => "node.opening"
  | .restackRequested _ => "node.restack-requested"
  | .restackSatisfied _ => "node.restack-satisfied"
  | .restackAvailabilityObserved _ => "node.restack-availability-observed"
  | .parentDistance _ => "node.parent-distance"
  | .parentRequested _ => "node.parent-requested"
  | .parentAccepted _ => "node.parent-accepted"
  | .parentPrRetargeted _ _ => "node.parent-pr-retargeted"
  | .parentCompleted _ => "node.parent-completed"
  | .parentCancelled _ _ => "node.parent-cancelled"
  | .parentRejectionCleared _ _ => "node.parent-rejection-cleared"
  | .parentRejected _ => "node.parent-rejected"
  | .opened _ => "node.opened"
  | .writerReserved _ => "node.writer-reserved"
  | .itemPrepared _ => "node.item-prepared"
  | .itemReplayed _ => "node.item-replayed"
  | .itemConflicted _ => "node.item-conflicted"
  | .publishIntended _ => "node.publish-intended"
  | .rewritten _ => "node.rewritten"
  | .writerSettled _ => "node.writer-settled"
  | .contributionRecorded _ => "node.contribution-recorded"
  | .issueLinksRecorded _ _ => "node.issue-links-recorded"
  | .issueLinksPublished _ _ => "node.issue-links-published"
  | .inventory _ => "node.inventory"
  | .pollChecked _ => "node.poll-checked"
  | .compared _ => "node.compared"

def IntegrationEvent.type : IntegrationEvent → String
  | .abandoned _ _ => "integration.abandoned"
  | .observed _ => "integration.observed"
  | .verificationFailed _ => "integration.verification-failed"
  | .prepared _ => "integration.prepared"
  | .landingIntended _ => "integration.landing-intended"
  | .landed _ => "integration.landed"
  | .audited _ => "integration.audited"

def PrEvent.type : PrEvent → String
  | .opened _ => "pr.opened"
  | .autoMergeEnabled _ => "pr.auto-merge-enabled"
  | .autoMergeDisabled _ => "pr.auto-merge-disabled"
  | .merged _ => "pr.merged"
  | .closed => "pr.closed"
  | .conflicted _ => "pr.conflicted"

def RunnerEvent.type : RunnerEvent → String
  | .runtimeRecorded => "runner.runtime-recorded"
  | .attached => "runner.attached"
  | .setupFailed _ => "runner.setup-failed"

def WorkspaceEvent.type : WorkspaceEvent → String
  | .provisioned _ => "workspace.provisioned"
  | .cleanupRequired => "workspace.cleanup-required"
  | .fenced => "workspace.fenced"
  | .commitsPreserved => "workspace.commits-preserved"
  | .commitsLost => "workspace.commits-lost"
  | .released => "workspace.released"
  | .provisionStarted => "workspace.provision-started"

def ExecutionEvent.type : ExecutionEvent → String
  | .relaunchRequested _ => "execution.relaunch-requested"
  | .drainAuthorized _ => "execution.drain-authorized"
  | .drainSettled _ _ => "execution.drain-settled"
  | .started _ => "execution.started"
  | .ended _ => "execution.ended"

def InfrastructureEvent.type : InfrastructureEvent → String
  | .failed _ => "infrastructure.failed"
  | .cleanupAttempted _ => "infrastructure.cleanup-attempted"

def PublicationEvent.type : PublicationEvent → String
  | .retryScheduled => "publication.retry-scheduled"
  | .retryExhausted => "publication.retry-exhausted"
  | .requested _ => "publication.requested"
  | .candidateRetired _ => "publication.candidate-retired"
  | .lost => "publication.lost"

def SpecEvent.type : SpecEvent → String
  | .imported _ => "spec.imported"
  | .authored _ => "spec.authored"
  | .revised _ _ => "spec.revised"

def SessionEvent.type : SessionEvent → String
  | .started _ => "session.started"
  | .suspended _ => "session.suspended"
  | .resumed _ => "session.resumed"
  | .resumeFallback _ => "session.resume-fallback"
  | .nativeHandleRecorded _ => "session.native-handle-recorded"
  | .ended _ => "session.ended"
  | .buildReadFailed _ => "session.build-read-failed"
  | .buildReadRecovered _ => "session.build-read-recovered"

def PlanEvent.type : PlanEvent → String
  | .started _ => "plan.started"
  | .completed _ => "plan.completed"

def ReviewEvent.type (loop : String) : ReviewEvent → String
  | .started _ => loop ++ ".started"
  | .verdict _ => loop ++ ".verdict"

def ImplementEvent.type : ImplementEvent → String
  | .started _ => "implement.started"
  | .completed _ => "implement.completed"

def VerifyEvent.type : VerifyEvent → String
  | .configCaptured _ => "verify.config-captured"
  | .configSuperseded _ => "verify.config-superseded"
  | .started _ => "verify.started"
  | .reconcilePolicyCaptured _ => "verify.reconcile-policy-captured"
  | .completed _ => "verify.completed"
  | .cancelled _ => "verify.cancelled"
  | .stageFailed _ => "verify.stage-failed"

def FinalizeEvent.type : FinalizeEvent → String
  | .stepStarted => "finalize.step-started"
  | .started => "finalize.started"
  | .completed _ => "finalize.completed"
  | .stepCompleted _ => "finalize.step-completed"

def TargetEvent.type : TargetEvent → String
  | .distance _ => "target.distance"
  | .rewritten _ => "target.rewritten"
  | .rewriteCleared _ => "target.rewrite-cleared"
  | .moved _ => "target.moved"

def RestackEvent.type : RestackEvent → String
  | .prepared _ => "restack.prepared"
  | .replayed _ => "restack.replayed"
  | .publishIntended _ => "restack.publish-intended"
  | .rewritten _ => "restack.rewritten"
  | .contended => "restack.contended"
  | .completed _ => "restack.completed"

def ReconcileEvent.type : ReconcileEvent → String
  | .progressChecked _ => "reconcile.progress-checked"
  | .started _ => "reconcile.started"
  | .prepared => "reconcile.prepared"
  | .contended => "reconcile.contended"
  | .replayed => "reconcile.replayed"
  | .publishIntended => "reconcile.publish-intended"
  | .rewritten _ => "reconcile.rewritten"
  | .completed _ => "reconcile.completed"

def PhaseEvent.type : PhaseEvent → String
  | .deferred _ => "phase.deferred"
  | .deferralEscalated _ => "phase.deferral-escalated"
  | .failed _ => "phase.failed"

def PlainEvent.type : PlainEvent → String
  | .prSummaryRequested => "pr-summary.requested"
  | .prSummaryAttempted => "pr-summary.attempted"
  | .prSummaryResult => "pr-summary.result"
  | .prSummarySettled => "pr-summary.settled"
  | .abortRemoteBranchDeleted => "abort.remote-branch-deleted"
  | .abortLocalBranchDeleted => "abort.local-branch-deleted"
  | .abortTicketReturned => "abort.ticket-returned"
  | .dispatchCommentPosted => "dispatch.comment-posted"
  | .prAttachmentDesignated _ => "pr-attachment.designated"
  | .prAttachmentHosted _ _ => "pr-attachment.hosted"
  | .prAttachmentReclaimed _ => "pr-attachment.reclaimed"
  | .prAttachmentReclaimFailed => "pr-attachment.reclaim-failed"
  | .issueLinksSealed => "issue-links.sealed"

def EventBody.type : EventBody → String
  | .build event => event.type
  | .landing event => event.type
  | .node event => event.type
  | .integration event => event.type
  | .pr event => event.type
  | .runner event => event.type
  | .workspace event => event.type
  | .execution event => event.type
  | .infrastructure event => event.type
  | .dispatchFailed _ => "dispatch.failed"
  | .publication event => event.type
  | .spec event => event.type
  | .session event => event.type
  | .plan event => event.type
  | .planReview event => event.type "plan-review"
  | .implement event => event.type
  | .codeReview event => event.type "code-review"
  | .verify event => event.type
  | .finalize event => event.type
  | .target event => event.type
  | .restack event => event.type
  | .reconcile event => event.type
  | .issueLinkDowngraded _ _ => "issue-link.downgraded"
  | .observationRecorded _ => "observation.recorded"
  | .escalationRaised _ => "escalation.raised"
  | .escalationAnswered _ => "escalation.answered"
  | .phase event => event.type
  | .plain event => event.type

/-! ## 3. Stored events -/

inductive CompatibilityClassification where
  | decisive
  | advisory
  deriving DecidableEq, Repr

structure CompatibilityMetadata where
  classification : CompatibilityClassification
  writerVersion : String
  deriving DecidableEq, Repr

/-- A row of the log: a known event as its schema reads it, or an opaque fact. -/
inductive StoredEvent where
  | known (event : AbEvent)
  | unknown (seq : Nat) (type : String) (compatibility : Option CompatibilityMetadata)

def StoredEvent.seq : StoredEvent → Nat
  | .known event => event.seq
  | .unknown seq _ _ => seq

/-- `null` for a type that is not in the catalog. -/
def decodeStoredEvent : StoredEvent → Option AbEvent
  | .known event => some event
  | .unknown _ _ _ => none

/-- The known events of a log. -/
def projectEvents (events : List StoredEvent) : List AbEvent := events.filterMap decodeStoredEvent

theorem projectEvents_append (xs ys : List StoredEvent) :
    projectEvents (xs ++ ys) = projectEvents xs ++ projectEvents ys :=
  List.filterMap_append

theorem seq_of_decode {stored : StoredEvent} {event : AbEvent}
    (h : decodeStoredEvent stored = some event) : event.seq = stored.seq := by
  cases stored with
  | known known =>
    cases h
    rfl
  | unknown seq type compatibility => cases h

/-- The known events of a log are in the order of the log. -/
theorem projectEvents_pairwise {events : List StoredEvent}
    (h : events.Pairwise (fun a b => a.seq < b.seq)) :
    (projectEvents events).Pairwise (fun a b => a.seq < b.seq) := by
  refine h.filterMap _ ?_
  intro a b hab x hx y hy
  rw [seq_of_decode hx, seq_of_decode hy]
  exact hab

end Autobuild
