/-
# The build accumulator and the build state

`BuildFacts` is what the accumulator and the derived state share; they are grouped by what
writes them.  `BuildAcc` adds what only the fold carries, `BuildState` what is derived at the
end.
-/
import Autobuild.Events.Compatibility
import Autobuild.Kernel.IntegrationState
import Autobuild.Kernel.LandingState
import Autobuild.Kernel.NodeIssueLinks
import Autobuild.Kernel.NodeRestackState
import Autobuild.Kernel.VerifyStageState

namespace Autobuild

/-! ## 1. Parts -/

/-- A frozen issue link with its effective intent. -/
structure BuildIssueLink where
  issue : Nat
  intent : LinkIntent
  /-- `{ reason, seq }` of the fact that turned `closes` into `refs`. -/
  downgrade : Option (String × Nat)
  deriving DecidableEq

/-- One phase occurrence. -/
structure PhaseContext where
  phase : Phase
  round : Option Nat
  attempt : Option Nat
  seq : Nat
  deriving DecidableEq, Repr

inductive CommandKind where
  | pause
  | resume
  | abort
  deriving DecidableEq

/-- An accepted operator command the kernel has not yet acknowledged. -/
structure PendingCommand where
  command : CommandKind
  seq : Nat
  reason : Option String
  actor : Actor
  deriving DecidableEq

/-- A `session.started` without its `session.ended`. -/
structure OpenSession where
  nativeHandle : Option NativeSessionHandle
  continuation : Option SessionContinuation
  budgetMs : Option Rat
  account : Option SelectedAccount
  args : Option (List String)
  startedAt : Nat
  nativeResumeFallback : Bool
  resumed : Bool
  suspensionCause : Option SuspensionCause
  suspendedActiveMs : Option Rat
  session : String
  role : String
  runner : String
  model : Option String
  phase : Phase
  round : Option Nat
  stream : Option String
  prompt : Option String
  seq : Nat
  deriving DecidableEq

structure LogicalSessionTotals where
  activeMs : Rat
  usage : Option SessionUsage
  transcripts : List ArtifactRef
  deriving DecidableEq

inductive PrLifecycle where
  | opened
  | merged
  | closed
  | conflicted
  deriving DecidableEq, Repr

structure AutoMergeProjection where
  explicitCommandSeq : Option Nat := none
  requested : Bool := false
  commandSeq : Option Nat := none
  defaultSeq : Option Nat := none
  /-- `{ enabled, commandSeq }` of the latest recorded external application. -/
  applied : Option (Bool × Nat) := none
  deriving DecidableEq

structure DrainExecution where
  correlations : List String
  relaunch : Option ExecutionRelaunchRequested
  authorization : Option ExecutionDrainAuthorized
  correlation : String
  ended : Bool
  suspended : Bool
  deriving DecidableEq

structure Janitor where
  payload : JanitorAttemptFailed
  attention : Bool
  deriving DecidableEq

/-- Human-selected absolute caps for the current spec's independent loops. -/
structure ReviewRoundCeilings where
  plan : Option Nat := none
  code : Option Nat := none
  deriving DecidableEq

/-- An approve that currently stands: its seq and round. -/
structure Approval where
  seq : Nat
  round : Nat
  deriving DecidableEq

structure PlanProjection where
  round : Nat := 0
  approved : Bool := false
  artifactRev : Option Nat := none
  approval : Option Approval := none
  deriving DecidableEq

structure ImplementProjection where
  round : Nat := 0
  commits : Option CommitRange := none
  artifactRev : Option Nat := none
  deriving DecidableEq

structure FinalizeStep where
  step : String
  ok : Bool
  seq : Nat
  deriving DecidableEq

structure VerifyProjection where
  maxAttemptSeen : Nat := 0
  results : List VerifyResult := []
  currentStep : Option String := none
  running : Option (List String) := none
  configPin : Option (WithSeq VerifyConfigCaptured) := none
  cycleSince : Nat := 0

/-! ## 2. What accumulator and state share -/

structure DrainFacts where
  drainingExecutions : ObjectMap String DrainExecution := ∅
  compatibility : CompatibilityState := initialCompatibility
  compatibilityDeferredBoundary : Nat := 0

structure NodeFacts where
  kind : Option BuildKind := none
  target : Option BuildTarget := none
  baseBranch : Option String := none
  nodeOpening : Option NodeOpening := none
  nodeOpened : Option String := none
  nodeRestack : Option NodeRestackState := none
  integration : Option IntegrationState := none
  pollingActivity : Option (ObjectMap String String) := none
  nodePolling : Option (NodePollChecked × Nat) := none
  nodeComparison : Option NodeCompared := none
  nodeIssueLinks : Option NodeIssueLinksState := none

structure LifecycleFacts where
  outcome : Option BuildOutcome := none
  openEscalations : List OpenEscalation := []
  answeredEscalations : List AnsweredEscalation := []
  reviewRoundCeilings : ReviewRoundCeilings := {}
  specRev : Option Nat := none
  restartSince : Nat := 0
  pinnedAssets : List PinnedAsset := []
  issueLinks : List BuildIssueLink := []
  issueLinksSealedSeq : Option Nat := none

structure PrFacts where
  mergedSha : Option String := none
  pr : Option PrRef := none
  prState : Option PrLifecycle := none
  /-- The `target.rewritten` event itself. -/
  targetRewrite : Option AbEvent := none
  janitor : Option Janitor := none
  landing : LandingState := {}
  autoMerge : AutoMergeProjection := {}
  finalizeCompletedSeq : Nat := 0
  finalizeSteps : List FinalizeStep := []

structure LoopFacts where
  round : Nat := 0
  lastCompletedPhase : Option PhaseContext := none
  plan : PlanProjection := {}
  implement : ImplementProjection := {}
  codeReviewApproved : Bool := false
  codeReviewApproval : Option Approval := none
  planReviewFindings : List (List Finding) := []
  codeReviewFindings : List (List Finding) := []
  reconcileAttempts : Nat := 0

structure RunnerFacts where
  observations : List ObservationRecorded := []
  setupFailures : List (WithSeq RunnerSetupFailed) := []
  setupFailure : Option (WithSeq RunnerSetupFailed) := none
  dispatchFailures : List (WithSeq DispatchFailed) := []
  executions : List (WithSeq ExecutionStarted) := []
  infrastructureFailures : List (WithSeq InfrastructureFailed) := []
  infrastructureFailure : Option (WithSeq InfrastructureFailed) := none
  cleanupAttempts : List (WithSeq InfrastructureCleanupAttempted) := []

structure SessionFacts where
  nativeHandles : ObjectMap String NativeSessionHandle := ∅
  sessionTotals : ObjectMap String LogicalSessionTotals := ∅
  suspendedSessions : List OpenSession := []
  openSessions : List OpenSession := []

instance : PropertyKey Phase := ⟨fun _ => none⟩

structure BuildFacts extends DrainFacts, NodeFacts, LifecycleFacts, PrFacts, LoopFacts,
    RunnerFacts, SessionFacts where
  currentPhase : Option PhaseContext := none
  verifyStage : VerifyStageState := initialVerifyStageState
  verify : VerifyProjection := {}
  /-- `phase.failed` tally per phase. -/
  failures : ObjectMap Phase Nat := ∅
  lastEvent : Option AbEvent := none

def BuildFacts.cycleState (facts : BuildFacts) : CycleState where
  integration := facts.integration
  restartSince := facts.restartSince
  nodeComparison := facts.nodeComparison
  results := facts.verify.results
  cycleSince := facts.verify.cycleSince
  stageFailures := facts.verifyStage.failures

/-! ## 3. The accumulator and the state -/

inductive Terminal where
  | done
  | aborted
  deriving DecidableEq

/-- Unacknowledged commands by kind, each in request order. -/
structure PendingCommands where
  pause : List PendingCommand := []
  resume : List PendingCommand := []
  abort : List PendingCommand := []
  deriving DecidableEq

/-- An outstanding discard: its seq and its actor. -/
structure DiscardRequest where
  seq : Nat
  actor : Actor
  deriving DecidableEq

/-- What only the fold carries. -/
structure CarriedFacts where
  endedExecutionInstances : ObjectMap String Unit := ∅
  attached : Bool := false
  pausedFlag : Bool := false
  terminal : Option Terminal := none
  pending : PendingCommands := {}
  discardRequested : Option DiscardRequest := none

structure BuildAcc extends BuildFacts, CarriedFacts

def initialBuildAcc : BuildAcc := {}

structure BuildState extends BuildFacts where
  status : BuildStatus
  /-- The current phase, else the latest completed one. -/
  phase : Option Phase
  lastSeq : Nat
  discardRequest : Option DiscardRequest
  pendingCommands : List PendingCommand

end Autobuild
