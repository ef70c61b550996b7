/-
# Event payloads

The payload of every build event that a reducer or the engine reads, under the field names of
the schemas.  An optional field is an `Option`; an optional literal `true` is a `Bool`; a
union of shapes is an inductive type.  Times are milliseconds.

A native session handle is the one payload whose properties are compared in the order they
are written, so it carries that order (`keyOrder`).
-/
import Autobuild.Lib.Json
import Autobuild.Lib.ObjectMap
import Autobuild.Ontology
import Mathlib.Data.Rat.Defs

namespace Autobuild

/-- `{ ...event.payload, seq: event.seq }`. -/
structure WithSeq (α : Type) where
  payload : α
  seq : Nat
  deriving DecidableEq

/-! ## 1. Build lifecycle and operator commands -/

inductive LinkIntent where
  | closes
  | refs
  deriving DecidableEq

structure IssueLink where
  issue : Nat
  intent : LinkIntent
  deriving DecidableEq

structure BuildTarget where
  ticket : TicketRef
  build : String
  deriving DecidableEq

structure BuildCreated where
  ticket : TicketRef
  repo : String
  baseBranch : String
  kind : Option BuildKind
  target : Option BuildTarget
  assets : Option (List PinnedAsset)
  issueLinks : Option (List IssueLink)
  deriving DecidableEq

structure JanitorAttemptFailed where
  firstFailureAt : Nat
  attempt : Nat
  message : String
  nextAttemptAt : Nat
  deriving DecidableEq

structure AutoMergeCommand where
  integrationConsent : Bool
  defaultSeq : Option Nat
  deriving DecidableEq

/-! ## 2. Nodes -/

structure NodeOpening where
  branch : String
  parent : String
  sha : String
  deriving DecidableEq

inductive RestackReason where
  | operator
  | presence
  deriving DecidableEq

structure NodeRestackRequested where
  id : String
  reason : RestackReason
  branch : String
  parent : String
  dependent : Option TicketRef
  identities : Option (List String)
  deriving DecidableEq

structure NodeRestackAvailability where
  fingerprint : String
  branch : String
  parentBranch : String
  head : String
  parent : String
  base : String
  available : List String
  deriving DecidableEq

structure NodeParentDistance where
  base : String
  parent : String
  branch : String
  count : Option Nat
  deriving DecidableEq

structure NodeParent where
  target : Option BuildTarget
  branch : String
  deriving DecidableEq

structure ParentChange where
  id : String
  old : NodeParent
  next : NodeParent
  revision : String
  deriving DecidableEq

structure NodeParentRejected where
  revision : String
  target : Option String
  reason : String
  deriving DecidableEq

inductive WriterOperation where
  | restack
  | landing
  deriving DecidableEq

structure WriterChange where
  sha : String
  build : Option String
  mainline : Bool
  deriving DecidableEq

structure WriterMerge where
  sha : String
  parent : String
  identities : List String
  build : Option String
  missing : List String
  deriving DecidableEq

structure NodeWriterReserved where
  id : String
  operation : WriterOperation
  requests : Option (List String)
  expected : String
  parent : String
  oldBase : String
  source : Option String
  archive : String
  changes : List WriterChange
  upstreamBuilds : List String
  merges : List WriterMerge
  deriving DecidableEq

structure NodeItemPrepared where
  id : String
  index : Nat
  base : String
  deriving DecidableEq

structure NodeItemReplayed where
  id : String
  index : Nat
  base : String
  head : String
  dropped : Bool
  dropReason : Option String
  deriving DecidableEq

structure NodeItemConflicted where
  files : Option (List String)
  id : String
  index : Nat
  base : String
  deriving DecidableEq

structure NodePublishIntended where
  id : String
  head : String
  deriving DecidableEq

structure NodeRewritten where
  id : String
  previous : String
  head : String
  deriving DecidableEq

inductive WriterOutcome where
  | completed
  | contended
  | abandoned
  deriving DecidableEq

structure NodeWriterSettled where
  id : String
  outcome : WriterOutcome
  actual : Option String
  deriving DecidableEq

structure NodeContribution where
  landing : String
  head : String
  base : String
  identities : List String
  deriving DecidableEq

structure NodeIssueLink where
  issue : Nat
  intent : LinkIntent
  downgraded : Bool
  deriving DecidableEq

structure NodeInventory where
  head : String
  base : Option String
  builds : List String
  contributions : Option (List String)
  foreign : List String
  deriving DecidableEq

structure NodePollChecked where
  activityKey : String
  unchangedSince : Nat
  nodeIdleAfterSeconds : Nat
  nodeIdlePollSeconds : Nat
  deriving DecidableEq

structure NodeCompared where
  parentSha : String
  headSha : String
  ahead : Nat
  deriving DecidableEq

/-! ## 3. Integration and landing -/

structure IntegrationChild where
  source : String
  id : String
  title : Option String
  builds : Option (List String)
  claims : Option (List String)
  deriving DecidableEq

structure IntegrationObserved where
  membershipSource : Option String
  openChildren : List String
  diagnostics : List String
  contributions : List String
  children : Option (List IntegrationChild)
  deriving DecidableEq

structure IntegrationVerificationFailed where
  id : String
  head : String
  parent : String
  steps : List String
  guidance : String
  deriving DecidableEq

structure IntegrationPrepared where
  id : String
  head : String
  parent : String
  context : Option ArtifactRef
  config : String
  deriving DecidableEq

structure IntegrationLandingIntended where
  id : String
  cycle : String
  head : String
  parent : String
  commandSeq : Option Nat
  decisionSeq : Option Nat
  fenced : Bool
  evidence : List String
  deriving DecidableEq

structure IntegrationLanded where
  operation : Option String
  head : String
  landed : String
  byHuman : Bool
  verified : Bool
  fenced : Bool
  deriving DecidableEq

structure IntegrationAudited where
  operation : String
  verifiedTree : String
  landedTree : String
  identities : List String
  deriving DecidableEq

structure LandingCandidate where
  head : String
  parent : String
  cycle : String
  deriving DecidableEq

inductive LandingMode where
  | auto
  | consent
  deriving DecidableEq

/-- Where a landing goes: the root, or the node of a ticket. -/
inductive LandingDestination where
  | root
  | node (ticket : String)
  deriving DecidableEq

structure LandingRule where
  into : Option String
  fromKind : Option BuildKind
  label : Option String
  mode : LandingMode
  deriving DecidableEq

inductive LandingRuleUse where
  | rule (index : Nat) (snapshot : LandingRule)
  | default
  deriving DecidableEq

structure LandingDecided where
  candidate : LandingCandidate
  /-- `from: 'leaf' | 'node'`; a leaf is a work build. -/
  fromKind : BuildKind
  into : LandingDestination
  labels : List String
  mode : LandingMode
  rule : LandingRuleUse
  deriving DecidableEq

structure LandingApplicationFailed where
  candidate : LandingCandidate
  decisionSeq : Nat
  commandSeq : Option Nat
  message : String
  attempt : Nat
  after : Nat
  deriving DecidableEq

structure LandingForgeMerged where
  possibleStaleEnable : Bool
  overrodeHold : Bool
  deriving DecidableEq

structure LandingNativeApplied where
  retry : Option (Nat × Nat)
  enableSeq : Option Nat
  enabled : Bool
  candidate : Option LandingCandidate
  decisionSeq : Option Nat
  commandSeq : Option Nat
  operation : Option String
  publicationHead : Option String
  deriving DecidableEq

structure PrRef where
  number : Nat
  url : String
  headSha : String
  deriving DecidableEq

/-- One exact artifact designated for a pull request. -/
structure PrAttachment where
  artifact : ArtifactRef
  filename : String
  mediaType : String
  deriving DecidableEq

/-- A hosted copy, and the handle it is deleted by. -/
structure HostedPrAttachmentAsset where
  repository : String
  releaseId : Nat
  assetId : Nat
  url : String
  deriving DecidableEq

/-! ## 4. Runners, executions, infrastructure -/

structure RunnerSetupFailed where
  command : String
  attempt : Nat
  exitStatus : Option Int
  output : String
  deriving DecidableEq

structure RuntimeIdentity where
  version : String
  commit : String
  sourceKind : String
  sourceLocation : String
  deriving DecidableEq

structure ExecutionRelaunchRequested where
  instanceId : String
  correlation : String
  fromRuntime : RuntimeIdentity
  toRuntime : RuntimeIdentity
  deriving DecidableEq

structure ExecutionDrainAuthorized where
  targetRuntime : Option RuntimeIdentity
  correlation : String
  run : String
  runtime : RuntimeIdentity
  instanceId : String
  deriving DecidableEq

structure ExecutionStarted where
  provider : String
  workspaceRef : String
  instanceId : String
  environmentId : Option String
  sessionId : Option String
  commandId : Option String
  deriving DecidableEq

structure InfrastructureFailed where
  provider : String
  workspaceRef : String
  instanceId : String
  environmentId : Option String
  sessionId : Option String
  operation : String
  cause : String
  attempt : Nat
  retryable : Bool
  cleanupPending : Bool
  error : String
  deriving DecidableEq

inductive CleanupOutcome where
  | confirmed
  | absent
  | unknown
  deriving DecidableEq

structure CleanupSnapshots where
  outcome : CleanupOutcome
  deleted : Option Nat
  error : Option String
  deriving DecidableEq

structure InfrastructureCleanupAttempted where
  provider : String
  workspaceRef : String
  operation : String
  attempt : Nat
  outcome : CleanupOutcome
  error : Option String
  snapshots : Option CleanupSnapshots
  deriving DecidableEq

structure DispatchFailed where
  stage : String
  attempt : Nat
  error : String
  deriving DecidableEq

/-- The operation of a `publication.requested`. -/
inductive PublicationOperation where
  | restack
  | implement
  | reconcile
  | finalize
  | finalizeStep
  deriving DecidableEq

structure PublicationCandidateRetired where
  request : Nat
  operation : PublicationOperation
  id : String
  sha : String
  replacementId : String
  deriving DecidableEq

/-! ## 5. Sessions -/

/-- The properties of a native session handle. -/
inductive HandleKey where
  | version
  | runner
  | nativeId
  | host
  | workspacePath
  | statePath
  deriving DecidableEq

/-- The order a parsed payload has. -/
def HandleKey.schemaOrder : List HandleKey :=
  [.version, .runner, .nativeId, .host, .workspacePath, .statePath]

/-- An order in which the properties of a handle can be written. -/
abbrev HandleOrder := { order : List HandleKey // order.Perm HandleKey.schemaOrder }

structure NativeSessionHandle where
  runner : String
  nativeId : String
  host : String
  workspacePath : String
  statePath : Option String
  /-- The order its properties are written in. -/
  keyOrder : HandleOrder
  deriving DecidableEq

/-- One property of a handle, absent when it is optional and not set. -/
def NativeSessionHandle.property? (handle : NativeSessionHandle) :
    HandleKey → Option (String × Json)
  | .version => some ("version", .num "1")
  | .runner => some ("runner", .str handle.runner)
  | .nativeId => some ("nativeId", .str handle.nativeId)
  | .host => some ("host", .str handle.host)
  | .workspacePath => some ("workspacePath", .str handle.workspacePath)
  | .statePath => handle.statePath.map (fun path => ("statePath", .str path))

/-- `JSON.stringify(handle)`. -/
def NativeSessionHandle.stringify (handle : NativeSessionHandle) : String :=
  (Json.obj (handle.keyOrder.val.filterMap handle.property?)).stringify

/-- The same handle with its properties in the order of the schema. -/
def NativeSessionHandle.canonical (handle : NativeSessionHandle) : NativeSessionHandle :=
  { handle with keyOrder := ⟨HandleKey.schemaOrder, List.Perm.refl _⟩ }

inductive ContinuationCause where
  | shutdown
  | pause
  | runnerLoss
  deriving DecidableEq

/-- Write-ahead continuation intent. -/
structure SessionContinuation where
  predecessor : String
  root : String
  handle : NativeSessionHandle
  cause : ContinuationCause
  activeMs : Rat
  budgetMs : Rat
  deriving DecidableEq

structure SelectedAccount where
  name : String
  kind : String
  credentialEnv : String
  region : Option String
  deriving DecidableEq

structure SessionStarted where
  continuation : Option SessionContinuation
  budgetMs : Option Rat
  session : String
  role : String
  runner : String
  model : Option String
  args : Option (List String)
  account : Option SelectedAccount
  phase : Phase
  round : Option Nat
  stream : Option String
  prompt : Option String
  deriving DecidableEq

structure SessionUsage where
  inputTokens : Nat
  outputTokens : Nat
  turns : Nat
  deriving DecidableEq

inductive SuspensionCause where
  | shutdown
  | pause
  deriving DecidableEq

structure SessionSuspended where
  session : String
  phase : Phase
  round : Option Nat
  handle : Option NativeSessionHandle
  cause : SuspensionCause
  activeMs : Rat
  transcript : ArtifactRef
  usage : Option SessionUsage
  deriving DecidableEq

structure SessionResumed where
  session : String
  predecessor : String
  root : String
  handle : NativeSessionHandle
  cause : ContinuationCause
  stale : Bool
  deriving DecidableEq

structure SessionResumeFallback where
  session : String
  stale : Bool
  reason : String
  deriving DecidableEq

structure SessionHandleRecorded where
  session : String
  phase : Phase
  round : Option Nat
  handle : NativeSessionHandle
  deriving DecidableEq

/-- Ordinary completion carries a transcript; a reclaimed session's died with its runner. -/
inductive SessionEnded where
  | ended (session : String) (activeMs : Option Rat) (transcript : ArtifactRef)
      (usage : SessionUsage)
  | reclaimed (session : String) (instanceId : String) (resumedFromSeq : Nat)
  deriving DecidableEq

def SessionEnded.session : SessionEnded → String
  | .ended session _ _ _ => session
  | .reclaimed session _ _ => session

structure SessionBuildReadFailed where
  session : String
  phase : Phase
  round : Nat
  diagnostic : String
  deriving DecidableEq

structure SessionBuildReadRecovered where
  session : String
  phase : Phase
  round : Nat
  evidenceSeq : Nat
  failureSeq : Nat
  deriving DecidableEq

/-! ## 6. The plan loop and the code loop -/

structure PlanStarted where
  round : Nat
  feedback : Option Feedback
  deriving DecidableEq

structure PlanCompleted where
  round : Nat
  artifact : ArtifactRef
  verifySteps : Option (List String)
  deriving DecidableEq

/-- Shared by `plan-review.verdict` and `code-review.verdict`. -/
structure ReviewVerdict where
  round : Nat
  verdict : ReviewVerdictKind
  findings : List Finding
  artifact : ArtifactRef
  reason : Option String
  deriving DecidableEq

structure ImplementStarted where
  round : Nat
  verifyStageFailure : Option Nat
  feedback : Option Feedback
  deriving DecidableEq

structure ImplementCompleted where
  round : Nat
  commits : CommitRange
  artifact : ArtifactRef
  deriving DecidableEq

/-! ## 7. Verify and finalize -/

structure VerifyConfigCaptured where
  cycle : Nat
  artifact : ArtifactRef
  head : String
  identity : String
  sourceRef : String
  sourceCommit : Option String
  deriving DecidableEq

structure VerifyStarted where
  baseSha : Option String
  headSha : Option String
  restackId : Option String
  step : String
  attempt : Nat
  feedback : Option Feedback
  deriving DecidableEq

structure PolicyStep where
  step : String
  enabled : Bool
  source : String
  deriving DecidableEq

structure VerifyReconcilePolicy where
  cycle : Option Nat
  reconcileSeq : Nat
  steps : List PolicyStep
  deriving DecidableEq

/-- The historical boolean shape, the two verdict outcomes, and a skip. -/
inductive VerifyResultShape where
  | legacy (pass : Bool) (report : Option ArtifactRef)
  | pass (report : Option ArtifactRef)
  | fail (report : Option ArtifactRef)
  | skipped (postReconcilePolicy : Bool) (reason : String)
  deriving DecidableEq

structure VerifyCompleted where
  baseSha : Option String
  headSha : Option String
  restackId : Option String
  step : String
  attempt : Nat
  result : VerifyResultShape
  deriving DecidableEq

/-- Canonical read shape of a `verify.completed`. -/
structure NormalizedVerifyCompletion where
  baseSha : Option String
  headSha : Option String
  restackId : Option String
  step : String
  attempt : Nat
  outcome : VerifyOutcome
  report : Option ArtifactRef
  reason : Option String
  /-- `skipCause: 'post-reconcile-policy'`. -/
  skipCause : Bool
  deriving DecidableEq

/-- Legacy booleans keep their historical meaning; a skip is neither boolean. -/
def normalizeVerifyCompletion (payload : VerifyCompleted) : NormalizedVerifyCompletion :=
  let base : NormalizedVerifyCompletion :=
    { baseSha := payload.baseSha, headSha := payload.headSha, restackId := payload.restackId,
      step := payload.step, attempt := payload.attempt, outcome := .pass, report := none,
      reason := none, skipCause := false }
  match payload.result with
  | .legacy pass report => { base with outcome := if pass then .pass else .fail, report := report }
  | .skipped cause reason =>
    { base with outcome := .skipped, reason := some reason, skipCause := cause }
  | .pass report => { base with outcome := .pass, report := report }
  | .fail report => { base with outcome := .fail, report := report }

@[simp] theorem normalizeVerifyCompletion_step (payload : VerifyCompleted) :
    (normalizeVerifyCompletion payload).step = payload.step := by
  unfold normalizeVerifyCompletion
  cases payload.result <;> rfl

@[simp] theorem normalizeVerifyCompletion_attempt (payload : VerifyCompleted) :
    (normalizeVerifyCompletion payload).attempt = payload.attempt := by
  unfold normalizeVerifyCompletion
  cases payload.result <;> rfl

structure VerifyCancelled where
  baseSha : Option String
  headSha : Option String
  restackId : Option String
  step : String
  attempt : Nat
  /-- `cause.step`. -/
  cause : String
  deriving DecidableEq

structure VerifyStageFailed where
  attempt : Nat
  cycle : Nat
  stage : List String
  baseSha : Option String
  headSha : Option String
  restackId : Option String
  failed : List (String × Option ArtifactRef)
  cancelled : List (String × String)
  deriving DecidableEq

structure FinalizeStepCompleted where
  step : String
  ok : Bool
  note : Option String
  headSha : Option String
  deriving DecidableEq

/-! ## 8. Targets, restacks, reconciles -/

structure TargetDistance where
  branch : String
  sha : String
  head : Option String
  count : Option Nat
  deriving DecidableEq

structure TargetRewritten where
  branch : String
  previousSha : String
  sha : String
  deriving DecidableEq

structure LineageReceipt where
  id : String
  previous : String
  head : String
  deriving DecidableEq

structure TargetLineage where
  node : String
  fromSha : String
  receipts : List LineageReceipt
  deriving DecidableEq

/-- Shared by `target.moved` and `target.rewrite-cleared`. -/
structure TargetMoved where
  branch : String
  sha : String
  lineage : Option (List TargetLineage)
  deriving DecidableEq

inductive RestackTrigger where
  | verifyEntry
  | awaitingLanding
  deriving DecidableEq

structure LeafRestack where
  id : String
  restackId : Option String
  branch : String
  oldHead : String
  oldBase : String
  targetBase : String
  changeSha : String
  workspaceHead : String
  localBranchHead : String
  trigger : RestackTrigger
  cycle : Nat
  observation : Nat
  message : String
  deriving DecidableEq

/-- `restack.publish-intended`, `restack.completed`. -/
structure LeafRestackAt extends LeafRestack where
  headSha : String
  deriving DecidableEq

structure RestackReplayed where
  id : String
  conflicted : Bool
  files : Option (List String)
  deriving DecidableEq

structure RestackRewritten extends LeafRestackAt where
  observedHead : Option String
  deriving DecidableEq

structure ReconcileProgressChecked where
  conflictSeq : Nat
  attempt : Nat
  baseSha : String
  deriving DecidableEq

structure ReconcileStarted where
  attempt : Nat
  baseSha : String
  restackId : Option String
  deriving DecidableEq

structure ReconcileRewritten where
  targetBase : String
  headSha : String
  observedHead : Option String
  deriving DecidableEq

inductive ReconcileCompleted where
  | merge (mergeCommit : String) (artifact : ArtifactRef)
  | rewrite (headSha rewriteId : String) (artifact : ArtifactRef)
  deriving DecidableEq

/-! ## 9. Cross-cutting facts -/

structure ObservationRecorded where
  id : String
  kind : String
  summary : String
  files : Option (List String)
  refs : Option (List String)
  deriving DecidableEq

structure EscalationRaised where
  id : String
  phase : EscalationTarget
  round : Option Nat
  source : EscalationSource
  policyCause : Option PolicyEscalationCause
  question : String
  refs : Option (List String)
  deriving DecidableEq

structure EscalationAnswered where
  id : String
  answer : String
  resolution : EscalationResolution
  artifact : Option ArtifactRef
  assets : Option (List PinnedAsset)
  reviewRoundCeiling : Option Nat
  deriving DecidableEq

structure PhaseDeferred where
  session : String
  phase : Phase
  round : Nat
  diagnostic : String
  deriving DecidableEq

structure PhaseDeferralEscalated where
  session : String
  phase : Phase
  round : Nat
  id : String
  evidenceSeq : Nat
  question : String
  refs : List String
  deriving DecidableEq

structure PhaseFailed where
  phase : Phase
  round : Option Nat
  attempt : Nat
  error : String
  willRetry : Bool
  deriving DecidableEq

end Autobuild
