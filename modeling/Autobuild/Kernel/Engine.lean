/-
# The engine: what to do next

`decideNext` is the transition table of the pipeline.  It reads the log and the configuration
and returns one decision; it performs nothing and appends nothing, so deciding again over the
log is the way a dead runner's build is resumed.

The rules are tried in order: terminal builds and operator commands (`commandDecision`), open
escalations (`blockedDecision`), nodes (`decideNode`), and for a work build the spec, the plan
loop, the code loop, verification, finalization and the epilogue of the pull request
(`decideWork`).
-/
import Autobuild.Kernel.Reducer
import Autobuild.Kernel.Stall
import Autobuild.Kernel.VerifyStages

namespace Autobuild

open ObjectMap

/-! ## 1. Decisions -/

inductive WaitReason where
  | targetRewritten
  | publicationRetry
  | verifyStage
  | mixedVersion
  | blocked
  | paused
  | awaitingSpec
  | awaitingPr
  | done
  | aborted
  deriving DecidableEq

inductive VerifyAction where
  | runCheck (step command : String) (attempt : Nat)
  | runAgentVerify (step skill : String) (attempt : Nat) (feedback : Option Feedback)
  deriving DecidableEq

inductive FinalizeAction where
  | check (command : String)
  | agent (skill : String)
  deriving DecidableEq

inductive VerifyMemberDecision where
  | run (action : VerifyAction)
  /-- Path gating to resolve against the live diff. -/
  | evaluateVerify (step : String) (attempt : Nat) (paths : List String) (action : VerifyAction)
  /-- Kernel-authored exclusion that launches no verifier work. -/
  | skipVerify (step : String) (attempt : Nat) (reason : String) (postReconcilePolicy : Bool)
  deriving DecidableEq

structure RunPhase where
  phase : CorePhase
  round : Nat
  feedback : Option Feedback := none
  verifyStageFailure : Option Nat := none
  /-- `{ attempt }`, present iff the phase is reconcile. -/
  reconcile : Option Nat := none
  deriving DecidableEq

structure RaiseEscalation where
  source : EscalationSource
  policyCause : Option PolicyEscalationCause := none
  phase : Phase
  round : Option Nat := none
  question : String
  refs : Option (List String) := none
  deriving DecidableEq

inductive Decision where
  | recordVerifySelectionDrift (summary : String)
  | restartExecution
  | runVerifyStage (members : List VerifyMemberDecision)
  | cancelVerifyStage (steps : List String) (cause : String) (attempt : Nat)
  | recordVerifyStageFailure (failure : VerifyStageFailed)
  | raiseReadDeferral (deferral : ReadDeferral)
  | restack (trigger : RestackTrigger) (cycle : Nat)
  | captureReconcilePolicy (reconcileSeq : Nat)
  | wait (reason : WaitReason)
  | acknowledge (command : CommandKind)
  | runPhase (run : RunPhase)
  | verify (member : VerifyMemberDecision)
  | runFinalizeStep (step : String) (action : FinalizeAction)
  | checkReconcileProgress (conflictSeq completedAttempt nextAttempt : Nat)
  | raiseEscalation (escalation : RaiseEscalation)

/-- `run-phase reconcile` of an attempt. -/
def runReconcile (attempt : Nat) : Decision :=
  .runPhase { phase := .reconcile, round := attempt, reconcile := some attempt }

/-- What the engine reads of a build state. -/
structure EngineFacts where
  compatibility : CompatibilityState
  status : BuildStatus
  pendingCommands : List PendingCommand
  kind : Option BuildKind
  target : Option BuildTarget
  targetRewritten : Bool
  nodeRestack : Option NodeRestackState
  cycleState : CycleState
  openEscalations : List OpenEscalation
  answeredEscalations : List AnsweredEscalation
  reviewRoundCeilings : ReviewRoundCeilings
  specRev : Option Nat
  currentPhase : Option PhaseContext
  reconcileAttempts : Nat
  prState : Option PrLifecycle
  verifyStage : VerifyStageState
  maxAttemptSeen : Nat
  observations : List ObservationRecorded

def BuildState.engineFacts (state : BuildState) : EngineFacts where
  compatibility := state.compatibility
  status := state.status
  pendingCommands := state.pendingCommands
  kind := state.kind
  target := state.target
  targetRewritten := state.targetRewrite.isSome
  nodeRestack := state.nodeRestack
  cycleState := state.toBuildFacts.cycleState
  openEscalations := state.openEscalations
  answeredEscalations := state.answeredEscalations
  reviewRoundCeilings := state.reviewRoundCeilings
  specRev := state.specRev
  currentPhase := state.currentPhase
  reconcileAttempts := state.reconcileAttempts
  prState := state.prState
  verifyStage := state.verifyStage
  maxAttemptSeen := state.verify.maxAttemptSeen
  observations := state.observations

/-! ## 2. Terminal builds and operator commands -/

def mixedVersionDeferred (state : EngineFacts) : Bool :=
  decide (state.compatibility.decisiveFacts > 0)

def EngineFacts.requests (state : EngineFacts) (command : CommandKind) : Bool :=
  state.pendingCommands.any fun pending => pending.command = command

/-- Abort wins over everything below; paused parks every decision until resumed. -/
def commandDecision (state : EngineFacts) (log : LogIndex) : Option Decision :=
  if mixedVersionDeferred state then some (.wait .mixedVersion)
  else if state.status = .aborted then some (.wait .aborted)
  else if state.status = .done then some (.wait .done)
  else if state.requests .abort then some (.acknowledge .abort)
  else if state.status = .paused then
    if state.requests .resume then some (.acknowledge .resume) else some (.wait .paused)
  else if state.requests .pause then some (.acknowledge .pause)
  -- frozen transactions retain their original destination and may recover
  else if state.targetRewritten ∧ log.restack.active = none
      ∧ state.nodeRestack.bind (·.active) = none then some (.wait .targetRewritten)
  else none

/-! ## 3. Escalations -/

/-- The seq after which verify results count for the stages. -/
def stageCycle (state : EngineFacts) (log : LogIndex) : Nat :=
  if state.kind = some .node then
    max ((state.cycleState.cycle.map (·.seq)).getD 0) log.verifyConfigBoundary
  else
    max (max log.code.latestApproveSeq log.lastReconcileCompletedSeq)
      (max log.restartSeq log.verifyConfigBoundary)

/-- The result is one of the integration cycle. -/
def ofCycle (cycle : Option (WithSeq IntegrationPrepared)) (result : VerifyRecord) : Bool :=
  decide (result.restackId = cycle.map (·.payload.id)
    ∧ result.headSha = cycle.map (·.payload.head)
    ∧ result.baseSha = cycle.map (·.payload.parent))

/-- The stage in progress of a staged configuration. -/
def engineStage (state : EngineFacts) (log : LogIndex) (config : Config) : Option ActiveStage :=
  if config.verify.stages = none then none
  else
    activeVerifyStage config.verify
      (if state.kind = some .node then log.verifyCompleted.filter (ofCycle state.cycleState.cycle)
        else log.verifyCompleted)
      state.verifyStage (stageCycle state log)

/-- The escalation is that of the verifier of a step. -/
def raisedByVerifier (state : EngineFacts) (escalation : OpenEscalation) (step : String) : Bool :=
  decide (escalation.source = .agent) &&
    decide (escalation.session.bind state.verifyStage.owners.get?
      = some (verifyMemberKey step state.maxAttemptSeen))

def heldVerifier (state : EngineFacts) (step : String) : Bool :=
  state.openEscalations.any fun escalation => raisedByVerifier state escalation step

/-- Other members of a stage go on while a verifier waits for an answer. -/
def toleratedEscalation (state : EngineFacts) (stage : Option ActiveStage)
    (escalation : OpenEscalation) : Bool :=
  match stage with
  | none => false
  | some stage => stage.stage.any (raisedByVerifier state escalation)

/-- A failure of the stage cancels the members that are unfinished. -/
def cancelsRest (stage : Option ActiveStage) : Bool :=
  match stage with
  | none => false
  | some stage => stage.cause.isSome && !stage.unfinished.isEmpty

def cleanupDue (state : VerifyStageState) : Bool :=
  match state.cleanupExecutionSeq with
  | none => false
  | some cleanup => decide (state.executionSeq ≤ cleanup)

def blockedDecision (state : EngineFacts) (log : LogIndex) (stage : Option ActiveStage) :
    Option Decision :=
  if state.openEscalations.any (fun e => !toleratedEscalation state stage e) then
    some (.wait .blocked)
  else if cleanupDue state.verifyStage && !cancelsRest stage then some .restartExecution
  else (log.readDeferrals.find? (·.ended)).map .raiseReadDeferral

/-! ## 4. Nodes -/

def integrationComplete (state : CycleState) : Bool :=
  match state.integration.bind (·.observation) with
  | none => false
  | some observation =>
    observation.openChildren.isEmpty && observation.diagnostics.isEmpty
      && !observation.contributions.isEmpty

/-- The ledger is at rest on the parent of the cycle. -/
def ledgerAtRest (nodeRestack : Option NodeRestackState) (cycle : IntegrationPrepared) : Bool :=
  match nodeRestack with
  | none => false
  | some ledger =>
    ledger.parentRequest.isNone && ledger.parentChange.isNone && ledger.active.isNone
      && ((ledger.observedParent.map fun parent => decide (parent.sha = cycle.parent)).getD true)
      && decide (ledger.contributionBase = some cycle.parent)

def integrationCurrent (state : EngineFacts) : Bool :=
  match state.cycleState.cycle with
  | none => false
  | some cycle =>
    integrationCycleCurrent state.cycleState && integrationComplete state.cycleState
      && ledgerAtRest state.nodeRestack cycle.payload
      && comparesCycle state.cycleState cycle.payload

/-- A reconcile in flight keeps its attempt. -/
def nodeReconcileAttempt (state : EngineFacts) : Nat :=
  match state.currentPhase with
  | some ctx =>
    if ctx.phase = .core .reconcile then ctx.attempt.getD state.reconcileAttempts
    else state.reconcileAttempts + 1
  | none => state.reconcileAttempts + 1

def verifyAction (config : Config) (step : String) (attempt : Nat) (kind : StepKind)
    (feedback : Option Feedback) : VerifyAction :=
  match kind with
  | .check command => .runCheck step (config.resolveCommand command) attempt
  | .agent skill => .runAgentVerify step skill attempt feedback

/-- Omitted paths are unconditional, and `always = true` wins over paths. -/
def gateByPaths (step : String) (attempt : Nat) (stepConfig : VerifyStepConfig)
    (action : VerifyAction) : VerifyMemberDecision :=
  match stepConfig.paths with
  | none => .run action
  | some paths =>
    if stepConfig.always = some true then .run action
    else .evaluateVerify step attempt paths action

/-- The largest of the attempts in a cycle; a fresh cycle takes the next one ever. -/
def cycleAttempt (attempts : List Nat) (maxVerifyAttemptEver : Nat) : Nat :=
  if attempts = [] then maxVerifyAttemptEver + 1 else attempts.foldl max 0

section Node

variable (state : EngineFacts) (log : LogIndex) (config : Config)
  (cycle : WithSeq IntegrationPrepared)

def nodeBoundary : Nat := max cycle.seq log.verifyConfigBoundary

def nodeResults : List VerifyRecord :=
  log.verifyCompleted.filter fun result =>
    decide (result.seq > nodeBoundary log cycle) && ofCycle (some cycle) result

def nodeStarts : List VerifyStartRecord :=
  log.verifyStarted.filter fun start =>
    start.seq > nodeBoundary log cycle && start.restackId = some cycle.payload.id

def nodeAttempt : Nat :=
  cycleAttempt ((nodeResults log cycle).map (·.attempt) ++ (nodeStarts log cycle).map (·.attempt))
    log.maxVerifyAttemptEver

/-- Every listed step has a table in a validated configuration; reading a missing one throws. -/
def nodeMember (step : String) : Except String VerifyMemberDecision :=
  match config.verify.stepConfigs.get? step with
  | none => .error "Cannot read properties of undefined (reading 'kind')"
  | some selected =>
    let attempt := nodeAttempt log cycle
    .ok (gateByPaths step attempt selected (verifyAction config step attempt selected.kind none))

def nodeStageFailure (stage : ActiveStage) : VerifyStageFailed where
  cycle := cycle.seq
  stage := stage.stage
  attempt := nodeAttempt log cycle
  restackId := some cycle.payload.id
  headSha := some cycle.payload.head
  baseSha := some cycle.payload.parent
  failed := stage.failures.map fun f => (f.step, f.report)
  cancelled := stage.cancellations.map fun c => (c.payload.step, c.payload.cause)

def nodeStageDecision (stage : Option ActiveStage) : Option Decision :=
  match stage with
  | none => none
  | some stage =>
    match stage.cause with
    | some cause =>
      if !stage.unfinished.isEmpty then
        some (.cancelVerifyStage stage.unfinished cause.step (nodeAttempt log cycle))
      else settled stage
    | none => settled stage
where
  settled (stage : ActiveStage) : Option Decision :=
    if stage.settled && !stage.failures.isEmpty then
      if state.verifyStage.failures.any (fun f =>
          f.payload.cycle = cycle.seq ∧ f.payload.attempt = nodeAttempt log cycle) then
        some (.wait .blocked)
      else some (.recordVerifyStageFailure (nodeStageFailure log cycle stage))
    else none

/-- The steps to run: not held, and not passed or skipped in the cycle. -/
def nodeDue (stage : Option ActiveStage) : List String :=
  let steps := match stage with
    | some stage => stage.unfinished.filter fun step => !heldVerifier state step
    | none => config.verify.steps
  steps.filter fun step =>
    !(nodeResults log cycle).any fun result => result.step = step && result.outcome.satisfies

def nodeVerify (stage : Option ActiveStage) : Except String Decision :=
  match stage with
  | some _ => do
    let members ← (nodeDue state log config cycle stage).mapM (nodeMember log config cycle)
    return if members.isEmpty then .wait .verifyStage else .runVerifyStage members
  | none =>
    match nodeDue state log config cycle none with
    | [] => .ok (.wait .awaitingPr)
    | step :: _ => do
      let member ← nodeMember log config cycle step
      return .verify member

end Node

def decideNode (state : EngineFacts) (log : LogIndex) (config : Config)
    (stage : Option ActiveStage) : Except String Decision :=
  if ((state.nodeRestack.bind (·.conflict)).isSome) then
    .ok (runReconcile (nodeReconcileAttempt state))
  else
    match state.cycleState.cycle with
    | none => .ok (.wait .awaitingPr)
    | some cycle =>
      if !integrationCurrent state || decide (cycle.payload.config ≠ integrationConfig config) then
        .ok (.wait .awaitingPr)
      else if integrationFailed state.cycleState then .ok (.wait .blocked)
      else
        match nodeStageDecision state log cycle stage with
        | some decision => .ok decision
        | none => nodeVerify state log config cycle stage

/-! ## 5. Guidance and feedback -/

inductive GuidanceDestination where
  | plan
  | code
  | verify (step : String)
  | other
  deriving DecidableEq

/-- Producers get the answers of their loop; an agent verifier gets its own. -/
def guidanceDestination (escalation : OpenEscalation) : GuidanceDestination :=
  match escalation.phase with
  | .setup => .other
  | .phase (.core phase) =>
    if escalation.deferral && (phase = .planReview || phase = .codeReview) then .other
    else if phase = .plan ∨ phase = .planReview then .plan
    else if phase = .implement ∨ phase = .codeReview then .code
    else .other
  | .phase (.verify step) =>
    if escalation.source = .agent ∨ escalation.deferral = true then .verify step else .code

/-- The latest answer for a destination; a newer one supersedes the older ones. -/
def latestGuidance (answered : List AnsweredEscalation) (destination : GuidanceDestination) :
    Option AnsweredEscalation :=
  (answered.filter fun e =>
      e.resolution = .guidance && guidanceDestination e.toOpenEscalation = destination).foldl
    (fun latest e =>
      match latest with
      | none => some e
      | some other => if e.answeredSeq > other.answeredSeq then some e else latest) none

/-- The latest answer, unless a session launched with it. -/
def guidanceFeedback (state : EngineFacts) (log : LogIndex) (destination : GuidanceDestination) :
    Option Feedback :=
  match latestGuidance state.answeredEscalations destination with
  | none => none
  | some latest =>
    if log.guidanceDeliveries.any (fun delivery =>
        delivery.escalation = latest.id ∧ delivery.seq > latest.answeredSeq) then none
    else some (.guidance latest.id latest.answer)

def findingsFeedback (loop : LoopIndex) : Option Feedback :=
  loop.latestRevise.map fun verdict => .findings (verdict.findings.map (·.id))

namespace LogIndex

variable (log : LogIndex)

/-- Refreshing the configuration does not open a new replay. -/
def replayBoundary : Nat := max log.code.latestApproveSeq log.lastReconcileCompletedSeq

/-- Verify results count after this. -/
def cycleBoundary : Nat := max log.replayBoundary log.verifyConfigBoundary

def cycleResults : List VerifyRecord := log.verifyCompleted.filter fun v =>
    v.seq > log.cycleBoundary

/-- The last failure of the cycle, while no implement round completed after it. -/
def pendingFail : Option VerifyRecord :=
  ((log.cycleResults.filter (·.outcome = .fail)).getLast?).filter fun fail =>
    fail.seq > log.lastImplementCompletedSeq

/-- A failure without a report has nothing to route. -/
def verifyFeedback : Option Feedback :=
  log.pendingFail.bind fun fail => fail.report.map fun report => .verify fail.step report

end LogIndex

/-- The ids that dismissals cited. -/
def dismissedIdsOf (answered : List AnsweredEscalation) : List String :=
  (answered.filter (·.resolution = .dismissFinding)).flatMap fun e => e.refs.getD []

/-- An escalation of this class was raised after the seq, answered or not. -/
def raisedAfter (state : EngineFacts) (seq : Nat) (source : EscalationSource)
    (phase : EscalationTarget) : Bool :=
  (state.openEscalations ++ state.answeredEscalations.map (·.toOpenEscalation)).any fun e =>
    e.seq > seq ∧ e.source = source ∧ e.phase = phase ∧ e.deferral = false

/-- Logs written before `policyCause` existed carry neither cause nor round. -/
def reconcileNoProgressRaisedAfter (state : EngineFacts) (seq : Nat) : Bool :=
  (state.openEscalations ++ state.answeredEscalations.map (·.toOpenEscalation)).any fun e =>
    e.seq > seq ∧ e.source = .policy ∧ e.phase = .phase (.core .reconcile) ∧
      (e.policyCause = some .reconcileNoProgress ∨ (e.policyCause = none ∧ e.round = none))

/-! ## 6. The review loops -/

structure LoopArgs where
  loop : LoopIndex
  producer : CorePhase
  reviewer : CorePhase
  policy : PolicyConfig
  reviewRoundCeiling : Option Nat
  dismissedIds : List String
  raisedAfter : Nat → EscalationSource → EscalationTarget → Bool
  producerFeedback : Option Feedback

/-- Only chains with a member in the round being routed can raise. -/
def liveChains (chains : List FindingChain) (findingsByRound : List (List Finding))
    (round : Nat) : List FindingChain :=
  let current := ((findingsByRound[round - 1]?).getD []).map (·.id)
  chains.filter fun chain => chain.ids.any (· ∈ current)

namespace LoopArgs

variable (args : LoopArgs)

def runProducer (round : Nat) : Decision :=
  .runPhase { phase := args.producer, round := round, feedback := args.producerFeedback }

def reviewedRounds : Nat :=
  (args.loop.rounds.values.filter (·.verdict.isSome)).length

def ceiling : Nat := args.reviewRoundCeiling.getD args.policy.maxReviewRounds

/-- Stall first, then the round cap, then the next producer round. -/
def decideRevise (verdict : VerdictRecord) : Decision :=
  let reviewer : EscalationTarget := .phase (.core args.reviewer)
  let stalled := liveChains
    (stalledChains args.loop.findingsByRound args.policy.stallRounds args.dismissedIds)
    args.loop.findingsByRound verdict.round
  match (if args.raisedAfter verdict.seq .stall reviewer then none else deepestChain stalled) with
  | some chain =>
    .raiseEscalation
      { source := .stall, phase := .core args.reviewer, round := some verdict.round,
        question := chain.report, refs := some chain.ids }
  | none =>
    if args.reviewedRounds ≥ args.ceiling ∧ args.raisedAfter verdict.seq .policy reviewer = false
    then
      .raiseEscalation
        { source := .policy, policyCause := some .reviewRoundLimit, phase := .core args.reviewer,
          round := some verdict.round,
          question := "maxReviewRounds (" ++ toString args.ceiling ++
            ") exhausted without approval" }
    else args.runProducer (args.loop.maxRound + 1)

/-- The verdict of the latest round. -/
def decideVerdict (verdict : VerdictRecord) : Option Decision :=
  match verdict.verdict with
  | .approve => none
  | .escalate =>
    -- the verdict landed but its escalation did not
    if args.raisedAfter verdict.seq .agent (.phase (.core args.reviewer)) then
      some (args.runProducer (args.loop.maxRound + 1))
    else
      some (.raiseEscalation
        { source := .agent, phase := .core args.reviewer, round := some verdict.round,
          question := verdict.reason.getD "reviewer escalated" })
  | .revise => some (args.decideRevise verdict)

end LoopArgs

/-- Absent once the loop is approved. -/
def decideLoop (args : LoopArgs) : Option Decision :=
  if args.loop.maxRound = 0 then some (args.runProducer (args.loop.maxRoundEver + 1))
  else
    match args.loop.rounds.get? ⟨args.loop.maxRound⟩ with
    | none => some (args.runProducer args.loop.maxRound)
    | some record =>
      match record.verdict with
      | some verdict => args.decideVerdict verdict
      | none =>
        if record.completedSeq.isSome then
          some (.runPhase { phase := args.reviewer, round := args.loop.maxRound })
        else some (args.runProducer args.loop.maxRound)

section Loops

variable (state : EngineFacts) (log : LogIndex) (config : Config)

/-- Feedback: unconsumed guidance, else the latest revise verdict. -/
def planLoopArgs : LoopArgs where
  loop := log.plan
  producer := .plan
  reviewer := .planReview
  policy := config.policy
  reviewRoundCeiling := state.reviewRoundCeilings.plan
  dismissedIds := dismissedIdsOf state.answeredEscalations
  raisedAfter := raisedAfter state
  producerFeedback := (guidanceFeedback state log .plan).or (findingsFeedback log.plan)

/-- Feedback: guidance, else the verify failure, else findings. -/
def codeLoopArgs : LoopArgs where
  loop := log.code
  producer := .implement
  reviewer := .codeReview
  policy := config.policy
  reviewRoundCeiling := state.reviewRoundCeilings.code
  dismissedIds := dismissedIdsOf state.answeredEscalations
  raisedAfter := raisedAfter state
  producerFeedback :=
    ((guidanceFeedback state log .code).or log.verifyFeedback).or (findingsFeedback log.code)

end Loops

/-! ## 7. Verification -/

/-- `[...].map(JSON.stringify).join(', ')` and the like. -/
def joinTexts (texts : List String) : String := String.intercalate ", " texts

/-- The steps that failed in each attempt, in the order they failed. -/
def failuresByAttempt (fails : List VerifyRecord) : JsMap Nat (List String) :=
  fails.foldl (fun byAttempt fail =>
    byAttempt.set ⟨fail.attempt⟩
      (pushNew ((byAttempt.get? ⟨fail.attempt⟩).getD []) fail.step)) ∅

/-- The question of an exhausted verify budget claims that a step failed repeatedly only when
it failed in every counted cycle. -/
def verifyBudgetExhaustedQuestion (limit : Nat) (fails : List VerifyRecord) : String :=
  let byAttempt := failuresByAttempt fails
  let stepsOf (attempt : Nat) : List String := (byAttempt.get? ⟨attempt⟩).getD []
  let attempts := (byAttempt.keys.map (·.key)).insertionSort (· ≤ ·)
  let label (steps : List String) : String := joinTexts (steps.map fun step => "verify:" ++ step)
  let history := joinTexts (attempts.map fun attempt =>
    "attempt " ++ toString attempt ++ " (" ++ label (stepsOf attempt) ++ ")")
  let cycles := if attempts.length = 1 then "1 failed verify cycle counts"
    else toString attempts.length ++ " failed verify cycles count"
  let latestSteps := (attempts.getLast?.map stepsOf).getD []
  let everyCycle := latestSteps.filter fun step => attempts.all fun attempt =>
    step ∈ stepsOf attempt
  let diagnosis := if everyCycle ≠ [] then label everyCycle ++ " failed in every counted cycle."
    else "No single step failed in every counted cycle; the latest failed cycle, attempt " ++
      ((attempts.getLast?.map toString).getD "undefined") ++ ", failed " ++ label latestSteps ++ "."
  "maxVerifyAttempts (" ++ toString limit ++ ") exhausted: " ++ cycles ++
    " against the build-wide budget: " ++ history ++ ". " ++ diagnosis

/-- A selection that names an unknown step selects nothing. -/
def unknownSteps (steps : Option (List String)) (config : Config) : List String :=
  JsText.sortedSet id ((steps.getD []).filter fun step =>
    !(decide (step ∈ config.verify.steps) && config.verify.stepConfigs.has step))

def driftSummary (cycleBoundary : Nat) (approvedPlan : PlanCompletionRecord)
    (unknown : List String) : String :=
  "verify selection drift (cycle " ++ toString cycleBoundary ++ ", plan@" ++
    toString approvedPlan.artifact.rev ++ "): unknown steps " ++
    joinTexts (unknown.map Json.quote) ++
    "; running all configured optional steps subject to paths and post-reconcile policy"

/-- Failures that count for the budget: every one since the restart. -/
def LogIndex.fails (log : LogIndex) : List VerifyRecord :=
  log.verifyCompleted.filter (·.outcome = .fail)

section Verify

variable (state : EngineFacts) (log : LogIndex) (config : Config) (stage : Option ActiveStage)

/-- No stage, or one with nothing left to run. -/
def stageSettled : Bool := (stage.map (·.settled)).getD true

def stageFailure (stage : ActiveStage) (first : VerifyRecord) : VerifyStageFailed where
  cycle := log.cycleBoundary
  baseSha := first.baseSha
  headSha := first.headSha
  restackId := first.restackId
  stage := stage.stage
  attempt := first.attempt
  failed := stage.failures.map fun f => (f.step, f.report)
  cancelled := stage.cancellations.map fun c => (c.payload.step, c.payload.cause)

/-- A settled stage with failures, not yet recorded for this cycle and attempt. -/
def recordFailure (stage : ActiveStage) : Option Decision :=
  match stage.failures with
  | [] => none
  | first :: _ =>
    if stage.settled && !state.verifyStage.failures.any (fun f =>
        f.payload.cycle = log.cycleBoundary ∧ f.payload.attempt = first.attempt) then
      some (.recordVerifyStageFailure (stageFailure log stage first))
    else none

def stageDecision : Option Decision :=
  match stage with
  | none => none
  | some stage =>
    match stage.cause with
    | some cause =>
      if !stage.unfinished.isEmpty then
        some (.cancelVerifyStage stage.unfinished cause.step cause.attempt)
      else recordFailure state log stage
    | none => recordFailure state log stage

/-- Exhaustion escalates once per failure. -/
def exhaustedDecision : Option Decision :=
  match log.fails.getLast? with
  | none => none
  | some lastFail =>
    if stageSettled stage
        ∧ (JsText.distinct (log.fails.map (·.attempt))).length ≥ config.policy.maxVerifyAttempts
        ∧ raisedAfter state lastFail.seq .policy (.phase (verifyPhase lastFail.step)) = false then
      some (.raiseEscalation
        { source := .policy, policyCause := some .verifyFailureLimit,
          phase := verifyPhase lastFail.step,
          question := verifyBudgetExhaustedQuestion config.policy.maxVerifyAttempts log.fails })
    else none

/-- A pending failure routes back into the code loop; it never re-runs the step directly. -/
def failRouteDecision : Option Decision :=
  if log.pendingFail.isSome ∧ stageSettled stage = true then
    some (.runPhase
      { phase := .implement
        round := log.code.maxRound + 1
        feedback := (guidanceFeedback state log .code).or log.verifyFeedback })
  else none

/-- A frozen transaction wins over a new observation; a fresh cycle restacks first. -/
def restackDecision : Option Decision :=
  match log.restack.active with
  | some active =>
    if (log.restack.replay.map (·.conflicted)).getD false then
      some (runReconcile (log.restack.reconcileAttempt.getD (state.reconcileAttempts + 1)))
    else some (.restack active.trigger active.cycle)
  | none =>
    if (log.restack.gates.get? log.replayBoundary).isNone
        ∧ log.restack.finalizedAt.getD 0 < log.replayBoundary
        ∧ log.verifyStarted.any (fun v => v.seq > log.replayBoundary) = false
        ∧ log.verifyCompleted.any (fun v => v.seq > log.replayBoundary) = false then
      some (.restack .verifyEntry log.replayBoundary)
    else none

/-- The attempts seen in the cycle. -/
def LogIndex.cycleAttempts : List Nat :=
  log.cycleResults.map (·.attempt) ++
    (log.verifyStarted.filter fun v => v.seq > log.cycleBoundary).map (·.attempt)

/-- Every step of a cycle shares one attempt. -/
def LogIndex.attempt : Nat := cycleAttempt log.cycleAttempts log.maxVerifyAttemptEver

/-- The cycle was opened by a reconcile; a newer approval restores ordinary verification. -/
def LogIndex.reconcileCycle : Bool :=
  decide (log.lastReconcileCompletedSeq > max log.code.latestApproveSeq log.restartSeq)

def LogIndex.initialVerification : Bool := log.restack.initialVerification.getD false

/-- The policy frozen for this reconcile cycle. -/
def LogIndex.cyclePolicy : Option VerifyReconcilePolicy :=
  log.reconcilePolicy.filter fun policy =>
    log.reconcileCycle && !log.initialVerification
      && decide (policy.reconcileSeq = log.lastReconcileCompletedSeq)
      && (decide (policy.cycle = some log.cycleBoundary)
        || decide (log.verifyConfigBoundary = 0 ∧ policy.cycle = none))

def capturePolicyDecision : Option Decision :=
  if log.reconcileCycle ∧ log.initialVerification = false ∧ log.cyclePolicy.isNone
      ∧ log.cycleAttempts = [] then
    some (.captureReconcilePolicy log.lastReconcileCompletedSeq)
  else none

/-- What the approved plan asked for and the configuration does not have. -/
def LogIndex.unknownSelection : List String :=
  unknownSteps (log.plan.approvedPlan.bind (·.verifySteps)) config

def driftDecision : Option Decision :=
  match log.plan.approvedPlan with
  | none => none
  | some approvedPlan =>
    let unknown := log.unknownSelection config
    let summary := driftSummary log.cycleBoundary approvedPlan unknown
    if unknown ≠ [] ∧ state.observations.any (fun o => o.summary = summary) = false then
      some (.recordVerifySelectionDrift summary)
    else none

/-- The approved selection leaves an optional step out. -/
def excludedBySelection (step : String) (stepConfig : VerifyStepConfig) : Option String :=
  match log.plan.approvedPlan with
  | none => none
  | some approvedPlan =>
    match approvedPlan.verifySteps with
    | none => none
    | some selected =>
      if log.unknownSelection config = [] ∧ step ∉ selected ∧ stepConfig.always ≠ some true then
        some ("excluded by approved plan selection (plan@" ++ toString approvedPlan.artifact.rev ++
          "): verify step " ++ Json.quote step ++ " was not selected")
      else none

/-- A pass or a skip satisfies a step for the cycle. -/
def LogIndex.satisfied (step : String) : Bool :=
  log.cycleResults.any fun v => v.step = step && v.outcome.satisfies

def memberDecision (step : String) : Option VerifyMemberDecision :=
  if log.satisfied step then none
  else
    match config.verify.stepConfigs.get? step with
    | none => none
    | some stepConfig =>
      let exclusion := log.cyclePolicy.bind fun policy =>
        policy.steps.find? fun s => s.step = step && !s.enabled
      match exclusion with
      | some exclusion =>
        some (.skipVerify step log.attempt
          ("skipped by post-reconcile policy: " ++ exclusion.source ++ " = false") true)
      | none =>
        match excludedBySelection log config step stepConfig with
        | some reason => some (.skipVerify step log.attempt reason false)
        | none =>
          some (gateByPaths step log.attempt stepConfig
            (verifyAction config step log.attempt stepConfig.kind
              (guidanceFeedback state log (.verify step))))

/-- The first step due, or with stages all of them that are due. -/
def membersDecision : Option Decision :=
  match stage with
  | some stage =>
    let members := (stage.unfinished.filter fun step => !heldVerifier state step).filterMap
      (memberDecision state log config)
    some (if members.isEmpty then .wait .verifyStage else .runVerifyStage members)
  | none => (config.verify.steps.findSome? (memberDecision state log config)).map .verify

/-- Absent once every step is satisfied in the cycle. -/
def verifyDecision : Option Decision :=
  (stageDecision state log stage).or <| (exhaustedDecision state log config stage).or <|
    (failRouteDecision state log stage).or <| (restackDecision state log).or <|
      (capturePolicyDecision log).or <| (driftDecision state log config).or <|
        membersDecision state log config stage

end Verify

/-! ## 8. Finalization and the epilogue -/

section Epilogue

variable (state : EngineFacts) (log : LogIndex) (config : Config)

/-- Post-steps are independent and failure-tolerant: any completion counts. -/
def finalizeStepDecision (step : String) : Option Decision :=
  if step ∈ log.finalizeStepsDone then none
  else
    (config.finalize.stepConfigs.get? step).map fun kind =>
      .runFinalizeStep step
        (match kind with
          | .check command => .check (config.resolveCommand command)
          | .agent skill => .agent skill)

def finalizeDecision : Option Decision :=
  if log.finalizeCompleted = false then some (.runPhase { phase := .finalize, round := 1 })
  else config.finalize.steps.findSome? (finalizeStepDecision log config)

/-- A retained resolver occurrence comes before a newly observed target. -/
def resumeReconcile : Option Decision :=
  if state.prState = some .conflicted then
    match log.conflictReconcileStarted with
    | some attempt => some (runReconcile attempt)
    | none =>
      match state.currentPhase with
      | some ctx =>
        if ctx.phase = .core .reconcile then
          some (runReconcile (ctx.attempt.getD state.reconcileAttempts))
        else none
      | none => none
  else none

/-- The target moved off the base of the last restack, or a post-step came after it. -/
def landingRestack : Option Decision :=
  match log.restack.target with
  | none => none
  | some target =>
    let base := (log.restack.completed.map (·.targetBase)).or log.restack.initialBase
    if some target.payload.sha ≠ base
        ∨ (state.target.isSome ∧ log.restack.postStepAt.getD 0 > log.restack.completedAt.getD 0)
    then some (.restack .awaitingLanding log.cycleBoundary)
    else none

/-- A repeat conflict is checked for progress; only reconciles that leave the pull request
conflicted against the same base consume the budget. -/
def repeatConflict (conflict : Nat) (completed : ReconcileCompletionRecord) : Option Decision :=
  if completed.completedSeq < conflict then
    match log.lastConflictProgressCheck.filter (·.attempt = completed.attempt) with
    | none =>
      some (.checkReconcileProgress conflict completed.attempt (state.reconcileAttempts + 1))
    | some progress =>
      if progress.baseSha = completed.baseSha
          ∧ log.reconcileNoProgressCount ≥ config.policy.maxReconcileAttempts
          ∧ reconcileNoProgressRaisedAfter state conflict = false then
        some (.raiseEscalation
          { source := .policy, policyCause := some .reconcileNoProgress,
            phase := .core .reconcile,
            question := "maxReconcileAttempts (" ++ toString config.policy.maxReconcileAttempts ++
              ") exhausted: reconciliation made no progress against an unchanged base" })
      else none
  else none

def conflictDecision : Option Decision :=
  match log.lastConflict with
  | none => none
  | some conflict =>
    if state.prState = some .conflicted then
      some ((log.lastReconcileCompleted.bind
        (repeatConflict state log config conflict)).getD
          (runReconcile (state.reconcileAttempts + 1)))
    else none

/-- Open: the janitor is watching.  Merged or closed: it completes the build. -/
def epilogueDecision : Decision :=
  ((finalizeDecision log config).or <| (resumeReconcile state log).or <|
    (landingRestack state log).or <| conflictDecision state log config).getD (.wait .awaitingPr)

end Epilogue

/-! ## 9. The transition table -/

section Table

variable (state : EngineFacts) (log : LogIndex) (config : Config)

/-- An unfinished replay still belongs to its reconcile: it is published before the new plan
loop opens. -/
def staleReconcile : Option Decision :=
  match state.currentPhase with
  | none => none
  | some ctx =>
    if ctx.phase = .core .reconcile ∧ ctx.seq < log.restartSeq then
      some (runReconcile (ctx.attempt.getD state.reconcileAttempts))
    else none

/-- Park until the spec is there, or revised as asked. -/
def specDecision : Option Decision :=
  if state.answeredEscalations.any (fun e =>
      e.resolution = .reviseSpec ∧ e.answeredSeq > log.restartSeq) then some (.wait .awaitingSpec)
  else if state.specRev = none then some (.wait .awaitingSpec)
  else staleReconcile state log

def decideWork (stage : Option ActiveStage) : Decision :=
  ((specDecision state log).or <| (decideLoop (planLoopArgs state log config)).or <|
    (decideLoop (codeLoopArgs state log config)).or <|
      verifyDecision state log config stage).getD (epilogueDecision state log config)

def decideNextInternal : Except String Decision :=
  let stage := engineStage state log config
  match (commandDecision state log).or (blockedDecision state log stage) with
  | some decision => .ok decision
  | none =>
    if state.kind = some .node then decideNode state log config stage
    else .ok (decideWork state log config stage)

/-- The completions of a member that was cancelled before them do not count. -/
def effectiveCompletions : LogIndex :=
  { log with verifyCompleted := log.verifyCompleted.filter fun r =>
      match state.verifyStage.cancellations.get? (verifyMemberKey r.step r.attempt) with
      | none => true
      | some cancellation => r.seq < cancellation.seq }

/-- The stage failure an implement round answers: the latest of the cycle, else the one the
round was started for. -/
def stageReceipt (round : Nat) : Option VerifyStageFailure :=
  let boundary := max (max log.restartSeq log.code.latestApproveSeq)
    (max log.lastReconcileCompletedSeq log.verifyConfigBoundary)
  ((state.verifyStage.failures.filter fun f =>
      f.payload.cycle ≥ boundary && f.seq > log.lastImplementCompletedSeq).getLast?).or
    (state.verifyStage.failures.find? fun f =>
      some f.seq = state.verifyStage.implementations.get? round)

/-- The report of the first failed member, unless a human answer is already the feedback. -/
def receiptFeedback (feedback : Option Feedback) (receipt : VerifyStageFailure) :
    Option Feedback :=
  match feedback with
  | some (.guidance escalation answer) => some (.guidance escalation answer)
  | _ => receipt.payload.failed.findSome? fun failed => failed.2.map (.verify failed.1)

def attachReceipt (decision : Decision) : Decision :=
  match decision with
  | .runPhase run =>
    if run.phase = .implement ∧ config.verify.stages ≠ none then
      match stageReceipt state log run.round with
      | none => decision
      | some receipt =>
        .runPhase { run with
          verifyStageFailure := some receipt.seq
          feedback := receiptFeedback run.feedback receipt }
    else decision
  | _ => decision

end Table

/-- `decideNext` over facts that are already reduced. -/
def decideNextFromFacts (state : BuildState) (log : LogIndex) (config : Config) :
    Except String Decision :=
  let facts := state.engineFacts
  (decideNextInternal facts (effectiveCompletions facts log) config).map
    (attachReceipt facts log config)

def decideNext (events : List StoredEvent) (config : Config) : Except String Decision := do
  let state ← reduceBuild events
  decideNextFromFacts state (indexLog (projectEvents events)) config

end Autobuild
