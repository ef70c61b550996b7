/-
# The build reducer

`foldBuild` advances the accumulator over a batch of events, then derives three fields from it
(`settle`); `finishBuild` derives the state.  A batch is folded by three loops:

* compatibility, over the stored events;
* the draining executions (`foldDraining`), over the known ones;
* everything else (`foldEvent`), over the known ones, where only the node ledger can throw.

`foldEvent` first feeds the sub-reducers, then dispatches on the family of the event.
-/
import Autobuild.Kernel.BuildState
import Autobuild.Kernel.NodePolling
import Mathlib.Algebra.Order.Ring.Unbundled.Rat

namespace Autobuild

/-! ## 1. Draining executions -/

/-- `execution.drain-authorized`: a correlation the entry already had is ignored. -/
def authorizeDrain (acc : BuildAcc) (payload : ExecutionDrainAuthorized) : BuildAcc :=
  let previous := acc.drainingExecutions.get? payload.instanceId
  if (previous.map fun p => decide (p.correlation = payload.correlation)
      || decide (payload.correlation ∈ p.correlations)).getD false then acc
  else
    let ended := acc.endedExecutionInstances.has payload.instanceId
    let entry : DrainExecution :=
      { correlations := match previous with
          | some p => p.correlations ++ [p.correlation]
          | none => []
        relaunch := previous.bind (·.relaunch)
        authorization := if ended then previous.bind (·.authorization) else some payload
        correlation := payload.correlation
        ended := ended || (previous.map (·.ended)).getD false
        suspended := (previous.map (·.suspended)).getD false }
    { acc with drainingExecutions := acc.drainingExecutions.set payload.instanceId entry }

/-- Change the entry of an instance, if it has one. -/
def updateDrain (acc : BuildAcc) (instanceId : String) (f : DrainExecution → DrainExecution) :
    BuildAcc :=
  match acc.drainingExecutions.get? instanceId with
  | some entry =>
    { acc with drainingExecutions := acc.drainingExecutions.set instanceId (f entry) }
  | none => acc

def requestRelaunch (payload : ExecutionRelaunchRequested) (entry : DrainExecution) :
    DrainExecution :=
  if entry.authorization.map (·.correlation) = some payload.correlation ∧ ¬entry.ended
  then { entry with relaunch := some payload } else entry

def suspendDraining (acc : BuildAcc) : BuildAcc :=
  { acc with drainingExecutions := acc.drainingExecutions.mapValues fun _ entry =>
      if entry.authorization.isSome ∧ ¬entry.ended then { entry with suspended := true }
      else entry }

def endExecution (acc : BuildAcc) (instanceId : String) : BuildAcc :=
  updateDrain
    { acc with endedExecutionInstances := acc.endedExecutionInstances.set instanceId () }
    instanceId (fun entry => { entry with ended := true, authorization := none })

def foldDraining (acc : BuildAcc) (event : AbEvent) : BuildAcc :=
  match event.body with
  | .build (.compatibilityDeferred boundary) =>
    { acc with compatibilityDeferredBoundary := boundary }
  | .execution (.drainAuthorized payload) => authorizeDrain acc payload
  | .execution (.relaunchRequested payload) =>
    updateDrain acc payload.instanceId (requestRelaunch payload)
  | .session (.suspended payload) =>
    if payload.cause = .shutdown then suspendDraining acc else acc
  | .execution (.ended instanceId) => endExecution acc instanceId
  | .execution (.drainSettled correlation instanceId) =>
    updateDrain acc instanceId fun entry =>
      if entry.correlation = correlation then { entry with authorization := none } else entry
  | _ => acc

/-! ## 2. Sub-reducers -/

def foldJanitor (acc : BuildAcc) : EventBody → BuildAcc
  | .build (.janitorAttemptFailed payload) =>
    { acc with janitor := some ⟨payload, (acc.janitor.map (·.attention)).getD false⟩ }
  | .build (.janitorFailing _) =>
    { acc with janitor := acc.janitor.map (fun janitor => { janitor with attention := true }) }
  | .build .janitorRecovered => { acc with janitor := none }
  | _ => acc

def foldTargetRewrite (acc : BuildAcc) (event : AbEvent) : BuildAcc :=
  match event.body with
  | .target (.rewritten _) => { acc with targetRewrite := some event }
  | .target (.moved _) => { acc with targetRewrite := none }
  | .target (.rewriteCleared _) => { acc with targetRewrite := none }
  | .node (.parentAccepted _) => { acc with targetRewrite := none }
  | _ => acc

def foldIntegration (acc : BuildAcc) (event : AbEvent) : BuildAcc :=
  match event.body with
  | .integration body =>
    { acc with integration := some (advanceIntegration (acc.integration.getD {}) event.seq body) }
  | _ => acc

/-- The events the node ledger sees: `node.*`, and on a node also `target.*`. -/
def reachesLedger (kind : Option BuildKind) : EventBody → Bool
  | .node _ => true
  | .target _ => decide (kind = some .node)
  | _ => false

/-- The node ledger after the event. -/
def nodeRestackAfter (kind : Option BuildKind) (nodeRestack : Option NodeRestackState)
    (event : AbEvent) : Except String (Option NodeRestackState) :=
  if reachesLedger kind event.body then do
    let state ← advanceNodeRestack (nodeRestack.getD {}) [event]
    return some state
  else .ok nodeRestack

/-! ## 3. Cancelled verify members take their escalations with them -/

/-- The cancellation of the member that the raising session owned. -/
def ownedCancellation (stage : VerifyStageState) (session : Option String) :
    Option VerifyCancellation :=
  (session.bind stage.owners.get?).bind stage.cancellations.get?

/-- Remove the first element with a property. -/
def spliceFirst {α : Type} (p : α → Bool) : List α → List α
  | [] => []
  | x :: xs => if p x then xs else x :: spliceFirst p xs

/-- The pending abort that an answered escalation had created. -/
def withdrawAbort (pending : PendingCommands) : AnyEscalation → PendingCommands
  | .answered escalation =>
    if escalation.resolution = .abort then
      { pending with
        abort := pending.abort.filter (fun command => command.seq ≠ escalation.answeredSeq) }
    else pending
  | .opened _ => pending

def supersedeOne (acc : BuildAcc) (escalation : AnyEscalation) : BuildAcc :=
  match ownedCancellation acc.verifyStage escalation.base.session with
  | none => acc
  | some cancellation =>
    let id := escalation.base.id
    { acc with
      pending := withdrawAbort acc.pending escalation
      openEscalations := Keyed.erase OpenEscalation.id id acc.openEscalations
      answeredEscalations := spliceFirst (fun e => e.id = id) acc.answeredEscalations
      verifyStage :=
        if acc.verifyStage.superseded.any (fun e => e.1.base.id = id) then acc.verifyStage
        else { acc.verifyStage with
          superseded := acc.verifyStage.superseded ++ [(escalation, cancellation)] } }

/-- `verify.cancelled`: over a snapshot of the open and answered escalations. -/
def foldSuperseded (acc : BuildAcc) : EventBody → BuildAcc
  | .verify (.cancelled _) =>
    (acc.openEscalations.map AnyEscalation.opened
        ++ acc.answeredEscalations.map AnyEscalation.answered).foldl
      supersedeOne acc
  | _ => acc

/-- What one escalation keeps, the event keeps. -/
theorem foldSuperseded_keeps {P : BuildAcc → Prop}
    (hone : ∀ acc escalation, P acc → P (supersedeOne acc escalation)) {acc : BuildAcc}
    (body : EventBody) (h : P acc) : P (foldSuperseded acc body) := by
  unfold foldSuperseded
  split
  · exact List.foldlRecOn _ _ h fun acc hacc escalation _ => hone acc escalation hacc
  · exact h

/-! ## 4. Phases -/

def startPhase (acc : BuildAcc) (ctx : PhaseContext) : BuildAcc :=
  { acc with currentPhase := some ctx }

/-- Terminal event for a phase: record completion, close the current context if it is this
phase. -/
def completePhase (acc : BuildAcc) (ctx : PhaseContext) : BuildAcc :=
  { acc with
    lastCompletedPhase := some ctx
    currentPhase := acc.currentPhase.filter (fun current => current.phase ≠ ctx.phase) }

/-- A context that carries a round. -/
def roundContext (phase : CorePhase) (round seq : Nat) : PhaseContext :=
  ⟨.core phase, some round, none, seq⟩

/-- A context that carries an attempt. -/
def attemptContext (phase : Phase) (attempt : Nat) (seq : Nat) : PhaseContext :=
  ⟨phase, none, some attempt, seq⟩

/-- Pad to the round and put the findings there; round zero is no index. -/
def setFindings (per : List (List Finding)) (round : Nat) (findings : List Finding) :
    List (List Finding) :=
  if round = 0 then per
  else (per ++ List.replicate (round - per.length) []).set (round - 1) findings

def raiseCycle (acc : BuildAcc) (seq : Nat) : BuildAcc :=
  { acc with verify := { acc.verify with cycleSince := max acc.verify.cycleSince seq } }

def foldPlanEvent (acc : BuildAcc) (seq : Nat) : PlanEvent → BuildAcc
  | .started payload =>
    startPhase { acc with round := payload.round, plan := { acc.plan with round := payload.round } }
      (roundContext .plan payload.round seq)
  | .completed payload =>
    completePhase
      { acc with
        round := payload.round
        plan := { acc.plan with
          round := payload.round, artifactRev := some payload.artifact.rev } }
      (roundContext .plan payload.round seq)

def foldPlanReviewEvent (acc : BuildAcc) (seq : Nat) : ReviewEvent → BuildAcc
  | .started round => startPhase { acc with round := round } (roundContext .planReview round seq)
  | .verdict payload =>
    let approved := decide (payload.verdict = .approve)
    completePhase
      { acc with
        round := payload.round
        plan := { acc.plan with
          approved := approved
          approval := if approved then some ⟨seq, payload.round⟩ else none }
        planReviewFindings := setFindings acc.planReviewFindings payload.round payload.findings }
      (roundContext .planReview payload.round seq)

def foldImplementEvent (acc : BuildAcc) (seq : Nat) : ImplementEvent → BuildAcc
  | .started payload =>
    startPhase
      { acc with
        round := payload.round, implement := { acc.implement with round := payload.round } }
      (roundContext .implement payload.round seq)
  | .completed payload =>
    completePhase
      { acc with
        round := payload.round
        implement :=
          { round := payload.round
            commits := some payload.commits
            artifactRev := some payload.artifact.rev } }
      (roundContext .implement payload.round seq)

/-- An approve opens a new verify cycle; a later revise clears the approval only. -/
def foldCodeReviewEvent (acc : BuildAcc) (seq : Nat) : ReviewEvent → BuildAcc
  | .started round => startPhase { acc with round := round } (roundContext .codeReview round seq)
  | .verdict payload =>
    let approved := decide (payload.verdict = .approve)
    let acc := if approved then raiseCycle acc seq else acc
    completePhase
      { acc with
        round := payload.round
        codeReviewApproved := approved
        codeReviewApproval := if approved then some ⟨seq, payload.round⟩ else none
        codeReviewFindings := setFindings acc.codeReviewFindings payload.round payload.findings }
      (roundContext .codeReview payload.round seq)

/-- A completion of a cancelled member is ignored. -/
def foldVerifyCompleted (acc : BuildAcc) (seq : Nat) (payload : VerifyCompleted) : BuildAcc :=
  let result := normalizeVerifyCompletion payload
  if acc.verifyStage.hasCancellation (verifyMemberKey result.step result.attempt) then acc
  else
    completePhase
      { acc with
        verify := { acc.verify with
          maxAttemptSeen := max acc.verify.maxAttemptSeen result.attempt
          results := acc.verify.results ++ [⟨result, seq⟩]
          currentStep := acc.verify.currentStep.filter (fun step => step ≠ result.step) } }
      (attemptContext (verifyPhase result.step) result.attempt seq)

/-- A cancellation ends its member's phase if it is the one that stands. -/
def foldVerifyCancelled (acc : BuildAcc) (seq : Nat) (payload : VerifyCancelled) : BuildAcc :=
  let cancellation :=
    acc.verifyStage.cancellations.get? (verifyMemberKey payload.step payload.attempt)
  if cancellation.map (·.seq) = some seq then
    completePhase acc (attemptContext (verifyPhase payload.step) payload.attempt seq)
  else acc

def foldVerifyEvent (acc : BuildAcc) (seq : Nat) : VerifyEvent → BuildAcc
  | .configCaptured payload =>
    raiseCycle { acc with verify := { acc.verify with configPin := some ⟨payload, seq⟩ } } seq
  | .configSuperseded _ => raiseCycle acc seq
  | .started payload =>
    startPhase
      { acc with
        verify := { acc.verify with
          maxAttemptSeen := max acc.verify.maxAttemptSeen payload.attempt
          currentStep := some payload.step } }
      (attemptContext (verifyPhase payload.step) payload.attempt seq)
  | .completed payload => foldVerifyCompleted acc seq payload
  | .cancelled payload => foldVerifyCancelled acc seq payload
  | .reconcilePolicyCaptured _ => acc
  | .stageFailed _ => acc

/-- `issueLinksSealedSeq ??= seq`. -/
def sealIssueLinks (acc : BuildAcc) (seq : Nat) : BuildAcc :=
  { acc with issueLinksSealedSeq := some (acc.issueLinksSealedSeq.getD seq) }

def foldFinalizeEvent (acc : BuildAcc) (seq : Nat) : FinalizeEvent → BuildAcc
  | .stepStarted => acc
  | .started => startPhase acc ⟨.core .finalize, none, none, seq⟩
  | .completed pr =>
    completePhase
      { sealIssueLinks acc seq with
        pr := some pr, prState := some .opened, finalizeCompletedSeq := seq }
      ⟨.core .finalize, none, none, seq⟩
  | .stepCompleted payload =>
    { acc with finalizeSteps := acc.finalizeSteps ++ [⟨payload.step, payload.ok, seq⟩] }

/-! ## 5. Restacks and reconciles -/

/-- The contribution of a work build after a rewrite. -/
def rewriteCommits (acc : BuildAcc) (base head : String) : BuildAcc :=
  if acc.kind ≠ some .node ∧ acc.implement.commits.isSome then
    { acc with implement := { acc.implement with commits := some ⟨base, head⟩ } }
  else acc

def setPrHead (acc : BuildAcc) (head : String) : BuildAcc :=
  { acc with pr := acc.pr.map (fun pr => { pr with headSha := head }) }

/-- A conflicted request is open again. -/
def reopenPr (acc : BuildAcc) : BuildAcc :=
  { acc with prState := if acc.prState = some .conflicted then some .opened else acc.prState }

def foldRestackEvent (acc : BuildAcc) : RestackEvent → BuildAcc
  | .rewritten payload =>
    setPrHead (rewriteCommits acc payload.targetBase payload.headSha)
      (payload.observedHead.getD payload.headSha)
  | .completed payload =>
    setPrHead (reopenPr (rewriteCommits acc payload.targetBase payload.headSha)) payload.headSha
  | _ => acc

/-- The attempt of the phase in flight, if that is a reconcile. -/
def reconcileAttempt (current : Option PhaseContext) : Option Nat :=
  (current.filter (fun ctx => ctx.phase = .core .reconcile)).bind (·.attempt)

/-- The terminal payload has no attempt; the phase in flight has. -/
def foldReconcileCompleted (acc : BuildAcc) (seq : Nat) (payload : ReconcileCompleted) :
    BuildAcc :=
  let acc := match payload with
    | .rewrite headSha _ _ => if acc.kind ≠ some BuildKind.node then setPrHead acc headSha else acc
    | .merge _ _ => acc
  let attempt := reconcileAttempt acc.currentPhase
  completePhase (raiseCycle (reopenPr acc) seq) ⟨.core .reconcile, none, attempt, seq⟩

def foldReconcileEvent (acc : BuildAcc) (seq : Nat) : ReconcileEvent → BuildAcc
  | .started payload =>
    startPhase { acc with reconcileAttempts := max acc.reconcileAttempts payload.attempt }
      (attemptContext (.core .reconcile) payload.attempt seq)
  | .rewritten payload =>
    setPrHead (rewriteCommits acc payload.targetBase payload.headSha)
      (payload.observedHead.getD payload.headSha)
  | .completed payload => foldReconcileCompleted acc seq payload
  | _ => acc

/-! ## 6. Nodes, pull requests, the build itself -/

/-- Acceptance of a parent re-targets the node and drops what was observed of the former. -/
def acceptNodeParent (acc : BuildAcc) (payload : ParentChange) : BuildAcc :=
  if acc.kind = some .node then
    { acc with
      target := payload.next.target
      baseBranch := some payload.next.branch
      nodeComparison := none
      integration := acc.integration.map fun integration =>
        { integration with cycle := none, observation := none } }
  else acc

def foldNodeEvent (acc : BuildAcc) (seq ts : Nat) : NodeEvent → BuildAcc
  | .parentAccepted payload => acceptNodeParent acc payload
  | .opening payload => { acc with nodeOpening := some payload }
  | .opened sha => { acc with nodeOpened := some sha }
  | .pollChecked payload => { acc with nodePolling := some (payload, ts) }
  | .compared payload => { acc with nodeComparison := some payload }
  | .issueLinksRecorded build issueLinks =>
    { acc with
      nodeIssueLinks := some (recordIssueLinks (acc.nodeIssueLinks.getD {}) build issueLinks) }
  | .issueLinksPublished pr issueLinks =>
    { acc with
      nodeIssueLinks := some { acc.nodeIssueLinks.getD {} with
        published := some ⟨pr, issueLinks, seq⟩ } }
  | .rewritten payload =>
    setPrHead
      { acc with
        nodeComparison := acc.nodeComparison.map fun comparison =>
          { comparison with headSha := payload.head } }
      payload.head
  | _ => acc

def foldPrEvent (acc : BuildAcc) : PrEvent → BuildAcc
  | .opened pr => { acc with pr := some pr, prState := some .opened }
  | .autoMergeEnabled commandSeq =>
    { acc with autoMerge := { acc.autoMerge with applied := some (true, commandSeq) } }
  | .autoMergeDisabled commandSeq =>
    { acc with autoMerge := { acc.autoMerge with applied := some (false, commandSeq) } }
  | .merged sha => { acc with mergedSha := some sha, prState := some .merged }
  | .closed => { acc with prState := some .closed }
  | .conflicted _ => { acc with prState := some .conflicted }

def createBuild (acc : BuildAcc) (payload : BuildCreated) : BuildAcc :=
  { acc with
    kind := payload.kind
    target := payload.target
    baseBranch := some payload.baseBranch
    pinnedAssets := payload.assets.getD []
    issueLinks := (payload.issueLinks.getD []).map (fun link => ⟨link.issue, link.intent, none⟩) }

/-- One-way and only before the seal: any other downgrade is inert. -/
def downgradeIssueLink (acc : BuildAcc) (seq issue : Nat) (reason : String) : BuildAcc :=
  if acc.issueLinksSealedSeq.isSome then acc
  else
    { acc with issueLinks := acc.issueLinks.map fun link =>
        if link.issue = issue ∧ link.intent = .closes then ⟨issue, .refs, some (reason, seq)⟩
        else link }

/-- `if (payload.defaultSeq !== undefined) autoMerge.defaultSeq = payload.defaultSeq`. -/
def noteDefault (autoMerge : AutoMergeProjection) (defaultSeq : Option Nat) :
    AutoMergeProjection :=
  { autoMerge with defaultSeq := defaultSeq.or autoMerge.defaultSeq }

def requestAutoMerge (autoMerge : AutoMergeProjection) (seq : Nat) (payload : AutoMergeCommand) :
    AutoMergeProjection :=
  noteDefault
    { autoMerge with
      explicitCommandSeq := if payload.integrationConsent then some seq
        else autoMerge.explicitCommandSeq
      requested := true
      commandSeq := some seq }
    payload.defaultSeq

def cancelAutoMerge (autoMerge : AutoMergeProjection) (seq : Nat) (payload : AutoMergeCommand) :
    AutoMergeProjection :=
  noteDefault { autoMerge with requested := false, commandSeq := some seq } payload.defaultSeq

/-- A fan-out that changes nothing still advances the provenance, never backwards. -/
def observeDefault (autoMerge : AutoMergeProjection) (defaultSeq : Nat) : AutoMergeProjection :=
  if defaultSeq > autoMerge.defaultSeq.getD 0 then
    { autoMerge with defaultSeq := some defaultSeq }
  else autoMerge

/-- A pause countermands a pending resume and the other way round; an acknowledgement clears
the requests of its kind. -/
def foldBuildEvent (acc : BuildAcc) (seq : Nat) (actor : Actor) : BuildEvent → BuildAcc
  | .created payload => createBuild acc payload
  | .completed outcome => { acc with terminal := some .done, outcome := some outcome }
  | .pauseRequested reason =>
    { acc with pending := { acc.pending with
        resume := [], pause := acc.pending.pause ++ [⟨.pause, seq, reason, actor⟩] } }
  | .resumeRequested reason =>
    { acc with pending := { acc.pending with
        pause := [], resume := acc.pending.resume ++ [⟨.resume, seq, reason, actor⟩] } }
  | .abortRequested reason =>
    { acc with pending := { acc.pending with
        abort := acc.pending.abort ++ [⟨.abort, seq, reason, actor⟩] } }
  | .discardRequested => { acc with discardRequested := some ⟨seq, actor⟩ }
  | .autoMergeRequested payload =>
    { acc with autoMerge := requestAutoMerge acc.autoMerge seq payload }
  | .autoMergeCancelled payload =>
    { acc with autoMerge := cancelAutoMerge acc.autoMerge seq payload }
  | .autoMergeDefaultObserved defaultSeq =>
    { acc with autoMerge := observeDefault acc.autoMerge defaultSeq }
  | .paused => { acc with pausedFlag := true, pending := { acc.pending with pause := [] } }
  | .resumed => { acc with pausedFlag := false, pending := { acc.pending with resume := [] } }
  | .aborted => { acc with terminal := some .aborted, pending := { acc.pending with abort := [] } }
  | _ => acc

/-- A revision restarts leaves from plan and nodes from collection: it is also a boundary of
the verify cycle, and the human-selected ceilings end with the old spec. -/
def reviseSpec (acc : BuildAcc) (seq : Nat) (artifact : ArtifactRef)
    (assets : Option (List PinnedAsset)) : BuildAcc :=
  raiseCycle
    { acc with
      specRev := some artifact.rev
      pinnedAssets := assets.getD acc.pinnedAssets
      restartSince := seq
      reviewRoundCeilings := {} }
    seq

def foldSpecEvent (acc : BuildAcc) (seq : Nat) : SpecEvent → BuildAcc
  | .imported artifact => { acc with specRev := some artifact.rev }
  | .authored artifact => { acc with specRev := some artifact.rev }
  | .revised artifact assets => reviseSpec acc seq artifact assets

/-! ## 7. Runners, executions, infrastructure -/

def foldRunnerEvent (acc : BuildAcc) (seq : Nat) : RunnerEvent → BuildAcc
  | .attached => { acc with attached := true, setupFailure := none }
  | .setupFailed payload =>
    { acc with
      setupFailures := acc.setupFailures ++ [⟨payload, seq⟩]
      setupFailure := some ⟨payload, seq⟩ }
  | .runtimeRecorded => acc

def foldExecutionEvent (acc : BuildAcc) (seq : Nat) : ExecutionEvent → BuildAcc
  | .started payload =>
    { acc with
      executions := acc.executions ++ [⟨payload, seq⟩]
      infrastructureFailure := none }
  | .ended _ => { acc with infrastructureFailure := none }
  | _ => acc

/-- A cleanup that settled the workspace of the current failure clears it. -/
def attemptCleanup (acc : BuildAcc) (seq : Nat) (payload : InfrastructureCleanupAttempted) :
    BuildAcc :=
  { acc with
    cleanupAttempts := acc.cleanupAttempts ++ [⟨payload, seq⟩]
    infrastructureFailure :=
      if payload.outcome = .unknown then acc.infrastructureFailure
      else acc.infrastructureFailure.filter fun failure =>
        failure.payload.workspaceRef ≠ payload.workspaceRef }

def foldInfrastructureEvent (acc : BuildAcc) (seq : Nat) : InfrastructureEvent → BuildAcc
  | .failed payload =>
    { acc with
      infrastructureFailures := acc.infrastructureFailures ++ [⟨payload, seq⟩]
      infrastructureFailure := some ⟨payload, seq⟩ }
  | .cleanupAttempted payload => attemptCleanup acc seq payload

/-! ## 8. Sessions -/

def noTotals : LogicalSessionTotals := ⟨0, none, []⟩

/-- The logical session a session belongs to. -/
def OpenSession.root (session : OpenSession) : String :=
  (session.continuation.map (·.root)).getD session.session

def openSession? (acc : BuildAcc) (session : String) : Option OpenSession :=
  Keyed.find? OpenSession.session session acc.openSessions

def putSession (acc : BuildAcc) (session : OpenSession) : BuildAcc :=
  { acc with openSessions := Keyed.put OpenSession.session session acc.openSessions }

/-- A session is no longer open, nor suspended. -/
def dropSession (acc : BuildAcc) (session : String) : BuildAcc :=
  { acc with
    suspendedSessions := Keyed.erase OpenSession.session session acc.suspendedSessions
    openSessions := Keyed.erase OpenSession.session session acc.openSessions }

/-- Session ids are minted: a root named as a plain object inherits it is left out. -/
def updateTotals (acc : BuildAcc) (root : String)
    (f : LogicalSessionTotals → LogicalSessionTotals) : BuildAcc :=
  { acc with
    sessionTotals := acc.sessionTotals.set root (f ((acc.sessionTotals.get? root).getD noTotals)) }

def addUsage (totals : LogicalSessionTotals) (usage : SessionUsage) : LogicalSessionTotals :=
  let previous := totals.usage.getD ⟨0, 0, 0⟩
  let added : SessionUsage :=
    { inputTokens := previous.inputTokens + usage.inputTokens
      outputTokens := previous.outputTokens + usage.outputTokens
      turns := previous.turns + usage.turns }
  { totals with usage := some added }

/-- One more stretch of a logical session. -/
def addStretch (activeMs : Rat) (transcript : ArtifactRef) (usage : Option SessionUsage)
    (totals : LogicalSessionTotals) : LogicalSessionTotals :=
  let totals := { totals with
    activeMs := totals.activeMs + activeMs, transcripts := totals.transcripts ++ [transcript] }
  match usage with
  | some usage => addUsage totals usage
  | none => totals

def openedSession (payload : SessionStarted) (seq ts : Nat) : OpenSession where
  nativeHandle := payload.continuation.map (·.handle)
  continuation := payload.continuation
  budgetMs := payload.budgetMs
  account := payload.account
  args := payload.args
  startedAt := ts
  nativeResumeFallback := false
  resumed := false
  suspensionCause := none
  suspendedActiveMs := none
  session := payload.session
  role := payload.role
  runner := payload.runner
  model := payload.model
  phase := payload.phase
  round := payload.round
  stream := payload.stream
  prompt := payload.prompt
  seq := seq

/-- A continuation carries its handle over and replaces its predecessor. -/
def continueSession (acc : BuildAcc) (session : String) : Option SessionContinuation → BuildAcc
  | none => acc
  | some continuation =>
    dropSession
      { acc with nativeHandles := acc.nativeHandles.set session continuation.handle }
      continuation.predecessor

def foldSessionStarted (acc : BuildAcc) (seq ts : Nat) (payload : SessionStarted) : BuildAcc :=
  let root := (payload.continuation.map (·.root)).getD payload.session
  let activeMs := (payload.continuation.map (·.activeMs)).getD 0
  let acc := updateTotals acc root fun totals =>
    { totals with activeMs := max totals.activeMs activeMs }
  putSession (continueSession acc payload.session payload.continuation)
    (openedSession payload seq ts)

def foldHandleRecorded (acc : BuildAcc) (payload : SessionHandleRecorded) : BuildAcc :=
  match openSession? acc payload.session with
  | none => acc
  | some opened =>
    if opened.phase = payload.phase ∧ opened.round = payload.round ∧ opened.nativeHandle = none
    then
      putSession
        { acc with nativeHandles := acc.nativeHandles.set payload.session payload.handle }
        { opened with nativeHandle := some payload.handle }
    else acc

/-- Its phase completed after the session was opened. -/
def completedSince (last : Option PhaseContext) (opened : OpenSession) : Bool :=
  (last.map fun ctx => decide (ctx.phase = opened.phase ∧ ctx.seq > opened.seq)).getD false

def suspendedSession (opened : OpenSession) (payload : SessionSuspended) : OpenSession :=
  { opened with
    nativeHandle := payload.handle.or opened.nativeHandle
    suspensionCause := some payload.cause
    suspendedActiveMs := some payload.activeMs }

def foldSessionSuspended (acc : BuildAcc) (payload : SessionSuspended) : BuildAcc :=
  match openSession? acc payload.session with
  | none => acc
  | some opened =>
    if opened.phase = payload.phase ∧ opened.round = payload.round
        ∧ completedSince acc.lastCompletedPhase opened = false then
      let acc := updateTotals acc opened.root
        (addStretch payload.activeMs payload.transcript payload.usage)
      { acc with
        suspendedSessions := Keyed.put OpenSession.session (suspendedSession opened payload)
          acc.suspendedSessions
        openSessions := Keyed.erase OpenSession.session opened.session acc.openSessions }
    else acc

def foldResumeFallback (acc : BuildAcc) (payload : SessionResumeFallback) : BuildAcc :=
  if payload.stale then acc
  else
    let acc := { acc with
      suspendedSessions :=
        Keyed.erase OpenSession.session payload.session acc.suspendedSessions }
    match openSession? acc payload.session with
    | none => acc
    | some opened =>
      putSession acc
        { opened with nativeHandle := none, resumed := false, nativeResumeFallback := true }

/-- A resumption is confirmed by the serialized handle it names. -/
def confirmsResume (opened : OpenSession) (payload : SessionResumed) : Bool :=
  !payload.stale && !opened.nativeResumeFallback &&
    match opened.continuation with
    | none => false
    | some continuation =>
      decide (continuation.predecessor = payload.predecessor)
        && decide (continuation.root = payload.root)
        && decide (opened.nativeHandle.map (·.stringify) = some payload.handle.stringify)

def foldSessionResumed (acc : BuildAcc) (payload : SessionResumed) : BuildAcc :=
  match openSession? acc payload.session with
  | none => acc
  | some opened =>
    if confirmsResume opened payload then putSession acc { opened with resumed := true } else acc

/-- Without a recorded activity the wall clock counts. -/
def foldSessionEnded (acc : BuildAcc) (ts : Nat) (payload : SessionEnded) : BuildAcc :=
  let acc := match openSession? acc payload.session, payload with
    | some opened, .ended _ activeMs transcript usage =>
      updateTotals acc opened.root
        (addStretch (activeMs.getD ((ts - opened.startedAt : Nat) : Rat)) transcript (some usage))
    | _, _ => acc
  dropSession acc payload.session

def foldSessionEvent (acc : BuildAcc) (seq ts : Nat) : SessionEvent → BuildAcc
  | .started payload => foldSessionStarted acc seq ts payload
  | .nativeHandleRecorded payload => foldHandleRecorded acc payload
  | .suspended payload => foldSessionSuspended acc payload
  | .resumeFallback payload => foldResumeFallback acc payload
  | .resumed payload => foldSessionResumed acc payload
  | .ended payload => foldSessionEnded acc ts payload
  | .buildReadFailed _ => acc
  | .buildReadRecovered _ => acc

/-! ## 9. Escalations -/

def raisedEscalation (seq : Nat) (actor : Actor) (payload : EscalationRaised) :
    OpenEscalation where
  id := payload.id
  phase := payload.phase
  round := payload.round
  source := payload.source
  session := match actor with
    | .agent _ session => some session
    | _ => none
  policyCause := payload.policyCause
  deferral := false
  question := payload.question
  refs := payload.refs
  seq := seq

/-- `phase.deferral-escalated` raises a policy escalation of its own. -/
def deferralEscalation (seq : Nat) (payload : PhaseDeferralEscalated) : OpenEscalation where
  id := payload.id
  phase := .phase payload.phase
  round := some payload.round
  source := .policy
  session := none
  policyCause := none
  deferral := true
  question := payload.question
  refs := some payload.refs
  seq := seq

def openEscalation (acc : BuildAcc) (escalation : OpenEscalation) : BuildAcc :=
  { acc with openEscalations := Keyed.put OpenEscalation.id escalation acc.openEscalations }

/-- A raise by a session whose member is cancelled is superseded at once. -/
def foldEscalationRaised (acc : BuildAcc) (seq : Nat) (actor : Actor)
    (payload : EscalationRaised) : BuildAcc :=
  let escalation := raisedEscalation seq actor payload
  match ownedCancellation acc.verifyStage escalation.session with
  | some cancellation =>
    { acc with verifyStage := { acc.verifyStage with
        superseded := acc.verifyStage.superseded ++ [(.opened escalation, cancellation)] } }
  | none => openEscalation acc escalation

def answeredEscalation (opened : OpenEscalation) (seq : Nat) (payload : EscalationAnswered) :
    AnsweredEscalation :=
  { opened with
    answer := payload.answer
    resolution := payload.resolution
    artifact := payload.artifact
    assets := payload.assets
    reviewRoundCeiling := payload.reviewRoundCeiling
    answeredSeq := seq }

/-- The ceiling a human answers a round limit with. -/
def raiseCeiling (ceilings : ReviewRoundCeilings) (opened : OpenEscalation)
    (ceiling : Option Nat) : ReviewRoundCeilings :=
  if ceiling.isSome ∧ opened.source = .policy ∧ opened.policyCause = some .reviewRoundLimit then
    if opened.phase = .phase (.core .planReview) then { ceilings with plan := ceiling }
    else if opened.phase = .phase (.core .codeReview) then { ceilings with code := ceiling }
    else ceilings
  else ceilings

/-- Matched by id; an answer without an open raise is ignored.  An abort is projected as the
pending command an explicit request creates. -/
def foldEscalationAnswered (acc : BuildAcc) (seq : Nat) (actor : Actor)
    (payload : EscalationAnswered) : BuildAcc :=
  match Keyed.find? OpenEscalation.id payload.id acc.openEscalations with
  | none => acc
  | some opened =>
    { acc with
      openEscalations := Keyed.erase OpenEscalation.id payload.id acc.openEscalations
      answeredEscalations := acc.answeredEscalations ++ [answeredEscalation opened seq payload]
      reviewRoundCeilings :=
        raiseCeiling acc.reviewRoundCeilings opened payload.reviewRoundCeiling
      pending := if payload.resolution = .abort then
          { acc.pending with
            abort := acc.pending.abort ++ [⟨.abort, seq, some payload.answer, actor⟩] }
        else acc.pending }

/-! ## 10. One event -/

def foldPhaseEvent (acc : BuildAcc) (seq : Nat) : PhaseEvent → BuildAcc
  | .deferred _ => acc
  | .deferralEscalated payload => openEscalation acc (deferralEscalation seq payload)
  | .failed payload =>
    { acc with
      failures := acc.failures.set payload.phase ((acc.failures.get? payload.phase).getD 0 + 1) }

/-- The switch on the type of the event. -/
def foldFacts (acc : BuildAcc) (event : AbEvent) : BuildAcc :=
  match event.body with
  | .build body => foldBuildEvent acc event.seq event.actor body
  | .landing _ => acc
  | .node body => foldNodeEvent acc event.seq event.ts body
  | .integration body =>
    match body with
    | .prepared _ => raiseCycle acc event.seq
    | _ => acc
  | .pr body => foldPrEvent acc body
  | .runner body => foldRunnerEvent acc event.seq body
  | .workspace _ => acc
  | .execution body => foldExecutionEvent acc event.seq body
  | .infrastructure body => foldInfrastructureEvent acc event.seq body
  | .dispatchFailed payload =>
    { acc with dispatchFailures := acc.dispatchFailures ++ [⟨payload, event.seq⟩] }
  | .publication body =>
    match body with
    | .requested operation =>
      if operation = .finalize then sealIssueLinks acc event.seq else acc
    | _ => acc
  | .spec body => foldSpecEvent acc event.seq body
  | .session body => foldSessionEvent acc event.seq event.ts body
  | .plan body => foldPlanEvent acc event.seq body
  | .planReview body => foldPlanReviewEvent acc event.seq body
  | .implement body => foldImplementEvent acc event.seq body
  | .codeReview body => foldCodeReviewEvent acc event.seq body
  | .verify body => foldVerifyEvent acc event.seq body
  | .finalize body => foldFinalizeEvent acc event.seq body
  | .target _ => acc
  | .restack body => foldRestackEvent acc body
  | .reconcile body => foldReconcileEvent acc event.seq body
  | .issueLinkDowngraded issue reason => downgradeIssueLink acc event.seq issue reason
  | .observationRecorded payload =>
    { acc with observations := acc.observations ++ [payload] }
  | .escalationRaised payload => foldEscalationRaised acc event.seq event.actor payload
  | .escalationAnswered payload => foldEscalationAnswered acc event.seq event.actor payload
  | .phase body => foldPhaseEvent acc event.seq body
  | .plain body =>
    match body with
    | .issueLinksSealed => sealIssueLinks acc event.seq
    | _ => acc

/-- The part of an event before the ledger, which may throw. -/
def foldActivity (acc : BuildAcc) (event : AbEvent) : BuildAcc :=
  let acc := { acc with
    pollingActivity := some (advancePollingActivity (acc.pollingActivity.getD ∅) event) }
  let acc := foldTargetRewrite (foldJanitor acc event.body) event
  let acc := { acc with landing := advanceLanding acc.landing event }
  foldIntegration acc event

/-- The part of an event after the ledger. -/
def foldProjection (acc : BuildAcc) (event : AbEvent) : BuildAcc :=
  let acc := { acc with verifyStage := advanceVerifyStage acc.verifyStage event }
  { foldFacts (foldSuperseded acc event.body) event with lastEvent := some event }

def foldEvent (acc : BuildAcc) (event : AbEvent) : Except String BuildAcc := do
  let acc := foldActivity acc event
  let nodeRestack ← nodeRestackAfter acc.kind acc.nodeRestack event
  return foldProjection { acc with nodeRestack := nodeRestack } event

/-! ## 11. A batch, and the state -/

def memberContext (member : VerifyMember) : PhaseContext :=
  attemptContext (verifyPhase member.payload.step) member.payload.attempt member.seq

/-- `!currentPhase || currentPhase.phase.startsWith('verify:')`. -/
def yieldsToVerify : Option PhaseContext → Bool
  | none => true
  | some ctx => ctx.phase.isVerify

def settleRunning (acc : BuildAcc) (running : List VerifyMember) : BuildAcc :=
  if acc.verifyStage.members.size = 0 then acc
  else { acc with verify := { acc.verify with running := some (running.map (·.payload.step)) } }

/-- In a concurrent cycle the current step is that of the last running member, and so is the
current phase unless it is a core phase. -/
def settleCurrent (acc : BuildAcc) (running : List VerifyMember) : BuildAcc :=
  if acc.verifyStage.concurrent then
    match running.getLast? with
    | none => { acc with verify := { acc.verify with currentStep := none } }
    | some member =>
      { acc with
        verify := { acc.verify with currentStep := some member.payload.step }
        currentPhase :=
          if yieldsToVerify acc.currentPhase then some (memberContext member)
          else acc.currentPhase }
  else acc

/-- What the end of a batch derives. -/
def settle (acc : BuildAcc) : BuildAcc :=
  let running := runningVerifyMembers acc.verifyStage acc.verify.cycleSince
  settleCurrent (settleRunning acc running) running

/-- The loops over a batch, without what its end derives. -/
def foldEvents (acc : BuildAcc) (events : List StoredEvent) : Except String BuildAcc :=
  let acc := { acc with compatibility := advanceCompatibility acc.compatibility events }
  (projectEvents events).foldlM foldEvent ((projectEvents events).foldl foldDraining acc)

def foldBuild (acc : BuildAcc) (events : List StoredEvent) : Except String BuildAcc := do
  let acc ← foldEvents acc events
  return settle acc

/-- Terminal, then paused, then blocked, then running. -/
def buildStatus (acc : BuildAcc) : BuildStatus :=
  match acc.terminal with
  | some .done => .done
  | some .aborted => .aborted
  | none =>
    if acc.pausedFlag then .paused
    else if acc.openEscalations ≠ [] ∨ integrationFailed acc.cycleState = true then .blocked
    else if acc.kind = some .node ∧ acc.nodeOpened.isSome then .collecting
    else if acc.attached then .running
    else .queued

def finishBuild (acc : BuildAcc) : BuildState :=
  { acc.toBuildFacts with
    status := buildStatus acc
    phase := (acc.currentPhase.or acc.lastCompletedPhase).map (·.phase)
    lastSeq := max ((acc.lastEvent.map (·.seq)).getD 0) acc.compatibility.lastSeq
    discardRequest := if acc.terminal = none then acc.discardRequested else none
    pendingCommands :=
      (acc.pending.pause ++ acc.pending.resume ++ acc.pending.abort).insertionSort
        (fun a b => a.seq ≤ b.seq) }

def reduceBuild (events : List StoredEvent) : Except String BuildState := do
  let acc ← foldBuild initialBuildAcc events
  return finishBuild acc

end Autobuild
