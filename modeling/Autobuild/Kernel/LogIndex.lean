/-
# The index of a log

What the engine reads of a log beyond the build state.  The restart boundary, the seq of the
last `spec.revised`, is only known once the whole log is read, and what counts for the loops and
for verification is what came after it.

* `LogIndexAcc` keeps what never depends on the boundary, and in log order the candidates for
  what does.
* `finishLogIndex` replays the candidates after the boundary (`replayCandidate`).
-/
import Autobuild.Kernel.LeafRestackState
import Autobuild.Kernel.ReadDeferrals
import Autobuild.Kernel.VerifyStageState

namespace Autobuild

open ObjectMap

/-! ## 1. Records -/

structure VerdictRecord where
  seq : Nat
  round : Nat
  verdict : ReviewVerdictKind
  findings : List Finding
  reason : Option String

structure PlanCompletionRecord where
  seq : Nat
  artifact : ArtifactRef
  verifySteps : Option (List String)

structure RoundRecord where
  startedSeq : Option Nat := none
  completedSeq : Option Nat := none
  /-- Plan only. -/
  planCompletion : Option PlanCompletionRecord := none
  verdict : Option VerdictRecord := none

inductive LoopName where
  | plan
  | code
  deriving DecidableEq

structure LoopIndex where
  /-- Max round in any of this loop's events over the full log. -/
  maxRoundEver : Nat := 0
  /-- Max round with post-restart events; 0 when the loop is untouched. -/
  maxRound : Nat := 0
  /-- Post-restart per-round records, latest occurrence wins. -/
  rounds : JsMap Nat RoundRecord := ∅
  latestRevise : Option VerdictRecord := none
  latestApproveSeq : Nat := 0
  /-- Plan only: the completion present when the latest approve landed. -/
  approvedPlan : Option PlanCompletionRecord := none
  /-- Findings per round (index round-1), post-restart. -/
  findingsByRound : List (List Finding) := []

structure VerifyStartRecord where
  seq : Nat
  attempt : Nat
  baseSha : Option String
  headSha : Option String
  restackId : Option String

/-- The same record the build state keeps of a completion. -/
abbrev VerifyRecord := VerifyResult

structure GuidanceDelivery where
  escalation : String
  /-- seq of the `session.started` that made the carrier actionable. -/
  seq : Nat

structure ReconcileStartRecord where
  restackId : Option String
  seq : Nat
  attempt : Nat
  baseSha : String

structure ReconcileCompletionRecord extends ReconcileStartRecord where
  completedSeq : Nat

structure ReconcileProgressRecord where
  seq : Nat
  conflictSeq : Nat
  attempt : Nat
  baseSha : String

/-! ## 2. The accumulator -/

/-- A post-restart candidate: the fields the replay reads. -/
inductive LogIndexCandidate where
  | roundStart (loop : LoopName) (seq round : Nat)
  | planCompleted (seq : Nat) (payload : PlanCompleted)
  | roundTouch (loop : LoopName) (seq round : Nat)
  | roundCompleted (loop : LoopName) (seq round : Nat)
  | verdict (loop : LoopName) (seq : Nat) (payload : ReviewVerdict)
  | implementCompleted (seq : Nat)
  | verifyStarted (record : VerifyStartRecord)
  | reconcilePolicy (seq : Nat) (policy : VerifyReconcilePolicy)
  | verifyCompleted (record : VerifyRecord)
  | finalizeCompleted (seq : Nat)
  | finalizeStep (seq : Nat) (step : String)
  | reconcileCompleted (seq : Nat)
  | configSuperseded (seq : Nat)

def LogIndexCandidate.seq : LogIndexCandidate → Nat
  | .roundStart _ seq _ => seq
  | .planCompleted seq _ => seq
  | .roundTouch _ seq _ => seq
  | .roundCompleted _ seq _ => seq
  | .verdict _ seq _ => seq
  | .implementCompleted seq => seq
  | .verifyStarted record => record.seq
  | .reconcilePolicy seq _ => seq
  | .verifyCompleted record => record.seq
  | .finalizeCompleted seq => seq
  | .finalizeStep seq _ => seq
  | .reconcileCompleted seq => seq
  | .configSuperseded seq => seq

/-- `${phase}@${round}`: a carrier of guidance waits for a session of this occurrence. -/
structure Occurrence where
  phase : Phase
  round : Nat
  deriving DecidableEq

instance : PropertyKey Occurrence := ⟨fun _ => none⟩

structure LogIndexAcc where
  readDeferrals : ReadDeferralsAcc := initialReadDeferrals
  restack : LeafRestackState := {}
  restartSeq : Nat := 0
  maxPlanRoundEver : Nat := 0
  maxCodeRoundEver : Nat := 0
  maxVerifyAttemptEver : Nat := 0
  pendingGuidanceStarts : ObjectMap Occurrence GuidanceDelivery := ∅
  guidanceDeliveries : List GuidanceDelivery := []
  lastConflict : Option Nat := none
  conflictSeqs : List Nat := []
  conflictReconcileStarted : Option Nat := none
  activeReconcileStart : Option ReconcileStartRecord := none
  reconcileStarts : List ReconcileStartRecord := []
  reconcileCompletions : List ReconcileCompletionRecord := []
  reconcileProgressChecks : List ReconcileProgressRecord := []
  /-- In log order. -/
  candidates : List LogIndexCandidate := []

def initialLogIndexAcc : LogIndexAcc := {}

/-! ## 3. One event -/

namespace LogIndexAcc

def noteRound (acc : LogIndexAcc) (round : Nat) : LoopName → LogIndexAcc
  | .plan => { acc with maxPlanRoundEver := max acc.maxPlanRoundEver round }
  | .code => { acc with maxCodeRoundEver := max acc.maxCodeRoundEver round }

/-- A newer start is the authoritative carrier for its occurrence: one without guidance
withdraws an older citation that never launched. -/
def noteGuidanceStart (acc : LogIndexAcc) (occurrence : Occurrence) (feedback : Option Feedback)
    (seq : Nat) : LogIndexAcc :=
  match feedback with
  | some (.guidance escalation _) =>
    { acc with
      pendingGuidanceStarts := acc.pendingGuidanceStarts.set occurrence ⟨escalation, seq⟩ }
  | _ => { acc with pendingGuidanceStarts := acc.pendingGuidanceStarts.erase occurrence }

def push (acc : LogIndexAcc) (candidate : LogIndexCandidate) : LogIndexAcc :=
  { acc with candidates := acc.candidates ++ [candidate] }

def noteAttempt (acc : LogIndexAcc) (attempt : Nat) : LogIndexAcc :=
  { acc with maxVerifyAttemptEver := max acc.maxVerifyAttemptEver attempt }

/-- `session.started` makes the carrier of its occurrence actionable. -/
def deliverGuidance (acc : LogIndexAcc) (seq : Nat) (payload : SessionStarted) : LogIndexAcc :=
  match payload.round with
  | none => acc
  | some round =>
    match acc.pendingGuidanceStarts.get? ⟨payload.phase, round⟩ with
    | none => acc
    | some carrier =>
      if carrier.seq < seq then
        { acc with
          guidanceDeliveries := acc.guidanceDeliveries ++ [⟨carrier.escalation, seq⟩]
          pendingGuidanceStarts := acc.pendingGuidanceStarts.erase ⟨payload.phase, round⟩ }
      else acc

def startReconcile (acc : LogIndexAcc) (seq : Nat) (payload : ReconcileStarted) : LogIndexAcc :=
  let start : ReconcileStartRecord :=
    { restackId := payload.restackId, seq := seq, attempt := payload.attempt,
      baseSha := payload.baseSha }
  { acc with
    reconcileStarts := acc.reconcileStarts ++ [start]
    activeReconcileStart := some start
    conflictReconcileStarted :=
      match acc.lastConflict with
      | some conflict =>
        if seq > conflict then some payload.attempt else acc.conflictReconcileStarted
      | none => acc.conflictReconcileStarted }

/-- A completion counts for the start it follows; unmatched ones classify nothing. -/
def pairReconcile (acc : LogIndexAcc) (seq : Nat) : LogIndexAcc :=
  match acc.activeReconcileStart with
  | some start =>
    { acc with
      reconcileCompletions := acc.reconcileCompletions ++ [⟨start, seq⟩]
      activeReconcileStart := none }
  | none => acc

def completeReconcile (acc : LogIndexAcc) (seq : Nat) : LogIndexAcc :=
  { (acc.push (.reconcileCompleted seq)).pairReconcile seq with conflictReconcileStarted := none }

def startRecord (seq : Nat) (payload : VerifyStarted) : VerifyStartRecord where
  seq := seq
  attempt := payload.attempt
  baseSha := payload.baseSha
  headSha := payload.headSha
  restackId := payload.restackId

end LogIndexAcc

open LogIndexAcc in
/-- The switch on the type of the event. -/
def indexBody (acc : LogIndexAcc) (seq : Nat) : EventBody → LogIndexAcc
  | .spec (.revised _ _) => { acc with restartSeq := seq }
  | .plan (.started payload) =>
    ((acc.noteGuidanceStart ⟨.core .plan, payload.round⟩ payload.feedback seq).noteRound
      payload.round .plan).push (.roundStart .plan seq payload.round)
  | .plan (.completed payload) =>
    (acc.noteRound payload.round .plan).push (.planCompleted seq payload)
  | .planReview (.started round) => (acc.noteRound round .plan).push (.roundTouch .plan seq round)
  | .planReview (.verdict payload) =>
    (acc.noteRound payload.round .plan).push (.verdict .plan seq payload)
  | .implement (.started payload) =>
    ((acc.noteGuidanceStart ⟨.core .implement, payload.round⟩ payload.feedback seq).noteRound
      payload.round .code).push (.roundStart .code seq payload.round)
  | .implement (.completed payload) =>
    ((acc.noteRound payload.round .code).push (.roundCompleted .code seq payload.round)).push
      (.implementCompleted seq)
  | .codeReview (.started round) => (acc.noteRound round .code).push (.roundTouch .code seq round)
  | .codeReview (.verdict payload) =>
    (acc.noteRound payload.round .code).push (.verdict .code seq payload)
  | .verify (.configCaptured _) => acc.push (.configSuperseded seq)
  | .verify (.configSuperseded _) => acc.push (.configSuperseded seq)
  | .verify (.started payload) =>
    ((acc.noteGuidanceStart ⟨verifyPhase payload.step, payload.attempt⟩ payload.feedback
      seq).noteAttempt payload.attempt).push (.verifyStarted (startRecord seq payload))
  | .session (.started payload) => acc.deliverGuidance seq payload
  | .verify (.reconcilePolicyCaptured payload) => acc.push (.reconcilePolicy seq payload)
  | .verify (.completed payload) =>
    (acc.noteAttempt payload.attempt).push
      (.verifyCompleted ⟨normalizeVerifyCompletion payload, seq⟩)
  | .finalize (.completed _) => acc.push (.finalizeCompleted seq)
  | .finalize (.stepCompleted payload) => acc.push (.finalizeStep seq payload.step)
  | .pr (.conflicted _) =>
    { acc with
      lastConflict := some seq
      conflictSeqs := acc.conflictSeqs ++ [seq]
      conflictReconcileStarted := none }
  | .reconcile (.progressChecked payload) =>
    { acc with reconcileProgressChecks := acc.reconcileProgressChecks ++
        [⟨seq, payload.conflictSeq, payload.attempt, payload.baseSha⟩] }
  | .reconcile (.started payload) => acc.startReconcile seq payload
  | .reconcile (.completed _) => acc.completeReconcile seq
  | _ => acc

/-- One event, in the three parts of the accumulator. -/
def indexEvent (acc : LogIndexAcc) (event : AbEvent) : LogIndexAcc :=
  indexBody
    { acc with
      readDeferrals := foldReadDeferral acc.readDeferrals event
      restack := advanceLeafRestackEvent acc.restack event }
    event.seq event.body

def foldLogIndex (acc : LogIndexAcc) (events : List AbEvent) : LogIndexAcc :=
  events.foldl indexEvent acc

/-! ## 4. The replay after the restart -/

/-- Everything read after the restart boundary. -/
structure PostRestart where
  plan : LoopIndex := {}
  code : LoopIndex := {}
  verifyCompleted : List VerifyRecord := []
  verifyStarted : List VerifyStartRecord := []
  reconcilePolicy : Option VerifyReconcilePolicy := none
  verifyConfigBoundary : Nat := 0
  lastReconcileCompletedSeq : Nat := 0
  lastImplementCompletedSeq : Nat := 0
  finalizeCompleted : Bool := false
  finalizeStepsDone : List String := []

namespace LoopIndex

/-- Change the record of a round, which is there from then on. -/
def record (loop : LoopIndex) (round : Nat) (f : RoundRecord → RoundRecord) : LoopIndex :=
  { loop with
    maxRound := max loop.maxRound round
    rounds := loop.rounds.set ⟨round⟩ (f ((loop.rounds.get? ⟨round⟩).getD {})) }

/-- Rounds without verdicts stay empty. -/
def setFindings (findingsByRound : List (List Finding)) (findings : List Finding) :
    Nat → List (List Finding)
  | 0 => findingsByRound
  | index + 1 =>
    (findingsByRound ++ List.replicate (index + 1 - findingsByRound.length) []).set index findings

def verdictRecord (seq : Nat) (payload : ReviewVerdict) : VerdictRecord where
  seq := seq
  round := payload.round
  verdict := payload.verdict
  findings := payload.findings
  reason := payload.reason

/-- A verdict, and what it makes the latest of its kind.  An approve of the plan snapshots the
completion of its round: one appended later was never reviewed. -/
def noteVerdict (loop : LoopIndex) (name : LoopName) (seq : Nat) (payload : ReviewVerdict) :
    LoopIndex :=
  let verdict := verdictRecord seq payload
  let loop := loop.record payload.round ({ · with verdict := some verdict })
  let record := (loop.rounds.get? ⟨payload.round⟩).getD {}
  { loop with
    latestRevise := if payload.verdict = .revise then some verdict else loop.latestRevise
    latestApproveSeq := if payload.verdict = .approve then seq else loop.latestApproveSeq
    approvedPlan := if payload.verdict = .approve ∧ name = .plan then record.planCompletion
      else loop.approvedPlan
    findingsByRound := setFindings loop.findingsByRound payload.findings payload.round }

end LoopIndex

namespace PostRestart

def loop (replay : PostRestart) : LoopName → LoopIndex
  | .plan => replay.plan
  | .code => replay.code

def mapLoop (replay : PostRestart) (f : LoopIndex → LoopIndex) : LoopName → PostRestart
  | .plan => { replay with plan := f replay.plan }
  | .code => { replay with code := f replay.code }

/-- One candidate after the boundary. -/
def replayCandidate (replay : PostRestart) : LogIndexCandidate → PostRestart
  | .roundStart loop seq round =>
    replay.mapLoop (·.record round ({ · with startedSeq := some seq })) loop
  | .planCompleted seq payload =>
    replay.mapLoop (·.record payload.round fun record =>
      { record with
        completedSeq := some seq
        planCompletion := some ⟨seq, payload.artifact, payload.verifySteps⟩ }) .plan
  | .roundTouch loop _ round => replay.mapLoop (·.record round id) loop
  | .roundCompleted loop seq round =>
    replay.mapLoop (·.record round ({ · with completedSeq := some seq })) loop
  | .verdict loop seq payload => replay.mapLoop (·.noteVerdict loop seq payload) loop
  | .implementCompleted seq => { replay with lastImplementCompletedSeq := seq }
  | .configSuperseded seq =>
    { replay with verifyConfigBoundary := max replay.verifyConfigBoundary seq }
  | .verifyStarted record => { replay with verifyStarted := replay.verifyStarted ++ [record] }
  | .reconcilePolicy _ policy => { replay with reconcilePolicy := some policy }
  | .verifyCompleted record =>
    { replay with verifyCompleted := replay.verifyCompleted ++ [record] }
  | .finalizeCompleted _ => { replay with finalizeCompleted := true }
  | .finalizeStep _ step =>
    { replay with finalizeStepsDone :=
        if step ∈ replay.finalizeStepsDone then replay.finalizeStepsDone
        else replay.finalizeStepsDone ++ [step] }
  | .reconcileCompleted seq => { replay with lastReconcileCompletedSeq := seq }

/-- `if (seq <= restartSeq) continue`. -/
def replayAfter (restartSeq : Nat) (replay : PostRestart) (candidate : LogIndexCandidate) :
    PostRestart :=
  if candidate.seq ≤ restartSeq then replay else replay.replayCandidate candidate

end PostRestart

def LogIndexAcc.postRestart (acc : LogIndexAcc) : PostRestart :=
  acc.candidates.foldl (PostRestart.replayAfter acc.restartSeq)
    { plan := { maxRoundEver := acc.maxPlanRoundEver }
      code := { maxRoundEver := acc.maxCodeRoundEver } }

/-! ## 5. Reconciles -/

/-- One completed occurrence per attempt, the latest, in completion order. -/
def LogIndexAcc.completedReconciles (acc : LogIndexAcc) : List ReconcileCompletionRecord :=
  let completedByAttempt : JsMap Nat ReconcileCompletionRecord :=
    acc.reconcileCompletions.foldl (fun map completion => map.set ⟨completion.attempt⟩ completion) ∅
  completedByAttempt.values.insertionSort (fun left right => left.completedSeq ≤ right.completedSeq)

/-- The reconcile left the pull request conflicted against the same base.  Explicit checks win
over the historical fallback, the base of the next start. -/
def LogIndexAcc.madeNoProgress (acc : LogIndexAcc) (completion : ReconcileCompletionRecord) :
    Bool :=
  let nextStart := acc.reconcileStarts.find? fun start =>
    start.seq > completion.completedSeq && start.attempt > completion.attempt
  let explicit := (acc.reconcileProgressChecks.filter fun check =>
    check.attempt = completion.attempt ∧ check.seq > completion.completedSeq
      ∧ (nextStart.map fun start => decide (check.seq < start.seq)).getD true = true
      ∧ check.conflictSeq > completion.completedSeq ∧ check.seq > check.conflictSeq
      ∧ check.conflictSeq ∈ acc.conflictSeqs).getLast?
  decide ((explicit.map (·.baseSha)).or (nextStart.map (·.baseSha)) = some completion.baseSha)

def LogIndexAcc.lastProgressCheck (acc : LogIndexAcc) : Option ReconcileProgressRecord :=
  match acc.lastConflict, acc.completedReconciles.getLast? with
  | some conflict, some completed =>
    (acc.reconcileProgressChecks.filter fun check =>
      check.conflictSeq = conflict ∧ check.attempt = completed.attempt
        ∧ check.seq > conflict).getLast?
  | _, _ => none

/-! ## 6. The index -/

structure LogIndex extends PostRestart where
  readDeferrals : List ReadDeferral
  restack : LeafRestackState
  /-- seq of the latest `spec.revised`, else 0. -/
  restartSeq : Nat
  /-- Attempt numbers continue over the full log. -/
  maxVerifyAttemptEver : Nat
  lastConflict : Option Nat
  conflictReconcileStarted : Option Nat
  lastReconcileCompleted : Option ReconcileCompletionRecord
  lastConflictProgressCheck : Option ReconcileProgressRecord
  reconcileNoProgressCount : Nat
  guidanceDeliveries : List GuidanceDelivery

def finishLogIndex (acc : LogIndexAcc) : LogIndex :=
  { acc.postRestart with
    readDeferrals := acc.readDeferrals.pending
    restack := acc.restack
    restartSeq := acc.restartSeq
    maxVerifyAttemptEver := acc.maxVerifyAttemptEver
    lastConflict := acc.lastConflict
    conflictReconcileStarted := acc.conflictReconcileStarted
    lastReconcileCompleted := acc.completedReconciles.getLast?
    lastConflictProgressCheck := acc.lastProgressCheck
    reconcileNoProgressCount := (acc.completedReconciles.filter acc.madeNoProgress).length
    guidanceDeliveries := acc.guidanceDeliveries }

/-- The whole-array form. -/
def indexLog (events : List AbEvent) : LogIndex :=
  finishLogIndex (foldLogIndex initialLogIndexAcc events)

end Autobuild
