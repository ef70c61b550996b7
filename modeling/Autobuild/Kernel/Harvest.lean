/-
# The harvest reducer

A harvest claims a snapshot of observation occurrences for a run, and the repository journal
tells what became of it.  A fact that contradicts the journal throws, and no later fact can
make such a journal reducible again.

* `foldHarvestEvent` is the reducer's switch; the facts of a run's workflow (steps, proposals,
  reviews, sessions) are `foldWorkflow`, which touches no claim and no recovery.
* `inFlightHarvestCreations` and `harvestCreationsFromStates` are the ticket creations a ready
  scan withholds.
* `decideHarvestControl` routes pause, resume and recovery.
-/
import Autobuild.Events.Repository
import Autobuild.Lib.Checked
import Autobuild.Lib.JsText
import Autobuild.Lib.ObjectMap
import Mathlib.Data.List.Sort

namespace Autobuild

open ObjectMap

/-! ## 1. The state of a run -/

inductive HarvestStatus where
  | running
  | completed
  | escalated
  | failed
  deriving DecidableEq, Repr

def HarvestStatus.text : HarvestStatus → String
  | .running => "running"
  | .completed => "completed"
  | .escalated => "escalated"
  | .failed => "failed"

structure HarvestStepOccurrence where
  step : HarvestStep
  round : Option Nat
  startedSeq : Nat
  startedAt : Nat
  completedSeq : Option Nat := none
  completedAt : Option Nat := none
  outcome : Option HarvestStepOutcome := none
  artifact : Option ArtifactRef := none
  detail : Option String := none

structure HarvestProposal where
  round : Nat
  artifact : ArtifactRef
  seq : Nat

structure HarvestReviewRound where
  round : Nat
  verdict : ReviewVerdictKind
  findings : List Finding
  artifact : ArtifactRef
  reason : Option String
  seq : Nat

structure HarvestProposalReservation where
  proposalKey : String
  id : String
  seq : Nat
  deriving DecidableEq

structure HarvestFiled where
  proposalKey : String
  ticket : TicketRef
  blockers : Option HarvestBlockerProvenance
  seq : Nat

structure HarvestEscalation where
  source : HarvestEscalationSource
  reason : String
  round : Option Nat

structure HarvestFailure where
  stopped : HarvestBoundary
  attempt : Nat
  willRetry : Bool

structure HarvestRecoveryRequest where
  attempt : Nat
  limit : Nat
  seq : Nat
  requestedAt : Nat
  acknowledgedSeq : Option Nat := none
  acknowledgedAt : Option Nat := none

structure HarvestRecoveryExhaustion where
  stopped : HarvestBoundary
  attempts : Nat
  limit : Nat
  releasedObservations : List OccurrenceKey
  committedDispositions : List HarvestDisposition
  pendingProposals : List HarvestPendingProposal
  seq : Nat
  exhaustedAt : Nat
  attentionAcknowledgedSeq : Option Nat := none
  attentionAcknowledgedAt : Option Nat := none

inductive HarvestSessionStatus where
  | «open»
  | suspended
  | ended
  deriving DecidableEq, Repr

structure HarvestSessionState where
  session : String
  step : HarvestStep
  round : Nat
  continuation : Option HarvestContinuation
  status : HarvestSessionStatus
  startedSeq : Nat
  startedAt : Nat
  nativeHandle : Option NativeSessionHandle
  suspendedAt : Option Nat := none
  cause : Option HarvestSuspensionCause := none
  transcript : Option ArtifactRef := none
  resumed : Bool := false
  fallback : Bool := false

structure HarvestRunState where
  run : String
  status : HarvestStatus
  startedSeq : Nat
  startedAt : Nat
  observations : List OccurrenceKey
  scan : ArtifactRef
  trigger : Option HarvestTrigger
  sessions : List HarvestSessionState := []
  steps : List HarvestStepOccurrence := []
  proposals : List HarvestProposal := []
  reviews : List HarvestReviewRound := []
  reservations : List HarvestProposalReservation := []
  filed : List HarvestFiled := []
  dispositions : List HarvestDisposition := []
  report : Option ArtifactRef := none
  escalation : Option HarvestEscalation := none
  failure : Option HarvestFailure := none
  failureSeq : Option Nat := none
  recoveryRequests : List HarvestRecoveryRequest := []
  recoveryExhaustion : Option HarvestRecoveryExhaustion := none
  terminalSeq : Option Nat := none
  terminalAt : Option Nat := none

structure HarvestLedgerEntry extends HarvestDisposition where
  run : String
  seq : Nat

inductive HarvestCommand where
  | pause
  | resume
  deriving DecidableEq, Repr

structure HarvestPendingCommand where
  command : HarvestCommand
  seq : Nat
  actor : Actor

structure HarvestPending where
  pause : List HarvestPendingCommand := []
  resume : List HarvestPendingCommand := []

structure HarvestClaim where
  occurrence : OccurrenceKey
  run : String
  deriving DecidableEq

/-- `runs` and `claimed` in the order they were written. -/
structure HarvestAcc where
  runs : JsMap String HarvestRunState := ∅
  claimed : JsMap String HarvestClaim := ∅
  ledger : List HarvestLedgerEntry := []
  pending : HarvestPending := {}
  paused : Bool := false
  pausedSeq : Option Nat := none
  pausedAt : Option Nat := none
  lastSeq : Nat := 0

structure HarvestState where
  lastSeq : Nat
  runs : List HarvestRunState
  latest : Option HarvestRunState
  paused : Bool
  pausedSeq : Option Nat
  pausedAt : Option Nat
  pendingCommands : List HarvestPendingCommand
  claimed : List OccurrenceKey
  ledger : List HarvestLedgerEntry

def HarvestAcc.run? (acc : HarvestAcc) (run : String) : Option HarvestRunState :=
  acc.runs.get? ⟨run⟩

def HarvestAcc.claim? (acc : HarvestAcc) (key : String) : Option HarvestClaim :=
  acc.claimed.get? ⟨key⟩

/-- The run is mutated in place. -/
def HarvestAcc.write (acc : HarvestAcc) (run : HarvestRunState) : HarvestAcc :=
  { acc with runs := acc.runs.set ⟨run.run⟩ run }

/-- The array with its last element of the kind changed. -/
def updateLast {α : Type} (p : α → Bool) (f : α → α) : List α → List α
  | [] => []
  | x :: xs =>
    if xs.any p then x :: updateLast p f xs else if p x then f x :: xs else x :: xs

def isOrdinaryParkedRun (run : HarvestRunState) : Bool :=
  decide (run.status = .failed) && run.recoveryExhaustion.isNone

def hasUnresolvedExhaustion (run : HarvestRunState) : Bool :=
  decide (run.status = .failed) &&
    (run.recoveryExhaustion.map fun exhaustion => exhaustion.attentionAcknowledgedSeq.isNone).getD
      false

/-! ## 2. Workflow facts -/

def foldStepStarted (run : HarvestRunState) (step : HarvestStep) (round : Option Nat)
    (seq ts : Nat) : HarvestRunState :=
  { run with steps := run.steps ++ [{ step, round, startedSeq := seq, startedAt := ts }] }

def foldStepCompleted (run : HarvestRunState) (payload : HarvestStepCompleted) (seq ts : Nat) :
    HarvestRunState :=
  let opened := fun (step : HarvestStepOccurrence) => decide (step.step = payload.step)
    && decide (step.round = payload.round) && step.completedSeq.isNone
  let complete := fun (step : HarvestStepOccurrence) =>
    { step with
      completedSeq := some seq
      completedAt := some ts
      outcome := some payload.outcome
      artifact := payload.artifact.or step.artifact
      detail := payload.detail.or step.detail }
  if run.steps.any opened then { run with steps := updateLast opened complete run.steps }
  else
    { run with
      steps := run.steps ++ [complete
        { step := payload.step, round := payload.round, startedSeq := seq, startedAt := ts }] }

def foldHarvestSessionStarted (run : HarvestRunState) (payload : HarvestSessionStarted)
    (seq ts : Nat) : HarvestRunState :=
  let opened : HarvestSessionState :=
    { session := payload.session
      step := payload.step
      round := payload.round
      continuation := payload.continuation
      status := .open
      startedSeq := seq
      startedAt := ts
      nativeHandle := payload.continuation.bind (·.handle) }
  if run.sessions.any (fun s => s.session = payload.session) then run
  else
    match payload.continuation with
    | none => { run with sessions := run.sessions ++ [opened] }
    | some continuation =>
      match run.sessions.find? (fun s => s.session = continuation.predecessor) with
      | none => run
      | some prior =>
        if prior.step ≠ payload.step ∨ prior.round ≠ payload.round
            ∨ prior.status = .ended then run
        else if (prior.continuation.map (·.root)).getD prior.session ≠ continuation.root then run
        else
          { run with
            sessions := run.sessions.map (fun s =>
              if s.session = prior.session then { s with status := .ended } else s) ++ [opened] }

/-- The session keeps another handle than the fact brings. -/
def handleConflicts (session : HarvestSessionState) (handle : NativeSessionHandle) : Bool :=
  (session.nativeHandle.map fun kept => decide (kept.stringify ≠ handle.stringify)).getD false

/-- Late facts of a retired session stay in the journal and move nothing. -/
def foldHarvestSessionFact (session : HarvestSessionState) (ts : Nat) :
    HarvestSessionFact → HarvestSessionState
  | .nativeHandleRecorded handle =>
    if handleConflicts session handle then session
    else { session with nativeHandle := some handle }
  | .suspended cause transcript =>
    { session with
      status := .suspended
      suspendedAt := some ts
      cause := some cause
      transcript := some transcript }
  | .resumed predecessor root handle =>
    if handleConflicts session handle then session
    else
      match session.continuation with
      | none => session
      | some continuation =>
        if session.resumed ∨ session.fallback ∨ continuation.predecessor ≠ predecessor
            ∨ continuation.root ≠ root then session
        else { session with resumed := true, nativeHandle := some handle }
  | .resumeFallback =>
    if session.continuation = none ∨ session.resumed ∨ session.fallback then session
    else { session with fallback := true, nativeHandle := none }
  | .ended transcript => { session with status := .ended, transcript := some transcript }

/-- The run of a workflow fact and what the fact makes of it; a session's fact may come from a
run the journal does not know. -/
inductive HarvestWorkflow where
  | required (run : String) (fold : HarvestRunState → HarvestRunState)
  | tolerated (run : String) (fold : HarvestRunState → HarvestRunState)

def workflowOf (seq ts : Nat) : HarvestEvent → Option HarvestWorkflow
  | .stepStarted run step round =>
    some (.required run fun state => foldStepStarted state step round seq ts)
  | .stepCompleted payload =>
    some (.required payload.run fun state => foldStepCompleted state payload seq ts)
  | .proposalsSubmitted run round artifact =>
    some (.required run fun state =>
      { state with proposals := state.proposals ++ [⟨round, artifact, seq⟩] })
  | .reviewVerdict payload =>
    some (.required payload.run fun state =>
      { state with
        reviews := state.reviews ++ [⟨payload.round, payload.verdict, payload.findings,
          payload.artifact, payload.reason, seq⟩] })
  | .sessionStarted payload =>
    some (.tolerated payload.run fun state => foldHarvestSessionStarted state payload seq ts)
  | .sessionFact run session fact =>
    some (.tolerated run fun state =>
      { state with
        sessions := state.sessions.map fun s =>
          if s.session = session ∧ s.status = .open then foldHarvestSessionFact s ts fact
          else s })
  | _ => none

/-! ## 3. The reducer -/

def HarvestEvent.type : HarvestEvent → String
  | .pauseRequested => "harvest.pause-requested"
  | .resumeRequested => "harvest.resume-requested"
  | .paused => "harvest.paused"
  | .resumed => "harvest.resumed"
  | .recoveryRequested _ _ _ => "harvest.recovery-requested"
  | .recoveryExhausted _ => "harvest.recovery-exhausted"
  | .started _ => "harvest.started"
  | .stepStarted _ _ _ => "harvest.step.started"
  | .stepCompleted _ => "harvest.step.completed"
  | .proposalsSubmitted _ _ _ => "harvest.proposals.submitted"
  | .reviewVerdict _ => "harvest.review.verdict"
  | .proposalIdReserved _ _ _ => "harvest.proposal.id-reserved"
  | .proposalFiled _ => "harvest.proposal.filed"
  | .completed _ _ _ => "harvest.completed"
  | .escalated _ _ _ _ => "harvest.escalated"
  | .failed _ => "harvest.failed"
  | .sessionStarted _ => "harvest.session.started"
  | .sessionFact _ _ (.nativeHandleRecorded _) => "harvest.session.native-handle-recorded"
  | .sessionFact _ _ (.suspended _ _) => "harvest.session.suspended"
  | .sessionFact _ _ (.resumed _ _ _) => "harvest.session.resumed"
  | .sessionFact _ _ .resumeFallback => "harvest.session.resume-fallback"
  | .sessionFact _ _ (.ended _) => "harvest.session.ended"

def requireRun (acc : HarvestAcc) (run : String) (event : HarvestEvent) (seq : Nat) :
    Except String HarvestRunState :=
  match acc.run? run with
  | some state => .ok state
  | none => .error s!"{event.type} at repo seq {seq} references unknown harvest run \"{run}\""

def unacknowledged (request : HarvestRecoveryRequest) : Bool := request.acknowledgedSeq.isNone

def acknowledgeRequest (seq ts : Nat) (request : HarvestRecoveryRequest) :
    HarvestRecoveryRequest :=
  { request with acknowledgedSeq := some seq, acknowledgedAt := some ts }

/-- A run at `harvest.resumed`.  Give-up is terminal: a human acknowledgement settles its
attention barrier and reopens only the ordinary parked runs. -/
def resumeRun (human : Bool) (seq ts : Nat) (run : HarvestRunState) : HarvestRunState :=
  match run.recoveryExhaustion with
  | some exhaustion =>
    if human ∧ exhaustion.attentionAcknowledgedSeq = none then
      { run with
        recoveryExhaustion := some { exhaustion with
          attentionAcknowledgedSeq := some seq
          attentionAcknowledgedAt := some ts } }
    else run
  | none =>
    if run.status ≠ .failed then run
    else if human ∨ run.recoveryRequests.any unacknowledged then
      { run with
        recoveryRequests := updateLast unacknowledged (acknowledgeRequest seq ts)
          run.recoveryRequests
        status := .running
        failure := none
        failureSeq := none
        terminalSeq := none
        terminalAt := none }
    else run

def foldResumed (acc : HarvestAcc) (seq ts : Nat) : HarvestAcc :=
  let human := decide (acc.pending.resume ≠ [])
  { acc with
    paused := false
    pausedSeq := none
    pausedAt := none
    pending := { acc.pending with resume := [] }
    runs := acc.runs.mapValues fun _ run => resumeRun human seq ts run }

def foldRecoveryRequested (acc : HarvestAcc) (run : HarvestRunState) (attempt limit seq ts : Nat) :
    Except String HarvestAcc :=
  let expectedAttempt := run.recoveryRequests.length + 1
  let appliedLimit := run.recoveryRequests.head?.map (·.limit)
  if run.status ≠ .failed ∨ run.recoveryExhaustion.isSome then
    .error (s!"harvest.recovery-requested at repo seq {seq} requires an "
      ++ s!"ordinary failed run; \"{run.run}\" is {run.status.text}")
  else if run.recoveryRequests.any unacknowledged then
    .error s!"harvest run \"{run.run}\" already has an unacknowledged automatic recovery request"
  else if attempt ≠ expectedAttempt then
    .error (s!"harvest run \"{run.run}\" recovery attempt must be {expectedAttempt}; "
      ++ s!"repo seq {seq} recorded {attempt}")
  else if appliedLimit ≠ none ∧ some limit ≠ appliedLimit then
    .error (s!"harvest run \"{run.run}\" recovery limit was already applied as "
      ++ s!"{appliedLimit.getD 0}; repo seq {seq} cannot change it to {limit}")
  else if attempt > limit then
    .error (s!"harvest run \"{run.run}\" recovery attempt {attempt} "
      ++ s!"exceeds its applied limit {limit}")
  else
    .ok (acc.write { run with
      recoveryRequests := run.recoveryRequests
        ++ [{ attempt, limit, seq, requestedAt := ts }] })

/-- A set takes one more of the allowed keys. -/
def takeNew (refusal : String) (allowed taken : List String) (key : String) :
    Except String (List String) :=
  if key ∉ allowed ∨ key ∈ taken then .error refusal else .ok (taken ++ [key])

/-- One more occurrence of the snapshot is accounted for. -/
def partitionOne (run part : String) (expected partition : List String) (key : String) :
    Except String (List String) :=
  takeNew (s!"harvest run \"{run}\" exhaustion has an invalid or duplicate {part} "
    ++ s!"occurrence {key}") expected partition key

def describeOccurrence (run proposal : String) (released described : List String)
    (key : String) : Except String (List String) :=
  takeNew (s!"harvest run \"{run}\" pending proposal \"{proposal}\" "
    ++ s!"does not uniquely describe released occurrence {key}") released described key

/-- The keys and the occurrences of the pending proposals so far. -/
def describeProposal (run : String) (released : List String)
    (acc : List String × List String) (proposal : HarvestPendingProposal) :
    Except String (List String × List String) :=
  if proposal.proposalKey ∈ acc.1 then
    .error (s!"harvest run \"{run}\" exhaustion repeats pending proposal key "
      ++ s!"\"{proposal.proposalKey}\"")
  else
    ((proposal.observations.map occurrenceKey).foldlM
      (describeOccurrence run proposal.proposalKey released) acc.2).map
      fun described => (acc.1 ++ [proposal.proposalKey], described)

def releaseClaim (run : String) (claimed : JsMap String HarvestClaim) (key : String) :
    Except String (JsMap String HarvestClaim) :=
  let owner := (claimed.get? ⟨key⟩).map (·.run)
  if owner ≠ some run then
    .error (s!"harvest run \"{run}\" cannot release {key}; its claim owner is "
      ++ owner.getD "missing")
  else .ok (claimed.erase ⟨key⟩)

/-- The checks of an exhaustion against the stopped run, in their order. -/
def checkExhaustion (run : HarvestRunState) (payload : HarvestRecoveryExhausted) (seq : Nat) :
    Except String Unit :=
  if run.recoveryExhaustion.isSome then
    .error s!"duplicate harvest.recovery-exhausted for run \"{run.run}\" at repo seq {seq}"
  else if run.status ≠ .failed ∨ run.failure.isNone then
    .error s!"harvest.recovery-exhausted at repo seq {seq} requires a failed run"
  else if run.failure.map (·.stopped) ≠ some payload.stopped then
    .error (s!"harvest.recovery-exhausted at repo seq {seq} does not match "
      ++ s!"the stopped boundary for run \"{run.run}\"")
  else if payload.attempts ≠ run.recoveryRequests.length ∨ payload.attempts ≠ payload.limit
      ∨ run.recoveryRequests.any (fun request => request.limit ≠ payload.limit) then
    .error (s!"harvest run \"{run.run}\" exhaustion must record its exact recovery "
      ++ s!"count and limit; got {payload.attempts}/{payload.limit} "
      ++ s!"after {run.recoveryRequests.length} requests")
  else if run.recoveryRequests.any unacknowledged then
    .error (s!"harvest run \"{run.run}\" cannot exhaust with an unacknowledged "
      ++ "recovery request")
  else .ok ()

/-- The snapshot is committed or released, and the descriptors describe what is released. -/
def checkPartition (run : HarvestRunState) (payload : HarvestRecoveryExhausted) :
    Except String Unit := do
  let expected := JsText.distinct (run.observations.map occurrenceKey)
  let committed ← (payload.committedDispositions.map (occurrenceKey ·.occurrence)).foldlM
    (partitionOne run.run "committed" expected) []
  let released := payload.releasedObservations.map occurrenceKey
  let partition ← released.foldlM (partitionOne run.run "released" expected) committed
  if partition.length ≠ expected.length then
    .error (s!"harvest run \"{run.run}\" exhaustion does not partition its snapshot; "
      ++ "missing " ++ ", ".intercalate (expected.filter fun key => key ∉ partition))
  else do
    let _ ← payload.pendingProposals.foldlM (describeProposal run.run released) ([], [])
    .ok ()

def exhaustRun (run : HarvestRunState) (payload : HarvestRecoveryExhausted) (seq ts : Nat) :
    HarvestRunState :=
  { run with
    dispositions := payload.committedDispositions
    recoveryExhaustion := some
      { stopped := payload.stopped
        attempts := payload.attempts
        limit := payload.limit
        releasedObservations := payload.releasedObservations
        committedDispositions := payload.committedDispositions
        pendingProposals := payload.pendingProposals
        seq
        exhaustedAt := ts }
    terminalSeq := some seq
    terminalAt := some ts }

def ledgerEntries (dispositions : List HarvestDisposition) (run : String) (seq : Nat) :
    List HarvestLedgerEntry :=
  dispositions.map fun disposition => { disposition with run, seq }

def foldRecoveryExhausted (acc : HarvestAcc) (run : HarvestRunState)
    (payload : HarvestRecoveryExhausted) (seq ts : Nat) : Except String HarvestAcc := do
  checkExhaustion run payload seq
  checkPartition run payload
  let claimed ← (payload.releasedObservations.map occurrenceKey).foldlM (releaseClaim run.run)
    acc.claimed
  .ok { (acc.write (exhaustRun run payload seq ts)) with
    claimed
    ledger := acc.ledger ++ ledgerEntries payload.committedDispositions run.run seq }

def claimOccurrence (run : String) (seq : Nat) (claimed : JsMap String HarvestClaim)
    (key : OccurrenceKey) : Except String (JsMap String HarvestClaim) :=
  match claimed.get? ⟨occurrenceKey key⟩ with
  | some existing =>
    .error (s!"harvest run \"{run}\" at repo seq {seq} cannot claim "
      ++ s!"{occurrenceKey key}; it is already claimed by \"{existing.run}\"")
  | none => .ok (claimed.set ⟨occurrenceKey key⟩ ⟨key, run⟩)

def startedRun (payload : HarvestStarted) (seq ts : Nat) : HarvestRunState :=
  { run := payload.run
    status := .running
    startedSeq := seq
    startedAt := ts
    observations := payload.observations
    scan := payload.scan
    trigger := payload.trigger }

def foldStarted (acc : HarvestAcc) (payload : HarvestStarted) (seq ts : Nat) :
    Except String HarvestAcc :=
  if (acc.run? payload.run).isSome then
    .error s!"duplicate harvest.started for run \"{payload.run}\" at repo seq {seq}"
  else
    (payload.observations.foldlM (claimOccurrence payload.run seq) acc.claimed).map
      fun claimed => { (acc.write (startedRun payload seq ts)) with claimed }

def foldIdReserved (acc : HarvestAcc) (run : HarvestRunState) (proposalKey id : String)
    (seq : Nat) : Except String HarvestAcc :=
  match run.reservations.find? (fun entry => entry.proposalKey = proposalKey) with
  | some existing =>
    if existing.id.toLower ≠ id.toLower then
      .error (s!"harvest proposal key \"{proposalKey}\" was already "
        ++ s!"reserved as \"{existing.id}\" at repo seq {existing.seq}; "
        ++ s!"repo seq {seq} cannot replace it with \"{id}\"")
    else .ok acc
  | none =>
    match run.reservations.find? (fun entry => entry.id.toLower = id.toLower) with
    | some existing =>
      .error (s!"harvest reserved id \"{id}\" already belongs to proposal "
        ++ s!"key \"{existing.proposalKey}\" at repo seq {existing.seq}; "
        ++ s!"repo seq {seq} cannot reuse it for \"{proposalKey}\"")
    | none =>
      .ok (acc.write { run with reservations := run.reservations ++ [⟨proposalKey, id, seq⟩] })

/-- One entry for each stable proposal key. -/
def fileProposal (run : HarvestRunState) (payload : HarvestProposalFiled) (seq : Nat) :
    HarvestRunState :=
  if run.filed.any (fun entry => entry.proposalKey = payload.proposalKey) then run
  else
    { run with
      filed := run.filed ++ [⟨payload.proposalKey, payload.ticket, payload.blockers, seq⟩] }

def foldCompleted (acc : HarvestAcc) (run : HarvestRunState)
    (dispositions : List HarvestDisposition) (report : ArtifactRef) (seq ts : Nat) : HarvestAcc :=
  if run.status ≠ .running then acc
  else
    { (acc.write { run with
        status := .completed
        dispositions
        report := some report
        terminalSeq := some seq
        terminalAt := some ts }) with
      ledger := acc.ledger ++ ledgerEntries dispositions run.run seq }

def escalateRun (run : HarvestRunState) (escalation : HarvestEscalation) (seq ts : Nat) :
    HarvestRunState :=
  if run.status ≠ .running then run
  else
    { run with
      status := .escalated
      escalation := some escalation
      terminalSeq := some seq
      terminalAt := some ts }

/-- A late infrastructure fact cannot replace a completion or an escalation. -/
def failRun (run : HarvestRunState) (payload : HarvestFailed) (seq : Nat) : HarvestRunState :=
  if run.status ≠ .running then run
  else
    { run with
      failure := some ⟨payload.stopped, payload.attempt, payload.willRetry⟩
      failureSeq := some seq
      status := if payload.willRetry then run.status else .failed }

def foldWorkflow (acc : HarvestAcc) (event : HarvestEvent) (seq : Nat) :
    HarvestWorkflow → Except String HarvestAcc
  | .required run fold => (requireRun acc run event seq).map fun state => acc.write (fold state)
  | .tolerated run fold =>
    match acc.run? run with
    | none => .ok acc
    | some state => .ok (acc.write (fold state))

def foldHarvestFact (acc : HarvestAcc) (event : HarvestEvent) (actor : Actor) (seq ts : Nat) :
    Except String HarvestAcc :=
  match event with
  | .pauseRequested =>
    .ok { acc with
      pending := { resume := [], pause := acc.pending.pause ++ [⟨.pause, seq, actor⟩] } }
  | .resumeRequested =>
    .ok { acc with
      pending := { pause := [], resume := acc.pending.resume ++ [⟨.resume, seq, actor⟩] } }
  | .paused =>
    .ok { acc with
      paused := true
      pausedSeq := some seq
      pausedAt := some ts
      pending := { acc.pending with pause := [] } }
  | .resumed => .ok (foldResumed acc seq ts)
  | .recoveryRequested run attempt limit => do
    let state ← requireRun acc run event seq
    foldRecoveryRequested acc state attempt limit seq ts
  | .recoveryExhausted payload => do
    let state ← requireRun acc payload.run event seq
    foldRecoveryExhausted acc state payload seq ts
  | .started payload => foldStarted acc payload seq ts
  | .proposalIdReserved run proposalKey id => do
    let state ← requireRun acc run event seq
    foldIdReserved acc state proposalKey id seq
  | .proposalFiled payload => do
    let state ← requireRun acc payload.run event seq
    .ok (acc.write (fileProposal state payload seq))
  | .completed run dispositions report => do
    let state ← requireRun acc run event seq
    .ok (foldCompleted acc state dispositions report seq ts)
  | .escalated run source reason round => do
    let state ← requireRun acc run event seq
    .ok (acc.write (escalateRun state ⟨source, reason, round⟩ seq ts))
  | .failed payload => do
    let state ← requireRun acc payload.run event seq
    .ok (acc.write (failRun state payload seq))
  | event =>
    match workflowOf seq ts event with
    | some workflow => foldWorkflow acc event seq workflow
    | none => .ok acc

def foldHarvestEvent (acc : HarvestAcc) (event : RepositoryEvent) : Except String HarvestAcc :=
  let noted := { acc with lastSeq := max acc.lastSeq event.seq }
  match event.body with
  | .harvest fact => foldHarvestFact noted fact event.actor event.seq event.ts
  -- other families share the repository journal and are projected independently
  | _ => .ok noted

def finishHarvest (acc : HarvestAcc) : HarvestState :=
  { lastSeq := acc.lastSeq
    runs := acc.runs.values
    latest := acc.runs.values.getLast?
    paused := acc.paused
    pausedSeq := acc.pausedSeq
    pausedAt := acc.pausedAt
    pendingCommands := (acc.pending.pause ++ acc.pending.resume).insertionSort
      (fun left right => left.seq ≤ right.seq)
    claimed := acc.claimed.values.map (·.occurrence)
    ledger := acc.ledger }

def foldHarvest (events : List RepositoryEvent) : Except String HarvestAcc :=
  events.foldlM foldHarvestEvent {}

def reduceHarvest (events : List RepositoryEvent) : Except String HarvestState :=
  (foldHarvest events).map finishHarvest

/-! ## 4. Creations in flight -/

structure InFlightHarvestCreation where
  run : String
  proposalKey : String
  creationKey : String
  reservationSeq : Nat
  deriving DecidableEq

def creationOf (run : String) (reservation : HarvestProposalReservation) :
    InFlightHarvestCreation :=
  ⟨run, reservation.proposalKey, reservation.id, reservation.seq⟩

/-- Only running workflows contribute. -/
def inFlightHarvestCreations (state : HarvestState) : List InFlightHarvestCreation :=
  state.runs.flatMap fun run =>
    if run.status ≠ .running then []
    else
      (run.reservations.filter fun reservation =>
        !run.filed.any (fun entry => entry.proposalKey = reservation.proposalKey)).map
        (creationOf run.run)

/-- The reservations of all runs, whatever became of them. -/
def reservedCreations (state : HarvestState) : List InFlightHarvestCreation :=
  state.runs.flatMap fun run => run.reservations.map (creationOf run.run)

def keyOf (run proposalKey : String) : String := s!"{run}\x00{proposalKey}"

def InFlightHarvestCreation.key (creation : InFlightHarvestCreation) : String :=
  keyOf creation.run creation.proposalKey

/-- What the second snapshot adds: a reservation first written during the listing. -/
def addReserved (lastSeq : Nat)
    (acc : List String × JsMap String InFlightHarvestCreation)
    (creation : InFlightHarvestCreation) :
    List String × JsMap String InFlightHarvestCreation :=
  if creation.key ∈ acc.1 ∨ creation.reservationSeq ≤ lastSeq then acc
  else (acc.1 ++ [creation.key], acc.2.set ⟨creation.key⟩ creation)

def harvestCreationsFromStates (before after : HarvestState) : List InFlightHarvestCreation :=
  let known := (reservedCreations before).map (·.key)
  let creations := (inFlightHarvestCreations before).foldl
    (fun (creations : JsMap String InFlightHarvestCreation) creation =>
      creations.set ⟨creation.key⟩ creation) ∅
  ((reservedCreations after).foldl (addReserved before.lastSeq) (known, creations)).2.values

/-! ## 5. Control -/

def parkedHarvestRuns (state : HarvestState) : List HarvestRunState :=
  state.runs.filter isOrdinaryParkedRun

def unresolvedHarvestAttentionRuns (state : HarvestState) : List HarvestRunState :=
  state.runs.filter hasUnresolvedExhaustion

inductive HarvestControlDecision where
  | acknowledge (command : HarvestCommand)
  | requestRecovery (run : String) (attempt limit : Nat)
  | exhaustRecovery (run : String) (attempts limit : Nat)
  | park
  | proceed
  deriving DecidableEq

def HarvestState.wants (state : HarvestState) (command : HarvestCommand) : Bool :=
  state.pendingCommands.any fun pending => pending.command = command

/-- The next recovery attempt of the oldest parked run, under the limit its first request
applied. -/
def recoverOldest (maxRecoveryAttempts : Nat) :
    List HarvestRunState → HarvestControlDecision
  | [] => .proceed
  | run :: _ =>
    let attempts := run.recoveryRequests.length
    let appliedLimit := (run.recoveryRequests.head?.map (·.limit)).getD maxRecoveryAttempts
    if attempts < appliedLimit then .requestRecovery run.run (attempts + 1) appliedLimit
    else .exhaustRecovery run.run attempts appliedLimit

/-- Human commands settle first; recorded exhaustion is a global barrier; then the automatic
requests are acknowledged before the oldest parked run receives its next attempt. -/
def decideHarvestControl (state : HarvestState) (maxRecoveryAttempts : Nat) :
    Except String HarvestControlDecision :=
  if maxRecoveryAttempts = 0 then
    .error "max harvest recovery attempts must be a positive integer"
  else if state.paused then
    if state.wants .resume then .ok (.acknowledge .resume) else .ok .park
  else if state.wants .pause then .ok (.acknowledge .pause)
  else if state.wants .resume then .ok (.acknowledge .resume)
  else if unresolvedHarvestAttentionRuns state ≠ [] then .ok .park
  else if (parkedHarvestRuns state).any (fun run => run.recoveryRequests.any unacknowledged) then
    .ok (.acknowledge .resume)
  else .ok (recoverOldest maxRecoveryAttempts (parkedHarvestRuns state))

end Autobuild
