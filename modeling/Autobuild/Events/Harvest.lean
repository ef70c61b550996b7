/-
# The harvest events of the repository journal

A harvest run claims a snapshot of observation occurrences, proposes tickets for them, and ends
with a ledger of dispositions.  These are the payloads the harvest reducer reads.
-/
import Autobuild.Events.Payloads

namespace Autobuild

/-! ## 1. Values -/

/-- Event sequence numbers are only monotonic within one build. -/
structure OccurrenceKey where
  build : String
  seq : Nat
  deriving DecidableEq, Repr

def occurrenceKey (key : OccurrenceKey) : String := s!"{key.build}:{key.seq}"

inductive HarvestStep where
  | scan
  | synthesize
  | review
  | file
  deriving DecidableEq, Repr

inductive HarvestStepOutcome where
  | completed
  | approve
  | revise
  | escalate
  | failed
  deriving DecidableEq, Repr

inductive HarvestTrigger where
  | count
  | drift
  | both
  deriving DecidableEq, Repr

inductive HarvestDispositionAction where
  | filed
  | joined
  | suppressed
  deriving DecidableEq, Repr

structure HarvestDisposition where
  occurrence : OccurrenceKey
  action : HarvestDispositionAction
  proposalKey : Option String
  ticket : Option TicketRef
  reason : Option String
  deriving DecidableEq

inductive HarvestProposalAction where
  | create
  | join
  | suppress
  deriving DecidableEq, Repr

/-- Proposal work still pending when automatic recovery is exhausted. -/
structure HarvestPendingProposal where
  proposalKey : String
  action : HarvestProposalAction
  observations : List OccurrenceKey
  deriving DecidableEq

structure HarvestBlockerProvenance where
  declared : List String
  derived : List String
  deriving DecidableEq

inductive HarvestEscalationSource where
  | agent
  | stall
  | policy
  deriving DecidableEq, Repr

/-! ## 2. Sessions -/

inductive HarvestSuspensionCause where
  | shutdown
  | cutover
  deriving DecidableEq, Repr

inductive HarvestContinuationCause where
  | shutdown
  | cutover
  | runnerLoss
  deriving DecidableEq, Repr

structure HarvestContinuation where
  predecessor : String
  root : String
  handle : Option NativeSessionHandle
  cause : HarvestContinuationCause
  deriving DecidableEq

structure HarvestSessionStarted where
  continuation : Option HarvestContinuation
  run : String
  session : String
  step : HarvestStep
  round : Nat
  deriving DecidableEq

/-- `harvest.session.*` after the start. -/
inductive HarvestSessionFact where
  | nativeHandleRecorded (handle : NativeSessionHandle)
  | suspended (cause : HarvestSuspensionCause) (transcript : ArtifactRef)
  | resumed (predecessor root : String) (handle : NativeSessionHandle)
  | resumeFallback
  | ended (transcript : ArtifactRef)

/-! ## 3. Payloads -/

/-- Where a run stopped. -/
structure HarvestBoundary where
  step : HarvestStep
  round : Option Nat
  error : String
  deriving DecidableEq

/-- Atomic give-up: commit the safe partial ledger, release the pending observations. -/
structure HarvestRecoveryExhausted where
  run : String
  stopped : HarvestBoundary
  attempts : Nat
  limit : Nat
  releasedObservations : List OccurrenceKey
  committedDispositions : List HarvestDisposition
  pendingProposals : List HarvestPendingProposal
  deriving DecidableEq

structure HarvestStarted where
  run : String
  observations : List OccurrenceKey
  scan : ArtifactRef
  trigger : Option HarvestTrigger
  deriving DecidableEq

structure HarvestStepCompleted where
  run : String
  step : HarvestStep
  outcome : HarvestStepOutcome
  round : Option Nat
  artifact : Option ArtifactRef
  detail : Option String
  deriving DecidableEq

structure HarvestReviewVerdict where
  run : String
  round : Nat
  verdict : ReviewVerdictKind
  findings : List Finding
  artifact : ArtifactRef
  reason : Option String
  deriving DecidableEq

structure HarvestProposalFiled where
  run : String
  proposalKey : String
  ticket : TicketRef
  blockers : Option HarvestBlockerProvenance
  deriving DecidableEq

structure HarvestFailed where
  run : String
  stopped : HarvestBoundary
  attempt : Nat
  willRetry : Bool
  deriving DecidableEq

inductive HarvestEvent where
  | pauseRequested
  | resumeRequested
  | paused
  | resumed
  | recoveryRequested (run : String) (attempt limit : Nat)
  | recoveryExhausted (payload : HarvestRecoveryExhausted)
  | started (payload : HarvestStarted)
  | stepStarted (run : String) (step : HarvestStep) (round : Option Nat)
  | stepCompleted (payload : HarvestStepCompleted)
  | proposalsSubmitted (run : String) (round : Nat) (artifact : ArtifactRef)
  | reviewVerdict (payload : HarvestReviewVerdict)
  | proposalIdReserved (run proposalKey id : String)
  | proposalFiled (payload : HarvestProposalFiled)
  | completed (run : String) (dispositions : List HarvestDisposition) (report : ArtifactRef)
  | escalated (run : String) (source : HarvestEscalationSource) (reason : String)
      (round : Option Nat)
  | failed (payload : HarvestFailed)
  | sessionStarted (payload : HarvestSessionStarted)
  | sessionFact (run session : String) (fact : HarvestSessionFact)

end Autobuild
