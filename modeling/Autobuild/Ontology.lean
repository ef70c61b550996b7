/-
# The ontology: one name, used everywhere

The nouns that events, reducers and the engine share: phases, findings, verdicts,
escalations, artifacts, actors.  Closed vocabularies are inductive types; the verify steps are
an open set, named by the configuration.
-/
import Autobuild.Lib.JsText

namespace Autobuild

/-! ## 1. Phases -/

inductive CorePhase where
  | plan
  | planReview
  | implement
  | codeReview
  | finalize
  | reconcile
  deriving DecidableEq, Repr, Inhabited

/-- A core phase, or `verify:${step}`. -/
inductive Phase where
  | core (phase : CorePhase)
  | verify (step : String)
  deriving DecidableEq, Repr, Inhabited

/-- `phase.startsWith('verify:')`. -/
def Phase.isVerify : Phase → Bool
  | .core _ => false
  | .verify _ => true

/-- `verify:${step}`. -/
def verifyPhase (step : String) : Phase := .verify step

/-- Setup may block a build through the escalation protocol without becoming a phase. -/
inductive EscalationTarget where
  | phase (phase : Phase)
  | setup
  deriving DecidableEq, Repr, Inhabited

/-! ## 2. Artifacts, tickets, commits -/

structure ArtifactRef where
  kind : String
  rev : Nat
  deriving DecidableEq, Repr, Inhabited

structure TicketRef where
  source : String
  id : String
  url : Option String
  title : Option String
  deriving DecidableEq, Repr, Inhabited

structure CommitRange where
  base : String
  head : String
  deriving DecidableEq, Repr, Inhabited

/-- One ticket asset revision a build froze. -/
structure PinnedAsset where
  snapshot : Option (String × Nat)
  kind : String
  name : String
  revision : Nat
  layout : String
  size : Nat
  fileCount : Nat
  dirCount : Nat
  deriving DecidableEq, Repr, Inhabited

/-! ## 3. Reviews and verification -/

inductive Severity where
  | blocking
  | important
  | minor
  deriving DecidableEq, Repr, Inhabited

structure Finding where
  id : String
  severity : Severity
  file : Option String
  lines : Option (List Int)
  summary : String
  detail : Option String
  /-- Reviewer-marked: ids of earlier findings this one continues. -/
  persists : List String
  deriving DecidableEq, Repr, Inhabited

inductive ReviewVerdictKind where
  | approve
  | revise
  | escalate
  deriving DecidableEq, Repr, Inhabited

inductive VerifyOutcome where
  | pass
  | fail
  | skipped
  deriving DecidableEq, Repr, Inhabited

/-- What a started event carries to the phase it starts. -/
inductive Feedback where
  | findings (ids : List String)
  | verify (step : String) (report : ArtifactRef)
  | guidance (escalation answer : String)
  deriving DecidableEq, Repr, Inhabited

/-! ## 4. Escalations, outcomes, statuses -/

inductive EscalationSource where
  | agent
  | stall
  | policy
  deriving DecidableEq, Repr, Inhabited

inductive PolicyEscalationCause where
  | reviewRoundLimit
  | verifyFailureLimit
  | reconcileNoProgress
  | dispatchFailureLimit
  | executionNoProgress
  | setupFailureLimit
  | infrastructureFailureLimit
  | publicationRetryLimit
  | phaseAttemptLimit
  | nonRetryablePhaseFailure
  deriving DecidableEq, Repr, Inhabited

inductive EscalationResolution where
  | guidance
  | dismissFinding
  | reviseSpec
  | abort
  | retry
  deriving DecidableEq, Repr, Inhabited

inductive BuildOutcome where
  | merged
  | closedUnmerged
  | abandoned
  | discarded
  deriving DecidableEq, Repr, Inhabited

inductive BuildStatus where
  | queued
  | running
  | collecting
  | paused
  | blocked
  | done
  | aborted
  deriving DecidableEq, Repr, Inhabited

inductive BuildKind where
  | work
  | node
  deriving DecidableEq, Repr, Inhabited

/-! ## 5. Actors -/

/-- The delegate a human acted through. -/
inductive Via where
  | session (id : String)
  | mcp (client : String)
  deriving DecidableEq, Repr, Inhabited

inductive Actor where
  | kernel
  | agent (role session : String)
  | human (user : String) (via : Option Via)
  | dispatcher
  | ingester (source : String)
  deriving DecidableEq, Repr, Inhabited

end Autobuild
