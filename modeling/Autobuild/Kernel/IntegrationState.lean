/-
# Integration cycles of a node

A cycle fixes a head, a parent and a verify configuration.  It is current while no later spec
revision came, and it failed when one of its own verify results did (with stages: when a stage
of it was recorded as failed).
-/
import Autobuild.Kernel.VerifyStageState

namespace Autobuild

structure IntegrationState where
  cycles : List (WithSeq IntegrationPrepared) := []
  failures : List (WithSeq IntegrationVerificationFailed) := []
  observation : Option IntegrationObserved := none
  cycle : Option (WithSeq IntegrationPrepared) := none
  intent : Option IntegrationLandingIntended := none
  landing : Option IntegrationLanded := none
  audit : Option IntegrationAudited := none

def advanceIntegration (state : IntegrationState) (seq : Nat) :
    IntegrationEvent → IntegrationState
  | .verificationFailed payload => { state with failures := state.failures ++ [⟨payload, seq⟩] }
  | .observed payload => { state with observation := some payload }
  | .prepared payload =>
    { state with cycle := some ⟨payload, seq⟩, cycles := state.cycles ++ [⟨payload, seq⟩] }
  | .abandoned id _ => { state with intent := state.intent.filter (·.id ≠ id) }
  | .landingIntended payload => { state with intent := some payload }
  | .landed payload => { state with landing := some payload }
  | .audited payload => { state with audit := some payload }

/-- The part of a build's state that decides about its cycle. -/
structure CycleState where
  integration : Option IntegrationState
  restartSince : Nat
  nodeComparison : Option NodeCompared
  results : List VerifyResult
  cycleSince : Nat
  stageFailures : List VerifyStageFailure

def CycleState.cycle (state : CycleState) : Option (WithSeq IntegrationPrepared) :=
  state.integration.bind (·.cycle)

/-- `Array.isArray(JSON.parse(config).verify?.stages)`, false when it throws. -/
def usesVerifyStages (config : String) : Bool :=
  match (Json.parse config).bind (Json.property? "verify") with
  | some verify => ((verify.property? "stages").map Json.isArray).getD false
  | none => false

/-- A spec revision invalidates execution eligibility, never historical receipts. -/
def integrationCycleCurrent (state : CycleState) : Bool :=
  match state.cycle with
  | some cycle => decide (cycle.seq > state.restartSince)
  | none => false

/-- The comparison still shows the cycle's head on its parent. -/
def comparesCycle (state : CycleState) (cycle : IntegrationPrepared) : Bool :=
  match state.nodeComparison with
  | some comparison =>
    decide (comparison.headSha = cycle.head) && decide (comparison.parentSha = cycle.parent)
  | none => false

def integrationFailed (state : CycleState) : Bool :=
  match state.cycle with
  | none => false
  | some cycle =>
    integrationCycleCurrent state && comparesCycle state cycle.payload &&
      (!usesVerifyStages cycle.payload.config ||
        state.stageFailures.any (fun f =>
          f.payload.restackId = some cycle.payload.id ∧ f.payload.cycle = cycle.seq)) &&
      state.results.any (fun result =>
        result.seq > max cycle.seq state.cycleSince ∧
          result.restackId = some cycle.payload.id ∧ result.outcome = .fail)

end Autobuild
