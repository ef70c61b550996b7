/-
# The verify stage in progress

The stages of a configuration run one after another; the active one is the first with a step
that neither passed nor was skipped since the cycle began.
-/
import Autobuild.Config
import Autobuild.Kernel.LogIndex

namespace Autobuild

structure ActiveStage where
  stage : List String
  failures : List VerifyRecord
  cancellations : List VerifyCancellation
  /-- Steps with neither an outcome nor a cancellation. -/
  unfinished : List String
  /-- The earliest failure that cancels the rest. -/
  cause : Option VerifyRecord
  settled : Bool

/-- `outcome === 'pass' || outcome === 'skipped'`. -/
def VerifyOutcome.satisfies : VerifyOutcome → Bool
  | .pass => true
  | .fail => false
  | .skipped => true

section

variable (config : VerifyConfig) (results : List VerifyRecord) (state : VerifyStageState)
  (cycle : Nat)

/-- The first outcome of a step in the cycle. -/
def stageOutcome (step : String) : Option VerifyRecord :=
  results.find? fun result => result.seq > cycle && result.step = step

def stageSatisfied (stage : List String) : Bool :=
  stage.all fun step =>
    ((stageOutcome results cycle step).map (·.outcome.satisfies)).getD false

def failsFast (step : String) : Bool :=
  decide ((config.stepConfigs.get? step).bind (·.failFast) = some true)

def stageInProgress (stage : List String) : ActiveStage :=
  let outcomes := stage.map (stageOutcome results cycle)
  let cancellations := state.cancellations.values.filter fun item =>
    decide (item.seq > cycle) && decide (item.payload.step ∈ stage)
  let unfinished := stage.filter fun step =>
    (stageOutcome results cycle step).isNone
      && !cancellations.any (fun item => item.payload.step = step)
  let failures := outcomes.filterMap fun result => result.filter (·.outcome = .fail)
  { stage := stage
    failures := failures
    cancellations := cancellations
    unfinished := unfinished
    cause := ((failures.filter fun result => failsFast config result.step).insertionSort
      fun a b => a.seq ≤ b.seq).head?
    settled := unfinished.isEmpty }

/-- Pure barrier selection shared by leaf and integration verification. -/
def activeVerifyStage : Option ActiveStage :=
  ((verifyStages config).find? fun stage => !stageSatisfied results cycle stage).map
    (stageInProgress config results state cycle)

end

end Autobuild
