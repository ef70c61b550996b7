/-
# The configuration the kernel reads

The sections of a validated configuration that the kernel's decisions depend on: the verify and
finalize steps, the commands they name, and the thresholds of the policy.  The checks across
sections (every listed step has a table, every command exists) are not invariants here, since
the engine is total on configurations that bypass them.
-/
import Autobuild.Lib.Json
import Autobuild.Lib.ObjectMap

namespace Autobuild

/-! ## 1. Sections -/

/-- `kind = "check"` with a command, or `kind = "agent"` with a skill. -/
inductive StepKind where
  | check (command : String)
  | agent (skill : String)
  deriving DecidableEq

structure VerifyStepConfig where
  kind : StepKind
  failFast : Option Bool
  afterReconcile : Option Bool
  /-- Any-match path selectors; absent means unconditional. -/
  paths : Option (List String)
  /-- `true` takes precedence over paths and plan selection. -/
  always : Option Bool

structure VerifyConfig where
  afterReconcile : Bool
  /-- Step order. -/
  steps : List String
  /-- Present only when the source contains grouped entries. -/
  stages : Option (List (List String))
  stepConfigs : ObjectMap String VerifyStepConfig

structure FinalizeConfig where
  /-- Ordered, failure-tolerant post-steps. -/
  steps : List String
  stepConfigs : ObjectMap String StepKind

structure PolicyConfig where
  stallRounds : Nat
  maxVerifyAttempts : Nat
  maxReconcileAttempts : Nat
  maxReviewRounds : Nat

structure Config where
  commands : ObjectMap String String
  verify : VerifyConfig
  finalize : FinalizeConfig
  policy : PolicyConfig

/-- Historical configurations have singleton stages without additional metadata. -/
def verifyStages (config : VerifyConfig) : List (List String) :=
  config.stages.getD (config.steps.map fun step => [step])

/-- `config.commands[command] ?? command`. -/
def Config.resolveCommand (config : Config) (command : String) : String :=
  (config.commands.get? command).getD command

/-! ## 2. The text of a configuration -/

def texts (items : List String) : Json := .arr (items.map .str)

/-- An optional property is written when it is set. -/
def optionalProperty (name : String) (value : Option Json) : List (String × Json) :=
  (value.map fun value => (name, value)).toList

def VerifyStepConfig.json (step : VerifyStepConfig) : Json :=
  .obj ((match step.kind with
    | .check command => [("kind", .str "check"), ("command", .str command)]
    | .agent skill => [("kind", .str "agent"), ("skill", .str skill)]) ++
    optionalProperty "failFast" (step.failFast.map .bool) ++
    optionalProperty "afterReconcile" (step.afterReconcile.map .bool) ++
    optionalProperty "paths" (step.paths.map texts) ++
    optionalProperty "always" (step.always.map .bool))

def VerifyConfig.json (config : VerifyConfig) : Json :=
  .obj ([("steps", texts config.steps),
    ("stepConfigs", .obj (config.stepConfigs.entries.map fun entry => (entry.1, entry.2.json))),
    ("afterReconcile", .bool config.afterReconcile)] ++
    optionalProperty "stages" (config.stages.map fun stages => .arr (stages.map texts)))

/-- `JSON.stringify({ verify: config.verify, commands: config.commands })`. -/
def integrationConfig (config : Config) : String :=
  (Json.obj [("verify", config.verify.json),
    ("commands", .obj (config.commands.entries.map fun entry =>
      (entry.1, .str entry.2)))]).stringify

end Autobuild
