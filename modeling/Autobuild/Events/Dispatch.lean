/-
# Upgrades of the dispatcher

The journal events by which a dispatcher finds a new runtime, hands its work to the run that
starts on it, and is rolled back.  A runtime identity is an object whose text is compared, so it
keeps the order its properties are written in.
-/
import Autobuild.Events.Payloads
import Autobuild.Lib.Json

namespace Autobuild

/-! ## 1. Runtimes -/

inductive RuntimeKey where
  | version
  | commit
  | source
  deriving DecidableEq

inductive RuntimeSourceKey where
  | kind
  | location
  deriving DecidableEq

def RuntimeKey.schemaOrder : List RuntimeKey := [.version, .commit, .source]

def RuntimeSourceKey.schemaOrder : List RuntimeSourceKey := [.kind, .location]

/-- A runtime identity, and the order its properties are written in. -/
structure WrittenRuntime extends RuntimeIdentity where
  keyOrder : { order : List RuntimeKey // order.Perm RuntimeKey.schemaOrder }
  sourceOrder : { order : List RuntimeSourceKey // order.Perm RuntimeSourceKey.schemaOrder }
  deriving DecidableEq

namespace WrittenRuntime

def sourceProperty (runtime : WrittenRuntime) : RuntimeSourceKey → String × Json
  | .kind => ("kind", .str runtime.sourceKind)
  | .location => ("location", .str runtime.sourceLocation)

def property (runtime : WrittenRuntime) : RuntimeKey → String × Json
  | .version => ("version", .str runtime.version)
  | .commit => ("commit", .str runtime.commit)
  | .source => ("source", .obj (runtime.sourceOrder.val.map runtime.sourceProperty))

def json (runtime : WrittenRuntime) : Json := .obj (runtime.keyOrder.val.map runtime.property)

/-- `JSON.stringify(runtime)`. -/
def stringify (runtime : WrittenRuntime) : String := runtime.json.stringify

/-- Written in the order of the schema. -/
def canonical (runtime : WrittenRuntime) : WrittenRuntime :=
  { runtime with
    keyOrder := ⟨RuntimeKey.schemaOrder, List.Perm.refl _⟩
    sourceOrder := ⟨RuntimeSourceKey.schemaOrder, List.Perm.refl _⟩ }

end WrittenRuntime

/-! ## 2. Payloads -/

inductive UpgradeTargetMode where
  | pinned
  | installed
  | source
  deriving DecidableEq

structure UpgradeTarget where
  mode : UpgradeTargetMode
  key : String
  source : String
  version : Option String
  base : Option String
  sha : Option String
  deriving DecidableEq

structure UpgradeTargetResolved where
  run : String
  lineage : String
  target : UpgradeTarget
  deriving DecidableEq

/-- `upgradeIdentitySchema`. -/
structure UpgradeIdentity where
  correlation : String
  run : String
  lineage : String
  fromRuntime : WrittenRuntime
  target : UpgradeTarget
  deriving DecidableEq

structure UpgradeFailed extends UpgradeIdentity where
  reason : String
  deriving DecidableEq

/-- `handoffSchema`. -/
structure Handoff extends UpgradeIdentity where
  toRuntime : WrittenRuntime
  root : String
  cacheId : String
  deriving DecidableEq

inductive HandoffMode where
  | drain
  | cutover
  deriving DecidableEq

structure YieldRequested extends Handoff where
  successor : String
  mode : HandoffMode
  evidence : String
  deriving DecidableEq

/-- A build and the instance that executes it. -/
structure ExecutingBuild where
  slug : String
  instanceId : String
  deriving DecidableEq

/-- Historical handoffs have neither a successor nor a mode. -/
structure DispatchHandoffStarted extends Handoff where
  successor : Option String
  mode : Option HandoffMode
  deadline : Option String
  builds : Option (List ExecutingBuild)
  deriving DecidableEq

structure Takeover extends Handoff where
  successor : String
  deriving DecidableEq

structure DrainDeadline extends Handoff where
  deadline : String
  deriving DecidableEq

inductive DrainOutcome where
  | drained
  | suspended
  | unknown
  deriving DecidableEq

structure DrainSettled extends Handoff where
  slug : String
  instanceId : String
  outcome : DrainOutcome
  deriving DecidableEq

structure HandoffCompleted extends Handoff where
  successor : String
  deriving DecidableEq

structure RuntimeRolledBack where
  correlation : String
  run : String
  lineage : String
  target : UpgradeTarget
  deriving DecidableEq

structure RollbackHoldCleared where
  correlation : String
  lineage : String
  target : UpgradeTarget
  deriving DecidableEq

/-! ## 3. Events -/

/-- The events that are kept on the run they name. -/
inductive UpgradeEvent where
  | targetResolved (payload : UpgradeTargetResolved)
  | detected (payload : UpgradeIdentity)
  | failed (payload : UpgradeFailed)
  | targetPrepared (payload : Handoff)
  | yieldRequested (payload : YieldRequested)
  | handoffStarted (payload : DispatchHandoffStarted)
  | terminalReleased (payload : Handoff)
  | takeover (payload : Takeover)
  | drainDeadline (payload : DrainDeadline)
  | drainSettled (payload : DrainSettled)
  | handoffCompleted (payload : HandoffCompleted)

def UpgradeEvent.run : UpgradeEvent → String
  | .targetResolved payload => payload.run
  | .detected payload => payload.run
  | .failed payload => payload.run
  | .targetPrepared payload => payload.run
  | .yieldRequested payload => payload.run
  | .handoffStarted payload => payload.run
  | .terminalReleased payload => payload.run
  | .takeover payload => payload.run
  | .drainDeadline payload => payload.run
  | .drainSettled payload => payload.run
  | .handoffCompleted payload => payload.run

inductive DispatchBody where
  | runStarted (run : String) (lineage : Option String)
  | tickStarted (run : String)
  | rolledBack (payload : RuntimeRolledBack)
  | rollbackHoldCleared (payload : RollbackHoldCleared)
  | upgrade (event : UpgradeEvent)
  /-- A type the upgrade state does not read. -/
  | other (type : String)

structure DispatchEvent where
  seq : Nat
  body : DispatchBody

end Autobuild
