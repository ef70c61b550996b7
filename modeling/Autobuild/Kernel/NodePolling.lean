/-
# Polling activity

One entry per event type: a command keeps its identity (its seq), an observation its meaning
(its canonical payload), so a repeated observation is no activity.
-/
import Autobuild.Events.Catalog

namespace Autobuild

/-! ## 1. Payloads of observations as JSON -/

namespace PayloadJson

def optional {α : Type} (key : String) (f : α → Json) : Option α → List (String × Json)
  | some value => [(key, f value)]
  | none => []

def nullable {α : Type} (f : α → Json) : Option α → Json
  | some value => f value
  | none => .null

def strings (texts : List String) : Json := .arr (texts.map .str)

def nodeCompared (payload : NodeCompared) : Json :=
  .obj [("parentSha", .str payload.parentSha), ("headSha", .str payload.headSha),
    ("ahead", .nat payload.ahead)]

def nodeParentDistance (payload : NodeParentDistance) : Json :=
  .obj [("base", .str payload.base), ("parent", .str payload.parent),
    ("branch", .str payload.branch), ("count", nullable .nat payload.count)]

def integrationChild (child : IntegrationChild) : Json :=
  .obj ([("source", .str child.source), ("id", .str child.id)]
    ++ optional "title" .str child.title ++ optional "builds" strings child.builds
    ++ optional "claims" strings child.claims)

def integrationObserved (payload : IntegrationObserved) : Json :=
  .obj (optional "membershipSource" .str payload.membershipSource
    ++ [("openChildren", strings payload.openChildren),
      ("diagnostics", strings payload.diagnostics),
      ("contributions", strings payload.contributions)]
    ++ optional "children" (fun children => .arr (children.map integrationChild)) payload.children)

def lineageReceipt (receipt : LineageReceipt) : Json :=
  .obj [("id", .str receipt.id), ("previous", .str receipt.previous), ("head", .str receipt.head)]

def targetLineage (lineage : TargetLineage) : Json :=
  .obj [("node", .str lineage.node), ("from", .str lineage.fromSha),
    ("receipts", .arr (lineage.receipts.map lineageReceipt))]

def targetMoved (payload : TargetMoved) : Json :=
  .obj ([("branch", .str payload.branch), ("sha", .str payload.sha)]
    ++ optional "lineage" (fun lineage => .arr (lineage.map targetLineage)) payload.lineage)

def nodeInventory (payload : NodeInventory) : Json :=
  .obj ([("head", .str payload.head)] ++ optional "base" .str payload.base
    ++ [("builds", strings payload.builds)]
    ++ optional "contributions" strings payload.contributions
    ++ [("foreign", strings payload.foreign)])

def landingCandidate (candidate : LandingCandidate) : Json :=
  .obj [("head", .str candidate.head), ("parent", .str candidate.parent),
    ("cycle", .str candidate.cycle)]

def landingMode : LandingMode → Json
  | .auto => .str "auto"
  | .consent => .str "consent"

def leafOrNode : BuildKind → Json
  | .work => .str "leaf"
  | .node => .str "node"

def landingRule (rule : LandingRule) : Json :=
  .obj (optional "into" .str rule.into ++ optional "from" leafOrNode rule.fromKind
    ++ optional "label" .str rule.label ++ [("mode", landingMode rule.mode)])

def landingRuleUse : LandingRuleUse → Json
  | .rule index snapshot => .obj [("index", .nat index), ("snapshot", landingRule snapshot)]
  | .default => .obj [("default", .bool true)]

def landingDestination : LandingDestination → Json
  | .root => .obj [("kind", .str "root")]
  | .node ticket => .obj [("kind", .str "node"), ("ticket", .str ticket)]

def landingDecided (payload : LandingDecided) : Json :=
  .obj [("candidate", landingCandidate payload.candidate), ("from", leafOrNode payload.fromKind),
    ("into", landingDestination payload.into), ("labels", strings payload.labels),
    ("mode", landingMode payload.mode), ("rule", landingRuleUse payload.rule)]

def nodeParentRejected (payload : NodeParentRejected) : Json :=
  .obj [("revision", .str payload.revision), ("target", nullable .str payload.target),
    ("reason", .str payload.reason)]

end PayloadJson

/-! ## 2. One event -/

/-- Events that are no activity. -/
def pollingExempt : EventBody → Bool
  | .node (.pollChecked _) => true
  | .observationRecorded _ => true
  | .session _ => true
  | .runner _ => true
  | .workspace _ => true
  | .build (.janitorAttemptFailed _) => true
  | .build (.janitorFailing _) => true
  | .build .janitorRecovered => true
  | _ => false

/-- The payload of an event in `observations`. -/
def observationPayload : EventBody → Option Json
  | .node (.compared payload) => some (PayloadJson.nodeCompared payload)
  | .node (.parentDistance payload) => some (PayloadJson.nodeParentDistance payload)
  | .integration (.observed payload) => some (PayloadJson.integrationObserved payload)
  | .target (.moved payload) => some (PayloadJson.targetMoved payload)
  | .node (.inventory payload) => some (PayloadJson.nodeInventory payload)
  | .landing (.decided payload) => some (PayloadJson.landingDecided payload)
  | .node (.parentRejected payload) => some (PayloadJson.nodeParentRejected payload)
  | _ => none

def advancePollingActivity (activity : ObjectMap String String) (event : AbEvent) :
    ObjectMap String String :=
  if pollingExempt event.body then activity
  else activity.set event.body.type
    (((observationPayload event.body).map Json.canonical).getD (toString event.seq))

end Autobuild
