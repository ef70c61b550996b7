/-
# The restack of a leaf

What a work build knows of its target branch: where the branch moved, the restack transaction
in flight with its replay and publish intent, and the completed restacks by the verify cycle
they opened (`gates`).
-/
import Autobuild.Events.Catalog

namespace Autobuild

structure LeafRestackState where
  /-- The time of the latest event that is no distance. -/
  activityAt : Option Nat := none
  initialBase : Option String := none
  postStepAt : Option Nat := none
  completedAt : Option Nat := none
  finalizedAt : Option Nat := none
  target : Option (WithSeq TargetMoved) := none
  targetRewrite : Option TargetRewritten := none
  distance : Option TargetDistance := none
  active : Option LeafRestack := none
  replay : Option RestackReplayed := none
  intent : Option LeafRestackAt := none
  completed : Option LeafRestackAt := none
  reconcileAttempt : Option Nat := none
  initialVerification : Option Bool := none
  gates : ObjectMap Nat LeafRestackAt := ∅

namespace LeafRestackState

/-- A distance measured at another head is stale. -/
def keepDistance (state : LeafRestackState) (head : String) : LeafRestackState :=
  { state with distance := state.distance.filter fun distance => distance.head = some head }

def activeId (state : LeafRestackState) : Option String := state.active.map (·.id)

def retireCandidate (state : LeafRestackState) (payload : PublicationCandidateRetired) :
    LeafRestackState :=
  if payload.operation = .restack ∧ state.activeId = some payload.id then
    { state with
      active := state.active.map ({ · with id := payload.replacementId })
      replay := none
      intent := none }
  else state

/-- A reconcile of the restack in flight, or of a conflict. -/
def startReconcile (state : LeafRestackState) (payload : ReconcileStarted) : LeafRestackState :=
  match state.active with
  | some active =>
    if payload.restackId = some active.id then
      { state with
        reconcileAttempt := some payload.attempt
        initialVerification := some (active.trigger = .verifyEntry) }
    else { state with initialVerification := some false }
  | none => { state with initialVerification := some false }

def complete (state : LeafRestackState) (seq : Nat) (payload : LeafRestackAt) :
    LeafRestackState :=
  let state := { state.keepDistance payload.headSha with
    completedAt := some seq
    completed := some payload
    gates := state.gates.set payload.cycle payload }
  if state.activeId = some payload.id then
    { state with active := none, replay := none, intent := none }
  else state

/-- A rewrite that is cleared with its lineage completes the target it was seen at. -/
def clearRewrite (state : LeafRestackState) (payload : TargetMoved) : LeafRestackState :=
  { state with
    target := state.target.map fun target =>
      if payload.lineage.isSome ∧ target.payload.branch = payload.branch
          ∧ target.payload.sha = payload.sha then
        ⟨{ target.payload with lineage := payload.lineage }, target.seq⟩
      else target
    targetRewrite := none }

def finishPostStep (state : LeafRestackState) (seq : Nat) (payload : FinalizeStepCompleted) :
    LeafRestackState :=
  match payload.headSha with
  | none => state
  | some headSha =>
    if payload.ok then
      let state := if headSha = "" then state else state.keepDistance headSha
      { state with postStepAt := some seq }
    else state

end LeafRestackState

open LeafRestackState in
/-- The switch on the type of the event. -/
def advanceLeafRestackBody (state : LeafRestackState) (seq : Nat) :
    EventBody → LeafRestackState
  | .workspace (.provisioned base) => { state with initialBase := state.initialBase.or (some base) }
  | .finalize (.completed _) => { state with finalizedAt := some seq }
  | .node (.parentAccepted _) =>
    { state with targetRewrite := none, distance := none, target := none }
  | .pr (.opened pr) => state.keepDistance pr.headSha
  | .implement (.completed payload) => state.keepDistance payload.commits.head
  | .restack (.rewritten _) => { state with distance := none }
  | .reconcile (.rewritten _) => { state with distance := none }
  | .finalize (.stepCompleted payload) => state.finishPostStep seq payload
  | .target (.distance payload) => { state with distance := some payload }
  | .target (.rewritten payload) => { state with targetRewrite := some payload }
  | .target (.rewriteCleared payload) => state.clearRewrite payload
  | .target (.moved payload) =>
    { state with targetRewrite := none, distance := none, target := some ⟨payload, seq⟩ }
  | .publication (.candidateRetired payload) => state.retireCandidate payload
  | .restack (.prepared payload) =>
    { state with active := some payload, replay := none, intent := none, reconcileAttempt := none }
  | .restack (.replayed payload) =>
    if some payload.id = state.activeId then { state with replay := some payload } else state
  | .restack (.publishIntended payload) =>
    if some payload.id = state.activeId then { state with intent := some payload } else state
  | .reconcile (.started payload) => state.startReconcile payload
  | .restack (.completed payload) => state.complete seq payload
  | _ => state

def noteActivity (state : LeafRestackState) (event : AbEvent) : LeafRestackState :=
  match event.body with
  | .target (.distance _) => state
  | _ => { state with activityAt := some event.ts }

def advanceLeafRestackEvent (state : LeafRestackState) (event : AbEvent) : LeafRestackState :=
  advanceLeafRestackBody (noteActivity state event) event.seq event.body

def advanceLeafRestack (state : LeafRestackState) (events : List AbEvent) : LeafRestackState :=
  events.foldl advanceLeafRestackEvent state

end Autobuild
