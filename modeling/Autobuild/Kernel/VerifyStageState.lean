/-
# Verify stages: members, outcomes, cancellations

A verify cycle starts members (a step at an attempt), possibly several at a time.  The state
keeps, under the member's key, its start, the seq of its outcome and its cancellation; the
first of the two that arrives stands.

`runningVerifyMembers` are the members started in the cycle with neither.  They are listed in
the order of the member map, which is the order the members were first started in.
-/
import Autobuild.Events.Catalog

namespace Autobuild

/-! ## 1. Escalations -/

/-- An `escalation.raised` without a matching `escalation.answered`. -/
structure OpenEscalation where
  id : String
  phase : EscalationTarget
  round : Option Nat
  source : EscalationSource
  /-- Raising agent identity, for occurrence-scoped cancellation. -/
  session : Option String
  policyCause : Option PolicyEscalationCause
  /-- `deferral: 'own-build-read'`. -/
  deferral : Bool
  question : String
  refs : Option (List String)
  seq : Nat
  deriving DecidableEq

structure AnsweredEscalation extends OpenEscalation where
  answer : String
  resolution : EscalationResolution
  artifact : Option ArtifactRef
  assets : Option (List PinnedAsset)
  reviewRoundCeiling : Option Nat
  answeredSeq : Nat
  deriving DecidableEq

/-- `OpenEscalation | AnsweredEscalation`. -/
inductive AnyEscalation where
  | opened (escalation : OpenEscalation)
  | answered (escalation : AnsweredEscalation)
  deriving DecidableEq

def AnyEscalation.base : AnyEscalation → OpenEscalation
  | .opened escalation => escalation
  | .answered escalation => escalation.toOpenEscalation

/-- One `verify.completed` fact, as the build keeps it. -/
structure VerifyResult extends NormalizedVerifyCompletion where
  seq : Nat
  deriving DecidableEq

/-! ## 2. The state -/

/-- `JSON.stringify([step, attempt])`, which starts with a bracket and so is no array index. -/
structure MemberKey where
  step : String
  attempt : Nat
  deriving DecidableEq, Repr

instance : PropertyKey MemberKey := ⟨fun _ => none⟩

def verifyMemberKey (step : String) (attempt : Nat) : MemberKey := ⟨step, attempt⟩

abbrev VerifyMember := WithSeq VerifyStarted
abbrev VerifyCancellation := WithSeq VerifyCancelled
abbrev VerifyStageFailure := WithSeq VerifyStageFailed

structure VerifyStageState where
  cycle : Nat
  concurrent : Bool
  executionSeq : Nat
  cleanupExecutionSeq : Option Nat
  members : ObjectMap MemberKey VerifyMember
  owners : ObjectMap String MemberKey
  outcomes : ObjectMap MemberKey Nat
  cancellations : ObjectMap MemberKey VerifyCancellation
  failures : List VerifyStageFailure
  implementations : ObjectMap Nat Nat
  superseded : List (AnyEscalation × VerifyCancellation)

def initialVerifyStageState : VerifyStageState where
  cycle := 0
  concurrent := false
  executionSeq := 0
  cleanupExecutionSeq := none
  members := ∅
  owners := ∅
  outcomes := ∅
  cancellations := ∅
  failures := []
  implementations := ∅
  superseded := []

namespace VerifyStageState

/-- `!!state.outcomes[key]`: a seq of zero is no outcome. -/
def hasOutcome (state : VerifyStageState) (key : MemberKey) : Bool :=
  match state.outcomes.get? key with
  | some seq => decide (seq ≠ 0)
  | none => false

/-- `!!state.cancellations[key]`. -/
def hasCancellation (state : VerifyStageState) (key : MemberKey) : Bool :=
  (state.cancellations.get? key).isSome

/-- A member of the cycle with neither outcome nor cancellation. -/
def isRunning (state : VerifyStageState) (cycle : Nat) (key : MemberKey) (member : VerifyMember) :
    Bool :=
  decide (member.seq > cycle) && !state.hasOutcome key && !state.hasCancellation key

end VerifyStageState

def runningVerifyMembers (state : VerifyStageState) (cycle : Nat) : List VerifyMember :=
  (state.members.entries.filter (fun entry => state.isRunning cycle entry.1 entry.2)).map Prod.snd

/-! ## 3. One event -/

/-- `verify.started`: another member still running makes the cycle concurrent. -/
def startVerifyMember (state : VerifyStageState) (payload : VerifyStarted) (seq : Nat) :
    VerifyStageState :=
  let key := verifyMemberKey payload.step payload.attempt
  { state with
    concurrent := state.concurrent || state.members.entries.any (fun entry =>
      decide (entry.1 ≠ key) && state.isRunning state.cycle entry.1 entry.2)
    members := state.members.set key ⟨payload, seq⟩ }

/-- `session.started` of a verify phase: the session owns its member.  `owners` is a plain object,
in which an assignment to `__proto__` makes no property. -/
def ownVerifyMember (state : VerifyStageState) (payload : SessionStarted) : VerifyStageState :=
  match payload.phase, payload.round with
  | .verify step, some round =>
    let key := verifyMemberKey step round
    if state.members.has key ∧ payload.session ≠ "__proto__" then
      { state with owners := state.owners.set payload.session key }
    else state
  | _, _ => state

/-- `verify.completed`: ignored once the member is cancelled. -/
def completeVerifyMember (state : VerifyStageState) (payload : VerifyCompleted) (seq : Nat) :
    VerifyStageState :=
  let result := normalizeVerifyCompletion payload
  let key := verifyMemberKey result.step result.attempt
  if state.hasCancellation key then state
  else { state with outcomes := state.outcomes.set key seq }

/-- `verify.cancelled`: ignored once the member has an outcome or is cancelled. -/
def cancelVerifyMember (state : VerifyStageState) (payload : VerifyCancelled) (seq : Nat) :
    VerifyStageState :=
  let key := verifyMemberKey payload.step payload.attempt
  if !state.hasOutcome key && !state.hasCancellation key then
    { state with
      cancellations := state.cancellations.set key ⟨payload, seq⟩
      cleanupExecutionSeq := some state.executionSeq }
  else state

/-- `implement.started` that answers a stage failure of the current cycle. -/
def attributeImplementation (state : VerifyStageState) (payload : ImplementStarted) (seq : Nat) :
    VerifyStageState :=
  match payload.verifyStageFailure with
  | none => state
  | some failure =>
    if state.failures.any (fun f => f.seq = failure ∧ f.seq < seq ∧ f.payload.cycle = state.cycle)
    then { state with implementations := state.implementations.set payload.round failure }
    else state

def advanceVerifyStage (state : VerifyStageState) (event : AbEvent) : VerifyStageState :=
  match event.body with
  | .verify (.configCaptured _) => { state with cycle := event.seq }
  | .verify (.configSuperseded _) => { state with cycle := event.seq }
  | .spec (.revised _ _) => { state with cycle := event.seq }
  | .reconcile (.completed _) => { state with cycle := event.seq }
  | .integration (.prepared _) => { state with cycle := event.seq }
  | .codeReview (.verdict payload) =>
    if payload.verdict = .approve then { state with cycle := event.seq } else state
  | .execution (.started _) => { state with executionSeq := event.seq }
  | .verify (.started payload) => startVerifyMember state payload event.seq
  | .session (.started payload) => ownVerifyMember state payload
  | .verify (.completed payload) => completeVerifyMember state payload event.seq
  | .verify (.cancelled payload) => cancelVerifyMember state payload event.seq
  | .verify (.stageFailed payload) =>
    { state with failures := state.failures ++ [⟨payload, event.seq⟩] }
  | .implement (.started payload) => attributeImplementation state payload event.seq
  | _ => state

/-! ## 4. What an event leaves alone -/

/-- Members come by `verify.started` only, and so does concurrency. -/
theorem members_advanceVerifyStage (state : VerifyStageState) (event : AbEvent) :
    (∃ payload, event.body = .verify (.started payload) ∧
      advanceVerifyStage state event = startVerifyMember state payload event.seq) ∨
    ((advanceVerifyStage state event).members = state.members ∧
      (advanceVerifyStage state event).concurrent = state.concurrent) := by
  obtain ⟨seq, ts, actor, body⟩ := event
  cases body with
  | verify body =>
    cases body with
    | started payload => exact Or.inl ⟨payload, rfl, rfl⟩
    | completed payload =>
      right
      unfold advanceVerifyStage completeVerifyMember
      dsimp only
      split <;> exact ⟨rfl, rfl⟩
    | cancelled payload =>
      right
      unfold advanceVerifyStage cancelVerifyMember
      dsimp only
      split <;> exact ⟨rfl, rfl⟩
    | _ => exact Or.inr ⟨rfl, rfl⟩
  | session body =>
    cases body with
    | started payload =>
      right
      unfold advanceVerifyStage ownVerifyMember
      dsimp only
      split
      · split <;> exact ⟨rfl, rfl⟩
      · exact ⟨rfl, rfl⟩
    | _ => exact Or.inr ⟨rfl, rfl⟩
  | implement body =>
    cases body with
    | started payload =>
      right
      unfold advanceVerifyStage attributeImplementation
      dsimp only
      split
      · exact ⟨rfl, rfl⟩
      · split <;> exact ⟨rfl, rfl⟩
    | completed payload => exact Or.inr ⟨rfl, rfl⟩
  | codeReview body =>
    cases body with
    | started round => exact Or.inr ⟨rfl, rfl⟩
    | verdict payload =>
      right
      unfold advanceVerifyStage
      dsimp only
      split <;> exact ⟨rfl, rfl⟩
  | spec body => cases body <;> exact Or.inr ⟨rfl, rfl⟩
  | reconcile body => cases body <;> exact Or.inr ⟨rfl, rfl⟩
  | integration body => cases body <;> exact Or.inr ⟨rfl, rfl⟩
  | execution body => cases body <;> exact Or.inr ⟨rfl, rfl⟩
  | _ => exact Or.inr ⟨rfl, rfl⟩

/-- A cycle once concurrent stays so. -/
theorem concurrent_advanceVerifyStage {state : VerifyStageState} (h : state.concurrent = true)
    (event : AbEvent) : (advanceVerifyStage state event).concurrent = true := by
  rcases members_advanceVerifyStage state event with ⟨payload, -, he⟩ | ⟨-, hc⟩
  · rw [he]
    simp [startVerifyMember, h]
  · rw [hc, h]

/-- Members are never forgotten. -/
theorem size_members_advanceVerifyStage {state : VerifyStageState} (h : state.members.size ≠ 0)
    (event : AbEvent) : (advanceVerifyStage state event).members.size ≠ 0 := by
  rcases members_advanceVerifyStage state event with ⟨payload, -, he⟩ | ⟨hm, -⟩
  · rw [he]
    exact ObjectMap.size_set_ne_zero _ _ _
  · rw [hm]
    exact h

end Autobuild
