/-
# Accumulators up to the order of their keys

A store that keeps JSON without the order of its keys gives an accumulator back with the keys
of its objects in another order.

* `KeyedParts` are the parts of an accumulator that are dictionaries or hold native session
  handles; the rest of it is a record, whose own order nothing reads.
* `SameKeyed`, `SameAcc`, `SameState`: the same up to the order of keys.
* Handles are compared through `canonical`, dictionaries through what they hold at each key.
* `UnevenMarks` are the sessions that one accumulator marks resumed and the other does not: a
  resumption compares the texts of two handles.  `SameAcc` allows for them, `SameState` does not.
-/
import Autobuild.Kernel.Reducer
import Autobuild.Lib.Checked

namespace Autobuild

open ObjectMap

/-! ## 1. Handles -/

def SessionContinuation.canonical (continuation : SessionContinuation) : SessionContinuation :=
  { continuation with handle := continuation.handle.canonical }

def OpenSession.canonical (session : OpenSession) : OpenSession :=
  { session with
    nativeHandle := session.nativeHandle.map (·.canonical)
    continuation := session.continuation.map (·.canonical) }

def SessionEvent.canonical : SessionEvent → SessionEvent
  | .started payload =>
    .started { payload with continuation := payload.continuation.map (·.canonical) }
  | .suspended payload => .suspended { payload with handle := payload.handle.map (·.canonical) }
  | .resumed payload => .resumed { payload with handle := payload.handle.canonical }
  | .nativeHandleRecorded payload =>
    .nativeHandleRecorded { payload with handle := payload.handle.canonical }
  | event => event

/-- An event with the handles of its payload in the order of the schema. -/
def AbEvent.canonical (event : AbEvent) : AbEvent :=
  match event.body with
  | .session body => { event with body := .session body.canonical }
  | _ => event

/-! ## 2. The node ledger -/

/-- The dictionaries of a node ledger. -/
structure LedgerMaps where
  requests : Option (ObjectMap String NodeRestackRequested)
  contributionBoundaries : Option (ObjectMap String String)
  foreignAliases : Option (ObjectMap String String)

def NodeRestackState.maps (state : NodeRestackState) : LedgerMaps :=
  ⟨state.requests, state.contributionBoundaries, state.foreignAliases⟩

def NodeRestackState.withMaps (state : NodeRestackState) (maps : LedgerMaps) : NodeRestackState :=
  { state with
    requests := maps.requests
    contributionBoundaries := maps.contributionBoundaries
    foreignAliases := maps.foreignAliases }

/-- Both absent, or dictionaries with the same properties. -/
def SameOptional {κ ν : Type} [DecidableEq κ] (m m' : Option (ObjectMap κ ν)) : Prop :=
  Option.Rel SameEntries m m'

structure SameMaps (m m' : LedgerMaps) : Prop where
  requests : SameOptional m.requests m'.requests
  contributionBoundaries : SameOptional m.contributionBoundaries m'.contributionBoundaries
  foreignAliases : SameOptional m.foreignAliases m'.foreignAliases

/-- The same ledger, perhaps with the keys of its dictionaries in another order. -/
def SameLedger (state state' : NodeRestackState) : Prop :=
  state' = state.withMaps state'.maps ∧ SameMaps state.maps state'.maps

/-! ## 3. Sessions -/

/-- The sessions that one of two accumulators marks resumed and the other does not. -/
structure UnevenMarks where
  opened : List String := []
  suspended : List String := []

def OpenSession.flipped (uneven : List String) (opened : OpenSession) : OpenSession :=
  if opened.session ∈ uneven then { opened with resumed := !opened.resumed } else opened

/-- The same sessions up to key order, but for the marks of the uneven ones. -/
def SameSessions (uneven : List String) (xs ys : List OpenSession) : Prop :=
  ys.map OpenSession.canonical = xs.map fun opened => (opened.flipped uneven).canonical

/-! ## 4. Accumulators and states -/

/-- The parts of an accumulator whose key order can change in a store. -/
structure KeyedParts where
  drainingExecutions : ObjectMap String DrainExecution
  endedExecutionInstances : ObjectMap String Unit
  nodeRestack : Option NodeRestackState
  pollingActivity : Option (ObjectMap String String)
  members : ObjectMap MemberKey VerifyMember
  owners : ObjectMap String MemberKey
  outcomes : ObjectMap MemberKey Nat
  cancellations : ObjectMap MemberKey VerifyCancellation
  implementations : ObjectMap Nat Nat
  nativeHandles : ObjectMap String NativeSessionHandle
  sessionTotals : ObjectMap String LogicalSessionTotals
  suspendedSessions : List OpenSession
  openSessions : List OpenSession
  failures : ObjectMap Phase Nat
  lastEvent : Option AbEvent

def BuildFacts.keyed (facts : BuildFacts) (ended : ObjectMap String Unit) : KeyedParts where
  drainingExecutions := facts.drainingExecutions
  endedExecutionInstances := ended
  nodeRestack := facts.nodeRestack
  pollingActivity := facts.pollingActivity
  members := facts.verifyStage.members
  owners := facts.verifyStage.owners
  outcomes := facts.verifyStage.outcomes
  cancellations := facts.verifyStage.cancellations
  implementations := facts.verifyStage.implementations
  nativeHandles := facts.nativeHandles
  sessionTotals := facts.sessionTotals
  suspendedSessions := facts.suspendedSessions
  openSessions := facts.openSessions
  failures := facts.failures
  lastEvent := facts.lastEvent

def VerifyStageState.withKeyed (stage : VerifyStageState) (k : KeyedParts) : VerifyStageState :=
  { stage with
    members := k.members
    owners := k.owners
    outcomes := k.outcomes
    cancellations := k.cancellations
    implementations := k.implementations }

def BuildFacts.withKeyed (facts : BuildFacts) (k : KeyedParts) : BuildFacts :=
  { facts with
    drainingExecutions := k.drainingExecutions
    nodeRestack := k.nodeRestack
    pollingActivity := k.pollingActivity
    verifyStage := facts.verifyStage.withKeyed k
    nativeHandles := k.nativeHandles
    sessionTotals := k.sessionTotals
    suspendedSessions := k.suspendedSessions
    openSessions := k.openSessions
    failures := k.failures
    lastEvent := k.lastEvent }

/-- The same parts up to key order, but for the uneven marks. -/
structure SameKeyed (uneven : UnevenMarks) (k k' : KeyedParts) : Prop where
  drainingExecutions : SameEntries k.drainingExecutions k'.drainingExecutions
  endedExecutionInstances : SameEntries k.endedExecutionInstances k'.endedExecutionInstances
  nodeRestack : Option.Rel SameLedger k.nodeRestack k'.nodeRestack
  pollingActivity : SameOptional k.pollingActivity k'.pollingActivity
  members : SameEntries k.members k'.members
  owners : SameEntries k.owners k'.owners
  outcomes : SameEntries k.outcomes k'.outcomes
  cancellations : SameEntries k.cancellations k'.cancellations
  implementations : SameEntries k.implementations k'.implementations
  nativeHandles : SameEntries (k.nativeHandles.mapValues fun _ h => h.canonical)
    (k'.nativeHandles.mapValues fun _ h => h.canonical)
  sessionTotals : SameEntries k.sessionTotals k'.sessionTotals
  suspendedSessions : SameSessions uneven.suspended k.suspendedSessions k'.suspendedSessions
  openSessions : SameSessions uneven.opened k.openSessions k'.openSessions
  failures : SameEntries k.failures k'.failures
  lastEvent : k.lastEvent.map AbEvent.canonical = k'.lastEvent.map AbEvent.canonical

def BuildAcc.keyed (acc : BuildAcc) : KeyedParts :=
  acc.toBuildFacts.keyed acc.endedExecutionInstances

def BuildAcc.withKeyed (acc : BuildAcc) (k : KeyedParts) : BuildAcc :=
  { acc with
    toBuildFacts := acc.toBuildFacts.withKeyed k
    endedExecutionInstances := k.endedExecutionInstances }

/-- **A reordering of the keys of an accumulator.** -/
def Reordered (acc acc' : BuildAcc) : Prop :=
  acc' = acc.withKeyed acc'.keyed ∧ SameKeyed {} acc.keyed acc'.keyed

/-- No session is open twice. -/
structure SameParts (uneven : UnevenMarks) (k k' : KeyedParts) : Prop
    extends SameKeyed uneven k k' where
  distinct : (k.openSessions.map OpenSession.session).Nodup

/-- A reordering of an accumulator that opens no session twice, as every log leaves it, but for
the uneven marks. -/
def SameAcc (uneven : UnevenMarks) (acc acc' : BuildAcc) : Prop :=
  acc' = acc.withKeyed acc'.keyed ∧ SameParts uneven acc.keyed acc'.keyed

/-- **The same state up to the order of its keys.** -/
def SameState (state state' : BuildState) : Prop :=
  state' = { state with
    toBuildFacts := state.toBuildFacts.withKeyed (state'.toBuildFacts.keyed ∅) } ∧
  SameKeyed {} (state.toBuildFacts.keyed ∅) (state'.toBuildFacts.keyed ∅)

@[simp] theorem withKeyed_keyed (acc : BuildAcc) : acc.withKeyed acc.keyed = acc := rfl

@[simp] theorem keyed_withKeyed (acc : BuildAcc) (k : KeyedParts) :
    (acc.withKeyed k).keyed = k := rfl

theorem SameMaps.refl (maps : LedgerMaps) : SameMaps maps maps := by
  have h {κ ν : Type} [DecidableEq κ] : ∀ m : Option (ObjectMap κ ν), SameOptional m m
    | none => Option.Rel.none
    | some m => Option.Rel.some (SameEntries.refl m)
  exact ⟨h _, h _, h _⟩

theorem flipped_nil (opened : OpenSession) : opened.flipped [] = opened :=
  if_neg List.not_mem_nil

/-- Where none is uneven, the sessions are the same up to key order. -/
theorem sameSessions_nil {xs ys : List OpenSession} :
    SameSessions [] xs ys ↔ xs.map OpenSession.canonical = ys.map OpenSession.canonical := by
  unfold SameSessions
  simp only [flipped_nil]
  exact eq_comm

theorem SameSessions.refl (xs : List OpenSession) : SameSessions [] xs xs :=
  sameSessions_nil.mpr rfl

theorem SameKeyed.refl (k : KeyedParts) : SameKeyed {} k k where
  drainingExecutions := SameEntries.refl _
  endedExecutionInstances := SameEntries.refl _
  nodeRestack := by
    cases k.nodeRestack with
    | none => exact Option.Rel.none
    | some state => exact Option.Rel.some ⟨rfl, SameMaps.refl _⟩
  pollingActivity := by
    cases k.pollingActivity with
    | none => exact Option.Rel.none
    | some activity => exact Option.Rel.some (SameEntries.refl activity)
  members := SameEntries.refl _
  owners := SameEntries.refl _
  outcomes := SameEntries.refl _
  cancellations := SameEntries.refl _
  implementations := SameEntries.refl _
  nativeHandles := SameEntries.refl _
  sessionTotals := SameEntries.refl _
  suspendedSessions := SameSessions.refl _
  openSessions := SameSessions.refl _
  failures := SameEntries.refl _
  lastEvent := rfl

end Autobuild
