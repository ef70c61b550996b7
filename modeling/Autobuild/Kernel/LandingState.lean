/-
# Landing consent and its application

Readiness decisions, the latest landing command, and what the forge reports back.  Historical
auto-merge commands count as commands only until a newer one exists.
-/
import Autobuild.Events.Catalog

namespace Autobuild

inductive LandingCommandKind where
  | hold
  | land
  deriving DecidableEq

structure LandingCommand where
  kind : LandingCommandKind
  seq : Nat
  decisionSeq : Option Nat
  legacy : Bool
  deriving DecidableEq

/-- `landing.native-applied` with its seq; only `enabled` is known of a historical provider
acknowledgement. -/
structure LandingNative where
  enabled : Bool
  seq : Nat
  payload : Option LandingNativeApplied
  deriving DecidableEq

structure LandingState where
  applicationFailure : Option LandingApplicationFailed := none
  nativeEnablePending : Option Nat := none
  forgeMerge : Option LandingForgeMerged := none
  decision : Option (WithSeq LandingDecided) := none
  command : Option LandingCommand := none
  acknowledgedSeq : Option Nat := none
  native : Option LandingNative := none

/-- Acceptance of a parent revokes consent to land on the former one; a hold stays. -/
def revokeConsent (state : LandingState) : LandingState :=
  let state := match state.command with
    | some command =>
      if command.kind = LandingCommandKind.land then
        { state with command := none, acknowledgedSeq := none }
      else state
    | none => state
  { state with decision := none, native := none }

/-- `commandSeq === state.command?.seq`. -/
def LandingState.isCommand (state : LandingState) (commandSeq : Nat) : Bool :=
  decide (state.command.map (·.seq) = some commandSeq)

/-- Historical auto-merge commands; new commands supersede every legacy control. -/
def legacyCommand (state : LandingState) (payload : AutoMergeCommand) (requested : Bool)
    (seq : Nat) : LandingState :=
  if payload.defaultSeq.isSome || (state.command.map (fun c => !c.legacy)).getD false then state
  else
    { state with
      command := some
        { kind := if requested then .land else .hold, seq := seq, decisionSeq := none,
          legacy := true }
      acknowledgedSeq := if requested then some seq else state.acknowledgedSeq }

def advanceLanding (state : LandingState) (event : AbEvent) : LandingState :=
  match event.body with
  | .node (.parentAccepted _) => revokeConsent state
  | .landing (.decided payload) =>
    { state with applicationFailure := none, decision := some ⟨payload, event.seq⟩ }
  | .build .holdRequested =>
    { state with
      applicationFailure := none
      command := some { kind := .hold, seq := event.seq, decisionSeq := none, legacy := false } }
  | .build (.landRequested decisionSeq) =>
    { state with
      command := some
        { kind := .land, seq := event.seq, decisionSeq := some decisionSeq, legacy := false } }
  | .landing (.commandAcknowledged commandSeq) =>
    if state.isCommand commandSeq then { state with acknowledgedSeq := some commandSeq } else state
  | .pr (.autoMergeEnabled _) => { state with native := some ⟨true, event.seq, none⟩ }
  | .pr (.autoMergeDisabled commandSeq) =>
    let state := { state with native := some ⟨false, event.seq, none⟩ }
    if state.isCommand commandSeq then { state with acknowledgedSeq := some commandSeq } else state
  | .landing .nativeEnableStarted => { state with nativeEnablePending := some event.seq }
  | .landing (.forgeMerged payload) => { state with forgeMerge := some payload }
  | .landing (.applicationFailed payload) => { state with applicationFailure := some payload }
  | .landing (.nativeApplied payload) =>
    { state with
      applicationFailure := none
      nativeEnablePending :=
        if payload.enableSeq = state.nativeEnablePending then none else state.nativeEnablePending
      native := some ⟨payload.enabled, event.seq, some payload⟩ }
  | .build (.autoMergeRequested payload) => legacyCommand state payload true event.seq
  | .build (.autoMergeCancelled payload) => legacyCommand state payload false event.seq
  | _ => state

end Autobuild
