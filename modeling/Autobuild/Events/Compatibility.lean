/-
# Compatibility with unknown facts

A reader that meets a fact of a type it does not know keeps count of it.  A fact is advisory
only if its writer said so; every other unknown fact is decisive, and the kernel defers
decisions on a log that holds one.
-/
import Autobuild.Events.Catalog

namespace Autobuild

structure CompatibilityState where
  unknownFacts : Nat
  decisiveFacts : Nat
  lastSeq : Nat
  decisiveBoundary : Nat
  types : List String
  writerVersions : List String
  legacyVersionUnavailable : Bool
  decisiveTypes : List String
  decisiveWriterVersions : List String
  decisiveLegacyVersionUnavailable : Bool
  deriving DecidableEq, Repr

def initialCompatibility : CompatibilityState where
  unknownFacts := 0
  decisiveFacts := 0
  lastSeq := 0
  decisiveBoundary := 0
  types := []
  writerVersions := []
  legacyVersionUnavailable := false
  decisiveTypes := []
  decisiveWriterVersions := []
  decisiveLegacyVersionUnavailable := false

/-- `if (!list.includes(x)) list.push(x)`. -/
def pushNew (list : List String) (text : String) : List String :=
  if text ∈ list then list else list ++ [text]

def pushVersion (list : List String) : Option CompatibilityMetadata → List String
  | some metadata => pushNew list metadata.writerVersion
  | none => list

/-- An unknown fact that may bear on decisions. -/
def noteDecisive (state : CompatibilityState) (seq : Nat) (type : String)
    (metadata : Option CompatibilityMetadata) : CompatibilityState :=
  { state with
    decisiveTypes := pushNew state.decisiveTypes type
    decisiveWriterVersions := pushVersion state.decisiveWriterVersions metadata
    decisiveLegacyVersionUnavailable :=
      state.decisiveLegacyVersionUnavailable || metadata.isNone
    decisiveFacts := state.decisiveFacts + 1
    decisiveBoundary := seq }

def advanceCompatibilityEvent (state : CompatibilityState) : StoredEvent → CompatibilityState
  | .known _ => state
  | .unknown seq type metadata =>
    let state := { state with
      lastSeq := max state.lastSeq seq
      unknownFacts := state.unknownFacts + 1
      types := pushNew state.types type
      writerVersions := pushVersion state.writerVersions metadata
      legacyVersionUnavailable := state.legacyVersionUnavailable || metadata.isNone }
    if metadata.map (·.classification) = some .advisory then state
    else noteDecisive state seq type metadata

def advanceCompatibility (state : CompatibilityState) (events : List StoredEvent) :
    CompatibilityState :=
  events.foldl advanceCompatibilityEvent state

end Autobuild
