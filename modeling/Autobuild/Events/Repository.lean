/-
# The repository journal

Beside the logs of its builds a repository has a journal of its own.  Its events share one
sequence; the families here are the ones the modelled functions tell apart.
-/
import Autobuild.Events.Harvest
import Autobuild.Lib.Json
import Autobuild.Ontology

namespace Autobuild

/-! ## 1. Ticks of the dispatcher -/

/-- `dispatcher.tick-started`, `-completed` and `-failed`; `counters` is their parsed value. -/
inductive TickEvent where
  | started (run : String)
  | completed (run : String) (counters : Json)
  | failed (run error : String)

def TickEvent.run : TickEvent → String
  | .started run => run
  | .completed run _ => run
  | .failed run _ => run

/-! ## 2. Events -/

inductive RepositoryBody where
  | tick (event : TickEvent)
  | harvest (event : HarvestEvent)
  /-- A type none of the modelled functions tells from another. -/
  | other (type : String)

/-- What a producer submits; the store assigns `seq` and `ts`. -/
structure RepositoryEventWrite where
  actor : Actor
  body : RepositoryBody

structure RepositoryEvent extends RepositoryEventWrite where
  seq : Nat
  ts : Nat

end Autobuild
