/-
# The upgrade state of the dispatcher

The reducer of the upgrades: runs with the facts accepted on them, the lineages of the runs that
started, and the holds of rolled back runtimes.  Each map keeps a window of
`upgradeHistoryLimit` entries.

* `UpgradeRun.note` is the switch on the type of an event that names a run.
* `retainRuns`, `evictLineages` and `evictHolds` are the three evictions.
-/
import Autobuild.Events.Dispatch
import Autobuild.Lib.Best
import Autobuild.Lib.ObjectMap

namespace Autobuild

open ObjectMap

/-! ## 1. Runs -/

structure UpgradeRun where
  resolved : Option (WithSeq UpgradeTargetResolved) := none
  detected : Option (WithSeq UpgradeIdentity) := none
  failure : Option (WithSeq UpgradeFailed) := none
  prepared : Option (WithSeq Handoff) := none
  request : Option (WithSeq YieldRequested) := none
  handoff : Option (WithSeq DispatchHandoffStarted) := none
  released : Option (WithSeq Handoff) := none
  takeover : Option (WithSeq Takeover) := none
  completed : Option (WithSeq HandoffCompleted) := none
  deadline : Option String := none
  outstanding : ObjectMap String String := ∅
  drained : Nat := 0
  suspended : Nat := 0

/-- The runtimes are compared by their text. -/
def Handoff.same (a b : Handoff) : Bool :=
  a.correlation = b.correlation && a.run = b.run && a.lineage = b.lineage && a.root = b.root &&
    a.cacheId = b.cacheId && a.target.key = b.target.key &&
    a.fromRuntime.stringify = b.fromRuntime.stringify &&
    a.toRuntime.stringify = b.toRuntime.stringify

/-- `fact?.seq ?? -1`. -/
def factSeq {α : Type} : Option (WithSeq α) → Int
  | some fact => fact.seq
  | none => -1

namespace UpgradeRun

variable (run : UpgradeRun)

/-- `upgradeRunRecency`: the newest fact of a run, or -1. -/
def recency : Int :=
  [factSeq run.resolved, factSeq run.detected, factSeq run.failure, factSeq run.prepared,
    factSeq run.request, factSeq run.handoff, factSeq run.released, factSeq run.takeover,
    factSeq run.completed].foldl max (-1)

def settledSeq : Int :=
  match run.completed with
  | some completed => completed.seq
  | none => factSeq run.failure

/-- Runs without an accepted handoff go first, then completed handoffs. -/
def evictionTier : Nat :=
  if run.handoff.isNone then 0 else if run.completed.isSome then 1 else 2

/-! ## 2. Acceptance -/

/-- The comparison of an event with the fact of the run it continues. -/
def continues : UpgradeEvent → Bool
  | .yieldRequested payload => run.prepared.any fun fact => fact.payload.same payload.toHandoff
  | .handoffStarted payload =>
    -- historical handoffs predate the request and mean cutover
    payload.mode.isNone ||
      run.request.any fun fact => fact.payload.toHandoff.same payload.toHandoff
  | .terminalReleased payload =>
    run.handoff.any fun fact => fact.payload.toHandoff.same payload
  | .takeover payload => run.released.any fun fact => fact.payload.same payload.toHandoff
  | .drainDeadline payload =>
    run.handoff.any fun fact => fact.payload.toHandoff.same payload.toHandoff
  | .drainSettled payload =>
    run.handoff.any fun fact => fact.payload.toHandoff.same payload.toHandoff
  | .handoffCompleted payload =>
    run.handoff.any fun fact => fact.payload.toHandoff.same payload.toHandoff
  | _ => true

/-- The rest of what an event is accepted on. -/
def admits : UpgradeEvent → Bool
  | .targetResolved _ => true
  | .detected _ => true
  | .failed payload =>
    !run.handoff.any fun fact => fact.payload.correlation = payload.correlation
  | .targetPrepared payload =>
    !(run.handoff.isSome && run.completed.isNone) &&
      !(run.prepared.any fun fact => fact.payload.correlation = payload.correlation) &&
      !(run.request.isSome && run.failure.isNone)
  | .yieldRequested payload =>
    run.failure.isNone && run.request.isNone && run.handoff.isNone &&
      payload.successor ≠ payload.run
  | .handoffStarted payload =>
    run.handoff.isNone && !(payload.mode.isSome && run.failure.isSome) &&
      (payload.mode.isNone || run.request.any fun fact =>
        payload.successor = some fact.payload.successor ∧ payload.mode = some fact.payload.mode)
  | .terminalReleased _ => true
  | .takeover payload =>
    run.request.any fun fact => fact.payload.successor = payload.successor
  | .drainDeadline _ => run.completed.isNone
  | .drainSettled payload =>
    run.completed.isNone && run.outstanding.get? payload.slug = some payload.instanceId
  | .handoffCompleted payload =>
    run.outstanding.size = 0 &&
      run.request.all fun fact => fact.payload.successor = payload.successor

def accepts (event : UpgradeEvent) : Bool := run.continues event && run.admits event

/-- What an accepted event changes. -/
def accept (seq : Nat) : UpgradeEvent → UpgradeRun
  | .targetResolved payload => { run with resolved := some ⟨payload, seq⟩ }
  | .detected payload => { run with detected := some ⟨payload, seq⟩ }
  | .failed payload =>
    { run with
      failure := some ⟨payload, seq⟩
      request := run.request.filter fun fact => fact.payload.correlation ≠ payload.correlation }
  | .targetPrepared payload =>
    { run with prepared := some ⟨payload, seq⟩, failure := none, request := none }
  | .yieldRequested payload => { run with request := some ⟨payload, seq⟩ }
  | .handoffStarted payload =>
    { run with
      handoff := some ⟨payload, seq⟩
      failure := none
      deadline := payload.deadline
      outstanding := (payload.builds.getD []).foldl
        (fun outstanding build => outstanding.set build.slug build.instanceId) ∅ }
  | .terminalReleased payload => { run with released := run.released.or (some ⟨payload, seq⟩) }
  | .takeover payload => { run with takeover := run.takeover.or (some ⟨payload, seq⟩) }
  | .drainDeadline payload => { run with deadline := some payload.deadline }
  | .drainSettled payload =>
    { run with
      outstanding := run.outstanding.erase payload.slug
      drained := run.drained + if payload.outcome = .drained then 1 else 0
      suspended := run.suspended + if payload.outcome = .suspended then 1 else 0 }
  | .handoffCompleted payload =>
    { run with completed := run.completed.or (some ⟨payload, seq⟩) }

/-- The switch on the type of the event. -/
def note (seq : Nat) (event : UpgradeEvent) : UpgradeRun :=
  if run.accepts event then run.accept seq event else run

end UpgradeRun

/-! ## 3. The state -/

structure DispatchUpgradeState where
  authoritativeRun : Option String := none
  runs : ObjectMap String UpgradeRun := ∅
  lineages : ObjectMap String String := ∅
  rollbackIds : List String := []
  lastRollback : Option (WithSeq RuntimeRolledBack) := none
  holds : ObjectMap String (WithSeq RuntimeRolledBack) := ∅

def upgradeHistoryLimit : Nat := 16

/-- What the eviction reads of a run. -/
structure RunMark where
  id : String
  handoffSeq : Option Nat
  settledSeq : Int
  tier : Nat
  recency : Int
  deriving DecidableEq

def RunMark.of (entry : String × UpgradeRun) : RunMark where
  id := entry.1
  handoffSeq := entry.2.handoff.map (·.seq)
  settledSeq := entry.2.settledSeq
  tier := entry.2.evictionTier
  recency := entry.2.recency

namespace RunMark

/-- The newest accepted handoff carries the remote captures authorization needs. -/
def newestHandoff (marks : List RunMark) : Option String :=
  (bestOf (fun x y : String × Nat => decide (x.2 > y.2))
    (marks.filterMap fun mark => mark.handoffSeq.map fun seq => (mark.id, seq))).map (·.1)

/-- The three newest settled runs. -/
def newestSettled (marks : List RunMark) : List String :=
  (((marks.filter fun mark => mark.settledSeq ≥ 0).insertionSort
    fun x y => y.settledSeq ≤ x.settledSeq).take 3).map (·.id)

/-- Ranked lower: evicted first. -/
def goesFirst (x y : RunMark) : Bool :=
  x.tier < y.tier ∨ (x.tier = y.tier ∧
    (x.recency < y.recency ∨ (x.recency = y.recency ∧
      JsText.codeUnits x.id < JsText.codeUnits y.id)))

def victim (marks : List RunMark) (touched : String) (authoritative : Option String) :
    Option String :=
  (bestOf goesFirst (marks.filter fun mark =>
    !(mark.id = touched || some mark.id = authoritative || some mark.id = newestHandoff marks ||
      mark.id ∈ newestSettled marks))).map (·.id)

end RunMark

namespace DispatchUpgradeState

variable (acc : DispatchUpgradeState)

def marks : List RunMark := acc.runs.entries.map RunMark.of

/-- One turn of the loop of `retainRuns`. -/
def evictRun (touched : String) : DispatchUpgradeState :=
  match RunMark.victim acc.marks touched acc.authoritativeRun with
  | some id => { acc with runs := acc.runs.erase id }
  | none => acc

/-- A turn for each run over the limit. -/
def retainRuns (touched : String) : DispatchUpgradeState :=
  Nat.iterate (·.evictRun touched) (acc.runs.size - upgradeHistoryLimit) acc

/-- Along the keys as they were listed when the loop began. -/
def evictLineages (keep : String → Bool) : List String → ObjectMap String String →
    ObjectMap String String
  | [], lineages => lineages
  | run :: rest, lineages =>
    if lineages.size ≤ upgradeHistoryLimit then lineages
    else evictLineages keep rest (if keep run then lineages else lineages.erase run)

/-- Reinserted, so that the order of the keys is the order of the starts. -/
def startedLineages (run lineage : String) : ObjectMap String String :=
  (acc.lineages.erase run).set run lineage

def keepsLineage (started run : String) : Bool :=
  some run = acc.authoritativeRun || run = started

def noteStart (run : String) : Option String → DispatchUpgradeState
  | none => acc
  | some lineage =>
    { acc with
      lineages := evictLineages (acc.keepsLineage run) (acc.startedLineages run lineage).keys
        (acc.startedLineages run lineage) }

/-- The oldest hold of another lineage. -/
def oldestHold (current : Option String) (lineage : String) : Option String :=
  (bestOf (fun x y : String × Nat => decide (x.2 < y.2))
    ((acc.holds.entries.filter fun entry => some entry.1 ≠ current ∧ entry.1 ≠ lineage).map
      fun entry => (entry.1, entry.2.seq))).map (·.1)

def evictHold (current : Option String) (lineage : String) : DispatchUpgradeState :=
  match acc.oldestHold current lineage with
  | some oldest => { acc with holds := acc.holds.erase oldest }
  | none => acc

def noteRollback (seq : Nat) (payload : RuntimeRolledBack) : DispatchUpgradeState :=
  if payload.correlation ∈ acc.rollbackIds then acc
  else
    let ids := acc.rollbackIds ++ [payload.correlation]
    let held : DispatchUpgradeState :=
      { acc with
        rollbackIds := ids.drop (ids.length - upgradeHistoryLimit)
        authoritativeRun := some payload.run
        lastRollback := some ⟨payload, seq⟩
        holds := acc.holds.set payload.lineage ⟨payload, seq⟩ }
    Nat.iterate (·.evictHold (acc.lineages.get? payload.run) payload.lineage)
      (held.holds.size - upgradeHistoryLimit) held

def noteCleared (payload : RollbackHoldCleared) : DispatchUpgradeState :=
  if (acc.holds.get? payload.lineage).any (fun hold =>
      hold.payload.correlation = payload.correlation ∧ hold.payload.target.key ≠ payload.target.key)
  then { acc with holds := acc.holds.erase payload.lineage }
  else acc

/-- The run an event names, made on first sight. -/
def runOf (run : String) : UpgradeRun := (acc.runs.get? run).getD {}

/-- An accepted takeover moves the authority to the successor. -/
def authorityAfter (event : UpgradeEvent) : Option String :=
  match event with
  | .takeover payload =>
    if (acc.runOf payload.run).accepts event then some payload.successor else acc.authoritativeRun
  | _ => acc.authoritativeRun

def noteUpgrade (seq : Nat) (event : UpgradeEvent) : DispatchUpgradeState :=
  ({ acc with
      authoritativeRun := acc.authorityAfter event
      runs := acc.runs.set event.run ((acc.runOf event.run).note seq event) } :
    DispatchUpgradeState).retainRuns event.run

end DispatchUpgradeState

/-- One event of the journal. -/
def foldDispatch (acc : DispatchUpgradeState) (event : DispatchEvent) : DispatchUpgradeState :=
  match event.body with
  | .runStarted run lineage => acc.noteStart run lineage
  -- starts and yielded ticks are not proof of repository authority
  | .tickStarted run => { acc with authoritativeRun := some run }
  | .rolledBack payload => acc.noteRollback event.seq payload
  | .rollbackHoldCleared payload => acc.noteCleared payload
  | .upgrade upgrade => acc.noteUpgrade event.seq upgrade
  | .other _ => acc

/-- `dispatchUpgradeReducer`. -/
def reduceDispatch (acc : DispatchUpgradeState) (events : List DispatchEvent) :
    DispatchUpgradeState := events.foldl foldDispatch acc

end Autobuild
