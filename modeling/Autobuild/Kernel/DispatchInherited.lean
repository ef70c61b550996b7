/-
# Run ids that a plain object inherits

The maps of the upgrade state are plain objects.  `acc.runs[run] ??= ..` makes no entry for a run
called `constructor`, since the object inherits a value of that name, and the facts of the run are
then written on that value: a built-in object of the process.  A run called `__proto__` writes them
on `Object.prototype`, from which every run without the fact reads it.  A lineage `__proto__` is
lost, or becomes the prototype of `holds`.

* `OwnRun.read` is what reading a run finds, its own or an inherited fact.
* `DispatchProcess` is the state with what was written beside it, `stepProcess` one event.
* `reduceProcess_own`: a journal that names no inherited name (`OwnNames`) writes nothing beside
  the state, and folds as `reduceDispatch`.
-/
import Autobuild.Kernel.DispatchUpgrade
import Autobuild.Lib.Checked

namespace Autobuild

open ObjectMap

/-! ## 1. Runs that inherit facts -/

/-- The properties of a run that are there with the value `undefined`. -/
structure UndefinedFacts where
  failure : Bool := false
  request : Bool := false
  deadline : Bool := false

/-- A run, or a built-in object that facts were written on. -/
structure OwnRun where
  run : UpgradeRun := {}
  undefined : UndefinedFacts := {}

/-- An own property that is not there is inherited. -/
def inheritedFact {α : Type} (undefined : Bool) (own proto : Option α) : Option α :=
  if undefined then own else own.or proto

/-- What is read of a run, where `proto` was written on `Object.prototype`. -/
def OwnRun.read (own : OwnRun) (proto : UpgradeRun) : UpgradeRun :=
  { own.run with
    resolved := own.run.resolved.or proto.resolved
    detected := own.run.detected.or proto.detected
    failure := inheritedFact own.undefined.failure own.run.failure proto.failure
    prepared := own.run.prepared.or proto.prepared
    request := inheritedFact own.undefined.request own.run.request proto.request
    handoff := own.run.handoff.or proto.handoff
    released := own.run.released.or proto.released
    takeover := own.run.takeover.or proto.takeover
    completed := own.run.completed.or proto.completed
    deadline := inheritedFact own.undefined.deadline own.run.deadline proto.deadline }

/-- A function has builds outstanding of its own once a handoff was accepted on it. -/
def OwnRun.readBuiltin (own : OwnRun) (proto : UpgradeRun) : UpgradeRun :=
  { own.read proto with
    outstanding := if own.run.handoff.isSome then own.run.outstanding else proto.outstanding }

/-- What an accepted event writes on the object; `read` is what the switch reads of it. -/
def OwnRun.accept (own : OwnRun) (read : UpgradeRun) (seq : Nat) (event : UpgradeEvent) : OwnRun :=
  match event with
  | .failed payload =>
    let run := { own.run with failure := some ⟨payload, seq⟩ }
    if read.request.any fun fact => fact.payload.correlation = payload.correlation then
      { run := { run with request := none }, undefined := { own.undefined with request := true } }
    else { own with run := run }
  | .targetPrepared _ =>
    { run := own.run.accept seq event
      undefined := { own.undefined with failure := true, request := true } }
  | .handoffStarted _ =>
    { run := own.run.accept seq event
      undefined := { own.undefined with failure := true, deadline := true } }
  | .terminalReleased _ =>
    if read.released.isSome then own else { own with run := own.run.accept seq event }
  | .takeover _ =>
    if read.takeover.isSome then own else { own with run := own.run.accept seq event }
  | .handoffCompleted _ =>
    if read.completed.isSome then own else { own with run := own.run.accept seq event }
  | _ => { own with run := own.run.accept seq event }

def OwnRun.note (own : OwnRun) (read : UpgradeRun) (seq : Nat) (event : UpgradeEvent) : OwnRun :=
  if read.accepts event then own.accept read seq event else own

/-- Nothing on `Object.prototype`: a run reads as it is. -/
@[simp] theorem OwnRun.read_empty (own : OwnRun) : own.read {} = own.run := by
  have hfact : ∀ {α : Type} (undefined : Bool) (fact : Option α),
      inheritedFact undefined fact none = fact := by
    intro α undefined fact
    rw [inheritedFact, Option.or_none, ite_self]
  unfold OwnRun.read
  simp only [Option.or_none, hfact]

theorem OwnRun.run_accept (own : OwnRun) (seq : Nat) (event : UpgradeEvent) :
    (own.accept own.run seq event).run = own.run.accept seq event := by
  have hor : ∀ {α : Type} {fact : Option α} (next : Option α), fact.isSome = true →
      fact.or next = fact := by
    intro α fact next h
    cases fact with
    | none => exact absurd h Bool.false_ne_true
    | some fact => rfl
  cases event with
  | failed payload =>
    simp only [OwnRun.accept, UpgradeRun.accept]
    cases own.run.request with
    | none => simp
    | some fact =>
      by_cases hsame : fact.payload.correlation = payload.correlation
      · simp [hsame, Option.filter]
      · simp [hsame, Option.filter]
  | terminalReleased payload =>
    simp only [OwnRun.accept, UpgradeRun.accept]
    split
    next h => rw [hor _ h]
    next => rfl
  | takeover payload =>
    simp only [OwnRun.accept, UpgradeRun.accept]
    split
    next h => rw [hor _ h]
    next => rfl
  | handoffCompleted payload =>
    simp only [OwnRun.accept, UpgradeRun.accept]
    split
    next h => rw [hor _ h]
    next => rfl
  | _ => rfl

theorem OwnRun.run_note (own : OwnRun) (seq : Nat) (event : UpgradeEvent) :
    (own.note own.run seq event).run = own.run.note seq event := by
  rw [OwnRun.note, UpgradeRun.note]
  split
  · exact own.run_accept seq event
  · rfl

/-! ## 2. The process -/

/-- The state, and what was written beside it. -/
structure DispatchProcess where
  acc : DispatchUpgradeState := {}
  /-- Of the runs. -/
  undefined : ObjectMap String UndefinedFacts := ∅
  /-- By the name that the maps inherit the object under. -/
  builtins : ObjectMap String OwnRun := ∅
  /-- The prototype of `holds`. -/
  heldPrototype : Option (WithSeq RuntimeRolledBack) := none

/-- What a plain object reads although it was never written. -/
def plainNames : List String := "__proto__" :: inheritedNames

namespace DispatchProcess

variable (process : DispatchProcess)

/-- The facts on `Object.prototype`. -/
def proto : UpgradeRun := ((process.builtins.get? "__proto__").getD {}).run

/-- `acc.runs[run]` is a built-in object. -/
def isBuiltin (run : String) : Bool :=
  (process.acc.runs.get? run).isNone && decide (run ∈ plainNames)

def ownRun (run : String) : OwnRun :=
  ⟨process.acc.runOf run, (process.undefined.get? run).getD {}⟩

/-- What the eviction reads of the runs. -/
def marks : List RunMark :=
  process.acc.runs.entries.map fun entry =>
    RunMark.of (entry.1,
      OwnRun.read ⟨entry.2, (process.undefined.get? entry.1).getD {}⟩ process.proto)

def evictRun (touched : String) : DispatchProcess :=
  match RunMark.victim process.marks touched process.acc.authoritativeRun with
  | some id =>
    { process with
      acc := { process.acc with runs := process.acc.runs.erase id }
      undefined := process.undefined.erase id }
  | none => process

def retainRuns (touched : String) : DispatchProcess :=
  Nat.iterate (·.evictRun touched) (process.acc.runs.size - upgradeHistoryLimit) process

/-- The authority after an event that reads a run as it does. -/
def authorityAfter (read : UpgradeRun) (event : UpgradeEvent) : Option String :=
  match event with
  | .takeover payload =>
    if read.accepts event then some payload.successor else process.acc.authoritativeRun
  | _ => process.acc.authoritativeRun

/-- An event of a run that has, or gets, an entry. -/
def noteRun (seq : Nat) (event : UpgradeEvent) : DispatchProcess :=
  let own := process.ownRun event.run
  let next := own.note (own.read process.proto) seq event
  ({ process with
      acc := { process.acc with
        authoritativeRun := process.authorityAfter (own.read process.proto) event
        runs := process.acc.runs.set event.run next.run }
      undefined := process.undefined.set event.run next.undefined } :
    DispatchProcess).retainRuns event.run

/-- A build that is settled on a function whose handoff is inherited is settled where that is. -/
def settleInherited (own : OwnRun) (event : UpgradeEvent) : ObjectMap String OwnRun :=
  match event with
  | .drainSettled payload =>
    if own.run.handoff.isNone && (own.readBuiltin process.proto).accepts event then
      process.builtins.set "__proto__"
        { (process.builtins.get? "__proto__").getD {} with
          run := { process.proto with
            outstanding := process.proto.outstanding.erase payload.slug } }
    else process.builtins
  | _ => process.builtins

/-- An event of a run whose name is inherited. -/
def noteBuiltin (seq : Nat) (event : UpgradeEvent) : DispatchProcess :=
  let own := (process.builtins.get? event.run).getD {}
  let read := own.readBuiltin process.proto
  ({ process with
      acc := { process.acc with authoritativeRun := process.authorityAfter read event }
      builtins := (process.settleInherited own event).set event.run (own.note read seq event) } :
    DispatchProcess).retainRuns event.run

/-- A rollback of a lineage that is no key of `holds`. -/
def noteProtoRollback (seq : Nat) (payload : RuntimeRolledBack) : DispatchProcess :=
  if payload.correlation ∈ process.acc.rollbackIds then process
  else
    let ids := process.acc.rollbackIds ++ [payload.correlation]
    let current := process.acc.lineages.get? payload.run
    { process with
      acc := Nat.iterate (·.evictHold current payload.lineage)
        (process.acc.holds.size - upgradeHistoryLimit)
        { process.acc with
          rollbackIds := ids.drop (ids.length - upgradeHistoryLimit)
          authoritativeRun := some payload.run
          lastRollback := some ⟨payload, seq⟩ }
      heldPrototype := some ⟨payload, seq⟩ }

/-- The properties that `holds` inherits of an event. -/
def eventNames : List String := ["repo", "seq", "ts", "actor", "type", "payload"]

/-- What is inherited has no `payload`, and the correlation of that is read. -/
def noteCleared (payload : RollbackHoldCleared) : Except String DispatchProcess :=
  if (process.acc.holds.get? payload.lineage).isSome then
    .ok { process with acc := process.acc.noteCleared payload }
  else if payload.lineage = "__proto__" then
    if process.heldPrototype.isSome then .ok process else .error "TypeError"
  else if payload.lineage ∈ inheritedNames ∨
      (process.heldPrototype.isSome = true ∧ payload.lineage ∈ eventNames) then .error "TypeError"
  else .ok process

end DispatchProcess

/-- One event of the journal, on plain objects. -/
def stepProcess (process : DispatchProcess) (event : DispatchEvent) :
    Except String DispatchProcess :=
  match event.body with
  | .runStarted run lineage =>
    if run = "__proto__" ∧ lineage.isSome = true then
      .ok { process with
        acc := { process.acc with
          lineages := DispatchUpgradeState.evictLineages (process.acc.keepsLineage run)
            process.acc.lineages.keys process.acc.lineages } }
    else .ok { process with acc := process.acc.noteStart run lineage }
  | .tickStarted run =>
    .ok { process with acc := { process.acc with authoritativeRun := some run } }
  | .rolledBack payload =>
    if payload.lineage = "__proto__" then .ok (process.noteProtoRollback event.seq payload)
    else .ok { process with acc := process.acc.noteRollback event.seq payload }
  | .rollbackHoldCleared payload => process.noteCleared payload
  | .upgrade upgrade =>
    .ok (if process.isBuiltin upgrade.run then process.noteBuiltin event.seq upgrade
      else process.noteRun event.seq upgrade)
  | .other _ => .ok process

def reduceProcess (process : DispatchProcess) (events : List DispatchEvent) :
    Except String DispatchProcess := events.foldlM stepProcess process

/-! ## 3. Journals that name no inherited name -/

/-- The event reads and writes own keys of the maps only. -/
def OwnName (acc : DispatchUpgradeState) (event : DispatchEvent) : Prop :=
  match event.body with
  | .runStarted run (some _) => run ≠ "__proto__"
  | .rolledBack payload => payload.lineage ≠ "__proto__"
  | .rollbackHoldCleared payload =>
    payload.lineage ∈ plainNames → (acc.holds.get? payload.lineage).isSome = true
  | .upgrade upgrade => upgrade.run ∉ plainNames
  | _ => True

/-- Along the events, each does. -/
def OwnNames : DispatchUpgradeState → List DispatchEvent → Prop
  | _, [] => True
  | acc, event :: rest => OwnName acc event ∧ OwnNames (foldDispatch acc event) rest

/-- Nothing was written beside the state. -/
structure DispatchProcess.Clean (process : DispatchProcess) : Prop where
  builtins : process.builtins = ∅
  held : process.heldPrototype = none

namespace DispatchProcess

variable {process : DispatchProcess}

theorem Clean.proto (h : process.Clean) : process.proto = {} := by
  rw [DispatchProcess.proto, h.builtins]
  rfl

theorem Clean.marks (h : process.Clean) : process.marks = process.acc.marks := by
  refine List.map_congr_left fun entry _ => ?_
  rw [h.proto, OwnRun.read_empty]

theorem Clean.evictRun (h : process.Clean) (touched : String) :
    (process.evictRun touched).Clean ∧
      (process.evictRun touched).acc = process.acc.evictRun touched := by
  unfold DispatchProcess.evictRun DispatchUpgradeState.evictRun
  rw [h.marks]
  cases RunMark.victim process.acc.marks touched process.acc.authoritativeRun with
  | none => exact ⟨h, rfl⟩
  | some id => exact ⟨⟨h.builtins, h.held⟩, rfl⟩

theorem Clean.iterate (touched : String) : ∀ (n : Nat) {process : DispatchProcess},
    process.Clean → (Nat.iterate (·.evictRun touched) n process).Clean ∧
      (Nat.iterate (·.evictRun touched) n process).acc
        = Nat.iterate (·.evictRun touched) n process.acc
  | 0, _, h => ⟨h, rfl⟩
  | n + 1, _, h => by
    obtain ⟨hclean, hacc⟩ := h.evictRun touched
    obtain ⟨hrest, hiterate⟩ := Clean.iterate touched n hclean
    exact ⟨hrest, hiterate.trans (congrArg (Nat.iterate (·.evictRun touched) n) hacc)⟩

theorem Clean.noteRun (h : process.Clean) (seq : Nat) (event : UpgradeEvent) :
    (process.noteRun seq event).Clean ∧
      (process.noteRun seq event).acc = process.acc.noteUpgrade seq event := by
  have hread : (process.ownRun event.run).read process.proto = process.acc.runOf event.run := by
    rw [h.proto, OwnRun.read_empty]
    rfl
  have hnext : ((process.ownRun event.run).note (process.acc.runOf event.run) seq event).run
      = (process.acc.runOf event.run).note seq event :=
    (process.ownRun event.run).run_note seq event
  have hauthority : process.authorityAfter (process.acc.runOf event.run) event
      = process.acc.authorityAfter event := by
    cases event <;> rfl
  unfold DispatchProcess.noteRun DispatchUpgradeState.noteUpgrade
  dsimp only
  rw [hread, hnext, hauthority]
  exact Clean.iterate event.run _ ⟨h.builtins, h.held⟩

/-- **An event that names no inherited name** leaves what the fold of the state says. -/
theorem step_own (h : process.Clean) {event : DispatchEvent} (hname : OwnName process.acc event) :
    ∃ next, stepProcess process event = .ok next ∧ next.Clean ∧
      next.acc = foldDispatch process.acc event := by
  unfold stepProcess foldDispatch
  unfold OwnName at hname
  cases hbody : event.body with
  | runStarted run lineage =>
    rw [hbody] at hname
    have hnot : ¬(run = "__proto__" ∧ lineage.isSome = true) := by
      rintro ⟨hrun, hsome⟩
      cases lineage with
      | none => cases hsome
      | some lineage => exact hname hrun
    simp only [if_neg hnot]
    exact ⟨_, rfl, ⟨h.builtins, h.held⟩, rfl⟩
  | tickStarted run => exact ⟨_, rfl, ⟨h.builtins, h.held⟩, rfl⟩
  | rolledBack payload =>
    rw [hbody] at hname
    simp only [if_neg hname]
    exact ⟨_, rfl, ⟨h.builtins, h.held⟩, rfl⟩
  | rollbackHoldCleared payload =>
    rw [hbody] at hname
    simp only [DispatchProcess.noteCleared]
    split
    · exact ⟨_, rfl, ⟨h.builtins, h.held⟩, rfl⟩
    next hnone =>
      have hplain : payload.lineage ∉ plainNames := fun hin => hnone (hname hin)
      have hproto : payload.lineage ≠ "__proto__" := fun heq => hplain (heq ▸ List.mem_cons_self)
      have hothers : ¬(payload.lineage ∈ inheritedNames ∨
          (process.heldPrototype.isSome = true ∧ payload.lineage ∈ eventNames)) := by
        rintro (hin | ⟨hsome, -⟩)
        · exact hplain (List.mem_cons_of_mem _ hin)
        · rw [h.held] at hsome
          cases hsome
      rw [if_neg hproto, if_neg hothers]
      refine ⟨_, rfl, h, ?_⟩
      have hget : process.acc.holds.get? payload.lineage = none := by
        simpa using hnone
      rw [DispatchUpgradeState.noteCleared, hget]
      rfl
  | upgrade upgrade =>
    rw [hbody] at hname
    have hbuiltin : process.isBuiltin upgrade.run = false := by
      rw [isBuiltin, decide_eq_false hname, Bool.and_false]
    simp only [hbuiltin, Bool.false_eq_true, if_false]
    obtain ⟨hclean, hacc⟩ := h.noteRun event.seq upgrade
    exact ⟨_, rfl, hclean, hacc⟩
  | other type => exact ⟨_, rfl, h, rfl⟩

end DispatchProcess

/-- **A journal that names no inherited name** folds as if the maps had no prototypes. -/
theorem reduceProcess_own : ∀ (journal : List DispatchEvent) {process : DispatchProcess},
    process.Clean → OwnNames process.acc journal →
      ∃ result, reduceProcess process journal = .ok result ∧ result.Clean ∧
        result.acc = reduceDispatch process.acc journal
  | [], process, h, _ => ⟨process, rfl, h, rfl⟩
  | event :: rest, process, h, hnames => by
    obtain ⟨hname, hrest⟩ := hnames
    obtain ⟨next, hstep, hclean, hacc⟩ := DispatchProcess.step_own h hname
    rw [← hacc] at hrest
    obtain ⟨result, hresult, hend, hfold⟩ := reduceProcess_own rest hclean hrest
    refine ⟨result, ?_, hend, ?_⟩
    · rw [reduceProcess, List.foldlM_cons, hstep]
      exact hresult
    · rw [hfold, hacc]
      rfl

theorem OwnNames.append_iff : ∀ {before rest : List DispatchEvent} {acc : DispatchUpgradeState},
    OwnNames acc (before ++ rest) ↔ OwnNames acc before ∧ OwnNames (reduceDispatch acc before) rest
  | [], _, _ => (and_iff_right trivial).symm
  | event :: before, rest, acc => by
    have ih := @OwnNames.append_iff before rest (foldDispatch acc event)
    show OwnName acc event ∧ OwnNames (foldDispatch acc event) (before ++ rest) ↔
      (OwnName acc event ∧ OwnNames (foldDispatch acc event) before) ∧
        OwnNames (reduceDispatch (foldDispatch acc event) before) rest
    rw [ih, and_assoc]

/-! ## 4. A handoff -/

def writtenRuntime (version commit : String) : WrittenRuntime where
  version := version
  commit := commit
  sourceKind := "git"
  sourceLocation := "/src"
  keyOrder := ⟨RuntimeKey.schemaOrder, List.Perm.refl _⟩
  sourceOrder := ⟨RuntimeSourceKey.schemaOrder, List.Perm.refl _⟩

def sampleHandoff : Handoff where
  correlation := "c1"
  run := "first"
  lineage := "dispatcher"
  fromRuntime := writtenRuntime "1.0.0" "a1"
  target := { mode := .installed, key := "k1", source := "npm", version := none, base := none,
              sha := none }
  toRuntime := writtenRuntime "1.1.0" "b2"
  root := "/root"
  cacheId := "cache"

def preparedEvent : DispatchEvent := ⟨1, .upgrade (.targetPrepared sampleHandoff)⟩

def yieldEvent : DispatchEvent :=
  ⟨2, .upgrade (.yieldRequested
    { sampleHandoff with successor := "second", mode := .drain, evidence := "log" })⟩

end Autobuild
