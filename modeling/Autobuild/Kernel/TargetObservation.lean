/-
# Observing the target branch

Any number of observers read the reduced facts of a build, ask the forge which commits descend
from which, and append what they conclude if the log did not move meanwhile.

* `classify`: one turn of the loop over a snapshot, under whatever the forge answers.
* `ObserveStep`: observers and other appenders of one build, in any order.
* `observeTarget_forward`: a target an observer admits descends from the accepted target and from
  the baseline in use, in the state of the log right before the event, or is proved to be a
  rewrite of it; and a rejection that stands is not repeated.
-/
import Autobuild.Kernel.LogIndex
import Autobuild.Kernel.Reducer
import Autobuild.Lib.JsText
import Mathlib.Data.List.ReduceOption
import Mathlib.Logic.Relation

namespace Autobuild

/-! ## 1. One turn -/

/-- `/^(?:[0-9a-f]{40}|[0-9a-f]{64})$/` -/
def gitOid (sha : String) : Bool :=
  (sha.length = 40 || sha.length = 64) &&
    sha.toList.all fun c => ('0' ≤ c && c ≤ '9') || ('a' ≤ c && c ≤ 'f')

/-- What an observer reads. -/
structure TargetFacts where
  state : BuildState
  log : LogIndex

def readTargetFacts (events : List StoredEvent) : Except String TargetFacts :=
  (reduceBuild events).map fun state => ⟨state, indexLog (projectEvents events)⟩

structure ObserveInput where
  branch : String
  sha : String
  recordAccepted : Option Bool
  enforceUsedBaseline : Option Bool
  actor : Actor

/-- What an observer asks.  An answer may fail, and each of the two may be missing. -/
structure TargetProofs where
  isCommitAncestor : Option (String → String → Except String Bool)
  proveRewrite : Option (String → String → Except String (Option TargetLineage))

namespace TargetFacts

variable (facts : TargetFacts)

def accepted (branch : String) : Option String :=
  match facts.log.restack.target with
  | some target => if target.payload.branch = branch then some target.payload.sha else none
  | none => none

def leafBase : Option String :=
  match facts.log.lastReconcileCompleted with
  | some reconcile =>
    if reconcile.completedSeq > facts.log.restack.completedAt.getD 0 then some reconcile.baseSha
    else (facts.log.restack.completed.map (·.targetBase)).or facts.log.restack.initialBase
  | none => (facts.log.restack.completed.map (·.targetBase)).or facts.log.restack.initialBase

/-- Between the acceptance of a new parent and its replay no boundary is a baseline. -/
def nodeBase : Option String :=
  match facts.state.nodeRestack with
  | none => none
  | some node =>
    match node.parentChange with
    | some change => if node.parentReplay ≠ some change.id then none else node.contributionBase
    | none => node.contributionBase

def used : Option String :=
  if facts.state.kind = some .node then facts.nodeBase else facts.leafBase

/-- `[...new Set([accepted, used].filter((s) => !!s))]` -/
def baselines (branch : String) : List String :=
  JsText.distinct ([facts.accepted branch, facts.used].reduceOption.filter (· ≠ ""))

/-- The proof the accepted target was recorded with. -/
def priorProof (branch baseline : String) : Option TargetLineage :=
  match facts.log.restack.target with
  | some target =>
    if target.payload.branch = branch then
      (target.payload.lineage.getD []).find? fun proof => proof.fromSha = baseline
    else none
  | none => none

end TargetFacts

section Turn

variable (input : ObserveInput) (proofs : TargetProofs) (facts : TargetFacts)

/-- A recorded proof counts for the accepted target, or for what the forge says descends from
it. -/
def recordedProof (baseline : String) : Except String (Option TargetLineage) :=
  match facts.priorProof input.branch baseline with
  | none => .ok none
  | some prior =>
    if facts.accepted input.branch = some input.sha then .ok (some prior)
    else
      match proofs.proveRewrite, facts.accepted input.branch, proofs.isCommitAncestor with
      | none, some accepted, some isCommitAncestor =>
        if accepted = "" then .ok none
        else
          (isCommitAncestor accepted input.sha).map fun descends =>
            if descends then some prior else none
      | _, _, _ => .ok none

def suppliedProof (baseline : String) : Except String (Option TargetLineage) :=
  match facts.state.target, proofs.proveRewrite with
  | some target, some proveRewrite =>
    if target.build = "" then .ok none else proveRewrite target.build baseline
  | _, _ => .ok none

def rewriteProof (baseline : String) : Except String (Option TargetLineage) :=
  match recordedProof input proofs facts baseline with
  | .error e => .error e
  | .ok (some proof) => .ok (some proof)
  | .ok none => suppliedProof proofs facts baseline

/-- The first baseline that the commit neither descends from nor is proved to be a rewrite of,
and the proofs up to it. -/
def walkBaselines : List String → List TargetLineage →
    Except String (Option String × List TargetLineage)
  | [], lineage => .ok (none, lineage)
  | baseline :: rest, lineage =>
    if ¬ gitOid baseline then .error "invalid target commit OID"
    else if baseline = input.sha then walkBaselines rest lineage
    else
      match proofs.isCommitAncestor with
      | none => .error "forge ancestry proof capability unavailable"
      | some isCommitAncestor =>
        match isCommitAncestor baseline input.sha with
        | .error e => .error e
        | .ok true => walkBaselines rest lineage
        | .ok false =>
          match rewriteProof input proofs facts baseline with
          | .error e => .error e
          | .ok (some proof) => walkBaselines rest (lineage ++ [proof])
          | .ok none => .ok (some baseline, lineage)

end Turn

inductive Observation where
  | moved
  | unchanged
  | rejected
  | cleared
  deriving DecidableEq

/-- What a turn ends with: an answer, or an event to append. -/
inductive TargetTurn where
  | answer (observation : Observation)
  | append (event : TargetEvent)

/-- `...(lineage.length ? { lineage } : {})` -/
def recordLineage (lineage : List TargetLineage) : Option (List TargetLineage) :=
  if lineage = [] then none else some lineage

def concludeTurn (input : ObserveInput) (facts : TargetFacts) (previousSha : Option String)
    (lineage : List TargetLineage) : TargetTurn :=
  let payload : TargetMoved := ⟨input.branch, input.sha, recordLineage lineage⟩
  let rejected := facts.log.restack.targetRewrite
  match previousSha with
  | some previousSha =>
    if rejected = some ⟨input.branch, previousSha, input.sha⟩ then .answer .rejected
    else .append (.rewritten ⟨input.branch, previousSha, input.sha⟩)
  | none =>
    if input.recordAccepted = some false ∧ rejected = none then .answer .unchanged
    else if facts.accepted input.branch ≠ some input.sha then .append (.moved payload)
    else if rejected.isSome then .append (.rewriteCleared payload)
    else .answer .unchanged

/-- The body of the loop over a snapshot. -/
def classify (input : ObserveInput) (proofs : TargetProofs) (facts : TargetFacts) :
    Except String TargetTurn :=
  let baselines := facts.baselines input.branch
  let rejected := facts.log.restack.targetRewrite
  if facts.accepted input.branch = some input.sha ∧ rejected = none
      ∧ input.enforceUsedBaseline.getD false = false then .ok (.answer .unchanged)
  else if proofs.proveRewrite.isNone = true ∧ ∃ previousSha ∈ baselines,
      rejected = some ⟨input.branch, previousSha, input.sha⟩ then .ok (.answer .rejected)
  else
    (walkBaselines input proofs facts baselines []).map fun walked =>
      concludeTurn input facts walked.1 walked.2

/-! ## 2. Observers and other appenders -/

/-- What the forge and the dispatcher know: commits and publication receipts do not change. -/
structure CommitGraph where
  /-- The second commit descends from the first. -/
  descends : String → String → Prop
  /-- The publications of a node rewrote a commit, as the proof records. -/
  proved : String → String → TargetLineage → Prop

structure TargetProofs.Truthful (proofs : TargetProofs) (graph : CommitGraph) : Prop where
  descends : ∀ isCommitAncestor, proofs.isCommitAncestor = some isCommitAncestor →
    ∀ a b, isCommitAncestor a b = .ok true → graph.descends a b
  proved : ∀ proveRewrite, proofs.proveRewrite = some proveRewrite →
    ∀ node baseline proof, proveRewrite node baseline = .ok (some proof) →
      graph.proved node baseline proof

inductive ObserveStage where
  /-- About to read. -/
  | reading
  /-- Asking the forge about a snapshot. -/
  | asking (cursor : Nat) (facts : TargetFacts)
  /-- Appending to the log as it was at the cursor. -/
  | appending (cursor : Nat) (event : TargetEvent)

structure ObserveCall where
  input : ObserveInput
  stage : ObserveStage

/-- An event an observer appended, and the log before it. -/
structure AppendedTarget where
  before : List StoredEvent
  input : ObserveInput
  event : TargetEvent

structure ObserveSystem where
  log : List StoredEvent
  calls : List ObserveCall
  appended : List AppendedTarget

namespace ObserveSystem

def targetEvent (seq ts : Nat) (actor : Actor) (event : TargetEvent) : StoredEvent :=
  .known ⟨seq, ts, actor, .target event⟩

/-- The answer to `appendIfCurrent`: the cursor must be the last seq. -/
def appendIfCurrent (system : ObserveSystem) (rest : List ObserveCall) (input : ObserveInput)
    (cursor ts : Nat) (event : TargetEvent) : ObserveSystem :=
  if system.log.length = cursor then
    { log := system.log ++ [targetEvent (cursor + 1) ts input.actor event]
      calls := rest
      appended := system.appended ++ [⟨system.log, input, event⟩] }
  else { system with calls := ⟨input, .reading⟩ :: rest }

end ObserveSystem

open ObserveSystem in
/-- One step.  A call is any of the open ones, in whatever order they are listed. -/
inductive ObserveStep (graph : CommitGraph) (system : ObserveSystem) : ObserveSystem → Prop
  | other (event : StoredEvent) : event.seq = system.log.length + 1 →
      ObserveStep graph system { system with log := system.log ++ [event] }
  | start (input : ObserveInput) : gitOid input.sha = true →
      ObserveStep graph system { system with calls := ⟨input, .reading⟩ :: system.calls }
  /-- A read answers with the facts of the log at a cursor, which others may have left behind. -/
  | read {input : ObserveInput} {rest : List ObserveCall} {cursor : Nat} {facts : TargetFacts} :
      system.calls.Perm (⟨input, .reading⟩ :: rest) → cursor ≤ system.log.length →
      readTargetFacts (system.log.take cursor) = .ok facts →
      ObserveStep graph system { system with calls := ⟨input, .asking cursor facts⟩ :: rest }
  /-- The forge answered: the call is over, or goes on to append. -/
  | settle {input : ObserveInput} {rest : List ObserveCall} {cursor : Nat} {facts : TargetFacts}
      {proofs : TargetProofs} {event : TargetEvent} :
      system.calls.Perm (⟨input, .asking cursor facts⟩ :: rest) → proofs.Truthful graph →
      classify input proofs facts = .ok (.append event) →
      ObserveStep graph system { system with calls := ⟨input, .appending cursor event⟩ :: rest }
  /-- A call answers, or fails: a read, the forge or an append may be refused. -/
  | finish {call : ObserveCall} {rest : List ObserveCall} :
      system.calls.Perm (call :: rest) → ObserveStep graph system { system with calls := rest }
  | append {input : ObserveInput} {rest : List ObserveCall} {cursor : Nat} {event : TargetEvent}
      (ts : Nat) : system.calls.Perm (⟨input, .appending cursor event⟩ :: rest) →
      ObserveStep graph system (system.appendIfCurrent rest input cursor ts event)

/-- A run, from any log on. -/
def ObserveRun (graph : CommitGraph) (log : List StoredEvent) (system : ObserveSystem) : Prop :=
  Relation.ReflTransGen (ObserveStep graph) ⟨log, [], []⟩ system

/-! ## 3. What a turn admits -/

/-- A commit may follow a baseline: it is the baseline or descends from it, or the event carries
the proof that the baseline was rewritten. -/
inductive Follows (graph : CommitGraph) (facts : TargetFacts) (payload : TargetMoved)
    (baseline : String) : Prop
  | same : payload.sha = baseline → Follows graph facts payload baseline
  | descends : graph.descends baseline payload.sha → Follows graph facts payload baseline
  /-- Proved when the accepted target was recorded, which the commit is or descends from. -/
  | recorded (proof : TargetLineage) : proof ∈ payload.lineage.getD [] →
      facts.priorProof payload.branch baseline = some proof →
      (∃ accepted, facts.accepted payload.branch = some accepted ∧
        (accepted = payload.sha ∨ graph.descends accepted payload.sha)) →
      Follows graph facts payload baseline
  /-- Proved by the dispatcher from the publications of the target's build. -/
  | supplied (proof : TargetLineage) (target : BuildTarget) : proof ∈ payload.lineage.getD [] →
      facts.state.target = some target → graph.proved target.build baseline proof →
      Follows graph facts payload baseline

/-- The commit follows the accepted target of the branch and the baseline in use. -/
def Admits (graph : CommitGraph) (facts : TargetFacts) (payload : TargetMoved) : Prop :=
  ∀ baseline, baseline ≠ "" →
    (facts.accepted payload.branch = some baseline ∨ facts.used = some baseline) →
    Follows graph facts payload baseline

/-- What an observer may append to a log with these facts. -/
def EventForward (graph : CommitGraph) (facts : TargetFacts) (input : ObserveInput) :
    TargetEvent → Prop
  | .moved payload =>
    payload.branch = input.branch ∧ payload.sha = input.sha ∧ Admits graph facts payload
  | .rewriteCleared payload =>
    payload.branch = input.branch ∧ payload.sha = input.sha ∧ Admits graph facts payload
  | .rewritten payload => facts.log.restack.targetRewrite ≠ some payload
  | .distance _ => False

section Turn

variable {graph : CommitGraph} {input : ObserveInput} {proofs : TargetProofs}
  {facts : TargetFacts}

/-- Where a proof that is accepted came from. -/
def ProofFor (graph : CommitGraph) (input : ObserveInput) (facts : TargetFacts)
    (baseline : String) (proof : TargetLineage) : Prop :=
  (facts.priorProof input.branch baseline = some proof ∧
    ∃ accepted, facts.accepted input.branch = some accepted ∧
      (accepted = input.sha ∨ graph.descends accepted input.sha)) ∨
  ∃ target, facts.state.target = some target ∧ graph.proved target.build baseline proof

theorem recordedProof_ok (htruthful : proofs.Truthful graph) {baseline : String}
    {proof : TargetLineage} (h : recordedProof input proofs facts baseline = .ok (some proof)) :
    facts.priorProof input.branch baseline = some proof ∧
      ∃ accepted, facts.accepted input.branch = some accepted ∧
        (accepted = input.sha ∨ graph.descends accepted input.sha) := by
  unfold recordedProof at h
  cases hprior : facts.priorProof input.branch baseline with
  | none => simp [hprior] at h
  | some prior =>
    simp only [hprior] at h
    by_cases hsame : facts.accepted input.branch = some input.sha
    · rw [if_pos hsame] at h
      cases h
      exact ⟨rfl, input.sha, hsame, .inl rfl⟩
    rw [if_neg hsame] at h
    split at h
    · rename_i accepted isCommitAncestor _ haccepted hasks
      by_cases hblank : accepted = ""
      · simp [hblank] at h
      rw [if_neg hblank] at h
      cases hanswer : isCommitAncestor accepted input.sha with
      | error e => simp [hanswer, Except.map] at h
      | ok descends =>
        cases descends with
        | false => simp [hanswer, Except.map] at h
        | true =>
          have hproof : prior = proof := by simpa [hanswer, Except.map] using h
          rw [← hproof]
          exact ⟨rfl, accepted, haccepted,
            .inr (htruthful.descends isCommitAncestor hasks _ _ hanswer)⟩
    · cases h

theorem suppliedProof_ok (htruthful : proofs.Truthful graph) {baseline : String}
    {proof : TargetLineage} (h : suppliedProof proofs facts baseline = .ok (some proof)) :
    ∃ target, facts.state.target = some target ∧ graph.proved target.build baseline proof := by
  unfold suppliedProof at h
  split at h
  · rename_i target proveRewrite htarget hproves
    by_cases hblank : target.build = ""
    · simp [hblank] at h
    rw [if_neg hblank] at h
    exact ⟨target, htarget, htruthful.proved proveRewrite hproves _ _ _ h⟩
  · cases h

theorem rewriteProof_ok (htruthful : proofs.Truthful graph) {baseline : String}
    {proof : TargetLineage} (h : rewriteProof input proofs facts baseline = .ok (some proof)) :
    ProofFor graph input facts baseline proof := by
  unfold rewriteProof at h
  cases hrecorded : recordedProof input proofs facts baseline with
  | error e => simp [hrecorded] at h
  | ok recorded =>
    cases recorded with
    | none =>
      simp only [hrecorded] at h
      exact .inr (suppliedProof_ok htruthful h)
    | some recorded =>
      have he : recorded = proof := by simpa [hrecorded] using h
      rw [← he]
      exact .inl (recordedProof_ok htruthful hrecorded)

/-- **A walk that passes** shows the commit to follow every baseline. -/
theorem walkBaselines_ok (htruthful : proofs.Truthful graph) :
    ∀ {baselines : List String} {lineage out : List TargetLineage},
      walkBaselines input proofs facts baselines lineage = .ok (none, out) →
      (∀ proof ∈ lineage, proof ∈ out) ∧
        ∀ baseline ∈ baselines, input.sha = baseline ∨ graph.descends baseline input.sha ∨
          ∃ proof ∈ out, ProofFor graph input facts baseline proof
  | [], lineage, out, h => by
    cases h
    exact ⟨fun _ h => h, fun _ h => absurd h List.not_mem_nil⟩
  | first :: rest, lineage, out, h => by
    unfold walkBaselines at h
    by_cases hoid : ¬ gitOid first = true
    · simp [hoid] at h
    rw [if_neg hoid] at h
    by_cases hsame : first = input.sha
    · rw [if_pos hsame] at h
      obtain ⟨hkeep, hrest⟩ := walkBaselines_ok htruthful h
      exact ⟨hkeep, List.forall_mem_cons.mpr ⟨.inl hsame.symm, hrest⟩⟩
    rw [if_neg hsame] at h
    cases hasks : proofs.isCommitAncestor with
    | none => simp [hasks] at h
    | some isCommitAncestor =>
      simp only [hasks] at h
      cases hanswer : isCommitAncestor first input.sha with
      | error e => simp [hanswer] at h
      | ok descends =>
        cases descends with
        | true =>
          simp only [hanswer] at h
          obtain ⟨hkeep, hrest⟩ := walkBaselines_ok htruthful h
          have hfirst := htruthful.descends isCommitAncestor hasks _ _ hanswer
          exact ⟨hkeep, List.forall_mem_cons.mpr ⟨.inr (.inl hfirst), hrest⟩⟩
        | false =>
          simp only [hanswer] at h
          cases hproof : rewriteProof input proofs facts first with
          | error e => simp [hproof] at h
          | ok found =>
            cases found with
            | none => simp [hproof] at h
            | some proof =>
              simp only [hproof] at h
              obtain ⟨hkeep, hrest⟩ := walkBaselines_ok htruthful h
              have hin : proof ∈ out := hkeep proof (List.mem_append_right _ (by simp))
              exact ⟨fun other ho => hkeep other (List.mem_append_left _ ho),
                List.forall_mem_cons.mpr
                  ⟨.inr (.inr ⟨proof, hin, rewriteProof_ok htruthful hproof⟩), hrest⟩⟩

theorem mem_recordLineage {lineage : List TargetLineage} {proof : TargetLineage} :
    proof ∈ (recordLineage lineage).getD [] ↔ proof ∈ lineage := by
  unfold recordLineage
  by_cases h : lineage = [] <;> simp [h]

theorem mem_baselines {branch baseline : String} :
    baseline ∈ facts.baselines branch ↔ baseline ≠ "" ∧
      (facts.accepted branch = some baseline ∨ facts.used = some baseline) := by
  unfold TargetFacts.baselines
  rw [JsText.mem_distinct, List.mem_filter, List.reduceOption_mem_iff]
  simp only [List.mem_cons, List.not_mem_nil, or_false, decide_eq_true_eq, ne_eq]
  tauto

/-- **A turn admits forward commits only**, and repeats no rejection. -/
theorem classify_forward (htruthful : proofs.Truthful graph) {event : TargetEvent}
    (h : classify input proofs facts = .ok (.append event)) :
    EventForward graph facts input event := by
  unfold classify at h
  dsimp only at h
  split_ifs at h with hunchanged hrejected
  · cases h
  · cases h
  cases hwalk : walkBaselines input proofs facts (facts.baselines input.branch) [] with
  | error e => simp [hwalk, Except.map] at h
  | ok walked =>
    obtain ⟨previousSha, lineage⟩ := walked
    have hconclude : concludeTurn input facts previousSha lineage = .append event := by
      simpa [hwalk, Except.map] using h
    unfold concludeTurn at hconclude
    cases previousSha with
    | some previousSha =>
      dsimp only at hconclude
      split_ifs at hconclude with hstands
      cases hconclude
      exact hstands
    | none =>
      obtain ⟨-, hfollows⟩ := walkBaselines_ok htruthful hwalk
      have hadmits : Admits graph facts ⟨input.branch, input.sha, recordLineage lineage⟩ := by
        intro baseline hblank hbaseline
        rcases hfollows baseline (mem_baselines.mpr ⟨hblank, hbaseline⟩) with
          hsame | hdescends | ⟨proof, hin, ⟨hprior, haccepted⟩ | ⟨target, htarget, hproved⟩⟩
        · exact .same hsame
        · exact .descends hdescends
        · exact .recorded proof (mem_recordLineage.mpr hin) hprior haccepted
        · exact .supplied proof target (mem_recordLineage.mpr hin) htarget hproved
      dsimp only at hconclude
      split_ifs at hconclude
      · cases hconclude
        exact ⟨rfl, rfl, hadmits⟩
      · cases hconclude
        exact ⟨rfl, rfl, hadmits⟩

end Turn

/-! ## 4. Over a run -/

/-- An event that was appended, judged by the log before it. -/
def AppendedTarget.Forward (graph : CommitGraph) (appended : AppendedTarget) : Prop :=
  ∃ facts, readTargetFacts appended.before = .ok facts ∧
    EventForward graph facts appended.input appended.event

/-- The event stands in the log, after the log it was judged by. -/
def AppendedTarget.InLog (log : List StoredEvent) (appended : AppendedTarget) : Prop :=
  ∃ ts, appended.before ++ [ObserveSystem.targetEvent (appended.before.length + 1) ts
    appended.input.actor appended.event] <+: log

/-- What an open call holds is true of the log at its cursor. -/
def ObserveStage.Sound (graph : CommitGraph) (log : List StoredEvent) (input : ObserveInput) :
    ObserveStage → Prop
  | .reading => True
  | .asking cursor facts => cursor ≤ log.length ∧ readTargetFacts (log.take cursor) = .ok facts
  | .appending cursor event => cursor ≤ log.length ∧
      ∃ facts, readTargetFacts (log.take cursor) = .ok facts ∧
        EventForward graph facts input event

structure ObserveInv (graph : CommitGraph) (system : ObserveSystem) : Prop where
  calls : ∀ call ∈ system.calls, call.stage.Sound graph system.log call.input
  appended : ∀ appended ∈ system.appended,
    appended.Forward graph ∧ appended.InLog system.log

section Run

variable {graph : CommitGraph} {system system' : ObserveSystem}

/-- A log that grows keeps what was read of it. -/
theorem ObserveStage.Sound.grow {log log' : List StoredEvent} {input : ObserveInput}
    {stage : ObserveStage} (h : stage.Sound graph log input) (hlog : log <+: log') :
    stage.Sound graph log' input := by
  have htake : ∀ cursor, cursor ≤ log.length → log'.take cursor = log.take cursor := by
    intro cursor hle
    obtain ⟨more, rfl⟩ := hlog
    exact List.take_append_of_le_length hle
  cases stage with
  | reading => trivial
  | asking cursor facts => exact ⟨h.1.trans hlog.length_le, by rw [htake cursor h.1]; exact h.2⟩
  | appending cursor event =>
    exact ⟨h.1.trans hlog.length_le, by rw [htake cursor h.1]; exact h.2⟩

/-- Some of the calls stay as they are, one is replaced. -/
theorem ObserveInv.replace (hinv : ObserveInv graph system) {call : ObserveCall}
    {rest : List ObserveCall} (hcalls : system.calls.Perm (call :: rest)) {next : ObserveCall}
    (hnext : next.stage.Sound graph system.log next.input) :
    ObserveInv graph { system with calls := next :: rest } where
  calls := List.forall_mem_cons.mpr ⟨hnext, fun other ho =>
    hinv.calls other (hcalls.mem_iff.mpr (List.mem_cons_of_mem _ ho))⟩
  appended := hinv.appended

/-- The CAS appends to the very log the turn was about. -/
theorem ObserveInv.append (hinv : ObserveInv graph system) {input : ObserveInput}
    {rest : List ObserveCall} {cursor : Nat} {event : TargetEvent} (ts : Nat)
    (hcalls : system.calls.Perm (⟨input, .appending cursor event⟩ :: rest)) :
    ObserveInv graph (system.appendIfCurrent rest input cursor ts event) := by
  unfold ObserveSystem.appendIfCurrent
  split_ifs with hcurrent
  · obtain ⟨-, facts, hfacts, hforward⟩ :=
      hinv.calls _ (hcalls.mem_iff.mpr List.mem_cons_self)
    subst hcurrent
    rw [List.take_length] at hfacts
    refine ⟨fun call hc => ?_, fun appended ha => ?_⟩
    · exact (hinv.calls call (hcalls.mem_iff.mpr (List.mem_cons_of_mem _ hc))).grow
        (List.prefix_append _ _)
    · rcases List.mem_append.mp ha with ha | ha
      · obtain ⟨hbefore, ts', hlog⟩ := hinv.appended appended ha
        exact ⟨hbefore, ts', hlog.trans (List.prefix_append _ _)⟩
      · rw [List.mem_singleton.mp ha]
        exact ⟨⟨facts, hfacts, hforward⟩, ts, List.prefix_rfl⟩
  · exact hinv.replace hcalls trivial

theorem ObserveInv.step (hinv : ObserveInv graph system)
    (h : ObserveStep graph system system') : ObserveInv graph system' := by
  cases h with
  | other event _ =>
    refine ⟨fun call hc => (hinv.calls call hc).grow (List.prefix_append _ _),
      fun appended ha => ?_⟩
    obtain ⟨hforward, ts, hlog⟩ := hinv.appended appended ha
    exact ⟨hforward, ts, hlog.trans (List.prefix_append _ _)⟩
  | start input _ =>
    exact ⟨List.forall_mem_cons.mpr ⟨trivial, hinv.calls⟩, hinv.appended⟩
  | read hcalls hle hfacts => exact hinv.replace hcalls ⟨hle, hfacts⟩
  | settle hcalls htruthful hclassify =>
    obtain ⟨hle, hfacts⟩ := hinv.calls _ (hcalls.mem_iff.mpr List.mem_cons_self)
    exact hinv.replace hcalls ⟨hle, _, hfacts, classify_forward htruthful hclassify⟩
  | finish hcalls =>
    exact ⟨fun call hc => hinv.calls call (hcalls.mem_iff.mpr (List.mem_cons_of_mem _ hc)),
      hinv.appended⟩
  | append ts hcalls => exact hinv.append ts hcalls

theorem ObserveRun.inv {log : List StoredEvent} (h : ObserveRun graph log system) :
    ObserveInv graph system := by
  induction h with
  | refl => exact ⟨fun _ h => absurd h List.not_mem_nil, fun _ h => absurd h List.not_mem_nil⟩
  | tail _ hstep ih => exact ih.step hstep

end Run

/-- **Only forward destinations are admitted**: whatever observers and other appenders do to one
build, in any order, every `target.moved` and `target.rewrite-cleared` an observer appended names
a commit that follows both the accepted target of the branch and the baseline in use, in the
state of the log right before the event; and a `target.rewritten` it appended is not the
rejection that stood there. -/
theorem observeTarget_forward {graph : CommitGraph} {log : List StoredEvent}
    {system : ObserveSystem} (h : ObserveRun graph log system) :
    ∀ appended ∈ system.appended, appended.Forward graph ∧ appended.InLog system.log :=
  h.inv.appended

section Witness

/-- Any commit descends from any other. -/
def lineOfCommits : CommitGraph := ⟨fun _ _ => True, fun _ _ _ => False⟩

def alwaysDescends : TargetProofs := ⟨some fun _ _ => .ok true, none⟩

theorem alwaysDescends_truthful : alwaysDescends.Truthful lineOfCommits :=
  ⟨fun _ _ _ _ _ => trivial, fun _ h => nomatch h⟩

def shaOf (digit : Char) : String := String.ofList (List.replicate 40 digit)

def observing (digit : Char) : ObserveInput := ⟨"main", shaOf digit, none, none, .kernel⟩

def movedTo (digit : Char) : TargetEvent := .moved ⟨"main", shaOf digit, none⟩

/-- The turn of an observer of the log ends in a move. -/
def moves (log : List StoredEvent) (digit : Char) : Bool :=
  match readTargetFacts log with
  | .ok facts =>
    match classify (observing digit) alwaysDescends facts with
    | .ok (.append (.moved payload)) => decide (payload = ⟨"main", shaOf digit, none⟩)
    | _ => false
  | .error _ => false

/-- An observer alone with the log admits what it observes. -/
theorem observe_alone (log : List StoredEvent) (appended : List AppendedTarget) (digit : Char)
    (hoid : gitOid (shaOf digit) = true) (hmoves : moves log digit = true) :
    Relation.ReflTransGen (ObserveStep lineOfCommits) ⟨log, [], appended⟩
      ⟨log ++ [ObserveSystem.targetEvent (log.length + 1) 0 .kernel (movedTo digit)], [],
        appended ++ [⟨log, observing digit, movedTo digit⟩]⟩ := by
  obtain ⟨facts, hfacts, hclassify⟩ : ∃ facts, readTargetFacts log = .ok facts ∧
      classify (observing digit) alwaysDescends facts = .ok (.append (movedTo digit)) := by
    unfold moves at hmoves
    split at hmoves
    · rename_i facts hfacts
      split at hmoves
      · rename_i payload hclassify
        rw [of_decide_eq_true hmoves] at hclassify
        exact ⟨facts, hfacts, hclassify⟩
      · exact absurd hmoves Bool.false_ne_true
    · exact absurd hmoves Bool.false_ne_true
  have hread : readTargetFacts (log.take log.length) = .ok facts := by rwa [List.take_length]
  have happend : ObserveStep lineOfCommits
      ⟨log, [⟨observing digit, .appending log.length (movedTo digit)⟩], appended⟩ _ :=
    .append 0 (List.Perm.refl _)
  unfold ObserveSystem.appendIfCurrent at happend
  rw [if_pos rfl] at happend
  exact .tail (.tail (.tail (.tail .refl (.start (observing digit) hoid))
    (.read (List.Perm.refl _) le_rfl hread))
    (.settle (List.Perm.refl _) alwaysDescends_truthful hclassify)) happend

theorem observeTarget_forward_twice :
    ∃ system : ObserveSystem, system.appended.map (·.event) = [movedTo 'a', movedTo 'b'] ∧
      ∀ appended ∈ system.appended,
        appended.Forward lineOfCommits ∧ appended.InLog system.log := by
  have hfirst := observe_alone [] [] 'a' (by decide) (by decide +kernel)
  have hsecond := observe_alone [ObserveSystem.targetEvent 1 0 .kernel (movedTo 'a')]
    [⟨[], observing 'a', movedTo 'a'⟩] 'b' (by decide) (by decide +kernel)
  have hrun : ObserveRun lineOfCommits [] _ := hfirst.trans hsecond
  exact ⟨_, rfl, observeTarget_forward hrun⟩

end Witness

end Autobuild
