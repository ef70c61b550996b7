/-
# Build digests

A store answers for the digest of a build: what a dashboard and the harvest gate need of a log,
without the log.  `buildDigestReducer` folds rows, which hold of an event no more than it reads,
and an adapter may leave out the rows of the types that are not in `DIGEST_EVENT_TYPES`.

* `Agrees`: the accumulator of the digest and those of the three reducers it stands for, with
  what one event preserves of it (`Agrees.step`).
* `foldDigest_filter`: the rows that are left out change `readinessChangeSeq` at most.

`node.writer-settled` is not in `DIGEST_EVENT_TYPES`, and the fold reads it: the filtered digest
is the digest of the log unless that is the last fact that changes readiness
(`digest_agrees_iff`).
-/
import Autobuild.Kernel.Docket
import Autobuild.Lib.ObjectMap

namespace Autobuild

open Checked

/-! ## 1. The reducers the digest stands for -/

structure PendingPrAttachmentReclaimsAcc where
  hosted : List AbEvent
  reclaimedAt : ObjectMap Nat Nat

namespace PendingPrAttachmentReclaimsAcc

def initial : PendingPrAttachmentReclaimsAcc := ⟨[], ∅⟩

/-- A reclaim may precede its hosted event, so both are kept. -/
def fold (acc : PendingPrAttachmentReclaimsAcc) (event : AbEvent) :
    PendingPrAttachmentReclaimsAcc :=
  match event.body with
  | .plain (.prAttachmentHosted _ _) => { acc with hosted := acc.hosted ++ [event] }
  | .plain (.prAttachmentReclaimed hostedSeq) =>
    match acc.reclaimedAt.get? hostedSeq with
    | some previous =>
      if event.seq > previous then
        { acc with reclaimedAt := acc.reclaimedAt.set hostedSeq event.seq }
      else acc
    | none => { acc with reclaimedAt := acc.reclaimedAt.set hostedSeq event.seq }
  | _ => acc

def reclaimed (acc : PendingPrAttachmentReclaimsAcc) (seq : Nat) : Bool :=
  match acc.reclaimedAt.get? seq with
  | some at' => at' > seq
  | none => false

def finish (acc : PendingPrAttachmentReclaimsAcc) : List AbEvent :=
  (acc.hosted.mergeSort fun left right => decide (left.seq ≤ right.seq)).filter fun event =>
    !acc.reclaimed event.seq

end PendingPrAttachmentReclaimsAcc

def pendingPrAttachmentReclaims (events : List StoredEvent) : List AbEvent :=
  ((projectEvents events).foldl PendingPrAttachmentReclaimsAcc.fold .initial).finish

/-- The start that is open after an event. -/
def foldOpenExecution (acc : Option ExecutionStarted) (event : AbEvent) :
    Option ExecutionStarted :=
  match event.body with
  | .execution (.started payload) => some payload
  | .execution (.ended instanceId) =>
    if acc.map (·.instanceId) = some instanceId then none else acc
  | _ => acc

def openExecution (events : List StoredEvent) : Option ExecutionStarted :=
  (projectEvents events).foldl foldOpenExecution none

/-! ## 2. Rows -/

/-- The types that the fold of the digest tells apart. -/
inductive DigestEventType where
  | buildCreated
  | nodeParentRequested
  | nodeParentAccepted
  | integrationLanded
  | integrationAudited
  | nodeOpened
  | nodeWriterSettled
  | nodeContributionRecorded
  | prClosed
  | buildCompleted
  | buildAborted
  | observationRecorded
  | prMerged
  | prAttachmentHosted
  | prAttachmentReclaimed
  | executionStarted
  | executionEnded
  | other
  deriving DecidableEq, Repr

open DigestEventType

def DIGEST_EVENT_TYPES : List DigestEventType :=
  [buildCreated, nodeParentRequested, nodeParentAccepted, integrationLanded, integrationAudited,
    nodeOpened, nodeContributionRecorded, prClosed, buildCompleted, buildAborted,
    observationRecorded, prMerged, prAttachmentHosted, prAttachmentReclaimed, executionStarted,
    executionEnded]

def EventBody.digestType : EventBody → DigestEventType
  | .build (.created _) => buildCreated
  | .build (.completed _) => buildCompleted
  | .build .aborted => buildAborted
  | .node (.parentRequested _) => nodeParentRequested
  | .node (.parentAccepted _) => nodeParentAccepted
  | .node (.opened _) => nodeOpened
  | .node (.writerSettled _) => nodeWriterSettled
  | .node (.contributionRecorded _) => nodeContributionRecorded
  | .integration (.landed _) => integrationLanded
  | .integration (.audited _) => integrationAudited
  | .pr (.merged _) => prMerged
  | .pr .closed => prClosed
  | .execution (.started _) => executionStarted
  | .execution (.ended _) => executionEnded
  | .observationRecorded _ => DigestEventType.observationRecorded
  | .plain (.prAttachmentHosted _ _) => prAttachmentHosted
  | .plain (.prAttachmentReclaimed _) => prAttachmentReclaimed
  | _ => other

structure DigestEventRow where
  type : DigestEventType
  seq : Nat
  ts : Nat
  rawUnknown : Option StoredEvent := none
  auditRequested : Bool := false
  mergedSha : Option String := none
  nodeContribution : Option NodeContribution := none
  kind : Option BuildKind := none
  /-- Node build slugs this event's target or parent move names. -/
  nodeTargets : List String := []
  hostedSeq : Option Nat := none
  instanceId : Option String := none

/-- A `build.created` target, or either side of a node parent move. -/
def digestNodeTargetsOf : EventBody → List String
  | .build (.created payload) => (payload.target.map (·.build)).toList
  | .node (.parentRequested payload) =>
    (payload.old.target.map (·.build)).toList ++ (payload.next.target.map (·.build)).toList
  | .node (.parentAccepted payload) =>
    (payload.old.target.map (·.build)).toList ++ (payload.next.target.map (·.build)).toList
  | _ => []

/-- The row of a known event. -/
def digestRow (event : AbEvent) : DigestEventRow :=
  let row : DigestEventRow := {
    type := event.body.digestType
    seq := event.seq
    ts := event.ts
    nodeTargets := digestNodeTargetsOf event.body }
  match event.body with
  | .build (.created payload) => { row with kind := payload.kind }
  | .integration (.landed payload) =>
    { row with auditRequested := payload.operation.any fun operation => operation ≠ "" }
  | .pr (.merged sha) => { row with mergedSha := some sha }
  | .node (.contributionRecorded payload) => { row with nodeContribution := some payload }
  | .plain (.prAttachmentReclaimed hostedSeq) => { row with hostedSeq := some hostedSeq }
  | .execution (.started payload) => { row with instanceId := some payload.instanceId }
  | .execution (.ended instanceId) => { row with instanceId := some instanceId }
  | _ => row

/-- What the store adapts a stored event to.  No fold reads the `ts` of an unknown fact. -/
def adaptDigest : StoredEvent → DigestEventRow
  | .known event => digestRow event
  | .unknown seq type compatibility =>
    { type := other, seq := seq, ts := 0, rawUnknown := some (.unknown seq type compatibility) }

/-- The rows that an adapter fetches. -/
def digestRelevant (row : DigestEventRow) : Bool :=
  row.type ∈ DIGEST_EVENT_TYPES || row.rawUnknown.isSome

/-! ## 3. The digest -/

structure DigestAcc where
  compatibility : CompatibilityState
  integrationAuditPending : Bool := false
  mergedSha : Option String := none
  nodeContribution : Option NodeContribution := none
  kind : Option BuildKind := none
  nodeOpened : Bool := false
  prClosed : Bool := false
  readinessChangeSeq : Option Nat := none
  terminal : Option Terminal := none
  merged : Option Nat := none
  observations : List (Nat × Nat) := []
  /-- Seqs of hosted events. -/
  hosted : List Nat := []
  /-- Hosted seqs named by a reclaimed event with a later seq. -/
  reclaimed : List Nat := []
  /-- The latest start's instance, cleared only by an instance-matched end. -/
  openInstance : Option String := none
  nodeTargets : List String := []

structure BuildDigest where
  compatibility : Option CompatibilityState
  integrationAuditPending : Bool
  mergedSha : Option String
  nodeContribution : Option NodeContribution
  kind : Option BuildKind
  nodeOpened : Bool
  prClosed : Bool
  observations : List (Nat × Nat)
  readinessChangeSeq : Option Nat
  merged : Option Nat
  terminal : Option Terminal
  reclaimPending : Bool
  executionOpen : Bool
  nodeTargets : List String

def READINESS_TYPES : List DigestEventType :=
  [nodeWriterSettled, DigestEventType.nodeOpened, nodeContributionRecorded,
    DigestEventType.prClosed, prMerged, buildCompleted, buildAborted]

namespace DigestAcc

def initial : DigestAcc := { compatibility := initialCompatibility }

def noteUnknown (acc : DigestAcc) (row : DigestEventRow) : DigestAcc :=
  match row.rawUnknown with
  | some event => { acc with compatibility := advanceCompatibility acc.compatibility [event] }
  | none => acc

def noteTargets (acc : DigestAcc) (row : DigestEventRow) : DigestAcc :=
  if row.nodeTargets.any fun target => target ∉ acc.nodeTargets then
    let targets := (acc.nodeTargets ++ row.nodeTargets).eraseDups
    { acc with nodeTargets := targets.mergeSort fun a b => decide (a ≤ b) }
  else acc

def noteReadiness (acc : DigestAcc) (row : DigestEventRow) : DigestAcc :=
  if row.type ∈ READINESS_TYPES then { acc with readinessChangeSeq := some row.seq } else acc

def noteType (acc : DigestAcc) (row : DigestEventRow) : DigestAcc :=
  match row.type with
  | .integrationLanded => { acc with integrationAuditPending := row.auditRequested }
  | .integrationAudited => { acc with integrationAuditPending := false }
  | .buildCreated => { acc with kind := row.kind }
  | .nodeContributionRecorded => { acc with nodeContribution := row.nodeContribution }
  | .nodeOpened => { acc with nodeOpened := true }
  | .prClosed => { acc with prClosed := true }
  | .buildCompleted => { acc with terminal := some .done }
  | .buildAborted => { acc with terminal := some .aborted }
  | .prMerged => { acc with merged := some row.ts, mergedSha := row.mergedSha }
  | .observationRecorded => { acc with observations := acc.observations ++ [(row.seq, row.ts)] }
  | .prAttachmentHosted => { acc with hosted := acc.hosted ++ [row.seq] }
  | .prAttachmentReclaimed =>
    match row.hostedSeq with
    | some hostedSeq =>
      if row.seq > hostedSeq then { acc with reclaimed := acc.reclaimed ++ [hostedSeq] } else acc
    | none => acc
  | .executionStarted => { acc with openInstance := row.instanceId }
  | .executionEnded =>
    if acc.openInstance ≠ none ∧ row.instanceId = acc.openInstance then
      { acc with openInstance := none }
    else acc
  | .nodeParentRequested | .nodeParentAccepted | .nodeWriterSettled | .other => acc

def fold (acc : DigestAcc) (row : DigestEventRow) : DigestAcc :=
  noteType (noteReadiness (noteTargets (noteUnknown acc row) row) row) row

def reclaimPending (acc : DigestAcc) : Bool :=
  acc.hosted.any fun seq => seq ∉ acc.reclaimed

def finish (acc : DigestAcc) : BuildDigest where
  compatibility := if acc.compatibility.unknownFacts ≠ 0 then some acc.compatibility else none
  integrationAuditPending := acc.integrationAuditPending
  mergedSha := acc.mergedSha
  nodeContribution := acc.nodeContribution
  kind := acc.kind
  nodeOpened := acc.nodeOpened
  prClosed := acc.prClosed
  observations := acc.observations
  readinessChangeSeq := acc.readinessChangeSeq
  merged := acc.merged
  terminal := acc.terminal
  reclaimPending := acc.reclaimPending
  executionOpen := acc.openInstance.isSome
  nodeTargets := acc.nodeTargets

end DigestAcc

def reduceBuildDigest (rows : List DigestEventRow) : BuildDigest :=
  (rows.foldl DigestAcc.fold .initial).finish

/-! ## 4. The terminal fact of a build -/

def foldTerminal (terminal : Option Terminal) (event : AbEvent) : Option Terminal :=
  match event.body with
  | .build (.completed _) => some .done
  | .build .aborted => some .aborted
  | _ => terminal

/-- The terminal fact that a status shows. -/
def BuildStatus.terminal : BuildStatus → Option Terminal
  | .done => some .done
  | .aborted => some .aborted
  | _ => none

theorem buildStatus_terminal (acc : BuildAcc) : (buildStatus acc).terminal = acc.terminal := by
  unfold buildStatus
  split
  · rename_i h
    exact h.symm
  · rename_i h
    exact h.symm
  · rename_i h
    rw [h]
    split_ifs <;> rfl

theorem foldSuperseded_terminal (acc : BuildAcc) (body : EventBody) :
    (foldSuperseded acc body).terminal = acc.terminal := by
  have hone : ∀ (acc : BuildAcc) (escalation : AnyEscalation),
      (supersedeOne acc escalation).terminal = acc.terminal := by
    intro acc escalation
    unfold supersedeOne
    split <;> rfl
  exact foldSuperseded_keeps (P := fun next => next.terminal = acc.terminal)
    (fun next escalation h => (hone next escalation).trans h) body rfl

theorem foldFacts_terminal (acc : BuildAcc) (event : AbEvent) :
    (foldFacts acc event).terminal = foldTerminal acc.terminal event := by
  by_cases hd : onDocket event.body = true
  · obtain ⟨seq, ts, actor, body⟩ := event
    dsimp only at hd
    unfold onDocket at hd
    split at hd
    · rfl
    · rfl
    · rfl
    · rfl
    · rfl
    · rfl
    · rfl
    · unfold foldFacts foldVerifyEvent foldVerifyCompleted
      dsimp only
      split <;> rfl
    · unfold foldFacts foldEscalationRaised
      dsimp only
      split <;> rfl
    · unfold foldFacts foldEscalationAnswered
      dsimp only
      split <;> rfl
    · rfl
    · exact absurd hd nofun
  · have hframe := congrArg Docket.terminal
      (foldFacts_docket acc (Bool.eq_false_of_not_eq_true hd))
    refine Eq.trans hframe ?_
    unfold foldTerminal
    split
    · rename_i hb
      rw [hb] at hd
      exact absurd rfl hd
    · rename_i hb
      rw [hb] at hd
      exact absurd rfl hd
    · rfl

theorem foldEvent_terminal {acc next : BuildAcc} {event : AbEvent}
    (h : foldEvent acc event = .ok next) :
    next.terminal = foldTerminal acc.terminal event := by
  obtain ⟨staged, hs, hn⟩ := foldEvent_docket h
  have hnext := congrArg Docket.terminal hn
  have hstaged := congrArg Docket.terminal hs
  dsimp only [BuildAcc.docket] at hnext hstaged
  rw [hnext, foldFacts_terminal, foldSuperseded_terminal, hstaged]

theorem foldlM_foldEvent_terminal {events : List AbEvent} {acc next : BuildAcc}
    (h : events.foldlM foldEvent acc = .ok next) :
    next.terminal = events.foldl foldTerminal acc.terminal :=
  foldlM_part foldEvent_terminal h

theorem reduceBuild_terminal {events : List StoredEvent} {state : BuildState}
    (h : reduceBuild events = .ok state) :
    state.status.terminal = (projectEvents events).foldl foldTerminal none := by
  obtain ⟨acc, next, hacc, hfold, -, -, -, -, hstatus, -⟩ := reduceBuild_docket h
  rw [hstatus, buildStatus_terminal, foldlM_foldEvent_terminal hfold]
  exact congrArg (fun docket : Docket => (projectEvents events).foldl foldTerminal docket.terminal)
    hacc

/-! ## 5. Four folds in step -/

theorem PendingPrAttachmentReclaimsAcc.reclaimed_fold (acc : PendingPrAttachmentReclaimsAcc)
    {event : AbEvent} {hostedSeq : Nat}
    (h : event.body = .plain (.prAttachmentReclaimed hostedSeq)) (seq : Nat) :
    (acc.fold event).reclaimed seq = true ↔
      acc.reclaimed seq = true ∨ (seq = hostedSeq ∧ event.seq > hostedSeq) := by
  have hset : (acc.reclaimedAt.set hostedSeq event.seq).get? seq =
      if seq = hostedSeq then some event.seq else acc.reclaimedAt.get? seq :=
    ObjectMap.get?_set _ _ _ _
  unfold fold
  rw [h]
  dsimp only
  unfold reclaimed
  by_cases hseq : seq = hostedSeq
  · subst hseq
    rw [if_pos rfl] at hset
    cases hget : acc.reclaimedAt.get? seq with
    | none => simp [hset]
    | some previous =>
      by_cases hlater : event.seq > previous
      · simp only [if_pos hlater, hset, gt_iff_lt, decide_eq_true_eq, true_and]
        omega
      · simp only [if_neg hlater, hget, gt_iff_lt, decide_eq_true_eq, true_and]
        omega
  · rw [if_neg hseq] at hset
    cases hget : acc.reclaimedAt.get? hostedSeq with
    | none => simp [hset, hseq]
    | some previous =>
      by_cases hlater : event.seq > previous
      · simp [if_pos hlater, hset, hseq]
      · simp [if_neg hlater, hseq]

/-- The digest shows of a log what the three reducers show of it. -/
structure Agrees (digest : DigestAcc) (terminal : Option Terminal)
    (pending : PendingPrAttachmentReclaimsAcc) (opened : Option ExecutionStarted) : Prop where
  terminal : digest.terminal = terminal
  hosted : digest.hosted = pending.hosted.map (·.seq)
  reclaimed : ∀ seq, seq ∈ digest.reclaimed ↔ pending.reclaimed seq = true
  opened : digest.openInstance = opened.map (·.instanceId)

section
variable {digest : DigestAcc} {terminal : Option Terminal}
  {pending : PendingPrAttachmentReclaimsAcc} {opened : Option ExecutionStarted}

/-- What a row says beside its type is about none of the four. -/
theorem Agrees.note (h : Agrees digest terminal pending opened) (row : DigestEventRow) :
    Agrees (((digest.noteUnknown row).noteTargets row).noteReadiness row) terminal pending
      opened := by
  have hunknown : Agrees (digest.noteUnknown row) terminal pending opened := by
    unfold DigestAcc.noteUnknown
    split <;> exact ⟨h.terminal, h.hosted, h.reclaimed, h.opened⟩
  have htargets : Agrees ((digest.noteUnknown row).noteTargets row) terminal pending opened := by
    unfold DigestAcc.noteTargets
    split
    · exact ⟨hunknown.terminal, hunknown.hosted, hunknown.reclaimed, hunknown.opened⟩
    · exact hunknown
  unfold DigestAcc.noteReadiness
  split
  · exact ⟨htargets.terminal, htargets.hosted, htargets.reclaimed, htargets.opened⟩
  · exact htargets

theorem Agrees.reclaim (h : Agrees digest terminal pending opened) {event : AbEvent}
    {hostedSeq : Nat} (hbody : event.body = .plain (.prAttachmentReclaimed hostedSeq))
    {next : DigestAcc} (hnext : next =
      if event.seq > hostedSeq then { digest with reclaimed := digest.reclaimed ++ [hostedSeq] }
      else digest) :
    Agrees next terminal (pending.fold event) opened := by
  have hhosted : (pending.fold event).hosted = pending.hosted := by
    unfold PendingPrAttachmentReclaimsAcc.fold
    rw [hbody]
    dsimp only
    split
    · split <;> rfl
    · rfl
  have hreclaimed := pending.reclaimed_fold hbody
  rw [hnext]
  split
  · rename_i hlater
    refine ⟨h.terminal, hhosted ▸ h.hosted, fun seq => ?_, h.opened⟩
    rw [hreclaimed, ← h.reclaimed, List.mem_append, List.mem_singleton]
    simp [hlater]
  · rename_i hearlier
    refine ⟨h.terminal, hhosted ▸ h.hosted, fun seq => ?_, h.opened⟩
    rw [hreclaimed, ← h.reclaimed]
    simp [hearlier]

theorem Agrees.close (h : Agrees digest terminal pending opened) {event : AbEvent}
    {instanceId : String} (hbody : event.body = .execution (.ended instanceId))
    {next : DigestAcc} (hnext : next =
      if digest.openInstance ≠ none ∧ some instanceId = digest.openInstance then
        { digest with openInstance := none }
      else digest) :
    Agrees next terminal pending (foldOpenExecution opened event) := by
  have hopened : foldOpenExecution opened event =
      if opened.map (·.instanceId) = some instanceId then none else opened := by
    unfold foldOpenExecution
    rw [hbody]
  rw [hnext, hopened, h.opened]
  by_cases hsame : opened.map (·.instanceId) = some instanceId
  · rw [if_pos hsame, if_pos ⟨hsame ▸ Option.some_ne_none _, hsame.symm⟩]
    exact ⟨h.terminal, h.hosted, h.reclaimed, rfl⟩
  · rw [if_neg hsame, if_neg fun hboth => hsame hboth.2.symm]
    exact h

/-- **One event** keeps the four in step. -/
theorem Agrees.step (h : Agrees digest terminal pending opened) (event : AbEvent) :
    Agrees (digest.fold (digestRow event)) (foldTerminal terminal event) (pending.fold event)
      (foldOpenExecution opened event) := by
  have hnote := h.note (digestRow event)
  unfold DigestAcc.fold
  generalize ((digest.noteUnknown _).noteTargets _).noteReadiness _ = noted at hnote
  obtain ⟨seq, ts, actor, body⟩ := event
  cases body with
  | build event =>
    cases event <;>
      exact ⟨by first | rfl | exact hnote.terminal, hnote.hosted, hnote.reclaimed, hnote.opened⟩
  | plain event =>
    cases event with
    | prAttachmentHosted designationSeq asset =>
      refine ⟨hnote.terminal, ?_, hnote.reclaimed, hnote.opened⟩
      change noted.hosted ++ [seq] = (pending.hosted ++ [_]).map AbEvent.seq
      rw [hnote.hosted, List.map_append]
      rfl
    | prAttachmentReclaimed hostedSeq => exact hnote.reclaim rfl rfl
    | _ => exact ⟨hnote.terminal, hnote.hosted, hnote.reclaimed, hnote.opened⟩
  | execution event =>
    cases event with
    | started payload => exact ⟨hnote.terminal, hnote.hosted, hnote.reclaimed, rfl⟩
    | ended instanceId => exact hnote.close rfl rfl
    | _ => exact ⟨hnote.terminal, hnote.hosted, hnote.reclaimed, hnote.opened⟩
  | node event =>
    cases event <;> exact ⟨hnote.terminal, hnote.hosted, hnote.reclaimed, hnote.opened⟩
  | integration event =>
    cases event <;> exact ⟨hnote.terminal, hnote.hosted, hnote.reclaimed, hnote.opened⟩
  | pr event =>
    cases event <;> exact ⟨hnote.terminal, hnote.hosted, hnote.reclaimed, hnote.opened⟩
  | _ => exact ⟨hnote.terminal, hnote.hosted, hnote.reclaimed, hnote.opened⟩

/-- **A log** keeps the four in step: unknown facts are for the digest's compatibility only. -/
theorem Agrees.run : ∀ {events : List StoredEvent} {digest : DigestAcc}
    {terminal : Option Terminal} {pending : PendingPrAttachmentReclaimsAcc}
    {opened : Option ExecutionStarted}, Agrees digest terminal pending opened →
      Agrees ((events.map adaptDigest).foldl DigestAcc.fold digest)
        ((projectEvents events).foldl foldTerminal terminal)
        ((projectEvents events).foldl PendingPrAttachmentReclaimsAcc.fold pending)
        ((projectEvents events).foldl foldOpenExecution opened)
  | [], _, _, _, _, h => h
  | .known event :: events, _, _, _, _, h => @run events _ _ _ _ (h.step event)
  | .unknown seq type compatibility :: events, _, _, _, _, h =>
    @run events _ _ _ _ (h.note (adaptDigest (.unknown seq type compatibility)))

theorem Agrees.reclaimPending (h : Agrees digest terminal pending opened) :
    digest.reclaimPending = !pending.finish.isEmpty := by
  rw [Bool.eq_iff_iff, Bool.not_eq_true', List.isEmpty_eq_false_iff_exists_mem]
  unfold DigestAcc.reclaimPending PendingPrAttachmentReclaimsAcc.finish
  simp only [h.hosted, List.any_map, List.any_eq_true, Function.comp_apply, decide_eq_true_eq,
    List.mem_filter, List.mem_mergeSort, h.reclaimed, Bool.not_eq_true', Bool.not_eq_true]

end

/-! ## 6. The rows that are left out -/

namespace DigestAcc

/-- The digest but for `readinessChangeSeq`. -/
def rest (acc : DigestAcc) : DigestAcc := { acc with readinessChangeSeq := none }

theorem fold_rest (acc : DigestAcc) (row : DigestEventRow) :
    (acc.fold row).rest = ((acc.rest.noteUnknown row).noteTargets row).noteType row := by
  have hunknown : (acc.noteUnknown row).rest = acc.rest.noteUnknown row := by
    unfold noteUnknown
    split <;> rfl
  have htargets : ((acc.noteUnknown row).noteTargets row).rest =
      (acc.rest.noteUnknown row).noteTargets row := by
    rw [← hunknown]
    unfold noteTargets
    exact apply_ite rest _ _ _
  have hready : (((acc.noteUnknown row).noteTargets row).noteReadiness row).rest =
      (acc.rest.noteUnknown row).noteTargets row := by
    rw [← htargets]
    unfold noteReadiness
    split <;> rfl
  unfold fold
  rw [← hready]
  generalize ((acc.noteUnknown row).noteTargets row).noteReadiness row = noted
  unfold noteType
  cases row.type with
  | prAttachmentReclaimed =>
    dsimp only
    split
    · exact apply_ite rest _ _ _
    · rfl
  | executionEnded => exact apply_ite rest _ _ _
  | _ => rfl

theorem fold_rest_congr {acc acc' : DigestAcc} (h : acc.rest = acc'.rest) (row : DigestEventRow) :
    (acc.fold row).rest = (acc'.fold row).rest := by
  rw [fold_rest, fold_rest, h]

theorem noteType_readiness (acc : DigestAcc) (row : DigestEventRow) :
    (acc.noteType row).readinessChangeSeq = acc.readinessChangeSeq := by
  unfold noteType
  cases row.type with
  | prAttachmentReclaimed =>
    dsimp only
    split
    · split <;> rfl
    · rfl
  | executionEnded =>
    dsimp only
    split <;> rfl
  | _ => rfl

theorem fold_readiness (acc : DigestAcc) (row : DigestEventRow) :
    (acc.fold row).readinessChangeSeq =
      if row.type ∈ READINESS_TYPES then some row.seq else acc.readinessChangeSeq := by
  have hunknown : (acc.noteUnknown row).readinessChangeSeq = acc.readinessChangeSeq := by
    unfold noteUnknown
    split <;> rfl
  have htargets : ((acc.noteUnknown row).noteTargets row).readinessChangeSeq =
      acc.readinessChangeSeq := by
    rw [← hunknown]
    unfold noteTargets
    split <;> rfl
  unfold fold
  rw [noteType_readiness]
  unfold noteReadiness
  rw [apply_ite readinessChangeSeq, htargets]

end DigestAcc

/-- The rows that change readiness. -/
def readinessRows (rows : List DigestEventRow) : List DigestEventRow :=
  rows.filter fun row => row.type ∈ READINESS_TYPES

theorem readinessRows_cons (row : DigestEventRow) (rows : List DigestEventRow) :
    readinessRows (row :: rows) =
      if row.type ∈ READINESS_TYPES then row :: readinessRows rows else readinessRows rows := by
  rw [readinessRows, List.filter_cons]
  exact if_congr decide_eq_true_iff rfl rfl

theorem foldDigest_readiness (rows : List DigestEventRow) (acc : DigestAcc) :
    (rows.foldl DigestAcc.fold acc).readinessChangeSeq =
      ((readinessRows rows).getLast?.map (·.seq)).or acc.readinessChangeSeq := by
  induction rows generalizing acc with
  | nil => rfl
  | cons row rows ih =>
    rw [List.foldl_cons, ih, DigestAcc.fold_readiness, readinessRows_cons]
    by_cases hrow : row.type ∈ READINESS_TYPES
    · rw [if_pos hrow, if_pos hrow, List.getLast?_cons]
      cases (readinessRows rows).getLast? <;> rfl
    · rw [if_neg hrow, if_neg hrow]

/-- A known event whose row is left out, if it does not say that a writer settled, is of a type
that the fold does not tell apart. -/
theorem digestType_of_not_listed {type : DigestEventType} (h : type ∉ DIGEST_EVENT_TYPES) :
    type = other ∨ type = nodeWriterSettled := by
  revert h
  cases type <;> decide

theorem digestNodeTargetsOf_eq_nil {body : EventBody}
    (h : body.digestType ∉ DIGEST_EVENT_TYPES) : digestNodeTargetsOf body = [] := by
  unfold digestNodeTargetsOf
  split
  · exact absurd (show buildCreated ∈ DIGEST_EVENT_TYPES by decide) h
  · exact absurd (show nodeParentRequested ∈ DIGEST_EVENT_TYPES by decide) h
  · exact absurd (show nodeParentAccepted ∈ DIGEST_EVENT_TYPES by decide) h
  · rfl

theorem digestRow_type (event : AbEvent) : (digestRow event).type = event.body.digestType := by
  unfold digestRow
  dsimp only
  split <;> rfl

theorem digestRow_seq (event : AbEvent) : (digestRow event).seq = event.seq := by
  unfold digestRow
  dsimp only
  split <;> rfl

theorem digestRow_rawUnknown (event : AbEvent) : (digestRow event).rawUnknown = none := by
  unfold digestRow
  dsimp only
  split <;> rfl

theorem digestRow_nodeTargets (event : AbEvent) :
    (digestRow event).nodeTargets = digestNodeTargetsOf event.body := by
  unfold digestRow
  dsimp only
  split <;> rfl

theorem adaptDigest_seq (stored : StoredEvent) : (adaptDigest stored).seq = stored.seq := by
  cases stored with
  | known event => exact digestRow_seq event
  | unknown seq type compatibility => rfl

theorem not_listed_of_not_relevant {stored : StoredEvent}
    (h : digestRelevant (adaptDigest stored) = false) :
    ∃ event, stored = .known event ∧ event.body.digestType ∉ DIGEST_EVENT_TYPES := by
  cases stored with
  | unknown seq type compatibility => cases h
  | known event =>
    refine ⟨event, rfl, ?_⟩
    rw [← digestRow_type]
    exact of_decide_eq_false (Bool.or_eq_false_iff.mp h).1

/-- A row that is left out changes `readinessChangeSeq` at most. -/
theorem fold_of_not_relevant {stored : StoredEvent}
    (h : digestRelevant (adaptDigest stored) = false) (acc : DigestAcc) :
    (acc.fold (adaptDigest stored)).rest = acc.rest := by
  obtain ⟨event, rfl, hlisted⟩ := not_listed_of_not_relevant h
  have hunknown : acc.rest.noteUnknown (digestRow event) = acc.rest := by
    unfold DigestAcc.noteUnknown
    rw [digestRow_rawUnknown]
  have htargets : acc.rest.noteTargets (digestRow event) = acc.rest := by
    unfold DigestAcc.noteTargets
    rw [digestRow_nodeTargets, digestNodeTargetsOf_eq_nil hlisted]
    rfl
  change (acc.fold (digestRow event)).rest = acc.rest
  rw [DigestAcc.fold_rest, hunknown, htargets]
  unfold DigestAcc.noteType
  rw [digestRow_type]
  obtain htype | htype := digestType_of_not_listed hlisted
  · rw [htype]
  · rw [htype]

theorem foldDigest_filter (events : List StoredEvent) (acc acc' : DigestAcc)
    (h : acc.rest = acc'.rest) :
    (((events.map adaptDigest).filter digestRelevant).foldl DigestAcc.fold acc).rest =
      ((events.map adaptDigest).foldl DigestAcc.fold acc').rest := by
  induction events generalizing acc acc' with
  | nil => exact h
  | cons stored events ih =>
    rw [List.map_cons, List.foldl_cons]
    by_cases hrelevant : digestRelevant (adaptDigest stored) = true
    · rw [List.filter_cons_of_pos hrelevant, List.foldl_cons]
      exact ih _ _ (DigestAcc.fold_rest_congr h _)
    · rw [List.filter_cons_of_neg hrelevant]
      refine ih _ _ (h.trans ?_)
      exact (fold_of_not_relevant (Bool.eq_false_of_not_eq_true hrelevant) acc').symm

theorem DigestAcc.finish_eq_iff {acc acc' : DigestAcc} (h : acc.rest = acc'.rest) :
    acc.finish = acc'.finish ↔ acc.readinessChangeSeq = acc'.readinessChangeSeq := by
  constructor
  · exact congrArg BuildDigest.readinessChangeSeq
  · intro hready
    cases acc
    cases acc'
    cases h
    cases hready
    rfl

/-! ## 7. Exactly when the list of types is enough -/

/-- The digest of a log agrees with the reducers of the build, and so does the digest of the rows
that an adapter fetches. -/
def DigestAgrees (events : List StoredEvent) : Prop :=
  let digest := reduceBuildDigest (events.map adaptDigest)
  (∀ state, reduceBuild events = .ok state → digest.terminal = state.status.terminal) ∧
    digest.reclaimPending = !(pendingPrAttachmentReclaims events).isEmpty ∧
    digest.executionOpen = (openExecution events).isSome ∧
    reduceBuildDigest ((events.map adaptDigest).filter digestRelevant) = digest

/-- The type of the last fact that changes readiness. -/
def lastReadinessType (events : List StoredEvent) : Option DigestEventType :=
  (readinessRows (events.map adaptDigest)).getLast?.map (·.type)

theorem agrees_log (events : List StoredEvent) :
    Agrees ((events.map adaptDigest).foldl DigestAcc.fold .initial)
      ((projectEvents events).foldl foldTerminal none)
      ((projectEvents events).foldl PendingPrAttachmentReclaimsAcc.fold .initial)
      (openExecution events) :=
  Agrees.run ⟨rfl, rfl, fun _ => iff_of_false List.not_mem_nil Bool.false_ne_true, rfl⟩

theorem digest_filter_iff (events : List StoredEvent) :
    reduceBuildDigest ((events.map adaptDigest).filter digestRelevant) =
        reduceBuildDigest (events.map adaptDigest) ↔
      (readinessRows ((events.map adaptDigest).filter digestRelevant)).getLast?.map (·.seq) =
        (readinessRows (events.map adaptDigest)).getLast?.map (·.seq) := by
  unfold reduceBuildDigest
  rw [DigestAcc.finish_eq_iff (foldDigest_filter events _ _ rfl), foldDigest_readiness,
    foldDigest_readiness]
  simp only [DigestAcc.initial, Option.or_none]

/-- Of a list in order without doubles, what is left by a filter ends in the same element if that
element is left. -/
theorem map_getLast?_filter_iff {α : Type} {seq : α → Nat} {p : α → Bool} {xs : List α}
    (h : xs.Pairwise fun a b => seq a < seq b) :
    (xs.filter p).getLast?.map seq = xs.getLast?.map seq ↔ ∀ x, xs.getLast? = some x → p x := by
  induction xs using List.reverseRecOn with
  | nil => simp
  | append_singleton xs x _ =>
    rw [List.filter_append, List.getLast?_concat]
    obtain ⟨-, -, hlast⟩ := List.pairwise_append.mp h
    by_cases hx : p x = true
    · simp [hx]
    · have hfilter : [x].filter p = [] := by simp [hx]
      rw [hfilter, List.append_nil]
      refine iff_of_false (fun hseq => ?_) fun h => hx (h x rfl)
      obtain ⟨y, hy, hyx⟩ := Option.map_eq_some_iff.mp hseq
      have hmem := (List.mem_filter.mp (List.mem_of_getLast? hy)).1
      have hlt := hlast y hmem x List.mem_cons_self
      omega

theorem readinessRows_relevant (events : List StoredEvent) :
    readinessRows ((events.map adaptDigest).filter digestRelevant) =
      (readinessRows (events.map adaptDigest)).filter digestRelevant := by
  unfold readinessRows
  rw [List.filter_filter, List.filter_filter]
  refine List.filter_congr fun row _ => Bool.and_comm _ _

theorem readiness_listed_iff {type : DigestEventType} (h : type ∈ READINESS_TYPES) :
    type ∈ DIGEST_EVENT_TYPES ↔ type ≠ nodeWriterSettled := by
  revert h
  cases type <;> decide

/-- Of the rows that change readiness, those of one type are left out. -/
theorem digestRelevant_iff {events : List StoredEvent} {row : DigestEventRow}
    (hrow : row ∈ events.map adaptDigest) (hready : row.type ∈ READINESS_TYPES) :
    digestRelevant row = true ↔ row.type ≠ nodeWriterSettled := by
  obtain ⟨stored, -, rfl⟩ := List.mem_map.mp hrow
  rw [← readiness_listed_iff hready, digestRelevant, Bool.or_eq_true, decide_eq_true_iff]
  refine or_iff_left fun hunknown => ?_
  cases stored with
  | known event =>
    rw [adaptDigest, digestRow_rawUnknown] at hunknown
    cases hunknown
  | unknown seq type compatibility => exact absurd hready (show other ∉ READINESS_TYPES by decide)

/-- **The list of types is enough** exactly for the logs whose last change of readiness is not
that a writer settled; the rest of the digest agrees with the reducers of the build always. -/
theorem digest_agrees_iff {events : List StoredEvent}
    (hseq : events.Pairwise fun a b => a.seq < b.seq) :
    DigestAgrees events ↔ lastReadinessType events ≠ some nodeWriterSettled := by
  have hagrees := agrees_log events
  have hterminal : ∀ state, reduceBuild events = .ok state →
      (reduceBuildDigest (events.map adaptDigest)).terminal = state.status.terminal :=
    fun state hstate => hagrees.terminal.trans (reduceBuild_terminal hstate).symm
  have hopened : (reduceBuildDigest (events.map adaptDigest)).executionOpen =
      (openExecution events).isSome := by
    change Option.isSome _ = _
    rw [hagrees.opened, Option.isSome_map]
  have hrows : (readinessRows (events.map adaptDigest)).Pairwise fun a b => a.seq < b.seq := by
    refine List.Pairwise.filter _ (List.pairwise_map.mpr (hseq.imp fun {a b} hab => ?_))
    rwa [adaptDigest_seq, adaptDigest_seq]
  have hfilter : reduceBuildDigest ((events.map adaptDigest).filter digestRelevant) =
      reduceBuildDigest (events.map adaptDigest) ↔
        lastReadinessType events ≠ some nodeWriterSettled := by
    rw [digest_filter_iff, readinessRows_relevant, map_getLast?_filter_iff hrows, lastReadinessType]
    cases hlast : (readinessRows (events.map adaptDigest)).getLast? with
    | none => exact iff_of_true (fun _ h => absurd h.symm (Option.some_ne_none _)) nofun
    | some row =>
      have hready := (List.mem_filter.mp (List.mem_of_getLast? hlast)).2
      rw [Option.map_some, Ne, Option.some.injEq]
      simp only [Option.some.injEq, forall_eq']
      exact digestRelevant_iff (List.mem_filter.mp (List.mem_of_getLast? hlast)).1
        (of_decide_eq_true hready)
  exact ⟨fun h => hfilter.mp h.2.2.2, fun h =>
    ⟨hterminal, hagrees.reclaimPending, hopened, hfilter.mpr h⟩⟩

/-- A node opened, and a writer of it settled. -/
def settledLog : List StoredEvent :=
  let created : BuildCreated :=
    ⟨⟨"tracker", "1", none, none⟩, "repo", "main", some .node, none, none, none⟩
  [.known ⟨1, 0, .dispatcher, .build (.created created)⟩,
    .known ⟨2, 0, .kernel, .node (.opened "c1")⟩,
    .known ⟨3, 0, .kernel, .node (.writerSettled ⟨"w1", .abandoned, none⟩)⟩]

theorem digest_agrees_iff_opened : DigestAgrees (settledLog.take 2) :=
  (digest_agrees_iff (by decide)).mpr (by decide)

/-- The row that an adapter leaves out moves `readinessChangeSeq` from 2 to 3. -/
theorem not_digest_agrees : ¬ DigestAgrees settledLog := by
  intro h
  exact absurd (congrArg BuildDigest.readinessChangeSeq h.2.2.2) (by decide)

end Autobuild
