/-
# The two-pass reference of the log index

The index as a reader of a whole log would compute it: find the last `spec.revised` first, then
read the events after it for what a revision resets, and all events for what it does not.

* `sinceRevision`: the events the facts a revision resets are read from.
* `referenceIndexLog`: every fact of the index as one scan of the one list or of the other.
* `finish_foldLogIndex_eq_reference`: an index advanced over any pieces of a log and finished is
  the reference of the log, in whatever order its events stand.
-/
import Autobuild.Kernel.LogFacts

namespace Autobuild

open ObjectMap

/-! ## 1. What an event says to one fact -/

namespace AbEvent

variable (event : AbEvent)

def verifyStart? : Option VerifyStartRecord :=
  match event.body with
  | .verify (.started payload) => some (LogIndexAcc.startRecord event.seq payload)
  | _ => none

def verifyCompletion? : Option VerifyRecord :=
  match event.body with
  | .verify (.completed payload) => some ⟨normalizeVerifyCompletion payload, event.seq⟩
  | _ => none

def reconcilePolicy? : Option VerifyReconcilePolicy :=
  match event.body with
  | .verify (.reconcilePolicyCaptured payload) => some payload
  | _ => none

def configBoundary? : Option Nat :=
  match event.body with
  | .verify (.configCaptured _) => some event.seq
  | .verify (.configSuperseded _) => some event.seq
  | _ => none

def reconcileCompletion? : Option Nat :=
  match event.body with
  | .reconcile (.completed _) => some event.seq
  | _ => none

def implementCompletion? : Option Nat :=
  match event.body with
  | .implement (.completed _) => some event.seq
  | _ => none

def finalizes : Bool :=
  match event.body with
  | .finalize (.completed _) => true
  | _ => false

def finalizeStep? : Option String :=
  match event.body with
  | .finalize (.stepCompleted payload) => some payload.step
  | _ => none

def verifyAttempt? : Option Nat :=
  match event.body with
  | .verify (.started payload) => some payload.attempt
  | .verify (.completed payload) => some payload.attempt
  | _ => none

def conflict? : Option Nat :=
  match event.body with
  | .pr (.conflicted _) => some event.seq
  | _ => none

def reconcileStart? : Option ReconcileStartRecord :=
  match event.body with
  | .reconcile (.started payload) =>
    some { restackId := payload.restackId, seq := event.seq, attempt := payload.attempt,
           baseSha := payload.baseSha }
  | _ => none

def progressCheck? : Option ReconcileProgressRecord :=
  match event.body with
  | .reconcile (.progressChecked payload) =>
    some ⟨event.seq, payload.conflictSeq, payload.attempt, payload.baseSha⟩
  | _ => none

end AbEvent

/-! ## 2. The facts a revision resets -/

/-- `event.seq > restartSeq`, under the last revision in the order of the array. -/
def sinceRevision (events : List AbEvent) : List AbEvent :=
  events.filter fun event => lastRevised events < event.seq

/-- The highest number, 0 for none. -/
def highWater (numbers : List Nat) : Nat := numbers.foldl max 0

/-- An event after the boundary, for one of the loops. -/
def LoopIndex.scan (name : LoopName) (loop : LoopIndex) (event : AbEvent) : LoopIndex :=
  match name, event.body with
  | .plan, .plan (.started payload) =>
    loop.record payload.round ({ · with startedSeq := some event.seq })
  | .plan, .plan (.completed payload) =>
    loop.record payload.round fun record =>
      { record with
        completedSeq := some event.seq
        planCompletion := some ⟨event.seq, payload.artifact, payload.verifySteps⟩ }
  | .plan, .planReview (.started round) => loop.record round id
  | .plan, .planReview (.verdict payload) => loop.noteVerdict .plan event.seq payload
  | .code, .implement (.started payload) =>
    loop.record payload.round ({ · with startedSeq := some event.seq })
  | .code, .implement (.completed payload) =>
    loop.record payload.round ({ · with completedSeq := some event.seq })
  | .code, .codeReview (.started round) => loop.record round id
  | .code, .codeReview (.verdict payload) => loop.noteVerdict .code event.seq payload
  | _, _ => loop

/-- A loop: its rounds since the revision, and its round numbers over all events. -/
def referenceLoop (events : List AbEvent) (name : LoopName) : LoopIndex :=
  (sinceRevision events).foldl (LoopIndex.scan name)
    { maxRoundEver := highWater (events.filterMap fun event => name.round? event.body) }

/-- A `Set` of steps, in the order they were added. -/
def addStep (steps : List String) (step : String) : List String :=
  if step ∈ steps then steps else steps ++ [step]

def referencePostRestart (events : List AbEvent) : PostRestart :=
  let since := sinceRevision events
  { plan := referenceLoop events .plan
    code := referenceLoop events .code
    verifyCompleted := since.filterMap (·.verifyCompletion?)
    verifyStarted := since.filterMap (·.verifyStart?)
    reconcilePolicy := (since.filterMap (·.reconcilePolicy?)).getLast?
    verifyConfigBoundary := highWater (since.filterMap (·.configBoundary?))
    lastReconcileCompletedSeq := ((since.filterMap (·.reconcileCompletion?)).getLast?).getD 0
    lastImplementCompletedSeq := ((since.filterMap (·.implementCompletion?)).getLast?).getD 0
    finalizeCompleted := since.any (·.finalizes)
    finalizeStepsDone := (since.filterMap (·.finalizeStep?)).foldl addStep [] }

/-! ## 3. The facts it does not -/

structure GuidanceScan where
  /-- Carriers no session has delivered yet. -/
  pending : ObjectMap Occurrence GuidanceDelivery := ∅
  deliveries : List GuidanceDelivery := []

namespace GuidanceScan

def noteStart (scan : GuidanceScan) (occurrence : Occurrence) (feedback : Option Feedback)
    (seq : Nat) : GuidanceScan :=
  match feedback with
  | some (.guidance escalation _) =>
    { scan with pending := scan.pending.set occurrence ⟨escalation, seq⟩ }
  | _ => { scan with pending := scan.pending.erase occurrence }

def noteSession (scan : GuidanceScan) (payload : SessionStarted) (seq : Nat) : GuidanceScan :=
  match payload.round with
  | none => scan
  | some round =>
    match scan.pending.get? ⟨payload.phase, round⟩ with
    | none => scan
    | some carrier =>
      if carrier.seq < seq then
        { deliveries := scan.deliveries ++ [⟨carrier.escalation, seq⟩]
          pending := scan.pending.erase ⟨payload.phase, round⟩ }
      else scan

def event (scan : GuidanceScan) (event : AbEvent) : GuidanceScan :=
  match event.body with
  | .plan (.started payload) =>
    scan.noteStart ⟨.core .plan, payload.round⟩ payload.feedback event.seq
  | .implement (.started payload) =>
    scan.noteStart ⟨.core .implement, payload.round⟩ payload.feedback event.seq
  | .verify (.started payload) =>
    scan.noteStart ⟨verifyPhase payload.step, payload.attempt⟩ payload.feedback event.seq
  | .session (.started payload) => scan.noteSession payload event.seq
  | _ => scan

end GuidanceScan

structure ReconcileScan where
  lastConflict : Option Nat := none
  /-- The attempt started since the last conflict. -/
  sinceConflict : Option Nat := none
  active : Option ReconcileStartRecord := none
  completions : List ReconcileCompletionRecord := []

namespace ReconcileScan

def start (scan : ReconcileScan) (record : ReconcileStartRecord) : ReconcileScan :=
  { scan with
    active := some record
    sinceConflict :=
      match scan.lastConflict with
      | some conflict => if record.seq > conflict then some record.attempt else scan.sinceConflict
      | none => scan.sinceConflict }

def complete (scan : ReconcileScan) (seq : Nat) : ReconcileScan :=
  { scan with
    sinceConflict := none
    active := none
    completions := scan.completions ++ scan.active.toList.map (⟨·, seq⟩) }

def event (scan : ReconcileScan) (event : AbEvent) : ReconcileScan :=
  match event.body with
  | .pr (.conflicted _) => { scan with lastConflict := some event.seq, sinceConflict := none }
  | .reconcile (.started payload) =>
    scan.start
      { restackId := payload.restackId, seq := event.seq, attempt := payload.attempt,
        baseSha := payload.baseSha }
  | .reconcile (.completed _) => scan.complete event.seq
  | _ => scan

end ReconcileScan

def scanReconciles (events : List AbEvent) : ReconcileScan := events.foldl ReconcileScan.event {}

/-- One completed occurrence per attempt, the latest, in completion order. -/
def referenceOccurrences (events : List AbEvent) : List ReconcileCompletionRecord :=
  let byAttempt : JsMap Nat ReconcileCompletionRecord :=
    (scanReconciles events).completions.foldl
      (fun map completion => map.set ⟨completion.attempt⟩ completion) ∅
  byAttempt.values.insertionSort (fun left right => left.completedSeq ≤ right.completedSeq)

/-- The base observed after a completed reconcile is the one it reconciled against. -/
def referenceNoProgress (events : List AbEvent) (completion : ReconcileCompletionRecord) : Bool :=
  let nextStart := (events.filterMap (·.reconcileStart?)).find? fun start =>
    start.seq > completion.completedSeq && start.attempt > completion.attempt
  let explicit := ((events.filterMap (·.progressCheck?)).filter fun check =>
    check.attempt = completion.attempt ∧ check.seq > completion.completedSeq
      ∧ (nextStart.map fun start => decide (check.seq < start.seq)).getD true = true
      ∧ check.conflictSeq > completion.completedSeq ∧ check.seq > check.conflictSeq
      ∧ check.conflictSeq ∈ events.filterMap (·.conflict?)).getLast?
  decide ((explicit.map (·.baseSha)).or (nextStart.map (·.baseSha)) = some completion.baseSha)

def referenceProgressCheck (events : List AbEvent) : Option ReconcileProgressRecord :=
  match (events.filterMap (·.conflict?)).getLast?, (referenceOccurrences events).getLast? with
  | some conflict, some completed =>
    ((events.filterMap (·.progressCheck?)).filter fun check =>
      check.conflictSeq = conflict ∧ check.attempt = completed.attempt
        ∧ check.seq > conflict).getLast?
  | _, _ => none

/-- The index, computed in two passes over the whole array. -/
def referenceIndexLog (events : List AbEvent) : LogIndex :=
  { referencePostRestart events with
    readDeferrals := (foldReadDeferrals initialReadDeferrals events).pending
    restack := events.foldl advanceLeafRestackEvent {}
    restartSeq := lastRevised events
    maxVerifyAttemptEver := highWater (events.filterMap (·.verifyAttempt?))
    lastConflict := (events.filterMap (·.conflict?)).getLast?
    conflictReconcileStarted := (scanReconciles events).sinceConflict
    lastReconcileCompleted := (referenceOccurrences events).getLast?
    lastConflictProgressCheck := referenceProgressCheck events
    reconcileNoProgressCount :=
      ((referenceOccurrences events).filter (referenceNoProgress events)).length
    guidanceDeliveries := (events.foldl GuidanceScan.event {}).deliveries }

/-! ## 4. The accumulator carries them -/

theorem highWater_filterMap {α : Type} (pick : α → Option Nat) (xs : List α) :
    highWater (xs.filterMap pick) = xs.foldl (fun high x => max high ((pick x).getD 0)) 0 := by
  unfold highWater
  rw [List.foldl_filterMap]
  congr 1
  funext high x
  cases pick x <;> simp

theorem foldl_append_toList {α β : Type} (pick : α → Option β) (xs : List α) :
    xs.foldl (fun ys x => ys ++ (pick x).toList) [] = xs.filterMap pick := by
  induction xs using List.reverseRecOn with
  | nil => rfl
  | append_singleton xs x ih =>
    rw [List.foldl_append, ih, List.filterMap_append]
    cases h : pick x <;> simp [h]

theorem foldl_last {α β : Type} (pick : α → Option β) (xs : List α) :
    xs.foldl (fun last x => (pick x).or last) none = (xs.filterMap pick).getLast? := by
  induction xs using List.reverseRecOn with
  | nil => rfl
  | append_singleton xs x ih =>
    rw [List.foldl_append, ih, List.filterMap_append]
    cases h : pick x <;> simp [h]

theorem foldl_last_getD {α β : Type} (pick : α → Option β) (start : β) (xs : List α) :
    xs.foldl (fun last x => (pick x).getD last) start
      = ((xs.filterMap pick).getLast?).getD start := by
  induction xs using List.reverseRecOn with
  | nil => rfl
  | append_singleton xs x ih =>
    rw [List.foldl_append, ih, List.filterMap_append]
    cases h : pick x <;> simp [h]

theorem foldl_toList {α β γ : Type} (pick : α → Option β) (f : γ → β → γ) (start : γ)
    (xs : List α) :
    xs.foldl (fun state x => (pick x).toList.foldl f state) start
      = (xs.filterMap pick).foldl f start := by
  rw [List.foldl_filterMap]
  congr 1
  funext state x
  cases pick x <;> rfl

theorem foldl_or_any {α : Type} (p : α → Bool) (xs : List α) :
    xs.foldl (fun found x => found || p x) false = xs.any p := by
  induction xs using List.reverseRecOn with
  | nil => rfl
  | append_singleton xs x ih => rw [List.foldl_append, ih, List.any_append]; simp

namespace LogIndexAcc

def guidance (acc : LogIndexAcc) : GuidanceScan :=
  ⟨acc.pendingGuidanceStarts, acc.guidanceDeliveries⟩

def reconciles (acc : LogIndexAcc) : ReconcileScan where
  lastConflict := acc.lastConflict
  sinceConflict := acc.conflictReconcileStarted
  active := acc.activeReconcileStart
  completions := acc.reconcileCompletions

theorem noteGuidanceStart_eq (acc : LogIndexAcc) (occurrence : Occurrence)
    (feedback : Option Feedback) (seq : Nat) :
    acc.noteGuidanceStart occurrence feedback seq
      = { acc with pendingGuidanceStarts :=
            (acc.guidance.noteStart occurrence feedback seq).pending } := by
  cases feedback with
  | none => rfl
  | some feedback => cases feedback <;> rfl

theorem noteStart_eq (pending : ObjectMap Occurrence GuidanceDelivery)
    (deliveries : List GuidanceDelivery) (occurrence : Occurrence) (feedback : Option Feedback)
    (seq : Nat) :
    GuidanceScan.mk ((GuidanceScan.mk pending deliveries).noteStart occurrence feedback seq).pending
        deliveries
      = (GuidanceScan.mk pending deliveries).noteStart occurrence feedback seq := by
  cases feedback with
  | none => rfl
  | some feedback => cases feedback <;> rfl

theorem deliverGuidance_eq (acc : LogIndexAcc) (seq : Nat) (payload : SessionStarted) :
    acc.deliverGuidance seq payload
      = { acc with
          pendingGuidanceStarts := (acc.guidance.noteSession payload seq).pending
          guidanceDeliveries := (acc.guidance.noteSession payload seq).deliveries } := by
  unfold deliverGuidance GuidanceScan.noteSession
  cases payload.round with
  | none => rfl
  | some round =>
    dsimp only [guidance]
    cases acc.pendingGuidanceStarts.get? ⟨payload.phase, round⟩ with
    | none => rfl
    | some carrier => by_cases h : carrier.seq < seq <;> simp only [h, if_true, if_false]

theorem completeReconcile_eq (acc : LogIndexAcc) (seq : Nat) :
    acc.completeReconcile seq
      = { acc with
          candidates := acc.candidates ++ [.reconcileCompleted seq]
          activeReconcileStart := none
          reconcileCompletions := acc.reconcileCompletions
            ++ acc.activeReconcileStart.toList.map (⟨·, seq⟩)
          conflictReconcileStarted := none } := by
  unfold completeReconcile pairReconcile
  dsimp only [push]
  cases acc.activeReconcileStart with
  | none => simp only [Option.toList_none, List.map_nil, List.append_nil]
  | some start => rfl

/-- The fields that are scans of their own, after one event. -/
structure WholeStep (acc : LogIndexAcc) (event : AbEvent) (next : LogIndexAcc) : Prop where
  readDeferrals : next.readDeferrals = foldReadDeferral acc.readDeferrals event
  restack : next.restack = advanceLeafRestackEvent acc.restack event
  maxPlanRoundEver : next.maxPlanRoundEver
    = max acc.maxPlanRoundEver ((LoopName.plan.round? event.body).getD 0)
  maxCodeRoundEver : next.maxCodeRoundEver
    = max acc.maxCodeRoundEver ((LoopName.code.round? event.body).getD 0)
  maxVerifyAttemptEver : next.maxVerifyAttemptEver
    = max acc.maxVerifyAttemptEver (event.verifyAttempt?.getD 0)
  guidance : next.guidance = acc.guidance.event event
  reconciles : next.reconciles = acc.reconciles.event event
  conflictSeqs : next.conflictSeqs = acc.conflictSeqs ++ event.conflict?.toList
  reconcileStarts : next.reconcileStarts = acc.reconcileStarts ++ event.reconcileStart?.toList
  progressChecks : next.reconcileProgressChecks
    = acc.reconcileProgressChecks ++ event.progressCheck?.toList

end LogIndexAcc

theorem indexEvent_whole (acc : LogIndexAcc) (event : AbEvent) :
    acc.WholeStep event (indexEvent acc event) := by
  obtain ⟨seq, ts, actor, body⟩ := event
  cases body
  case plan body | planReview body | implement body | codeReview body | verify body | spec body
      | session body | finalize body | pr body =>
    cases body <;> constructor <;>
      simp [indexEvent, indexBody, LogIndexAcc.noteRound, LogIndexAcc.noteAttempt,
        LogIndexAcc.push, LogIndexAcc.noteGuidanceStart_eq, LogIndexAcc.noteStart_eq,
        LogIndexAcc.deliverGuidance_eq, LogIndexAcc.guidance,
        LogIndexAcc.reconciles, GuidanceScan.event, ReconcileScan.event, LoopName.round?,
        AbEvent.verifyAttempt?, AbEvent.conflict?, AbEvent.reconcileStart?,
        AbEvent.progressCheck?]
  case reconcile body =>
    cases body with
    | started payload =>
      exact ⟨rfl, rfl, (Nat.max_zero _).symm, (Nat.max_zero _).symm, (Nat.max_zero _).symm, rfl,
        rfl, (List.append_nil _).symm, rfl, (List.append_nil _).symm⟩
    | _ =>
      constructor <;>
        simp [indexEvent, indexBody, LogIndexAcc.completeReconcile_eq, LogIndexAcc.guidance,
          LogIndexAcc.reconciles, GuidanceScan.event, ReconcileScan.event, ReconcileScan.complete,
          LoopName.round?, AbEvent.verifyAttempt?, AbEvent.conflict?, AbEvent.reconcileStart?,
          AbEvent.progressCheck?]
  all_goals
    exact ⟨rfl, rfl, (Nat.max_zero _).symm, (Nat.max_zero _).symm, (Nat.max_zero _).symm, rfl, rfl,
      (List.append_nil _).symm, (List.append_nil _).symm, (List.append_nil _).symm⟩

/-- **What never depends on the boundary is, in the accumulator, the reference's scan.** -/
theorem foldLogIndex_whole (events : List AbEvent) :
    let acc := foldLogIndex initialLogIndexAcc events
    acc.readDeferrals = foldReadDeferrals initialReadDeferrals events ∧
      acc.restack = events.foldl advanceLeafRestackEvent {} ∧
      acc.maxPlanRoundEver = highWater (events.filterMap fun e => LoopName.plan.round? e.body) ∧
      acc.maxCodeRoundEver = highWater (events.filterMap fun e => LoopName.code.round? e.body) ∧
      acc.maxVerifyAttemptEver = highWater (events.filterMap (·.verifyAttempt?)) ∧
      acc.guidance = events.foldl GuidanceScan.event {} ∧
      acc.reconciles = scanReconciles events ∧
      acc.conflictSeqs = events.filterMap (·.conflict?) ∧
      acc.reconcileStarts = events.filterMap (·.reconcileStart?) ∧
      acc.reconcileProgressChecks = events.filterMap (·.progressCheck?) := by
  rw [highWater_filterMap, highWater_filterMap, highWater_filterMap, ← foldl_append_toList,
    ← foldl_append_toList, ← foldl_append_toList]
  exact ⟨(List.foldl_hom _ fun acc event => (indexEvent_whole acc event).readDeferrals.symm).symm,
    (List.foldl_hom _ fun acc event => (indexEvent_whole acc event).restack.symm).symm,
    (List.foldl_hom _ fun acc event => (indexEvent_whole acc event).maxPlanRoundEver.symm).symm,
    (List.foldl_hom _ fun acc event => (indexEvent_whole acc event).maxCodeRoundEver.symm).symm,
    (List.foldl_hom _ fun acc event =>
      (indexEvent_whole acc event).maxVerifyAttemptEver.symm).symm,
    (List.foldl_hom _ fun acc event => (indexEvent_whole acc event).guidance.symm).symm,
    (List.foldl_hom _ fun acc event => (indexEvent_whole acc event).reconciles.symm).symm,
    (List.foldl_hom _ fun acc event => (indexEvent_whole acc event).conflictSeqs.symm).symm,
    (List.foldl_hom _ fun acc event => (indexEvent_whole acc event).reconcileStarts.symm).symm,
    (List.foldl_hom _ fun acc event => (indexEvent_whole acc event).progressChecks.symm).symm⟩

/-! ## 5. The replay reads the events since the revision -/

theorem candidatesSince_eq_flatMap (restartSeq : Nat) (events : List AbEvent) :
    candidatesSince restartSeq events
      = (events.filter fun event => restartSeq < event.seq).flatMap
          fun event => candidatesOf event.seq event.body := by
  unfold candidatesSince candidatesOfLog
  induction events with
  | nil => rfl
  | cons event rest ih =>
    rw [List.flatMap_cons, List.filter_append, ih]
    by_cases hpost : restartSeq < event.seq
    · rw [List.filter_cons_of_pos (by simpa using hpost), List.flatMap_cons,
        List.filter_eq_self.mpr fun c hc => by
          rw [seq_of_mem_candidatesOf hc]
          simpa using hpost]
    · rw [List.filter_cons_of_neg (by simpa using hpost), List.filter_eq_nil_iff.mpr fun c hc => by
          rw [seq_of_mem_candidatesOf hc]
          simpa using hpost, List.nil_append]

/-- The candidates of one event, replayed. -/
def PostRestart.replayEvent (replay : PostRestart) (event : AbEvent) : PostRestart :=
  (candidatesOf event.seq event.body).foldl PostRestart.replayCandidate replay

/-- The facts after the boundary, after one event. -/
structure PostRestart.Step (replay : PostRestart) (event : AbEvent) (next : PostRestart) :
    Prop where
  plan : next.plan = replay.plan.scan .plan event
  code : next.code = replay.code.scan .code event
  verifyCompleted : next.verifyCompleted
    = replay.verifyCompleted ++ event.verifyCompletion?.toList
  verifyStarted : next.verifyStarted = replay.verifyStarted ++ event.verifyStart?.toList
  reconcilePolicy : next.reconcilePolicy = event.reconcilePolicy?.or replay.reconcilePolicy
  verifyConfigBoundary : next.verifyConfigBoundary
    = max replay.verifyConfigBoundary (event.configBoundary?.getD 0)
  lastReconcileCompletedSeq : next.lastReconcileCompletedSeq
    = event.reconcileCompletion?.getD replay.lastReconcileCompletedSeq
  lastImplementCompletedSeq : next.lastImplementCompletedSeq
    = event.implementCompletion?.getD replay.lastImplementCompletedSeq
  finalizeCompleted : next.finalizeCompleted = (replay.finalizeCompleted || event.finalizes)
  finalizeStepsDone : next.finalizeStepsDone
    = event.finalizeStep?.toList.foldl addStep replay.finalizeStepsDone

theorem replayEvent_step (replay : PostRestart) (event : AbEvent) :
    replay.Step event (replay.replayEvent event) := by
  obtain ⟨seq, ts, actor, body⟩ := event
  cases body
  case plan body | planReview body | implement body | codeReview body | verify body
      | reconcile body | finalize body =>
    cases body <;> constructor <;>
      simp [PostRestart.replayEvent, candidatesOf, PostRestart.replayCandidate,
        PostRestart.mapLoop, LoopIndex.scan, AbEvent.verifyCompletion?, AbEvent.verifyStart?,
        AbEvent.reconcilePolicy?, AbEvent.configBoundary?, AbEvent.reconcileCompletion?,
        AbEvent.implementCompletion?, AbEvent.finalizes, AbEvent.finalizeStep?, addStep]
  all_goals
    exact ⟨rfl, rfl, (List.append_nil _).symm, (List.append_nil _).symm, rfl,
      (Nat.max_zero _).symm, rfl, rfl, (Bool.or_false _).symm, rfl⟩

attribute [ext] PostRestart

/-- **What the index replays is what the reference reads since the last revision.** -/
theorem indexLog_eq_referencePostRestart (events : List AbEvent) :
    (indexLog events).toPostRestart = referencePostRestart events := by
  obtain ⟨-, -, hplan, hcode, -⟩ := foldLogIndex_whole events
  rw [indexLog_postRestart, candidatesSince_eq_flatMap, List.foldl_flatMap]
  unfold referencePostRestart LogIndexAcc.freshReplay
  rw [hplan, hcode]
  ext1 <;> dsimp only
  · exact (List.foldl_hom PostRestart.plan fun replay event =>
      (replayEvent_step replay event).plan.symm).symm
  · exact (List.foldl_hom PostRestart.code fun replay event =>
      (replayEvent_step replay event).code.symm).symm
  · refine Eq.trans ?_ (foldl_append_toList _ _)
    exact (List.foldl_hom PostRestart.verifyCompleted fun replay event =>
      (replayEvent_step replay event).verifyCompleted.symm).symm
  · refine Eq.trans ?_ (foldl_append_toList _ _)
    exact (List.foldl_hom PostRestart.verifyStarted fun replay event =>
      (replayEvent_step replay event).verifyStarted.symm).symm
  · rw [← foldl_last]
    exact (List.foldl_hom PostRestart.reconcilePolicy fun replay event =>
      (replayEvent_step replay event).reconcilePolicy.symm).symm
  · refine Eq.trans ?_ (highWater_filterMap _ _).symm
    exact (List.foldl_hom PostRestart.verifyConfigBoundary fun replay event =>
      (replayEvent_step replay event).verifyConfigBoundary.symm).symm
  · rw [← foldl_last_getD]
    exact (List.foldl_hom PostRestart.lastReconcileCompletedSeq fun replay event =>
      (replayEvent_step replay event).lastReconcileCompletedSeq.symm).symm
  · rw [← foldl_last_getD]
    exact (List.foldl_hom PostRestart.lastImplementCompletedSeq fun replay event =>
      (replayEvent_step replay event).lastImplementCompletedSeq.symm).symm
  · rw [← foldl_or_any]
    exact (List.foldl_hom PostRestart.finalizeCompleted fun replay event =>
      (replayEvent_step replay event).finalizeCompleted.symm).symm
  · rw [← foldl_toList]
    exact (List.foldl_hom PostRestart.finalizeStepsDone fun replay event =>
      (replayEvent_step replay event).finalizeStepsDone.symm).symm

/-! ## 6. The reference -/

/-- The last conflict the pairing saw is the last conflict. -/
theorem lastConflict_scanReconciles (events : List AbEvent) :
    (scanReconciles events).lastConflict = (events.filterMap (·.conflict?)).getLast? := by
  rw [← foldl_last]
  refine (List.foldl_hom ReconcileScan.lastConflict fun scan event => ?_).symm
  obtain ⟨seq, ts, actor, body⟩ := event
  cases body
  case pr body => cases body <;> rfl
  case reconcile body => cases body <;> rfl
  all_goals rfl

theorem indexLog_eq_reference (events : List AbEvent) :
    indexLog events = referenceIndexLog events := by
  obtain ⟨hread, hrestack, -, -, hattempt, hguidance, hreconciles, hconflicts, hstarts, hchecks⟩ :=
    foldLogIndex_whole events
  have hlast : (foldLogIndex initialLogIndexAcc events).lastConflict
      = (events.filterMap (·.conflict?)).getLast? := by
    rw [← lastConflict_scanReconciles, ← hreconciles]
    rfl
  have hsince : (foldLogIndex initialLogIndexAcc events).conflictReconcileStarted
      = (scanReconciles events).sinceConflict := congrArg ReconcileScan.sinceConflict hreconciles
  have hcompletions : (foldLogIndex initialLogIndexAcc events).reconcileCompletions
      = (scanReconciles events).completions := congrArg ReconcileScan.completions hreconciles
  have hdeliveries : (foldLogIndex initialLogIndexAcc events).guidanceDeliveries
      = (events.foldl GuidanceScan.event {}).deliveries :=
    congrArg GuidanceScan.deliveries hguidance
  have hoccurrences : (foldLogIndex initialLogIndexAcc events).completedReconciles
      = referenceOccurrences events := by
    unfold LogIndexAcc.completedReconciles referenceOccurrences
    rw [hcompletions]
  have hprogress : (foldLogIndex initialLogIndexAcc events).madeNoProgress
      = referenceNoProgress events := by
    funext completion
    unfold LogIndexAcc.madeNoProgress referenceNoProgress
    rw [hstarts, hchecks, hconflicts]
  have hcheck : (foldLogIndex initialLogIndexAcc events).lastProgressCheck
      = referenceProgressCheck events := by
    unfold LogIndexAcc.lastProgressCheck referenceProgressCheck
    cases hc : (events.filterMap (·.conflict?)).getLast? <;>
      cases ho : (referenceOccurrences events).getLast? <;>
      simp only [hlast, hoccurrences, hchecks, hc, ho]
  have hpost := indexLog_eq_referencePostRestart events
  unfold indexLog at hpost ⊢
  unfold finishLogIndex referenceIndexLog at *
  dsimp only at hpost
  rw [hpost, hread, hrestack, (candidates_foldLogIndex events).2, hattempt, hlast, hsince,
    hoccurrences, hcheck, hprogress, hdeliveries]

/-- **The index is its two-pass reference**: over every split of every array of events, in any
order, the index advanced piece by piece and finished is the one computed by finding the last
revision first and reading from the events after it only what it resets. -/
theorem finish_foldLogIndex_eq_reference (pieces : List (List AbEvent)) :
    finishLogIndex (pieces.foldl foldLogIndex initialLogIndexAcc)
      = referenceIndexLog pieces.flatten := by
  rw [← indexLog_eq_reference]
  unfold indexLog foldLogIndex
  rw [List.foldl_flatten]

end Autobuild
