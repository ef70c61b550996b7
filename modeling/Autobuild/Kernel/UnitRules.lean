/-
# Where a unit of work comes from

The engine decides on a unit of work, a phase round or a verify attempt, by one rule, and the
rules before it are silent.

* `of_unit_decided`: the commands and the escalations are; what follows is `decideNode` or
  `decideWork`.
* `WorkRule`: of a work build it is a reconcile left over from before a revision, a loop,
  verification (`VerifyRule`) or the epilogue (`unit_of_epilogue`).
* `unit_of_node`: of a node it is the reconcile of its conflict, or a member of its cycle.

Read back from a decision these say what the log must have been (`reconcile_cases`,
`of_decideLoop_run`).
-/
import Autobuild.Kernel.FinalizeGate

namespace Autobuild

open ObjectMap Checked

/-! ## 1. Units -/

/-- A unit of work the engine decides on. -/
inductive StartedUnit where
  | phase (phase : CorePhase) (round : Nat)
  | verify (step : String) (attempt : Nat)
  deriving DecidableEq

def VerifyAction.unit : VerifyAction → StartedUnit
  | .runCheck step _ attempt => .verify step attempt
  | .runAgentVerify step _ attempt _ => .verify step attempt

/-- An exclusion launches no work. -/
def VerifyMemberDecision.units : VerifyMemberDecision → List StartedUnit
  | .run action => [action.unit]
  | .evaluateVerify step attempt _ _ => [.verify step attempt]
  | .skipVerify _ _ _ _ => []

def Decision.units : Decision → List StartedUnit
  | .runPhase run => [.phase run.phase run.round]
  | .verify member => member.units
  | .runVerifyStage members => members.flatMap (·.units)
  | _ => []

theorem units_attachReceipt (state : EngineFacts) (log : LogIndex) (config : Config)
    (decision : Decision) :
    (attachReceipt state log config decision).units = decision.units := by
  unfold attachReceipt
  split
  · split
    · split <;> rfl
    · rfl
  · rfl

/-! ## 2. Past the commands and the escalations -/

section Source

variable {state : EngineFacts} {log : LogIndex} {config : Config} {stage : Option ActiveStage}
  {decision : Decision} {unit : StartedUnit}

theorem units_of_command (h : commandDecision state log = some decision) :
    decision.units = [] := by
  unfold commandDecision at h
  split_ifs at h <;> cases h <;> rfl

theorem units_of_blocked (h : blockedDecision state log stage = some decision) :
    decision.units = [] := by
  unfold blockedDecision at h
  split_ifs at h
  · cases h
    rfl
  · cases h
    rfl
  · obtain ⟨deferral, -, rfl⟩ := Option.map_eq_some_iff.mp h
    rfl

/-- A unit is decided past the commands and the escalations. -/
theorem of_unit_decided (h : decideNextInternal state log config = .ok decision)
    (hu : unit ∈ decision.units) :
    commandDecision state log = none ∧
      blockedDecision state log (engineStage state log config) = none ∧
      if state.kind = some .node then
        decideNode state log config (engineStage state log config) = .ok decision
      else decideWork state log config (engineStage state log config) = decision := by
  unfold decideNextInternal at h
  dsimp only at h
  split at h
  · rename_i first hfirst
    cases h
    rcases Option.or_eq_some_iff.mp hfirst with hc | ⟨-, hb⟩
    · rw [units_of_command hc] at hu
      exact absurd hu List.not_mem_nil
    · rw [units_of_blocked hb] at hu
      exact absurd hu List.not_mem_nil
  · rename_i hnone
    obtain ⟨hc, hb⟩ := Option.or_eq_none_iff.mp hnone
    refine ⟨hc, hb, ?_⟩
    split_ifs at h ⊢
    · exact h
    · exact Except.ok.inj h

/-! ## 3. The rules of a work build -/

/-- The spec is there, and no asked-for revision is missing. -/
def SpecReady (state : EngineFacts) (log : LogIndex) : Prop :=
  state.answeredEscalations.any (fun e =>
    e.resolution = .reviseSpec ∧ e.answeredSeq > log.restartSeq) = false ∧ state.specRev ≠ none

theorem specDecision_of_ready (h : SpecReady state log) :
    specDecision state log = staleReconcile state log := by
  unfold specDecision
  rw [h.1, if_neg Bool.false_ne_true, if_neg h.2]

/-- The rule of a work build that a unit comes from, the rules before it being silent. -/
inductive WorkRule (state : EngineFacts) (log : LogIndex) (config : Config)
    (stage : Option ActiveStage) (unit : StartedUnit) : Prop
  | stale (attempt : Nat) (h : staleReconcile state log = some (runReconcile attempt))
    (hu : unit = .phase .reconcile attempt)
  | plan (run : RunPhase) (h : staleReconcile state log = none)
    (hp : decideLoop (planLoopArgs state log config) = some (.runPhase run))
    (hu : unit = .phase run.phase run.round)
  | code (run : RunPhase) (h : staleReconcile state log = none)
    (hp : decideLoop (planLoopArgs state log config) = none)
    (hc : decideLoop (codeLoopArgs state log config) = some (.runPhase run))
    (hu : unit = .phase run.phase run.round)
  | verify (decision : Decision) (h : staleReconcile state log = none)
    (hp : decideLoop (planLoopArgs state log config) = none)
    (hc : decideLoop (codeLoopArgs state log config) = none)
    (hv : verifyDecision state log config stage = some decision) (hu : unit ∈ decision.units)
  | epilogue (h : staleReconcile state log = none)
    (hp : decideLoop (planLoopArgs state log config) = none)
    (hc : decideLoop (codeLoopArgs state log config) = none)
    (hv : verifyDecision state log config stage = none)
    (hu : unit ∈ (epilogueDecision state log config).units)

theorem unit_of_loop {args : LoopArgs} (h : decideLoop args = some decision)
    (hu : unit ∈ decision.units) :
    ∃ run, decideLoop args = some (.runPhase run) ∧ unit = .phase run.phase run.round := by
  rcases decideLoop_cases h with ⟨run, rfl, -⟩ | ⟨escalation, rfl⟩
  · exact ⟨run, h, List.mem_singleton.mp hu⟩
  · exact absurd hu List.not_mem_nil

theorem unit_of_stale (h : staleReconcile state log = some decision)
    (hu : unit ∈ decision.units) :
    ∃ attempt, staleReconcile state log = some (runReconcile attempt) ∧
      unit = .phase .reconcile attempt := by
  have h' := h
  unfold staleReconcile at h'
  split at h'
  · cases h'
  · split_ifs at h'
    cases h'
    exact ⟨_, h, List.mem_singleton.mp hu⟩

theorem specReady_of_unit (hu : unit ∈ (decideWork state log config stage).units) :
    SpecReady state log := by
  unfold decideWork specDecision at hu
  split_ifs at hu with ha hs
  · exact absurd hu List.not_mem_nil
  · exact absurd hu List.not_mem_nil
  · exact ⟨by simpa using ha, hs⟩

theorem workRule_of_unit (hu : unit ∈ (decideWork state log config stage).units) :
    WorkRule state log config stage unit := by
  have hready := specReady_of_unit hu
  unfold decideWork at hu
  rw [specDecision_of_ready hready] at hu
  cases hs : staleReconcile state log with
  | some decision =>
    rw [hs] at hu
    obtain ⟨attempt, ha, hu⟩ := unit_of_stale hs hu
    exact .stale attempt ha hu
  | none =>
    rw [hs, Option.none_or] at hu
    cases hp : decideLoop (planLoopArgs state log config) with
    | some decision =>
      rw [hp] at hu
      obtain ⟨run, hr, hu⟩ := unit_of_loop hp hu
      exact .plan run hs hr hu
    | none =>
      rw [hp, Option.none_or] at hu
      cases hc : decideLoop (codeLoopArgs state log config) with
      | some decision =>
        rw [hc] at hu
        obtain ⟨run, hr, hu⟩ := unit_of_loop hc hu
        exact .code run hs hp hr hu
      | none =>
        rw [hc, Option.none_or] at hu
        cases hv : verifyDecision state log config stage with
        | some decision =>
          rw [hv] at hu
          exact .verify decision hs hp hc hv hu
        | none =>
          rw [hv] at hu
          exact .epilogue hs hp hc hv hu

end Source

/-! ## 4. The rounds of a loop -/

/-- No round beyond the highest has a record. -/
def LoopIndex.Bounded (loop : LoopIndex) : Prop :=
  ∀ round, loop.maxRound < round → loop.rounds.get? ⟨round⟩ = none

theorem LoopIndex.Bounded.record {loop : LoopIndex} (h : loop.Bounded) (round : Nat)
    (f : RoundRecord → RoundRecord) : (loop.record round f).Bounded := by
  intro other hlt
  have hmax : max loop.maxRound round < other := hlt
  obtain ⟨hloop, hround⟩ := max_lt_iff.mp hmax
  unfold LoopIndex.record
  dsimp only
  rw [get?_set, if_neg fun he => hround.ne (congrArg MapKey.key he).symm]
  exact h other hloop

theorem LoopIndex.Bounded.advance {loop : LoopIndex} (h : loop.Bounded) (name : LoopName)
    (c : LogIndexCandidate) : (loop.advance name c).Bounded := by
  unfold LoopIndex.advance
  split
  case h_5 other seq payload =>
    split
    · exact h.record payload.round
        ({ · with verdict := some (LoopIndex.verdictRecord seq payload) })
    · exact h
  case h_6 => exact h
  all_goals
    split
    · exact h.record _ _
    · exact h

theorem bounded_indexLog (events : List AbEvent) (name : LoopName) :
    ((indexLog events).loop name).Bounded := by
  obtain ⟨highest, hl⟩ := indexLog_loop events name
  rw [hl]
  unfold loopAfter
  have hempty : LoopIndex.Bounded { maxRoundEver := highest } := fun _ _ => rfl
  exact List.foldlRecOn _ _ hempty fun loop hloop c _ => hloop.advance name c

section Loop

variable {args : LoopArgs} {run : RunPhase}

theorem phase_of_loop (h : decideLoop args = some (.runPhase run)) :
    run.phase = args.producer ∨ run.phase = args.reviewer := by
  rcases decideLoop_cases h with ⟨other, he, hphase⟩ | ⟨escalation, he⟩
  · cases he
    exact hphase
  · cases he

/-- What a loop runs: a producer round that has neither verdict nor completion, or the review of
the highest round, which is complete. -/
theorem of_decideLoop_run (hb : args.loop.Bounded)
    (h : decideLoop args = some (.runPhase run)) :
    (run.phase = args.producer ∧ 0 < run.round ∧ args.loop.maxRound ≤ run.round ∧
      ∀ record, args.loop.rounds.get? ⟨run.round⟩ = some record →
        record.verdict = none ∧ record.completedSeq = none) ∨
    (run.phase = args.reviewer ∧ args.loop.maxRound ≠ 0 ∧ run.round = args.loop.maxRound ∧
      ∃ record, args.loop.rounds.get? ⟨args.loop.maxRound⟩ = some record ∧
        record.verdict = none ∧ record.completedSeq.isSome = true) := by
  have hnext : args.runProducer (args.loop.maxRound + 1) = .runPhase run →
      run.phase = args.producer ∧ 0 < run.round ∧ args.loop.maxRound ≤ run.round ∧
        ∀ record, args.loop.rounds.get? ⟨run.round⟩ = some record →
          record.verdict = none ∧ record.completedSeq = none := by
    intro he
    cases he
    refine ⟨rfl, Nat.succ_pos _, Nat.le_succ _, fun record hr => ?_⟩
    rw [hb _ (Nat.lt_succ_self _)] at hr
    cases hr
  unfold decideLoop at h
  split at h
  · rename_i hm
    cases Option.some.inj h
    refine Or.inl ⟨rfl, Nat.succ_pos _, by rw [hm]; exact Nat.zero_le _, fun record hr => ?_⟩
    rw [hb _ (by rw [hm]; exact Nat.succ_pos _)] at hr
    cases hr
  · rename_i hm
    split at h
    · rename_i hr
      cases Option.some.inj h
      refine Or.inl ⟨rfl, Nat.pos_of_ne_zero hm, le_refl _, fun record hr' => ?_⟩
      rw [show args.loop.rounds.get? _ = _ from hr'] at hr
      cases hr
    · rename_i record hr
      split at h
      · rename_i verdict hv
        left
        unfold LoopArgs.decideVerdict at h
        split at h
        · cases h
        · split at h
          · exact hnext (Option.some.inj h)
          · cases h
        · have h := Option.some.inj h
          unfold LoopArgs.decideRevise at h
          dsimp only at h
          split at h
          · cases h
          · split at h
            · cases h
            · exact hnext h
      · rename_i hv
        split at h
        · rename_i hc
          cases Option.some.inj h
          exact Or.inr ⟨rfl, hm, rfl, record, hr, hv, hc⟩
        · rename_i hc
          cases Option.some.inj h
          refine Or.inl ⟨rfl, Nat.pos_of_ne_zero hm, le_refl _, fun other ho => ?_⟩
          have he : record = other := Option.some.inj (hr.symm.trans ho)
          rw [← he]
          exact ⟨hv, by simpa using hc⟩

end Loop

/-! ## 5. Verification -/

section Rule

variable {state : EngineFacts} {log : LogIndex} {config : Config} {stage : Option ActiveStage}
  {decision : Decision} {unit : StartedUnit}

/-- The rules before the restack are silent. -/
structure PastLoops (state : EngineFacts) (log : LogIndex) (config : Config)
    (stage : Option ActiveStage) : Prop where
  plan : decideLoop (planLoopArgs state log config) = none
  code : decideLoop (codeLoopArgs state log config) = none
  noFailure : stageDecision state log stage = none
  exhausted : exhaustedDecision state log config stage = none
  failRoute : failRouteDecision state log stage = none

/-- The replay in flight is conflicted. -/
def ReplayConflicted (log : LogIndex) : Prop :=
  log.restack.active ≠ none ∧ (log.restack.replay.map (·.conflicted)).getD false = true

/-- The rule of verification that a unit comes from. -/
inductive VerifyRule (state : EngineFacts) (log : LogIndex) (config : Config)
    (stage : Option ActiveStage) (unit : StartedUnit) : Prop
  | route (hu : unit = .phase .implement (log.code.maxRound + 1))
  | replay (past : PastLoops state log config stage) (h : ReplayConflicted log)
    (hu : ∃ attempt, unit = .phase .reconcile attempt)
  | members (past : PastLoops state log config stage) (decision : Decision)
    (hr : restackDecision state log = none) (hc : capturePolicyDecision log = none)
    (hd : driftDecision state log config = none)
    (hm : membersDecision state log config stage = some decision) (hu : unit ∈ decision.units)

theorem units_of_stage (h : stageDecision state log stage = some decision) :
    decision.units = [] := by
  have hrecord : ∀ active, recordFailure state log active = some decision →
      decision.units = [] := by
    intro active h
    unfold recordFailure at h
    split at h
    · cases h
    · split_ifs at h
      cases h
      rfl
  unfold stageDecision at h
  split at h
  · cases h
  · split at h
    · split_ifs at h
      · cases h
        rfl
      · exact hrecord _ h
    · exact hrecord _ h

theorem units_of_exhausted (h : exhaustedDecision state log config stage = some decision) :
    decision.units = [] := by
  unfold exhaustedDecision at h
  split at h
  · cases h
  · split_ifs at h
    cases h
    rfl

theorem verifyRule_of_unit (hp : decideLoop (planLoopArgs state log config) = none)
    (hc : decideLoop (codeLoopArgs state log config) = none)
    (hv : verifyDecision state log config stage = some decision) (hu : unit ∈ decision.units) :
    VerifyRule state log config stage unit := by
  unfold verifyDecision at hv
  rcases Option.or_eq_some_iff.mp hv with h | ⟨hs, hv⟩
  · rw [units_of_stage h] at hu
    exact absurd hu List.not_mem_nil
  rcases Option.or_eq_some_iff.mp hv with h | ⟨he, hv⟩
  · rw [units_of_exhausted h] at hu
    exact absurd hu List.not_mem_nil
  rcases Option.or_eq_some_iff.mp hv with h | ⟨hf, hv⟩
  · unfold failRouteDecision at h
    split_ifs at h
    cases h
    exact .route (List.mem_singleton.mp hu)
  have past : PastLoops state log config stage := ⟨hp, hc, hs, he, hf⟩
  rcases Option.or_eq_some_iff.mp hv with h | ⟨hr, hv⟩
  · unfold restackDecision at h
    split at h
    · rename_i active hactive
      split_ifs at h with hconflicted
      · cases h
        refine .replay past ⟨?_, hconflicted⟩ ⟨_, List.mem_singleton.mp hu⟩
        rw [hactive]
        exact Option.some_ne_none active
      · cases h
        exact absurd hu List.not_mem_nil
    · split_ifs at h
      cases h
      exact absurd hu List.not_mem_nil
  rcases Option.or_eq_some_iff.mp hv with h | ⟨hcapture, hv⟩
  · unfold capturePolicyDecision at h
    split_ifs at h
    cases h
    exact absurd hu List.not_mem_nil
  rcases Option.or_eq_some_iff.mp hv with h | ⟨hd, hv⟩
  · unfold driftDecision at h
    split at h
    · cases h
    · dsimp only at h
      split_ifs at h
      cases h
      exact absurd hu List.not_mem_nil
  exact .members past decision hr hcapture hd hv hu

/-- The work of a member is its step, at the attempt of the cycle. -/
theorem unit_of_gateByPaths {step : String} {attempt : Nat} {stepConfig : VerifyStepConfig}
    {kind : StepKind} {feedback : Option Feedback}
    (hu : unit ∈ (gateByPaths step attempt stepConfig
      (verifyAction config step attempt kind feedback)).units) :
    unit = .verify step attempt := by
  have haction : (verifyAction config step attempt kind feedback).unit = .verify step attempt := by
    cases kind <;> rfl
  unfold gateByPaths at hu
  split at hu
  · exact (List.mem_singleton.mp hu).trans haction
  · split_ifs at hu
    · exact (List.mem_singleton.mp hu).trans haction
    · exact List.mem_singleton.mp hu

theorem unit_of_memberDecision {step : String} {member : VerifyMemberDecision}
    (h : memberDecision state log config step = some member) (hu : unit ∈ member.units) :
    unit = .verify step log.attempt := by
  unfold memberDecision at h
  split_ifs at h
  split at h
  · cases h
  · dsimp only at h
    split at h
    · cases h
      exact absurd hu List.not_mem_nil
    · split at h
      · cases h
        exact absurd hu List.not_mem_nil
      · cases h
        exact unit_of_gateByPaths hu

theorem unit_of_membersDecision (h : membersDecision state log config stage = some decision)
    (hu : unit ∈ decision.units) : ∃ step, unit = .verify step log.attempt := by
  unfold membersDecision at h
  split at h
  · dsimp only at h
    split_ifs at h
    · cases h
      exact absurd hu List.not_mem_nil
    · cases h
      obtain ⟨member, hm, hu⟩ := List.mem_flatMap.mp hu
      obtain ⟨step, -, hd⟩ := List.mem_filterMap.mp hm
      exact ⟨step, unit_of_memberDecision hd hu⟩
  · obtain ⟨member, hm, rfl⟩ := Option.map_eq_some_iff.mp h
    obtain ⟨step, -, hd⟩ := List.exists_of_findSome?_eq_some hm
    exact ⟨step, unit_of_memberDecision hd hu⟩

/-- A step is due unless it is satisfied, or has no table. -/
theorem memberDecision_eq_none_iff {step : String} :
    memberDecision state log config step = none ↔
      log.satisfied step = true ∨ config.verify.stepConfigs.get? step = none := by
  unfold memberDecision
  split_ifs with hs
  · exact ⟨fun _ => Or.inl hs, fun _ => rfl⟩
  · split
    · rename_i hc
      exact ⟨fun _ => Or.inr hc, fun _ => rfl⟩
    · rename_i stepConfig hc
      refine ⟨fun h => ?_, fun h => ?_⟩
      · dsimp only at h
        split at h
        · cases h
        · split at h <;> cases h
      · rcases h with h | h
        · exact absurd h hs
        · rw [hc] at h
          cases h

theorem membersDecision_eq_none_iff :
    membersDecision state log config stage = none ↔
      stage = none ∧ ∀ step ∈ config.verify.steps,
        log.satisfied step = true ∨ config.verify.stepConfigs.get? step = none := by
  unfold membersDecision
  split
  · exact ⟨fun h => (by cases h), fun h => (by cases h.1)⟩
  · rw [Option.map_eq_none_iff, List.findSome?_eq_none_iff]
    exact ⟨fun h => ⟨rfl, fun step hs => memberDecision_eq_none_iff.mp (h step hs)⟩,
      fun h step hs => memberDecision_eq_none_iff.mpr (h.2 step hs)⟩

/-- Past the loops the restack rule comes first. -/
theorem decideWork_of_pastLoops (hr : SpecReady state log) (hs : staleReconcile state log = none)
    (past : PastLoops state log config stage) :
    decideWork state log config stage
      = ((restackDecision state log).or <| (capturePolicyDecision log).or <|
          (driftDecision state log config).or <|
            membersDecision state log config stage).getD (epilogueDecision state log config) := by
  unfold decideWork verifyDecision
  rw [specDecision_of_ready hr, hs, past.plan, past.code, past.noFailure, past.exhausted,
    past.failRoute]
  rfl

end Rule

/-! ## 6. The epilogue -/

section Epilogue

variable {state : EngineFacts} {log : LogIndex} {config : Config} {stage : Option ActiveStage}
  {unit : StartedUnit}

theorem unit_of_finalize {decision : Decision}
    (h : finalizeDecision log config = some decision) (hu : unit ∈ decision.units) :
    log.finalizeCompleted = false ∧ unit = .phase .finalize 1 := by
  unfold finalizeDecision at h
  split_ifs at h with hc
  · cases h
    exact ⟨hc, List.mem_singleton.mp hu⟩
  · obtain ⟨step, -, hd⟩ := List.exists_of_findSome?_eq_some h
    unfold finalizeStepDecision at hd
    split_ifs at hd
    obtain ⟨kind, -, rfl⟩ := Option.map_eq_some_iff.mp hd
    exact absurd hu List.not_mem_nil

theorem unit_of_resumeReconcile {decision : Decision}
    (h : resumeReconcile state log = some decision) (hu : unit ∈ decision.units) :
    state.prState = some .conflicted ∧ ∃ attempt, unit = .phase .reconcile attempt := by
  unfold resumeReconcile at h
  split_ifs at h with hpr
  refine ⟨hpr, ?_⟩
  split at h
  · cases h
    exact ⟨_, List.mem_singleton.mp hu⟩
  · split at h
    · split_ifs at h
      cases h
      exact ⟨_, List.mem_singleton.mp hu⟩
    · cases h

theorem units_of_landingRestack {decision : Decision}
    (h : landingRestack state log = some decision) : decision.units = [] := by
  unfold landingRestack at h
  split at h
  · cases h
  · dsimp only at h
    split_ifs at h
    cases h
    rfl

theorem units_of_repeatConflict {decision : Decision} {conflict : Nat}
    {completed : ReconcileCompletionRecord}
    (h : repeatConflict state log config conflict completed = some decision) :
    decision.units = [] := by
  unfold repeatConflict at h
  split_ifs at h
  split at h
  · cases h
    rfl
  · split_ifs at h
    cases h
    rfl

theorem unit_of_conflictDecision {decision : Decision}
    (h : conflictDecision state log config = some decision) (hu : unit ∈ decision.units) :
    state.prState = some .conflicted ∧ ∃ attempt, unit = .phase .reconcile attempt := by
  unfold conflictDecision at h
  split at h
  · cases h
  · rename_i conflict hconflict
    split_ifs at h with hpr
    refine ⟨hpr, ?_⟩
    rw [← Option.some.inj h] at hu
    cases hc : log.lastReconcileCompleted.bind (repeatConflict state log config conflict) with
    | none =>
      rw [hc] at hu
      exact ⟨_, List.mem_singleton.mp hu⟩
    | some repeated =>
      obtain ⟨completed, -, hd⟩ := Option.bind_eq_some_iff.mp hc
      rw [hc, Option.getD_some, units_of_repeatConflict hd] at hu
      exact absurd hu List.not_mem_nil

/-- The epilogue finalizes once, then reconciles a conflicted pull request. -/
theorem unit_of_epilogue (hu : unit ∈ (epilogueDecision state log config).units) :
    (log.finalizeCompleted = false ∧ unit = .phase .finalize 1) ∨
      (finalizeDecision log config = none ∧ state.prState = some .conflicted ∧
        ∃ attempt, unit = .phase .reconcile attempt) := by
  unfold epilogueDecision at hu
  cases hf : finalizeDecision log config with
  | some decision =>
    rw [hf] at hu
    exact Or.inl (unit_of_finalize hf hu)
  | none =>
    rw [hf, Option.none_or] at hu
    refine Or.inr ⟨rfl, ?_⟩
    cases hr : resumeReconcile state log with
    | some decision =>
      rw [hr] at hu
      exact unit_of_resumeReconcile hr hu
    | none =>
      rw [hr, Option.none_or] at hu
      cases hl : landingRestack state log with
      | some decision =>
        rw [hl, Option.some_or, Option.getD_some, units_of_landingRestack hl] at hu
        exact absurd hu List.not_mem_nil
      | none =>
        rw [hl, Option.none_or] at hu
        cases hc : conflictDecision state log config with
        | some decision =>
          rw [hc] at hu
          exact unit_of_conflictDecision hc hu
        | none =>
          rw [hc] at hu
          exact absurd hu List.not_mem_nil

/-- The rules before the reconcile of a conflict are silent. -/
structure ConflictDue (state : EngineFacts) (log : LogIndex) (config : Config)
    (stage : Option ActiveStage) : Prop where
  active : log.restack.active = none
  restack : restackDecision state log = none
  policy : capturePolicyDecision log = none
  drift : driftDecision state log config = none
  members : membersDecision state log config stage = none
  finalize : finalizeDecision log config = none
  conflicted : state.prState = some .conflicted

/-- **The reconciles of a work build**, beside one left over from before a revision: that of the
replay in flight, and that of a conflict. -/
theorem reconcile_cases {attempt : Nat} (hs : staleReconcile state log = none)
    (hu : .phase .reconcile attempt ∈ (decideWork state log config stage).units) :
    PastLoops state log config stage ∧
      (ReplayConflicted log ∨ ConflictDue state log config stage) := by
  cases workRule_of_unit hu with
  | stale attempt h _ =>
    rw [hs] at h
    cases h
  | plan run _ hp hu =>
    injection hu with hphase _
    rcases phase_of_loop hp with hp | hp <;> rw [← hphase] at hp <;> cases hp
  | code run _ _ hc hu =>
    injection hu with hphase _
    rcases phase_of_loop hc with hc | hc <;> rw [← hphase] at hc <;> cases hc
  | verify decision _ hp hc hv hu =>
    cases verifyRule_of_unit hp hc hv hu with
    | route hu => cases hu
    | replay past h _ => exact ⟨past, Or.inl h⟩
    | members past decision _ _ _ hm hu =>
      obtain ⟨step, hu⟩ := unit_of_membersDecision hm hu
      cases hu
  | epilogue _ hp hc hv hu =>
    rcases unit_of_epilogue hu with ⟨-, hu⟩ | ⟨hf, hpr, -⟩
    · cases hu
    · have hactive := (of_verifyDecision_none hv).2.1
      unfold verifyDecision at hv
      obtain ⟨hstage, hv⟩ := Option.or_eq_none_iff.mp hv
      obtain ⟨hexhausted, hv⟩ := Option.or_eq_none_iff.mp hv
      obtain ⟨hroute, hv⟩ := Option.or_eq_none_iff.mp hv
      obtain ⟨hrestack, hv⟩ := Option.or_eq_none_iff.mp hv
      obtain ⟨hpolicy, hv⟩ := Option.or_eq_none_iff.mp hv
      obtain ⟨hdrift, hmembers⟩ := Option.or_eq_none_iff.mp hv
      exact ⟨⟨hp, hc, hstage, hexhausted, hroute⟩, Or.inr
        { active := hactive
          restack := hrestack
          policy := hpolicy
          drift := hdrift
          members := hmembers
          finalize := hf
          conflicted := hpr }⟩

end Epilogue

/-! ## 7. Nodes -/

section Node

variable {state : EngineFacts} {log : LogIndex} {config : Config} {stage : Option ActiveStage}
  {decision : Decision} {unit : StartedUnit} {cycle : WithSeq IntegrationPrepared}

theorem units_of_nodeStage (h : nodeStageDecision state log cycle stage = some decision) :
    decision.units = [] := by
  have hsettled : ∀ active, nodeStageDecision.settled state log cycle active = some decision →
      decision.units = [] := by
    intro active h
    unfold nodeStageDecision.settled at h
    split_ifs at h <;> cases h <;> rfl
  unfold nodeStageDecision at h
  split at h
  · cases h
  · split at h
    · split_ifs at h
      · cases h
        rfl
      · exact hsettled _ h
    · exact hsettled _ h

theorem unit_of_nodeMember {step : String} {member : VerifyMemberDecision}
    (h : nodeMember log config cycle step = .ok member) (hu : unit ∈ member.units) :
    unit = .verify step (nodeAttempt log cycle) := by
  unfold nodeMember at h
  split at h
  · cases h
  · rw [← Except.ok.inj h] at hu
    exact unit_of_gateByPaths hu

theorem unit_of_nodeVerify (h : nodeVerify state log config cycle stage = .ok decision)
    (hu : unit ∈ decision.units) : ∃ step, unit = .verify step (nodeAttempt log cycle) := by
  unfold nodeVerify at h
  split at h
  · obtain ⟨members, hm, h⟩ := bind_eq_ok.mp h
    rw [← Except.ok.inj h] at hu
    split at hu
    · exact absurd hu List.not_mem_nil
    · obtain ⟨member, hmem, hu⟩ := List.mem_flatMap.mp hu
      obtain ⟨step, -, hstep⟩ := mem_of_mapM_ok hm member hmem
      exact ⟨step, unit_of_nodeMember hstep hu⟩
  · split at h
    · cases h
      exact absurd hu List.not_mem_nil
    · obtain ⟨member, hm, h⟩ := bind_eq_ok.mp h
      rw [← Except.ok.inj h] at hu
      exact ⟨_, unit_of_nodeMember hm hu⟩

/-- The units of a node: the reconcile of its conflict, or the members of its cycle. -/
theorem unit_of_node (h : decideNode state log config stage = .ok decision)
    (hu : unit ∈ decision.units) :
    ((state.nodeRestack.bind (·.conflict)).isSome = true ∧
      unit = .phase .reconcile (nodeReconcileAttempt state)) ∨
    ((state.nodeRestack.bind (·.conflict)).isSome = false ∧
      ∃ cycle step, state.cycleState.cycle = some cycle ∧
        unit = .verify step (nodeAttempt log cycle)) := by
  unfold decideNode at h
  split at h
  · rename_i hconflict
    cases h
    exact Or.inl ⟨hconflict, List.mem_singleton.mp hu⟩
  · rename_i hconflict
    refine Or.inr ⟨Bool.eq_false_iff.mpr hconflict, ?_⟩
    split at h
    · cases h
      exact absurd hu List.not_mem_nil
    · rename_i cycle hcycle
      split_ifs at h
      · cases h
        exact absurd hu List.not_mem_nil
      · cases h
        exact absurd hu List.not_mem_nil
      · split at h
        · rename_i hd
          cases h
          rw [units_of_nodeStage hd] at hu
          exact absurd hu List.not_mem_nil
        · obtain ⟨step, hunit⟩ := unit_of_nodeVerify h hu
          exact ⟨cycle, step, hcycle, hunit⟩

end Node

end Autobuild
