/-
# The barrier between verify stages

When the engine runs the members of a verify stage, and when it sends a failed stage back to an
implement round.

* `Decision.verifies` picks those decisions out; of the rules of a work build only two of the
  verification make one, and the code loop (`verifies_of_work`).
* `RunBarrier` and `RouteBarrier` are the barriers in terms of the events of the log, and
  `verify_barrier` that the engine keeps them.
* Only the first result of a step counts, and a cancellation after it does not
  (`not_barrier_of_later_results`).
-/
import Autobuild.Kernel.StageCycle

namespace Autobuild

open ObjectMap Checked

/-! ## 1. Decisions about a stage -/

/-- Run the members of a stage, or an implement round. -/
def Decision.verifies : Decision → Prop
  | .runVerifyStage _ => True
  | .runPhase run => run.phase = .implement
  | _ => False

def VerifyAction.step : VerifyAction → String
  | .runCheck step _ _ => step
  | .runAgentVerify step _ _ _ => step

def VerifyMemberDecision.step : VerifyMemberDecision → String
  | .run action => action.step
  | .evaluateVerify step _ _ _ => step
  | .skipVerify step _ _ _ => step

section Rules

variable {state : EngineFacts} {log : LogIndex} {config : Config} {stage : Option ActiveStage}
  {decision : Decision}

/-- The receipt of a stage failure changes an implement round only in its feedback. -/
theorem attachReceipt_cases (state : EngineFacts) (log : LogIndex) (config : Config)
    (decision : Decision) :
    attachReceipt state log config decision = decision ∨
      ∃ run run', decision = .runPhase run ∧
        attachReceipt state log config decision = .runPhase run' ∧ run'.phase = run.phase := by
  unfold attachReceipt
  split
  · split
    · split
      · exact Or.inl rfl
      · exact Or.inr ⟨_, _, rfl, rfl, rfl⟩
    · exact Or.inl rfl
  · exact Or.inl rfl

theorem not_verifies_runReconcile (attempt : Nat) : ¬(runReconcile attempt).verifies :=
  show CorePhase.reconcile ≠ .implement by decide

theorem not_verifies_of_command (h : commandDecision state log = some decision) :
    ¬decision.verifies := by
  unfold commandDecision at h
  split_ifs at h <;> cases h <;> exact id

theorem not_verifies_of_blocked (h : blockedDecision state log stage = some decision) :
    ¬decision.verifies := by
  unfold blockedDecision at h
  split_ifs at h
  · cases h
    exact id
  · cases h
    exact id
  · obtain ⟨deferral, -, rfl⟩ := Option.map_eq_some_iff.mp h
    exact id

theorem not_verifies_of_spec (h : specDecision state log = some decision) :
    ¬decision.verifies := by
  unfold specDecision staleReconcile at h
  split_ifs at h
  · cases h
    exact id
  · cases h
    exact id
  · split at h
    · exact absurd h nofun
    · split_ifs at h
      cases h
      exact not_verifies_runReconcile _

theorem not_verifies_of_loop {args : LoopArgs} (hp : args.producer ≠ .implement)
    (hr : args.reviewer ≠ .implement) (h : decideLoop args = some decision) :
    ¬decision.verifies := by
  rcases decideLoop_cases h with ⟨run, rfl, hrun⟩ | ⟨escalation, rfl⟩
  · rcases hrun with hrun | hrun
    · exact fun hv => hp (hrun.symm.trans hv)
    · exact fun hv => hr (hrun.symm.trans hv)
  · exact id

theorem not_verifies_epilogue : ¬(epilogueDecision state log config).verifies := by
  have hfinalize : ∀ d, finalizeDecision log config = some d → ¬d.verifies := by
    intro d h
    unfold finalizeDecision at h
    split_ifs at h
    · cases h
      exact show CorePhase.finalize ≠ .implement by decide
    · obtain ⟨step, -, hd⟩ := List.exists_of_findSome?_eq_some h
      unfold finalizeStepDecision at hd
      split_ifs at hd
      obtain ⟨kind, -, rfl⟩ := Option.map_eq_some_iff.mp hd
      exact id
  have hresume : ∀ d, resumeReconcile state log = some d → ¬d.verifies := by
    intro d h
    unfold resumeReconcile at h
    split_ifs at h
    split at h
    · cases h
      exact not_verifies_runReconcile _
    · split at h
      · split_ifs at h
        cases h
        exact not_verifies_runReconcile _
      · exact absurd h nofun
  have hlanding : ∀ d, landingRestack state log = some d → ¬d.verifies := by
    intro d h
    unfold landingRestack at h
    split at h
    · exact absurd h nofun
    · dsimp only at h
      split_ifs at h
      cases h
      exact id
  have hrepeat : ∀ conflict completed d,
      repeatConflict state log config conflict completed = some d → ¬d.verifies := by
    intro conflict completed d h
    unfold repeatConflict at h
    split_ifs at h
    split at h
    · cases h
      exact id
    · split_ifs at h
      cases h
      exact id
  have hconflict : ∀ d, conflictDecision state log config = some d → ¬d.verifies := by
    intro d h
    unfold conflictDecision at h
    split at h
    · exact absurd h nofun
    · split_ifs at h
      cases h
      cases hb : log.lastReconcileCompleted.bind (repeatConflict state log config _) with
      | none => exact not_verifies_runReconcile _
      | some d =>
        obtain ⟨completed, -, hd⟩ := Option.bind_eq_some_iff.mp hb
        exact hrepeat _ _ d hd
  intro h
  unfold epilogueDecision at h
  obtain ⟨-, h⟩ := of_or_getD hfinalize h
  obtain ⟨-, h⟩ := of_or_getD hresume h
  obtain ⟨-, h⟩ := of_or_getD hlanding h
  cases hc : conflictDecision state log config with
  | none =>
    rw [hc] at h
    exact h
  | some d =>
    rw [hc] at h
    exact hconflict d hc h

/-- Of the rules of verification only the members of a stage and the route back decide so, both
behind the failure of the stage. -/
theorem verifies_of_verify (h : verifyDecision state log config stage = some decision)
    (hv : decision.verifies) :
    stageDecision state log stage = none ∧
      (failRouteDecision state log stage = some decision ∨
        membersDecision state log config stage = some decision) := by
  unfold verifyDecision at h
  rcases Option.or_eq_some_iff.mp h with h | ⟨hstage, h⟩
  · have hrecord : ∀ stage, recordFailure state log stage = some decision →
        ¬decision.verifies := by
      intro stage h
      unfold recordFailure at h
      split at h
      · exact absurd h nofun
      · split_ifs at h
        cases h
        exact id
    unfold stageDecision at h
    split at h
    · exact absurd h nofun
    · split at h
      · split_ifs at h
        · cases h
          exact absurd hv id
        · exact absurd hv (hrecord _ h)
      · exact absurd hv (hrecord _ h)
  refine ⟨hstage, ?_⟩
  rcases Option.or_eq_some_iff.mp h with h | ⟨-, h⟩
  · unfold exhaustedDecision at h
    split at h
    · exact absurd h nofun
    · split_ifs at h
      cases h
      exact absurd hv id
  rcases Option.or_eq_some_iff.mp h with h | ⟨-, h⟩
  · exact Or.inl h
  rcases Option.or_eq_some_iff.mp h with h | ⟨-, h⟩
  · unfold restackDecision at h
    split at h
    · split_ifs at h
      · cases h
        exact absurd hv (not_verifies_runReconcile _)
      · cases h
        exact absurd hv id
    · split_ifs at h
      cases h
      exact absurd hv id
  rcases Option.or_eq_some_iff.mp h with h | ⟨-, h⟩
  · unfold capturePolicyDecision at h
    split_ifs at h
    cases h
    exact absurd hv id
  rcases Option.or_eq_some_iff.mp h with h | ⟨-, h⟩
  · unfold driftDecision at h
    split at h
    · exact absurd h nofun
    · dsimp only at h
      split_ifs at h
      cases h
      exact absurd hv id
  · exact Or.inr h

/-- **In a work build such a decision comes from the code loop, or with the code loop approved
from the verification.** -/
theorem verifies_of_work (hk : state.kind ≠ some .node)
    (h : decideNextInternal state log config = .ok decision) (hv : decision.verifies) :
    decideLoop (codeLoopArgs state log config) = some decision ∨
      (decideLoop (codeLoopArgs state log config) = none ∧
        verifyDecision state log config (engineStage state log config) = some decision) := by
  unfold decideNextInternal at h
  dsimp only at h
  split at h
  · rename_i first hfirst
    cases h
    rcases Option.or_eq_some_iff.mp hfirst with hc | ⟨-, hb⟩
    · exact absurd hv (not_verifies_of_command hc)
    · exact absurd hv (not_verifies_of_blocked hb)
  · rw [if_neg hk] at h
    have hd := Except.ok.inj h
    unfold decideWork at hd
    rw [← hd] at hv
    obtain ⟨hspec, hv⟩ := of_or_getD (fun d hs => not_verifies_of_spec hs) hv
    obtain ⟨hplan, hv⟩ := of_or_getD (fun d hl => not_verifies_of_loop
      (show CorePhase.plan ≠ .implement by decide)
      (show CorePhase.planReview ≠ .implement by decide) hl) hv
    rw [hspec, hplan, Option.none_or, Option.none_or] at hd
    cases hcode : decideLoop (codeLoopArgs state log config) with
    | some d =>
      rw [hcode] at hd
      exact Or.inl (congrArg some hd)
    | none =>
      rw [hcode, Option.none_or] at hd hv
      refine Or.inr ⟨rfl, ?_⟩
      cases hverify : verifyDecision state log config (engineStage state log config) with
      | some d =>
        rw [hverify] at hd
        exact congrArg some hd
      | none =>
        rw [hverify] at hv
        exact absurd hv not_verifies_epilogue

/-- A member decision is about its step. -/
theorem step_of_memberDecision {step : String} {member : VerifyMemberDecision}
    (h : memberDecision state log config step = some member) : member.step = step := by
  have haction : ∀ kind attempt feedback,
      (verifyAction config step attempt kind feedback).step = step := by
    intro kind attempt feedback
    cases kind <;> rfl
  unfold memberDecision at h
  split_ifs at h
  split at h
  · exact absurd h nofun
  · dsimp only at h
    split at h
    · cases h
      rfl
    · split at h
      · cases h
        rfl
      · cases h
        unfold gateByPaths
        split
        · exact haction _ _ _
        · split
          · exact haction _ _ _
          · rfl

/-- With nothing to cancel and nothing to record, a stage with unfinished steps has no cause. -/
theorem cause_none_of_stageDecision {active : ActiveStage}
    (h : stageDecision state log (some active) = none) (hu : active.unfinished ≠ []) :
    active.cause = none := by
  unfold stageDecision at h
  dsimp only at h
  split at h
  · rw [if_pos (by simpa using hu)] at h
    exact absurd h nofun
  · assumption

/-- A settled stage that has nothing to record has no failures, or one recorded in its cycle. -/
theorem recorded_of_stageDecision {active : ActiveStage}
    (h : stageDecision state log (some active) = none) (hs : active.settled = true)
    (hu : active.unfinished = []) {first : VerifyRecord} {rest : List VerifyRecord}
    (hf : active.failures = first :: rest) :
    ∃ failure ∈ state.verifyStage.failures,
      failure.payload.cycle = log.cycleBoundary ∧ failure.payload.attempt = first.attempt := by
  have hrecord : recordFailure state log active = none := by
    unfold stageDecision at h
    dsimp only at h
    split at h
    · rwa [if_neg (by simp [hu])] at h
    · exact h
  unfold recordFailure at hrecord
  rw [hf] at hrecord
  dsimp only at hrecord
  split_ifs at hrecord with hopen
  rw [hs, Bool.true_and, Bool.not_eq_true', Bool.not_eq_false] at hopen
  obtain ⟨failure, hm, heq⟩ := List.any_eq_true.mp hopen
  exact ⟨failure, hm, of_decide_eq_true heq⟩

end Rules

/-! ## 2. The barriers in terms of the log -/

/-- What a log holds when the engine runs members: they are open members of the active stage,
none of whose steps that fail fast has failed. -/
def RunBarrier (events : List AbEvent) (config : VerifyConfig)
    (members : List VerifyMemberDecision) : Prop :=
  ∃ earlier stage later, StageActive events config earlier stage later ∧ members ≠ [] ∧
    (∀ member ∈ members, member.step ∈ stage ∧ ¬HasResult events member.step ∧
      ¬HasCancellation events member.step) ∧
    ∀ step ∈ stage, failsFast config step = true → ∀ payload, ¬StepFailed events step payload

/-- What a log holds when the engine sends an active stage back: every step has a result or a
cancellation, and the failure is recorded under the cycle and the attempt of the first step that
failed. -/
def RouteBarrier (events : List AbEvent) (stage : List String) : Prop :=
  (∀ step ∈ stage, HasResult events step ∨ HasCancellation events step) ∧
  ((∃ step ∈ stage, ∃ payload, StepFailed events step payload) →
    ∃ first, FirstFailed events stage first ∧ ∃ event ∈ events, ∃ failure,
      event.body = .verify (.stageFailed failure) ∧ CycleOpenedAt events failure.cycle ∧
      failure.attempt = first.attempt)

/-- `codeDecision === 'approved'`: the code loop has nothing to run. -/
def CodeApproved (events : List AbEvent) (state : EngineFacts) (config : Config) : Prop :=
  decideLoop (codeLoopArgs state (effectiveCompletions state (indexLog events)) config) = none

section Barrier

variable {events : List AbEvent} {state : EngineFacts} {config : Config}

/-- An approved code loop opened a cycle. -/
theorem cycleBoundary_of_codeApproved (hp : events.Pairwise (fun a b => a.seq < b.seq))
    (h : CodeApproved events state config) : (indexLog events).cycleBoundary ≠ 0 := by
  obtain ⟨verdict, hv, ha⟩ := of_decideLoop_none h
  have happroved : ApprovedSince events .code := approvedSince_of_silent hp hv ha
  obtain ⟨event, he, payload, hs, hb, happrove, -⟩ := happroved
  have hopens : opensCycle event.body = true :=
    (opensCycle_iff event.seq).mpr
      (Or.inl ⟨payload, verdict_mem_candidatesOf.mpr ⟨rfl, hb⟩, happrove⟩)
  have hle := le_cycleBoundary hp he hs hopens
  omega

theorem runBarrier_of_members (hp : events.Pairwise (fun a b => a.seq < b.seq))
    (hk : state.kind ≠ some .node) (hm : MembersOf events state.verifyStage)
    (hstages : config.verify.stages ≠ none) {members : List VerifyMemberDecision}
    (hstage : stageDecision state (effectiveCompletions state (indexLog events))
      (engineStage state (effectiveCompletions state (indexLog events)) config) = none)
    (h : membersDecision state (effectiveCompletions state (indexLog events)) config
      (engineStage state (effectiveCompletions state (indexLog events)) config)
        = some (.runVerifyStage members)) :
    RunBarrier events config.verify members := by
  have hc := hm.toCancellationsOf
  unfold membersDecision at h
  split at h
  · rename_i active hactive
    obtain ⟨earlier, stage, later, hlog, rfl⟩ := (engineStage_eq_some hp hk hc hstages).mp hactive
    dsimp only at h
    split at h
    · exact absurd h nofun
    · rename_i hne
      cases h
      have hmember : ∀ member ∈ ((engineProgress state events config.verify stage).unfinished.filter
            fun step => !heldVerifier state step).filterMap
            (memberDecision state (effectiveCompletions state (indexLog events)) config),
          member.step ∈ (engineProgress state events config.verify stage).unfinished := by
        intro member hmem
        obtain ⟨step, hs, hd⟩ := List.mem_filterMap.mp hmem
        rw [step_of_memberDecision hd]
        exact (List.mem_filter.mp hs).1
      refine ⟨earlier, stage, later, hlog, by simpa using hne, ?_, ?_⟩
      · exact fun member hmem => (mem_unfinished_iff hp hk hm).mp (hmember member hmem)
      · intro step hs hfast payload
        rw [hactive] at hstage
        refine not_failed_of_cause_none hp hk hc
          (cause_none_of_stageDecision hstage ?_) hs hfast payload
        obtain ⟨member, hmem⟩ := List.exists_mem_of_ne_nil _
          (fun hnil => hne (List.isEmpty_iff.mpr hnil))
        exact List.ne_nil_of_mem (hmember member hmem)
  · obtain ⟨member, -, hd⟩ := Option.map_eq_some_iff.mp h
    exact absurd hd nofun

theorem routeBarrier_of_failRoute (hp : events.Pairwise (fun a b => a.seq < b.seq))
    (hk : state.kind ≠ some .node) (hm : MembersOf events state.verifyStage)
    (hstages : config.verify.stages ≠ none) (hcode : CodeApproved events state config)
    {earlier later : List (List String)} {stage : List String}
    (hactive : StageActive events config.verify earlier stage later)
    (hstage : stageDecision state (effectiveCompletions state (indexLog events))
      (engineStage state (effectiveCompletions state (indexLog events)) config) = none)
    {decision : Decision}
    (h : failRouteDecision state (effectiveCompletions state (indexLog events))
      (engineStage state (effectiveCompletions state (indexLog events)) config)
        = some decision) :
    RouteBarrier events stage := by
  have hc := hm.toCancellationsOf
  rw [(engineStage_eq_some hp hk hc hstages).mpr ⟨earlier, stage, later, hactive, rfl⟩] at hstage h
  unfold failRouteDecision at h
  split_ifs at h with hroute
  have hsettled : (engineProgress state events config.verify stage).settled = true := hroute.2
  refine ⟨(settled_iff hp hk hm).mp hsettled, fun hfailed => ?_⟩
  obtain ⟨step, hs, payload, hfailed⟩ := hfailed
  obtain ⟨record, hr, -⟩ : ∃ record ∈ (engineProgress state events config.verify stage).failures,
      record.step = step := mem_failures_of_failed hp hk hc hs hfailed
  cases hf : (engineProgress state events config.verify stage).failures with
  | nil =>
    rw [hf] at hr
    exact absurd hr List.not_mem_nil
  | cons first rest =>
    obtain ⟨failure, hmem, hcycle, hattempt⟩ := recorded_of_stageDecision hstage hsettled
      (List.isEmpty_iff.mp hsettled) hf
    obtain ⟨payload, hfirst, hpayload⟩ := firstFailed_of_failures_cons hp hk hc hf
    obtain ⟨event, he, -, hb⟩ := hm.recorded failure hmem
    refine ⟨payload, hfirst, event, he, failure.payload, hb, ?_, hattempt.trans hpayload.symm⟩
    rw [hcycle]
    exact cycleOpenedAt_cycleBoundary hp (cycleBoundary_of_codeApproved hp hcode)

end Barrier

/-! ## 3. The engine keeps them -/

/-- **The barrier between stages.**  The engine runs open members of the active stage only,
behind stages that passed; and it sends a stage back once every step of it is settled and its
failure recorded. -/
theorem verify_barrier {events : List StoredEvent} {config : Config} {state : BuildState}
    {decision : Decision} (hp : events.Pairwise (fun a b => a.seq < b.seq))
    (hs : reduceBuild events = .ok state) (hk : state.kind ≠ some .node)
    (hstages : config.verify.stages ≠ none) (h : decideNext events config = .ok decision) :
    (∀ members, decision = .runVerifyStage members →
      RunBarrier (projectEvents events) config.verify members) ∧
    ∀ run, decision = .runPhase run → run.phase = .implement →
      CodeApproved (projectEvents events) state.engineFacts config →
      ∀ earlier stage later,
        StageActive (projectEvents events) config.verify earlier stage later →
        RouteBarrier (projectEvents events) stage := by
  have hpe := projectEvents_pairwise hp
  have hm : MembersOf (projectEvents events) state.engineFacts.verifyStage :=
    membersOf_reduceBuild hp hs
  have hk : state.engineFacts.kind ≠ some .node := hk
  unfold decideNext at h
  rw [hs] at h
  unfold decideNextFromFacts at h
  obtain ⟨inner, hinner, hreceipt⟩ := map_eq_ok.mp h
  have hcases := attachReceipt_cases state.engineFacts (indexLog (projectEvents events)) config
    inner
  constructor
  · intro members hd
    have hrun : inner = .runVerifyStage members := by
      rcases hcases with hsame | ⟨run, run', -, hrun, -⟩
      · rw [← hsame, hreceipt, hd]
      · rw [hreceipt, hd] at hrun
        exact absurd hrun nofun
    subst hrun
    rcases verifies_of_work hk hinner trivial with hcode | ⟨-, hverify⟩
    · rcases decideLoop_cases hcode with ⟨run, hr, -⟩ | ⟨escalation, hr⟩
      · exact absurd hr nofun
      · exact absurd hr nofun
    · obtain ⟨hstage, hroute | hmembers⟩ := verifies_of_verify hverify trivial
      · unfold failRouteDecision at hroute
        split_ifs at hroute
        exact absurd (Option.some.inj hroute) nofun
      · exact runBarrier_of_members hpe hk hm hstages hstage hmembers
  · intro run hd hphase hcode earlier stage later hactive
    have hrun : ∃ run', inner = .runPhase run' ∧ run'.phase = .implement := by
      rcases hcases with hsame | ⟨run', other, hrun', hother, heq⟩
      · exact ⟨run, by rw [← hsame, hreceipt, hd], hphase⟩
      · rw [hreceipt, hd] at hother
        cases hother
        exact ⟨run', hrun', heq.symm.trans hphase⟩
    obtain ⟨run', rfl, hphase'⟩ := hrun
    rcases verifies_of_work hk hinner hphase' with hloop | ⟨-, hverify⟩
    · rw [show decideLoop _ = none from hcode] at hloop
      exact absurd hloop nofun
    · obtain ⟨hstage, hroute | hmembers⟩ := verifies_of_verify hverify hphase'
      · exact routeBarrier_of_failRoute hpe hk hm hstages hcode hactive hstage hroute
      · unfold membersDecision at hmembers
        split at hmembers
        · dsimp only at hmembers
          split at hmembers <;> exact absurd (Option.some.inj hmembers) nofun
        · obtain ⟨member, -, hd⟩ := Option.map_eq_some_iff.mp hmembers
          exact absurd hd nofun

/-! ## 4. Stages of two logs -/

/-- The steps a work build runs as a stage. -/
def decidesStage (events : List StoredEvent) (config : Config) : Option (List String) :=
  match reduceBuild events, decideNext events config with
  | .ok state, .ok (.runVerifyStage members) =>
    if state.kind = some .node then none else some (members.map (·.step))
  | _, _ => none

theorem exists_of_decidesStage {events : List StoredEvent} {config : Config}
    {steps : List String} (h : decidesStage events config = some steps) :
    ∃ state members, reduceBuild events = .ok state ∧ state.kind ≠ some .node ∧
      decideNext events config = .ok (.runVerifyStage members) ∧
      members.map (·.step) = steps := by
  unfold decidesStage at h
  split at h
  · rename_i state members hs hd
    split_ifs at h with hk
    exact ⟨state, members, hs, hk, hd, Option.some.inj h⟩
  · exact absurd h nofun

/-- The feedback of the implement round a work build runs. -/
def decidesImplement (events : List StoredEvent) (config : Config) : Option (Option Feedback) :=
  match reduceBuild events, decideNext events config with
  | .ok state, .ok (.runPhase run) =>
    if state.kind ≠ some .node ∧ run.phase = .implement then some run.feedback else none
  | _, _ => none

theorem exists_of_decidesImplement {events : List StoredEvent} {config : Config}
    {feedback : Option Feedback} (h : decidesImplement events config = some feedback) :
    ∃ state run, reduceBuild events = .ok state ∧ state.kind ≠ some .node ∧
      decideNext events config = .ok (.runPhase run) ∧ run.phase = .implement ∧
      run.feedback = feedback := by
  unfold decidesImplement at h
  split at h
  · rename_i state run hs hd
    split_ifs at h with hk
    exact ⟨state, run, hs, hk.1, hd, hk.2, Option.some.inj h⟩
  · exact absurd h nofun

/-- The code loop is approved and a stage is in progress. -/
def stageOpen (events : List StoredEvent) (config : Config) : Bool :=
  match reduceBuild events with
  | .ok state =>
    let facts := state.engineFacts
    let log := effectiveCompletions facts (indexLog (projectEvents events))
    (decideLoop (codeLoopArgs facts log config)).isNone && (engineStage facts log config).isSome
  | .error _ => false

/-- A build step, then three checks at a time; a failure of `unit` cancels the others. -/
def buildThenChecks : Config where
  commands := ∅
  verify :=
    { afterReconcile := false
      steps := ["build", "unit", "lint", "types"]
      stages := some [["build"], ["unit", "lint", "types"]]
      stepConfigs := ((((∅ : ObjectMap String VerifyStepConfig).set "build"
        ⟨.check "build", none, none, none, none⟩).set "unit"
        ⟨.check "unit", some true, none, none, none⟩).set "lint"
        ⟨.check "lint", none, none, none, none⟩).set "types"
        ⟨.check "types", none, none, none, none⟩ }
  finalize := ⟨[], ∅⟩
  policy := ⟨2, 5, 2, 4⟩

/-- The plan and the code are approved, and the build step passed. -/
def approvedAndBuilt : List AbEvent :=
  [kernelEvent 1 (.spec (.imported ⟨"spec", 1⟩)),
    kernelEvent 2 (.planReview (.verdict approvedReview)),
    kernelEvent 3 (.codeReview (.verdict approvedReview)),
    kernelEvent 4 (verifyOutcomeOf "build" 1 (.pass none))]

/-- The checks all ended, `lint` with a failure that is recorded. -/
def recordedFailure : List AbEvent :=
  approvedAndBuilt ++
    [kernelEvent 5 (verifyOutcomeOf "unit" 1 (.pass none)),
      kernelEvent 6 (verifyOutcomeOf "lint" 1 (.fail none)),
      kernelEvent 7 (verifyOutcomeOf "types" 1 (.pass none)),
      kernelEvent 8 (.verify (.stageFailed
        ⟨1, 3, ["unit", "lint", "types"], none, none, none, [("lint", none)], []⟩))]

theorem verify_barrier_recordedFailure :
    (∃ members, decideNext (approvedAndBuilt.map .known) buildThenChecks
        = .ok (.runVerifyStage members) ∧
      RunBarrier (projectEvents (approvedAndBuilt.map .known)) buildThenChecks.verify members) ∧
    ∃ run stage, decideNext (recordedFailure.map .known) buildThenChecks = .ok (.runPhase run) ∧
      run.phase = .implement ∧ RouteBarrier (projectEvents (recordedFailure.map .known)) stage := by
  have hstages : buildThenChecks.verify.stages ≠ none := Option.some_ne_none _
  constructor
  · obtain ⟨state, members, hs, hk, hd, -⟩ := exists_of_decidesStage
      (show decidesStage (approvedAndBuilt.map .known) buildThenChecks
        = some ["unit", "lint", "types"] by decide +kernel)
    exact ⟨members, hd, (verify_barrier (by decide) hs hk hstages hd).1 members rfl⟩
  · obtain ⟨state, run, hs, hk, hd, hphase, -⟩ := exists_of_decidesImplement
      (show decidesImplement (recordedFailure.map .known) buildThenChecks = some none by
        decide +kernel)
    have hopen : stageOpen (recordedFailure.map .known) buildThenChecks = true := by
      decide +kernel
    unfold stageOpen at hopen
    rw [hs, Bool.and_eq_true, Option.isNone_iff_eq_none, Option.isSome_iff_exists] at hopen
    obtain ⟨hcode, active, hactive⟩ := hopen
    have hsorted : (recordedFailure.map StoredEvent.known).Pairwise (fun a b => a.seq < b.seq) := by
      decide
    obtain ⟨earlier, stage, later, hlog, -⟩ :=
      (engineStage_eq_some (projectEvents_pairwise hsorted) hk
        (cancellationsOf_reduceBuild hsorted hs) hstages).mp hactive
    exact ⟨run, stage, hd, hphase,
      (verify_barrier hsorted hs hk hstages hd).2 run rfl hphase hcode earlier stage later hlog⟩

/-! ## 5. Results and cancellations that come too late -/

instance (events : List AbEvent) (seq : Nat) : Decidable (InCycle events seq) := by
  unfold InCycle PastBoundaries
  infer_instance

/-- The log has any result of the step in the cycle. -/
def ResultNoted (events : List AbEvent) (step : String) : Prop :=
  ∃ event ∈ events, InCycle events event.seq ∧
    (memberCompleted? event.body).map (·.step) = some step

/-- The log has any cancellation of the step in the cycle. -/
def CancellationNoted (events : List AbEvent) (step : String) : Prop :=
  ∃ event ∈ events, InCycle events event.seq ∧
    (memberCancelled? event.body).map (·.step) = some step

/-- The log has any failure of the step in the cycle. -/
def FailureNoted (events : List AbEvent) (step : String) : Prop :=
  ∃ event ∈ events, InCycle events event.seq ∧ ∃ payload,
    event.body = .verify (.completed payload) ∧ payload.step = step ∧
    (normalizeVerifyCompletion payload).outcome = .fail

def isStageFailure : EventBody → Bool
  | .verify (.stageFailed _) => true
  | _ => false

instance (events : List AbEvent) (step : String) : Decidable (ResultNoted events step) := by
  unfold ResultNoted
  infer_instance

instance (events : List AbEvent) (step : String) : Decidable (CancellationNoted events step) := by
  unfold CancellationNoted
  infer_instance

/-- `unit` fails after it passed, the pass of `lint` at 10 comes after its cancellation, and the
cancellation of `types` at 11 after its outcome. -/
def laterResults : List AbEvent :=
  [kernelEvent 1 (.spec (.imported ⟨"spec", 1⟩)),
    kernelEvent 2 (.planReview (.verdict approvedReview)),
    kernelEvent 3 (verifyCancelOf "lint" 1),
    kernelEvent 4 (verifyOutcomeOf "types" 1 (.pass none)),
    kernelEvent 5 (.execution (.started ⟨"local", "workspace", "instance", none, none, none⟩)),
    kernelEvent 6 (.codeReview (.verdict approvedReview)),
    kernelEvent 7 (verifyOutcomeOf "build" 1 (.pass none)),
    kernelEvent 8 (verifyOutcomeOf "unit" 1 (.pass none)),
    kernelEvent 9 (verifyOutcomeOf "unit" 1 (.fail none)),
    kernelEvent 10 (verifyOutcomeOf "lint" 1 (.pass none)),
    kernelEvent 11 (verifyCancelOf "types" 1)]

/-- `unit` fails after it passed, and the others are cancelled. -/
def unrecordedFailure : List AbEvent :=
  approvedAndBuilt ++
    [kernelEvent 5 (verifyOutcomeOf "unit" 1 (.pass none)),
      kernelEvent 6 (verifyOutcomeOf "unit" 1 (.fail none)),
      kernelEvent 7 (verifyCancelOf "lint" 1),
      kernelEvent 8 (verifyCancelOf "types" 1),
      kernelEvent 9 (.execution (.started ⟨"local", "workspace", "instance", none, none, none⟩))]

/-- The implement round after the failure of `lint` started while the others are open. -/
def resumedRound : List AbEvent :=
  approvedAndBuilt ++
    [kernelEvent 5 (verifyOutcomeOf "lint" 1 (.fail (some ⟨"report", 1⟩))),
      kernelEvent 6 (.implement (.started ⟨2, none, none⟩))]

/-- **Only the first result of a step counts.**  The engine runs members that the log has a
result or a cancellation of in the cycle, beside a step that fails fast and failed; it sends a
stage back with a failure that is not recorded; and the code loop resumes an implement round on
the failure of a stage whose steps are open. -/
theorem not_barrier_of_later_results :
    laterResults.Pairwise (fun a b => a.seq < b.seq) ∧
    (∃ state members, reduceBuild (laterResults.map .known) = .ok state ∧
      state.kind ≠ some .node ∧
      decideNext (laterResults.map .known) buildThenChecks = .ok (.runVerifyStage members) ∧
      members.map (·.step) = ["lint", "types"]) ∧
    ResultNoted laterResults "lint" ∧ CancellationNoted laterResults "types" ∧
    failsFast buildThenChecks.verify "unit" = true ∧ FailureNoted laterResults "unit" ∧
    unrecordedFailure.Pairwise (fun a b => a.seq < b.seq) ∧
    (∃ state run, reduceBuild (unrecordedFailure.map .known) = .ok state ∧
      state.kind ≠ some .node ∧
      decideNext (unrecordedFailure.map .known) buildThenChecks = .ok (.runPhase run) ∧
      run.phase = .implement ∧ run.feedback = none) ∧
    FailureNoted unrecordedFailure "unit" ∧ ¬ResultNoted unrecordedFailure "lint" ∧
    (∀ event ∈ unrecordedFailure, isStageFailure event.body = false) ∧
    resumedRound.Pairwise (fun a b => a.seq < b.seq) ∧
    (∃ state run, reduceBuild (resumedRound.map .known) = .ok state ∧
      state.kind ≠ some .node ∧
      decideNext (resumedRound.map .known) buildThenChecks = .ok (.runPhase run) ∧
      run.phase = .implement ∧ run.feedback = some (.verify "lint" ⟨"report", 1⟩)) ∧
    ¬ResultNoted resumedRound "types" ∧ ¬CancellationNoted resumedRound "types" := by
  refine ⟨by decide, ?_, by decide, by decide, by decide, ?_, by decide, ?_, ?_, by decide,
    by decide, by decide, ?_, by decide, by decide⟩
  · exact exists_of_decidesStage (by decide +kernel)
  · exact ⟨kernelEvent 9 (verifyOutcomeOf "unit" 1 (.fail none)), by simp [laterResults],
      by decide, _, rfl, rfl, rfl⟩
  · exact exists_of_decidesImplement (by decide +kernel)
  · exact ⟨kernelEvent 6 (verifyOutcomeOf "unit" 1 (.fail none)), by simp [unrecordedFailure],
      by decide, _, rfl, rfl, rfl⟩
  · exact exists_of_decidesImplement (by decide +kernel)

end Autobuild
