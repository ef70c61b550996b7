/-
# The gate of finalization

What a log has to hold before the engine publishes: `decideNext` decides a finalize phase, or a
finalize post-step, only behind every other rule of its table.

* `Decision.finalizes` picks those decisions out; no rule before the epilogue makes one
  (`steady_of_blocked` and its kin), so all of them were silent (`BehindTheGate`).
* `FinalizeGate` is the gate in terms of the events of the log, and
  `finalizeGate_of_finalizes` that the engine keeps it.
* A `verify.cancelled` alone does not take a completion out of the count, nor does the failure
  of a cancelled member keep the gate closed (`not_finalizeGate_cancelled`).
-/
import Autobuild.Kernel.Engine
import Autobuild.Kernel.Incremental
import Autobuild.Kernel.LogFacts
import Autobuild.Kernel.MemberCancellations

namespace Autobuild

open ObjectMap Checked

/-! ## 1. Decisions that finalize -/

/-- Run the finalize phase, or one of its post-steps. -/
def Decision.finalizes : Decision → Prop
  | .runPhase run => run.phase = .finalize
  | .runFinalizeStep _ _ => True
  | _ => False

theorem finalizes_attachReceipt (state : EngineFacts) (log : LogIndex) (config : Config)
    (decision : Decision) :
    (attachReceipt state log config decision).finalizes ↔ decision.finalizes := by
  unfold attachReceipt
  split
  · split
    · split <;> exact Iff.rfl
    · exact Iff.rfl
  · exact Iff.rfl

/-- A decision that neither finalizes nor acknowledges. -/
def Decision.plain : Decision → Prop
  | .runPhase run => run.phase ≠ .finalize
  | .runFinalizeStep _ _ => False
  | .acknowledge _ => False
  | _ => True

/-- A plain decision that raises nothing. -/
def Decision.steady : Decision → Prop
  | .raiseEscalation _ => False
  | decision => decision.plain

theorem Decision.steady.plain {decision : Decision} (h : decision.steady) : decision.plain := by
  unfold Decision.steady at h
  split at h
  · exact absurd h id
  · exact h

theorem Decision.plain.not_finalizes {decision : Decision} (h : decision.plain) :
    ¬decision.finalizes := by
  unfold Decision.plain at h
  split at h
  · exact h
  · exact absurd h id
  · exact absurd h id
  · unfold Decision.finalizes
    split <;> simp_all

section Rules

variable {state : EngineFacts} {log : LogIndex} {config : Config} {stage : Option ActiveStage}
  {decision : Decision}

theorem not_finalizes_of_command (h : commandDecision state log = some decision) :
    ¬decision.finalizes := by
  unfold commandDecision at h
  split_ifs at h <;> cases h <;> exact id

theorem steady_of_blocked (h : blockedDecision state log stage = some decision) :
    decision.steady := by
  unfold blockedDecision at h
  split_ifs at h
  · cases h
    exact trivial
  · cases h
    exact trivial
  · obtain ⟨deferral, -, rfl⟩ := Option.map_eq_some_iff.mp h
    exact trivial

theorem steady_runReconcile (attempt : Nat) : (runReconcile attempt).steady :=
  show CorePhase.reconcile ≠ .finalize by decide

theorem steady_of_nodeStage {cycle : WithSeq IntegrationPrepared}
    (h : nodeStageDecision state log cycle stage = some decision) : decision.steady := by
  have hsettled : ∀ stage, nodeStageDecision.settled state log cycle stage = some decision →
      decision.steady := by
    intro stage h
    unfold nodeStageDecision.settled at h
    split_ifs at h <;> cases h <;> exact trivial
  unfold nodeStageDecision at h
  split at h
  · exact absurd h nofun
  · split at h
    · split_ifs at h
      · cases h
        exact trivial
      · exact hsettled _ h
    · exact hsettled _ h

theorem steady_of_nodeVerify {cycle : WithSeq IntegrationPrepared}
    (h : nodeVerify state log config cycle stage = .ok decision) : decision.steady := by
  unfold nodeVerify at h
  split at h
  · obtain ⟨members, -, h⟩ := bind_eq_ok.mp h
    rw [← Except.ok.inj h]
    split <;> exact trivial
  · split at h
    · cases h
      exact trivial
    · obtain ⟨member, -, h⟩ := bind_eq_ok.mp h
      cases h
      exact trivial

/-- A node is published by its own writers. -/
theorem steady_of_node (h : decideNode state log config stage = .ok decision) :
    decision.steady := by
  unfold decideNode at h
  split at h
  · cases h
    exact steady_runReconcile _
  · split at h
    · cases h
      exact trivial
    · split_ifs at h
      · cases h
        exact trivial
      · cases h
        exact trivial
      · split at h
        · rename_i hd
          cases h
          exact steady_of_nodeStage hd
        · exact steady_of_nodeVerify h

theorem steady_of_spec (h : specDecision state log = some decision) :
    decision.steady := by
  unfold specDecision staleReconcile at h
  split_ifs at h
  · cases h
    exact trivial
  · cases h
    exact trivial
  · split at h
    · exact absurd h nofun
    · split_ifs at h
      cases h
      exact steady_runReconcile _

/-- A loop runs one of its two phases, or raises. -/
theorem decideLoop_cases {args : LoopArgs} (h : decideLoop args = some decision) :
    (∃ run, decision = .runPhase run ∧
      (run.phase = args.producer ∨ run.phase = args.reviewer)) ∨
    ∃ escalation, decision = .raiseEscalation escalation := by
  have hproducer : ∀ round, ∃ run, args.runProducer round = .runPhase run ∧
      (run.phase = args.producer ∨ run.phase = args.reviewer) :=
    fun _ => ⟨_, rfl, Or.inl rfl⟩
  have hrevise : ∀ verdict, (∃ run, args.decideRevise verdict = .runPhase run ∧
        (run.phase = args.producer ∨ run.phase = args.reviewer)) ∨
      ∃ escalation, args.decideRevise verdict = .raiseEscalation escalation := by
    intro verdict
    unfold LoopArgs.decideRevise
    dsimp only
    split
    · exact Or.inr ⟨_, rfl⟩
    · split
      · exact Or.inr ⟨_, rfl⟩
      · exact Or.inl (hproducer _)
  unfold decideLoop at h
  split at h
  · cases h
    exact Or.inl (hproducer _)
  · split at h
    · cases h
      exact Or.inl (hproducer _)
    · split at h
      · unfold LoopArgs.decideVerdict at h
        split at h
        · cases h
        · split_ifs at h
          · cases h
            exact Or.inl (hproducer _)
          · cases h
            exact Or.inr ⟨_, rfl⟩
        · cases h
          exact hrevise _
      · split_ifs at h
        · cases h
          exact Or.inl ⟨_, rfl, Or.inr rfl⟩
        · cases h
          exact Or.inl (hproducer _)

theorem plain_of_loop {args : LoopArgs} (hp : args.producer ≠ .finalize)
    (hr : args.reviewer ≠ .finalize) (h : decideLoop args = some decision) :
    decision.plain := by
  rcases decideLoop_cases h with ⟨run, rfl, hrun⟩ | ⟨escalation, rfl⟩
  · rcases hrun with hrun | hrun
    · exact fun hf => hp (hrun.symm.trans hf)
    · exact fun hf => hr (hrun.symm.trans hf)
  · exact trivial

theorem plain_of_verify (h : verifyDecision state log config stage = some decision) :
    decision.plain := by
  unfold verifyDecision at h
  rcases Option.or_eq_some_iff.mp h with h | ⟨-, h⟩
  · have hrecord : ∀ stage, recordFailure state log stage = some decision →
        decision.plain := by
      intro stage h
      unfold recordFailure at h
      split at h
      · exact absurd h nofun
      · split_ifs at h
        cases h
        exact trivial
    unfold stageDecision at h
    split at h
    · exact absurd h nofun
    · split at h
      · split_ifs at h
        · cases h
          exact trivial
        · exact hrecord _ h
      · exact hrecord _ h
  rcases Option.or_eq_some_iff.mp h with h | ⟨-, h⟩
  · unfold exhaustedDecision at h
    split at h
    · exact absurd h nofun
    · split_ifs at h
      cases h
      exact trivial
  rcases Option.or_eq_some_iff.mp h with h | ⟨-, h⟩
  · unfold failRouteDecision at h
    split_ifs at h
    cases h
    exact show CorePhase.implement ≠ .finalize by decide
  rcases Option.or_eq_some_iff.mp h with h | ⟨-, h⟩
  · unfold restackDecision at h
    split at h
    · split_ifs at h
      · cases h
        exact (steady_runReconcile _).plain
      · cases h
        exact trivial
    · split_ifs at h
      cases h
      exact trivial
  rcases Option.or_eq_some_iff.mp h with h | ⟨-, h⟩
  · unfold capturePolicyDecision at h
    split_ifs at h
    cases h
    exact trivial
  rcases Option.or_eq_some_iff.mp h with h | ⟨-, h⟩
  · unfold driftDecision at h
    split at h
    · exact absurd h nofun
    · dsimp only at h
      split_ifs at h
      cases h
      exact trivial
  · unfold membersDecision at h
    split at h
    · cases h
      split <;> exact trivial
    · obtain ⟨member, -, rfl⟩ := Option.map_eq_some_iff.mp h
      exact trivial

/-- Every rule before the epilogue is silent. -/
structure BehindTheGate (state : EngineFacts) (log : LogIndex) (config : Config) : Prop where
  command : commandDecision state log = none
  blocked : blockedDecision state log (engineStage state log config) = none
  plan : decideLoop (planLoopArgs state log config) = none
  code : decideLoop (codeLoopArgs state log config) = none
  verify : verifyDecision state log config (engineStage state log config) = none

/-- A rule that never decides so was passed over. -/
theorem of_or_getD {decides : Decision → Prop} {first rest : Option Decision} {last : Decision}
    (hfirst : ∀ d, first = some d → ¬decides d) (h : decides ((first.or rest).getD last)) :
    first = none ∧ decides (rest.getD last) := by
  cases first with
  | none => exact ⟨rfl, h⟩
  | some d => exact absurd h (hfirst d rfl)

theorem behindTheGate_of_finalizes (h : decideNextInternal state log config = .ok decision)
    (hf : decision.finalizes) : BehindTheGate state log config := by
  unfold decideNextInternal at h
  dsimp only at h
  split at h
  · rename_i first hfirst
    cases h
    rcases Option.or_eq_some_iff.mp hfirst with hc | ⟨-, hb⟩
    · exact absurd hf (not_finalizes_of_command hc)
    · exact absurd hf (steady_of_blocked hb).plain.not_finalizes
  · rename_i hnone
    obtain ⟨hc, hb⟩ := Option.or_eq_none_iff.mp hnone
    split_ifs at h with hk
    · exact absurd hf (steady_of_node h).plain.not_finalizes
    · rw [← Except.ok.inj h] at hf
      obtain ⟨-, hf⟩ := of_or_getD (fun d hd => (steady_of_spec hd).plain.not_finalizes) hf
      obtain ⟨hp, hf⟩ := of_or_getD (fun d hd => (plain_of_loop
        (show CorePhase.plan ≠ .finalize by decide)
        (show CorePhase.planReview ≠ .finalize by decide) hd).not_finalizes) hf
      obtain ⟨hd, hf⟩ := of_or_getD (fun d hd => (plain_of_loop
        (show CorePhase.implement ≠ .finalize by decide)
        (show CorePhase.codeReview ≠ .finalize by decide) hd).not_finalizes) hf
      have hv : verifyDecision state log config (engineStage state log config) = none := by
        cases hv : verifyDecision state log config (engineStage state log config) with
        | none => rfl
        | some d =>
          rw [hv] at hf
          exact absurd hf (plain_of_verify hv).not_finalizes
      exact ⟨hc, hb, hp, hd, hv⟩

/-! ## 2. What the silent rules say -/

theorem of_commandDecision_none (h : commandDecision state log = none) :
    state.status ≠ .aborted ∧ state.status ≠ .done ∧ state.status ≠ .paused ∧
      state.requests .abort = false ∧ state.requests .pause = false := by
  unfold commandDecision at h
  split_ifs at h with _ ha hd hb hp hr hq hq'
  simp_all

/-- An approved loop: the record of its highest round has an approve. -/
theorem of_decideLoop_none {args : LoopArgs} (h : decideLoop args = none) :
    ∃ verdict, (args.loop.rounds.get? ⟨args.loop.maxRound⟩).bind (·.verdict) = some verdict ∧
      verdict.verdict = .approve := by
  unfold decideLoop at h
  split_ifs at h with hm
  split at h
  · exact absurd h nofun
  · rename_i record hr
    split at h
    · rename_i verdict hv
      refine ⟨verdict, by rw [hr]; exact hv, ?_⟩
      unfold LoopArgs.decideVerdict at h
      split at h
      · assumption
      · split_ifs at h
      · exact absurd h nofun
    · split_ifs at h

/-- Verification is silent: no stage is in progress, no replay is active, no failure is
pending and every step is satisfied. -/
theorem of_verifyDecision_none (h : verifyDecision state log config stage = none) :
    stage = none ∧ log.restack.active = none ∧ log.pendingFail = none ∧
      ∀ step ∈ config.verify.steps, config.verify.stepConfigs.get? step ≠ none →
        log.satisfied step = true := by
  unfold verifyDecision at h
  obtain ⟨-, h⟩ := Option.or_eq_none_iff.mp h
  obtain ⟨-, h⟩ := Option.or_eq_none_iff.mp h
  obtain ⟨hroute, h⟩ := Option.or_eq_none_iff.mp h
  obtain ⟨hrestack, h⟩ := Option.or_eq_none_iff.mp h
  obtain ⟨-, h⟩ := Option.or_eq_none_iff.mp h
  obtain ⟨-, h⟩ := Option.or_eq_none_iff.mp h
  have hstage : stage = none := by
    unfold membersDecision at h
    split at h
    · exact absurd h nofun
    · rfl
  subst hstage
  refine ⟨rfl, ?_, ?_, ?_⟩
  · unfold restackDecision at hrestack
    split at hrestack
    · split_ifs at hrestack
    · assumption
  · unfold failRouteDecision at hroute
    split_ifs at hroute with hp
    by_contra hne
    exact hp ⟨Option.isSome_iff_ne_none.mpr hne, rfl⟩
  · intro step hstep hconfig
    have hm := List.findSome?_eq_none_iff.mp (Option.map_eq_none_iff.mp h) step hstep
    unfold memberDecision at hm
    split_ifs at hm with hs
    · exact hs
    · split at hm
      · exact absurd ‹_› hconfig
      · dsimp only at hm
        split at hm
        · exact absurd hm nofun
        · split at hm <;> exact absurd hm nofun

/-- Without a stage no open escalation is tolerated. -/
theorem of_blockedDecision_none (h : blockedDecision state log none = none) :
    state.openEscalations = [] := by
  unfold blockedDecision at h
  split_ifs at h with ha
  by_contra hne
  obtain ⟨e, he⟩ := List.exists_mem_of_ne_nil _ hne
  exact ha (List.any_eq_true.mpr ⟨e, he, rfl⟩)

end Rules

/-! ## 3. The gate in terms of the log -/

section Gate

variable (events : List AbEvent)

/-- Since the last revision the highest round of the loop was approved, and the approval is the
latest verdict of the round. -/
def ApprovedSince (loop : LoopName) : Prop :=
  ∃ event ∈ events, ∃ payload, lastRevised events < event.seq ∧
    loop.verdict? event.body = some payload ∧ payload.verdict = .approve ∧
    (∀ other ∈ events, lastRevised events < other.seq → ∀ round,
      loop.round? other.body = some round → round ≤ payload.round) ∧
    ∀ other ∈ events, lastRevised events < other.seq → ∀ verdict,
      loop.verdict? other.body = some verdict → verdict.round = payload.round →
      other.seq ≤ event.seq

/-- Later than every code approval, reconcile completion and configuration boundary since the
last revision. -/
def PastBoundaries (seq : Nat) : Prop :=
  ∀ event ∈ events, lastRevised events < event.seq → opensCycle event.body = true →
    event.seq < seq

variable (ignored : MemberKey → Nat → Prop)

/-- The step passed or was skipped past the boundaries, in a completion not ignored. -/
def StepVerified (step : String) : Prop :=
  ∃ event ∈ events, ∃ payload, event.body = .verify (.completed payload) ∧
    payload.step = step ∧ (normalizeVerifyCompletion payload).outcome.satisfies = true ∧
    PastBoundaries events event.seq ∧
    ¬ignored (verifyMemberKey payload.step payload.attempt) event.seq

/-- An implement round completed since every failure past the boundaries that is not ignored. -/
def FailuresAnswered : Prop :=
  ∀ event ∈ events, ∀ payload, event.body = .verify (.completed payload) →
    (normalizeVerifyCompletion payload).outcome = .fail → PastBoundaries events event.seq →
    ¬ignored (verifyMemberKey payload.step payload.attempt) event.seq →
    ∃ other ∈ events, ∃ done, other.body = .implement (.completed done) ∧
      lastRevised events < other.seq ∧ event.seq ≤ other.seq

end Gate

/-- What a log holds when the engine finalizes it.  `ignoredPass` and `ignoredFail` are the
completions that do not count. -/
structure FinalizeGate (events : List AbEvent) (state : BuildState) (config : Config)
    (ignoredPass ignoredFail : MemberKey → Nat → Prop) : Prop where
  notTerminal : state.status ≠ .done ∧ state.status ≠ .aborted
  notPaused : state.status ≠ .paused
  noCommand : ∀ pending ∈ state.pendingCommands,
    pending.command ≠ .pause ∧ pending.command ≠ .abort
  noEscalation : state.openEscalations = []
  noRestack : (indexLog events).restack.active = none
  plan : ApprovedSince events .plan
  code : ApprovedSince events .code
  verified : ∀ step ∈ config.verify.steps, config.verify.stepConfigs.get? step ≠ none →
    StepVerified events ignoredPass step
  answered : FailuresAnswered events ignoredFail

/-! ## 4. The boundaries of the index -/

section Boundaries

variable {events : List AbEvent}

theorem mem_fresh_of_event {event : AbEvent} (he : event ∈ events)
    (hs : lastRevised events < event.seq) {c : LogIndexCandidate}
    (hc : c ∈ candidatesOf event.seq event.body) : c ∈ fresh events := by
  refine mem_candidatesSince.mpr ⟨?_, event, he, hc⟩
  rwa [seq_of_mem_candidatesOf hc]

/-- A candidate since the restart comes from an event since the restart. -/
theorem event_of_mem_fresh {c : LogIndexCandidate} (hc : c ∈ fresh events) :
    ∃ event ∈ events, lastRevised events < event.seq ∧ c.seq = event.seq ∧
      c ∈ candidatesOf event.seq event.body := by
  obtain ⟨hlt, event, he, hm⟩ := mem_candidatesSince.mp hc
  have hs := seq_of_mem_candidatesOf hm
  exact ⟨event, he, hs ▸ hlt, hs, hm⟩

theorem fresh_pairwise (hp : events.Pairwise (fun a b => a.seq < b.seq)) :
    (fresh events).Pairwise (fun c d => c.seq ≤ d.seq) := candidatesSince_pairwise hp _

theorem seq_of_reconciled {c : LogIndexCandidate} {s : Nat} (h : c.reconciled? = some s) :
    s = c.seq := by
  unfold LogIndexCandidate.reconciled? at h
  split at h <;> cases h
  rfl

theorem seq_of_reconfigured {c : LogIndexCandidate} {s : Nat} (h : c.reconfigured? = some s) :
    s = c.seq := by
  unfold LogIndexCandidate.reconfigured? at h
  split at h <;> cases h
  rfl

theorem seq_of_implemented {c : LogIndexCandidate} {s : Nat} (h : c.implemented? = some s) :
    s = c.seq := by
  unfold LogIndexCandidate.implemented? at h
  split at h <;> cases h
  rfl

/-- An event that opens a cycle is at most at the boundary. -/
theorem le_cycleBoundary (hp : events.Pairwise (fun a b => a.seq < b.seq)) {event : AbEvent}
    (he : event ∈ events) (hs : lastRevised events < event.seq)
    (ho : opensCycle event.body = true) : event.seq ≤ (indexLog events).cycleBoundary := by
  have hf := fresh_pairwise hp
  obtain ⟨-, hr, -, hb, -⟩ := indexLog_fields events
  unfold LogIndex.cycleBoundary LogIndex.replayBoundary
  rcases (opensCycle_iff event.seq).mp ho with ⟨payload, hc, ha⟩ | ⟨c, hc, hk⟩ | ⟨c, hc, hk⟩
  · obtain ⟨maxRoundEver, hl⟩ := indexLog_loop events .code
    have hle := le_latestApproveSeq .code maxRoundEver hf (mem_fresh_of_event he hs hc) ha
    rw [← hl] at hle
    exact hle.trans ((le_max_left _ _).trans (le_max_left _ _))
  · have hle := le_latestOf (fun _ _ => seq_of_reconciled) hf (mem_fresh_of_event he hs hc) hk
    rw [← hr] at hle
    exact hle.trans ((le_max_right _ _).trans (le_max_left _ _))
  · exact (hb c (mem_fresh_of_event he hs hc) _ hk).trans (le_max_right _ _)

/-- The boundary is the seq of an event that opens a cycle, or 0. -/
theorem cycleBoundary_mem (events : List AbEvent) (h : (indexLog events).cycleBoundary ≠ 0) :
    ∃ event ∈ events, lastRevised events < event.seq ∧
      event.seq = (indexLog events).cycleBoundary ∧ opensCycle event.body = true := by
  obtain ⟨-, hr, -, -, hb⟩ := indexLog_fields events
  obtain ⟨maxRoundEver, hl⟩ := indexLog_loop events .code
  unfold LogIndex.cycleBoundary LogIndex.replayBoundary at h ⊢
  rcases max_choice (max (indexLog events).code.latestApproveSeq
    (indexLog events).lastReconcileCompletedSeq) (indexLog events).verifyConfigBoundary with hm | hm
  · rw [hm] at h ⊢
    rcases max_choice (indexLog events).code.latestApproveSeq
      (indexLog events).lastReconcileCompletedSeq with hm | hm
    · rw [hm] at h ⊢
      have hcode : (indexLog events).code = loopAfter .code maxRoundEver (fresh events) := hl
      rw [hcode] at h ⊢
      obtain ⟨payload, hc, ha⟩ := latestApproveSeq_mem .code maxRoundEver h
      obtain ⟨event, he, hs, hq, hc⟩ := event_of_mem_fresh hc
      have hq' := (verdict_mem_candidatesOf.mp hc).1
      rw [hq'] at hc ⊢
      exact ⟨event, he, hs, rfl, (opensCycle_iff event.seq).mpr (Or.inl ⟨payload, hc, ha⟩)⟩
    · rw [hm] at h ⊢
      rw [hr] at h ⊢
      obtain ⟨c, hc, hk⟩ := latestOf_mem h
      obtain ⟨event, he, hs, hq, hc⟩ := event_of_mem_fresh hc
      have hq' := (seq_of_reconciled hk).trans hq
      rw [hq'] at hk ⊢
      exact ⟨event, he, hs, rfl, (opensCycle_iff event.seq).mpr (Or.inr (Or.inl ⟨c, hc, hk⟩))⟩
  · rw [hm] at h ⊢
    obtain ⟨c, hc, hk⟩ := hb h
    obtain ⟨event, he, hs, hq, hc⟩ := event_of_mem_fresh hc
    have hq' := (seq_of_reconfigured hk).trans hq
    rw [hq'] at hk ⊢
    exact ⟨event, he, hs, rfl, (opensCycle_iff event.seq).mpr (Or.inr (Or.inr ⟨c, hc, hk⟩))⟩

/-- A loop whose decision is silent was approved since the last revision. -/
theorem approvedSince_of_silent (hp : events.Pairwise (fun a b => a.seq < b.seq))
    {name : LoopName} {verdict : VerdictRecord}
    (hv : (((indexLog events).loop name).rounds.get?
      ⟨((indexLog events).loop name).maxRound⟩).bind (·.verdict) = some verdict)
    (ha : verdict.verdict = .approve) : ApprovedSince events name := by
  obtain ⟨maxRoundEver, hl⟩ := indexLog_loop events name
  rw [hl] at hv
  obtain ⟨seq, payload, hm, hr, hve, hlatest⟩ :=
    verdict_of_rounds name maxRoundEver (fresh_pairwise hp) hv
  obtain ⟨event, he, hs, hq, hc⟩ := event_of_mem_fresh hm
  obtain ⟨hseq, hbody⟩ := verdict_mem_candidatesOf.mp hc
  refine ⟨event, he, payload, hs, hbody, by rw [hve] at ha; exact ha, ?_, ?_⟩
  · intro other ho hso round hround
    obtain ⟨c, hcm, hcr⟩ := exists_candidate_of_round other.seq hround
    rw [hr]
    exact le_maxRound name maxRoundEver (mem_fresh_of_event ho hso hcm) hcr
  · intro other ho hso verdict' hverdict hround
    rw [← hseq]
    exact hlatest other.seq verdict'
      (mem_fresh_of_event ho hso (verdict_mem_candidatesOf.mpr ⟨rfl, hverdict⟩))
      (hround.trans hr)

/-- The completions come in the order of the log. -/
theorem verifyCompleted_pairwise (hp : events.Pairwise (fun a b => a.seq < b.seq)) :
    (indexLog events).verifyCompleted.Pairwise (fun a b => a.seq ≤ b.seq) := by
  rw [(indexLog_fields events).1]
  refine (fresh_pairwise hp).filterMap _ ?_
  intro c d hcd r hr t ht
  unfold LogIndexCandidate.completion? at hr ht
  split at hr <;> cases hr
  split at ht <;> cases ht
  exact hcd

/-- The completions of the index are those of the log since the last revision. -/
theorem mem_verifyCompleted {record : VerifyRecord} :
    record ∈ (indexLog events).verifyCompleted ↔
      ∃ event ∈ events, lastRevised events < event.seq ∧ ∃ payload,
        event.body = .verify (.completed payload) ∧
        record = ⟨normalizeVerifyCompletion payload, event.seq⟩ := by
  rw [(indexLog_fields events).1, List.mem_filterMap]
  constructor
  · intro h
    obtain ⟨c, hc, hk⟩ := h
    unfold LogIndexCandidate.completion? at hk
    split at hk <;> cases hk
    obtain ⟨event, he, hs, -, hc⟩ := event_of_mem_fresh hc
    exact ⟨event, he, hs, completion_mem_candidatesOf.mp hc⟩
  · intro h
    obtain ⟨event, he, hs, payload, hb, hr⟩ := h
    exact ⟨.verifyCompleted record,
      mem_fresh_of_event he hs (completion_mem_candidatesOf.mpr ⟨payload, hb, hr⟩), rfl⟩

/-- The last implement completion is one of the log. -/
theorem lastImplementCompletedSeq_mem (events : List AbEvent)
    (h : (indexLog events).lastImplementCompletedSeq ≠ 0) :
    ∃ event ∈ events, ∃ done, event.body = .implement (.completed done) ∧
      lastRevised events < event.seq ∧
      event.seq = (indexLog events).lastImplementCompletedSeq := by
  obtain ⟨-, -, hi, -⟩ := indexLog_fields events
  rw [hi] at h ⊢
  obtain ⟨c, hc, hk⟩ := latestOf_mem h
  obtain ⟨event, he, hs, hq, hc⟩ := event_of_mem_fresh hc
  have hseq := (seq_of_implemented hk).trans hq
  unfold LogIndexCandidate.implemented? at hk
  split at hk <;> cases hk
  refine ⟨event, he, ?_⟩
  unfold candidatesOf at hc
  split at hc <;> simp at hc
  rename_i done hb
  exact ⟨done, hb, hs, hseq.symm⟩

end Boundaries

/-! ## 5. The engine keeps the gate -/

/-- The verify stage of a reduced state is that of its log, superseded escalations apart. -/
theorem stage_reduceBuild {events : List StoredEvent}
    (hp : events.Pairwise (fun a b => a.seq < b.seq)) {state : BuildState}
    (h : reduceBuild events = .ok state) :
    state.verifyStage.plain
      = (projectEvents events).foldl advanceVerifyStage initialVerifyStageState := by
  unfold reduceBuild foldBuild at h
  obtain ⟨acc, hacc, h⟩ := bind_eq_ok.mp h
  obtain ⟨raw, hraw, hset⟩ := bind_eq_ok.mp hacc
  have hstage : state.verifyStage = raw.verifyStage := by
    rw [← Except.ok.inj h, ← Except.ok.inj hset, settle_eq]
    rfl
  have ht := (foldEvents_tracks hp hraw).stage
  unfold trackPhase at ht
  rw [hstage]
  rwa [foldl_advance_stage] at ht

/-- The cancellations of a reduced state are those of its log. -/
theorem cancellationsOf_reduceBuild {events : List StoredEvent}
    (hp : events.Pairwise (fun a b => a.seq < b.seq)) {state : BuildState}
    (h : reduceBuild events = .ok state) :
    CancellationsOf (projectEvents events) state.verifyStage := by
  have hc := cancellationsOf_foldl (projectEvents_pairwise hp)
  rw [← stage_reduceBuild hp h] at hc
  exact ⟨hc.outcome, hc.completed, hc.effective, hc.cancelled⟩

/-- **The engine finalizes behind the gate only.**  Of the completions those of a member that
was cancelled before do not count, passes and failures alike. -/
theorem finalizeGate_of_finalizes {events : List StoredEvent} {config : Config}
    {decision : Decision} (hp : events.Pairwise (fun a b => a.seq < b.seq))
    (h : decideNext events config = .ok decision) (hf : decision.finalizes) :
    ∃ state, reduceBuild events = .ok state ∧
      FinalizeGate (projectEvents events) state config
        (CancelledBefore (projectEvents events)) (CancelledBefore (projectEvents events)) := by
  unfold decideNext at h
  obtain ⟨state, hstate, h⟩ := bind_eq_ok.mp h
  refine ⟨state, hstate, ?_⟩
  have hpe := projectEvents_pairwise hp
  have hcan := cancellationsOf_reduceBuild hp hstate
  generalize projectEvents events = log at h hpe hcan ⊢
  unfold decideNextFromFacts at h
  dsimp only at h
  obtain ⟨inner, hinner, rfl⟩ := map_eq_ok.mp h
  have hg := behindTheGate_of_finalizes hinner ((finalizes_attachReceipt _ _ _ _).mp hf)
  obtain ⟨haborted, hdone, hpaused, habort, hpause⟩ := of_commandDecision_none hg.command
  obtain ⟨hstage, hrestack, hpending, hsteps⟩ := of_verifyDecision_none hg.verify
  have hblocked := hg.blocked
  rw [hstage] at hblocked
  obtain ⟨planVerdict, hpv, hpa⟩ := of_decideLoop_none hg.plan
  obtain ⟨codeVerdict, hcv, hca⟩ := of_decideLoop_none hg.code
  have hcode : ApprovedSince log .code := approvedSince_of_silent hpe hcv hca
  have hkept : ∀ event ∈ log, ∀ payload, event.body = .verify (.completed payload) →
      (state.verifyStage.keeps (verifyMemberKey payload.step payload.attempt) event.seq = true ↔
        ¬CancelledBefore log (verifyMemberKey payload.step payload.attempt) event.seq) := by
    intro event he payload hb
    exact kept_iff hpe hcan he (by rw [hb]; rfl)
  have hmem : ∀ record, record ∈ (effectiveCompletions state.engineFacts
      (indexLog log)).verifyCompleted ↔ record ∈ (indexLog log).verifyCompleted ∧
        state.verifyStage.keeps (verifyMemberKey record.step record.attempt) record.seq = true := by
    intro record
    exact List.mem_filter
  refine
    { notTerminal := ⟨hdone, haborted⟩
      notPaused := hpaused
      noCommand := ?_
      noEscalation := of_blockedDecision_none hblocked
      noRestack := hrestack
      plan := approvedSince_of_silent hpe hpv hpa
      code := hcode
      verified := ?_
      answered := ?_ }
  · intro pending hm
    unfold EngineFacts.requests at habort hpause
    rw [List.any_eq_false] at habort hpause
    exact ⟨by simpa using hpause pending hm, by simpa using habort pending hm⟩
  · intro step hstep hconfig
    have hs := hsteps step hstep hconfig
    unfold LogIndex.satisfied LogIndex.cycleResults at hs
    obtain ⟨record, hr, hok⟩ := List.any_eq_true.mp hs
    obtain ⟨hr, hpast⟩ := List.mem_filter.mp hr
    have hpast : (indexLog log).cycleBoundary < record.seq := of_decide_eq_true hpast
    obtain ⟨hr, hk⟩ := (hmem record).mp hr
    obtain ⟨event, he, hsince, payload, hb, rfl⟩ := mem_verifyCompleted.mp hr
    simp only [Bool.and_eq_true, decide_eq_true_iff] at hok
    rw [normalizeVerifyCompletion_step, normalizeVerifyCompletion_attempt] at hk
    rw [normalizeVerifyCompletion_step] at hok
    refine ⟨event, he, payload, hb, hok.1, hok.2, ?_, (hkept event he payload hb).mp hk⟩
    exact fun other ho hso hopens => (le_cycleBoundary hpe ho hso hopens).trans_lt hpast
  · intro event he payload hb hfail hpast hnot
    obtain ⟨approval, hae, verdict, has, hav, haa, -⟩ := hcode
    have hopens : opensCycle approval.body = true :=
      (opensCycle_iff approval.seq).mpr
        (Or.inl ⟨verdict, verdict_mem_candidatesOf.mpr ⟨rfl, hav⟩, haa⟩)
    have hlate := hpast approval hae has hopens
    have hcycle : (indexLog log).cycleBoundary < event.seq := by
      by_contra hle
      obtain ⟨other, ho, hso, hoq, hoo⟩ := cycleBoundary_mem log (by omega)
      have hlt := hpast other ho hso hoo
      omega
    set record : VerifyRecord := ⟨normalizeVerifyCompletion payload, event.seq⟩ with hrecord
    have hrm : record ∈
        (effectiveCompletions state.engineFacts (indexLog log)).verifyCompleted := by
      refine (hmem record).mpr
        ⟨mem_verifyCompleted.mpr ⟨event, he, by omega, payload, hb, rfl⟩, ?_⟩
      rw [hrecord, normalizeVerifyCompletion_step, normalizeVerifyCompletion_attempt]
      exact (hkept event he payload hb).mpr hnot
    set fails := ((effectiveCompletions state.engineFacts (indexLog log)).cycleResults.filter
      (·.outcome = .fail)) with hfails
    have hrf : record ∈ fails :=
      List.mem_filter.mpr ⟨List.mem_filter.mpr ⟨hrm, decide_eq_true hcycle⟩, decide_eq_true hfail⟩
    have hsorted : fails.Pairwise (fun a b => a.seq ≤ b.seq) :=
      (((verifyCompleted_pairwise hpe).filter _).filter _).filter _
    unfold LogIndex.pendingFail at hpending
    have hne : fails ≠ [] := List.ne_nil_of_mem hrf
    rw [← hfails, List.getLast?_eq_some_getLast hne] at hpending
    have hlast : (fails.getLast hne).seq ≤ (indexLog log).lastImplementCompletedSeq := by
      by_contra hgt
      have hgt : (fails.getLast hne).seq
          > (effectiveCompletions state.engineFacts (indexLog log)).lastImplementCompletedSeq :=
        Nat.lt_of_not_le hgt
      simp [Option.filter, hgt] at hpending
    have hle : record.seq ≤ (fails.getLast hne).seq :=
      hsorted.rel_getLast hrf
    have hge : event.seq ≤ (indexLog log).lastImplementCompletedSeq := hle.trans hlast
    obtain ⟨other, ho, done, hd, hso, hoq⟩ :=
      lastImplementCompletedSeq_mem log (by omega)
    exact ⟨other, ho, done, hd, hso, by omega⟩

/-! ## 6. Cancellations that come too late, failures that do not count -/

instance (decision : Decision) : Decidable decision.finalizes := by
  unfold Decision.finalizes
  split <;> infer_instance

/-- The decision of a log is to finalize. -/
def decidesToFinalize (events : List StoredEvent) (config : Config) : Bool :=
  ((decideNext events config).toOption.map fun decision => decide decision.finalizes).getD false

theorem exists_of_decidesToFinalize {events : List StoredEvent} {config : Config}
    (h : decidesToFinalize events config = true) :
    ∃ decision, decideNext events config = .ok decision ∧ decision.finalizes := by
  unfold decidesToFinalize at h
  cases hd : decideNext events config with
  | error message =>
    rw [hd] at h
    exact absurd h nofun
  | ok decision =>
    rw [hd] at h
    exact ⟨decision, rfl, of_decide_eq_true h⟩

/-- Two check steps, one after the other. -/
def unitAndLint : Config where
  commands := ∅
  verify :=
    { afterReconcile := false
      steps := ["unit", "lint"]
      stages := none
      stepConfigs := ((∅ : ObjectMap String VerifyStepConfig).set "unit"
        ⟨.check "unit", none, none, none, none⟩).set "lint"
          ⟨.check "lint", none, none, none, none⟩ }
  finalize := ⟨[], ∅⟩
  policy := ⟨2, 5, 2, 4⟩

def kernelEvent (seq : Nat) (body : EventBody) : AbEvent := ⟨seq, 0, .kernel, body⟩

def verifyOutcomeOf (step : String) (attempt : Nat) (result : VerifyResultShape) : EventBody :=
  .verify (.completed ⟨none, none, none, step, attempt, result⟩)

def verifyCancelOf (step : String) (attempt : Nat) : EventBody :=
  .verify (.cancelled ⟨none, none, none, step, attempt, "unit"⟩)

def approvedReview : ReviewVerdict := ⟨1, .approve, [], ⟨"review", 1⟩, none⟩

/-- The cancellation of `lint` at 4 comes after its outcome; the failure of `unit` at 9 after
its cancellation. -/
def lateCancellations : List AbEvent :=
  [kernelEvent 1 (.spec (.imported ⟨"spec", 1⟩)),
    kernelEvent 2 (.planReview (.verdict approvedReview)),
    kernelEvent 3 (verifyOutcomeOf "lint" 1 (.pass none)),
    kernelEvent 4 (verifyCancelOf "lint" 1),
    kernelEvent 5 (.codeReview (.verdict approvedReview)),
    kernelEvent 6 (verifyOutcomeOf "lint" 1 (.pass none)),
    kernelEvent 7 (verifyCancelOf "unit" 2),
    kernelEvent 8 (.execution (.started ⟨"local", "workspace", "instance", none, none, none⟩)),
    kernelEvent 9 (verifyOutcomeOf "unit" 2 (.fail none)),
    kernelEvent 10 (verifyOutcomeOf "unit" 3 (.pass none))]

theorem finalizeGate_of_finalizes_lateCancellations :
    ∃ decision state, decideNext (lateCancellations.map .known) unitAndLint = .ok decision ∧
      decision.finalizes ∧ reduceBuild (lateCancellations.map .known) = .ok state ∧
      FinalizeGate (projectEvents (lateCancellations.map .known)) state unitAndLint
        (CancelledBefore (projectEvents (lateCancellations.map .known)))
        (CancelledBefore (projectEvents (lateCancellations.map .known))) := by
  obtain ⟨decision, hd, hf⟩ := exists_of_decidesToFinalize
    (show decidesToFinalize (lateCancellations.map .known) unitAndLint = true by decide +kernel)
  obtain ⟨state, hs, hg⟩ := finalizeGate_of_finalizes (by decide) hd hf
  exact ⟨decision, state, hd, hf, hs, hg⟩

/-- The log has a `verify.cancelled` of the member before the seq. -/
def CancelNoted (events : List AbEvent) (key : MemberKey) (seq : Nat) : Prop :=
  ∃ event ∈ events, memberCancelled? event.body = some key ∧ event.seq < seq

/-- **The engine finalizes with a step whose only pass has a cancellation before it, and with a
failure that no implement round answers.** -/
theorem not_finalizeGate_cancelled :
    lateCancellations.Pairwise (fun a b => a.seq < b.seq) ∧
      ∃ decision, decideNext (lateCancellations.map .known) unitAndLint = .ok decision ∧
        decision.finalizes ∧
        ¬StepVerified lateCancellations (CancelNoted lateCancellations) "lint" ∧
        ¬FailuresAnswered lateCancellations (fun _ _ => False) := by
  obtain ⟨decision, hd, hf⟩ := exists_of_decidesToFinalize
    (show decidesToFinalize (lateCancellations.map .known) unitAndLint = true by decide +kernel)
  refine ⟨by decide, decision, hd, hf, ?_, ?_⟩
  · intro h
    obtain ⟨event, he, payload, hb, hstep, -, hpast, hnot⟩ := h
    have hlate : 5 < event.seq :=
      hpast (kernelEvent 5 (.codeReview (.verdict approvedReview))) (by simp [lateCancellations])
        (by decide) rfl
    have hkey : memberCompleted? event.body
        = some (verifyMemberKey payload.step payload.attempt) := by
      rw [hb]
      rfl
    have honly : ∀ event ∈ lateCancellations, 5 < event.seq →
        (memberCompleted? event.body).map (·.step) = some "lint" →
        memberCompleted? event.body = some ⟨"lint", 1⟩ ∧ event.seq = 6 := by decide
    obtain ⟨hlint, hseq⟩ := honly event he hlate (by rw [hkey, ← hstep]; rfl)
    rw [hkey] at hlint
    refine hnot ?_
    rw [hseq, Option.some.inj hlint]
    exact ⟨kernelEvent 4 (verifyCancelOf "lint" 1), by simp [lateCancellations], rfl, by decide⟩
  · intro h
    have hpast : ∀ event ∈ lateCancellations, lastRevised lateCancellations < event.seq →
        opensCycle event.body = true → event.seq < 9 := by decide
    obtain ⟨other, ho, done, hb, -, hge⟩ :=
      h (kernelEvent 9 (verifyOutcomeOf "unit" 2 (.fail none))) (by simp [lateCancellations])
        ⟨none, none, none, "unit", 2, .fail none⟩ rfl rfl hpast id
    have hcompletions : ∀ event ∈ lateCancellations, 9 ≤ event.seq →
        (memberCompleted? event.body).isSome = true := by decide
    have hsome := hcompletions other ho hge
    rw [hb] at hsome
    exact absurd hsome nofun

end Autobuild
