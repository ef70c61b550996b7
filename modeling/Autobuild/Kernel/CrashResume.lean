/-
# Resuming a unit that was announced

A runner that dies right after the started event of a unit leaves that event last in the log.
Deciding again must come back to the unit: `crash_resume_iff` says for which units it does
(`ResumesUnit`).

* A round of a loop (`resume_plan`, `resume_code`), the finalization (`resume_finalize`) and the
  units of a node (`resume_node`) are resumed always.
* A verify attempt (`resume_members`, `resume_route`) is resumed unless the attempt is above the
  highest seen while an escalation is open (`blockedDecision_of_higher`).
* A reconcile of a work build is resumed when the rules come to it after its announcement
  (`resume_reconcile_iff`), which one left over from before a revision may not be.
-/
import Autobuild.Kernel.Announcements

namespace Autobuild

open ObjectMap Checked

/-! ## 1. A loop after an announcement -/

section Loop

variable {args : LoopArgs} {run : RunPhase}

/-- A producer round that has started only is run again. -/
theorem decideLoop_of_started {highest seq round : Nat} (loop : LoopIndex) (hpos : 0 < round)
    (hle : loop.maxRound ≤ round)
    (hopen : ∀ record, loop.rounds.get? ⟨round⟩ = some record →
      record.verdict = none ∧ record.completedSeq = none)
    (hloop : args.loop = { loop.record round ({ · with startedSeq := some seq }) with
      maxRoundEver := highest }) :
    decideLoop args = some (args.runProducer round) := by
  have hmax : args.loop.maxRound = round := by
    rw [hloop]
    exact max_eq_right hle
  have hget : args.loop.rounds.get? ⟨round⟩
      = some { (loop.rounds.get? ⟨round⟩).getD {} with startedSeq := some seq } := by
    rw [hloop]
    exact get?_set_self ..
  have hrecord : ((loop.rounds.get? ⟨round⟩).getD {}).verdict = none ∧
      ((loop.rounds.get? ⟨round⟩).getD {}).completedSeq = none := by
    cases hr : loop.rounds.get? ⟨round⟩ with
    | none => exact ⟨rfl, rfl⟩
    | some record => exact hopen record hr
  unfold decideLoop
  rw [hmax, if_neg hpos.ne', hget]
  dsimp only
  rw [hrecord.1, hrecord.2]
  rfl

/-- Touching the round under review changes nothing. -/
theorem decideLoop_of_touched {highest : Nat} (loop : LoopIndex) {record : RoundRecord}
    (hm : loop.maxRound ≠ 0) (hr : loop.rounds.get? ⟨loop.maxRound⟩ = some record)
    (hv : record.verdict = none) (hc : record.completedSeq.isSome = true)
    (hloop : args.loop = { loop.record loop.maxRound id with maxRoundEver := highest }) :
    decideLoop args = some (.runPhase { phase := args.reviewer, round := loop.maxRound }) := by
  have hmax : args.loop.maxRound = loop.maxRound := by
    rw [hloop]
    exact max_self _
  have hget : args.loop.rounds.get? ⟨loop.maxRound⟩ = some record := by
    rw [hloop]
    refine (get?_set_self ..).trans ?_
    rw [hr]
    rfl
  unfold decideLoop
  rw [hmax, if_neg hm, hget]
  dsimp only
  rw [hv]
  dsimp only
  rw [if_pos hc]

end Loop

/-! ## 2. The rules before the unit -/

section Announced

variable (state : EngineFacts) (log : LogIndex) (config : Config) (event : AbEvent)
  (shown : Option VerifyMember) (highest noProgress : Nat)

/-- The facts at the end of the log with the announcement. -/
def EngineFacts.announced : EngineFacts :=
  { state.announce event.seq event.body with
    currentPhase :=
      settledPhase shown (state.announce event.seq event.body).currentPhase }

variable {event}

theorem effectiveCompletions_announced (h : startsUnit event.body = true) :
    effectiveCompletions (state.announced event shown) (log.announce event highest noProgress)
      = (effectiveCompletions state log).announce event highest noProgress := by
  obtain ⟨seq, ts, actor, body⟩ := event
  unfold startsUnit at h
  dsimp only at h
  split at h
  all_goals first
    | cases h; done
    | rfl

theorem active_announced (h : startsUnit event.body = true) :
    (log.announce event highest noProgress).restack.active = log.restack.active := by
  obtain ⟨seq, ts, actor, body⟩ := event
  unfold startsUnit at h
  dsimp only at h
  split at h
  case h_6 payload =>
    show (LeafRestackState.startReconcile _ payload).active = _
    unfold LeafRestackState.startReconcile
    split
    · split <;> rfl
    · rfl
  all_goals first
    | cases h; done
    | rfl

theorem kind_announced (h : startsUnit event.body = true) :
    (state.announced event shown).kind = state.kind := by
  obtain ⟨seq, ts, actor, body⟩ := event
  unfold startsUnit at h
  dsimp only at h
  split at h
  all_goals first
    | cases h; done
    | rfl

theorem commandDecision_announced (h : startsUnit event.body = true) :
    commandDecision (state.announced event shown) (log.announce event highest noProgress)
      = commandDecision state log := by
  unfold commandDecision
  rw [active_announced log highest noProgress h]
  obtain ⟨seq, ts, actor, body⟩ := event
  unfold startsUnit at h
  dsimp only at h
  split at h
  all_goals first
    | cases h; done
    | rfl

theorem engineStage_announced (h : startsUnit event.body = true) :
    engineStage (state.announced event shown) (log.announce event highest noProgress) config
      = engineStage state log config := by
  obtain ⟨seq, ts, actor, body⟩ := event
  unfold startsUnit at h
  dsimp only at h
  split at h
  all_goals first
    | cases h; done
    | rfl

/-- The escalations go on blocking, or not: what is tolerated depends on the highest attempt. -/
theorem blockedDecision_announced (stage : Option ActiveStage) (h : startsUnit event.body = true)
    (hseen : state.openEscalations = [] ∨
      (state.announced event shown).maxAttemptSeen = state.maxAttemptSeen) :
    blockedDecision (state.announced event shown) (log.announce event highest noProgress) stage
      = blockedDecision state log stage := by
  obtain ⟨seq, ts, actor, body⟩ := event
  unfold startsUnit at h
  dsimp only at h
  split at h
  case h_7 payload =>
    rcases hseen with hnone | hseen
    · unfold blockedDecision
      rw [show (state.announced _ shown).openEscalations = state.openEscalations from rfl, hnone]
      rfl
    · unfold blockedDecision toleratedEscalation raisedByVerifier
      rw [hseen]
      rfl
  all_goals first
    | cases h; done
    | rfl

/-- The phase in flight is the one announced, or a verify phase. -/
theorem phase_announced (h : startsUnit event.body = true) {ctx : PhaseContext}
    (hc : (state.announced event shown).currentPhase = some ctx) :
    ctx.seq = event.seq ∨ ctx.phase.isVerify = true := by
  have hsettled : ∀ announced : PhaseContext, announced.seq = event.seq →
      settledPhase shown (some announced) = some ctx →
        ctx.seq = event.seq ∨ ctx.phase.isVerify = true := by
    intro announced hs he
    by_cases hy : yieldsToVerify (some announced) = true
    · have hy' : yieldsToVerify (settledPhase shown (some announced)) = true :=
        yieldsToVerify_settledPhase hy
      rw [he] at hy'
      exact Or.inr hy'
    · rw [settledPhase_of_not_yields hy] at he
      rw [← Option.some.inj he]
      exact Or.inl hs
  obtain ⟨seq, ts, actor, body⟩ := event
  unfold startsUnit at h
  dsimp only at h
  split at h
  all_goals first
    | cases h; done
    | exact hsettled _ rfl hc

/-- No reconcile is left over from before the revision. -/
theorem staleReconcile_announced (h : startsUnit event.body = true)
    (hs : log.restartSeq < event.seq) :
    staleReconcile (state.announced event shown) (log.announce event highest noProgress)
      = none := by
  have hr : (log.announce event highest noProgress).restartSeq = log.restartSeq := by
    obtain ⟨seq, ts, actor, body⟩ := event
    unfold startsUnit at h
    dsimp only at h
    split at h
    all_goals first
      | cases h; done
      | rfl
  unfold staleReconcile
  cases hc : (state.announced event shown).currentPhase with
  | none => rfl
  | some ctx =>
    dsimp only
    rw [hr]
    refine if_neg fun hstale => ?_
    rcases phase_announced state shown h hc with hseq | hv
    · rw [hseq] at hstale
      exact absurd hstale.2 (Nat.lt_asymm hs)
    · rw [hstale.1] at hv
      exact Bool.false_ne_true hv

theorem specReady_announced (h : startsUnit event.body = true) (hr : SpecReady state log) :
    SpecReady (state.announced event shown) (log.announce event highest noProgress) := by
  obtain ⟨seq, ts, actor, body⟩ := event
  unfold startsUnit at h
  dsimp only at h
  split at h
  all_goals first
    | cases h; done
    | exact hr

end Announced

/-! ## 3. The loops -/

/-- The loop a unit is a round of. -/
def StartedUnit.loop : StartedUnit → Option LoopName
  | .phase .plan _ => some .plan
  | .phase .planReview _ => some .plan
  | .phase .implement _ => some .code
  | .phase .codeReview _ => some .code
  | .phase .reconcile _ => none
  | .phase .finalize _ => none
  | .verify _ _ => none

theorem code_ne_plan : (some LoopName.code : Option LoopName) ≠ some .plan := by decide

section Resume

variable {state : EngineFacts} {log : LogIndex} {config : Config} {stage : Option ActiveStage}
  {event : AbEvent} (shown : Option VerifyMember) (highest noProgress : Nat) {run : RunPhase}

theorem decideWork_announced (h : startsUnit event.body = true)
    (hs : log.restartSeq < event.seq) (hr : SpecReady state log) :
    let state' := state.announced event shown
    let log' := log.announce event highest noProgress
    decideWork state' log' config stage
      = ((decideLoop (planLoopArgs state' log' config)).or <|
          (decideLoop (codeLoopArgs state' log' config)).or <|
            verifyDecision state' log' config stage).getD
              (epilogueDecision state' log' config) := by
  intro state' log'
  unfold decideWork
  rw [specDecision_of_ready (specReady_announced state log shown highest noProgress h hr),
    staleReconcile_announced state log shown highest noProgress h hs, Option.none_or]

/-- A unit of another loop leaves the plan loop alone. -/
theorem planLoop_announced {unit : StartedUnit} (ha : Announces state log unit event.body)
    (hn : unit.loop ≠ some .plan) :
    planLoopArgs (state.announced event shown) (log.announce event highest noProgress) config
      = planLoopArgs state log config := by
  obtain ⟨seq, ts, actor, body⟩ := event
  cases ha with
  | plan payload => exact absurd rfl hn
  | planReview round => exact absurd rfl hn
  | _ => rfl

theorem codeLoop_announced {unit : StartedUnit} (ha : Announces state log unit event.body)
    (hn : unit.loop ≠ some .code) :
    codeLoopArgs (state.announced event shown) (log.announce event highest noProgress) config
      = codeLoopArgs state log config := by
  obtain ⟨seq, ts, actor, body⟩ := event
  cases ha with
  | implement payload => exact absurd rfl hn
  | codeReview round => exact absurd rfl hn
  | _ => rfl

/-- The plan loop is resumed. -/
theorem resume_plan (hs : log.restartSeq < event.seq) (hr : SpecReady state log)
    (hb : log.plan.Bounded)
    (hp : decideLoop (planLoopArgs state log config) = some (.runPhase run))
    (ha : Announces state log (.phase run.phase run.round) event.body) :
    .phase run.phase run.round ∈ (decideWork (state.announced event shown)
      (log.announce event highest noProgress) config stage).units := by
  rw [decideWork_announced shown highest noProgress ha.startsUnit hs hr]
  obtain ⟨seq, ts, actor, body⟩ := event
  obtain ⟨phase, round, feedback, failure, reconcile⟩ := run
  rcases of_decideLoop_run hb hp with ⟨hphase, hpos, hle, hopen⟩ |
    ⟨hphase, hm, hround, record, hrec, hv, hc⟩
  · have hphase : phase = .plan := hphase
    subst hphase
    cases ha
    rw [decideLoop_of_started log.plan hpos hle hopen rfl]
    exact List.mem_singleton_self _
  · have hphase : phase = .planReview := hphase
    have hround : round = log.plan.maxRound := hround
    subst hphase hround
    cases ha
    rw [decideLoop_of_touched log.plan hm hrec hv hc rfl]
    exact List.mem_singleton_self _

/-- The code loop is resumed. -/
theorem resume_code (hs : log.restartSeq < event.seq) (hr : SpecReady state log)
    (hb : log.code.Bounded) (hp : decideLoop (planLoopArgs state log config) = none)
    (hc : decideLoop (codeLoopArgs state log config) = some (.runPhase run))
    (ha : Announces state log (.phase run.phase run.round) event.body) :
    .phase run.phase run.round ∈ (decideWork (state.announced event shown)
      (log.announce event highest noProgress) config stage).units := by
  rw [decideWork_announced shown highest noProgress ha.startsUnit hs hr]
  rcases of_decideLoop_run hb hc with ⟨hphase, hpos, hle, hopen⟩ |
    ⟨hphase, hm, hround, record, hrec, hv, hdone⟩
  · have hphase : run.phase = .implement := hphase
    rw [hphase] at ha ⊢
    rw [planLoop_announced shown highest noProgress ha code_ne_plan, hp,
      Option.none_or]
    obtain ⟨seq, ts, actor, body⟩ := event
    obtain ⟨phase, round, feedback, failure, reconcile⟩ := run
    cases ha
    rw [decideLoop_of_started log.code hpos hle hopen rfl]
    exact List.mem_singleton_self _
  · have hphase : run.phase = .codeReview := hphase
    rw [hphase] at ha ⊢
    rw [planLoop_announced shown highest noProgress ha code_ne_plan, hp,
      Option.none_or]
    obtain ⟨seq, ts, actor, body⟩ := event
    obtain ⟨phase, round, feedback, failure, reconcile⟩ := run
    have hround : round = log.code.maxRound := hround
    subst hround
    cases ha
    rw [decideLoop_of_touched log.code hm hrec hv hdone rfl]
    exact List.mem_singleton_self _

end Resume

/-! ## 4. Verification -/

section ResumeVerify

variable {state : EngineFacts} {log : LogIndex} {config : Config} {stage : Option ActiveStage}
  {event : AbEvent} (shown : Option VerifyMember) (highest noProgress : Nat)

/-- What is announced outside the loops leaves them, and the failures, alone. -/
theorem pastLoops_announced {unit : StartedUnit} (ha : Announces state log unit event.body)
    (hn : unit.loop = none) :
    PastLoops (state.announced event shown) (log.announce event highest noProgress) config stage ↔
      PastLoops state log config stage := by
  obtain ⟨seq, ts, actor, body⟩ := event
  cases ha with
  | plan payload => cases hn
  | planReview round => cases hn
  | implement payload => cases hn
  | codeReview round => cases hn
  | _ => exact ⟨fun h => ⟨h.1, h.2, h.3, h.4, h.5⟩, fun h => ⟨h.1, h.2, h.3, h.4, h.5⟩⟩

theorem driftDecision_announced {unit : StartedUnit} (ha : Announces state log unit event.body)
    (hn : unit.loop = none) :
    driftDecision (state.announced event shown) (log.announce event highest noProgress) config
      = driftDecision state log config := by
  obtain ⟨seq, ts, actor, body⟩ := event
  cases ha with
  | plan payload => cases hn
  | planReview round => cases hn
  | implement payload => cases hn
  | codeReview round => cases hn
  | _ => rfl

/-- A failure route is resumed by the code loop, whose next round it opened. -/
theorem resume_route (hs : log.restartSeq < event.seq) (hr : SpecReady state log)
    (hb : log.code.Bounded) (hp : decideLoop (planLoopArgs state log config) = none)
    (ha : Announces state log (.phase .implement (log.code.maxRound + 1)) event.body) :
    .phase .implement (log.code.maxRound + 1) ∈ (decideWork (state.announced event shown)
      (log.announce event highest noProgress) config stage).units := by
  rw [decideWork_announced shown highest noProgress ha.startsUnit hs hr,
    planLoop_announced shown highest noProgress ha code_ne_plan, hp, Option.none_or]
  have hopen : ∀ record, log.code.rounds.get? ⟨log.code.maxRound + 1⟩ = some record →
      record.verdict = none ∧ record.completedSeq = none := by
    intro record hrec
    rw [hb _ (Nat.lt_succ_self _)] at hrec
    cases hrec
  obtain ⟨seq, ts, actor, body⟩ := event
  generalize hround : log.code.maxRound + 1 = round at ha hopen ⊢
  cases ha
  rw [decideLoop_of_started log.code (by omega) (by omega) hopen rfl]
  exact List.mem_singleton_self _

/-- The attempt of a cycle stays that of its members once one of them starts. -/
theorem cycleAttempt_snoc (attempts : List Nat) (ever ever' : Nat) :
    cycleAttempt (attempts ++ [cycleAttempt attempts ever]) ever' = cycleAttempt attempts ever := by
  unfold cycleAttempt
  rw [if_neg (List.append_ne_nil_of_right_ne_nil _ (List.cons_ne_nil _ _)), List.foldl_append,
    List.foldl_cons, List.foldl_nil]
  split
  · rename_i h
    rw [h]
    exact Nat.zero_max _
  · exact max_self _

section Started

variable {seq ts : Nat} {actor : Actor} {payload : VerifyStarted}

theorem attempt_announced (hb : log.cycleBoundary < seq) (ha : payload.attempt = log.attempt) :
    (log.announce ⟨seq, ts, actor, .verify (.started payload)⟩ highest noProgress).attempt
      = log.attempt := by
  have hattempts : (log.announce ⟨seq, ts, actor, .verify (.started payload)⟩ highest
      noProgress).cycleAttempts = log.cycleAttempts ++ [log.attempt] := by
    show log.cycleResults.map (·.attempt) ++ ((log.verifyStarted ++
      [LogIndexAcc.startRecord seq payload]).filter fun v => v.seq > log.cycleBoundary).map
        (·.attempt) = _
    have hlater : (LogIndexAcc.startRecord seq payload).seq > log.cycleBoundary := hb
    have hone : [LogIndexAcc.startRecord seq payload].filter
        (fun v => v.seq > log.cycleBoundary) = [LogIndexAcc.startRecord seq payload] := by
      simp only [List.filter_cons, hlater, decide_true, if_true, List.filter_nil]
    rw [List.filter_append, hone, List.map_append, ← List.append_assoc, ← ha]
    rfl
  unfold LogIndex.attempt
  rw [hattempts]
  exact cycleAttempt_snoc _ _ _

theorem memberDecision_announced (hb : log.cycleBoundary < seq)
    (ha : payload.attempt = log.attempt) (step : String) :
    memberDecision (state.announced ⟨seq, ts, actor, .verify (.started payload)⟩ shown)
        (log.announce ⟨seq, ts, actor, .verify (.started payload)⟩ highest noProgress) config step
      = memberDecision state log config step := by
  unfold memberDecision
  rw [attempt_announced highest noProgress hb ha]
  rfl

theorem heldVerifier_announced (hseen : state.openEscalations = [] ∨
      payload.attempt ≤ state.maxAttemptSeen) (step : String) :
    heldVerifier (state.announced ⟨seq, ts, actor, .verify (.started payload)⟩ shown) step
      = heldVerifier state step := by
  unfold heldVerifier
  rcases hseen with hnone | hseen
  · rw [show (state.announced _ shown).openEscalations = state.openEscalations from rfl, hnone]
    rfl
  · unfold raisedByVerifier
    rw [show (state.announced _ shown).maxAttemptSeen
      = max state.maxAttemptSeen payload.attempt from rfl, max_eq_left hseen]
    rfl

theorem membersDecision_announced (hb : log.cycleBoundary < seq)
    (ha : payload.attempt = log.attempt)
    (hseen : state.openEscalations = [] ∨ payload.attempt ≤ state.maxAttemptSeen) :
    membersDecision (state.announced ⟨seq, ts, actor, .verify (.started payload)⟩ shown)
        (log.announce ⟨seq, ts, actor, .verify (.started payload)⟩ highest noProgress) config stage
      = membersDecision state log config stage := by
  have hmember : memberDecision
        (state.announced ⟨seq, ts, actor, .verify (.started payload)⟩ shown)
        (log.announce ⟨seq, ts, actor, .verify (.started payload)⟩ highest noProgress) config
      = memberDecision state log config :=
    funext (memberDecision_announced shown highest noProgress hb ha)
  have hheld : heldVerifier (state.announced ⟨seq, ts, actor, .verify (.started payload)⟩ shown)
      = heldVerifier state := funext (heldVerifier_announced shown hseen)
  unfold membersDecision
  rw [hmember, hheld]

end Started

/-- The entry restack of a cycle comes before its first attempt only. -/
theorem restackDecision_of_later {seq ts : Nat} {actor : Actor} {payload : VerifyStarted}
    (h : restackDecision state log = none) :
    restackDecision (state.announced ⟨seq, ts, actor, .verify (.started payload)⟩ shown)
      (log.announce ⟨seq, ts, actor, .verify (.started payload)⟩ highest noProgress) = none := by
  have hactive : (log.announce ⟨seq, ts, actor, .verify (.started payload)⟩ highest
      noProgress).restack.active = log.restack.active := rfl
  unfold restackDecision at h ⊢
  rw [hactive]
  split at h
  · split_ifs at h
  · split_ifs at h with hopen
    refine if_neg fun hagain => hopen ?_
    obtain ⟨hgates, hfinalized, hstarts, hresults⟩ := hagain
    have hstarts : (log.verifyStarted ++ [LogIndexAcc.startRecord seq payload]).any
        (fun v => v.seq > log.replayBoundary) = false := hstarts
    rw [List.any_append, Bool.or_eq_false_iff] at hstarts
    exact ⟨hgates, hfinalized, hstarts.1, hresults⟩

/-- The policy of a cycle is captured before its first attempt only. -/
theorem capturePolicyDecision_of_later {seq ts : Nat} {actor : Actor} {payload : VerifyStarted}
    (hc : capturePolicyDecision log = none) :
    capturePolicyDecision (log.announce ⟨seq, ts, actor, .verify (.started payload)⟩ highest
      noProgress) = none := by
  unfold capturePolicyDecision at hc ⊢
  split_ifs at hc with hopen
  refine if_neg fun hagain => hopen ?_
  obtain ⟨hcycle, hinitial, hpolicy, hattempts⟩ := hagain
  obtain ⟨hresults, hstarts⟩ := List.append_eq_nil_iff.mp hattempts
  have hfilter := List.map_eq_nil_iff.mp hstarts
  rw [show (log.announce ⟨seq, ts, actor, .verify (.started payload)⟩ highest
    noProgress).verifyStarted = log.verifyStarted ++ [LogIndexAcc.startRecord seq payload]
    from rfl, List.filter_append] at hfilter
  refine ⟨hcycle, hinitial, hpolicy, List.append_eq_nil_iff.mpr ⟨hresults, ?_⟩⟩
  exact List.map_eq_nil_iff.mpr (List.append_eq_nil_iff.mp hfilter).1

/-- The verify attempt is resumed. -/
theorem resume_members (hs : log.restartSeq < event.seq) (hr : SpecReady state log)
    (hb : log.cycleBoundary < event.seq) {decision : Decision} {step : String}
    (past : PastLoops state log config stage) (hrestack : restackDecision state log = none)
    (hc : capturePolicyDecision log = none) (hd : driftDecision state log config = none)
    (hm : membersDecision state log config stage = some decision)
    (ha : Announces state log (.verify step log.attempt) event.body)
    (hseen : state.openEscalations = [] ∨ log.attempt ≤ state.maxAttemptSeen) :
    decideWork (state.announced event shown) (log.announce event highest noProgress) config stage
      = decision := by
  have h := ha.startsUnit
  rw [decideWork_of_pastLoops (specReady_announced state log shown highest noProgress h hr)
      (staleReconcile_announced state log shown highest noProgress h hs)
      ((pastLoops_announced shown highest noProgress ha rfl).mpr past),
    driftDecision_announced shown highest noProgress ha rfl, hd]
  obtain ⟨seq, ts, actor, body⟩ := event
  generalize hattempt : log.attempt = attempt at ha hseen
  cases ha with
  | verify payload h =>
    have hnone : restackDecision
        (state.announced ⟨seq, ts, actor, .verify (.started payload)⟩ shown)
        (log.announce ⟨seq, ts, actor, .verify (.started payload)⟩ highest noProgress) = none :=
      restackDecision_of_later shown highest noProgress hrestack
    rw [hnone, capturePolicyDecision_of_later highest noProgress hc,
      membersDecision_announced shown highest noProgress hb hattempt.symm hseen, hm]
    rfl

end ResumeVerify

/-! ## 5. Finalization and reconciles -/

section Epilogue

variable {state : EngineFacts} {log : LogIndex} {config : Config} {stage : Option ActiveStage}
  {event : AbEvent} {unit : StartedUnit}

/-- The log with the verification of a conflict: a reconcile outside a restack is never the
initial one. -/
def LogIndex.ofConflict (log : LogIndex) : LogIndex :=
  { log with restack := { log.restack with initialVerification := some false } }

theorem membersDecision_ofConflict :
    membersDecision state log.ofConflict config stage = none ↔
      membersDecision state log config stage = none := by
  rw [membersDecision_eq_none_iff, membersDecision_eq_none_iff]
  rfl

/-- Of what comes before the reconcile of a conflict only the capture of the policy reads it. -/
theorem ConflictDue.ofConflict (due : ConflictDue state log config stage)
    (h : capturePolicyDecision log.ofConflict = none) :
    ConflictDue state log.ofConflict config stage where
  active := due.active
  restack := due.restack
  policy := h
  drift := due.drift
  members := membersDecision_ofConflict.mpr due.members
  finalize := due.finalize
  conflicted := due.conflicted

/-- The rules behind that of the spec come to a reconcile. -/
structure ReconcileDue (state : EngineFacts) (log : LogIndex) (config : Config)
    (stage : Option ActiveStage) : Prop where
  past : PastLoops state log config stage
  due : ReplayConflicted log ∨ ConflictDue state log.ofConflict config stage

section Started

variable {shown : Option VerifyMember} {highest noProgress seq ts : Nat} {actor : Actor}
  {payload : ReconcileStarted}

theorem startReconcile_fields (restack : LeafRestackState) (payload : ReconcileStarted) :
    (restack.startReconcile payload).active = restack.active ∧
      (restack.startReconcile payload).replay = restack.replay ∧
      (restack.startReconcile payload).gates = restack.gates ∧
      (restack.startReconcile payload).finalizedAt = restack.finalizedAt := by
  unfold LeafRestackState.startReconcile
  split
  · split <;> exact ⟨rfl, rfl, rfl, rfl⟩
  · exact ⟨rfl, rfl, rfl, rfl⟩

theorem replayConflicted_announced :
    ReplayConflicted (log.announce ⟨seq, ts, actor, .reconcile (.started payload)⟩ highest
      noProgress) ↔ ReplayConflicted log := by
  obtain ⟨ha, hr, -, -⟩ := startReconcile_fields { log.restack with activityAt := some ts } payload
  unfold ReplayConflicted
  rw [show (log.announce ⟨seq, ts, actor, .reconcile (.started payload)⟩ highest
      noProgress).restack.active = log.restack.active from ha,
    show (log.announce ⟨seq, ts, actor, .reconcile (.started payload)⟩ highest
      noProgress).restack.replay = log.restack.replay from hr]

/-- The reconcile of the replay keeps the attempt that was announced for it. -/
theorem restackDecision_of_replay (h : ReplayConflicted log)
    (hid : payload.restackId = log.restack.activeId) (state' : EngineFacts) :
    restackDecision state' (log.announce ⟨seq, ts, actor, .reconcile (.started payload)⟩ highest
      noProgress) = some (runReconcile payload.attempt) := by
  obtain ⟨hactive, hconflicted⟩ := h
  cases ha : log.restack.active with
  | none => exact absurd ha hactive
  | some active =>
    have hid : payload.restackId = some active.id := by
      rw [hid]
      unfold LeafRestackState.activeId
      rw [ha]
      rfl
    have hrestack : (log.announce ⟨seq, ts, actor, .reconcile (.started payload)⟩ highest
        noProgress).restack = { log.restack with
          activityAt := some ts
          reconcileAttempt := some payload.attempt
          initialVerification := some (active.trigger = .verifyEntry) } := by
      show LeafRestackState.startReconcile { log.restack with activityAt := some ts } payload = _
      unfold LeafRestackState.startReconcile
      dsimp only
      rw [ha]
      exact if_pos hid
    unfold restackDecision
    rw [hrestack]
    dsimp only
    rw [ha]
    exact if_pos hconflicted

section NoRestack

variable (ha : log.restack.active = none)
include ha

/-- Outside a restack the announcement says that the verification is no initial one. -/
theorem restack_of_conflict :
    (log.announce ⟨seq, ts, actor, .reconcile (.started payload)⟩ highest noProgress).restack
      = { log.restack with activityAt := some ts, initialVerification := some false } := by
  show LeafRestackState.startReconcile { log.restack with activityAt := some ts } payload = _
  unfold LeafRestackState.startReconcile
  dsimp only
  rw [ha]

theorem restackDecision_of_conflict (state' : EngineFacts) :
    restackDecision state' (log.announce ⟨seq, ts, actor, .reconcile (.started payload)⟩ highest
      noProgress) = restackDecision state log := by
  unfold restackDecision
  rw [restack_of_conflict ha, ha]
  rfl

theorem capturePolicyDecision_of_conflict :
    capturePolicyDecision (log.announce ⟨seq, ts, actor, .reconcile (.started payload)⟩ highest
      noProgress) = capturePolicyDecision log.ofConflict := by
  unfold capturePolicyDecision LogIndex.cyclePolicy LogIndex.initialVerification
  rw [restack_of_conflict ha]
  rfl

end NoRestack

theorem membersDecision_of_reconcile :
    membersDecision (state.announced ⟨seq, ts, actor, .reconcile (.started payload)⟩ shown)
        (log.announce ⟨seq, ts, actor, .reconcile (.started payload)⟩ highest noProgress) config
        stage = none ↔
      membersDecision state log.ofConflict config stage = none := by
  rw [membersDecision_eq_none_iff, membersDecision_eq_none_iff]
  rfl

theorem conflictDue_announced (ha : log.restack.active = none) :
    ConflictDue (state.announced ⟨seq, ts, actor, .reconcile (.started payload)⟩ shown)
        (log.announce ⟨seq, ts, actor, .reconcile (.started payload)⟩ highest noProgress) config
        stage ↔
      ConflictDue state log.ofConflict config stage where
  mp due :=
    { active := ha
      restack := (restackDecision_of_conflict ha _).symm.trans due.restack
      policy := (capturePolicyDecision_of_conflict ha).symm.trans due.policy
      drift := due.drift
      members := membersDecision_of_reconcile.mp due.members
      finalize := due.finalize
      conflicted := due.conflicted }
  mpr due :=
    { active := (active_announced log highest noProgress rfl).trans ha
      restack := (restackDecision_of_conflict ha _).trans due.restack
      policy := (capturePolicyDecision_of_conflict ha).trans due.policy
      drift := due.drift
      members := membersDecision_of_reconcile.mpr due.members
      finalize := due.finalize
      conflicted := due.conflicted }

/-- The reconcile of the conflict keeps the attempt: it is that of the conflict, or else of the
phase in flight. -/
theorem resumeReconcile_announced (hk : ConflictKept log seq)
    (hp : state.prState = some .conflicted) :
    resumeReconcile (state.announced ⟨seq, ts, actor, .reconcile (.started payload)⟩ shown)
        (log.announce ⟨seq, ts, actor, .reconcile (.started payload)⟩ highest noProgress)
      = some (runReconcile payload.attempt) := by
  have hctx : (state.announced ⟨seq, ts, actor, .reconcile (.started payload)⟩ shown).currentPhase
      = some (attemptContext (.core .reconcile) payload.attempt seq) :=
    settledPhase_of_not_yields Bool.false_ne_true
  have hpr : (state.announced ⟨seq, ts, actor, .reconcile (.started payload)⟩ shown).prState
      = some .conflicted := hp
  unfold resumeReconcile
  rw [hpr, if_pos rfl, hctx]
  cases hl : log.lastConflict with
  | some conflict =>
    have hstarted : (log.announce ⟨seq, ts, actor, .reconcile (.started payload)⟩ highest
        noProgress).conflictReconcileStarted = some payload.attempt := by
      unfold LogIndex.announce
      dsimp only
      rw [hl]
      exact if_pos (hk.earlier conflict hl)
    rw [hstarted]
  | none =>
    have hstarted : (log.announce ⟨seq, ts, actor, .reconcile (.started payload)⟩ highest
        noProgress).conflictReconcileStarted = none := by
      unfold LogIndex.announce
      dsimp only
      rw [hl]
      exact hk.started hl
    rw [hstarted]
    rfl

theorem epilogue_of_reconcile (hk : ConflictKept log seq)
    (hf : finalizeDecision log config = none) (hp : state.prState = some .conflicted) :
    epilogueDecision (state.announced ⟨seq, ts, actor, .reconcile (.started payload)⟩ shown)
        (log.announce ⟨seq, ts, actor, .reconcile (.started payload)⟩ highest noProgress) config
      = runReconcile payload.attempt := by
  have hfin : finalizeDecision
      (log.announce ⟨seq, ts, actor, .reconcile (.started payload)⟩ highest noProgress) config
        = none := hf
  unfold epilogueDecision
  rw [hfin, resumeReconcile_announced hk hp]
  rfl

end Started

end Epilogue

section ResumeReconcile

variable {state : EngineFacts} {log : LogIndex} {config : Config} {stage : Option ActiveStage}
  {event : AbEvent} (shown : Option VerifyMember) (highest noProgress : Nat)

/-- Finalization is resumed. -/
theorem resume_finalize (hs : log.restartSeq < event.seq) (hr : SpecReady state log)
    (hp : decideLoop (planLoopArgs state log config) = none)
    (hc : decideLoop (codeLoopArgs state log config) = none)
    (hv : verifyDecision state log config stage = none) (hf : log.finalizeCompleted = false)
    (ha : Announces state log (.phase .finalize 1) event.body) :
    .phase .finalize 1 ∈ (decideWork (state.announced event shown)
      (log.announce event highest noProgress) config stage).units := by
  rw [decideWork_announced shown highest noProgress ha.startsUnit hs hr,
    planLoop_announced shown highest noProgress ha (Option.some_ne_none _).symm, hp, Option.none_or,
    codeLoop_announced shown highest noProgress ha (Option.some_ne_none _).symm, hc, Option.none_or]
  obtain ⟨seq, ts, actor, body⟩ := event
  cases ha with
  | finalize round =>
    have hv' : verifyDecision (state.announced ⟨seq, ts, actor, .finalize .started⟩ shown)
        (log.announce ⟨seq, ts, actor, .finalize .started⟩ highest noProgress) config stage
          = none := hv
    have hf' : (log.announce ⟨seq, ts, actor, .finalize .started⟩ highest
        noProgress).finalizeCompleted = false := hf
    rw [hv']
    unfold epilogueDecision finalizeDecision
    rw [if_pos hf']
    exact List.mem_singleton_self _

/-- **A reconcile is resumed when the rules behind that of the spec come to it.** -/
theorem resume_reconcile_iff (hs : log.restartSeq < event.seq) (hr : SpecReady state log)
    (hk : ConflictKept log event.seq) {attempt : Nat}
    (ha : Announces state log (.phase .reconcile attempt) event.body) :
    .phase .reconcile attempt ∈ (decideWork (state.announced event shown)
        (log.announce event highest noProgress) config stage).units ↔
      ReconcileDue state log config stage := by
  have h := ha.startsUnit
  have hready := specReady_announced state log shown highest noProgress h hr
  have hstale := staleReconcile_announced state log shown highest noProgress h hs
  have hpast : PastLoops (state.announced event shown) (log.announce event highest noProgress)
      config stage ↔ PastLoops state log config stage :=
    pastLoops_announced shown highest noProgress ha rfl
  obtain ⟨seq, ts, actor, body⟩ := event
  cases ha with
  | reconcile payload hid =>
    have hactive : (log.announce ⟨seq, ts, actor, .reconcile (.started payload)⟩ highest
        noProgress).restack.active = log.restack.active := active_announced log highest noProgress h
    constructor
    · intro hu
      obtain ⟨past, hdue⟩ := reconcile_cases hstale hu
      refine ⟨hpast.mp past, ?_⟩
      rcases hdue with hreplay | due
      · exact Or.inl (replayConflicted_announced.mp hreplay)
      · exact Or.inr ((conflictDue_announced (hactive.symm.trans due.active)).mp due)
    · intro due
      rw [decideWork_of_pastLoops hready hstale (hpast.mpr due.past)]
      rcases due.due with hreplay | due
      · rw [restackDecision_of_replay hreplay hid]
        exact List.mem_singleton_self _
      · have hnone : log.restack.active = none := due.active
        have later : ConflictDue
            (state.announced ⟨seq, ts, actor, .reconcile (.started payload)⟩ shown)
            (log.announce ⟨seq, ts, actor, .reconcile (.started payload)⟩ highest noProgress)
            config stage := (conflictDue_announced hnone).mpr due
        rw [later.restack, later.policy, later.drift, later.members,
          epilogue_of_reconcile hk due.finalize due.conflicted]
        exact List.mem_singleton_self _

end ResumeReconcile

/-! ## 6. Nodes -/

section Node

variable {state : EngineFacts} {log : LogIndex} {config : Config} {stage : Option ActiveStage}
  {decision : Decision} {unit : StartedUnit} {cycle : WithSeq IntegrationPrepared}

section Started

variable {shown : Option VerifyMember} {highest noProgress seq ts : Nat} {actor : Actor}
  {payload : VerifyStarted}

theorem nodeAttempt_announced (hb : nodeBoundary log cycle < seq)
    (hid : payload.restackId = some cycle.payload.id)
    (ha : payload.attempt = nodeAttempt log cycle) :
    nodeAttempt (log.announce ⟨seq, ts, actor, .verify (.started payload)⟩ highest noProgress) cycle
      = nodeAttempt log cycle := by
  have hone : [LogIndexAcc.startRecord seq payload].filter (fun start =>
      start.seq > nodeBoundary log cycle && start.restackId = some cycle.payload.id)
        = [LogIndexAcc.startRecord seq payload] := by
    have hlater : (LogIndexAcc.startRecord seq payload).seq > nodeBoundary log cycle := hb
    have hcites : (LogIndexAcc.startRecord seq payload).restackId = some cycle.payload.id := hid
    simp only [List.filter_cons, hlater, hcites, decide_true, Bool.and_self, if_true,
      List.filter_nil]
  have hstarts : nodeStarts (log.announce ⟨seq, ts, actor, .verify (.started payload)⟩ highest
      noProgress) cycle = nodeStarts log cycle ++ [LogIndexAcc.startRecord seq payload] := by
    show (log.verifyStarted ++ [LogIndexAcc.startRecord seq payload]).filter _ = _
    rw [List.filter_append]
    exact congrArg (nodeStarts log cycle ++ ·) hone
  have hresults : nodeResults (log.announce ⟨seq, ts, actor, .verify (.started payload)⟩ highest
      noProgress) cycle = nodeResults log cycle := rfl
  unfold nodeAttempt at ha ⊢
  rw [hstarts, hresults, List.map_append, ← List.append_assoc]
  have hlast : [LogIndexAcc.startRecord seq payload].map (·.attempt) = [payload.attempt] := rfl
  rw [hlast, ha]
  exact cycleAttempt_snoc _ _ _

/-- Once a member starts, the node decides as before. -/
theorem decideNode_announced (hcycle : state.cycleState.cycle = some cycle)
    (hconflict : (state.nodeRestack.bind (·.conflict)).isSome = false)
    (hb : nodeBoundary log cycle < seq) (hid : payload.restackId = some cycle.payload.id)
    (ha : payload.attempt = nodeAttempt log cycle)
    (hseen : state.openEscalations = [] ∨ payload.attempt ≤ state.maxAttemptSeen) :
    decideNode (state.announced ⟨seq, ts, actor, .verify (.started payload)⟩ shown)
        (log.announce ⟨seq, ts, actor, .verify (.started payload)⟩ highest noProgress) config stage
      = decideNode state log config stage := by
  have hattempt : nodeAttempt (log.announce ⟨seq, ts, actor, .verify (.started payload)⟩ highest
      noProgress) cycle = nodeAttempt log cycle := nodeAttempt_announced hb hid ha
  have hheld : heldVerifier (state.announced ⟨seq, ts, actor, .verify (.started payload)⟩ shown)
      = heldVerifier state := funext (heldVerifier_announced shown hseen)
  have hdecided : nodeStageDecision
      (state.announced ⟨seq, ts, actor, .verify (.started payload)⟩ shown)
      (log.announce ⟨seq, ts, actor, .verify (.started payload)⟩ highest noProgress) cycle stage
        = nodeStageDecision state log cycle stage := by
    unfold nodeStageDecision nodeStageDecision.settled nodeStageFailure
    rw [hattempt]
    rfl
  have hmember : nodeMember
      (log.announce ⟨seq, ts, actor, .verify (.started payload)⟩ highest noProgress) config cycle
        = nodeMember log config cycle := by
    funext step
    unfold nodeMember
    rw [hattempt]
  have hdue : ∀ active, nodeDue
      (state.announced ⟨seq, ts, actor, .verify (.started payload)⟩ shown)
      (log.announce ⟨seq, ts, actor, .verify (.started payload)⟩ highest noProgress) config cycle
        active = nodeDue state log config cycle active := by
    intro active
    unfold nodeDue
    rw [hheld]
    rfl
  have hverify : nodeVerify
      (state.announced ⟨seq, ts, actor, .verify (.started payload)⟩ shown)
      (log.announce ⟨seq, ts, actor, .verify (.started payload)⟩ highest noProgress) config cycle
        stage = nodeVerify state log config cycle stage := by
    unfold nodeVerify
    rw [hmember]
    simp only [hdue]
  have hcycle' : (state.announced ⟨seq, ts, actor, .verify (.started payload)⟩
      shown).cycleState.cycle = some cycle := hcycle
  have hconflict' : ((state.announced ⟨seq, ts, actor, .verify (.started payload)⟩
      shown).nodeRestack.bind (·.conflict)).isSome = false := hconflict
  unfold decideNode
  rw [hconflict, hconflict', hcycle, hcycle', if_neg Bool.false_ne_true, if_neg Bool.false_ne_true]
  dsimp only
  rw [hdecided, hverify]
  rfl

end Started

/-- **A node resumes its units.** -/
theorem resume_node {event : AbEvent} (shown : Option VerifyMember) (highest noProgress : Nat)
    (hk : state.kind = some .node) (h : decideNode state log config stage = .ok decision)
    (hu : unit ∈ decision.units) (ha : Announces state log unit event.body)
    (hb : ∀ cycle, state.cycleState.cycle = some cycle → nodeBoundary log cycle < event.seq)
    (hseen : ∀ step attempt, unit = .verify step attempt →
      state.openEscalations = [] ∨ attempt ≤ state.maxAttemptSeen) :
    ∃ resumed, decideNode (state.announced event shown) (log.announce event highest noProgress)
      config stage = .ok resumed ∧ unit ∈ resumed.units := by
  obtain ⟨seq, ts, actor, body⟩ := event
  rcases unit_of_node h hu with ⟨hconflict, hunit⟩ | ⟨hconflict, cycle, step, hcycle, hunit⟩
  · rw [hunit] at ha ⊢
    generalize nodeReconcileAttempt state = attempt at ha
    cases ha with
    | reconcile payload hid =>
      have hctx : (state.announced ⟨seq, ts, actor, .reconcile (.started payload)⟩
          shown).currentPhase = some (attemptContext (.core .reconcile) payload.attempt seq) :=
        settledPhase_of_not_yields Bool.false_ne_true
      have hattempt : nodeReconcileAttempt
          (state.announced ⟨seq, ts, actor, .reconcile (.started payload)⟩ shown)
            = payload.attempt := by
        unfold nodeReconcileAttempt
        rw [hctx]
        exact if_pos rfl
      refine ⟨runReconcile payload.attempt, ?_, List.mem_singleton_self _⟩
      unfold decideNode
      rw [hattempt]
      exact if_pos hconflict
  · have hseen := hseen step _ hunit
    rw [hunit] at ha
    generalize hattempt : nodeAttempt log cycle = attempt at ha hseen
    cases ha with
    | verify payload hid =>
      have hid := hid hk
      rw [hcycle] at hid
      refine ⟨decision, ?_, hu⟩
      rw [decideNode_announced hcycle hconflict (hb cycle hcycle) hid hattempt.symm hseen]
      exact h

end Node

/-! ## 7. Which units are resumed -/

/-- When the announcement of a unit keeps the decision for it.

* A reconcile of a work build: the announcement makes it newer than the last revision, so one
  that was left over from before is only resumed when the rules behind that of the spec come to
  it as well; and a reconcile outside a restack makes the verification of its cycle no initial
  one, which may be the moment to capture the policy of the cycle.
* A verify attempt: an open escalation is tolerated for its verifier at the highest attempt
  only, so a higher one must not be announced while an escalation is open. -/
structure ResumesUnit (state : EngineFacts) (log : LogIndex) (config : Config)
    (unit : StartedUnit) : Prop where
  reconcile : ∀ attempt, unit = .phase .reconcile attempt → state.kind ≠ some .node →
    if staleReconcile state log = none then
      log.restack.active = none → capturePolicyDecision log.ofConflict = none
    else ReconcileDue state log config (engineStage state log config)
  attempt : ∀ step attempt, unit = .verify step attempt →
    state.openEscalations = [] ∨ attempt ≤ state.maxAttemptSeen

section Internal

variable {state : EngineFacts} {log : LogIndex} {config : Config} {stage : Option ActiveStage}
  {event : AbEvent} {decision : Decision} {unit : StartedUnit}

/-- The reconcile a work build decides on, unless it is left over from before the revision. -/
theorem reconcileDue_iff {attempt : Nat} (hs : staleReconcile state log = none)
    (hu : .phase .reconcile attempt ∈ (decideWork state log config stage).units) :
    ReconcileDue state log config stage ↔
      (log.restack.active = none → capturePolicyDecision log.ofConflict = none) := by
  obtain ⟨past, hreplay | due⟩ := reconcile_cases hs hu
  · exact ⟨fun _ hnone => absurd hnone hreplay.1, fun _ => ⟨past, Or.inl hreplay⟩⟩
  · constructor
    · rintro ⟨-, h | h⟩ hactive
      · exact absurd hactive h.1
      · exact h.policy
    · exact fun hpolicy => ⟨past, Or.inr (due.ofConflict (hpolicy due.active))⟩

theorem decideNextInternal_of_silent (hc : commandDecision state log = none)
    (hb : blockedDecision state log (engineStage state log config) = none) :
    decideNextInternal state log config
      = if state.kind = some .node then
          decideNode state log config (engineStage state log config)
        else .ok (decideWork state log config (engineStage state log config)) := by
  unfold decideNextInternal
  dsimp only
  rw [hc, hb]
  rfl

section Announced

variable (shown : Option VerifyMember) (highest noProgress : Nat)

/-- A work build resumes every unit but a reconcile. -/
theorem resume_work (hk : KnownBefore state log event.seq)
    (hu : unit ∈ (decideWork state log config stage).units)
    (ha : Announces state log unit event.body)
    (hother : ∀ attempt, unit ≠ .phase .reconcile attempt)
    (hseen : ∀ step attempt, unit = .verify step attempt →
      state.openEscalations = [] ∨ attempt ≤ state.maxAttemptSeen) :
    unit ∈ (decideWork (state.announced event shown) (log.announce event highest noProgress) config
      stage).units := by
  have hr := specReady_of_unit hu
  cases workRule_of_unit hu with
  | stale attempt _ hu => exact absurd hu (hother attempt)
  | plan run _ hp hu =>
    subst hu
    exact resume_plan shown highest noProgress hk.restart hr hk.plan hp ha
  | code run _ hp hc hu =>
    subst hu
    exact resume_code shown highest noProgress hk.restart hr hk.code hp hc ha
  | verify decision _ hp hc hv hu =>
    cases verifyRule_of_unit hp hc hv hu with
    | route hu =>
      subst hu
      exact resume_route shown highest noProgress hk.restart hr hk.code hp ha
    | replay past _ hu =>
      obtain ⟨attempt, hu⟩ := hu
      exact absurd hu (hother attempt)
    | members past decision hrestack hcapture hdrift hm hu =>
      obtain ⟨step, hunit⟩ := unit_of_membersDecision hm hu
      have hseen := hseen step log.attempt hunit
      rw [hunit] at ha
      rw [resume_members shown highest noProgress hk.restart hr hk.boundary past hrestack hcapture
        hdrift hm ha hseen]
      exact hu
  | epilogue _ hp hc hv hu =>
    rcases unit_of_epilogue hu with ⟨hf, hu⟩ | ⟨-, -, attempt, hu⟩
    · subst hu
      exact resume_finalize shown highest noProgress hk.restart hr hp hc hv hf ha
    · exact absurd hu (hother attempt)

/-- Only a verify attempt moves the highest one. -/
theorem maxAttemptSeen_announced (ha : Announces state log unit event.body)
    (hseen : ∀ step attempt, unit = .verify step attempt → attempt ≤ state.maxAttemptSeen) :
    (state.announced event shown).maxAttemptSeen = state.maxAttemptSeen := by
  obtain ⟨seq, ts, actor, body⟩ := event
  cases ha with
  | verify payload h => exact max_eq_left (hseen _ _ rfl)
  | _ => rfl

/-- An escalation is not tolerated at a higher attempt. -/
theorem blockedDecision_of_higher {step : String} {attempt : Nat}
    (hb : blockedDecision state log stage = none)
    (ha : Announces state log (.verify step attempt) event.body)
    (hopen : state.openEscalations ≠ []) (hlt : state.maxAttemptSeen < attempt) :
    blockedDecision (state.announced event shown) (log.announce event highest noProgress) stage
      = some (.wait .blocked) := by
  obtain ⟨escalation, hmem⟩ := List.exists_mem_of_ne_nil _ hopen
  have htolerated : toleratedEscalation state stage escalation = true := by
    unfold blockedDecision at hb
    split_ifs at hb with hany
    by_contra hn
    exact hany (List.any_eq_true.mpr ⟨escalation, hmem, by simpa using hn⟩)
  obtain ⟨seq, ts, actor, body⟩ := event
  cases ha with
  | verify payload h =>
    unfold blockedDecision
    refine if_pos (List.any_eq_true.mpr ⟨escalation, hmem, ?_⟩)
    rw [Bool.not_eq_true', Bool.eq_false_iff]
    intro hagain
    unfold toleratedEscalation at htolerated hagain
    split at htolerated
    · cases htolerated
    · obtain ⟨before, -, hbefore⟩ := List.any_eq_true.mp htolerated
      obtain ⟨after, -, hafter⟩ := List.any_eq_true.mp hagain
      unfold raisedByVerifier at hbefore hafter
      rw [Bool.and_eq_true, decide_eq_true_iff, decide_eq_true_iff] at hbefore hafter
      have howner : (escalation.session.bind state.verifyStage.owners.get?)
          = some (verifyMemberKey after (max state.maxAttemptSeen payload.attempt)) := hafter.2
      rw [hbefore.2, max_eq_right hlt.le] at howner
      injection howner with hkey
      injection hkey with _ hattempt
      exact hlt.ne hattempt

/-- The rules before the unit stay silent, unless its attempt is a higher one. -/
theorem decideNextInternal_announced (h : decideNextInternal state log config = .ok decision)
    (hu : unit ∈ decision.units) (ha : Announces state log unit event.body)
    (hseen : ∀ step attempt, unit = .verify step attempt →
      state.openEscalations = [] ∨ attempt ≤ state.maxAttemptSeen) :
    decideNextInternal (state.announced event shown) (log.announce event highest noProgress) config
      = if state.kind = some .node then
          decideNode (state.announced event shown) (log.announce event highest noProgress) config
            (engineStage state log config)
        else .ok (decideWork (state.announced event shown)
          (log.announce event highest noProgress) config (engineStage state log config)) := by
  obtain ⟨hc, hb, -⟩ := of_unit_decided h hu
  have hstart := ha.startsUnit
  have hcommand := (commandDecision_announced state log shown highest noProgress hstart).trans hc
  have hblocked : blockedDecision (state.announced event shown)
      (log.announce event highest noProgress) (engineStage state log config) = none := by
    refine (blockedDecision_announced state log shown highest noProgress _ hstart ?_).trans hb
    by_cases hopen : state.openEscalations = []
    · exact Or.inl hopen
    · exact Or.inr (maxAttemptSeen_announced shown ha fun step attempt he =>
        (hseen step attempt he).resolve_left hopen)
  rw [← engineStage_announced state log config shown highest noProgress hstart] at hblocked ⊢
  rw [← kind_announced state shown hstart]
  exact decideNextInternal_of_silent hcommand hblocked

/-- Whatever rule it comes from, the unit is there again, unless it is a reconcile. -/
theorem resumed_of_seen (hk : KnownBefore state log event.seq)
    (h : decideNextInternal state log config = .ok decision) (hu : unit ∈ decision.units)
    (ha : Announces state log unit event.body)
    (hseen : ∀ step attempt, unit = .verify step attempt →
      state.openEscalations = [] ∨ attempt ≤ state.maxAttemptSeen)
    (hother : state.kind ≠ some .node → ∀ attempt, unit ≠ .phase .reconcile attempt) :
    ∃ resumed, decideNextInternal (state.announced event shown)
      (log.announce event highest noProgress) config = .ok resumed ∧ unit ∈ resumed.units := by
  obtain ⟨-, -, hrest⟩ := of_unit_decided h hu
  rw [decideNextInternal_announced shown highest noProgress h hu ha hseen]
  split_ifs at hrest ⊢ with hnode
  · exact resume_node shown highest noProgress hnode hrest hu ha hk.node hseen
  · rw [← hrest] at hu
    exact ⟨_, rfl, resume_work shown highest noProgress hk hu ha (hother hnode) hseen⟩

/-- At a higher attempt the open escalation blocks the build. -/
theorem seen_of_resumed {step : String} {attempt : Nat}
    (h : decideNextInternal state log config = .ok decision)
    (hu : .verify step attempt ∈ decision.units)
    (ha : Announces state log (.verify step attempt) event.body)
    (hagain : ∃ resumed, decideNextInternal (state.announced event shown)
      (log.announce event highest noProgress) config = .ok resumed ∧
        .verify step attempt ∈ resumed.units) :
    state.openEscalations = [] ∨ attempt ≤ state.maxAttemptSeen := by
  obtain ⟨-, hb, -⟩ := of_unit_decided h hu
  obtain ⟨resumed, hres, hmem⟩ := hagain
  obtain ⟨-, hblocked, -⟩ := of_unit_decided hres hmem
  rw [engineStage_announced state log config shown highest noProgress ha.startsUnit] at hblocked
  by_contra hn
  obtain ⟨hopen, hlt⟩ := not_or.mp hn
  rw [blockedDecision_of_higher shown highest noProgress hb ha hopen
    (Nat.lt_of_not_le hlt)] at hblocked
  cases hblocked

/-- A reconcile of a work build is there again when the rules come to it, which for one left over
from before a revision they need not. -/
theorem resumed_reconcile_iff {attempt : Nat} (hk : KnownBefore state log event.seq)
    (h : decideNextInternal state log config = .ok decision)
    (hu : .phase .reconcile attempt ∈ decision.units)
    (ha : Announces state log (.phase .reconcile attempt) event.body)
    (hnode : state.kind ≠ some .node) :
    (∃ resumed, decideNextInternal (state.announced event shown)
        (log.announce event highest noProgress) config = .ok resumed ∧
          .phase .reconcile attempt ∈ resumed.units) ↔
      if staleReconcile state log = none then
        log.restack.active = none → capturePolicyDecision log.ofConflict = none
      else ReconcileDue state log config (engineStage state log config) := by
  obtain ⟨-, -, hrest⟩ := of_unit_decided h hu
  rw [decideNextInternal_announced shown highest noProgress h hu ha
    fun _ _ he => (by cases he), if_neg hnode]
  rw [if_neg hnode] at hrest
  rw [← hrest] at hu
  have hdue : .phase .reconcile attempt ∈ (decideWork (state.announced event shown)
      (log.announce event highest noProgress) config (engineStage state log config)).units ↔
        ReconcileDue state log config (engineStage state log config) :=
    resume_reconcile_iff shown highest noProgress hk.restart (specReady_of_unit hu) hk.conflict ha
  have hwork : (∃ resumed, Except.ok (decideWork (state.announced event shown)
      (log.announce event highest noProgress) config (engineStage state log config))
        = (.ok resumed : Except String Decision) ∧
          .phase .reconcile attempt ∈ resumed.units) ↔
        ReconcileDue state log config (engineStage state log config) := by
    rw [← hdue]
    constructor
    · rintro ⟨resumed, hres, hmem⟩
      rw [Except.ok.inj hres]
      exact hmem
    · exact fun hmem => ⟨_, rfl, hmem⟩
  rw [hwork]
  split_ifs with hstale
  · exact reconcileDue_iff hstale hu
  · exact Iff.rfl

/-- **The announced unit is decided on again exactly when it is resumable.** -/
theorem resumed_iff (hk : KnownBefore state log event.seq)
    (h : decideNextInternal state log config = .ok decision) (hu : unit ∈ decision.units)
    (ha : Announces state log unit event.body) :
    (∃ resumed, decideNextInternal (state.announced event shown)
        (log.announce event highest noProgress) config = .ok resumed ∧ unit ∈ resumed.units) ↔
      ResumesUnit state log config unit := by
  cases unit with
  | verify step attempt =>
    constructor
    · intro hagain
      refine ⟨fun _ he => (by cases he), fun step' attempt' he => ?_⟩
      cases he
      exact seen_of_resumed shown highest noProgress h hu ha hagain
    · intro hr
      exact resumed_of_seen shown highest noProgress hk h hu ha hr.attempt
        fun _ _ he => by cases he
  | phase core round =>
    by_cases hwork : core = .reconcile ∧ state.kind ≠ some .node
    · obtain ⟨rfl, hnode⟩ := hwork
      rw [resumed_reconcile_iff shown highest noProgress hk h hu ha hnode]
      constructor
      · intro hdue
        refine ⟨fun attempt he _ => hdue, fun step attempt he => (by cases he)⟩
      · exact fun hr => hr.reconcile round rfl hnode
    · refine ⟨fun _ => ⟨fun attempt he hnode => ?_, fun step attempt he => (by cases he)⟩,
        fun _ => resumed_of_seen shown highest noProgress hk h hu ha
          (fun _ _ he => (by cases he)) fun hnode attempt he => ?_⟩
      · cases he
        exact absurd ⟨rfl, hnode⟩ hwork
      · cases he
        exact absurd ⟨rfl, hnode⟩ hwork

end Announced

end Internal

section Logs

variable {events : List StoredEvent} {config : Config} {event : AbEvent} {state : BuildState}
  {unit : StartedUnit}

/-- An empty log decides on no unit. -/
theorem ne_nil_of_unit {decision : Decision} (hstate : reduceBuild events = .ok state)
    (hd : decideNextInternal state.engineFacts
      (effectiveCompletions state.engineFacts (indexLog (projectEvents events))) config
        = .ok decision)
    (hu : unit ∈ decision.units) : events ≠ [] := by
  rintro rfl
  cases hstate
  obtain ⟨-, -, hrest⟩ := of_unit_decided hd hu
  have hwork : decideWork _ _ config _ = decision := hrest
  rw [← hwork] at hu
  exact (specReady_of_unit hu).2 rfl

/-- The receipt of a stage failure is no matter of the unit. -/
theorem decideNext_unit_iff (hstate : reduceBuild events = .ok state) :
    (∃ decision, decideNext events config = .ok decision ∧ unit ∈ decision.units) ↔
      ∃ decision, decideNextInternal state.engineFacts
        (effectiveCompletions state.engineFacts (indexLog (projectEvents events))) config
          = .ok decision ∧ unit ∈ decision.units := by
  have hdecide : decideNext events config
      = (decideNextInternal state.engineFacts
          (effectiveCompletions state.engineFacts (indexLog (projectEvents events))) config).map
            (attachReceipt state.engineFacts (indexLog (projectEvents events)) config) := by
    unfold decideNext
    rw [hstate]
    rfl
  rw [hdecide]
  constructor
  · rintro ⟨decision, hd, hu⟩
    obtain ⟨inner, hinner, rfl⟩ := map_eq_ok.mp hd
    rw [units_attachReceipt] at hu
    exact ⟨inner, hinner, hu⟩
  · rintro ⟨inner, hinner, hu⟩
    refine ⟨_, map_eq_ok.mpr ⟨inner, hinner, rfl⟩, ?_⟩
    rw [units_attachReceipt]
    exact hu

theorem Announces.effective {state : EngineFacts} {log : LogIndex} {body : EventBody}
    (h : Announces state log unit body) :
    Announces state (effectiveCompletions state log) unit body := by
  cases h with
  | plan payload => exact .plan payload
  | planReview round => exact .planReview round
  | implement payload => exact .implement payload
  | codeReview round => exact .codeReview round
  | finalize round => exact .finalize round
  | reconcile payload h => exact .reconcile payload h
  | verify payload h => exact .verify payload h

/-- **Crash-resume stability.**  A unit that was announced and nothing else is decided on again,
with the same round or attempt, exactly when it is resumable. -/
theorem crash_resume_iff {decision : Decision}
    (hp : (events ++ [StoredEvent.known event]).Pairwise (fun a b => a.seq < b.seq))
    (hstate : reduceBuild events = .ok state) (hd : decideNext events config = .ok decision)
    (hu : unit ∈ decision.units)
    (ha : Announces state.engineFacts (indexLog (projectEvents events)) unit event.body) :
    (∃ resumed, decideNext (events ++ [StoredEvent.known event]) config = .ok resumed ∧
        unit ∈ resumed.units) ↔
      ResumesUnit state.engineFacts
        (effectiveCompletions state.engineFacts (indexLog (projectEvents events))) config unit := by
  obtain ⟨inner, hinner, hmem⟩ := (decideNext_unit_iff hstate).mp ⟨decision, hd, hu⟩
  have hstart := ha.startsUnit
  have hknown := knownBefore_of_log hp (ne_nil_of_unit hstate hinner hmem) hstate
  have hrestart : lastRevised (projectEvents events) < event.seq := by
    rw [← indexLog_restartSeq]
    exact hknown.restart
  obtain ⟨next, shown, hnext, hfacts⟩ := reduceBuild_of_announced hstate hstart
  obtain ⟨highest, noProgress, hlog⟩ := indexLog_of_announced hstart hrestart
  have hiff := resumed_iff shown highest noProgress hknown hinner hmem ha.effective
  rw [← effectiveCompletions_announced state.engineFacts _ shown highest noProgress hstart,
    ← hlog, ← projectEvents_known] at hiff
  rw [decideNext_unit_iff hnext, hfacts]
  exact hiff

end Logs

/-! ## 8. Two crashed runners -/

/-- The decision of a log is for the unit. -/
def decidesUnit (events : List StoredEvent) (config : Config) (unit : StartedUnit) : Bool :=
  ((decideNext events config).toOption.map fun decision => decide (unit ∈ decision.units)).getD
    false

theorem exists_of_decidesUnit {events : List StoredEvent} {config : Config} {unit : StartedUnit}
    (h : decidesUnit events config unit = true) :
    ∃ decision, decideNext events config = .ok decision ∧ unit ∈ decision.units := by
  unfold decidesUnit at h
  cases hd : decideNext events config with
  | error message =>
    rw [hd] at h
    cases h
  | ok decision =>
    rw [hd] at h
    exact ⟨decision, rfl, of_decide_eq_true h⟩

/-- A work build without an open escalation. -/
def unblockedWork (events : List StoredEvent) : Bool :=
  ((reduceBuild events).toOption.map fun state =>
    decide (state.kind ≠ some .node) && state.openEscalations.isEmpty).getD false

theorem exists_of_unblockedWork {events : List StoredEvent} (h : unblockedWork events = true) :
    ∃ state, reduceBuild events = .ok state ∧ state.kind ≠ some .node ∧
      state.openEscalations = [] := by
  unfold unblockedWork at h
  cases hs : reduceBuild events with
  | error message =>
    rw [hs] at h
    cases h
  | ok state =>
    rw [hs] at h
    obtain ⟨hk, ho⟩ := Bool.and_eq_true_iff.mp h
    exact ⟨state, rfl, of_decide_eq_true hk, List.isEmpty_iff.mp ho⟩

def verifyStartOf (step : String) (attempt : Nat) : VerifyStarted :=
  ⟨none, none, none, step, attempt, none⟩

/-- The runner died after the start of `unit`. -/
def crashedVerify : List StoredEvent :=
  [.known (kernelEvent 1 (.spec (.imported ⟨"spec", 1⟩))),
    .known (kernelEvent 2 (.planReview (.verdict approvedReview))),
    .known (kernelEvent 3 (.codeReview (.verdict approvedReview))),
    .known (kernelEvent 4 (.verify (.started (verifyStartOf "unit" 1))))]

/-- The next runner dies there as well, and the one after it comes back to the step. -/
theorem crash_resume_iff_crashedVerify :
    ∃ resumed, decideNext
        (crashedVerify ++ [.known (kernelEvent 5 (.verify (.started (verifyStartOf "unit" 1))))])
        unitAndLint = .ok resumed ∧ .verify "unit" 1 ∈ resumed.units := by
  obtain ⟨state, hs, hk, hopen⟩ := exists_of_unblockedWork
    (show unblockedWork crashedVerify = true by decide +kernel)
  obtain ⟨decision, hd, hu⟩ := exists_of_decidesUnit
    (show decidesUnit crashedVerify unitAndLint (.verify "unit" 1) = true by decide +kernel)
  exact (crash_resume_iff (by decide) hs hd hu
    (.verify (verifyStartOf "unit" 1) fun hnode => absurd hnode hk)).mpr
      ⟨fun attempt he => (by cases he), fun step attempt _ => Or.inl hopen⟩

/-- A reconcile that a revision of the spec overtook. -/
def overtakenReconcile : List StoredEvent :=
  [.known (kernelEvent 1 (.spec (.imported ⟨"spec", 1⟩))),
    .known (kernelEvent 2 (.planReview (.verdict approvedReview))),
    .known (kernelEvent 3 (.codeReview (.verdict approvedReview))),
    .known (kernelEvent 4 (.pr (.conflicted "base"))),
    .known (kernelEvent 5 (.reconcile (.started ⟨1, "base", none⟩))),
    .known (kernelEvent 6 (.spec (.revised ⟨"spec", 2⟩ none)))]

/-- **A reconcile that was left over from before a revision is not resumed once it is announced
again**: the engine opens the new plan loop. -/
theorem not_crash_resume_overtaken :
    let announced := kernelEvent 7 (.reconcile (.started ⟨1, "base", none⟩))
    (overtakenReconcile ++ [StoredEvent.known announced]).Pairwise (fun a b => a.seq < b.seq) ∧
    ∃ state decision resumed, reduceBuild overtakenReconcile = .ok state ∧
      decideNext overtakenReconcile unitAndLint = .ok decision ∧
      .phase .reconcile 1 ∈ decision.units ∧
      Announces state.engineFacts (indexLog (projectEvents overtakenReconcile))
        (.phase .reconcile 1) announced.body ∧
      decideNext (overtakenReconcile ++ [.known announced]) unitAndLint = .ok resumed ∧
      .phase .plan 2 ∈ resumed.units ∧ .phase .reconcile 1 ∉ resumed.units := by
  intro announced
  obtain ⟨state, hs, -, -⟩ := exists_of_unblockedWork
    (show unblockedWork overtakenReconcile = true by decide +kernel)
  obtain ⟨decision, hd, hu⟩ := exists_of_decidesUnit
    (show decidesUnit overtakenReconcile unitAndLint (.phase .reconcile 1) = true by
      decide +kernel)
  obtain ⟨resumed, hr, hplan⟩ := exists_of_decidesUnit
    (show decidesUnit (overtakenReconcile ++ [.known announced]) unitAndLint (.phase .plan 2)
      = true by decide +kernel)
  have hid : (none : Option String)
      = (indexLog (projectEvents overtakenReconcile)).restack.activeId := by decide +kernel
  refine ⟨by decide, state, decision, resumed, hs, hd, hu, .reconcile ⟨1, "base", none⟩ hid, hr,
    hplan, fun hagain => ?_⟩
  have hnot : decidesUnit (overtakenReconcile ++ [.known announced]) unitAndLint
      (.phase .reconcile 1) = false := by decide +kernel
  unfold decidesUnit at hnot
  rw [hr] at hnot
  exact of_decide_eq_false hnot hagain

end Autobuild
