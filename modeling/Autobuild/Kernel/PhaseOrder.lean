/-
# The order of the phases

What a log must already hold when the engine decides a unit of work over it, whichever runner
asks and however the log came about.

* A producer works on a round that nothing has completed or judged, and behind which none was
  started (`ProduceGate`); a reviewer on the last round, once it is complete (`ReviewGate`).
* Behind the plan loop there is an approved plan, behind the code loop approved code.
* `unitGate_of_decided`: the engine decides no unit ahead of its gate, of a work build or of a
  node.
* `terminal_final`: once a build has ended, nothing that is appended makes the engine go on.

The loops are read back from the index by two latches, of the verdicts and of the completions
(`judged_loopAfter`, `completed_loopAfter`).
-/
import Autobuild.Kernel.CrashResume
import Autobuild.Kernel.PauseProtocol
import Autobuild.Lib.Coalesce
import Autobuild.Lib.Folds
import Autobuild.Store.Digest

namespace Autobuild

open ObjectMap Checked

/-! ## 1. Rounds that are judged, rounds that are complete -/

namespace LogIndexCandidate

/-- The round a verdict of the loop judges. -/
def judges? (name : LoopName) : LogIndexCandidate → Option Nat
  | .verdict loop _ payload => if loop = name then some payload.round else none
  | _ => none

/-- The round a producer of the loop completes. -/
def completes? (name : LoopName) : LogIndexCandidate → Option Nat
  | .planCompleted _ payload => if .plan = name then some payload.round else none
  | .roundCompleted loop _ round => if loop = name then some round else none
  | _ => none

def finalizes : LogIndexCandidate → Bool
  | .finalizeCompleted _ => true
  | _ => false

end LogIndexCandidate

namespace LoopIndex

def judged (loop : LoopIndex) (round : Nat) : Bool :=
  ((loop.rounds.get? ⟨round⟩).bind (·.verdict)).isSome

def completed (loop : LoopIndex) (round : Nat) : Bool :=
  ((loop.rounds.get? ⟨round⟩).bind (·.completedSeq)).isSome

/-- How a change of the record of a round treats one of its fields: what marks the round writes
the field there, what marks none leaves the field alone. -/
inductive Marks {α : Type} (field : RoundRecord → Option α) (round : Nat)
    (f : RoundRecord → RoundRecord) : Option Nat → Prop
  | writes : (∀ record, (field (f record)).isSome = true) → Marks field round f (some round)
  | keeps : (∀ record, field (f record) = field record) → Marks field round f none

theorem isSome_field_record {α : Type} {field : RoundRecord → Option α} (hnew : field {} = none)
    {round : Nat} {f : RoundRecord → RoundRecord} {marked : Option Nat}
    (h : Marks field round f marked) (loop : LoopIndex) (other : Nat) :
    (((loop.record round f).rounds.get? ⟨other⟩).bind field).isSome
      = (decide (marked = some other) || ((loop.rounds.get? ⟨other⟩).bind field).isSome) := by
  unfold record
  dsimp only
  rw [get?_set]
  by_cases hround : other = round
  · subst hround
    rw [if_pos rfl]
    cases h with
    | writes hf =>
      rw [decide_eq_true rfl, Bool.true_or]
      exact hf _
    | keeps hf =>
      rw [Option.bind_some, hf]
      cases loop.rounds.get? ⟨other⟩ with
      | none => rw [Option.getD_none, hnew]; rfl
      | some record => rfl
  · rw [if_neg fun he => hround (congrArg MapKey.key he)]
    cases h with
    | writes => rw [decide_eq_false fun he => hround (Option.some.inj he).symm, Bool.false_or]
    | keeps => rfl

theorem isSome_field_eq_false {α : Type} {field : RoundRecord → Option α} {loop : LoopIndex}
    {round : Nat}
    (h : ∀ record, loop.rounds.get? ⟨round⟩ = some record → field record = none) :
    ((loop.rounds.get? ⟨round⟩).bind field).isSome = false := by
  cases hr : loop.rounds.get? ⟨round⟩ with
  | none => rfl
  | some record => rw [Option.bind_some, h record hr, Option.isSome_none]

/-- A candidate leaves the loop alone, or changes the record of one round. -/
theorem advance_cases (name : LoopName) (loop : LoopIndex) (c : LogIndexCandidate) :
    (c.judges? name = none ∧ c.completes? name = none ∧ loop.advance name c = loop) ∨
      ∃ round f, Marks (·.verdict) round f (c.judges? name) ∧
        Marks (·.completedSeq) round f (c.completes? name) ∧
        (loop.advance name c).rounds = (loop.record round f).rounds := by
  cases c with
  | roundStart other seq round =>
    by_cases hname : other = name
    · exact .inr ⟨round, ({ · with startedSeq := some seq }), .keeps fun _ => rfl,
        .keeps fun _ => rfl, by rw [advance, if_pos hname]⟩
    · exact .inl ⟨rfl, rfl, if_neg hname⟩
  | planCompleted seq payload =>
    by_cases hname : LoopName.plan = name
    · subst hname
      exact .inr ⟨payload.round, fun record =>
        { record with
          completedSeq := some seq
          planCompletion := some ⟨seq, payload.artifact, payload.verifySteps⟩ },
        .keeps fun _ => rfl, .writes fun _ => rfl, rfl⟩
    · exact .inl ⟨rfl, if_neg hname, if_neg hname⟩
  | roundTouch other seq round =>
    by_cases hname : other = name
    · exact .inr ⟨round, id, .keeps fun _ => rfl, .keeps fun _ => rfl,
        by rw [advance, if_pos hname]⟩
    · exact .inl ⟨rfl, rfl, if_neg hname⟩
  | roundCompleted other seq round =>
    by_cases hname : other = name
    · subst hname
      refine .inr ⟨round, ({ · with completedSeq := some seq }), .keeps fun _ => rfl, ?_,
        by rw [advance, if_pos rfl]⟩
      rw [LogIndexCandidate.completes?, if_pos rfl]
      exact .writes fun _ => rfl
    · exact .inl ⟨rfl, if_neg hname, if_neg hname⟩
  | verdict other seq payload =>
    by_cases hname : other = name
    · subst hname
      refine .inr ⟨payload.round, ({ · with verdict := some (verdictRecord seq payload) }), ?_,
        .keeps fun _ => rfl, by rw [advance_verdict]; rfl⟩
      rw [LogIndexCandidate.judges?, if_pos rfl]
      exact .writes fun _ => rfl
    · exact .inl ⟨if_neg hname, rfl, if_neg hname⟩
  | _ => exact .inl ⟨rfl, rfl, rfl⟩

theorem judged_advance (name : LoopName) (loop : LoopIndex) (c : LogIndexCandidate)
    (round : Nat) :
    (loop.advance name c).judged round
      = (decide (c.judges? name = some round) || loop.judged round) := by
  obtain ⟨hnone, -, hloop⟩ | ⟨other, f, hmarks, -, hrounds⟩ := loop.advance_cases name c
  · rw [hloop, hnone]
    rfl
  · unfold judged
    rw [hrounds]
    exact isSome_field_record rfl hmarks loop round

theorem completed_advance (name : LoopName) (loop : LoopIndex) (c : LogIndexCandidate)
    (round : Nat) :
    (loop.advance name c).completed round
      = (decide (c.completes? name = some round) || loop.completed round) := by
  obtain ⟨-, hnone, hloop⟩ | ⟨other, f, -, hmarks, hrounds⟩ := loop.advance_cases name c
  · rw [hloop, hnone]
    rfl
  · unfold completed
    rw [hrounds]
    exact isSome_field_record rfl hmarks loop round

end LoopIndex

section Fold

variable (name : LoopName) (highest : Nat)

theorem judged_loopAfter {cs : List LogIndexCandidate} {round : Nat} :
    (loopAfter name highest cs).judged round = true ↔
      ∃ c ∈ cs, c.judges? name = some round := by
  unfold loopAfter
  rw [Folds.latch_foldl (LoopIndex.judged · round) fun loop c => loop.judged_advance name c round]
  have hempty : LoopIndex.judged { maxRoundEver := highest } round = false := rfl
  rw [hempty, Bool.or_false, List.any_eq_true]
  simp only [decide_eq_true_iff]

theorem completed_loopAfter {cs : List LogIndexCandidate} {round : Nat} :
    (loopAfter name highest cs).completed round = true ↔
      ∃ c ∈ cs, c.completes? name = some round := by
  unfold loopAfter
  rw [Folds.latch_foldl (LoopIndex.completed · round)
    fun loop c => loop.completed_advance name c round]
  have hempty : LoopIndex.completed { maxRoundEver := highest } round = false := rfl
  rw [hempty, Bool.or_false, List.any_eq_true]
  simp only [decide_eq_true_iff]

end Fold

/-! ## 2. The gates of the loops -/

/-- The round an event completes for the producer of the loop. -/
def LoopName.completed? : LoopName → EventBody → Option Nat
  | .plan, .plan (.completed payload) => some payload.round
  | .code, .implement (.completed payload) => some payload.round
  | _, _ => none

theorem exists_completes_iff (seq : Nat) {name : LoopName} {round : Nat} {body : EventBody} :
    (∃ c ∈ candidatesOf seq body, c.completes? name = some round) ↔
      name.completed? body = some round := by
  constructor
  · rintro ⟨c, hc, hr⟩
    unfold LogIndexCandidate.completes? at hr
    split at hr
    · split_ifs at hr with hname
      subst hname
      unfold candidatesOf at hc
      split at hc <;> simp at hc
      obtain ⟨-, rfl⟩ := hc
      exact hr
    · split_ifs at hr with hname
      subst hname
      unfold candidatesOf at hc
      split at hc <;> simp at hc
      obtain ⟨rfl, -, rfl⟩ := hc
      exact hr
    · cases hr
  · intro h
    unfold LoopName.completed? at h
    split at h <;> cases h
    all_goals exact ⟨_, List.mem_cons_self, rfl⟩

section Gates

variable (events : List AbEvent) (name : LoopName) (round : Nat)

/-- Since the last revision the loop has seen no later round. -/
def LastRound : Prop :=
  ∀ event ∈ events, lastRevised events < event.seq → ∀ other,
    name.round? event.body = some other → other ≤ round

/-- Since the last revision the round has no verdict. -/
def Unjudged : Prop :=
  ∀ event ∈ events, lastRevised events < event.seq → ∀ verdict,
    name.verdict? event.body = some verdict → verdict.round ≠ round

/-- Since the last revision the round was completed. -/
def RoundCompleted : Prop :=
  ∃ event ∈ events, lastRevised events < event.seq ∧ name.completed? event.body = some round

/-- What a producer needs of the round it works on. -/
structure ProduceGate : Prop where
  positive : 0 < round
  last : LastRound events name round
  unjudged : Unjudged events name round
  incomplete : ¬RoundCompleted events name round

/-- What a reviewer needs of the round it judges. -/
structure ReviewGate : Prop where
  positive : 0 < round
  last : LastRound events name round
  unjudged : Unjudged events name round
  completed : RoundCompleted events name round

variable {events name round}

theorem judged_indexLog :
    ((indexLog events).loop name).judged round = true ↔ ¬Unjudged events name round := by
  obtain ⟨highest, hl⟩ := indexLog_loop events name
  rw [hl, judged_loopAfter]
  constructor
  · rintro ⟨c, hc, hr⟩ hnone
    obtain ⟨event, he, hs, -, hm⟩ := event_of_mem_fresh hc
    unfold LogIndexCandidate.judges? at hr
    split at hr
    · rename_i loop seq payload
      split_ifs at hr with hname
      subst hname
      exact hnone event he hs payload (verdict_mem_candidatesOf.mp hm).2 (Option.some.inj hr)
    · cases hr
  · intro h
    unfold Unjudged at h
    push Not at h
    obtain ⟨event, he, hs, verdict, hv, hr⟩ := h
    refine ⟨.verdict name event.seq verdict,
      mem_fresh_of_event he hs (verdict_mem_candidatesOf.mpr ⟨rfl, hv⟩), ?_⟩
    exact (if_pos rfl).trans (congrArg some hr)

theorem completed_indexLog :
    ((indexLog events).loop name).completed round = true ↔ RoundCompleted events name round := by
  obtain ⟨highest, hl⟩ := indexLog_loop events name
  rw [hl, completed_loopAfter]
  constructor
  · rintro ⟨c, hc, hr⟩
    obtain ⟨event, he, hs, -, hm⟩ := event_of_mem_fresh hc
    exact ⟨event, he, hs, (exists_completes_iff event.seq).mp ⟨c, hm, hr⟩⟩
  · rintro ⟨event, he, hs, hc⟩
    obtain ⟨c, hm, hr⟩ := (exists_completes_iff event.seq).mpr hc
    exact ⟨c, mem_fresh_of_event he hs hm, hr⟩

theorem lastRound_of_maxRound_le (h : ((indexLog events).loop name).maxRound ≤ round) :
    LastRound events name round := by
  intro event he hs other ho
  obtain ⟨highest, hl⟩ := indexLog_loop events name
  obtain ⟨c, hc, hr⟩ := exists_candidate_of_round event.seq ho
  rw [hl] at h
  exact (le_maxRound name highest (mem_fresh_of_event he hs hc) hr).trans h

/-- A round whose record is empty, or missing, is neither judged nor complete. -/
theorem produceGate_of_open (hpos : 0 < round)
    (hmax : ((indexLog events).loop name).maxRound ≤ round)
    (h : ∀ record, ((indexLog events).loop name).rounds.get? ⟨round⟩ = some record →
      record.verdict = none ∧ record.completedSeq = none) :
    ProduceGate events name round := by
  refine ⟨hpos, lastRound_of_maxRound_le hmax, ?_, ?_⟩
  · by_contra hjudged
    have hj := judged_indexLog.mpr hjudged
    rw [LoopIndex.judged, LoopIndex.isSome_field_eq_false fun record hr => (h record hr).1] at hj
    cases hj
  · intro hcompleted
    have hc := completed_indexLog.mpr hcompleted
    rw [LoopIndex.completed,
      LoopIndex.isSome_field_eq_false fun record hr => (h record hr).2] at hc
    cases hc

/-- The round after the last is open. -/
theorem produceGate_succ (events : List AbEvent) (name : LoopName) :
    ProduceGate events name (((indexLog events).loop name).maxRound + 1) := by
  refine produceGate_of_open (Nat.succ_pos _) (Nat.le_succ _) fun record hr => ?_
  rw [bounded_indexLog events name _ (Nat.lt_succ_self _)] at hr
  cases hr

/-- What a loop over the index runs is behind its gate. -/
theorem gate_of_loop {args : LoopArgs} {run : RunPhase}
    (hloop : args.loop = (indexLog events).loop name)
    (h : decideLoop args = some (.runPhase run)) :
    (run.phase = args.producer ∧ ProduceGate events name run.round) ∨
      (run.phase = args.reviewer ∧ ReviewGate events name run.round) := by
  have hb : args.loop.Bounded := by
    rw [hloop]
    exact bounded_indexLog events name
  rcases of_decideLoop_run hb h with ⟨hphase, hpos, hmax, hopen⟩ |
    ⟨hphase, hmax, hround, record, hr, hv, hc⟩
  · rw [hloop] at hmax hopen
    exact Or.inl ⟨hphase, produceGate_of_open hpos hmax hopen⟩
  · rw [hloop] at hmax hround hr
    refine Or.inr ⟨hphase, ?_⟩
    rw [hround]
    refine ⟨Nat.pos_of_ne_zero hmax, lastRound_of_maxRound_le le_rfl, ?_, ?_⟩
    · by_contra hjudged
      have hj := judged_indexLog.mpr hjudged
      unfold LoopIndex.judged at hj
      rw [hr, Option.bind_some, hv] at hj
      cases hj
    · refine completed_indexLog.mp ?_
      unfold LoopIndex.completed
      rw [hr]
      exact hc

end Gates

/-! ## 3. The gates of the units -/

section Units

variable (events : List AbEvent) (state : BuildState) (config : Config)

/-- The phase in progress is a reconcile that a revision overtook. -/
def OvertakenReconcile : Prop :=
  ∃ ctx, state.currentPhase = some ctx ∧ ctx.phase = .core .reconcile ∧
    ctx.seq < lastRevised events

/-- What a unit of a work build needs of the log. -/
def WorkGate : StartedUnit → Prop
  | .phase .plan round => ProduceGate events .plan round
  | .phase .planReview round => ReviewGate events .plan round
  | .phase .implement round => ApprovedSince events .plan ∧ ProduceGate events .code round
  | .phase .codeReview round => ApprovedSince events .plan ∧ ReviewGate events .code round
  | .phase .finalize round =>
    round = 1 ∧ ApprovedSince events .plan ∧ ApprovedSince events .code ∧
      ∀ event ∈ events, lastRevised events < event.seq → ∀ payload,
        event.body ≠ .finalize (.completed payload)
  | .phase .reconcile _ =>
    OvertakenReconcile events state ∨ (ApprovedSince events .plan ∧ ApprovedSince events .code)
  | .verify step _ =>
    ApprovedSince events .plan ∧ ApprovedSince events .code ∧
      ¬StepVerified events (CancelledBefore events) step

/-- What a unit of a node needs of the state: a conflict to reconcile, or else a cycle that is
current, complete and not failed. -/
def NodeGate : StartedUnit → Prop
  | .phase .reconcile _ => (state.nodeRestack.bind (·.conflict)).isSome = true
  | .verify _ _ =>
    (state.nodeRestack.bind (·.conflict)).isSome = false ∧
      integrationCurrent state.engineFacts = true ∧
      integrationFailed state.engineFacts.cycleState = false
  | _ => False

/-- What the engine needs to decide a unit. -/
structure UnitGate (unit : StartedUnit) : Prop where
  live : state.status ≠ .done ∧ state.status ≠ .aborted ∧ state.status ≠ .paused
  noCommand : ∀ pending ∈ state.pendingCommands,
    pending.command ≠ .pause ∧ pending.command ≠ .abort
  /-- Only a verifier of a staged configuration may be waiting for an answer. -/
  escalations : ∀ escalation ∈ state.openEscalations, config.verify.stages ≠ none ∧
    ∃ step, raisedByVerifier state.engineFacts escalation step = true
  spec : state.kind ≠ some .node → state.specRev ≠ none ∧
    ∀ answered ∈ state.answeredEscalations, answered.resolution = .reviseSpec →
      answered.answeredSeq ≤ lastRevised events
  work : state.kind ≠ some .node → WorkGate events state unit
  node : state.kind = some .node → NodeGate state unit

end Units

/-! ## 4. What the rules say -/

section Rules

variable {state : EngineFacts} {log : LogIndex} {config : Config} {stage : Option ActiveStage}
  {unit : StartedUnit}

theorem noCommand_of_silent (h : commandDecision state log = none) :
    ∀ pending ∈ state.pendingCommands, pending.command ≠ .pause ∧ pending.command ≠ .abort := by
  obtain ⟨-, -, -, habort, hpause⟩ := of_commandDecision_none h
  intro pending hm
  unfold EngineFacts.requests at habort hpause
  rw [List.any_eq_false] at habort hpause
  exact ⟨by simpa using hpause pending hm, by simpa using habort pending hm⟩

theorem escalations_of_silent
    (h : blockedDecision state log (engineStage state log config) = none) :
    ∀ escalation ∈ state.openEscalations, config.verify.stages ≠ none ∧
      ∃ step, raisedByVerifier state escalation step = true := by
  intro escalation hm
  unfold blockedDecision at h
  split_ifs at h with ha
  have htolerated : toleratedEscalation state (engineStage state log config) escalation = true := by
    by_contra hno
    exact ha (List.any_eq_true.mpr ⟨escalation, hm, by simpa using hno⟩)
  unfold toleratedEscalation at htolerated
  split at htolerated
  · cases htolerated
  · rename_i active hactive
    obtain ⟨step, -, hstep⟩ := List.any_eq_true.mp htolerated
    refine ⟨fun hstages => ?_, step, hstep⟩
    unfold engineStage at hactive
    rw [if_pos hstages] at hactive
    cases hactive

/-- The members that are decided on are not satisfied yet. -/
theorem unsatisfied_of_members {decision : Decision}
    (h : membersDecision state log config stage = some decision) (hu : unit ∈ decision.units) :
    ∃ step, unit = .verify step log.attempt ∧ log.satisfied step = false := by
  have hmember : ∀ step member, memberDecision state log config step = some member →
      unit ∈ member.units → unit = .verify step log.attempt ∧ log.satisfied step = false := by
    intro step member hd hm
    refine ⟨unit_of_memberDecision hd hm, Bool.eq_false_iff.mpr fun hs => ?_⟩
    rw [memberDecision_eq_none_iff.mpr (Or.inl hs)] at hd
    cases hd
  unfold membersDecision at h
  split at h
  · dsimp only at h
    split_ifs at h
    · cases h
      exact absurd hu List.not_mem_nil
    · cases h
      obtain ⟨member, hm, hu⟩ := List.mem_flatMap.mp hu
      obtain ⟨step, -, hd⟩ := List.mem_filterMap.mp hm
      exact ⟨step, hmember step member hd hu⟩
  · obtain ⟨member, hm, rfl⟩ := Option.map_eq_some_iff.mp h
    obtain ⟨step, -, hd⟩ := List.exists_of_findSome?_eq_some hm
    exact ⟨step, hmember step member hd hu⟩

theorem nodeGate_of_unit {state : BuildState} {decision : Decision}
    (h : decideNode state.engineFacts log config stage = .ok decision)
    (hu : unit ∈ decision.units) : NodeGate state unit := by
  have h' := h
  unfold decideNode at h'
  rcases unit_of_node h hu with ⟨hconflict, rfl⟩ | ⟨hconflict, cycle, step, hcycle, rfl⟩
  · exact hconflict
  · rw [if_neg (Bool.eq_false_iff.mp hconflict), hcycle] at h'
    dsimp only at h'
    split_ifs at h' with hstale hfailed
    · cases h'
      exact absurd hu List.not_mem_nil
    · cases h'
      exact absurd hu List.not_mem_nil
    · refine ⟨hconflict, ?_, Bool.eq_false_iff.mpr hfailed⟩
      by_contra hcurrent
      exact hstale (by simp [hcurrent])

end Rules

/-! ## 5. No unit is decided ahead of its gate -/

section Decided

variable {events : List AbEvent}

/-- Finalization is complete exactly when the log says so since the last revision. -/
theorem finalizeCompleted_indexLog :
    (indexLog events).finalizeCompleted = true ↔
      ∃ event ∈ events, lastRevised events < event.seq ∧
        ∃ payload, event.body = .finalize (.completed payload) := by
  have hstep : ∀ (replay : PostRestart) (c : LogIndexCandidate),
      (replay.replayCandidate c).finalizeCompleted
        = (c.finalizes || replay.finalizeCompleted) := by
    intro replay c
    cases c with
    | roundStart loop seq round => cases loop <;> rfl
    | roundTouch loop seq round => cases loop <;> rfl
    | roundCompleted loop seq round => cases loop <;> rfl
    | verdict loop seq payload => cases loop <;> rfl
    | _ => rfl
  have hfold : (indexLog events).finalizeCompleted
      = ((fresh events).any (·.finalizes) || false) := by
    show (indexLog events).toPostRestart.finalizeCompleted = _
    rw [indexLog_postRestart, Folds.latch_foldl PostRestart.finalizeCompleted hstep]
    rfl
  rw [hfold, Bool.or_false, List.any_eq_true]
  constructor
  · rintro ⟨c, hc, hf⟩
    obtain ⟨event, he, hs, -, hm⟩ := event_of_mem_fresh hc
    refine ⟨event, he, hs, ?_⟩
    unfold LogIndexCandidate.finalizes at hf
    split at hf
    · unfold candidatesOf at hm
      split at hm <;> simp at hm
      rename_i payload hb
      exact ⟨payload, hb⟩
    · cases hf
  · rintro ⟨event, he, hs, payload, hb⟩
    refine ⟨.finalizeCompleted event.seq, mem_fresh_of_event he hs ?_, rfl⟩
    rw [hb]
    exact List.mem_cons_self

/-- A verified step is satisfied in the index. -/
theorem satisfied_of_stepVerified (hp : events.Pairwise (fun a b => a.seq < b.seq))
    {stage : VerifyStageState} (hcan : CancellationsOf events stage)
    {facts : EngineFacts} (hfacts : facts.verifyStage.cancellations = stage.cancellations)
    (hcode : ApprovedSince events .code) {step : String}
    (h : StepVerified events (CancelledBefore events) step) :
    (effectiveCompletions facts (indexLog events)).satisfied step = true := by
  obtain ⟨event, he, payload, hb, hstep, hok, hpast, hnot⟩ := h
  obtain ⟨approval, hae, verdict, has, hav, haa, -⟩ := hcode
  have hlate : approval.seq < event.seq := hpast approval hae has
    ((opensCycle_iff approval.seq).mpr
      (Or.inl ⟨verdict, verdict_mem_candidatesOf.mpr ⟨rfl, hav⟩, haa⟩))
  have hcycle : (indexLog events).cycleBoundary < event.seq := by
    by_contra hle
    obtain ⟨other, ho, hso, hoq, hoo⟩ := cycleBoundary_mem events (by omega)
    have hlt := hpast other ho hso hoo
    omega
  have hkept := (kept_iff hp hcan he (show memberCompleted? event.body
    = some (verifyMemberKey payload.step payload.attempt) by rw [hb]; rfl)).mpr hnot
  unfold LogIndex.satisfied LogIndex.cycleResults
  refine List.any_eq_true.mpr ⟨⟨normalizeVerifyCompletion payload, event.seq⟩,
    List.mem_filter.mpr ⟨List.mem_filter.mpr ⟨mem_verifyCompleted.mpr
      ⟨event, he, has.trans hlate, payload, hb, rfl⟩, ?_⟩, decide_eq_true hcycle⟩, ?_⟩
  · rw [normalizeVerifyCompletion_step, normalizeVerifyCompletion_attempt, hfacts]
    exact hkept
  · rw [normalizeVerifyCompletion_step, hstep, hok]
    simp

/-- The work gate of a unit, from the rule that decided it. -/
theorem workGate_of_unit (hp : events.Pairwise (fun a b => a.seq < b.seq)) {state : BuildState}
    (hcan : CancellationsOf events state.verifyStage) {config : Config}
    {stage : Option ActiveStage} {unit : StartedUnit}
    (hu : unit ∈ (decideWork state.engineFacts
      (effectiveCompletions state.engineFacts (indexLog events)) config stage).units) :
    WorkGate events state unit := by
  have happroved : ∀ {name : LoopName} {args : LoopArgs},
      args.loop = (indexLog events).loop name → decideLoop args = none →
      ApprovedSince events name := by
    intro name args hloop hnone
    obtain ⟨verdict, hv, ha⟩ := of_decideLoop_none hnone
    rw [hloop] at hv
    exact approvedSince_of_silent hp hv ha
  cases workRule_of_unit hu with
  | stale attempt h hunit =>
    subst hunit
    unfold staleReconcile at h
    split at h
    · cases h
    · rename_i ctx hctx
      split_ifs at h with hstale
      refine Or.inl ⟨ctx, hctx, hstale.1, ?_⟩
      rw [← indexLog_restartSeq]
      exact hstale.2
  | plan run _ hr hunit =>
    subst hunit
    rcases @gate_of_loop events .plan _ _ rfl hr with ⟨hphase, hg⟩ | ⟨hphase, hg⟩
    · rw [hphase]
      exact hg
    · rw [hphase]
      exact hg
  | code run _ hplan hr hunit =>
    subst hunit
    have hp' : ApprovedSince events .plan := happroved rfl hplan
    rcases @gate_of_loop events .code _ _ rfl hr with ⟨hphase, hg⟩ | ⟨hphase, hg⟩
    · rw [hphase]
      exact ⟨hp', hg⟩
    · rw [hphase]
      exact ⟨hp', hg⟩
  | verify decision _ hplan hcode hv hunit =>
    have hp' : ApprovedSince events .plan := happroved rfl hplan
    have hc' : ApprovedSince events .code := happroved rfl hcode
    cases verifyRule_of_unit hplan hcode hv hunit with
    | route hunit =>
      subst hunit
      exact ⟨hp', produceGate_succ events .code⟩
    | replay _ _ hunit =>
      obtain ⟨attempt, rfl⟩ := hunit
      exact Or.inr ⟨hp', hc'⟩
    | members _ decision _ _ _ hm hunit =>
      obtain ⟨step, rfl, hs⟩ := unsatisfied_of_members hm hunit
      refine ⟨hp', hc', fun hverified => ?_⟩
      rw [satisfied_of_stepVerified hp hcan rfl hc' hverified] at hs
      cases hs
  | epilogue _ hplan hcode _ hunit =>
    have hp' : ApprovedSince events .plan := happroved rfl hplan
    have hc' : ApprovedSince events .code := happroved rfl hcode
    rcases unit_of_epilogue hunit with ⟨hopen, rfl⟩ | ⟨-, -, attempt, rfl⟩
    · refine ⟨rfl, hp', hc', fun event he hs payload hb => ?_⟩
      have hdone := finalizeCompleted_indexLog.mpr ⟨event, he, hs, payload, hb⟩
      have hopen : (indexLog events).finalizeCompleted = false := hopen
      rw [hdone] at hopen
      cases hopen
    · exact Or.inr ⟨hp', hc'⟩

end Decided

/-- **The engine decides no unit ahead of its gate.** -/
theorem unitGate_of_decided {events : List StoredEvent} {config : Config} {decision : Decision}
    {unit : StartedUnit} (hp : events.Pairwise (fun a b => a.seq < b.seq))
    (h : decideNext events config = .ok decision) (hu : unit ∈ decision.units) :
    ∃ state, reduceBuild events = .ok state ∧
      UnitGate (projectEvents events) state config unit := by
  obtain ⟨state, hstate, -⟩ := bind_eq_ok.mp (show decideNext events config = .ok decision from h)
  obtain ⟨inner, hinner, hmem⟩ := (decideNext_unit_iff hstate).mp ⟨decision, h, hu⟩
  obtain ⟨hcommand, hblocked, hrule⟩ := of_unit_decided hinner hmem
  obtain ⟨haborted, hdone, hpaused, -, -⟩ := of_commandDecision_none hcommand
  have hpe := projectEvents_pairwise hp
  have hwork : state.kind ≠ some .node → unit ∈ (decideWork state.engineFacts
      (effectiveCompletions state.engineFacts (indexLog (projectEvents events))) config
      (engineStage state.engineFacts
        (effectiveCompletions state.engineFacts (indexLog (projectEvents events)))
        config)).units := by
    intro hkind
    rw [if_neg (show state.engineFacts.kind ≠ some .node from hkind)] at hrule
    rw [hrule]
    exact hmem
  refine ⟨state, hstate, ⟨hdone, haborted, hpaused⟩, noCommand_of_silent hcommand,
    escalations_of_silent hblocked, fun hkind => ?_, fun hkind => ?_, fun hkind => ?_⟩
  · obtain ⟨hrevised, hspec⟩ := specReady_of_unit (hwork hkind)
    refine ⟨hspec, fun answered ha hr => ?_⟩
    rw [← indexLog_restartSeq]
    by_contra hlate
    have hasked := List.any_eq_false.mp hrevised answered ha
    exact hasked (decide_eq_true ⟨hr, Nat.lt_of_not_le hlate⟩)
  · exact workGate_of_unit hpe (cancellationsOf_reduceBuild hp hstate) (hwork hkind)
  · rw [if_pos (show state.engineFacts.kind = some .node from hkind)] at hrule
    exact nodeGate_of_unit hrule hmem

/-- Planned and approved, and not implemented yet. -/
def approvedPlanOnly : List StoredEvent :=
  [.known (kernelEvent 1 (.spec (.imported ⟨"spec", 1⟩))),
    .known (kernelEvent 2 (.planReview (.verdict approvedReview)))]

theorem unitGate_of_decided_approvedPlanOnly :
    ∃ state, reduceBuild approvedPlanOnly = .ok state ∧
      UnitGate (projectEvents approvedPlanOnly) state unitAndLint (.phase .implement 1) := by
  obtain ⟨decision, hd, hu⟩ := exists_of_decidesUnit
    (show decidesUnit approvedPlanOnly unitAndLint (.phase .implement 1) = true by decide +kernel)
  exact unitGate_of_decided (by decide) hd hu

/-! ## 6. The end of a build -/

/-- How an event ends the build. -/
def terminalOf : EventBody → Option Terminal
  | .build (.completed _) => some .done
  | .build .aborted => some .aborted
  | _ => none

/-- How the build has ended; the latest end wins. -/
def terminalOfLog (events : List AbEvent) : Option Terminal :=
  events.reverse.findSome? fun event => terminalOf event.body

def Terminal.reason : Terminal → WaitReason
  | .done => .done
  | .aborted => .aborted

theorem foldTerminal_eq (terminal : Option Terminal) (event : AbEvent) :
    foldTerminal terminal event = (terminalOf event.body).or terminal := by
  obtain ⟨seq, ts, actor, body⟩ := event
  cases body with
  | build body => cases body <;> rfl
  | _ => rfl

theorem terminalOfLog_eq (events : List AbEvent) :
    terminalOfLog events = events.foldl foldTerminal none := by
  rw [terminalOfLog, Coalesce.findSome?_reverse_eq_foldl, funext₂ foldTerminal_eq]

/-- **A build that has ended has ended for good**: whatever is appended, the engine waits. -/
theorem terminal_final {events after : List StoredEvent} {config : Config} {decision : Decision}
    (hended : (terminalOfLog (projectEvents events)).isSome = true)
    (h : decideNext (events ++ after) config = .ok decision) :
    ∃ terminal, terminalOfLog (projectEvents (events ++ after)) = some terminal ∧
      (decision = .wait .mixedVersion ∨ decision = .wait terminal.reason) := by
  obtain ⟨state, hstate, -⟩ :=
    bind_eq_ok.mp (show decideNext (events ++ after) config = .ok decision from h)
  have hsome : (terminalOfLog (projectEvents (events ++ after))).isSome = true := by
    unfold terminalOfLog at hended ⊢
    rw [projectEvents_append, List.reverse_append, List.findSome?_append, Option.isSome_or, hended,
      Bool.or_true]
  obtain ⟨terminal, hterminal⟩ := Option.isSome_iff_exists.mp hsome
  refine ⟨terminal, hterminal, ?_⟩
  have hshown : state.status.terminal = some terminal := by
    rw [reduceBuild_terminal hstate, ← terminalOfLog_eq, hterminal]
  by_cases hmixed : mixedVersionDeferred state.engineFacts = true
  · exact Or.inl (decideNext_of_commandDecision hstate (if_pos hmixed) h)
  · right
    refine @decideNext_of_commandDecision _ _ _ (.wait terminal.reason) _ hstate ?_ h
    rw [commandDecision, if_neg hmixed]
    show (if state.status = .aborted then _ else if state.status = .done then _ else _) = _
    cases hstatus : state.status <;> rw [hstatus] at hshown <;> cases hshown <;> rfl

/-- Aborted; a reviewer that has not heard of it starts. -/
theorem terminal_final_abortedBefore :
    ∃ terminal, terminalOfLog (projectEvents ([.known (kernelEvent 1 (.build .aborted))]
        ++ [.known (kernelEvent 2 (.planReview (.started 1)))])) = some terminal ∧
      (Decision.wait .aborted = .wait .mixedVersion ∨
        Decision.wait .aborted = .wait terminal.reason) :=
  @terminal_final _ _ unitAndLint _ (by decide)
    (decideNext_of_decidesTo (show decidesTo _ _ (.wait .aborted) = true by decide +kernel))

end Autobuild
