/-
# One review loop, two implementations

`converge` holds the loop on the stack; the engine decides each step again from the log.

* `scriptLog` is the log of a script of verdicts, as the runner appends it, and `engineLoop`
  applies `decideLoop` to its prefixes.
* `LoopAt` is what the index knows of the loop after some rounds (`loopAt_scriptLog`).
* The engine raises on live chains only.  A chain that stalls first with the latest round has a
  member in it, so up to the first stall the filter removes nothing (`liveChains_of_newly_stalled`).
* `engineLoop_eq_converge` follows by induction on the rounds that are left.
-/
import Autobuild.Kernel.Converge
import Autobuild.Kernel.PauseProtocol

namespace Autobuild

open ObjectMap

/-! ## 1. The log of a script -/

namespace Verdict

def kind : Verdict → ReviewVerdictKind
  | approve => .approve
  | revise _ => .revise
  | escalate _ => .escalate

/-- Only a revise carries findings. -/
def findings : Verdict → List Finding
  | revise findings => findings
  | _ => []

def reason : Verdict → Option String
  | escalate reason => some reason
  | _ => none

/-- The payload a reviewer deposits. -/
def payload (round : Nat) (verdict : Verdict) : ReviewVerdict where
  round := round
  verdict := verdict.kind
  findings := verdict.findings
  artifact := ⟨"review", round⟩
  reason := verdict.reason

end Verdict

/-- The events of the round after `rounds` rounds, four for each. -/
def roundEvents (name : LoopName) (rounds : Nat) (verdict : Verdict) : List AbEvent :=
  match name with
  | .plan =>
    [kernelEvent (4 * rounds + 1) (.plan (.started ⟨rounds + 1, none⟩)),
      kernelEvent (4 * rounds + 2) (.plan (.completed ⟨rounds + 1, ⟨"plan", rounds + 1⟩, none⟩)),
      kernelEvent (4 * rounds + 3) (.planReview (.started (rounds + 1))),
      kernelEvent (4 * rounds + 4) (.planReview (.verdict (verdict.payload (rounds + 1))))]
  | .code =>
    [kernelEvent (4 * rounds + 1) (.implement (.started ⟨rounds + 1, none, none⟩)),
      kernelEvent (4 * rounds + 2) (.implement (.completed
        ⟨rounds + 1, ⟨"base", "head"⟩, ⟨"code", rounds + 1⟩⟩)),
      kernelEvent (4 * rounds + 3) (.codeReview (.started (rounds + 1))),
      kernelEvent (4 * rounds + 4) (.codeReview (.verdict (verdict.payload (rounds + 1))))]

/-- The log of the first rounds of a script. -/
def scriptLog (name : LoopName) (script : Nat → Verdict) : Nat → List AbEvent
  | 0 => []
  | rounds + 1 => scriptLog name script rounds ++ roundEvents name rounds (script (rounds + 1))

/-- The findings of the first rounds. -/
def scriptFindings (script : Nat → Verdict) : Nat → List (List Finding)
  | 0 => []
  | rounds + 1 => scriptFindings script rounds ++ [(script (rounds + 1)).findings]

@[simp] theorem length_scriptFindings (script : Nat → Verdict) :
    ∀ rounds, (scriptFindings script rounds).length = rounds
  | 0 => rfl
  | rounds + 1 => by
    unfold scriptFindings
    rw [List.length_append, length_scriptFindings script rounds, List.length_singleton]

/-- The candidates of a round. -/
def roundCandidates (name : LoopName) (rounds : Nat) (verdict : Verdict) :
    List LogIndexCandidate :=
  (roundEvents name rounds verdict).flatMap fun event => candidatesOf event.seq event.body

theorem lastRevised_scriptLog (name : LoopName) (script : Nat → Verdict) :
    ∀ rounds, lastRevised (scriptLog name script rounds) = 0
  | 0 => rfl
  | rounds + 1 => by
    have ih := lastRevised_scriptLog name script rounds
    unfold lastRevised at ih ⊢
    unfold scriptLog
    rw [List.foldl_append, ih]
    cases name <;> rfl

theorem seq_pos_of_mem_scriptLog {name : LoopName} {script : Nat → Verdict} :
    ∀ {rounds : Nat} {event : AbEvent}, event ∈ scriptLog name script rounds → 0 < event.seq
  | 0, _, h => absurd h List.not_mem_nil
  | rounds + 1, event, h => by
    rcases List.mem_append.mp h with h | h
    · exact seq_pos_of_mem_scriptLog h
    · cases name <;> simp only [roundEvents, kernelEvent, List.mem_cons, List.not_mem_nil,
        or_false] at h <;> rcases h with rfl | rfl | rfl | rfl <;> exact Nat.succ_pos _

/-- Nothing of a script is before a restart. -/
theorem fresh_scriptLog (name : LoopName) (script : Nat → Verdict) (rounds : Nat) :
    fresh (scriptLog name script rounds) = candidatesOfLog (scriptLog name script rounds) := by
  unfold fresh candidatesSince
  rw [lastRevised_scriptLog]
  refine List.filter_eq_self.mpr fun c hc => decide_eq_true ?_
  obtain ⟨event, he, hm⟩ := mem_candidatesOfLog.mp hc
  rw [seq_of_mem_candidatesOf hm]
  exact seq_pos_of_mem_scriptLog he

theorem candidates_scriptLog_succ (name : LoopName) (script : Nat → Verdict) (rounds : Nat) :
    candidatesOfLog (scriptLog name script (rounds + 1))
      = candidatesOfLog (scriptLog name script rounds)
        ++ roundCandidates name rounds (script (rounds + 1)) :=
  List.flatMap_append

theorem verifyCompleted_scriptLog (name : LoopName) (script : Nat → Verdict) :
    ∀ rounds, (indexLog (scriptLog name script rounds)).verifyCompleted = [] := by
  have hnone : ∀ rounds, ∀ event ∈ scriptLog name script rounds, ∀ payload,
      event.body ≠ .verify (.completed payload) := by
    intro rounds
    induction rounds with
    | zero => exact fun _ h => absurd h List.not_mem_nil
    | succ rounds ih =>
      intro event h
      rcases List.mem_append.mp h with h | h
      · exact ih event h
      · cases name <;> simp only [roundEvents, kernelEvent, List.mem_cons, List.not_mem_nil,
          or_false] at h <;> rcases h with rfl | rfl | rfl | rfl <;> exact fun _ => nofun
  intro rounds
  refine List.eq_nil_iff_forall_not_mem.mpr fun record hr => ?_
  obtain ⟨event, he, -, payload, hb, -⟩ := mem_verifyCompleted.mp hr
  exact hnone rounds event he payload hb

/-! ## 2. What the index knows of the loop -/

/-- The record the index keeps of a verdict. -/
def scriptVerdict (script : Nat → Verdict) (round : Nat) : VerdictRecord :=
  LoopIndex.verdictRecord (4 * round) ((script round).payload round)

/-- The loop after some rounds of a script. -/
structure LoopAt (script : Nat → Verdict) (rounds : Nat) (loop : LoopIndex) : Prop where
  maxRound : loop.maxRound = rounds
  reviewed : ∀ round, loop.rounds.get? ⟨round⟩ = none ↔ ¬(1 ≤ round ∧ round ≤ rounds)
  verdicts : ∀ round record, loop.rounds.get? ⟨round⟩ = some record →
    record.verdict = some (scriptVerdict script round)
  revise : rounds ≠ 0 → (script rounds).kind = .revise →
    loop.latestRevise = some (scriptVerdict script rounds)
  findings : loop.findingsByRound = scriptFindings script rounds

theorem get?_record (loop : LoopIndex) (round other : Nat) (f : RoundRecord → RoundRecord) :
    (loop.record round f).rounds.get? ⟨other⟩
      = if other = round then some (f ((loop.rounds.get? ⟨round⟩).getD {}))
        else loop.rounds.get? ⟨other⟩ := by
  unfold LoopIndex.record
  rw [get?_set]
  by_cases h : other = round
  · rw [if_pos h, if_pos (by rw [h])]
  · rw [if_neg h, if_neg fun he => h (MapKey.mk.inj he)]

theorem setFindings_snoc (rounds : List (List Finding)) (findings : List Finding) :
    LoopIndex.setFindings rounds findings (rounds.length + 1) = rounds ++ [findings] := by
  show (rounds ++ List.replicate (rounds.length + 1 - rounds.length) []).set rounds.length
    findings = _
  rw [Nat.add_sub_cancel_left, List.replicate_one, List.set_append_right _ _ le_rfl,
    Nat.sub_self]
  rfl

/-- Before its verdict a round changes no other round, and no findings. -/
structure RoundOpened (loop opened : LoopIndex) (round : Nat) : Prop where
  maxRound : opened.maxRound = max loop.maxRound round
  others : ∀ other, other ≠ round → opened.rounds.get? ⟨other⟩ = loop.rounds.get? ⟨other⟩
  revise : opened.latestRevise = loop.latestRevise
  findings : opened.findingsByRound = loop.findingsByRound

theorem RoundOpened.record (loop : LoopIndex) (round : Nat) (f : RoundRecord → RoundRecord) :
    RoundOpened loop (loop.record round f) round :=
  ⟨rfl, fun other h => by rw [get?_record, if_neg h], rfl, rfl⟩

theorem RoundOpened.trans {first second third : LoopIndex} {round : Nat}
    (h : RoundOpened first second round) (k : RoundOpened second third round) :
    RoundOpened first third round :=
  ⟨by rw [k.maxRound, h.maxRound, max_assoc, max_self],
    fun other ho => (k.others other ho).trans (h.others other ho),
    k.revise.trans h.revise, k.findings.trans h.findings⟩

theorem RoundOpened.thrice (loop : LoopIndex) (round : Nat) (f g h : RoundRecord → RoundRecord) :
    RoundOpened loop (((loop.record round f).record round g).record round h) round :=
  ((RoundOpened.record loop round f).trans (.record _ round g)).trans (.record _ round h)

/-- A round opens, and then its verdict is noted. -/
theorem foldl_roundCandidates (name : LoopName) (loop : LoopIndex) (rounds : Nat)
    (verdict : Verdict) :
    ∃ opened, RoundOpened loop opened (rounds + 1) ∧
      (roundCandidates name rounds verdict).foldl (LoopIndex.advance name) loop
        = opened.noteVerdict name (4 * rounds + 4) (verdict.payload (rounds + 1)) := by
  unfold roundCandidates roundEvents
  cases name with
  | plan =>
    refine ⟨_, RoundOpened.thrice loop (rounds + 1) ({ · with startedSeq := some (4 * rounds + 1) })
      (fun record => { record with
        completedSeq := some (4 * rounds + 2)
        planCompletion := some ⟨4 * rounds + 2, ⟨"plan", rounds + 1⟩, none⟩ }) id, ?_⟩
    simp only [kernelEvent, candidatesOf, List.flatMap_cons, List.flatMap_nil, List.append_nil,
      List.cons_append, List.nil_append, List.foldl_cons, List.foldl_nil, LoopIndex.advance,
      if_true, Verdict.payload]
  | code =>
    refine ⟨_, RoundOpened.thrice loop (rounds + 1) ({ · with startedSeq := some (4 * rounds + 1) })
      ({ · with completedSeq := some (4 * rounds + 2) }) id, ?_⟩
    simp only [kernelEvent, candidatesOf, List.flatMap_cons, List.flatMap_nil, List.append_nil,
      List.cons_append, List.nil_append, List.foldl_cons, List.foldl_nil, LoopIndex.advance,
      if_true, Verdict.payload]

/-- **One more round.** -/
theorem LoopAt.succ {script : Nat → Verdict} {rounds : Nat} {loop opened : LoopIndex}
    (h : LoopAt script rounds loop) (ho : RoundOpened loop opened (rounds + 1)) (name : LoopName) :
    LoopAt script (rounds + 1) (opened.noteVerdict name (4 * rounds + 4)
      ((script (rounds + 1)).payload (rounds + 1))) := by
  have hget : ∀ round, (opened.noteVerdict name (4 * rounds + 4)
      ((script (rounds + 1)).payload (rounds + 1))).rounds.get? ⟨round⟩
        = if round = rounds + 1 then
            some { (opened.rounds.get? ⟨rounds + 1⟩).getD {} with
              verdict := some (scriptVerdict script (rounds + 1)) }
          else loop.rounds.get? ⟨round⟩ := by
    intro round
    have hrecord := get?_record opened (rounds + 1) round
      ({ · with verdict := some (scriptVerdict script (rounds + 1)) })
    by_cases hr : round = rounds + 1
    · rw [if_pos hr] at hrecord ⊢
      exact hrecord
    · rw [if_neg hr] at hrecord ⊢
      exact hrecord.trans (ho.others round hr)
  refine ⟨?_, fun round => ?_, fun round record hr => ?_, fun _ hkind => ?_, ?_⟩
  · show max opened.maxRound (rounds + 1) = rounds + 1
    rw [ho.maxRound, h.maxRound]
    omega
  · rw [hget]
    split
    · rename_i hr
      exact ⟨fun hn => absurd hn nofun, fun hn => absurd ⟨by omega, hr.le⟩ hn⟩
    · rename_i hr
      rw [h.reviewed]
      constructor <;> intro hn hb <;> exact hn ⟨hb.1, by omega⟩
  · rw [hget] at hr
    split at hr
    · rename_i he
      rw [← Option.some.inj hr, he]
    · exact h.verdicts round record hr
  · show (if (script (rounds + 1)).kind = .revise then _ else opened.latestRevise) = _
    rw [if_pos hkind]
    rfl
  · show LoopIndex.setFindings opened.findingsByRound (script (rounds + 1)).findings (rounds + 1)
      = scriptFindings script rounds ++ [(script (rounds + 1)).findings]
    rw [ho.findings, h.findings]
    have hsnoc := setFindings_snoc (scriptFindings script rounds) (script (rounds + 1)).findings
    rwa [length_scriptFindings] at hsnoc

theorem loopAt_candidates (name : LoopName) (script : Nat → Verdict) (maxRoundEver : Nat) :
    ∀ rounds, LoopAt script rounds
      (loopAfter name maxRoundEver (candidatesOfLog (scriptLog name script rounds)))
  | 0 => ⟨rfl, fun round => ⟨fun _ h => by omega, fun _ => rfl⟩, fun _ _ h => absurd h nofun,
      fun h => absurd rfl h, rfl⟩
  | rounds + 1 => by
    have ih := loopAt_candidates name script maxRoundEver rounds
    obtain ⟨opened, ho, hfold⟩ := foldl_roundCandidates name
      (loopAfter name maxRoundEver (candidatesOfLog (scriptLog name script rounds))) rounds
      (script (rounds + 1))
    have hloop : loopAfter name maxRoundEver (candidatesOfLog (scriptLog name script (rounds + 1)))
        = opened.noteVerdict name (4 * rounds + 4)
            ((script (rounds + 1)).payload (rounds + 1)) := by
      rw [← hfold, candidates_scriptLog_succ]
      exact List.foldl_append
    rw [hloop]
    exact ih.succ ho name

/-- **What the index knows of the loop of a script.** -/
theorem loopAt_scriptLog (name : LoopName) (script : Nat → Verdict) (rounds : Nat) :
    LoopAt script rounds ((indexLog (scriptLog name script rounds)).loop name) := by
  obtain ⟨maxRoundEver, hloop⟩ := indexLog_loop (scriptLog name script rounds) name
  rw [hloop, fresh_scriptLog]
  exact loopAt_candidates name script maxRoundEver rounds

/-- The rounds with a verdict are counted. -/
theorem LoopAt.reviewedRounds {script : Nat → Verdict} {rounds : Nat} {args : LoopArgs}
    (h : LoopAt script rounds args.loop) : args.reviewedRounds = rounds := by
  have hall : args.loop.rounds.values.filter (·.verdict.isSome) = args.loop.rounds.values := by
    refine List.filter_eq_self.mpr fun record hr => ?_
    obtain ⟨key, hk⟩ := mem_values.mp hr
    rw [h.verdicts key.key record hk]
    rfl
  have hkeys : args.loop.rounds.keys.Perm ((List.range' 1 rounds).map MapKey.mk) := by
    refine (List.perm_ext_iff_of_nodup args.loop.rounds.nodup
      ((List.nodup_range' 1).map fun _ _ he => MapKey.mk.inj he)).mpr fun key => ?_
    have hget := h.reviewed key.key
    rw [get?_eq_none] at hget
    constructor
    · intro hk
      have hbounds := not_not.mp fun hn => hget.mpr hn hk
      exact List.mem_map.mpr ⟨key.key, List.mem_range'_1.mpr (by omega), rfl⟩
    · intro hk
      obtain ⟨round, hr, rfl⟩ := List.mem_map.mp hk
      have hbounds := List.mem_range'_1.mp hr
      exact not_not.mp fun hn => hget.mp hn (by dsimp only; omega)
  unfold LoopArgs.reviewedRounds
  rw [hall]
  have hlength := hkeys.length_eq
  rw [List.length_map, List.length_range'] at hlength
  unfold keys at hlength
  unfold values
  rwa [List.length_map] at hlength ⊢

/-! ## 3. The decisions of the engine -/

/-- The dismissal a human answered before the loop. -/
def dismissal (dismissedIds : List String) : AnsweredEscalation where
  id := "dismissed"
  phase := .phase (.core .planReview)
  round := none
  source := .stall
  session := none
  policyCause := none
  deferral := false
  question := "pre-dismissed chain"
  refs := some dismissedIds
  seq := 0
  answer := "Not an issue."
  resolution := .dismissFinding
  artifact := none
  assets := none
  reviewRoundCeiling := none
  answeredSeq := 0

/-- Facts of a build that raised nothing but the dismissed findings. -/
def EngineFacts.dismissing (facts : EngineFacts) (dismissedIds : List String) : EngineFacts :=
  { facts with
    openEscalations := []
    answeredEscalations := [dismissal dismissedIds]
    reviewRoundCeilings := {} }

/-- What the engine decides the loop on after some rounds of a script. -/
def LoopName.scriptArgs (name : LoopName) (facts : EngineFacts) (config : Config)
    (dismissedIds : List String) (script : Nat → Verdict) (rounds : Nat) : LoopArgs :=
  match name with
  | .plan =>
    planLoopArgs (facts.dismissing dismissedIds) (indexLog (scriptLog .plan script rounds)) config
  | .code =>
    codeLoopArgs (facts.dismissing dismissedIds) (indexLog (scriptLog .code script rounds)) config

section Decisions

variable (name : LoopName) (facts : EngineFacts) (config : Config) (dismissedIds : List String)
  (script : Nat → Verdict)

theorem raisedAfter_dismissing (seq : Nat) (source : EscalationSource)
    (phase : EscalationTarget) :
    raisedAfter (facts.dismissing dismissedIds) seq source phase = false := by
  refine List.any_eq_false.mpr fun escalation he hraised => ?_
  have hsame := List.mem_singleton.mp he
  have hlt := (of_decide_eq_true hraised).1
  rw [hsame] at hlt
  exact Nat.not_lt_zero _ hlt

/-- The arguments of the loop, whichever it is. -/
theorem scriptArgs_eq (rounds : Nat) :
    name.scriptArgs facts config dismissedIds script rounds =
      { loop := (indexLog (scriptLog name script rounds)).loop name
        producer := match name with
          | .plan => .plan
          | .code => .implement
        reviewer := match name with
          | .plan => .planReview
          | .code => .codeReview
        policy := config.policy
        reviewRoundCeiling := none
        dismissedIds := dismissedIds
        raisedAfter := fun _ _ _ => false
        producerFeedback := findingsFeedback ((indexLog (scriptLog name script rounds)).loop name) }
    := by
  have hraised : raisedAfter (facts.dismissing dismissedIds) = fun _ _ _ => false := by
    funext seq source phase
    exact raisedAfter_dismissing facts dismissedIds seq source phase
  have hdismissed : dismissedIdsOf (facts.dismissing dismissedIds).answeredEscalations
      = dismissedIds := List.append_nil _
  have hguidance : ∀ log destination,
      guidanceFeedback (facts.dismissing dismissedIds) log destination = none := fun _ _ => rfl
  cases name with
  | plan =>
    unfold LoopName.scriptArgs planLoopArgs
    dsimp only
    rw [hraised, hdismissed, hguidance]
    rfl
  | code =>
    have hverify : (indexLog (scriptLog .code script rounds)).verifyFeedback = none := by
      unfold LogIndex.verifyFeedback LogIndex.pendingFail LogIndex.cycleResults
      rw [verifyCompleted_scriptLog]
      rfl
    unfold LoopName.scriptArgs codeLoopArgs
    dsimp only
    rw [hraised, hdismissed, hguidance, hverify]
    rfl

/-- The feedback of the next round. -/
def scriptFeedback : Nat → Option Feedback
  | 0 => none
  | rounds + 1 => some (findingsFeedbackOf (script (rounds + 1)).findings)

/-- Nothing was approved, escalated or stalled in the first rounds. -/
structure StillOpen (rounds : Nat) : Prop where
  revised : ∀ round, 1 ≤ round → round ≤ rounds → (script round).kind = .revise
  stalled : rounds ≠ 0 →
    stalledChains (scriptFindings script rounds) config.policy.stallRounds dismissedIds = []

variable {name facts config dismissedIds script}

/-- The verdict a loop with a round decides on. -/
theorem decideLoop_scriptArgs (rounds : Nat) :
    decideLoop (name.scriptArgs facts config dismissedIds script (rounds + 1))
      = (name.scriptArgs facts config dismissedIds script (rounds + 1)).decideVerdict
          (scriptVerdict script (rounds + 1)) := by
  have hat := loopAt_scriptLog name script (rounds + 1)
  have hloop : (name.scriptArgs facts config dismissedIds script (rounds + 1)).loop
      = (indexLog (scriptLog name script (rounds + 1))).loop name := by
    rw [scriptArgs_eq]
  unfold decideLoop
  rw [hloop, hat.maxRound, if_neg (Nat.succ_ne_zero rounds)]
  cases hr : ((indexLog (scriptLog name script (rounds + 1))).loop name).rounds.get?
      ⟨rounds + 1⟩ with
  | none => exact absurd ⟨Nat.succ_pos rounds, le_rfl⟩ ((hat.reviewed (rounds + 1)).mp hr)
  | some record =>
    dsimp only
    rw [hat.verdicts (rounds + 1) record hr]

/-- **Up to the first stall the engine's chains are the ones that stalled.** -/
theorem liveChains_of_newly_stalled (rounds : Nat)
    (h : rounds ≠ 0 → stalledChains (scriptFindings script rounds) config.policy.stallRounds
      dismissedIds = []) :
    liveChains (stalledChains (scriptFindings script (rounds + 1)) config.policy.stallRounds
        dismissedIds) (scriptFindings script (rounds + 1)) (rounds + 1)
      = stalledChains (scriptFindings script (rounds + 1)) config.policy.stallRounds
          dismissedIds := by
  have hnone : stalledChains (scriptFindings script rounds) config.policy.stallRounds
      dismissedIds = [] := by
    cases rounds with
    | zero => rfl
    | succ rounds => exact h (Nat.succ_ne_zero rounds)
  have hcurrent : (scriptFindings script (rounds + 1))[rounds + 1 - 1]?
      = some (script (rounds + 1)).findings := by
    unfold scriptFindings
    rw [Nat.add_sub_cancel, List.getElem?_append_right (by rw [length_scriptFindings]),
      length_scriptFindings, Nat.sub_self]
    rfl
  unfold liveChains
  dsimp only
  rw [hcurrent, Option.getD_some]
  refine List.filter_eq_self.mpr fun chain hc => ?_
  obtain ⟨id, hid, hin⟩ := live_of_newly_stalled hnone hc
  exact List.any_eq_true.mpr ⟨id, hin, decide_eq_true hid⟩

end Decisions

/-! ## 4. The loops run -/

inductive LoopEnd where
  | approved
  /-- A stall reports its chain, with the sentence it is raised with. -/
  | escalated (source : EscalationSource) (chain : Option (String × List String))
  deriving DecidableEq

structure LoopTrace where
  /-- Producer rounds. -/
  rounds : Nat
  /-- The feedback each of them was given. -/
  feedbacks : List (Option Feedback)
  outcome : LoopEnd
  deriving DecidableEq

/-- The trace of a convergence loop. -/
def convergeTrace {α : Type} (result : List (Option Feedback) × ConvergeOutcome α) : LoopTrace :=
  match result with
  | (feedbacks, .approved _ rounds) => ⟨rounds, feedbacks, .approved⟩
  | (feedbacks, .escalated source reason rounds chain) =>
    ⟨rounds, feedbacks, .escalated source (chain.map fun chain => (reason, chain.ids))⟩

theorem convergeTrace_cons {α : Type} (feedback : Option Feedback)
    (result : List (Option Feedback) × ConvergeOutcome α) :
    convergeTrace (feedback :: result.1, result.2)
      = { convergeTrace result with
        feedbacks := feedback :: (convergeTrace result).feedbacks } := by
  obtain ⟨feedbacks, outcome⟩ := result
  cases outcome <;> rfl

/-- Apply `decideLoop` after each round: a producer round is appended with its verdict. -/
def engineLoop (args : Nat → LoopArgs) : Nat → Nat → Option LoopTrace
  | 0, _ => none
  | fuel + 1, rounds =>
    match decideLoop (args rounds) with
    | none => some ⟨rounds, [], .approved⟩
    | some (.raiseEscalation raise) =>
      some ⟨rounds, [], .escalated raise.source
        (raise.refs.map fun refs => (raise.question, refs))⟩
    | some (.runPhase run) =>
      if run.phase = (args rounds).producer ∧ run.round = rounds + 1 then
        (engineLoop args fuel (rounds + 1)).map fun trace =>
          { trace with feedbacks := run.feedback :: trace.feedbacks }
      else none
    | some _ => none

section Agreement

variable {name : LoopName} {facts : EngineFacts} {config : Config} {dismissedIds : List String}
  {script : Nat → Verdict}

/-- While the loop is open it runs its producer, or the rounds are used up. -/
theorem decideLoop_of_open {rounds : Nat} (h : StillOpen config dismissedIds script rounds)
    (hmax : 1 ≤ config.policy.maxReviewRounds) :
    (config.policy.maxReviewRounds ≤ rounds ∧ ∃ raise : RaiseEscalation,
      raise.source = .policy ∧ raise.refs = none ∧
      decideLoop (name.scriptArgs facts config dismissedIds script rounds)
        = some (.raiseEscalation raise)) ∨
    (rounds < config.policy.maxReviewRounds ∧ ∃ run : RunPhase,
      run.phase = (name.scriptArgs facts config dismissedIds script rounds).producer ∧
      run.round = rounds + 1 ∧ run.feedback = scriptFeedback script rounds ∧
      decideLoop (name.scriptArgs facts config dismissedIds script rounds)
        = some (.runPhase run)) := by
  cases rounds with
  | zero =>
    refine Or.inr ⟨hmax, ?_⟩
    rw [scriptArgs_eq]
    cases name <;> exact ⟨_, rfl, rfl, rfl, rfl⟩
  | succ rounds =>
    have hat := loopAt_scriptLog name script (rounds + 1)
    have hkind := h.revised (rounds + 1) (Nat.succ_pos rounds) le_rfl
    have hstalled := h.stalled (Nat.succ_ne_zero rounds)
    have hreviewed : (name.scriptArgs facts config dismissedIds script
        (rounds + 1)).reviewedRounds = rounds + 1 :=
      @LoopAt.reviewedRounds script _ _ (by
        rw [scriptArgs_eq]
        exact hat)
    rw [decideLoop_scriptArgs]
    unfold LoopArgs.decideVerdict
    have hverdict : (scriptVerdict script (rounds + 1)).verdict = .revise := hkind
    rw [hverdict]
    dsimp only
    unfold LoopArgs.decideRevise
    rw [hreviewed, scriptArgs_eq]
    dsimp only
    rw [hat.findings, hstalled]
    have hlive : (if false = true then none else deepestChain (liveChains []
        (scriptFindings script (rounds + 1)) (scriptVerdict script (rounds + 1)).round)) = none :=
      rfl
    rw [hlive]
    unfold LoopArgs.ceiling
    dsimp only
    by_cases hlimit : config.policy.maxReviewRounds ≤ rounds + 1
    · refine Or.inl ⟨hlimit, ?_⟩
      rw [if_pos ⟨hlimit, rfl⟩]
      exact ⟨_, rfl, rfl, rfl⟩
    · refine Or.inr ⟨Nat.lt_of_not_le hlimit, ?_⟩
      rw [if_neg fun hn => hlimit hn.1]
      unfold LoopArgs.runProducer findingsFeedback
      dsimp only
      rw [hat.maxRound, hat.revise (Nat.succ_ne_zero rounds) hkind]
      exact ⟨_, rfl, rfl, rfl, rfl⟩

/-- An approval ends the loop, an escalation and the first stall raise. -/
theorem decideLoop_of_verdict_open {rounds : Nat}
    (h : StillOpen config dismissedIds script rounds) :
    match script (rounds + 1) with
    | .approve => decideLoop (name.scriptArgs facts config dismissedIds script (rounds + 1)) = none
    | .escalate reason => ∃ raise : RaiseEscalation, raise.source = .agent ∧ raise.refs = none ∧
        raise.question = reason ∧
        decideLoop (name.scriptArgs facts config dismissedIds script (rounds + 1))
          = some (.raiseEscalation raise)
    | .revise _ => ∀ chain, deepestChain (stalledChains (scriptFindings script (rounds + 1))
        config.policy.stallRounds dismissedIds) = some chain →
        ∃ raise : RaiseEscalation, raise.source = .stall ∧ raise.refs = some chain.ids ∧
          raise.question = chain.report ∧
          decideLoop (name.scriptArgs facts config dismissedIds script (rounds + 1))
            = some (.raiseEscalation raise) := by
  have hat := loopAt_scriptLog name script (rounds + 1)
  rw [decideLoop_scriptArgs]
  unfold LoopArgs.decideVerdict
  have hkind : (scriptVerdict script (rounds + 1)).verdict = (script (rounds + 1)).kind := rfl
  have hreason : (scriptVerdict script (rounds + 1)).reason = (script (rounds + 1)).reason := rfl
  cases hv : script (rounds + 1) with
  | approve =>
    rw [hv] at hkind
    dsimp only
    rw [hkind]
    rfl
  | escalate reason =>
    rw [hv] at hkind hreason
    dsimp only
    rw [hkind, hreason, scriptArgs_eq]
    exact ⟨_, rfl, rfl, rfl, rfl⟩
  | revise findings =>
    rw [hv] at hkind
    dsimp only
    intro chain hchain
    rw [hkind]
    unfold LoopArgs.decideRevise
    rw [scriptArgs_eq]
    dsimp only
    have hround : (scriptVerdict script (rounds + 1)).round = rounds + 1 := rfl
    rw [hat.findings, hround, liveChains_of_newly_stalled rounds h.stalled,
      if_neg Bool.false_ne_true, hchain]
    exact ⟨_, rfl, rfl, rfl, rfl⟩

theorem deepestChain_eq_none {chains : List FindingChain} (h : deepestChain chains = none) :
    chains = [] := by
  cases chains with
  | nil => rfl
  | cons first rest => exact absurd h nofun

/-- **The loops agree from every open round on**, by induction on the rounds that are left. -/
theorem engineLoop_of_open {α : Type} (produce : Option Feedback → Nat → α)
    (hmax : 1 ≤ config.policy.maxReviewRounds) : ∀ (left rounds fuel : Nat),
    left + rounds = config.policy.maxReviewRounds → left < fuel →
    StillOpen config dismissedIds script rounds →
    engineLoop (name.scriptArgs facts config dismissedIds script) fuel rounds
      = some (convergeTrace (converge produce (fun _ round _ => script round)
          ⟨config.policy.maxReviewRounds, config.policy.stallRounds⟩ dismissedIds (rounds + 1)
          (scriptFindings script rounds) (scriptFeedback script rounds)))
  | _, _, 0, _, hfuel, _ => absurd hfuel (Nat.not_lt_zero _)
  | 0, rounds, fuel + 1, hleft, _, h => by
    rw [converge, if_pos (by dsimp only; omega)]
    unfold engineLoop
    rcases @decideLoop_of_open name facts config dismissedIds script rounds h hmax with
      ⟨-, raise, hsource, hrefs, hd⟩ | ⟨hlt, -⟩
    · rw [hd]
      dsimp only
      rw [hsource, hrefs]
      rfl
    · omega
  | left + 1, rounds, 1, _, hfuel, _ => by omega
  | left + 1, rounds, fuel + 2, hleft, hfuel, h => by
    rw [converge, if_neg (by dsimp only; omega)]
    rw [engineLoop]
    rcases @decideLoop_of_open name facts config dismissedIds script rounds h hmax with
      ⟨hge, -⟩ | ⟨-, run, hphase, hround, hfeedback, hd⟩
    · omega
    · rw [hd]
      dsimp only
      rw [if_pos ⟨hphase, hround⟩, hfeedback]
      have hverdict := @decideLoop_of_verdict_open name facts config dismissedIds script rounds h
      cases hv : script (rounds + 1) with
      | approve =>
        rw [hv] at hverdict
        rw [engineLoop, hverdict]
        rfl
      | escalate reason =>
        rw [hv] at hverdict
        obtain ⟨raise, hsource, hrefs, hquestion, hd⟩ := hverdict
        rw [engineLoop, hd]
        dsimp only
        rw [hsource, hrefs]
        rfl
      | revise findings =>
        rw [hv] at hverdict
        have hfindings : scriptFindings script (rounds + 1)
            = scriptFindings script rounds ++ [findings] := by
          show scriptFindings script rounds ++ [(script (rounds + 1)).findings] = _
          rw [hv]
          rfl
        dsimp only
        rw [← hfindings]
        cases hdeep : deepestChain (stalledChains (scriptFindings script (rounds + 1))
            config.policy.stallRounds dismissedIds) with
        | some chain =>
          obtain ⟨raise, hsource, hrefs, hquestion, hd⟩ := hverdict chain hdeep
          rw [engineLoop, hd]
          dsimp only
          rw [hsource, hrefs, hquestion]
          rfl
        | none =>
          have hopen : StillOpen config dismissedIds script (rounds + 1) := by
            refine ⟨fun round hlow hhigh => ?_, fun _ => deepestChain_eq_none hdeep⟩
            by_cases hlast : round = rounds + 1
            · rw [hlast, hv]
              rfl
            · exact h.revised round hlow (by omega)
          have hfeed : scriptFeedback script (rounds + 1) = some (findingsFeedbackOf findings) := by
            show some (findingsFeedbackOf (script (rounds + 1)).findings) = _
            rw [hv]
            rfl
          rw [engineLoop_of_open produce hmax left (rounds + 1) (fuel + 1) (by omega) (by omega)
            hopen, hfeed, convergeTrace_cons]
          rfl

/-- **The loops agree**: for every script, either review loop and any policy with a round, the
engine's decisions on the log give the rounds, the feedback, the outcome and the reported chain of
the convergence loop. -/
theorem engineLoop_eq_converge {α : Type} (name : LoopName) (facts : EngineFacts)
    (config : Config) (dismissedIds : List String) (script : Nat → Verdict)
    (produce : Option Feedback → Nat → α) (hmax : 1 ≤ config.policy.maxReviewRounds) (fuel : Nat)
    (hfuel : config.policy.maxReviewRounds < fuel) :
    engineLoop (name.scriptArgs facts config dismissedIds script) fuel 0
      = some (convergeTrace (converge produce (fun _ round _ => script round)
          ⟨config.policy.maxReviewRounds, config.policy.stallRounds⟩ dismissedIds 1 [] none)) :=
  engineLoop_of_open produce hmax config.policy.maxReviewRounds 0 fuel rfl hfuel
    ⟨fun _ hlow hhigh => absurd hlow (by omega), fun h => absurd rfl h⟩

end Agreement

def persistingFinding (id : String) (persists : List String) : Finding :=
  ⟨id, default, none, none, "open", none, persists⟩

/-- The second review finds the first finding again. -/
def persistingScript : Nat → Verdict
  | 1 => .revise [persistingFinding "f_1" []]
  | 2 => .revise [persistingFinding "f_2" ["f_1"]]
  | _ => .approve

theorem engineLoop_eq_converge_persisting :
    ∃ state, reduceBuild [] = .ok state ∧
      engineLoop (LoopName.plan.scriptArgs state.engineFacts unitAndLint ["f_9"] persistingScript)
        5 0
      = some (convergeTrace
        (converge (fun _ round => round) (fun _ round _ => persistingScript round)
          ⟨unitAndLint.policy.maxReviewRounds, unitAndLint.policy.stallRounds⟩ ["f_9"] 1 []
            none)) := by
  obtain ⟨state, hs, -⟩ := exists_of_reducesTo (show reducesTo [] .queued = true by decide +kernel)
  exact ⟨state, hs, engineLoop_eq_converge .plan state.engineFacts unitAndLint ["f_9"]
    persistingScript (fun _ round => round) (by decide) 5 (by decide)⟩

/-- It stalls with the chain of both. -/
example :
    (stalledChains (scriptFindings persistingScript 2) unitAndLint.policy.stallRounds ["f_9"])
      = [⟨["f_1", "f_2"], 2⟩] := by
  decide +kernel

end Autobuild
