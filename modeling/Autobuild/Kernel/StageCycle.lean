/-
# The verify stage of a log

What the stage in progress says about the log it was computed from.

* `Counts`: a result of a step in the verify cycle that was not cancelled before it.  The first
  of them is the outcome of the step (`stageOutcome_eq_some`).
* `MembersOf`: the cancellations and failures of a state are those of its log, an invariant of
  `advanceVerifyStage` (`membersOf_foldl`).
* `StageActive`: the first stage with a step that neither passed nor was skipped.  It is the one
  the engine takes (`engineStage_eq_some`), with the unfinished steps (`mem_unfinished_iff`) and the
  failures (`failures_engineProgress`) that the log has.
-/
import Autobuild.Kernel.FinalizeGate

namespace Autobuild

open ObjectMap Checked

/-! ## 1. Results and cancellations of a cycle -/

section Cycle

variable (events : List AbEvent)

/-- Later than the last revision, and than every event since that opens a cycle. -/
def InCycle (seq : Nat) : Prop := lastRevised events < seq ∧ PastBoundaries events seq

/-- A result of the step in the cycle, of a member that was not cancelled before it. -/
def Counts (step : String) (payload : VerifyCompleted) (seq : Nat) : Prop :=
  (∃ event ∈ events, event.seq = seq ∧ event.body = .verify (.completed payload)) ∧
    payload.step = step ∧ InCycle events seq ∧
    ¬CancelledBefore events (verifyMemberKey payload.step payload.attempt) seq

/-- The earliest of the results that count. -/
def FirstResult (step : String) (payload : VerifyCompleted) (seq : Nat) : Prop :=
  Counts events step payload seq ∧
    ∀ other otherSeq, Counts events step other otherSeq → seq ≤ otherSeq

def HasResult (step : String) : Prop := ∃ payload seq, Counts events step payload seq

/-- The first result of the step is a pass or a skip. -/
def StepPassed (step : String) : Prop :=
  ∃ payload seq, FirstResult events step payload seq ∧
    (normalizeVerifyCompletion payload).outcome.satisfies = true

/-- The first result of the step is a failure. -/
def StepFailed (step : String) (payload : VerifyCompleted) : Prop :=
  ∃ seq, FirstResult events step payload seq ∧
    (normalizeVerifyCompletion payload).outcome = .fail

/-- The failure of the first step of the stage that failed. -/
def FirstFailed (stage : List String) (payload : VerifyCompleted) : Prop :=
  ∃ before step after, stage = before ++ step :: after ∧
    (∀ other ∈ before, ∀ otherPayload, ¬StepFailed events other otherPayload) ∧
    StepFailed events step payload

/-- The seq at which the member is cancelled: a later cancellation changes nothing. -/
def CancelledAt (key : MemberKey) (seq : Nat) : Prop :=
  TakesEffect events key seq ∧ ∀ other, TakesEffect events key other → seq ≤ other

/-- A member of the step was cancelled in the cycle. -/
def HasCancellation (step : String) : Prop :=
  ∃ attempt seq, CancelledAt events (verifyMemberKey step attempt) seq ∧ InCycle events seq

/-- The event that opened the cycle: the last one since the revision. -/
def CycleOpenedAt (seq : Nat) : Prop :=
  (∃ event ∈ events, event.seq = seq ∧ lastRevised events < event.seq ∧
      opensCycle event.body = true) ∧
    ∀ event ∈ events, lastRevised events < event.seq → opensCycle event.body = true →
      event.seq ≤ seq

/-- The first stage, in the order of the configuration, that has a step without a pass. -/
structure StageActive (config : VerifyConfig) (earlier : List (List String))
    (stage : List String) (later : List (List String)) : Prop where
  stages : verifyStages config = earlier ++ stage :: later
  earlierPassed : ∀ before ∈ earlier, ∀ step ∈ before, StepPassed events step
  unsatisfied : ∃ step ∈ stage, ¬StepPassed events step

end Cycle

/-! ## 2. The members of the state are those of the log -/

/-- Cancellations are kept under their member and the first one stands; failures are recorded. -/
structure MembersOf (events : List AbEvent) (stage : VerifyStageState) : Prop
    extends CancellationsOf events stage where
  keyed : ∀ key cancellation, stage.cancellations.get? key = some cancellation →
    key = verifyMemberKey cancellation.payload.step cancellation.payload.attempt
  first : ∀ key cancellation, stage.cancellations.get? key = some cancellation →
    ∀ seq, TakesEffect events key seq → cancellation.seq ≤ seq
  recorded : ∀ failure ∈ stage.failures, ∃ event ∈ events, event.seq = failure.seq ∧
    event.body = .verify (.stageFailed failure.payload)

theorem failures_completeVerifyMember (stage : VerifyStageState) (payload : VerifyCompleted)
    (seq : Nat) : (completeVerifyMember stage payload seq).failures = stage.failures := by
  unfold completeVerifyMember
  dsimp only
  split <;> rfl

theorem failures_cancelVerifyMember (stage : VerifyStageState) (payload : VerifyCancelled)
    (seq : Nat) : (cancelVerifyMember stage payload seq).failures = stage.failures := by
  unfold cancelVerifyMember
  dsimp only
  split <;> rfl

theorem failures_ownVerifyMember (stage : VerifyStageState) (payload : SessionStarted) :
    (ownVerifyMember stage payload).failures = stage.failures := by
  unfold ownVerifyMember
  dsimp only
  split
  · split <;> rfl
  · rfl

theorem failures_attributeImplementation (stage : VerifyStageState) (payload : ImplementStarted)
    (seq : Nat) : (attributeImplementation stage payload seq).failures = stage.failures := by
  unfold attributeImplementation
  split
  · rfl
  · split <;> rfl

section Step

variable {stage : VerifyStageState} {event : AbEvent}

/-- A failure of the state comes with its event. -/
theorem mem_failures_advance {failure : VerifyStageFailure}
    (h : failure ∈ (advanceVerifyStage stage event).failures) :
    failure ∈ stage.failures ∨
      (event.seq = failure.seq ∧ event.body = .verify (.stageFailed failure.payload)) := by
  unfold advanceVerifyStage at h
  split at h
  case h_12 payload hb =>
    simp only [List.mem_append, List.mem_singleton] at h
    rcases h with h | h
    · exact Or.inl h
    · rw [h]
      exact Or.inr ⟨rfl, hb⟩
  case h_6 =>
    left
    split at h <;> exact h
  all_goals
    left
    simpa [startVerifyMember, failures_completeVerifyMember, failures_cancelVerifyMember,
      failures_ownVerifyMember, failures_attributeImplementation] using h

/-- A cancellation of the state comes with its event, before which the member had none. -/
theorem cancellation_advance {key : MemberKey} {cancellation : VerifyCancellation}
    (h : (advanceVerifyStage stage event).cancellations.get? key = some cancellation) :
    stage.cancellations.get? key = some cancellation ∨
      (stage.hasCancellation key = false ∧ cancellation.seq = event.seq ∧
        key = verifyMemberKey cancellation.payload.step cancellation.payload.attempt) := by
  rcases advanceVerifyStage_members stage event with ⟨payload, -, he⟩ | ⟨payload, -, he⟩ |
    ⟨-, -, -, hc⟩
  · left
    rw [he] at h
    unfold completeVerifyMember at h
    dsimp only at h
    split at h <;> exact h
  · rw [he] at h
    unfold cancelVerifyMember at h
    dsimp only at h
    split at h
    · rename_i hopen
      simp only [Bool.and_eq_true, Bool.not_eq_true'] at hopen
      dsimp only at h
      rw [get?_set] at h
      split at h
      · rename_i hk
        rw [← Option.some.inj h, hk]
        exact Or.inr ⟨hopen.2, rfl, rfl⟩
      · exact Or.inl h
    · exact Or.inl h
  · left
    rwa [hc] at h

end Step

theorem membersOf_nil : MembersOf [] initialVerifyStageState where
  toCancellationsOf := cancellationsOf_nil
  keyed _ _ h := absurd h nofun
  first _ _ h := absurd h nofun
  recorded _ h := absurd h List.not_mem_nil

/-- **One event keeps the members those of the log.** -/
theorem MembersOf.advance {events : List AbEvent} {stage : VerifyStageState} {event : AbEvent}
    (h : MembersOf events stage) (hlast : ∀ e ∈ events, e.seq < event.seq) :
    MembersOf (events ++ [event]) (advanceVerifyStage stage event) where
  toCancellationsOf := h.toCancellationsOf.advance hlast
  keyed := by
    intro key cancellation hg
    rcases cancellation_advance hg with hg | ⟨-, -, hk⟩
    · exact h.keyed key cancellation hg
    · exact hk
  first := by
    intro key cancellation hg seq ht
    rcases CancellationsOf.takesEffect_cases hlast ht with ht | ⟨hs, -⟩
    · rcases cancellation_advance hg with hg | ⟨hn, -⟩
      · exact h.first key cancellation hg seq ht
      · rw [h.cancelled key seq ht] at hn
        exact absurd hn nofun
    · rw [hs]
      rcases cancellation_advance hg with hg | ⟨-, hq, -⟩
      · exact (CancellationsOf.lt_of_takesEffect hlast (h.effective key cancellation hg)).le
      · exact hq.le
  recorded := by
    intro failure hm
    rcases mem_failures_advance hm with hm | ⟨hq, hb⟩
    · obtain ⟨e, he, hs⟩ := h.recorded failure hm
      exact ⟨e, List.mem_append_left _ he, hs⟩
    · exact ⟨event, by simp, hq, hb⟩

/-- **The stage of a log keeps its members.** -/
theorem membersOf_foldl {events : List AbEvent}
    (hp : events.Pairwise (fun a b => a.seq < b.seq)) :
    MembersOf events (events.foldl advanceVerifyStage initialVerifyStageState) := by
  induction events using List.reverseRecOn with
  | nil => exact membersOf_nil
  | append_singleton events event ih =>
    obtain ⟨hp, -, hlast⟩ := List.pairwise_append.mp hp
    rw [List.foldl_append, List.foldl_cons, List.foldl_nil]
    exact (ih hp).advance fun e he => hlast e he event List.mem_cons_self

/-- A reduced state has the members of its log. -/
theorem membersOf_reduceBuild {events : List StoredEvent}
    (hp : events.Pairwise (fun a b => a.seq < b.seq)) {state : BuildState}
    (h : reduceBuild events = .ok state) :
    MembersOf (projectEvents events) state.verifyStage := by
  have hm := membersOf_foldl (projectEvents_pairwise hp)
  rw [← stage_reduceBuild hp h] at hm
  exact ⟨cancellationsOf_reduceBuild hp h, hm.keyed, hm.first, hm.recorded⟩

/-- The boundary of the index is where the cycle opened. -/
theorem cycleOpenedAt_cycleBoundary {events : List AbEvent}
    (hp : events.Pairwise (fun a b => a.seq < b.seq))
    (h : (indexLog events).cycleBoundary ≠ 0) :
    CycleOpenedAt events (indexLog events).cycleBoundary := by
  obtain ⟨event, he, hs, hq, ho⟩ := cycleBoundary_mem events h
  exact ⟨⟨event, he, hq, hs, ho⟩, fun other hm hr hopens => le_cycleBoundary hp hm hr hopens⟩

/-! ## 3. Outcomes -/

/-- In a list ordered by rank the first match is the least one. -/
theorem find?_eq_some_iff_least {α : Type} {xs : List α} {p : α → Bool} {rank : α → Nat}
    (hs : xs.Pairwise (fun a b => rank a ≤ rank b))
    (hinj : ∀ a ∈ xs, ∀ b ∈ xs, rank a = rank b → a = b) {b : α} :
    xs.find? p = some b ↔ b ∈ xs ∧ p b = true ∧ ∀ a ∈ xs, p a = true → rank b ≤ rank a := by
  have hleast : ∀ c, xs.find? p = some c → ∀ a ∈ xs, p a = true → rank c ≤ rank a := by
    intro c hc a ha hpa
    obtain ⟨hpc, before, rest, rfl, hbefore⟩ := List.find?_eq_some_iff_append.mp hc
    rcases List.mem_append.mp ha with ha | ha
    · simp only [Bool.not_eq_true'] at hbefore
      rw [hbefore a ha] at hpa
      exact absurd hpa nofun
    · rcases List.mem_cons.mp ha with rfl | ha
      · exact le_refl _
      · exact (List.pairwise_cons.mp (List.pairwise_append.mp hs).2.1).1 a ha
  constructor
  · intro h
    exact ⟨List.mem_of_find?_eq_some h, List.find?_some h, hleast b h⟩
  · intro ⟨hb, hpb, hle⟩
    obtain ⟨c, hc⟩ := Option.isSome_iff_exists.mp (List.find?_isSome.mpr ⟨b, hb, hpb⟩)
    have hcm := List.mem_of_find?_eq_some hc
    have heq : c = b := hinj c hcm b hb
      (le_antisymm (hleast c hc b hb hpb) (hle c hcm (List.find?_some hc)))
    rw [hc, heq]

/-- The event of a result is that of its seq. -/
theorem Counts.payload_eq {events : List AbEvent}
    (hp : events.Pairwise (fun a b => a.seq < b.seq)) {step other : String}
    {payload payload' : VerifyCompleted} {seq : Nat} (h : Counts events step payload seq)
    (h' : Counts events other payload' seq) : payload = payload' := by
  obtain ⟨⟨e, he, hs, hb⟩, -⟩ := h
  obtain ⟨⟨e', he', hs', hb'⟩, -⟩ := h'
  rw [eq_of_seq hp he he' (hs.trans hs'.symm), hb'] at hb
  cases hb
  rfl

theorem FirstResult.unique {events : List AbEvent}
    (hp : events.Pairwise (fun a b => a.seq < b.seq)) {step : String}
    {payload payload' : VerifyCompleted} {seq seq' : Nat}
    (h : FirstResult events step payload seq) (h' : FirstResult events step payload' seq') :
    payload = payload' ∧ seq = seq' := by
  have hs : seq = seq' := le_antisymm (h.2 _ _ h'.1) (h'.2 _ _ h.1)
  subst hs
  exact ⟨h.1.payload_eq hp h'.1, rfl⟩

section Outcomes

variable {events : List AbEvent} {state : EngineFacts}

/-- **One cycle for both.**  The cycle of the stages is that of the results. -/
theorem stageCycle_lt_iff (hp : events.Pairwise (fun a b => a.seq < b.seq))
    (hk : state.kind ≠ some .node) {seq : Nat} :
    stageCycle state (effectiveCompletions state (indexLog events)) < seq ↔
      InCycle events seq := by
  have hcycle : stageCycle state (effectiveCompletions state (indexLog events))
      = max (indexLog events).cycleBoundary (lastRevised events) := by
    unfold stageCycle
    rw [if_neg hk, ← indexLog_restartSeq]
    unfold LogIndex.cycleBoundary LogIndex.replayBoundary
    show max (max (indexLog events).code.latestApproveSeq
      (indexLog events).lastReconcileCompletedSeq)
      (max (indexLog events).restartSeq (indexLog events).verifyConfigBoundary) = _
    omega
  rw [hcycle, max_lt_iff]
  constructor
  · intro ⟨hb, hr⟩
    exact ⟨hr, fun event he hs ho => (le_cycleBoundary hp he hs ho).trans_lt hb⟩
  · intro ⟨hr, hpast⟩
    refine ⟨?_, hr⟩
    by_contra hle
    obtain ⟨event, he, hs, hq, ho⟩ := cycleBoundary_mem events (by omega)
    have hlt := hpast event he hs ho
    omega

/-- The completions of a cycle that the engine counts. -/
theorem mem_effective_iff (hp : events.Pairwise (fun a b => a.seq < b.seq))
    (hc : CancellationsOf events state.verifyStage) {record : VerifyRecord}
    (hin : InCycle events record.seq) :
    record ∈ (effectiveCompletions state (indexLog events)).verifyCompleted ↔
      ∃ payload, Counts events record.step payload record.seq ∧
        record = ⟨normalizeVerifyCompletion payload, record.seq⟩ := by
  have hmem : record ∈ (effectiveCompletions state (indexLog events)).verifyCompleted ↔
      record ∈ (indexLog events).verifyCompleted ∧
        state.verifyStage.keeps (verifyMemberKey record.step record.attempt) record.seq = true :=
    List.mem_filter
  rw [hmem, mem_verifyCompleted]
  constructor
  · rintro ⟨⟨event, he, -, payload, hb, hr⟩, hkeep⟩
    have hs : record.seq = event.seq := by rw [hr]
    have hstep : record.step = payload.step := by rw [hr, normalizeVerifyCompletion_step]
    have hattempt : record.attempt = payload.attempt := by
      rw [hr, normalizeVerifyCompletion_attempt]
    rw [hstep, hattempt, hs] at hkeep
    refine ⟨payload, ⟨⟨event, he, hs.symm, hb⟩, hstep.symm, hin, ?_⟩, by rw [hs]; exact hr⟩
    rw [hs]
    exact (kept_iff hp hc he (by rw [hb]; rfl)).mp hkeep
  · rintro ⟨payload, ⟨⟨event, he, hs, hb⟩, hstep, -, hnot⟩, hr⟩
    have hattempt : record.attempt = payload.attempt := by
      rw [hr, normalizeVerifyCompletion_attempt]
    refine ⟨⟨event, he, hs ▸ hin.1, payload, hb, by rw [hs]; exact hr⟩, ?_⟩
    rw [← hstep, hattempt]
    rw [← hs] at hnot ⊢
    exact (kept_iff hp hc he (by rw [hb]; rfl)).mpr hnot

/-- **The outcome of a step is its first result that counts.** -/
theorem stageOutcome_eq_some (hp : events.Pairwise (fun a b => a.seq < b.seq))
    (hk : state.kind ≠ some .node) (hc : CancellationsOf events state.verifyStage)
    {step : String} {record : VerifyRecord} :
    stageOutcome (effectiveCompletions state (indexLog events)).verifyCompleted
        (stageCycle state (effectiveCompletions state (indexLog events))) step = some record ↔
      ∃ payload, FirstResult events step payload record.seq ∧
        record = ⟨normalizeVerifyCompletion payload, record.seq⟩ := by
  have hsorted : (effectiveCompletions state (indexLog events)).verifyCompleted.Pairwise
      (fun a b => a.seq ≤ b.seq) := (verifyCompleted_pairwise hp).filter _
  have hinj : ∀ a ∈ (effectiveCompletions state (indexLog events)).verifyCompleted,
      ∀ b ∈ (effectiveCompletions state (indexLog events)).verifyCompleted,
      a.seq = b.seq → a = b := by
    intro a ha b hb hs
    obtain ⟨e, he, -, payload, hbody, rfl⟩ := mem_verifyCompleted.mp (List.mem_filter.mp ha).1
    obtain ⟨e', he', -, payload', hbody', rfl⟩ := mem_verifyCompleted.mp (List.mem_filter.mp hb).1
    rw [eq_of_seq hp he he' hs, hbody'] at hbody
    cases hbody
    exact congrArg (VerifyResult.mk _) hs
  unfold stageOutcome
  rw [find?_eq_some_iff_least hsorted hinj]
  simp only [Bool.and_eq_true, decide_eq_true_iff, gt_iff_lt, stageCycle_lt_iff hp hk]
  constructor
  · intro ⟨hm, ⟨hin, hstep⟩, hleast⟩
    obtain ⟨payload, hcounts, hr⟩ := (mem_effective_iff hp hc hin).mp hm
    rw [hstep] at hcounts
    refine ⟨payload, ⟨hcounts, fun other otherSeq hother => ?_⟩, hr⟩
    have hostep := hother.2.1
    have hoin := hother.2.2.1
    refine hleast ⟨normalizeVerifyCompletion other, otherSeq⟩
      ((mem_effective_iff hp hc hoin).mpr ⟨other, ?_, rfl⟩) ⟨hoin, ?_⟩
    · simpa [hostep] using hother
    · simpa using hostep
  · intro ⟨payload, hfirst, hr⟩
    have hin := hfirst.1.2.2.1
    have hstep : record.step = step := by
      rw [hr, normalizeVerifyCompletion_step]
      exact hfirst.1.2.1
    refine ⟨(mem_effective_iff hp hc hin).mpr ⟨payload, hstep ▸ hfirst.1, hr⟩, ⟨hin, hstep⟩, ?_⟩
    intro other hm ⟨hoin, hostep⟩
    obtain ⟨payload', hcounts, -⟩ := (mem_effective_iff hp hc hoin).mp hm
    exact hfirst.2 payload' _ (hostep ▸ hcounts)

theorem stageOutcome_eq_none (hp : events.Pairwise (fun a b => a.seq < b.seq))
    (hk : state.kind ≠ some .node) (hc : CancellationsOf events state.verifyStage)
    {step : String} :
    stageOutcome (effectiveCompletions state (indexLog events)).verifyCompleted
        (stageCycle state (effectiveCompletions state (indexLog events))) step = none ↔
      ¬HasResult events step := by
  unfold stageOutcome
  rw [List.find?_eq_none]
  simp only [Bool.and_eq_true, decide_eq_true_iff, gt_iff_lt, stageCycle_lt_iff hp hk]
  constructor
  · intro h ⟨payload, seq, hcounts⟩
    have hstep := hcounts.2.1
    have hin := hcounts.2.2.1
    refine h ⟨normalizeVerifyCompletion payload, seq⟩
      ((mem_effective_iff hp hc hin).mpr ⟨payload, ?_, rfl⟩) ⟨hin, ?_⟩
    · simpa [hstep] using hcounts
    · simpa using hstep
  · intro h record hm ⟨hin, hstep⟩
    obtain ⟨payload, hcounts, -⟩ := (mem_effective_iff hp hc hin).mp hm
    exact h ⟨payload, record.seq, hstep ▸ hcounts⟩

end Outcomes

/-! ## 4. The stage in progress -/

/-- A stage of the configuration as the engine sees it. -/
def engineProgress (state : EngineFacts) (events : List AbEvent) (config : VerifyConfig)
    (stage : List String) : ActiveStage :=
  stageInProgress config (effectiveCompletions state (indexLog events)).verifyCompleted
    state.verifyStage (stageCycle state (effectiveCompletions state (indexLog events))) stage

section Active

variable {events : List AbEvent} {state : EngineFacts} {stage : List String}

theorem stepPassed_iff (hp : events.Pairwise (fun a b => a.seq < b.seq))
    (hk : state.kind ≠ some .node) (hc : CancellationsOf events state.verifyStage)
    (step : String) :
    ((stageOutcome (effectiveCompletions state (indexLog events)).verifyCompleted
        (stageCycle state (effectiveCompletions state (indexLog events))) step).map
      (·.outcome.satisfies)).getD false = true ↔ StepPassed events step := by
  cases ho : stageOutcome (effectiveCompletions state (indexLog events)).verifyCompleted
    (stageCycle state (effectiveCompletions state (indexLog events))) step with
  | none =>
    refine ⟨fun h => absurd h nofun, fun h => ?_⟩
    obtain ⟨payload, seq, hfirst, -⟩ := h
    exact absurd ⟨payload, seq, hfirst.1⟩ ((stageOutcome_eq_none hp hk hc).mp ho)
  | some record =>
    obtain ⟨payload, hfirst, hr⟩ := (stageOutcome_eq_some hp hk hc).mp ho
    simp only [Option.map_some, Option.getD_some]
    constructor
    · intro h
      rw [hr] at h
      exact ⟨payload, _, hfirst, h⟩
    · intro h
      obtain ⟨payload', seq', hfirst', hs⟩ := h
      rw [hr, (hfirst.unique hp hfirst').1]
      exact hs

theorem stageSatisfied_iff (hp : events.Pairwise (fun a b => a.seq < b.seq))
    (hk : state.kind ≠ some .node) (hc : CancellationsOf events state.verifyStage) :
    stageSatisfied (effectiveCompletions state (indexLog events)).verifyCompleted
        (stageCycle state (effectiveCompletions state (indexLog events))) stage = true ↔
      ∀ step ∈ stage, StepPassed events step := by
  unfold stageSatisfied
  simp only [List.all_eq_true, stepPassed_iff hp hk hc]

/-- **The stage of the engine is the active stage of the log.** -/
theorem engineStage_eq_some {config : Config} {active : ActiveStage}
    (hp : events.Pairwise (fun a b => a.seq < b.seq))
    (hk : state.kind ≠ some .node) (hc : CancellationsOf events state.verifyStage)
    (hstages : config.verify.stages ≠ none) :
    engineStage state (effectiveCompletions state (indexLog events)) config = some active ↔
      ∃ earlier stage later, StageActive events config.verify earlier stage later ∧
        active = engineProgress state events config.verify stage := by
  unfold engineStage activeVerifyStage
  rw [if_neg hstages, if_neg hk, Option.map_eq_some_iff]
  constructor
  · intro h
    obtain ⟨stage, hf, rfl⟩ := h
    obtain ⟨hopen, earlier, later, hsplit, hbefore⟩ := List.find?_eq_some_iff_append.mp hf
    refine ⟨earlier, stage, later, ⟨hsplit, ?_, ?_⟩, rfl⟩
    · intro before hb
      have hsat := hbefore before hb
      rw [Bool.not_not] at hsat
      exact (stageSatisfied_iff hp hk hc).mp hsat
    · by_contra hall
      push Not at hall
      rw [(stageSatisfied_iff hp hk hc).mpr hall] at hopen
      exact absurd hopen nofun
  · intro h
    obtain ⟨earlier, stage, later, hactive, rfl⟩ := h
    refine ⟨stage, List.find?_eq_some_iff_append.mpr
      ⟨?_, earlier, later, hactive.stages, ?_⟩, rfl⟩
    · obtain ⟨step, hm, hn⟩ := hactive.unsatisfied
      by_contra hsat
      rw [Bool.not_eq_true, Bool.not_eq_false'] at hsat
      exact hn ((stageSatisfied_iff hp hk hc).mp hsat step hm)
    · intro before hb
      rw [Bool.not_not]
      exact (stageSatisfied_iff hp hk hc).mpr (hactive.earlierPassed before hb)

/-- The cancellations of the cycle are those that stand. -/
theorem hasCancellation_iff (hp : events.Pairwise (fun a b => a.seq < b.seq))
    (hk : state.kind ≠ some .node) (hm : MembersOf events state.verifyStage) (step : String) :
    (∃ item ∈ state.verifyStage.cancellations.values,
      stageCycle state (effectiveCompletions state (indexLog events)) < item.seq ∧
        item.payload.step = step) ↔ HasCancellation events step := by
  simp only [stageCycle_lt_iff hp hk]
  constructor
  · intro h
    obtain ⟨item, hitem, hin, hstep⟩ := h
    obtain ⟨key, hget⟩ := mem_values.mp hitem
    have hkey := hm.keyed key item hget
    rw [hstep] at hkey
    refine ⟨item.payload.attempt, item.seq, ?_, hin⟩
    rw [← hkey]
    exact ⟨hm.effective key item hget, hm.first key item hget⟩
  · intro h
    obtain ⟨attempt, seq, ⟨ht, hfirst⟩, hin⟩ := h
    obtain ⟨item, hget⟩ := Option.isSome_iff_exists.mp (hm.cancelled _ seq ht)
    have hseq : item.seq = seq :=
      le_antisymm (hm.first _ item hget seq ht) (hfirst _ (hm.effective _ item hget))
    have hkey := hm.keyed _ item hget
    refine ⟨item, mem_values.mpr ⟨_, hget⟩, hseq ▸ hin, ?_⟩
    exact (congrArg MemberKey.step hkey).symm

/-- The unfinished steps have neither result nor cancellation. -/
theorem mem_unfinished_iff {config : VerifyConfig}
    (hp : events.Pairwise (fun a b => a.seq < b.seq))
    (hk : state.kind ≠ some .node) (hm : MembersOf events state.verifyStage) {step : String} :
    step ∈ (engineProgress state events config stage).unfinished ↔
      step ∈ stage ∧ ¬HasResult events step ∧ ¬HasCancellation events step := by
  unfold engineProgress stageInProgress
  dsimp only
  rw [List.mem_filter]
  refine and_congr_right fun hstep => ?_
  rw [Bool.and_eq_true, Option.isNone_iff_eq_none,
    stageOutcome_eq_none hp hk hm.toCancellationsOf, Bool.not_eq_true', ← Bool.not_eq_true,
    List.any_eq_true]
  refine and_congr_right fun _ => not_congr ?_
  rw [← hasCancellation_iff hp hk hm step]
  constructor
  · intro h
    obtain ⟨item, hitem, hs⟩ := h
    obtain ⟨hitem, hin⟩ := List.mem_filter.mp hitem
    simp only [Bool.and_eq_true, decide_eq_true_iff] at hin hs
    exact ⟨item, hitem, hin.1, hs⟩
  · intro h
    obtain ⟨item, hitem, hin, hs⟩ := h
    exact ⟨item, List.mem_filter.mpr ⟨hitem, by simp [hin, hs, hstep]⟩, by simpa using hs⟩

/-- A stage is settled once every step has a result or a cancellation. -/
theorem settled_iff {config : VerifyConfig} (hp : events.Pairwise (fun a b => a.seq < b.seq))
    (hk : state.kind ≠ some .node) (hm : MembersOf events state.verifyStage) :
    (engineProgress state events config stage).settled = true ↔
      ∀ step ∈ stage, HasResult events step ∨ HasCancellation events step := by
  have hsettled : (engineProgress state events config stage).settled
      = (engineProgress state events config stage).unfinished.isEmpty := rfl
  rw [hsettled, List.isEmpty_iff, List.eq_nil_iff_forall_not_mem]
  simp only [mem_unfinished_iff hp hk hm]
  exact forall_congr' fun step => by tauto

/-- The failure the engine reads of a step. -/
theorem failedOutcome_iff (hp : events.Pairwise (fun a b => a.seq < b.seq))
    (hk : state.kind ≠ some .node) (hc : CancellationsOf events state.verifyStage)
    {step : String} {record : VerifyRecord} :
    (stageOutcome (effectiveCompletions state (indexLog events)).verifyCompleted
        (stageCycle state (effectiveCompletions state (indexLog events))) step).filter
      (·.outcome = .fail) = some record ↔
      ∃ payload, FirstResult events step payload record.seq ∧
        (normalizeVerifyCompletion payload).outcome = .fail ∧
        record = ⟨normalizeVerifyCompletion payload, record.seq⟩ := by
  rw [Option.filter_eq_some_iff, stageOutcome_eq_some hp hk hc, decide_eq_true_iff]
  constructor
  · intro h
    obtain ⟨⟨payload, hfirst, hr⟩, hfail⟩ := h
    rw [hr] at hfail
    exact ⟨payload, hfirst, hfail, hr⟩
  · intro h
    obtain ⟨payload, hfirst, hfail, hr⟩ := h
    refine ⟨⟨payload, hfirst, hr⟩, ?_⟩
    rw [hr]
    exact hfail

/-- The failures of a stage in progress, in the order of its steps. -/
theorem failures_engineProgress (config : VerifyConfig) :
    (engineProgress state events config stage).failures = stage.filterMap fun step =>
      (stageOutcome (effectiveCompletions state (indexLog events)).verifyCompleted
        (stageCycle state (effectiveCompletions state (indexLog events))) step).filter
      (·.outcome = .fail) := by
  unfold engineProgress stageInProgress
  dsimp only
  rw [List.filterMap_map]
  rfl

/-- A failed step has its failure among those of the stage. -/
theorem mem_failures_of_failed {config : VerifyConfig}
    (hp : events.Pairwise (fun a b => a.seq < b.seq)) (hk : state.kind ≠ some .node)
    (hc : CancellationsOf events state.verifyStage) {step : String} {payload : VerifyCompleted}
    (hstep : step ∈ stage) (h : StepFailed events step payload) :
    ∃ record ∈ (engineProgress state events config stage).failures, record.step = step := by
  obtain ⟨seq, hfirst, hfail⟩ := h
  rw [failures_engineProgress]
  refine ⟨⟨normalizeVerifyCompletion payload, seq⟩, List.mem_filterMap.mpr
    ⟨step, hstep, (failedOutcome_iff hp hk hc).mpr ⟨payload, hfirst, hfail, rfl⟩⟩, ?_⟩
  exact (normalizeVerifyCompletion_step payload).trans hfirst.1.2.1

/-- Without a cause no step that fails fast has failed. -/
theorem not_failed_of_cause_none {config : VerifyConfig}
    (hp : events.Pairwise (fun a b => a.seq < b.seq)) (hk : state.kind ≠ some .node)
    (hc : CancellationsOf events state.verifyStage)
    (h : (engineProgress state events config stage).cause = none) {step : String}
    (hstep : step ∈ stage) (hfast : failsFast config step = true) (payload : VerifyCompleted) :
    ¬StepFailed events step payload := by
  intro hfailed
  obtain ⟨record, hr, hs⟩ : ∃ record ∈ (engineProgress state events config stage).failures,
      record.step = step := mem_failures_of_failed hp hk hc hstep hfailed
  have hnil : ((engineProgress state events config stage).failures.filter
      fun result => failsFast config result.step) = [] := by
    have hsorted := List.head?_eq_none_iff.mp h
    rw [← List.length_eq_zero_iff, List.length_insertionSort] at hsorted
    exact List.length_eq_zero_iff.mp hsorted
  have hmem : record ∈ (engineProgress state events config stage).failures.filter
      fun result => failsFast config result.step := by
    refine List.mem_filter.mpr ⟨hr, ?_⟩
    rw [hs]
    exact hfast
  rw [hnil] at hmem
  exact absurd hmem List.not_mem_nil

/-- The first of the failures is that of the first step that failed. -/
theorem firstFailed_of_failures_cons {config : VerifyConfig}
    (hp : events.Pairwise (fun a b => a.seq < b.seq)) (hk : state.kind ≠ some .node)
    (hc : CancellationsOf events state.verifyStage) {first : VerifyRecord}
    {rest : List VerifyRecord}
    (h : (engineProgress state events config stage).failures = first :: rest) :
    ∃ payload, FirstFailed events stage payload ∧ payload.attempt = first.attempt := by
  rw [failures_engineProgress] at h
  obtain ⟨before, step, after, rfl, hbefore, hfirst, -⟩ := List.filterMap_eq_cons_iff.mp h
  obtain ⟨payload, hresult, hfail, hr⟩ := (failedOutcome_iff hp hk hc).mp hfirst
  refine ⟨payload, ⟨before, step, after, rfl, ?_, ⟨first.seq, hresult, hfail⟩⟩, ?_⟩
  · intro other hother payload' hfailed
    obtain ⟨seq, hresult', hfail'⟩ := hfailed
    let record : VerifyRecord := ⟨normalizeVerifyCompletion payload', seq⟩
    have hsome := (failedOutcome_iff hp hk hc).mpr
      ⟨payload', hresult', hfail', show record = _ from rfl⟩
    rw [hbefore other hother] at hsome
    exact absurd hsome nofun
  · rw [hr, normalizeVerifyCompletion_attempt]

end Active

end Autobuild
