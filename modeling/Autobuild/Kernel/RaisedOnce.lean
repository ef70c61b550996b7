/-
# One escalation for one cause

Each rule that raises has its own evidence (the verdict of a reviewer, the last verify failure,
the last conflict) and is silent once an escalation of its source and target was raised after it.

* An escalation without a session is never swept: raised under an id of its own it stays, open or
  answered (`standing_reduceBuild`).
* `RaisedOn` is the one inversion lemma of the decision table: what a raise was decided on
  (`raisedOn_of_decideNext`).
* `KernelRun` are the logs of a build whose kernel appends what it raised; anything else may be
  appended between (`raised_once`).
-/
import Autobuild.Kernel.CancelledMembers

namespace Autobuild

open Checked ObjectMap

/-! ## 1. A raise of the kernel stays -/

namespace Roster

variable {roster : Roster} {escalation : OpenEscalation}

/-- A sweep by another id, or of nothing cancelled, leaves the escalation. -/
theorem mem_supersede {other : AnyEscalation} (h : escalation ∈ roster.all)
    (hother : other.base.id ≠ escalation.id ∨ roster.cancelledOwner other.base.session = none) :
    escalation ∈ (roster.supersede other).all := by
  unfold supersede
  split
  · exact h
  · rename_i cancellation hc
    rcases hother with hne | hnone
    · rcases List.mem_append.mp h with ho | ha
      · refine List.mem_append_left _ (List.mem_filter.mpr ⟨ho, ?_⟩)
        exact decide_eq_true fun he => hne he.symm
      · obtain ⟨answered, hm, rfl⟩ := List.mem_map.mp ha
        refine List.mem_append_right _ (List.mem_map_of_mem ?_)
        exact mem_spliceFirst (p := fun e : AnsweredEscalation => e.id = other.base.id)
          (decide_eq_false fun he => hne he.symm) hm
    · rw [hc] at hnone
      exact absurd hnone nofun

theorem mem_sweep : ∀ {escalations : List AnyEscalation} {roster : Roster},
    escalation ∈ roster.all →
    (∀ other ∈ escalations, other.base.id ≠ escalation.id ∨
      roster.cancelledOwner other.base.session = none) →
    escalation ∈ (escalations.foldl supersede roster).all
  | [], _, h, _ => h
  | first :: rest, roster, h, hothers => by
    rw [List.foldl_cons]
    refine mem_sweep (mem_supersede h (hothers first List.mem_cons_self)) fun other ho => ?_
    rw [cancelledOwner_supersede]
    exact hothers other (List.mem_cons_of_mem _ ho)

theorem base_mem_of_snapshot {other : AnyEscalation} (h : other ∈ roster.snapshot) :
    other.base ∈ roster.all := by
  rcases List.mem_append.mp h with h | h
  · obtain ⟨opened, ho, rfl⟩ := List.mem_map.mp h
    exact List.mem_append_left _ ho
  · obtain ⟨answered, ha, rfl⟩ := List.mem_map.mp h
    exact List.mem_append_right _ (List.mem_map_of_mem ha)

theorem mem_put_of_ne {other : OpenEscalation} {xs : List OpenEscalation}
    (h : escalation ∈ xs) (hne : other.id ≠ escalation.id) :
    escalation ∈ Keyed.put OpenEscalation.id other xs := by
  unfold Keyed.put
  split
  · refine List.mem_map.mpr ⟨escalation, h, ?_⟩
    exact if_neg fun he => hne he.symm
  · exact List.mem_append_left _ h

theorem mem_put_self (xs : List OpenEscalation) :
    escalation ∈ Keyed.put OpenEscalation.id escalation xs := by
  unfold Keyed.put
  split
  · rename_i hany
    obtain ⟨other, ho, hid⟩ := List.any_eq_true.mp hany
    exact List.mem_map.mpr ⟨other, ho, if_pos (of_decide_eq_true hid)⟩
  · exact List.mem_append_right _ List.mem_cons_self

theorem mem_raise_of_ne {other : OpenEscalation} (h : escalation ∈ roster.all)
    (hne : other.id ≠ escalation.id) : escalation ∈ (roster.raise other).all := by
  unfold raise
  split
  · exact h
  · rcases List.mem_append.mp h with ho | ha
    · exact List.mem_append_left _ (mem_put_of_ne ho hne)
    · exact List.mem_append_right _ ha

/-- Without a session nothing supersedes the raise. -/
theorem mem_raise_self (h : escalation.session = none) :
    escalation ∈ (roster.raise escalation).all := by
  have hnone : roster.cancelledOwner escalation.session = none := by
    rw [h]
    rfl
  unfold raise
  rw [hnone]
  exact List.mem_append_left _ (mem_put_self roster.opened)

/-- The answer of an id that is there once moves its escalation. -/
theorem mem_answer {seq : Nat} {actor : Actor} {payload : EscalationAnswered}
    (h : escalation ∈ roster.all)
    (hcount : roster.all.countP (OpenEscalation.named escalation.id) ≤ 1) :
    escalation ∈ (roster.answer seq actor payload).all := by
  unfold answer
  split
  · exact h
  · rename_i opened hfind
    have hkey := Keyed.key_of_find? hfind
    have hopened := Keyed.mem_of_find? hfind
    rcases List.mem_append.mp h with ho | ha
    · by_cases hid : escalation.id = payload.id
      · have hsame : opened = escalation :=
          eq_of_countP_le_one hcount (List.mem_append_left _ hopened) h
            (decide_eq_true (hkey.trans hid.symm)) (decide_eq_true rfl)
        refine List.mem_append_right _ (List.mem_map.mpr
          ⟨answeredEscalation opened seq payload, ?_, hsame⟩)
        exact List.mem_append_right _ List.mem_cons_self
      · exact List.mem_append_left _ (List.mem_filter.mpr ⟨ho, decide_eq_true hid⟩)
    · obtain ⟨answered, hm, rfl⟩ := List.mem_map.mp ha
      exact List.mem_append_right _ (List.mem_map_of_mem (List.mem_append_left _ hm))

/-- **One event leaves an escalation without a session**, where its id is there once and the event
does not raise it again. -/
theorem mem_note {event : AbEvent} (h : escalation ∈ roster.all)
    (hsession : escalation.session = none)
    (hcount : roster.all.countP (OpenEscalation.named escalation.id) ≤ 1)
    (hraises : raises escalation.id event = false) : escalation ∈ (roster.note event).all := by
  unfold raises at hraises
  unfold note
  split
  · refine mem_sweep h fun other ho => ?_
    by_cases hid : other.base.id = escalation.id
    · right
      have hsame : other.base = escalation :=
        eq_of_countP_le_one hcount (base_mem_of_snapshot ho) h (decide_eq_true hid)
          (decide_eq_true rfl)
      rw [hsame, hsession]
      rfl
    · exact Or.inl hid
  · unfold complete
    dsimp only
    split <;> exact h
  · rename_i payload hb
    rw [hb] at hraises
    exact mem_raise_of_ne h (of_decide_eq_false hraises)
  · rename_i payload hb
    rw [hb] at hraises
    exact mem_raise_of_ne h (of_decide_eq_false hraises)
  · exact mem_answer h hcount
  · exact h
  · exact h
  · exact h

theorem mem_note_self {event : AbEvent} (h : raisedBy? event = some escalation)
    (hsession : escalation.session = none) : escalation ∈ (roster.note event).all := by
  unfold raisedBy? at h
  unfold note
  split at h
  · rename_i payload hb
    rw [hb]
    rw [← Option.some.inj h] at hsession ⊢
    exact mem_raise_self hsession
  · rename_i payload hb
    rw [hb]
    rw [← Option.some.inj h] at hsession ⊢
    exact mem_raise_self hsession
  · exact absurd h nofun

end Roster

/-- The raises without a session that a docket keeps. -/
def RaisesStand (events : List AbEvent) (docket : Docket) : Prop :=
  ∀ event ∈ events, ∀ escalation, raisedBy? event = some escalation →
    escalation.session = none → RaisedOnce events escalation.id → escalation ∈ docket.roster.all

theorem named_raisedBy? {event : AbEvent} {escalation : OpenEscalation}
    (h : raisedBy? event = some escalation) : raises escalation.id event = true := by
  rw [raises_eq, h]
  exact decide_eq_true rfl

/-- **One event keeps the raises.** -/
theorem RaisesStand.foldEvent {events : List AbEvent} {event : AbEvent} {acc next : BuildAcc}
    (hkept : RosterKept events acc.docket) (h : RaisesStand events acc.docket)
    (hf : foldEvent acc event = .ok next) : RaisesStand (events ++ [event]) next.docket := by
  intro raised hm escalation hr hsession honce
  rw [foldEvent_roster hf]
  rcases List.mem_append.mp hm with hm | hm
  · have hall := h raised hm escalation hr hsession honce.of_snoc
    have hone : 0 < events.countP (raises escalation.id) :=
      List.countP_pos_iff.mpr ⟨raised, hm, named_raisedBy? hr⟩
    have hraises : raises escalation.id event = false := by
      unfold RaisedOnce at honce
      rw [List.countP_append, List.countP_singleton] at honce
      cases hc : raises escalation.id event with
      | false => rfl
      | true =>
        rw [hc, if_pos rfl] at honce
        omega
    exact Roster.mem_note hall hsession ((hkept.count escalation.id).trans honce.of_snoc) hraises
  · rw [List.mem_singleton.mp hm] at hr
    exact Roster.mem_note_self hr hsession

/-- **A raise without a session stands**, open or answered, while its id is its own. -/
theorem standing_reduceBuild {events : List StoredEvent}
    (hp : events.Pairwise (fun a b => a.seq < b.seq)) {state : BuildState}
    (h : reduceBuild events = .ok state) {event : AbEvent} (he : event ∈ projectEvents events)
    {escalation : OpenEscalation} (hr : raisedBy? event = some escalation)
    (hsession : escalation.session = none)
    (honce : RaisedOnce (projectEvents events) escalation.id) :
    escalation ∈ state.openEscalations
      ++ state.answeredEscalations.map (·.toOpenEscalation) := by
  obtain ⟨acc, next, hacc, hfold, -, -, hopen, hanswered, -⟩ := reduceBuild_docket h
  have hinvariant : RosterKept (projectEvents events) next.docket ∧
      RaisesStand (projectEvents events) next.docket :=
    @docket_induction (fun events docket => RosterKept events docket ∧ RaisesStand events docket)
      ⟨rosterKept_nil, fun _ hm => absurd hm List.not_mem_nil⟩
      (fun events event acc next hlast hinv hf =>
        ⟨hinv.1.foldEvent hlast hf, hinv.2.foldEvent hinv.1 hf⟩)
      _ _ _ (projectEvents_pairwise hp) hacc hfold
  rw [hopen, hanswered]
  exact hinvariant.2 event he escalation hr hsession honce

/-! ## 2. What a raise was decided on -/

theorem raise_of_attachReceipt {state : EngineFacts} {log : LogIndex} {config : Config}
    {decision : Decision} {raise : RaiseEscalation}
    (h : attachReceipt state log config decision = .raiseEscalation raise) :
    decision = .raiseEscalation raise := by
  unfold attachReceipt at h
  split at h
  · split at h
    · split at h <;> exact absurd h nofun
    · exact absurd h nofun
  · exact h

/-- The reviewer of a loop. -/
def LoopName.reviewer : LoopName → CorePhase
  | .plan => .planReview
  | .code => .codeReview

/-- What the engine decides a review loop on. -/
def LoopName.args (name : LoopName) (state : EngineFacts) (log : LogIndex) (config : Config) :
    LoopArgs :=
  match name with
  | .plan => planLoopArgs state log config
  | .code => codeLoopArgs state log config

/-- The verdict on the latest round of a loop. -/
def LoopIndex.latestVerdict (loop : LoopIndex) : Option VerdictRecord :=
  (loop.rounds.get? ⟨loop.maxRound⟩).bind (·.verdict)

/-- A raise, and the evidence nothing of its class was raised after. -/
inductive RaisedOn (state : EngineFacts) (log : LogIndex) (raise : RaiseEscalation) : Prop
  | verdict (name : LoopName) (verdict : VerdictRecord)
      (latest : (log.loop name).latestVerdict = some verdict)
      (target : raise.phase = .core name.reviewer)
      (first : raisedAfter state verdict.seq raise.source (.phase raise.phase) = false)
  | failure (fail : VerifyRecord) (member : fail ∈ log.verifyCompleted)
      (failed : fail.outcome = .fail) (target : raise.phase = verifyPhase fail.step)
      (first : raisedAfter state fail.seq raise.source (.phase raise.phase) = false)
  | conflict (seq : Nat) (last : log.lastConflict = some seq) (source : raise.source = .policy)
      (cause : raise.policyCause = some .reconcileNoProgress)
      (target : raise.phase = .core .reconcile)
      (first : reconcileNoProgressRaisedAfter state seq = false)

section Rules

variable {state : EngineFacts} {log : LogIndex} {config : Config} {stage : Option ActiveStage}
  {decision : Decision} {raise : RaiseEscalation}

theorem raises_of_or_getD {first rest : Option Decision} {last : Decision}
    (h : (first.or rest).getD last = .raiseEscalation raise) :
    first = some (.raiseEscalation raise) ∨ rest.getD last = .raiseEscalation raise := by
  cases first with
  | none => exact Or.inr h
  | some d => exact Or.inl (congrArg some h)

theorem not_raise_of_command (h : commandDecision state log = some (.raiseEscalation raise)) :
    False := by
  unfold commandDecision at h
  split_ifs at h <;> exact absurd h nofun

/-- A review loop raises on the verdict of its latest round. -/
theorem raisedOn_of_loop {args : LoopArgs}
    (h : decideLoop args = some (.raiseEscalation raise)) :
    ∃ verdict, args.loop.latestVerdict = some verdict ∧ raise.phase = .core args.reviewer ∧
      args.raisedAfter verdict.seq raise.source (.phase raise.phase) = false := by
  have hrevise : ∀ verdict, args.decideRevise verdict = .raiseEscalation raise →
      raise.phase = .core args.reviewer ∧
        args.raisedAfter verdict.seq raise.source (.phase raise.phase) = false := by
    intro verdict h
    unfold LoopArgs.decideRevise at h
    dsimp only at h
    split at h
    · rename_i chain hchain
      rw [← Decision.raiseEscalation.inj h]
      refine ⟨rfl, Bool.eq_false_of_not_eq_true fun hraised => ?_⟩
      rw [if_pos hraised] at hchain
      cases hchain
    · split at h
      · rename_i hlimit
        rw [← Decision.raiseEscalation.inj h]
        exact ⟨rfl, hlimit.2⟩
      · cases h
  unfold decideLoop at h
  split at h
  · cases h
  · split at h
    · cases h
    · rename_i record hrecord
      split at h
      · rename_i verdict hverdict
        have hlatest : args.loop.latestVerdict = some verdict := by
          unfold LoopIndex.latestVerdict
          rw [hrecord]
          exact hverdict
        refine ⟨verdict, hlatest, ?_⟩
        unfold LoopArgs.decideVerdict at h
        split at h
        · cases h
        · split_ifs at h with hraised
          · cases h
          · rw [← Decision.raiseEscalation.inj (Option.some.inj h)]
            exact ⟨rfl, Bool.eq_false_of_not_eq_true hraised⟩
        · exact hrevise verdict (Option.some.inj h)
      · split_ifs at h <;> cases h

/-- The verify rules raise on the last failure. -/
theorem raisedOn_of_verify
    (h : verifyDecision state log config stage = some (.raiseEscalation raise)) :
    RaisedOn state log raise := by
  unfold verifyDecision at h
  rcases Option.or_eq_some_iff.mp h with h | ⟨-, h⟩
  · have hrecord : ∀ stage, recordFailure state log stage ≠ some (.raiseEscalation raise) := by
      intro stage h
      unfold recordFailure at h
      split at h
      · exact absurd h nofun
      · split_ifs at h
        exact absurd h nofun
    unfold stageDecision at h
    split at h
    · exact absurd h nofun
    · split at h
      · split_ifs at h
        · exact absurd h nofun
        · exact absurd h (hrecord _)
      · exact absurd h (hrecord _)
  rcases Option.or_eq_some_iff.mp h with h | ⟨-, h⟩
  · unfold exhaustedDecision at h
    split at h
    · exact absurd h nofun
    · rename_i fail hlast
      split_ifs at h with hexhausted
      have hraise := Decision.raiseEscalation.inj (Option.some.inj h)
      obtain ⟨hmember, hfailed⟩ := List.mem_filter.mp (List.mem_of_getLast? hlast)
      refine .failure fail hmember (of_decide_eq_true hfailed) ?_ ?_
      · rw [← hraise]
      · rw [← hraise]
        exact hexhausted.2.2
  rcases Option.or_eq_some_iff.mp h with h | ⟨-, h⟩
  · unfold failRouteDecision at h
    split_ifs at h
    exact absurd h nofun
  rcases Option.or_eq_some_iff.mp h with h | ⟨-, h⟩
  · unfold restackDecision at h
    split at h
    · split_ifs at h <;> exact absurd h nofun
    · split_ifs at h
      exact absurd h nofun
  rcases Option.or_eq_some_iff.mp h with h | ⟨-, h⟩
  · unfold capturePolicyDecision at h
    split_ifs at h
    exact absurd h nofun
  rcases Option.or_eq_some_iff.mp h with h | ⟨-, h⟩
  · unfold driftDecision at h
    split at h
    · exact absurd h nofun
    · dsimp only at h
      split_ifs at h
      exact absurd h nofun
  · unfold membersDecision at h
    split at h
    · have h := Option.some.inj h
      split at h <;> exact absurd h nofun
    · obtain ⟨member, -, hm⟩ := Option.map_eq_some_iff.mp h
      exact absurd hm nofun

/-- The epilogue raises on the last conflict. -/
theorem raisedOn_of_epilogue (h : epilogueDecision state log config = .raiseEscalation raise) :
    RaisedOn state log raise := by
  unfold epilogueDecision at h
  rcases raises_of_or_getD h with h | h
  · unfold finalizeDecision at h
    split at h
    · exact absurd h nofun
    · obtain ⟨step, -, hs⟩ := List.exists_of_findSome?_eq_some h
      unfold finalizeStepDecision at hs
      split at hs
      · exact absurd hs nofun
      · obtain ⟨kind, -, hk⟩ := Option.map_eq_some_iff.mp hs
        exact absurd hk nofun
  rcases raises_of_or_getD h with h | h
  · unfold resumeReconcile at h
    split at h
    · split at h
      · exact absurd h nofun
      · split at h
        · split at h <;> exact absurd h nofun
        · exact absurd h nofun
    · exact absurd h nofun
  rcases raises_of_or_getD h with h | h
  · unfold landingRestack at h
    split at h
    · exact absurd h nofun
    · dsimp only at h
      split at h <;> exact absurd h nofun
  · unfold conflictDecision at h
    split at h
    · exact absurd h nofun
    · rename_i seq hlast
      split at h
      · cases hl : log.lastReconcileCompleted with
        | none =>
          rw [hl] at h
          exact absurd h nofun
        | some completed =>
          rw [hl, Option.bind_some, Option.getD_some] at h
          cases hr : repeatConflict state log config seq completed with
          | none =>
            rw [hr] at h
            exact absurd h nofun
          | some d =>
            rw [hr] at h
            have hd : d = .raiseEscalation raise := h
            rw [hd] at hr
            unfold repeatConflict at hr
            split at hr
            · split at hr
              · exact absurd hr nofun
              · split_ifs at hr with hspent
                rw [← Decision.raiseEscalation.inj (Option.some.inj hr)]
                exact .conflict seq hlast rfl rfl rfl hspent.2.2
            · exact absurd hr nofun
      · exact absurd h nofun

/-- **What a raise was decided on.** -/
theorem raisedOn_of_decideNextInternal
    (h : decideNextInternal state log config = .ok (.raiseEscalation raise)) :
    RaisedOn state log raise := by
  unfold decideNextInternal at h
  dsimp only at h
  split at h
  · rename_i first hfirst
    cases h
    rcases Option.or_eq_some_iff.mp hfirst with hc | ⟨-, hb⟩
    · exact (not_raise_of_command hc).elim
    · exact (steady_of_blocked hb).elim
  · split_ifs at h
    · exact (steady_of_node h).elim
    · have h := Except.ok.inj h
      unfold decideWork at h
      rcases raises_of_or_getD h with h | h
      · exact (steady_of_spec h).elim
      rcases raises_of_or_getD h with h | h
      · obtain ⟨verdict, hv, ht, hf⟩ := raisedOn_of_loop h
        exact .verdict .plan verdict hv ht hf
      rcases raises_of_or_getD h with h | h
      · obtain ⟨verdict, hv, ht, hf⟩ := raisedOn_of_loop h
        exact .verdict .code verdict hv ht hf
      cases hv : verifyDecision state log config (engineStage state log config) with
      | none =>
        rw [hv] at h
        exact raisedOn_of_epilogue h
      | some d =>
        rw [hv] at h
        have hd : d = .raiseEscalation raise := h
        rw [hd] at hv
        exact raisedOn_of_verify hv

end Rules

/-- A cancelled member's completions are the only facts the engine leaves out. -/
theorem raisedOn_of_decideNext {events : List StoredEvent} {config : Config}
    {raise : RaiseEscalation} (h : decideNext events config = .ok (.raiseEscalation raise)) :
    ∃ state, reduceBuild events = .ok state ∧
      RaisedOn state.engineFacts (indexLog (projectEvents events)) raise := by
  unfold decideNext at h
  obtain ⟨state, hstate, h⟩ := bind_eq_ok.mp h
  unfold decideNextFromFacts at h
  dsimp only at h
  obtain ⟨inner, hinner, hattach⟩ := map_eq_ok.mp h
  rw [raise_of_attachReceipt hattach] at hinner
  refine ⟨state, hstate, ?_⟩
  cases raisedOn_of_decideNextInternal hinner with
  | verdict name verdict latest target first => exact .verdict name verdict latest target first
  | failure fail member failed target first =>
    exact .failure fail (List.mem_of_mem_filter member) failed target first
  | conflict seq last source cause target first =>
    exact .conflict seq last source cause target first

/-! ## 3. The evidence in the log -/

/-- What can raise again at a target: a verdict of the reviewer, a failure of the step, or a
conflict. -/
def Evidence (phase : Phase) (body : EventBody) : Prop :=
  match phase with
  | .core .planReview => ∃ payload, body = .planReview (.verdict payload)
  | .core .codeReview => ∃ payload, body = .codeReview (.verdict payload)
  | .core .reconcile => ∃ observed, body = .pr (.conflicted observed)
  | .core _ => False
  | .verify step => ∃ payload, body = .verify (.completed payload) ∧ payload.step = step ∧
      (normalizeVerifyCompletion payload).outcome = .fail

theorem Evidence.not_raised {phase : Phase} {payload : EscalationRaised}
    (h : Evidence phase (.escalationRaised payload)) : False := by
  unfold Evidence at h
  split at h
  · obtain ⟨_, h⟩ := h
    exact absurd h nofun
  · obtain ⟨_, h⟩ := h
    exact absurd h nofun
  · obtain ⟨_, h⟩ := h
    exact absurd h nofun
  · exact h
  · obtain ⟨_, h, -⟩ := h
    exact absurd h nofun

/-- The latest verdict of a loop is one of its reviewer. -/
theorem evidence_of_latestVerdict {events : List AbEvent}
    (hp : events.Pairwise (fun a b => a.seq < b.seq)) {name : LoopName} {verdict : VerdictRecord}
    (h : ((indexLog events).loop name).latestVerdict = some verdict) :
    ∃ event ∈ events, event.seq = verdict.seq ∧ Evidence (.core name.reviewer) event.body := by
  obtain ⟨maxRoundEver, hloop⟩ := indexLog_loop events name
  rw [hloop] at h
  obtain ⟨seq, payload, hm, -, hv, -⟩ := verdict_of_rounds name maxRoundEver (fresh_pairwise hp) h
  obtain ⟨event, he, -, -, hc⟩ := event_of_mem_fresh hm
  obtain ⟨hs, hbody⟩ := verdict_mem_candidatesOf.mp hc
  refine ⟨event, he, ?_, ?_⟩
  · rw [hv]
    exact hs.symm
  · unfold LoopName.verdict? at hbody
    split at hbody
    · exact ⟨_, ‹_›⟩
    · exact ⟨_, ‹_›⟩
    · exact absurd hbody nofun

theorem lastConflict_indexEvent (acc : LogIndexAcc) (event : AbEvent) :
    (indexEvent acc event).lastConflict = acc.lastConflict ∨
      ((indexEvent acc event).lastConflict = some event.seq ∧
        ∃ observed, event.body = .pr (.conflicted observed)) := by
  obtain ⟨seq, ts, actor, body⟩ := event
  unfold indexEvent
  cases body with
  | spec body => cases body <;> exact Or.inl rfl
  | plan body =>
    cases body with
    | started payload =>
      left
      simp only [indexBody, LogIndexAcc.noteGuidanceStart]
      split <;> rfl
    | completed payload => exact Or.inl rfl
  | planReview body => cases body <;> exact Or.inl rfl
  | implement body =>
    cases body with
    | started payload =>
      left
      simp only [indexBody, LogIndexAcc.noteGuidanceStart]
      split <;> rfl
    | completed payload => exact Or.inl rfl
  | codeReview body => cases body <;> exact Or.inl rfl
  | verify body =>
    cases body with
    | started payload =>
      left
      simp only [indexBody, LogIndexAcc.noteGuidanceStart]
      split <;> rfl
    | _ => exact Or.inl rfl
  | session body =>
    cases body with
    | started payload =>
      left
      simp only [indexBody, LogIndexAcc.deliverGuidance]
      split
      · rfl
      · split
        · rfl
        · split <;> rfl
    | _ => exact Or.inl rfl
  | finalize body => cases body <;> exact Or.inl rfl
  | pr body =>
    cases body with
    | conflicted observed => exact Or.inr ⟨rfl, observed, rfl⟩
    | _ => exact Or.inl rfl
  | reconcile body =>
    cases body with
    | started payload =>
      left
      unfold indexBody LogIndexAcc.startReconcile
      rfl
    | completed payload =>
      left
      simp only [indexBody, LogIndexAcc.completeReconcile, LogIndexAcc.pairReconcile]
      split <;> rfl
    | _ => exact Or.inl rfl
  | _ => exact Or.inl rfl

/-- The last conflict is one of the log. -/
theorem evidence_of_lastConflict {events : List AbEvent} {seq : Nat}
    (h : (indexLog events).lastConflict = some seq) :
    ∃ event ∈ events, event.seq = seq ∧ Evidence (.core .reconcile) event.body := by
  have hfold : (foldLogIndex initialLogIndexAcc events).lastConflict = some seq := h
  clear h
  induction events using List.reverseRecOn with
  | nil => exact absurd hfold nofun
  | append_singleton events event ih =>
    unfold foldLogIndex at hfold ih
    rw [List.foldl_append, List.foldl_cons, List.foldl_nil] at hfold
    rcases lastConflict_indexEvent (events.foldl indexEvent initialLogIndexAcc) event with
      hkeep | ⟨hnew, hbody⟩
    · rw [hkeep] at hfold
      obtain ⟨earlier, hm, hs, hbody⟩ := ih hfold
      exact ⟨earlier, List.mem_append_left _ hm, hs, hbody⟩
    · rw [hnew] at hfold
      exact ⟨event, List.mem_append_right _ List.mem_cons_self, Option.some.inj hfold, hbody⟩

/-! ## 4. Runs -/

/-- The event of a raise: the runner stamps the id. -/
def RaiseEscalation.event (raise : RaiseEscalation) (id : String) (seq ts : Nat) : AbEvent where
  seq := seq
  ts := ts
  actor := .kernel
  body := .escalationRaised
    { id := id
      phase := .phase raise.phase
      round := raise.round
      source := raise.source
      policyCause := if raise.source = .policy then raise.policyCause else none
      question := raise.question
      refs := raise.refs }

/-- A decision that the run appended. -/
structure RaisedDecision where
  decision : RaiseEscalation
  id : String
  seq : Nat

/-- The same source and the same target phase. -/
def RaiseEscalation.sameClass (raise other : RaiseEscalation) : Prop :=
  raise.source = other.source ∧ raise.phase = other.phase

/-- Logs of a build with what its kernel raised.  A raise is appended as decided, under an id that
is not in the log; worker results, answers and what else the kernel decided come between, and
raise nothing under the ids of the kernel's raises. -/
inductive KernelRun : List StoredEvent → List RaisedDecision → Prop where
  | nil : KernelRun [] []
  | raised {log : List StoredEvent} {raised : List RaisedDecision} (run : KernelRun log raised)
      (config : Config) (raise : RaiseEscalation)
      (decided : decideNext log config = .ok (.raiseEscalation raise)) (id : String) (seq ts : Nat)
      (later : ∀ event ∈ log, event.seq < seq)
      (stamped : ∀ event ∈ projectEvents log, raises id event = false) :
      KernelRun (log ++ [.known (raise.event id seq ts)]) (raised ++ [⟨raise, id, seq⟩])
  | appended {log : List StoredEvent} {raised : List RaisedDecision} (run : KernelRun log raised)
      (event : StoredEvent) (later : ∀ earlier ∈ log, earlier.seq < event.seq)
      (stamped : ∀ earlier ∈ raised, ∀ known, decodeStoredEvent event = some known →
        raises earlier.id known = false) :
      KernelRun (log ++ [event]) raised

/-- A raise of the run as the log keeps it. -/
structure RaisedDecision.Kept (raised : RaisedDecision) (log : List AbEvent) : Prop where
  logged : ∃ ts, raised.decision.event raised.id raised.seq ts ∈ log
  once : RaisedOnce log raised.id
  /-- The only raise of a policy at a reconcile is the one of the conflicts. -/
  cause : raised.decision.source = .policy → raised.decision.phase = .core .reconcile →
    raised.decision.policyCause = some .reconcileNoProgress

theorem RaisedDecision.Kept.append {raised : RaisedDecision} {log : List AbEvent}
    (h : raised.Kept log) {event : AbEvent} (he : raises raised.id event = false) :
    raised.Kept (log ++ [event]) := by
  refine ⟨?_, ?_, h.cause⟩
  · obtain ⟨ts, hm⟩ := h.logged
    exact ⟨ts, List.mem_append_left _ hm⟩
  · have honce := h.once
    unfold RaisedOnce at honce ⊢
    rw [List.countP_append, List.countP_singleton, he, if_neg Bool.false_ne_true]
    exact honce

theorem raises_event (raise : RaiseEscalation) (id : String) (seq ts : Nat) (other : String) :
    raises other (raise.event id seq ts) = decide (id = other) := rfl

theorem cause_of_raisedOn {state : EngineFacts} {log : LogIndex} {raise : RaiseEscalation}
    (h : RaisedOn state log raise) (hphase : raise.phase = .core .reconcile) :
    raise.policyCause = some .reconcileNoProgress := by
  cases h with
  | verdict name verdict latest target first =>
    rw [hphase] at target
    cases name <;> exact absurd target (by decide)
  | failure fail member failed target first =>
    rw [hphase] at target
    exact absurd target nofun
  | conflict seq last source cause target first => exact cause

section Facts

variable {events : List StoredEvent} {state : BuildState}

/-- **Nothing of the class was raised since the evidence.** -/
theorem le_of_raisedAfter (hp : events.Pairwise (fun a b => a.seq < b.seq))
    (hs : reduceBuild events = .ok state) {earlier : RaisedDecision}
    (hkept : earlier.Kept (projectEvents events)) {raise : RaiseEscalation}
    (hclass : earlier.decision.sameClass raise) {seq : Nat}
    (h : raisedAfter state.engineFacts seq raise.source (.phase raise.phase) = false) :
    earlier.seq ≤ seq := by
  obtain ⟨ts, hm⟩ := hkept.logged
  have hstands := standing_reduceBuild hp hs hm rfl rfl hkept.once
  have hnot := List.any_eq_false.mp h _ hstands
  refine Nat.le_of_not_lt fun hlt => hnot (decide_eq_true ⟨hlt, hclass.1, ?_, rfl⟩)
  exact congrArg EscalationTarget.phase hclass.2

theorem le_of_reconcileNoProgress (hp : events.Pairwise (fun a b => a.seq < b.seq))
    (hs : reduceBuild events = .ok state) {earlier : RaisedDecision}
    (hkept : earlier.Kept (projectEvents events)) (hsource : earlier.decision.source = .policy)
    (hphase : earlier.decision.phase = .core .reconcile) {seq : Nat}
    (h : reconcileNoProgressRaisedAfter state.engineFacts seq = false) : earlier.seq ≤ seq := by
  obtain ⟨ts, hm⟩ := hkept.logged
  have hstands := standing_reduceBuild hp hs hm rfl rfl hkept.once
  have hnot := List.any_eq_false.mp h _ hstands
  refine Nat.le_of_not_lt fun hlt => hnot (decide_eq_true ⟨hlt, hsource, ?_, Or.inl ?_⟩)
  · exact congrArg EscalationTarget.phase hphase
  · exact (if_pos hsource).trans (hkept.cause hsource hphase)

/-- Evidence that is not before a raise is after it. -/
theorem evidence_after (hp : events.Pairwise (fun a b => a.seq < b.seq))
    {earlier : RaisedDecision} (hkept : earlier.Kept (projectEvents events)) {phase : Phase}
    {seq : Nat} (hle : earlier.seq ≤ seq)
    (h : ∃ event ∈ projectEvents events, event.seq = seq ∧ Evidence phase event.body) :
    ∃ event ∈ projectEvents events, earlier.seq < event.seq ∧ Evidence phase event.body := by
  obtain ⟨event, he, hseq, hbody⟩ := h
  refine ⟨event, he, lt_of_le_of_ne (hseq ▸ hle) fun heq => ?_, hbody⟩
  obtain ⟨ts, hm⟩ := hkept.logged
  have hsame := eq_of_seq (projectEvents_pairwise hp) hm he heq
  rw [← hsame] at hbody
  exact hbody.not_raised

/-- **A raise is decided on evidence after every earlier raise of its class.** -/
theorem evidence_of_decided (hp : events.Pairwise (fun a b => a.seq < b.seq)) {config : Config}
    {raise : RaiseEscalation} (h : decideNext events config = .ok (.raiseEscalation raise))
    {earlier : RaisedDecision} (hkept : earlier.Kept (projectEvents events))
    (hclass : earlier.decision.sameClass raise) :
    ∃ event ∈ projectEvents events, earlier.seq < event.seq ∧ Evidence raise.phase event.body := by
  obtain ⟨state, hs, hraised⟩ := raisedOn_of_decideNext h
  cases hraised with
  | verdict name verdict latest target first =>
    refine evidence_after hp hkept (le_of_raisedAfter hp hs hkept hclass first) ?_
    rw [target]
    exact evidence_of_latestVerdict (projectEvents_pairwise hp) latest
  | failure fail member failed target first =>
    refine evidence_after hp hkept (le_of_raisedAfter hp hs hkept hclass first) ?_
    obtain ⟨event, he, -, payload, hb, hfail⟩ := mem_verifyCompleted.mp member
    rw [hfail] at failed target ⊢
    rw [target]
    refine ⟨event, he, rfl, payload, hb, ?_, failed⟩
    exact (normalizeVerifyCompletion_step payload).symm
  | conflict seq last source cause target first =>
    have hle := le_of_reconcileNoProgress hp hs hkept (hclass.1.trans source)
      (hclass.2.trans target) first
    refine evidence_after hp hkept hle ?_
    rw [target]
    exact evidence_of_lastConflict last

end Facts

/-- What holds of every run. -/
structure RunFacts (log : List StoredEvent) (raised : List RaisedDecision) : Prop where
  ordered : log.Pairwise (fun a b => a.seq < b.seq)
  kept : ∀ earlier ∈ raised, earlier.Kept (projectEvents log)
  apart : raised.Pairwise fun first second =>
    first.decision.sameClass second.decision →
    ∃ event ∈ projectEvents log, first.seq < event.seq ∧ event.seq < second.seq ∧
      Evidence second.decision.phase event.body

theorem ordered_snoc {log : List StoredEvent} {event : StoredEvent}
    (h : log.Pairwise (fun a b => a.seq < b.seq)) (later : ∀ e ∈ log, e.seq < event.seq) :
    (log ++ [event]).Pairwise (fun a b => a.seq < b.seq) :=
  List.pairwise_append.mpr ⟨h, List.pairwise_singleton _ _, fun e he last hl => by
    rw [List.mem_singleton.mp hl]
    exact later e he⟩

/-- **Every step keeps the facts.** -/
theorem KernelRun.facts {log : List StoredEvent} {raised : List RaisedDecision}
    (run : KernelRun log raised) : RunFacts log raised := by
  induction run with
  | nil => exact ⟨List.Pairwise.nil, fun _ h => absurd h List.not_mem_nil, List.Pairwise.nil⟩
  | @raised log raised run config raise decided id seq ts later stamped ih =>
    have hordered := ordered_snoc ih.ordered (show ∀ e ∈ log, e.seq <
      (StoredEvent.known (raise.event id seq ts)).seq from later)
    have hlog := projectEvents_known log (raise.event id seq ts)
    have hnew : ∀ earlier ∈ raised, raises earlier.id (raise.event id seq ts) = false := by
      intro earlier he
      obtain ⟨ts', hm⟩ := (ih.kept earlier he).logged
      have hother := stamped _ hm
      rw [raises_event] at hother ⊢
      exact decide_eq_false fun heq => of_decide_eq_false hother heq.symm
    refine ⟨hordered, fun earlier he => ?_, ?_⟩
    · rw [hlog]
      rcases List.mem_append.mp he with he | he
      · exact (ih.kept earlier he).append (hnew earlier he)
      · rw [List.mem_singleton.mp he]
        refine ⟨⟨ts, List.mem_append_right _ List.mem_cons_self⟩, ?_, fun _ hphase => ?_⟩
        · have hzero : (projectEvents log).countP (raises id) = 0 :=
            List.countP_eq_zero.mpr fun event hm hr =>
              Bool.false_ne_true ((stamped event hm).symm.trans hr)
          unfold RaisedOnce
          rw [List.countP_append, hzero, List.countP_singleton]
          split <;> omega
        · obtain ⟨state, -, hraised⟩ := raisedOn_of_decideNext decided
          exact cause_of_raisedOn hraised hphase
    · refine List.pairwise_append.mpr ⟨?_, List.pairwise_singleton _ _, ?_⟩
      · refine ih.apart.imp fun happart hclass => ?_
        obtain ⟨event, hm, hrest⟩ := happart hclass
        rw [hlog]
        exact ⟨event, List.mem_append_left _ hm, hrest⟩
      · intro earlier he last hl hclass
        rw [List.mem_singleton.mp hl] at hclass ⊢
        obtain ⟨event, hm, hlt, hevidence⟩ :=
          evidence_of_decided ih.ordered decided (ih.kept earlier he) hclass
        have hbefore := projectEvents_pairwise hordered
        rw [hlog] at hbefore ⊢
        exact ⟨event, List.mem_append_left _ hm, hlt,
          (List.pairwise_append.mp hbefore).2.2 event hm _ List.mem_cons_self, hevidence⟩
  | @appended log raised run event later stamped ih =>
    refine ⟨ordered_snoc ih.ordered later, fun earlier he => ?_, ih.apart.imp ?_⟩
    · rw [projectEvents_append]
      cases event with
      | known known => exact (ih.kept earlier he).append (stamped earlier he known rfl)
      | unknown seq type metadata =>
        rw [show projectEvents [.unknown seq type metadata] = [] from rfl, List.append_nil]
        exact ih.kept earlier he
    · intro first second happart hclass
      obtain ⟨earlier, hm, hrest⟩ := happart hclass
      rw [projectEvents_append]
      exact ⟨earlier, List.mem_append_left _ hm, hrest⟩

/-- After a verdict that does not approve, a loop runs its producer or raises. -/
theorem decideLoop_of_verdict {args : LoopArgs} {verdict : VerdictRecord}
    (h : args.loop.latestVerdict = some verdict) (hverdict : verdict.verdict ≠ .approve) :
    (∃ round, decideLoop args = some (args.runProducer round)) ∨
      ∃ raise, decideLoop args = some (.raiseEscalation raise) := by
  obtain ⟨record, hrecord, hrec⟩ := Option.bind_eq_some_iff.mp h
  unfold decideLoop
  rw [hrecord]
  dsimp only
  rw [hrec]
  split
  · exact Or.inl ⟨_, rfl⟩
  · unfold LoopArgs.decideVerdict
    dsimp only
    cases hkind : verdict.verdict with
    | approve => exact absurd hkind hverdict
    | escalate =>
      dsimp only
      split
      · exact Or.inl ⟨_, rfl⟩
      · exact Or.inr ⟨_, rfl⟩
    | revise =>
      unfold LoopArgs.decideRevise
      dsimp only
      split
      · exact Or.inr ⟨_, rfl⟩
      · split
        · exact Or.inr ⟨_, rfl⟩
        · exact Or.inl ⟨_, rfl⟩

/-- **Escalations are raised once for a cause.**  Between two raises of one source and target there
is a verdict of that reviewer, a failure of that step or a conflict; a further raise has such
evidence after every earlier one, answered or not; and a review loop at a verdict runs its
producer, or raises with a source it did not raise with since the verdict. -/
theorem raised_once {log : List StoredEvent} {raised : List RaisedDecision}
    (run : KernelRun log raised) :
    (raised.Pairwise fun first second =>
      first.decision.sameClass second.decision →
      ∃ event ∈ projectEvents log, first.seq < event.seq ∧ event.seq < second.seq ∧
        Evidence second.decision.phase event.body) ∧
    (∀ config raise, decideNext log config = .ok (.raiseEscalation raise) →
      ∀ earlier ∈ raised, earlier.decision.sameClass raise →
      ∃ event ∈ projectEvents log, earlier.seq < event.seq ∧ Evidence raise.phase event.body) ∧
    ∀ state, reduceBuild log = .ok state → ∀ (config : Config) (name : LoopName)
      (verdict : VerdictRecord),
      ((indexLog (projectEvents log)).loop name).latestVerdict = some verdict →
      verdict.verdict ≠ .approve →
      (∃ round, decideLoop (name.args state.engineFacts (indexLog (projectEvents log)) config)
        = some ((name.args state.engineFacts (indexLog (projectEvents log)) config).runProducer
            round)) ∨
      ∃ raise, decideLoop (name.args state.engineFacts (indexLog (projectEvents log)) config)
          = some (.raiseEscalation raise) ∧
        ∀ earlier ∈ raised, earlier.decision.sameClass raise → earlier.seq < verdict.seq := by
  have hfacts := run.facts
  refine ⟨hfacts.apart, fun config raise h earlier he hclass =>
    evidence_of_decided hfacts.ordered h (hfacts.kept earlier he) hclass, ?_⟩
  intro state hs config name verdict hlatest hverdict
  have hloop : (name.args state.engineFacts (indexLog (projectEvents log)) config).loop
      = (indexLog (projectEvents log)).loop name := by cases name <;> rfl
  have hargs : (name.args state.engineFacts (indexLog (projectEvents log)) config).raisedAfter
      = raisedAfter state.engineFacts := by cases name <;> rfl
  rcases decideLoop_of_verdict (hloop ▸ hlatest) hverdict with hrun | ⟨raise, hraise⟩
  · exact Or.inl hrun
  · refine Or.inr ⟨raise, hraise, fun earlier he hclass => ?_⟩
    obtain ⟨same, hsame, -, hfirst⟩ := raisedOn_of_loop hraise
    rw [hloop, hlatest] at hsame
    rw [hargs, ← Option.some.inj hsame] at hfirst
    have hkept := hfacts.kept earlier he
    have hle := le_of_raisedAfter hfacts.ordered hs hkept hclass hfirst
    refine lt_of_le_of_ne hle fun heq => ?_
    obtain ⟨event, hm, hseq, hbody⟩ :=
      evidence_of_latestVerdict (projectEvents_pairwise hfacts.ordered) hlatest
    obtain ⟨ts, hown⟩ := hkept.logged
    rw [← eq_of_seq (projectEvents_pairwise hfacts.ordered) hown hm (heq.trans hseq.symm)] at hbody
    exact hbody.not_raised

def Decision.raised? : Decision → Option RaiseEscalation
  | .raiseEscalation raise => some raise
  | _ => none

theorem Decision.raised?_eq_some {decision : Decision} {raise : RaiseEscalation} :
    decision.raised? = some raise ↔ decision = .raiseEscalation raise := by
  cases decision <;> simp [Decision.raised?]

instance (decision : Decision) (raise : RaiseEscalation) :
    Decidable (decision = .raiseEscalation raise) :=
  decidable_of_iff (decision.raised? = some raise) Decision.raised?_eq_some

def escalatingReview (round : Nat) : ReviewVerdict :=
  ⟨round, .escalate, [], ⟨"review", round⟩, some "unclear"⟩

def escalatedReview (round : Nat) : RaiseEscalation where
  source := .agent
  phase := .core .planReview
  round := some round
  question := "unclear"

/-- The plan review escalates, is answered, and escalates the next round. -/
def escalatedTwice : List StoredEvent :=
  [memberEvent 1 (.spec (.imported ⟨"spec", 1⟩)),
    memberEvent 2 (.planReview (.verdict (escalatingReview 1))),
    .known ((escalatedReview 1).event "esc_1" 3 0),
    memberEvent 4 (.escalationAnswered ⟨"esc_1", "go on", .guidance, none, none, none⟩),
    memberEvent 5 (.planReview (.verdict (escalatingReview 2))),
    .known ((escalatedReview 2).event "esc_2" 6 0)]

theorem escalatedTwice_run :
    KernelRun escalatedTwice [⟨escalatedReview 1, "esc_1", 3⟩,
      ⟨escalatedReview 2, "esc_2", 6⟩] := by
  have reviewed : KernelRun (escalatedTwice.take 2) [] :=
    (KernelRun.nil.appended _ (by decide) (by simp)).appended _ (by decide) (by simp)
  have raised : KernelRun (escalatedTwice.take 3) [⟨escalatedReview 1, "esc_1", 3⟩] :=
    reviewed.raised unitAndLint (escalatedReview 1) (decideNext_of_decidesTo (by decide +kernel))
      "esc_1" 3 0 (by decide) (by decide)
  have answered : KernelRun (escalatedTwice.take 4) [⟨escalatedReview 1, "esc_1", 3⟩] :=
    raised.appended _ (by decide) fun _ _ known hk => by
      cases hk
      rfl
  have again : KernelRun (escalatedTwice.take 5) [⟨escalatedReview 1, "esc_1", 3⟩] :=
    answered.appended _ (by decide) fun _ _ known hk => by
      cases hk
      rfl
  exact again.raised unitAndLint (escalatedReview 2) (decideNext_of_decidesTo (by decide +kernel))
    "esc_2" 6 0 (by decide) (by decide)

theorem raised_once_escalatedTwice :
    (escalatedReview 1).sameClass (escalatedReview 2) ∧
      ∃ event ∈ projectEvents escalatedTwice, 3 < event.seq ∧ event.seq < 6 ∧
        Evidence (.core .planReview) event.body := by
  have hclass : (escalatedReview 1).sameClass (escalatedReview 2) := ⟨rfl, rfl⟩
  obtain ⟨hapart, -⟩ := raised_once escalatedTwice_run
  exact ⟨hclass, (List.pairwise_cons.mp hapart).1 _ List.mem_cons_self hclass⟩

end Autobuild
