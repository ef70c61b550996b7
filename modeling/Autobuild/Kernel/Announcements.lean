/-
# What a started event moves

The runner announces a unit of work, a phase round or a verify attempt, by one started event
before it launches anything.  This module says what the engine reads differently once that event
is at the end of the log, and that it reads nothing else differently:

* of the build state the phase in flight, and the counter of the unit
  (`reduceBuild_of_announced`);
* of the log the record of the round, the verify start, or the reconcile of the restack
  (`indexLog_roundStarted`, `indexLog_verifyStarted`, `indexLog_reconcileStarted`).
-/
import Autobuild.Kernel.NodeFacts
import Autobuild.Kernel.RaisedOnce
import Autobuild.Kernel.UnitRules

namespace Autobuild

open ObjectMap Checked

/-! ## 1. Started events -/

/-- The started event of a unit.  A reconcile cites the restack in flight and a verify attempt
of a node the integration cycle; what else it carries is free. -/
inductive Announces (state : EngineFacts) (log : LogIndex) : StartedUnit → EventBody → Prop
  | plan (payload : PlanStarted) :
    Announces state log (.phase .plan payload.round) (.plan (.started payload))
  | planReview (round : Nat) :
    Announces state log (.phase .planReview round) (.planReview (.started round))
  | implement (payload : ImplementStarted) :
    Announces state log (.phase .implement payload.round) (.implement (.started payload))
  | codeReview (round : Nat) :
    Announces state log (.phase .codeReview round) (.codeReview (.started round))
  | finalize (round : Nat) : Announces state log (.phase .finalize round) (.finalize .started)
  | reconcile (payload : ReconcileStarted) (h : payload.restackId = log.restack.activeId) :
    Announces state log (.phase .reconcile payload.attempt) (.reconcile (.started payload))
  | verify (payload : VerifyStarted)
    (h : state.kind = some .node →
      payload.restackId = state.cycleState.cycle.map (·.payload.id)) :
    Announces state log (.verify payload.step payload.attempt) (.verify (.started payload))

/-- The event is one of those that announce. -/
def startsUnit : EventBody → Bool
  | .plan (.started _) => true
  | .planReview (.started _) => true
  | .implement (.started _) => true
  | .codeReview (.started _) => true
  | .finalize .started => true
  | .reconcile (.started _) => true
  | .verify (.started _) => true
  | _ => false

theorem Announces.startsUnit {state : EngineFacts} {log : LogIndex} {unit : StartedUnit}
    {body : EventBody} (h : Announces state log unit body) : startsUnit body = true := by
  cases h <;> rfl

/-! ## 2. The build state -/

section State

/-- The engine reads of the end of a batch the phase in flight only. -/
theorem engineFacts_settle (acc : BuildAcc) :
    (finishBuild (settle acc)).engineFacts
      = { (finishBuild acc).engineFacts with
          currentPhase := settledPhase acc.shown acc.currentPhase } := by
  rw [settle_eq]
  rfl

/-- What an announcement makes of the facts, before the end of the batch. -/
def EngineFacts.announce (state : EngineFacts) (seq : Nat) : EventBody → EngineFacts
  | .plan (.started payload) =>
    { state with currentPhase := some (roundContext .plan payload.round seq) }
  | .planReview (.started round) =>
    { state with currentPhase := some (roundContext .planReview round seq) }
  | .implement (.started payload) =>
    { state with
      currentPhase := some (roundContext .implement payload.round seq)
      verifyStage := { state.verifyStage with
        implementations :=
          (attributeImplementation state.verifyStage payload seq).implementations } }
  | .codeReview (.started round) =>
    { state with currentPhase := some (roundContext .codeReview round seq) }
  | .finalize .started =>
    { state with currentPhase := some ⟨.core .finalize, none, none, seq⟩ }
  | .reconcile (.started payload) =>
    { state with
      currentPhase := some (attemptContext (.core .reconcile) payload.attempt seq)
      reconcileAttempts := max state.reconcileAttempts payload.attempt }
  | .verify (.started payload) =>
    { state with
      currentPhase := some (attemptContext (verifyPhase payload.step) payload.attempt seq)
      maxAttemptSeen := max state.maxAttemptSeen payload.attempt
      verifyStage := startVerifyMember state.verifyStage payload seq }
  | _ => state

variable {events : List StoredEvent} {state : BuildState} {event : AbEvent}

/-- An implement round is only attributed. -/
theorem attributeImplementation_eq (stage : VerifyStageState) (payload : ImplementStarted)
    (seq : Nat) : attributeImplementation stage payload seq
      = { stage with
          implementations := (attributeImplementation stage payload seq).implementations } := by
  unfold attributeImplementation
  split
  · rfl
  · split <;> rfl

theorem foldEvent_of_announced (acc : BuildAcc) (h : startsUnit event.body = true) :
    ∃ next, foldEvent acc event = .ok next ∧
      (finishBuild next).engineFacts
        = (finishBuild acc).engineFacts.announce event.seq event.body := by
  refine ⟨foldProjection (foldActivity acc event) event, ?_⟩
  obtain ⟨seq, ts, actor, body⟩ := event
  unfold startsUnit at h
  dsimp only at h
  split at h
  case h_3 payload =>
    have hstage : advanceVerifyStage acc.verifyStage
        ⟨seq, ts, actor, .implement (.started payload)⟩
          = { acc.verifyStage with
              implementations :=
                (attributeImplementation acc.verifyStage payload seq).implementations } :=
      attributeImplementation_eq acc.verifyStage payload seq
    refine ⟨rfl, ?_⟩
    unfold foldProjection
    have hacc : (foldActivity acc ⟨seq, ts, actor, .implement (.started payload)⟩).verifyStage
        = acc.verifyStage := rfl
    rw [hacc, hstage]
    rfl
  all_goals first
    | cases h; done
    | exact ⟨rfl, rfl⟩

theorem foldEvents_of_announced (acc : BuildAcc) (h : startsUnit event.body = true) :
    foldEvents acc [.known event] = foldEvent acc event := by
  obtain ⟨seq, ts, actor, body⟩ := event
  unfold startsUnit at h
  dsimp only at h
  split at h
  all_goals first
    | cases h; done
    | exact bind_pure _

/-- **The facts after an announcement.**  What the end of a batch adds to them is that a verify
phase in flight may be that of another member. -/
theorem reduceBuild_of_announced (h : reduceBuild events = .ok state)
    (hs : startsUnit event.body = true) :
    ∃ next shown, reduceBuild (events ++ [.known event]) = .ok next ∧
      next.engineFacts
        = { state.engineFacts.announce event.seq event.body with
            currentPhase := settledPhase shown
              (state.engineFacts.announce event.seq event.body).currentPhase } := by
  unfold reduceBuild foldBuild at h
  obtain ⟨settled, hset, hfin⟩ := bind_eq_ok.mp h
  obtain ⟨acc, hacc, hset⟩ := bind_eq_ok.mp hset
  obtain ⟨last, hlast, hfacts⟩ := foldEvent_of_announced acc hs
  refine ⟨finishBuild (settle last), last.shown, ?_, ?_⟩
  · unfold reduceBuild foldBuild
    rw [foldEvents_append, hacc, ok_bind, foldEvents_of_announced acc hs, hlast]
    rfl
  · have hstate : state = finishBuild (settle acc) := by
      rw [← Except.ok.inj hfin, ← Except.ok.inj hset]
    have hphase : last.currentPhase = (finishBuild last).engineFacts.currentPhase := rfl
    rw [engineFacts_settle, hphase, hfacts, hstate, engineFacts_settle]
    generalize (finishBuild acc).engineFacts = facts
    generalize settledPhase acc.shown acc.currentPhase = current
    obtain ⟨seq, ts, actor, body⟩ := event
    unfold startsUnit at hs
    dsimp only at hs
    split at hs
    all_goals first
      | cases hs; done
      | rfl

end State

/-! ## 3. The index of the log -/

/-- What an announcement makes of the index, `highest` and `noProgress` apart: neither is read
while the unit is in flight. -/
def LogIndex.announce (log : LogIndex) (event : AbEvent) (highest noProgress : Nat) : LogIndex :=
  let log := { log with restack := advanceLeafRestackEvent log.restack event }
  match event.body with
  | .plan (.started payload) =>
    { log with
      plan := { log.plan.record payload.round ({ · with startedSeq := some event.seq }) with
        maxRoundEver := highest } }
  | .planReview (.started round) =>
    { log with plan := { log.plan.record round id with maxRoundEver := highest } }
  | .implement (.started payload) =>
    { log with
      code := { log.code.record payload.round ({ · with startedSeq := some event.seq }) with
        maxRoundEver := highest } }
  | .codeReview (.started round) =>
    { log with code := { log.code.record round id with maxRoundEver := highest } }
  | .reconcile (.started payload) =>
    { log with
      conflictReconcileStarted :=
        match log.lastConflict with
        | some conflict =>
          if event.seq > conflict then some payload.attempt else log.conflictReconcileStarted
        | none => log.conflictReconcileStarted
      reconcileNoProgressCount := noProgress }
  | .verify (.started payload) =>
    { log with
      verifyStarted := log.verifyStarted ++ [LogIndexAcc.startRecord event.seq payload]
      maxVerifyAttemptEver := max log.maxVerifyAttemptEver payload.attempt }
  | _ => log

namespace PostRestart

/-- The replay with other highest rounds ever. -/
def withHighest (replay : PostRestart) (plan code : Nat) : PostRestart :=
  { replay with
    plan := { replay.plan with maxRoundEver := plan }
    code := { replay.code with maxRoundEver := code } }

theorem replayCandidate_withHighest (replay : PostRestart) (plan code : Nat)
    (c : LogIndexCandidate) :
    (replay.withHighest plan code).replayCandidate c
      = (replay.replayCandidate c).withHighest plan code := by
  cases c with
  | roundStart loop seq round => cases loop <;> rfl
  | roundTouch loop seq round => cases loop <;> rfl
  | roundCompleted loop seq round => cases loop <;> rfl
  | verdict loop seq payload => cases loop <;> rfl
  | _ => rfl

theorem replayAfter_withHighest (restartSeq : Nat) (replay : PostRestart) (plan code : Nat)
    (c : LogIndexCandidate) :
    replayAfter restartSeq (replay.withHighest plan code) c
      = (replayAfter restartSeq replay c).withHighest plan code := by
  unfold replayAfter
  split
  · rfl
  · exact replayCandidate_withHighest replay plan code c

theorem foldl_replayAfter_withHighest (restartSeq plan code : Nat) :
    ∀ (cs : List LogIndexCandidate) (replay : PostRestart),
      cs.foldl (replayAfter restartSeq) (replay.withHighest plan code)
        = (cs.foldl (replayAfter restartSeq) replay).withHighest plan code
  | [], _ => rfl
  | c :: rest, replay => by
    rw [List.foldl_cons, List.foldl_cons, replayAfter_withHighest,
      foldl_replayAfter_withHighest restartSeq plan code rest]

end PostRestart

/-- One more candidate after the boundary, and perhaps higher rounds. -/
theorem postRestart_push {acc next : LogIndexAcc} {c : LogIndexCandidate}
    (hc : next.candidates = acc.candidates ++ [c]) (hr : next.restartSeq = acc.restartSeq)
    (hs : acc.restartSeq < c.seq) :
    next.postRestart = (acc.postRestart.replayCandidate c).withHighest next.maxPlanRoundEver
      next.maxCodeRoundEver := by
  have hfresh := PostRestart.foldl_replayAfter_withHighest acc.restartSeq next.maxPlanRoundEver
    next.maxCodeRoundEver acc.candidates
    { plan := { maxRoundEver := acc.maxPlanRoundEver }
      code := { maxRoundEver := acc.maxCodeRoundEver } }
  unfold LogIndexAcc.postRestart
  rw [hc, hr, List.foldl_append, List.foldl_cons, List.foldl_nil,
    ← PostRestart.replayCandidate_withHighest, ← hfresh]
  exact if_neg (Nat.not_le.mpr hs)

theorem postRestart_withHighest (acc : LogIndexAcc) :
    acc.postRestart.withHighest acc.maxPlanRoundEver acc.maxCodeRoundEver = acc.postRestart :=
  (PostRestart.foldl_replayAfter_withHighest acc.restartSeq acc.maxPlanRoundEver
    acc.maxCodeRoundEver acc.candidates
    { plan := { maxRoundEver := acc.maxPlanRoundEver }
      code := { maxRoundEver := acc.maxCodeRoundEver } }).symm

/-- A started event finishes no session. -/
theorem foldReadDeferral_of_announced {event : AbEvent} (acc : ReadDeferralsAcc)
    (h : startsUnit event.body = true) : foldReadDeferral acc event = acc := by
  obtain ⟨seq, ts, actor, body⟩ := event
  unfold startsUnit at h
  dsimp only at h
  split at h
  all_goals first
    | cases h; done
    | exact finishSessions_of_not fun id session => by simp [finishesSession, completesSession,
        isAgentBoundary]

theorem noteGuidanceStart_pending (acc : LogIndexAcc) (occurrence : Occurrence)
    (feedback : Option Feedback) (seq : Nat) :
    ∃ pending, acc.noteGuidanceStart occurrence feedback seq
      = { acc with pendingGuidanceStarts := pending } := by
  unfold LogIndexAcc.noteGuidanceStart
  split <;> exact ⟨_, rfl⟩

section Body

variable (acc : LogIndexAcc) (seq : Nat)

theorem indexBody_planStarted (payload : PlanStarted) :
    ∃ pending, indexBody acc seq (.plan (.started payload))
      = { acc with
          pendingGuidanceStarts := pending
          maxPlanRoundEver := max acc.maxPlanRoundEver payload.round
          candidates := acc.candidates ++ [.roundStart .plan seq payload.round] } := by
  obtain ⟨pending, hp⟩ :=
    noteGuidanceStart_pending acc ⟨.core .plan, payload.round⟩ payload.feedback seq
  refine ⟨pending, ?_⟩
  show ((acc.noteGuidanceStart _ _ _).noteRound _ _).push _ = _
  rw [hp]
  rfl

theorem indexBody_implementStarted (payload : ImplementStarted) :
    ∃ pending, indexBody acc seq (.implement (.started payload))
      = { acc with
          pendingGuidanceStarts := pending
          maxCodeRoundEver := max acc.maxCodeRoundEver payload.round
          candidates := acc.candidates ++ [.roundStart .code seq payload.round] } := by
  obtain ⟨pending, hp⟩ :=
    noteGuidanceStart_pending acc ⟨.core .implement, payload.round⟩ payload.feedback seq
  refine ⟨pending, ?_⟩
  show ((acc.noteGuidanceStart _ _ _).noteRound _ _).push _ = _
  rw [hp]
  rfl

theorem indexBody_verifyStarted (payload : VerifyStarted) :
    ∃ pending, indexBody acc seq (.verify (.started payload))
      = { acc with
          pendingGuidanceStarts := pending
          maxVerifyAttemptEver := max acc.maxVerifyAttemptEver payload.attempt
          candidates := acc.candidates ++
            [.verifyStarted (LogIndexAcc.startRecord seq payload)] } := by
  obtain ⟨pending, hp⟩ :=
    noteGuidanceStart_pending acc ⟨verifyPhase payload.step, payload.attempt⟩ payload.feedback seq
  refine ⟨pending, ?_⟩
  show ((acc.noteGuidanceStart _ _ _).noteAttempt _).push _ = _
  rw [hp]
  rfl

end Body

/-- A candidate of the plan loop. -/
theorem postRestart_push_plan (acc : LogIndexAcc) {next : LogIndexAcc} {c : LogIndexCandidate}
    {f : LoopIndex → LoopIndex} (hc : next.candidates = acc.candidates ++ [c])
    (hr : next.restartSeq = acc.restartSeq) (hs : acc.restartSeq < c.seq)
    (hm : next.maxCodeRoundEver = acc.maxCodeRoundEver)
    (hf : ∀ replay : PostRestart, replay.replayCandidate c = replay.mapLoop f .plan) :
    next.postRestart = { acc.postRestart with
      plan := { f acc.postRestart.plan with maxRoundEver := next.maxPlanRoundEver } } := by
  have hcode : { acc.postRestart.code with maxRoundEver := acc.maxCodeRoundEver }
      = acc.postRestart.code := congrArg PostRestart.code (postRestart_withHighest acc)
  rw [postRestart_push hc hr hs, hf, hm]
  unfold PostRestart.withHighest
  dsimp only [PostRestart.mapLoop]
  rw [hcode]

/-- A candidate of the code loop. -/
theorem postRestart_push_code (acc : LogIndexAcc) {next : LogIndexAcc} {c : LogIndexCandidate}
    {f : LoopIndex → LoopIndex} (hc : next.candidates = acc.candidates ++ [c])
    (hr : next.restartSeq = acc.restartSeq) (hs : acc.restartSeq < c.seq)
    (hm : next.maxPlanRoundEver = acc.maxPlanRoundEver)
    (hf : ∀ replay : PostRestart, replay.replayCandidate c = replay.mapLoop f .code) :
    next.postRestart = { acc.postRestart with
      code := { f acc.postRestart.code with maxRoundEver := next.maxCodeRoundEver } } := by
  have hplan : { acc.postRestart.plan with maxRoundEver := acc.maxPlanRoundEver }
      = acc.postRestart.plan := congrArg PostRestart.plan (postRestart_withHighest acc)
  rw [postRestart_push hc hr hs, hf, hm]
  unfold PostRestart.withHighest
  dsimp only [PostRestart.mapLoop]
  rw [hplan]

/-- A verify start. -/
theorem postRestart_push_verify (acc : LogIndexAcc) {next : LogIndexAcc}
    (record : VerifyStartRecord) (hc : next.candidates = acc.candidates ++ [.verifyStarted record])
    (hr : next.restartSeq = acc.restartSeq) (hs : acc.restartSeq < record.seq)
    (hp : next.maxPlanRoundEver = acc.maxPlanRoundEver)
    (hm : next.maxCodeRoundEver = acc.maxCodeRoundEver) :
    next.postRestart = { acc.postRestart with
      verifyStarted := acc.postRestart.verifyStarted ++ [record] } := by
  have hw := postRestart_withHighest acc
  rw [postRestart_push hc hr hs, hp, hm]
  exact congrArg (fun replay : PostRestart =>
    { replay with verifyStarted := acc.postRestart.verifyStarted ++ [record] }) hw

/-- **The index after an announcement.** -/
theorem indexLog_of_announced {events : List AbEvent} {event : AbEvent}
    (h : startsUnit event.body = true) (hs : lastRevised events < event.seq) :
    ∃ highest noProgress,
      indexLog (events ++ [event]) = (indexLog events).announce event highest noProgress := by
  have hfold : foldLogIndex initialLogIndexAcc (events ++ [event])
      = indexEvent (foldLogIndex initialLogIndexAcc events) event := List.foldl_concat ..
  have hrestart := (candidates_foldLogIndex events).2
  unfold indexLog
  rw [hfold]
  generalize foldLogIndex initialLogIndexAcc events = acc at hrestart ⊢
  rw [← hrestart] at hs
  unfold indexEvent
  rw [foldReadDeferral_of_announced acc.readDeferrals h]
  obtain ⟨seq, ts, actor, body⟩ := event
  unfold startsUnit at h
  dsimp only at h hs ⊢
  split at h
  case h_1 payload =>
    obtain ⟨pending, hp⟩ := indexBody_planStarted { acc with
      restack := advanceLeafRestackEvent acc.restack
        ⟨seq, ts, actor, .plan (.started payload)⟩ } seq payload
    refine ⟨max acc.maxPlanRoundEver payload.round, 0, ?_⟩
    generalize hlog : finishLogIndex acc = log
    rw [hp]
    unfold finishLogIndex
    rw [postRestart_push_plan acc (c := .roundStart .plan seq payload.round)
      (f := (·.record payload.round ({ · with startedSeq := some seq }))) ?_ ?_ hs ?_
      fun _ => rfl, ← hlog]
    all_goals rfl
  case h_2 round =>
    refine ⟨max acc.maxPlanRoundEver round, 0, ?_⟩
    generalize hlog : finishLogIndex acc = log
    unfold finishLogIndex indexBody
    rw [postRestart_push_plan acc (c := .roundTouch .plan seq round)
      (f := (·.record round id)) ?_ ?_ hs ?_ fun _ => rfl, ← hlog]
    all_goals rfl
  case h_3 payload =>
    obtain ⟨pending, hp⟩ := indexBody_implementStarted { acc with
      restack := advanceLeafRestackEvent acc.restack
        ⟨seq, ts, actor, .implement (.started payload)⟩ } seq payload
    refine ⟨max acc.maxCodeRoundEver payload.round, 0, ?_⟩
    generalize hlog : finishLogIndex acc = log
    rw [hp]
    unfold finishLogIndex
    rw [postRestart_push_code acc (c := .roundStart .code seq payload.round)
      (f := (·.record payload.round ({ · with startedSeq := some seq }))) ?_ ?_ hs ?_
      fun _ => rfl, ← hlog]
    all_goals rfl
  case h_4 round =>
    refine ⟨max acc.maxCodeRoundEver round, 0, ?_⟩
    generalize hlog : finishLogIndex acc = log
    unfold finishLogIndex indexBody
    rw [postRestart_push_code acc (c := .roundTouch .code seq round)
      (f := (·.record round id)) ?_ ?_ hs ?_ fun _ => rfl, ← hlog]
    all_goals rfl
  case h_5 => exact ⟨0, 0, rfl⟩
  case h_6 payload => exact ⟨0, _, rfl⟩
  case h_7 payload =>
    obtain ⟨pending, hp⟩ := indexBody_verifyStarted { acc with
      restack := advanceLeafRestackEvent acc.restack
        ⟨seq, ts, actor, .verify (.started payload)⟩ } seq payload
    refine ⟨0, 0, ?_⟩
    generalize hlog : finishLogIndex acc = log
    rw [hp]
    unfold finishLogIndex
    rw [postRestart_push_verify acc (LogIndexAcc.startRecord seq payload) ?_ ?_ hs ?_ ?_, ← hlog]
    all_goals rfl
  case h_8 => cases h

/-! ## 4. What a log knows is earlier than its next event -/

/-- A conflict comes before the reconcile of it. -/
structure ConflictKept (log : LogIndex) (seq : Nat) : Prop where
  started : log.lastConflict = none → log.conflictReconcileStarted = none
  earlier : ∀ conflict, log.lastConflict = some conflict → conflict < seq

/-- What was known before an event. -/
structure KnownBefore (state : EngineFacts) (log : LogIndex) (seq : Nat) : Prop where
  restart : log.restartSeq < seq
  boundary : log.cycleBoundary < seq
  node : ∀ cycle, state.cycleState.cycle = some cycle → nodeBoundary log cycle < seq
  conflict : ConflictKept log seq
  plan : log.plan.Bounded
  code : log.code.Bounded

section Earlier

/-- The cycle of a node comes with its event, and goes when a new parent is accepted. -/
theorem cycle_foldFacts (acc : BuildAcc) (event : AbEvent) :
    (foldFacts acc event).integration.bind (·.cycle) = acc.integration.bind (·.cycle) ∨
      (foldFacts acc event).integration.bind (·.cycle) = none := by
  cases hon : onNode event.body with
  | false =>
    left
    exact congrArg (fun facts : NodeFacts => facts.integration.bind (·.cycle))
      (foldFacts_nodeFacts acc hon)
  | true =>
    obtain ⟨seq, ts, actor, body⟩ := event
    cases body with
    | build body => cases body <;> exact Or.inl rfl
    | node body =>
      cases body with
      | parentAccepted payload =>
        unfold foldFacts foldNodeEvent acceptNodeParent
        dsimp only
        split
        · right
          cases acc.integration <;> rfl
        · exact Or.inl rfl
      | _ => exact Or.inl rfl
    | _ => cases hon

theorem cycle_foldActivity (acc : BuildAcc) (event : AbEvent) :
    (foldActivity acc event).integration.bind (·.cycle) = acc.integration.bind (·.cycle) ∨
      ∃ payload, (foldActivity acc event).integration.bind (·.cycle)
        = some ⟨payload, event.seq⟩ := by
  obtain ⟨seq, ts, actor, body⟩ := event
  cases body with
  | integration body =>
    cases body with
    | prepared payload => exact Or.inr ⟨payload, rfl⟩
    | _ =>
      left
      show (some (advanceIntegration (acc.integration.getD {}) _ _)).bind (·.cycle) = _
      cases acc.integration <;> rfl
  | build body => cases body <;> exact Or.inl rfl
  | target body => cases body <;> exact Or.inl rfl
  | node body => cases body <;> exact Or.inl rfl
  | _ => exact Or.inl rfl

theorem cycle_foldEvent {acc next : BuildAcc} {event : AbEvent}
    (h : foldEvent acc event = .ok next) {cycle : WithSeq IntegrationPrepared}
    (hc : next.integration.bind (·.cycle) = some cycle) :
    acc.integration.bind (·.cycle) = some cycle ∨ cycle.seq = event.seq := by
  unfold foldEvent at h
  obtain ⟨nodeRestack, -, h⟩ := bind_eq_ok.mp h
  have hn := Except.ok.inj h
  rw [← hn] at hc
  unfold foldProjection at hc
  dsimp only at hc
  have hfacts := cycle_foldFacts (foldSuperseded
    { foldActivity acc event with
      nodeRestack := nodeRestack
      verifyStage := advanceVerifyStage (foldActivity acc event).verifyStage event } event.body)
    event
  have hsuperseded := congrArg (fun facts : NodeFacts => facts.integration.bind (·.cycle))
    (foldSuperseded_nodeFacts
      { foldActivity acc event with
        nodeRestack := nodeRestack
        verifyStage := advanceVerifyStage (foldActivity acc event).verifyStage event } event.body)
  dsimp only at hsuperseded
  rcases hfacts with hfacts | hfacts
  · rw [hfacts, hsuperseded] at hc
    rcases cycle_foldActivity acc event with hkeep | ⟨payload, hnew⟩
    · rw [hkeep] at hc
      exact Or.inl hc
    · rw [hnew] at hc
      rw [← Option.some.inj hc]
      exact Or.inr rfl
  · rw [hfacts] at hc
    cases hc

theorem cycle_foldlM {seq : Nat} {cycle : WithSeq IntegrationPrepared} :
    ∀ {events : List AbEvent} {acc next : BuildAcc}, (∀ event ∈ events, event.seq < seq) →
      events.foldlM foldEvent acc = .ok next → next.integration.bind (·.cycle) = some cycle →
        acc.integration.bind (·.cycle) = some cycle ∨ cycle.seq < seq
  | [], acc, next, _, h, hc => by
    rw [← Except.ok.inj h] at hc
    exact Or.inl hc
  | event :: rest, acc, next, hs, h, hc => by
    rw [List.foldlM_cons] at h
    obtain ⟨middle, hm, hr⟩ := bind_eq_ok.mp h
    rcases cycle_foldlM (fun e he => hs e (List.mem_cons_of_mem _ he)) hr hc with hc | hc
    · rcases cycle_foldEvent hm hc with hc | hc
      · exact Or.inl hc
      · rw [hc]
        exact Or.inr (hs event List.mem_cons_self)
    · exact Or.inr hc

theorem lastRevised_lt {seq : Nat} (hpos : 0 < seq) {events : List AbEvent}
    (hs : ∀ event ∈ events, event.seq < seq) : lastRevised events < seq := by
  unfold lastRevised
  refine List.foldlRecOn events _ (motive := (· < seq)) hpos fun restartSeq hrestart event he => ?_
  unfold restartAfter
  split
  · exact hs event he
  · exact hrestart

theorem cycleBoundary_lt {seq : Nat} (hpos : 0 < seq) {events : List AbEvent}
    (hs : ∀ event ∈ events, event.seq < seq) : (indexLog events).cycleBoundary < seq := by
  by_cases hzero : (indexLog events).cycleBoundary = 0
  · rw [hzero]
    exact hpos
  · obtain ⟨event, he, -, hseq, -⟩ := cycleBoundary_mem events hzero
    rw [← hseq]
    exact hs event he

theorem conflict_deliverGuidance (acc : LogIndexAcc) (seq : Nat) (payload : SessionStarted) :
    (acc.deliverGuidance seq payload).lastConflict = acc.lastConflict ∧
      (acc.deliverGuidance seq payload).conflictReconcileStarted
        = acc.conflictReconcileStarted := by
  unfold LogIndexAcc.deliverGuidance
  split
  · exact ⟨rfl, rfl⟩
  · split
    · exact ⟨rfl, rfl⟩
    · split <;> exact ⟨rfl, rfl⟩

/-- Without a conflict no reconcile is one of a conflict. -/
theorem conflictStarted_indexBody (acc : LogIndexAcc) (seq : Nat) (body : EventBody)
    (h : acc.lastConflict = none → acc.conflictReconcileStarted = none)
    (hn : (indexBody acc seq body).lastConflict = none) :
    (indexBody acc seq body).conflictReconcileStarted = none := by
  cases body with
  | spec body => cases body <;> exact h hn
  | plan body =>
    cases body with
    | started payload =>
      obtain ⟨pending, hp⟩ := indexBody_planStarted acc seq payload
      rw [hp] at hn ⊢
      exact h hn
    | completed payload => exact h hn
  | planReview body => cases body <;> exact h hn
  | implement body =>
    cases body with
    | started payload =>
      obtain ⟨pending, hp⟩ := indexBody_implementStarted acc seq payload
      rw [hp] at hn ⊢
      exact h hn
    | completed payload => exact h hn
  | codeReview body => cases body <;> exact h hn
  | verify body =>
    cases body with
    | started payload =>
      obtain ⟨pending, hp⟩ := indexBody_verifyStarted acc seq payload
      rw [hp] at hn ⊢
      exact h hn
    | _ => exact h hn
  | session body =>
    cases body with
    | started payload =>
      unfold indexBody at hn ⊢
      dsimp only at hn ⊢
      rw [(conflict_deliverGuidance _ seq payload).1] at hn
      rw [(conflict_deliverGuidance _ seq payload).2]
      exact h hn
    | _ => exact h hn
  | finalize body => cases body <;> exact h hn
  | pr body =>
    cases body with
    | conflicted observed => cases hn
    | _ => exact h hn
  | reconcile body =>
    cases body with
    | started payload =>
      have hnone : acc.lastConflict = none := hn
      simp only [indexBody, LogIndexAcc.startReconcile, hnone]
      exact h hnone
    | completed payload => rfl
    | _ => exact h hn
  | _ => exact h hn

theorem conflictStarted_indexEvent (acc : LogIndexAcc) (event : AbEvent)
    (h : acc.lastConflict = none → acc.conflictReconcileStarted = none) :
    (indexEvent acc event).lastConflict = none →
      (indexEvent acc event).conflictReconcileStarted = none :=
  conflictStarted_indexBody
    { acc with
      readDeferrals := foldReadDeferral acc.readDeferrals event
      restack := advanceLeafRestackEvent acc.restack event }
    event.seq event.body h

theorem conflictKept_indexLog {seq : Nat} {events : List AbEvent}
    (hs : ∀ event ∈ events, event.seq < seq) : ConflictKept (indexLog events) seq where
  started := by
    show (foldLogIndex initialLogIndexAcc events).lastConflict = none →
      (foldLogIndex initialLogIndexAcc events).conflictReconcileStarted = none
    exact List.foldlRecOn events indexEvent (fun _ => rfl) fun acc h event _ =>
      conflictStarted_indexEvent acc event h
  earlier := by
    intro conflict hc
    obtain ⟨event, he, hseq, -⟩ := evidence_of_lastConflict hc
    rw [← hseq]
    exact hs event he

end Earlier

section Logs

variable {events : List StoredEvent} {event : AbEvent} {state : BuildState}

/-- The cycle of a node comes from an event. -/
theorem cycle_lt {seq : Nat} (hs : ∀ event ∈ projectEvents events, event.seq < seq)
    (hstate : reduceBuild events = .ok state) {cycle : WithSeq IntegrationPrepared}
    (hc : state.engineFacts.cycleState.cycle = some cycle) : cycle.seq < seq := by
  unfold reduceBuild foldBuild at hstate
  obtain ⟨settled, hset, hfin⟩ := bind_eq_ok.mp hstate
  obtain ⟨acc, hacc, hset⟩ := bind_eq_ok.mp hset
  have hcycle : acc.integration.bind (·.cycle) = some cycle := by
    rw [← Except.ok.inj hfin, ← Except.ok.inj hset, settle_eq] at hc
    exact hc
  have hfold := foldEvents_withAside initialBuildAcc initialBuildAcc.aside events
  rw [withAside_aside, hacc] at hfold
  rcases cycle_foldlM hs hfold.symm hcycle with hnone | hlt
  · cases hnone
  · exact hlt

/-- The log before an event of it. -/
theorem knownBefore_of_log
    (hp : (events ++ [StoredEvent.known event]).Pairwise (fun a b => a.seq < b.seq))
    (hne : events ≠ []) (hstate : reduceBuild events = .ok state) :
    KnownBefore state.engineFacts
      (effectiveCompletions state.engineFacts (indexLog (projectEvents events))) event.seq := by
  have hproject := projectEvents_pairwise hp
  rw [projectEvents_known] at hproject
  have hs : ∀ earlier ∈ projectEvents events, earlier.seq < event.seq := fun earlier he =>
    (List.pairwise_append.mp hproject).2.2 earlier he event List.mem_cons_self
  have hpos : 0 < event.seq := by
    obtain ⟨first, hfirst⟩ := List.exists_mem_of_ne_nil _ hne
    exact Nat.zero_lt_of_lt
      ((List.pairwise_append.mp hp).2.2 first hfirst (StoredEvent.known event) List.mem_cons_self)
  have hboundary := cycleBoundary_lt hpos hs
  exact
    { restart := by
        rw [show (effectiveCompletions state.engineFacts
          (indexLog (projectEvents events))).restartSeq = lastRevised (projectEvents events) from
            indexLog_restartSeq _]
        exact lastRevised_lt hpos hs
      boundary := hboundary
      node := fun cycle hc => max_lt (cycle_lt hs hstate hc)
        ((le_max_right _ _).trans_lt hboundary)
      conflict := ⟨(conflictKept_indexLog hs).1, (conflictKept_indexLog hs).2⟩
      plan := bounded_indexLog (projectEvents events) .plan
      code := bounded_indexLog (projectEvents events) .code }

end Logs

end Autobuild
