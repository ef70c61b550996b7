/-
# Folding a log in pieces

A carried accumulator is advanced over the events newer than it.  `settle` writes the phase it
derives into the accumulator that the next piece starts from, and nothing takes it out again
when the members stop running for another reason than their own end.

* `trackPhase` reads the verify stage and the phase in flight off a log, without accumulators.
* A cut **leaks** (`LeaksPhase`) if it shows a running member's phase where no core phase is in
  flight, no member runs at the end of the log, and the events after the cut leave another
  phase in flight than they would without what the cut showed.
* `Carried`: the phase a carried accumulator holds is the tracked one, or one an earlier cut
  showed, moved on by the events since.
* `foldPieces_eq_reduceBuild_iff`: folding in pieces is folding at once exactly for the logs no
  cut of which leaks, among those the node ledger accepts.
-/
import Autobuild.Kernel.ReducerBatches

namespace Autobuild

open Checked

/-! ## 1. Logs -/

/-- The verify stage and the phase in flight. -/
structure PhaseTrack where
  stage : VerifyStageState
  current : Option PhaseContext

def PhaseTrack.advance (track : PhaseTrack) (event : AbEvent) : PhaseTrack :=
  let stage := advanceVerifyStage track.stage event
  ⟨stage, advancePhase stage event track.current⟩

def trackPhase (events : List AbEvent) : PhaseTrack :=
  events.foldl PhaseTrack.advance ⟨initialVerifyStageState, none⟩

theorem trackPhase_append (xs ys : List AbEvent) :
    trackPhase (xs ++ ys) = ys.foldl PhaseTrack.advance (trackPhase xs) :=
  List.foldl_append

/-- The member whose phase the end of a batch shows: in a concurrent cycle the last running
one. -/
def shownMember (stage : VerifyStageState) (cycle : Nat) : Option VerifyMember :=
  if stage.concurrent then (runningVerifyMembers stage cycle).getLast? else none

/-- A cut of a log into `before` and `after` at which a member's phase is shown that is still
there at the end, where the log has another. -/
def LeaksPhase (before after : List AbEvent) : Prop :=
  let cut := trackPhase before
  let whole := trackPhase (before ++ after)
  ∃ member, shownMember cut.stage cut.stage.cycle = some member ∧
    yieldsToVerify cut.current = true ∧
    shownMember whole.stage whole.stage.cycle = none ∧
    (after.foldl PhaseTrack.advance ⟨cut.stage, some (memberContext member)⟩).current
      ≠ whole.current

/-- The kind of the build after an event. -/
def kindAfter (kind : Option BuildKind) : EventBody → Option BuildKind
  | .build (.created payload) => payload.kind
  | _ => kind

/-- The events of a log that reach the node ledger of its build. -/
def ledgerEvents : Option BuildKind → List AbEvent → List AbEvent
  | _, [] => []
  | kind, event :: rest =>
    let next := kindAfter kind event.body
    if reachesLedger kind event.body then event :: ledgerEvents next rest
    else ledgerEvents next rest

/-- The node ledger accepts every event of the log. -/
def LedgerAccepts (events : List AbEvent) : Prop :=
  ∃ state, advanceNodeRestack {} (ledgerEvents none events) = .ok state

/-- The log leaks at no cut. -/
def NoPhaseLeak (events : List StoredEvent) : Prop :=
  ∀ before after, events = before ++ after →
    ¬LeaksPhase (projectEvents before) (projectEvents after)

/-- Fold the pieces one after another, each with what its end derives, and finish. -/
def foldPieces (pieces : List (List StoredEvent)) : Except String BuildState := do
  let acc ← pieces.foldlM foldBuild initialBuildAcc
  return finishBuild acc

/-! ## 2. The ledger decides whether the fold returns -/

theorem foldEvent_error {acc : BuildAcc} {event : AbEvent} {message : String}
    (h : foldEvent acc event = .error message) :
    nodeRestackAfter acc.kind acc.nodeRestack event = .error message := by
  have hs := foldEvent_skeleton acc event
  rw [h] at hs
  unfold Skeleton.advance at hs
  cases hn : nodeRestackAfter acc.skeleton.kind acc.skeleton.nodeRestack event with
  | error message' =>
    rw [hn] at hs
    rw [show acc.kind = acc.skeleton.kind from rfl,
      show acc.nodeRestack = acc.skeleton.nodeRestack from rfl, hn]
    exact congrArg Except.error (Except.error.inj hs).symm
  | ok nodeRestack =>
    rw [hn] at hs
    exact absurd hs nofun

theorem foldEvent_ok_ledger {acc next : BuildAcc} {event : AbEvent}
    (h : foldEvent acc event = .ok next) :
    nodeRestackAfter acc.kind acc.nodeRestack event = .ok next.nodeRestack
      ∧ next.kind = kindAfter acc.kind event.body := by
  have hs := foldEvent_ok_skeleton h
  unfold Skeleton.advance at hs
  obtain ⟨nodeRestack, hn, hs⟩ := bind_eq_ok.mp hs
  have hs := Except.ok.inj hs
  constructor
  · rw [show next.nodeRestack = next.skeleton.nodeRestack from rfl, ← hs]
    exact hn
  · rw [show next.kind = next.skeleton.kind from rfl, ← hs]
    rfl

theorem advanceNodeRestack_cons (state : NodeRestackState) (event : AbEvent)
    (rest : List AbEvent) :
    advanceNodeRestack state (event :: rest)
      = advanceNodeRestack state [event] >>= fun next => advanceNodeRestack next rest := by
  unfold advanceNodeRestack
  rw [List.foldlM_cons, List.foldlM_cons]
  cases advanceNodeRestackEvent state event.seq event.body <;> rfl

/-- The node ledger of a build is the ledger run over the events that reach it. -/
theorem foldlM_foldEvent_ledger : ∀ (events : List AbEvent) (acc : BuildAcc),
    (events.foldlM foldEvent acc).map (fun next => next.nodeRestack.getD {})
      = advanceNodeRestack (acc.nodeRestack.getD {}) (ledgerEvents acc.kind events)
  | [], acc => rfl
  | event :: rest, acc => by
    have hl : ledgerEvents acc.kind (event :: rest)
        = if reachesLedger acc.kind event.body
          then event :: ledgerEvents (kindAfter acc.kind event.body) rest
          else ledgerEvents (kindAfter acc.kind event.body) rest := rfl
    rw [List.foldlM_cons, hl]
    cases hf : foldEvent acc event with
    | error message =>
      have hn := foldEvent_error hf
      unfold nodeRestackAfter at hn
      by_cases hr : reachesLedger acc.kind event.body = true
      · rw [if_pos hr] at hn
        rw [if_pos hr, advanceNodeRestack_cons]
        cases ha : advanceNodeRestack (acc.nodeRestack.getD {}) [event] with
        | error message' =>
          rw [ha] at hn
          exact congrArg Except.error (Except.error.inj hn).symm
        | ok state =>
          rw [ha] at hn
          exact absurd hn nofun
      · rw [if_neg hr] at hn
        exact absurd hn nofun
    | ok next =>
      obtain ⟨hn, hk⟩ := foldEvent_ok_ledger hf
      have ih := foldlM_foldEvent_ledger rest next
      rw [hk] at ih
      unfold nodeRestackAfter at hn
      by_cases hr : reachesLedger acc.kind event.body = true
      · rw [if_pos hr] at hn
        rw [if_pos hr, advanceNodeRestack_cons]
        obtain ⟨state, ha, hn⟩ := bind_eq_ok.mp hn
        rw [ha, ok_bind, ok_bind, ih, ← Except.ok.inj hn]
        rfl
      · rw [if_neg hr] at hn
        rw [if_neg hr, ok_bind, ih, ← Except.ok.inj hn]

theorem foldEvents_initial (events : List StoredEvent) :
    foldEvents initialBuildAcc events
      = (projectEvents events).foldlM foldEvent
          (initialBuildAcc.withAside (drainBatch initialBuildAcc.aside events)) := by
  rw [← foldEvents_withAside, withAside_aside]

/-- The loops over a log return exactly when the ledger accepts it. -/
theorem ledgerAccepts_iff (events : List StoredEvent) :
    LedgerAccepts (projectEvents events) ↔ ∃ acc, foldEvents initialBuildAcc events = .ok acc := by
  have h := foldlM_foldEvent_ledger (projectEvents events)
    (initialBuildAcc.withAside (drainBatch initialBuildAcc.aside events))
  rw [← foldEvents_initial] at h
  have hl : LedgerAccepts (projectEvents events)
      ↔ ∃ state, (foldEvents initialBuildAcc events).map (fun next => next.nodeRestack.getD {})
          = .ok state := by
    rw [h]
    rfl
  rw [hl]
  cases foldEvents initialBuildAcc events with
  | error message => exact ⟨fun ⟨_, h⟩ => absurd h nofun, fun ⟨_, h⟩ => absurd h nofun⟩
  | ok acc => exact ⟨fun _ => ⟨acc, rfl⟩, fun _ => ⟨_, rfl⟩⟩

/-! ## 3. What the loop over a log holds -/

/-- The stage, the phase and the cycle boundary after a log. -/
structure Tracks (events : List AbEvent) (acc : BuildAcc) : Prop where
  stage : acc.skeleton.stage = (trackPhase events).stage
  phase : acc.currentPhase = (trackPhase events).current
  cycle : acc.verify.cycleSince = acc.verifyStage.cycle

theorem foldEvent_track {acc next : BuildAcc} {event : AbEvent}
    (h : foldEvent acc event = .ok next) :
    (⟨next.skeleton.stage, next.currentPhase⟩ : PhaseTrack)
      = PhaseTrack.advance ⟨acc.skeleton.stage, acc.currentPhase⟩ event := by
  have hp : next.currentPhase = advancePhase (advanceVerifyStage acc.skeleton.stage event)
      event acc.currentPhase := congrArg Aside.currentPhase (foldEvent_aside h)
  rw [foldEvent_stage h, hp]
  rfl

theorem foldlM_foldEvent_track {events : List AbEvent} {acc next : BuildAcc}
    (h : events.foldlM foldEvent acc = .ok next) :
    (⟨next.skeleton.stage, next.currentPhase⟩ : PhaseTrack)
      = events.foldl PhaseTrack.advance ⟨acc.skeleton.stage, acc.currentPhase⟩ :=
  foldlM_part foldEvent_track h

/-- The verify stage keeps the boundary of its cycle by the same events. -/
theorem cycle_advanceVerifyStage (stage : VerifyStageState) (event : AbEvent) :
    (advanceVerifyStage stage event).cycle
      = if startsCycle event.body then event.seq else stage.cycle := by
  obtain ⟨seq, ts, actor, body⟩ := event
  cases body with
  | verify body =>
    cases body with
    | completed payload =>
      unfold advanceVerifyStage completeVerifyMember
      dsimp only
      split <;> rfl
    | cancelled payload =>
      unfold advanceVerifyStage cancelVerifyMember
      dsimp only
      split <;> rfl
    | _ => rfl
  | session body =>
    cases body with
    | started payload =>
      unfold advanceVerifyStage ownVerifyMember
      dsimp only
      split
      · split <;> rfl
      · rfl
    | _ => rfl
  | implement body =>
    cases body with
    | started payload =>
      unfold advanceVerifyStage attributeImplementation
      dsimp only
      split
      · rfl
      · split <;> rfl
    | completed payload => rfl
  | codeReview body =>
    cases body with
    | started round => rfl
    | verdict payload =>
      unfold advanceVerifyStage startsCycle
      dsimp only
      by_cases hv : payload.verdict = .approve <;> simp [hv]
  | spec body => cases body <;> rfl
  | reconcile body => cases body <;> rfl
  | integration body => cases body <;> rfl
  | execution body => cases body <;> rfl
  | _ => rfl

theorem cycleSince_foldEvent {acc next : BuildAcc} {event : AbEvent}
    (h : foldEvent acc event = .ok next) :
    next.verify.cycleSince
      = if startsCycle event.body then max acc.verify.cycleSince event.seq
        else acc.verify.cycleSince := by
  have hs := foldEvent_ok_skeleton h
  unfold Skeleton.advance at hs
  obtain ⟨nodeRestack, -, hs⟩ := bind_eq_ok.mp hs
  exact (congrArg Skeleton.cycleSince (Except.ok.inj hs)).symm

/-- Seqs that increase make the two boundaries one. -/
theorem foldlM_foldEvent_cycle : ∀ {events : List AbEvent} {acc next : BuildAcc},
    events.Pairwise (fun a b => a.seq < b.seq) →
      (∀ event ∈ events, acc.verify.cycleSince ≤ event.seq) →
      acc.verify.cycleSince = acc.verifyStage.cycle →
      events.foldlM foldEvent acc = .ok next →
      next.verify.cycleSince = next.verifyStage.cycle
  | [], acc, next, _, _, hc, h => by
    rw [← Except.ok.inj h]
    exact hc
  | event :: rest, acc, next, hp, hle, hc, h => by
    rw [List.foldlM_cons] at h
    obtain ⟨middle, hm, hr⟩ := bind_eq_ok.mp h
    obtain ⟨hlt, hp⟩ := List.pairwise_cons.mp hp
    have hev : acc.verify.cycleSince ≤ event.seq := hle event List.mem_cons_self
    have hcs := cycleSince_foldEvent hm
    have hst : middle.verifyStage.cycle
        = if startsCycle event.body then event.seq else acc.verifyStage.cycle :=
      (congrArg VerifyStageState.cycle (foldEvent_stage hm)).trans
        (cycle_advanceVerifyStage acc.skeleton.stage event)
    refine foldlM_foldEvent_cycle hp ?_ ?_ hr
    · intro later hl
      have hb := hlt later hl
      rw [hcs]
      split <;> omega
    · rw [hcs, hst]
      split
      · omega
      · exact hc

theorem foldEvents_tracks {events : List StoredEvent} {acc : BuildAcc}
    (hp : events.Pairwise (fun a b => a.seq < b.seq))
    (h : foldEvents initialBuildAcc events = .ok acc) : Tracks (projectEvents events) acc := by
  rw [foldEvents_initial] at h
  have hcs : (drainBatch initialBuildAcc.aside events).currentPhase = none := by
    rw [drainBatch_eq]
    rfl
  have ht := foldlM_foldEvent_track h
  rw [show (initialBuildAcc.withAside (drainBatch initialBuildAcc.aside events)).currentPhase
      = none from hcs] at ht
  refine ⟨congrArg PhaseTrack.stage ht, congrArg PhaseTrack.current ht, ?_⟩
  exact foldlM_foldEvent_cycle (projectEvents_pairwise hp) (fun _ _ => Nat.zero_le _) rfl h

/-! ## 4. What a carried accumulator holds -/

/-- Equal, or both give way to a verify member. -/
def Alike (p q : Option PhaseContext) : Prop :=
  p = q ∨ yieldsToVerify p = true ∧ yieldsToVerify q = true

theorem yieldsToVerify_filter {p : Option PhaseContext} (h : yieldsToVerify p = true)
    (phase : Phase) : yieldsToVerify (p.filter (fun ctx => ctx.phase ≠ phase)) = true := by
  cases p with
  | none => rfl
  | some ctx =>
    by_cases hc : ctx.phase = phase
    · simp [Option.filter, hc, yieldsToVerify]
    · simpa [Option.filter, hc] using h

theorem Alike.advancePhase {p q : Option PhaseContext} (h : Alike p q)
    (stage : VerifyStageState) (event : AbEvent) :
    Alike (advancePhase stage event p) (advancePhase stage event q) := by
  rcases h with rfl | ⟨hp, hq⟩
  · exact Or.inl rfl
  · unfold Autobuild.advancePhase
    cases announcedPhase event with
    | some ctx => exact Or.inl rfl
    | none =>
      cases endedPhase stage event with
      | none => exact Or.inr ⟨hp, hq⟩
      | some phase => exact Or.inr ⟨yieldsToVerify_filter hp _, yieldsToVerify_filter hq _⟩

theorem Alike.foldl_advance : ∀ (events : List AbEvent) {stage : VerifyStageState}
    {p q : Option PhaseContext}, Alike p q →
      Alike (events.foldl PhaseTrack.advance ⟨stage, p⟩).current
        (events.foldl PhaseTrack.advance ⟨stage, q⟩).current
  | [], _, _, _, h => h
  | event :: rest, stage, _, _, h =>
    Alike.foldl_advance rest (h.advancePhase (advanceVerifyStage stage event) event)

theorem Alike.yields {p q : Option PhaseContext} (h : Alike p q) :
    yieldsToVerify p = yieldsToVerify q := by
  rcases h with rfl | ⟨hp, hq⟩
  · rfl
  · rw [hp, hq]

theorem reconcileAttempt_of_yields {p : Option PhaseContext} (h : yieldsToVerify p = true) :
    reconcileAttempt p = none := by
  obtain _ | ⟨phase, round, attempt, seq⟩ := p
  · rfl
  · cases phase with
    | core phase => exact absurd h nofun
    | verify step => rfl

theorem Alike.reconcileAttempt {p q : Option PhaseContext} (h : Alike p q) :
    reconcileAttempt p = reconcileAttempt q := by
  rcases h with rfl | ⟨hp, hq⟩
  · rfl
  · rw [reconcileAttempt_of_yields hp, reconcileAttempt_of_yields hq]

/-- A phase that an earlier cut showed, moved on by the events since. -/
def ShownBefore (events : List StoredEvent) (current : Option PhaseContext) : Prop :=
  ∃ before after member, events = before ++ after ∧
    shownMember (trackPhase (projectEvents before)).stage
      (trackPhase (projectEvents before)).stage.cycle = some member ∧
    yieldsToVerify (trackPhase (projectEvents before)).current = true ∧
    current = ((projectEvents after).foldl PhaseTrack.advance
      ⟨(trackPhase (projectEvents before)).stage, some (memberContext member)⟩).current

/-- The aside `k` carried beside the accumulator `acc` of the log `events`. -/
structure Carried (events : List StoredEvent) (acc : BuildAcc) (k : Aside) : Prop where
  drains : k = acc.aside.withCursor k
  alike : Alike k.currentPhase acc.currentPhase
  phase : k.currentPhase = acc.currentPhase ∨ ShownBefore events k.currentPhase
  step : acc.verifyStage.concurrent = true ∨ k.currentStep = acc.verify.currentStep
  running : acc.verifyStage.members.size ≠ 0 ∨ k.running = acc.verify.running

theorem carried_self (events : List StoredEvent) (acc : BuildAcc) :
    Carried events acc acc.aside where
  drains := rfl
  alike := Or.inl rfl
  phase := Or.inl rfl
  step := Or.inr rfl
  running := Or.inr rfl

theorem foldl_advanceStaged_track : ∀ (events : List AbEvent) (stage : VerifyStageState)
    (a : Aside),
    (⟨(events.foldl advanceStaged (stage, a)).1,
        (events.foldl advanceStaged (stage, a)).2.currentPhase⟩ : PhaseTrack)
      = events.foldl PhaseTrack.advance ⟨stage, a.currentPhase⟩
  | [], _, _ => rfl
  | event :: rest, stage, a => by
    rw [List.foldl_cons, List.foldl_cons]
    exact foldl_advanceStaged_track rest (advanceVerifyStage stage event)
      (advanceAside (advanceVerifyStage stage event) event a)

theorem foldl_advanceStaged_running : ∀ (events : List AbEvent) (stage : VerifyStageState)
    (a : Aside), (events.foldl advanceStaged (stage, a)).2.running = a.running
  | [], _, _ => rfl
  | event :: rest, stage, a => by
    rw [List.foldl_cons]
    exact foldl_advanceStaged_running rest (advanceVerifyStage stage event)
      (advanceAside (advanceVerifyStage stage event) event a)

theorem foldl_advanceStaged_step : ∀ (events : List AbEvent) (stage : VerifyStageState)
    {a b : Aside}, a.currentStep = b.currentStep →
      (events.foldl advanceStaged (stage, a)).2.currentStep
        = (events.foldl advanceStaged (stage, b)).2.currentStep
  | [], _, _, _, h => h
  | event :: rest, stage, a, b, h => by
    rw [List.foldl_cons, List.foldl_cons]
    exact foldl_advanceStaged_step rest (advanceVerifyStage stage event)
      (congrArg (advanceStep (advanceVerifyStage stage event) event) h)

theorem foldl_advance_stage : ∀ (events : List AbEvent) (track : PhaseTrack),
    (events.foldl PhaseTrack.advance track).stage = events.foldl advanceVerifyStage track.stage
  | [], _ => rfl
  | event :: rest, track => foldl_advance_stage rest (track.advance event)

theorem foldl_advance_concurrent : ∀ (events : List AbEvent) {track : PhaseTrack},
    track.stage.concurrent = true →
      (events.foldl PhaseTrack.advance track).stage.concurrent = true
  | [], _, h => h
  | event :: rest, _, h =>
    foldl_advance_concurrent rest (concurrent_advanceVerifyStage h event)

theorem foldl_advance_members : ∀ (events : List AbEvent) {track : PhaseTrack},
    track.stage.members.size ≠ 0 →
      (events.foldl PhaseTrack.advance track).stage.members.size ≠ 0
  | [], _, h => h
  | event :: rest, _, h =>
    foldl_advance_members rest (size_members_advanceVerifyStage h event)

/-- The phase carried through a piece. -/
def movedPhase (acc : BuildAcc) (piece : List StoredEvent) (current : Option PhaseContext) :
    Option PhaseContext :=
  ((projectEvents piece).foldl PhaseTrack.advance ⟨acc.skeleton.stage, current⟩).current

theorem ShownBefore.append {events : List StoredEvent} {acc : BuildAcc}
    {current : Option PhaseContext} (ht : Tracks (projectEvents events) acc)
    (h : ShownBefore events current) (piece : List StoredEvent) :
    ShownBefore (events ++ piece) (movedPhase acc piece current) := by
  obtain ⟨before, after, member, rfl, hm, hy, rfl⟩ := h
  refine ⟨before, after ++ piece, member, List.append_assoc _ _ _, hm, hy, ?_⟩
  have hst : acc.skeleton.stage = ((projectEvents after).foldl PhaseTrack.advance
      ⟨(trackPhase (projectEvents before)).stage, some (memberContext member)⟩).stage := by
    rw [ht.stage, projectEvents_append, trackPhase_append, foldl_advance_stage,
      foldl_advance_stage]
  unfold movedPhase
  rw [projectEvents_append, List.foldl_append, hst]

/-- A failing piece fails whatever is carried beside the accumulator. -/
theorem foldEvents_carried_error {events piece : List StoredEvent} {acc : BuildAcc} {k : Aside}
    {message : String} (hk : Carried events acc k)
    (h : foldEvents acc piece = .error message) :
    foldEvents (acc.withAside k) piece = .error message := by
  have hb := foldEvents_withAside acc acc.aside piece
  rw [withAside_aside, h] at hb
  have hw := foldlM_foldEvent_withAside (projectEvents piece)
    (acc.withAside (drainBatch acc.aside piece)) (drainBatch k piece) (by
      rw [hk.drains, drainBatch_withCursor, drainBatch_eq]
      exact hk.alike.reconcileAttempt)
  rw [withAside_withAside, ← hb] at hw
  rw [foldEvents_withAside, hw]
  rfl

/-- What a batch leaves in the accumulator, in terms of the accumulator it starts from. -/
theorem foldEvents_ok {piece : List StoredEvent} {acc next : BuildAcc}
    (h : foldEvents acc piece = .ok next) :
    next.aside = (drainBatch acc.aside piece).withCursor
        ((projectEvents piece).foldl advanceStaged (acc.skeleton.stage, acc.aside)).2 ∧
      (⟨next.skeleton.stage, next.currentPhase⟩ : PhaseTrack)
        = (projectEvents piece).foldl PhaseTrack.advance
            ⟨acc.skeleton.stage, acc.currentPhase⟩ := by
  set base := drainBatch acc.aside piece with hbase
  have hcur : base = base.withCursor acc.aside := by
    rw [hbase, drainBatch_eq]
    rfl
  have hb := foldEvents_withAside acc acc.aside piece
  rw [withAside_aside, h] at hb
  have hself := foldlM_foldEvent_withAside (projectEvents piece) (acc.withAside base) base rfl
  rw [withAside_withAside, ← hb] at hself
  have haside : next.aside
      = ((projectEvents piece).foldl advanceStaged (acc.skeleton.stage, base)).2 := by
    have hi := congrArg BuildAcc.aside (Except.ok.inj hself)
    exact hi
  have ht := foldlM_foldEvent_track hb.symm
  constructor
  · rw [haside, hcur, foldl_advanceStaged_withCursor]
    rfl
  · rw [ht]
    show (projectEvents piece).foldl PhaseTrack.advance ⟨_, base.currentPhase⟩ = _
    rw [hcur]
    rfl

/-- **A piece moves what is carried beside the accumulator by the events alone.** -/
theorem foldEvents_carried {events piece : List StoredEvent} {acc next : BuildAcc} {k : Aside}
    (ht : Tracks (projectEvents events) acc) (hk : Carried events acc k)
    (h : foldEvents acc piece = .ok next) :
    ∃ k', foldEvents (acc.withAside k) piece = .ok (next.withAside k') ∧
      Carried (events ++ piece) next k' ∧
      k'.currentPhase = movedPhase acc piece k.currentPhase := by
  set base := drainBatch acc.aside piece with hbase
  set moved := ((projectEvents piece).foldl advanceStaged (acc.skeleton.stage, k)).2 with hmoved
  obtain ⟨haside, htrack⟩ := foldEvents_ok h
  have hkb : drainBatch k piece = base.withCursor k := by
    rw [hk.drains, drainBatch_withCursor]
    rfl
  have hbp : base.currentPhase = acc.currentPhase := by
    rw [hbase, drainBatch_eq]
    rfl
  have hb := foldEvents_withAside acc acc.aside piece
  rw [withAside_aside, h] at hb
  have hcar := foldlM_foldEvent_withAside (projectEvents piece) (acc.withAside base)
    (base.withCursor k) (by
      rw [show (acc.withAside base).currentPhase = base.currentPhase from rfl, hbp]
      exact hk.alike.reconcileAttempt)
  rw [withAside_withAside, ← hb, foldl_advanceStaged_withCursor] at hcar
  have hphase : moved.currentPhase = movedPhase acc piece k.currentPhase :=
    congrArg PhaseTrack.current
      (foldl_advanceStaged_track (projectEvents piece) acc.skeleton.stage k)
  have hnext : next.currentPhase = movedPhase acc piece acc.currentPhase :=
    congrArg PhaseTrack.current htrack
  have hstage : next.skeleton.stage = ((projectEvents piece).foldl PhaseTrack.advance
      ⟨acc.skeleton.stage, acc.currentPhase⟩).stage := congrArg PhaseTrack.stage htrack
  refine ⟨base.withCursor moved, ?_, ?_, hphase⟩
  · rw [foldEvents_withAside, hkb, hcar]
    rfl
  · refine ⟨?_, ?_, ?_, ?_, ?_⟩
    · rw [haside]
      rfl
    · show Alike moved.currentPhase next.currentPhase
      rw [hphase, hnext]
      exact hk.alike.foldl_advance _
    · show moved.currentPhase = next.currentPhase ∨ ShownBefore (events ++ piece) moved.currentPhase
      rw [hphase, hnext]
      rcases hk.phase with he | hs
      · exact Or.inl (congrArg (movedPhase acc piece) he)
      · exact Or.inr (hs.append ht piece)
    · rcases hk.step with hc | he
      · left
        show next.skeleton.stage.concurrent = true
        rw [hstage]
        exact foldl_advance_concurrent _ hc
      · right
        show moved.currentStep = next.aside.currentStep
        rw [haside]
        exact foldl_advanceStaged_step _ _ he
    · rcases hk.running with hm | he
      · left
        show next.skeleton.stage.members.size ≠ 0
        rw [hstage]
        exact foldl_advance_members _ hm
      · right
        show moved.running = next.aside.running
        rw [haside]
        have hl := foldl_advanceStaged_running (projectEvents piece) acc.skeleton.stage k
        have hr := foldl_advanceStaged_running (projectEvents piece) acc.skeleton.stage acc.aside
        exact hl.trans (he.trans hr.symm)

/-! ## 5. What the end of a piece does -/

/-- The phase the end of a batch leaves. -/
def settledPhase (shown : Option VerifyMember) (current : Option PhaseContext) :
    Option PhaseContext :=
  match shown with
  | none => current
  | some member => if yieldsToVerify current then some (memberContext member) else current

def BuildAcc.shown (acc : BuildAcc) : Option VerifyMember :=
  shownMember acc.verifyStage acc.verify.cycleSince

theorem Tracks.shown {events : List AbEvent} {acc : BuildAcc} (h : Tracks events acc) :
    acc.shown = shownMember (trackPhase events).stage (trackPhase events).stage.cycle := by
  unfold BuildAcc.shown
  rw [h.cycle, ← h.stage]
  rfl

/-- What the end of a batch derives, on the part set aside. -/
def settleAside (acc : BuildAcc) (k : Aside) : Aside :=
  { k with
    running :=
      if acc.verifyStage.members.size = 0 then k.running
      else some ((runningVerifyMembers acc.verifyStage acc.verify.cycleSince).map (·.payload.step))
    currentStep := if acc.verifyStage.concurrent then acc.shown.map (·.payload.step)
      else k.currentStep
    currentPhase := settledPhase acc.shown k.currentPhase }

theorem settleRunning_withAside (acc : BuildAcc) (k : Aside) (running : List VerifyMember) :
    settleRunning (acc.withAside k) running
      = acc.withAside { k with
          running := if acc.verifyStage.members.size = 0 then k.running
            else some (running.map (·.payload.step)) } := by
  unfold settleRunning
  by_cases hs : acc.verifyStage.members.size = 0
  · have hs' : (acc.withAside k).verifyStage.members.size = 0 := hs
    rw [if_pos hs, if_pos hs']
  · have hs' : ¬(acc.withAside k).verifyStage.members.size = 0 := hs
    rw [if_neg hs, if_neg hs']
    rfl

theorem settleCurrent_withAside (acc : BuildAcc) (k : Aside) (running : List VerifyMember) :
    settleCurrent (acc.withAside k) running
      = acc.withAside { k with
          currentStep := if acc.verifyStage.concurrent
            then running.getLast?.map (·.payload.step) else k.currentStep
          currentPhase := settledPhase
            (if acc.verifyStage.concurrent then running.getLast? else none) k.currentPhase } := by
  unfold settleCurrent
  by_cases hc : acc.verifyStage.concurrent = true
  · have hc' : (acc.withAside k).verifyStage.concurrent = true := hc
    rw [if_pos hc', if_pos hc, if_pos hc]
    cases running.getLast? <;> rfl
  · have hc' : ¬(acc.withAside k).verifyStage.concurrent = true := hc
    rw [if_neg hc', if_neg hc, if_neg hc]
    rfl

theorem settle_withAside (acc : BuildAcc) (k : Aside) :
    settle (acc.withAside k) = acc.withAside (settleAside acc k) := by
  have h : settle (acc.withAside k) = settleCurrent
      (settleRunning (acc.withAside k)
        (runningVerifyMembers acc.verifyStage acc.verify.cycleSince))
      (runningVerifyMembers acc.verifyStage acc.verify.cycleSince) := rfl
  rw [h, settleRunning_withAside, settleCurrent_withAside]
  unfold settleAside BuildAcc.shown shownMember
  by_cases hc : acc.verifyStage.concurrent = true
  · simp only [if_pos hc]
  · simp only [if_neg hc]

theorem settle_eq (acc : BuildAcc) : settle acc = acc.withAside (settleAside acc acc.aside) := by
  rw [← settle_withAside, withAside_aside]

theorem yieldsToVerify_settledPhase {shown : Option VerifyMember}
    {current : Option PhaseContext} (h : yieldsToVerify current = true) :
    yieldsToVerify (settledPhase shown current) = true := by
  unfold settledPhase
  cases shown with
  | none => exact h
  | some member =>
    dsimp only
    rw [if_pos h]
    rfl

theorem settledPhase_of_not_yields {shown : Option VerifyMember}
    {current : Option PhaseContext} (h : ¬yieldsToVerify current = true) :
    settledPhase shown current = current := by
  unfold settledPhase
  cases shown with
  | none => rfl
  | some member => exact if_neg h

/-- What is carried on from the end of a piece. -/
theorem Carried.settle {events : List StoredEvent} {acc : BuildAcc} {k : Aside}
    (ht : Tracks (projectEvents events) acc) (hk : Carried events acc k) :
    Carried events acc (settleAside acc k) := by
  refine ⟨?_, ?_, ?_, ?_, ?_⟩
  · unfold settleAside
    rw [hk.drains]
    rfl
  · show Alike (settledPhase acc.shown k.currentPhase) acc.currentPhase
    by_cases hy : yieldsToVerify k.currentPhase = true
    · exact Or.inr ⟨yieldsToVerify_settledPhase hy, hk.alike.yields ▸ hy⟩
    · rw [settledPhase_of_not_yields hy]
      exact hk.alike
  · show settledPhase acc.shown k.currentPhase = acc.currentPhase
      ∨ ShownBefore events (settledPhase acc.shown k.currentPhase)
    by_cases hy : yieldsToVerify k.currentPhase = true
    · cases hm : acc.shown with
      | none => exact hk.phase
      | some member =>
        right
        refine ⟨events, [], member, (List.append_nil events).symm, ?_, ?_, ?_⟩
        · rw [← hm, ht.shown]
        · rw [← ht.phase, ← hk.alike.yields]
          exact hy
        · exact if_pos hy
    · rw [settledPhase_of_not_yields hy]
      exact hk.phase
  · rcases hk.step with hc | he
    · exact Or.inl hc
    · by_cases hc : acc.verifyStage.concurrent = true
      · exact Or.inl hc
      · exact Or.inr ((if_neg hc).trans he)
  · rcases hk.running with hm | he
    · exact Or.inl hm
    · by_cases hm : acc.verifyStage.members.size = 0
      · exact Or.inr ((if_pos hm).trans he)
      · exact Or.inl hm

/-- The state finished from a settled accumulator is decided by the phase it holds. -/
theorem finishBuild_settleAside_iff {events : List StoredEvent} {acc : BuildAcc} {k : Aside}
    (hk : Carried events acc k) :
    finishBuild (acc.withAside (settleAside acc k)) = finishBuild (settle acc) ↔
      settledPhase acc.shown k.currentPhase = settledPhase acc.shown acc.currentPhase := by
  have hk' : settleAside acc k = { settleAside acc acc.aside with
      currentPhase := settledPhase acc.shown k.currentPhase } := by
    have hr : (settleAside acc k).running = (settleAside acc acc.aside).running := by
      unfold settleAside
      dsimp only
      rcases hk.running with hm | he
      · rw [if_neg hm, if_neg hm]
      · rw [he]
        rfl
    have hs : (settleAside acc k).currentStep = (settleAside acc acc.aside).currentStep := by
      unfold settleAside
      dsimp only
      rcases hk.step with hc | he
      · rw [if_pos hc, if_pos hc]
      · rw [he]
        rfl
    dsimp only
    rw [← hr, ← hs]
    unfold settleAside
    rw [hk.drains]
    rfl
  rw [settle_eq, hk']
  constructor
  · intro h
    exact congrArg (fun state : BuildState => state.currentPhase) h
  · intro h
    rw [h]
    rfl

/-! ## 6. Pieces -/

/-- What is carried was left by the end of a piece. -/
def Settled (events : List StoredEvent) (acc : BuildAcc) (k : Aside) : Prop :=
  ∃ k₀, k = settleAside acc k₀ ∧ Carried events acc k₀

theorem foldBuild_carried {events piece : List StoredEvent} {acc next : BuildAcc} {k : Aside}
    (ht : Tracks (projectEvents events) acc) (hk : Carried events acc k)
    (h : foldEvents acc piece = .ok next) :
    ∃ k', foldBuild (acc.withAside k) piece = .ok (next.withAside (settleAside next k')) ∧
      Carried (events ++ piece) next k' ∧
      k'.currentPhase = movedPhase acc piece k.currentPhase := by
  obtain ⟨k', hf, hk', hp⟩ := foldEvents_carried ht hk h
  refine ⟨k', ?_, hk', hp⟩
  unfold foldBuild
  rw [hf, ok_bind, settle_withAside]
  rfl

theorem foldlM_foldBuild_carried : ∀ (pieces : List (List StoredEvent))
    {events : List StoredEvent} {acc next : BuildAcc} {k : Aside},
    (events ++ pieces.flatten).Pairwise (fun a b => a.seq < b.seq) →
      foldEvents initialBuildAcc events = .ok acc → Carried events acc k →
      foldEvents acc pieces.flatten = .ok next →
      ∃ k', pieces.foldlM foldBuild (acc.withAside k) = .ok (next.withAside k') ∧
        (pieces ≠ [] ∨ Settled events acc k → Settled (events ++ pieces.flatten) next k')
  | [], events, acc, next, k, _, _, _, h => by
    have hn : acc = next := Except.ok.inj h
    subst hn
    refine ⟨k, rfl, ?_⟩
    rintro (hne | hs)
    · exact absurd rfl hne
    · simpa using hs
  | piece :: rest, events, acc, next, k, hp, ha, hk, h => by
    rw [List.flatten_cons] at hp h
    rw [← List.append_assoc] at hp
    have hpm : (events ++ piece).Pairwise (fun a b => a.seq < b.seq) :=
      (List.pairwise_append.mp hp).1
    rw [foldEvents_append] at h
    obtain ⟨middle, hm, hr⟩ := bind_eq_ok.mp h
    have hme : foldEvents initialBuildAcc (events ++ piece) = .ok middle := by
      rw [foldEvents_append, ha]
      exact hm
    obtain ⟨k₁, hb, hk₁, -⟩ :=
      foldBuild_carried (foldEvents_tracks (List.pairwise_append.mp hpm).1 ha) hk hm
    have hks := hk₁.settle (foldEvents_tracks hpm hme)
    obtain ⟨k', hf, hs⟩ := foldlM_foldBuild_carried rest hp hme hks hr
    refine ⟨k', ?_, fun _ => ?_⟩
    · rw [List.foldlM_cons, hb, ok_bind, hf]
    · have hset := hs (Or.inr ⟨k₁, rfl, hk₁⟩)
      rwa [List.append_assoc] at hset

/-- A log the loop throws on throws in pieces too, with the same message. -/
theorem foldlM_foldBuild_error : ∀ (pieces : List (List StoredEvent))
    {events : List StoredEvent} {acc : BuildAcc} {k : Aside} {message : String},
    (events ++ pieces.flatten).Pairwise (fun a b => a.seq < b.seq) →
      foldEvents initialBuildAcc events = .ok acc → Carried events acc k →
      foldEvents acc pieces.flatten = .error message →
      pieces.foldlM foldBuild (acc.withAside k) = .error message
  | [], _, _, _, _, _, _, _, h => absurd h nofun
  | piece :: rest, events, acc, k, message, hp, ha, hk, h => by
    rw [List.flatten_cons] at hp h
    rw [← List.append_assoc] at hp
    have hpm : (events ++ piece).Pairwise (fun a b => a.seq < b.seq) :=
      (List.pairwise_append.mp hp).1
    rw [foldEvents_append] at h
    rw [List.foldlM_cons]
    cases hm : foldEvents acc piece with
    | error message' =>
      rw [hm] at h
      unfold foldBuild
      rw [foldEvents_carried_error hk hm]
      exact h
    | ok middle =>
      rw [hm] at h
      have hme : foldEvents initialBuildAcc (events ++ piece) = .ok middle := by
        rw [foldEvents_append, ha]
        exact hm
      obtain ⟨k₁, hb, hk₁, -⟩ :=
        foldBuild_carried (foldEvents_tracks (List.pairwise_append.mp hpm).1 ha) hk hm
      rw [hb]
      exact foldlM_foldBuild_error rest hp hme (hk₁.settle (foldEvents_tracks hpm hme)) h

theorem foldEvents_nil (acc : BuildAcc) : foldEvents acc [] = .ok acc := rfl

/-- What a cut leaks is seen by folding the two pieces. -/
theorem not_leaksPhase_of_pieces {before after : List StoredEvent} {next : BuildAcc}
    (hp : (before ++ after).Pairwise (fun a b => a.seq < b.seq))
    (hn : foldEvents initialBuildAcc (before ++ after) = .ok next)
    (h : foldPieces [before, after] = .ok (finishBuild (settle next))) :
    ¬LeaksPhase (projectEvents before) (projectEvents after) := by
  rintro ⟨member, hm, hy, hnone, hne⟩
  rw [← projectEvents_append] at hnone hne
  have htn := foldEvents_tracks hp hn
  rw [foldEvents_append] at hn
  obtain ⟨middle, hmid, hr⟩ := bind_eq_ok.mp hn
  have htm := foldEvents_tracks (List.pairwise_append.mp hp).1 hmid
  have hinit : Tracks (projectEvents []) initialBuildAcc := ⟨rfl, rfl, rfl⟩
  obtain ⟨k₁, hb₁, hk₁, hp₁⟩ := foldBuild_carried hinit (carried_self [] initialBuildAcc) hmid
  obtain ⟨k₂, hb₂, hk₂, hp₂⟩ := foldBuild_carried htm (hk₁.settle htm) hr
  have hshown : middle.shown = some member := by rw [htm.shown, hm]
  have hsettled : (settleAside middle k₁).currentPhase = some (memberContext member) := by
    show settledPhase middle.shown k₁.currentPhase = _
    rw [hshown, hp₁]
    exact if_pos hy
  have hk₂p : k₂.currentPhase = next.currentPhase := by
    have hf : foldPieces [before, after]
        = .ok (finishBuild (next.withAside (settleAside next k₂))) := by
      unfold foldPieces
      rw [withAside_aside] at hb₁
      rw [List.foldlM_cons, hb₁, ok_bind, List.foldlM_cons, hb₂, ok_bind, List.foldlM_nil]
      rfl
    have he := (finishBuild_settleAside_iff hk₂).mp (Except.ok.inj (hf.symm.trans h))
    rwa [htn.shown, hnone] at he
  refine hne ?_
  rw [← htn.phase, ← hk₂p, hp₂, hsettled]
  unfold movedPhase
  rw [htm.stage]

/-- Where no cut leaks, settled pieces finish as the whole. -/
theorem finishBuild_of_settled {events : List StoredEvent} {acc : BuildAcc} {k : Aside}
    (ht : Tracks (projectEvents events) acc) (hno : NoPhaseLeak events)
    (hk : Settled events acc k) : finishBuild (acc.withAside k) = finishBuild (settle acc) := by
  obtain ⟨k₀, rfl, hk₀⟩ := hk
  refine (finishBuild_settleAside_iff hk₀).mpr ?_
  cases hs : acc.shown with
  | none =>
    show k₀.currentPhase = acc.currentPhase
    rcases hk₀.phase with he | ⟨before, after, member, rfl, hm, hy, hp⟩
    · exact he
    · by_contra hne
      refine hno before after rfl ⟨member, hm, hy, ?_, ?_⟩
      · rw [← projectEvents_append, ← ht.shown, hs]
      · rw [← projectEvents_append, ← ht.phase, ← hp]
        exact hne
  | some member =>
    by_cases hy : yieldsToVerify k₀.currentPhase = true
    · have hy' : yieldsToVerify acc.currentPhase = true := hk₀.alike.yields ▸ hy
      exact (if_pos hy).trans (if_pos hy').symm
    · rcases hk₀.alike with he | ⟨hk, -⟩
      · rw [he]
      · exact absurd hk hy

theorem reduceBuild_eq (events : List StoredEvent) :
    reduceBuild events
      = (foldEvents initialBuildAcc events).map (fun acc => finishBuild (settle acc)) := by
  unfold reduceBuild foldBuild
  cases foldEvents initialBuildAcc events <;> rfl

/-- A log whose verify members never run side by side leaks at no cut. -/
theorem noPhaseLeak_of_not_concurrent {events : List StoredEvent}
    (h : (trackPhase (projectEvents events)).stage.concurrent = false) : NoPhaseLeak events := by
  rintro before after rfl ⟨member, hm, -⟩
  rw [projectEvents_append, trackPhase_append] at h
  by_cases hc : (trackPhase (projectEvents before)).stage.concurrent = true
  · rw [foldl_advance_concurrent _ hc] at h
    exact absurd h nofun
  · rw [shownMember, if_neg hc] at hm
    exact absurd hm nofun

/-- **Folding a log in pieces gives the state of the whole log, whatever the pieces, exactly
when the ledger rejects the log or no cut of it leaks.** -/
theorem foldPieces_eq_reduceBuild_iff {events : List StoredEvent}
    (hp : events.Pairwise (fun a b => a.seq < b.seq)) :
    (∀ pieces, pieces.flatten = events → foldPieces pieces = reduceBuild events) ↔
      (LedgerAccepts (projectEvents events) → NoPhaseLeak events) := by
  rw [ledgerAccepts_iff, reduceBuild_eq]
  cases hf : foldEvents initialBuildAcc events with
  | error message =>
    refine ⟨fun _ ⟨_, h⟩ => absurd h nofun, ?_⟩
    rintro - pieces rfl
    have hp' : (([] : List StoredEvent) ++ pieces.flatten).Pairwise
        (fun a b => a.seq < b.seq) := hp
    have he := foldlM_foldBuild_error pieces hp' (foldEvents_nil initialBuildAcc)
      (carried_self [] initialBuildAcc) hf
    rw [withAside_aside] at he
    unfold foldPieces
    rw [he]
    rfl
  | ok next =>
    constructor
    · rintro h - before after rfl
      exact not_leaksPhase_of_pieces hp hf (h [before, after] (by simp))
    · rintro h pieces rfl
      by_cases hne : pieces = []
      · subst hne
        rw [← Except.ok.inj hf]
        rfl
      · have hp' : (([] : List StoredEvent) ++ pieces.flatten).Pairwise
            (fun a b => a.seq < b.seq) := hp
        obtain ⟨k, hk, hs⟩ :=
          foldlM_foldBuild_carried pieces hp' (foldEvents_nil initialBuildAcc)
            (carried_self [] initialBuildAcc) hf
        rw [withAside_aside] at hk
        unfold foldPieces
        rw [hk, ok_bind]
        exact congrArg Except.ok
          (finishBuild_of_settled (foldEvents_tracks hp hf) (h ⟨next, rfl⟩) (hs (Or.inl hne)))

/-! ## 7. A member that a spec revision leaves behind -/

/-- `verify.started` of the first attempt of a step. -/
def verifyStartedEvent (seq : Nat) (step : String) : StoredEvent :=
  .known ⟨seq, 0, .kernel, .verify (.started
    { baseSha := none, headSha := none, restackId := none, step := step, attempt := 1,
      feedback := none })⟩

/-- `verify.completed` of the first attempt of a step, passing. -/
def verifyPassedEvent (seq : Nat) (step : String) : StoredEvent :=
  .known ⟨seq, 0, .kernel, .verify (.completed
    { baseSha := none, headSha := none, restackId := none, step := step, attempt := 1,
      result := .pass none })⟩

def specRevisedEvent (seq rev : Nat) : StoredEvent :=
  .known ⟨seq, 0, .human "operator" none, .spec (.revised ⟨"spec", rev⟩ none)⟩

/-- Two members one after the other, with a spec revision behind them. -/
def verifiedInTurn : List StoredEvent :=
  [verifyStartedEvent 1 "unit", verifyPassedEvent 2 "unit", verifyStartedEvent 3 "lint",
    verifyPassedEvent 4 "lint", specRevisedEvent 5 2]

theorem foldPieces_eq_reduceBuild_iff_started :
    NoPhaseLeak verifiedInTurn ∧
      ∀ pieces, pieces.flatten = verifiedInTurn →
        foldPieces pieces = reduceBuild verifiedInTurn := by
  have hleak : NoPhaseLeak verifiedInTurn := noPhaseLeak_of_not_concurrent (by decide +kernel)
  have hrising : verifiedInTurn.Pairwise fun a b => a.seq < b.seq := by decide
  exact ⟨hleak, (foldPieces_eq_reduceBuild_iff hrising).mpr fun _ => hleak⟩

/-- Two members start, the second passes; a spec revision follows in a piece of its own. -/
def revisedDuringVerify : List (List StoredEvent) :=
  [[verifyStartedEvent 1 "unit", verifyStartedEvent 2 "lint", verifyPassedEvent 3 "lint"],
    [specRevisedEvent 4 2]]

/-- In pieces the build is still at the first member, at once it is at none. -/
theorem foldPieces_ne_reduceBuild_revised :
    revisedDuringVerify.flatten.Pairwise (fun a b => a.seq < b.seq) ∧
      foldPieces revisedDuringVerify ≠ reduceBuild revisedDuringVerify.flatten := by
  have hpieces : (foldPieces revisedDuringVerify).toOption.map (·.currentPhase)
      = some (some ⟨.verify "unit", none, some 1, 1⟩) := by decide +kernel
  have hwhole : (reduceBuild revisedDuringVerify.flatten).toOption.map (·.currentPhase)
      = some none := by decide +kernel
  refine ⟨by decide, ?_⟩
  intro h
  rw [h, hwhole] at hpieces
  exact absurd hpieces (by decide)

end Autobuild
