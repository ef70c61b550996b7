/-
# Two batches are one

`foldBuild` runs its three loops over a batch and then derives.  Without what is derived at
the end, batching makes no difference (`foldEvents_append`):

* the node ledger, the verify stage and the boundary of the cycle advance by themselves
  (`Skeleton.advance`), so an event fails or not whatever the aside is;
* the aside moves past an event by `advanceAside` (`foldEvent_withAside`);
* the draining loop of a later batch commutes with the events of an earlier one, since the two
  write different halves of the aside.
-/
import Autobuild.Kernel.ReducerFrame
import Autobuild.Lib.Checked

namespace Autobuild

open Checked

/-! ## 1. One event -/

def Skeleton.advance (skeleton : Skeleton) (event : AbEvent) : Except String Skeleton := do
  let nodeRestack ← nodeRestackAfter skeleton.kind skeleton.nodeRestack event
  return { skeleton with
    nodeRestack := nodeRestack
    stage := advanceVerifyStage skeleton.stage event }.note event

theorem foldActivity_aside (acc : BuildAcc) (event : AbEvent) :
    (foldActivity acc event).aside = acc.aside := by
  have h := foldActivity_withAside acc acc.aside event
  rw [withAside_aside] at h
  rw [h, aside_withAside]

theorem foldEvent_skeleton (acc : BuildAcc) (event : AbEvent) :
    (foldEvent acc event).map (·.skeleton) = acc.skeleton.advance event := by
  have hs := foldActivity_skeleton acc event
  have hk : (foldActivity acc event).kind = acc.skeleton.kind := congrArg Skeleton.kind hs
  have hn : (foldActivity acc event).nodeRestack = acc.skeleton.nodeRestack :=
    congrArg Skeleton.nodeRestack hs
  have hst : (foldActivity acc event).skeleton.stage = acc.skeleton.stage :=
    congrArg Skeleton.stage hs
  unfold foldEvent Skeleton.advance
  dsimp only
  rw [hk, hn]
  cases nodeRestackAfter acc.skeleton.kind acc.skeleton.nodeRestack event with
  | error message => rfl
  | ok nodeRestack =>
    refine congrArg Except.ok ((foldProjection_skeleton _ event).trans ?_)
    rw [← hs]
    rfl

theorem foldEvent_withAside (acc : BuildAcc) (a : Aside) (event : AbEvent)
    (h : reconcileAttempt a.currentPhase = reconcileAttempt acc.currentPhase) :
    foldEvent (acc.withAside a) event
      = (foldEvent acc event).map fun next =>
          next.withAside (advanceAside (advanceVerifyStage acc.skeleton.stage event) event a) := by
  have hs := foldActivity_skeleton acc event
  have hp : (foldActivity acc event).currentPhase = acc.currentPhase :=
    congrArg Aside.currentPhase (foldActivity_aside acc event)
  unfold foldEvent
  dsimp only
  rw [foldActivity_withAside]
  have hn : nodeRestackAfter ((foldActivity acc event).withAside a).kind
        ((foldActivity acc event).withAside a).nodeRestack event
      = nodeRestackAfter (foldActivity acc event).kind (foldActivity acc event).nodeRestack
        event := rfl
  rw [hn]
  cases nodeRestackAfter (foldActivity acc event).kind (foldActivity acc event).nodeRestack
    event with
  | error message => rfl
  | ok nodeRestack =>
    let ledgered : BuildAcc := { foldActivity acc event with nodeRestack := nodeRestack }
    have hst : ledgered.skeleton.stage = acc.skeleton.stage :=
      (show ledgered.skeleton.stage = (foldActivity acc event).skeleton.stage from rfl).trans
        (congrArg Skeleton.stage hs)
    have hf := foldProjection_withAside ledgered a event (by rw [← hp] at h; exact h)
    rw [hst] at hf
    exact congrArg Except.ok hf

/-- The aside after an event. -/
theorem foldEvent_aside {acc next : BuildAcc} {event : AbEvent}
    (h : foldEvent acc event = .ok next) :
    next.aside = advanceAside (advanceVerifyStage acc.skeleton.stage event) event acc.aside := by
  have hw := foldEvent_withAside acc acc.aside event rfl
  rw [withAside_aside, h] at hw
  have he : next = next.withAside
      (advanceAside (advanceVerifyStage acc.skeleton.stage event) event acc.aside) :=
    Except.ok.inj hw
  rw [he, aside_withAside]

theorem foldEvent_ok_skeleton {acc next : BuildAcc} {event : AbEvent}
    (h : foldEvent acc event = .ok next) :
    acc.skeleton.advance event = .ok next.skeleton := by
  rw [← foldEvent_skeleton, h]
  rfl

theorem foldEvent_stage {acc next : BuildAcc} {event : AbEvent}
    (h : foldEvent acc event = .ok next) :
    next.skeleton.stage = advanceVerifyStage acc.skeleton.stage event := by
  have hs := foldEvent_ok_skeleton h
  unfold Skeleton.advance at hs
  obtain ⟨nodeRestack, -, hs⟩ := bind_eq_ok.mp hs
  exact (congrArg Skeleton.stage (Except.ok.inj hs)).symm

/-! ## 2. The loop over a batch -/

theorem reconcileAttempt_filter (p : Option PhaseContext) (phase : Phase) :
    reconcileAttempt (p.filter (fun ctx => ctx.phase ≠ phase))
      = if phase = .core .reconcile then none else reconcileAttempt p := by
  unfold reconcileAttempt
  cases p with
  | none => split <;> rfl
  | some ctx =>
    by_cases hc : ctx.phase = phase
    · subst hc
      by_cases hr : ctx.phase = .core .reconcile <;> simp [Option.filter, hr]
    · by_cases hr : phase = .core .reconcile
      · subst hr
        simp [Option.filter, hc]
      · simp [Option.filter, hc, hr]

/-- The attempt of the reconcile in flight is moved on by the events alone. -/
theorem reconcileAttempt_advancePhase (stage : VerifyStageState) (event : AbEvent)
    {p q : Option PhaseContext} (h : reconcileAttempt p = reconcileAttempt q) :
    reconcileAttempt (advancePhase stage event p)
      = reconcileAttempt (advancePhase stage event q) := by
  unfold advancePhase
  cases announcedPhase event with
  | some ctx => rfl
  | none =>
    cases endedPhase stage event with
    | none => exact h
    | some phase =>
      dsimp only
      rw [reconcileAttempt_filter, reconcileAttempt_filter, h]

/-- The verify stage and the aside after an event. -/
def advanceStaged (staged : VerifyStageState × Aside) (event : AbEvent) :
    VerifyStageState × Aside :=
  let stage := advanceVerifyStage staged.1 event
  (stage, advanceAside stage event staged.2)

theorem foldlM_foldEvent_withAside : ∀ (events : List AbEvent) (acc : BuildAcc) (a : Aside),
    reconcileAttempt a.currentPhase = reconcileAttempt acc.currentPhase →
      events.foldlM foldEvent (acc.withAside a)
        = (events.foldlM foldEvent acc).map fun next =>
            next.withAside (events.foldl advanceStaged (acc.skeleton.stage, a)).2
  | [], acc, a, _ => rfl
  | event :: rest, acc, a, h => by
    rw [List.foldlM_cons, List.foldlM_cons, List.foldl_cons, foldEvent_withAside acc a event h]
    cases he : foldEvent acc event with
    | error message => rfl
    | ok next =>
      have ha := foldEvent_aside he
      have hp : next.currentPhase = advancePhase (advanceVerifyStage acc.skeleton.stage event)
          event acc.currentPhase := congrArg Aside.currentPhase ha
      have ih := foldlM_foldEvent_withAside rest next
        (advanceAside (advanceVerifyStage acc.skeleton.stage event) event a)
        (by rw [hp]; exact reconcileAttempt_advancePhase _ event h)
      rw [foldEvent_stage he] at ih
      exact ih

/-! ## 3. Draining executions -/

/-- A draining event, on the part set aside alone. -/
def drainAside (a : Aside) (event : AbEvent) : Aside :=
  (foldDraining (initialBuildAcc.withAside a) event).aside

theorem updateDrain_withAside (acc : BuildAcc) (a : Aside) (instanceId : String)
    (f : DrainExecution → DrainExecution) :
    updateDrain (acc.withAside a) instanceId f
      = acc.withAside (updateDrain (initialBuildAcc.withAside a) instanceId f).aside := by
  unfold updateDrain
  have h (acc : BuildAcc) :
      (acc.withAside a).drainingExecutions = a.drainingExecutions := rfl
  rw [h, h]
  cases a.drainingExecutions.get? instanceId <;> rfl

theorem foldDraining_withAside (acc : BuildAcc) (a : Aside) (event : AbEvent) :
    foldDraining (acc.withAside a) event = acc.withAside (drainAside a event) := by
  obtain ⟨seq, ts, actor, body⟩ := event
  cases body with
  | execution body =>
    cases body with
    | drainAuthorized payload =>
      unfold drainAside foldDraining authorizeDrain
      dsimp only
      rw [apply_ite BuildAcc.aside, apply_ite acc.withAside]
      rfl
    | relaunchRequested payload => exact updateDrain_withAside acc a _ _
    | drainSettled correlation instanceId => exact updateDrain_withAside acc a _ _
    | ended instanceId =>
      let ended : Aside :=
        { a with endedExecutionInstances := a.endedExecutionInstances.set instanceId () }
      exact updateDrain_withAside acc ended _ _
    | started payload => rfl
  | session body =>
    cases body with
    | suspended payload =>
      unfold drainAside foldDraining
      dsimp only
      rw [apply_ite BuildAcc.aside, apply_ite acc.withAside]
      rfl
    | _ => rfl
  | build body => cases body <;> rfl
  | _ => rfl

/-- The draining executions of one aside with the rest of another. -/
def Aside.withRest (a b : Aside) : Aside :=
  { b with
    drainingExecutions := a.drainingExecutions
    compatibilityDeferredBoundary := a.compatibilityDeferredBoundary
    endedExecutionInstances := a.endedExecutionInstances }

theorem updateDrain_withRest (a b : Aside) (instanceId : String)
    (f : DrainExecution → DrainExecution) :
    (updateDrain (initialBuildAcc.withAside (a.withRest b)) instanceId f).aside
      = (updateDrain (initialBuildAcc.withAside a) instanceId f).aside.withRest b := by
  unfold updateDrain
  have h : (initialBuildAcc.withAside (a.withRest b)).drainingExecutions
      = (initialBuildAcc.withAside a).drainingExecutions := rfl
  rw [h]
  cases (initialBuildAcc.withAside a).drainingExecutions.get? instanceId <;> rfl

theorem drainAside_withRest (a b : Aside) (event : AbEvent) :
    drainAside (a.withRest b) event = (drainAside a event).withRest b := by
  obtain ⟨seq, ts, actor, body⟩ := event
  cases body with
  | execution body =>
    cases body with
    | drainAuthorized payload =>
      unfold drainAside foldDraining authorizeDrain
      dsimp only
      rw [apply_ite BuildAcc.aside, apply_ite BuildAcc.aside, apply_ite (Aside.withRest · b)]
      rfl
    | relaunchRequested payload => exact updateDrain_withRest a b _ _
    | drainSettled correlation instanceId => exact updateDrain_withRest a b _ _
    | ended instanceId =>
      let ended : Aside :=
        { a with endedExecutionInstances := a.endedExecutionInstances.set instanceId () }
      exact updateDrain_withRest ended b _ _
    | started payload => rfl
  | session body =>
    cases body with
    | suspended payload =>
      unfold drainAside foldDraining
      dsimp only
      rw [apply_ite BuildAcc.aside, apply_ite BuildAcc.aside, apply_ite (Aside.withRest · b)]
      rfl
    | _ => rfl
  | build body => cases body <;> rfl
  | _ => rfl

theorem foldl_drainAside_withRest (b : Aside) : ∀ (events : List AbEvent) (a : Aside),
    events.foldl drainAside (a.withRest b) = (events.foldl drainAside a).withRest b
  | [], _ => rfl
  | event :: rest, a => by
    rw [List.foldl_cons, List.foldl_cons, drainAside_withRest, foldl_drainAside_withRest b rest]

/-- What a batch does to the aside before its events are looked at one by one. -/
def drainBatch (a : Aside) (events : List StoredEvent) : Aside :=
  (projectEvents events).foldl drainAside
    { a with compatibility := advanceCompatibility a.compatibility events }

theorem drainBatch_eq (a : Aside) (events : List StoredEvent) :
    drainBatch a events
      = ((projectEvents events).foldl drainAside a).withRest
          { a with compatibility := advanceCompatibility a.compatibility events } := by
  rw [← foldl_drainAside_withRest]
  rfl

theorem drainBatch_append (a : Aside) (xs ys : List StoredEvent) :
    drainBatch a (xs ++ ys) = drainBatch (drainBatch a xs) ys := by
  have hc : advanceCompatibility a.compatibility (xs ++ ys)
      = advanceCompatibility (advanceCompatibility a.compatibility xs) ys := List.foldl_append
  rw [drainBatch_eq a, hc, projectEvents_append, List.foldl_append, drainBatch_eq a xs,
    drainBatch_eq, foldl_drainAside_withRest]
  rfl

theorem foldEvents_withAside (acc : BuildAcc) (a : Aside) (events : List StoredEvent) :
    foldEvents (acc.withAside a) events
      = (projectEvents events).foldlM foldEvent (acc.withAside (drainBatch a events)) := by
  have h : ∀ (known : List AbEvent) (a : Aside),
      known.foldl foldDraining (acc.withAside a)
        = acc.withAside (known.foldl drainAside a) := by
    intro known
    induction known with
    | nil => intro a; rfl
    | cons event rest ih =>
      intro a
      rw [List.foldl_cons, List.foldl_cons, foldDraining_withAside, ih]
  unfold foldEvents drainBatch
  rw [← h]
  rfl

/-- One aside with the cursor of another. -/
def Aside.withCursor (a b : Aside) : Aside :=
  { a with currentPhase := b.currentPhase, currentStep := b.currentStep, running := b.running }

theorem foldl_advanceStaged_withCursor (a : Aside) :
    ∀ (events : List AbEvent) (stage : VerifyStageState) (b : Aside),
      (events.foldl advanceStaged (stage, a.withCursor b)).2
        = a.withCursor (events.foldl advanceStaged (stage, b)).2
  | [], _, _ => rfl
  | event :: rest, stage, b => by
    rw [List.foldl_cons, List.foldl_cons]
    exact foldl_advanceStaged_withCursor a rest (advanceVerifyStage stage event)
      (advanceAside (advanceVerifyStage stage event) event b)

theorem drainBatch_withCursor (a b : Aside) (events : List StoredEvent) :
    drainBatch (a.withCursor b) events = (drainBatch a events).withCursor b := by
  have h : (projectEvents events).foldl drainAside (a.withCursor b)
      = ((projectEvents events).foldl drainAside a).withRest (a.withCursor b) :=
    foldl_drainAside_withRest (a.withCursor b) _ a
  rw [drainBatch_eq, drainBatch_eq, h]
  rfl

/-- A later batch drains the same before an earlier batch's events and after them. -/
theorem foldl_advanceStaged_drainBatch (events : List AbEvent) (stage : VerifyStageState)
    (a : Aside) (later : List StoredEvent) :
    (events.foldl advanceStaged (stage, drainBatch a later)).2
      = drainBatch (events.foldl advanceStaged (stage, a)).2 later := by
  set moved := (events.foldl advanceStaged (stage, a)).2 with hm
  have hmoved : moved = a.withCursor moved := foldl_advanceStaged_withCursor a events stage a
  have hbatch : drainBatch a later = (drainBatch a later).withCursor a := by
    rw [drainBatch_eq]
    rfl
  rw [hbatch, foldl_advanceStaged_withCursor, ← hm, hmoved, drainBatch_withCursor]
  rfl

/-- **Without what their ends derive, two batches are one.** -/
theorem foldEvents_append (acc : BuildAcc) (xs ys : List StoredEvent) :
    foldEvents acc (xs ++ ys) = foldEvents acc xs >>= fun next => foldEvents next ys := by
  have hbatch (a : Aside) : reconcileAttempt (drainBatch a ys).currentPhase
      = reconcileAttempt a.currentPhase := by
    rw [drainBatch_eq]
    rfl
  rw [← withAside_aside acc, foldEvents_withAside, foldEvents_withAside, projectEvents_append,
    drainBatch_append, List.foldlM_append]
  set first := drainBatch acc.aside xs with hf
  have hw := foldlM_foldEvent_withAside (projectEvents xs) (acc.withAside first)
    (drainBatch first ys) (hbatch first)
  rw [withAside_withAside] at hw
  rw [hw]
  cases hr : (projectEvents xs).foldlM foldEvent (acc.withAside first) with
  | error message => rfl
  | ok next =>
    have hn := foldlM_foldEvent_withAside (projectEvents xs) (acc.withAside first) first rfl
    rw [withAside_withAside, hr] at hn
    have ha : next.aside = ((projectEvents xs).foldl advanceStaged
        ((acc.withAside first).skeleton.stage, first)).2 := by
      have hi := congrArg BuildAcc.aside (Except.ok.inj hn)
      exact hi
    have hy := foldEvents_withAside next next.aside ys
    rw [withAside_aside] at hy
    rw [ok_bind, hy, ha, ← foldl_advanceStaged_drainBatch]
    rfl

end Autobuild
