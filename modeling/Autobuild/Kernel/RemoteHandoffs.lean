/-
# Authorizing remote executions to drain

An accepted handoff captures the remote executions that are open.  Any dispatcher then authorizes
each of them to drain for its newest handoff, with an append that holds only while the log of the
build is as it was read.

The log fences the append, not the choice of the handoff: a call that began before a newer handoff
was accepted puts an execution back to the older one, and the reducer then ignores the newer, which
it has seen (`not_authorization_kept`).

* `drainEntry_note`: what the reducer does to the entry of one instance.
* `DrainInv.authorize`: an authorization for the newest handoff is the one shown.
* `HandoffInv.run`: what holds as long as no call is stale.
-/
import Mathlib.Data.List.Sort
import Mathlib.Data.List.Induction
import Autobuild.Kernel.Reducer
import Autobuild.Events.Dispatch
import Autobuild.Lib.Steps

namespace Autobuild

/-! ## 1. The log of a build -/

/-- The events of a build that an authorization rests on. -/
inductive RemoteEvent where
  | started (payload : ExecutionStarted)
  | ended (instanceId : String)
  | attached (instanceId : String)
  | runtimeRecorded (attachedSeq : Nat) (instanceId : String) (runtime : RuntimeIdentity)
  | drainAuthorized (payload : ExecutionDrainAuthorized)
  | drainSettled (correlation instanceId : String)
  | relaunchRequested (payload : ExecutionRelaunchRequested)
  /-- `session.suspended` for a shutdown. -/
  | shutDown
  | unrelated

structure RunnerAttach where
  seq : Nat
  instanceId : String
  runtime : Option RuntimeIdentity

/-- `readBuildFacts`, as far as it is read here. -/
structure RemoteFacts where
  lastSeq : Nat := 0
  drain : BuildAcc := initialBuildAcc
  opened : Option ExecutionStarted := none
  runnerAttaches : List RunnerAttach := []

namespace RemoteFacts

/-- `foldDraining` on these events. -/
def noteDrain (acc : BuildAcc) : RemoteEvent → BuildAcc
  | .ended instanceId => endExecution acc instanceId
  | .drainAuthorized payload => authorizeDrain acc payload
  | .drainSettled correlation instanceId =>
    updateDrain acc instanceId fun entry =>
      if entry.correlation = correlation then { entry with authorization := none } else entry
  | .relaunchRequested payload => updateDrain acc payload.instanceId (requestRelaunch payload)
  | .shutDown => suspendDraining acc
  | _ => acc

def noteOpen (acc : Option ExecutionStarted) : RemoteEvent → Option ExecutionStarted
  | .started payload => some payload
  | .ended instanceId => if acc.map (·.instanceId) = some instanceId then none else acc
  | _ => acc

/-- The first attach that it is about gets the runtime. -/
def recordRuntime (attachedSeq : Nat) (instanceId : String) (runtime : RuntimeIdentity) :
    List RunnerAttach → List RunnerAttach
  | [] => []
  | attach :: rest =>
    if attach.seq = attachedSeq ∧ attach.instanceId = instanceId then
      { attach with runtime := some runtime } :: rest
    else attach :: recordRuntime attachedSeq instanceId runtime rest

def noteAttach (seq : Nat) (attaches : List RunnerAttach) : RemoteEvent → List RunnerAttach
  | .attached instanceId => attaches ++ [⟨seq, instanceId, none⟩]
  | .runtimeRecorded attachedSeq instanceId runtime =>
    recordRuntime attachedSeq instanceId runtime attaches
  | _ => attaches

def note (facts : RemoteFacts) (event : RemoteEvent) : RemoteFacts where
  lastSeq := facts.lastSeq + 1
  drain := noteDrain facts.drain event
  opened := noteOpen facts.opened event
  runnerAttaches := noteAttach (facts.lastSeq + 1) facts.runnerAttaches event

end RemoteFacts

abbrev RemoteLog := List RemoteEvent

def remoteFacts (log : RemoteLog) : RemoteFacts := log.foldl RemoteFacts.note {}

/-- `drainingExecutions[instance]`. -/
def drainEntry (log : RemoteLog) (instanceId : String) : Option DrainExecution :=
  (remoteFacts log).drain.drainingExecutions.get? instanceId

/-- Whether the instance is among the ended ones. -/
def hasEnded (log : RemoteLog) (instanceId : String) : Bool :=
  (remoteFacts log).drain.endedExecutionInstances.has instanceId

def openInstance (log : RemoteLog) : Option String :=
  (remoteFacts log).opened.map (·.instanceId)

/-- The authorization that is shown for an instance. -/
def shownFor (log : RemoteLog) (instanceId : String) : Option ExecutionDrainAuthorized :=
  (drainEntry log instanceId).bind (·.authorization)

/-- The runtime that the last attach of the instance recorded. -/
def attachedRuntime (log : RemoteLog) (instanceId : String) : Option RuntimeIdentity :=
  ((remoteFacts log).runnerAttaches.reverse.find? (·.instanceId = instanceId)).bind (·.runtime)

/-! ## 2. A call -/

/-- An accepted handoff, as the state of its run has it. -/
structure RemoteHandoff where
  seq : Nat
  correlation : String
  run : String
  toRuntime : RuntimeIdentity
  remoteBuilds : Option (List ExecutingBuild)
  deriving DecidableEq

/-- The captures of the runs, those of the newest handoff first. -/
def capturesOf (runs : List RemoteHandoff) : List (RemoteHandoff × ExecutingBuild) :=
  (runs.insertionSort fun x y => y.seq ≤ x.seq).flatMap fun handoff =>
    (handoff.remoteBuilds.getD []).map (handoff, ·)

/-- What is to be appended for a capture, if anything is. -/
def authorizationFor (log : RemoteLog) (handoff : RemoteHandoff) (capture : ExecutingBuild) :
    Option ExecutionDrainAuthorized :=
  if openInstance log ≠ some capture.instanceId then none
  else
    match attachedRuntime log capture.instanceId with
    | none => none
    | some runtime =>
      if (shownFor log capture.instanceId).map (·.correlation) = some handoff.correlation then none
      else some
        { targetRuntime := some handoff.toRuntime, correlation := handoff.correlation
          run := handoff.run, runtime := runtime, instanceId := capture.instanceId }

/-- A call between two awaits.  What it has read of a build is the log as it was then, and the
pending append is with the one it expects. -/
structure HandoffCall where
  todo : List (RemoteHandoff × ExecutingBuild)
  live : List String
  seen : List ExecutingBuild := []
  factsBySlug : List (String × RemoteLog) := []
  pending : Option (String × RemoteLog × ExecutionDrainAuthorized) := none

abbrev RemoteLogs := String → RemoteLog

/-- One capture, up to its append. -/
def HandoffCall.examine (call : HandoffCall) (logs : RemoteLogs)
    (item : RemoteHandoff × ExecutingBuild) : HandoffCall :=
  let (handoff, capture) := item
  if capture.slug ∉ call.live ∨ capture ∈ call.seen then call
  else
    let log := (call.factsBySlug.lookup capture.slug).getD (logs capture.slug)
    { call with
      seen := capture :: call.seen
      factsBySlug := (capture.slug, log) :: call.factsBySlug
      pending := (authorizationFor log handoff capture).map fun payload =>
        (capture.slug, log, payload) }

def appendTo (logs : RemoteLogs) (slug : String) (event : RemoteEvent) : RemoteLogs :=
  fun other => if other = slug then logs other ++ [event] else logs other

/-- `appendIfCurrent` with `lastSeq`, which counts the events. -/
def appendIfCurrent (logs : RemoteLogs) :
    Option (String × RemoteLog × ExecutionDrainAuthorized) → RemoteLogs
  | some (slug, log, payload) =>
    if (remoteFacts (logs slug)).lastSeq = (remoteFacts log).lastSeq then
      appendTo logs slug (.drainAuthorized payload)
    else logs
  | none => logs

/-- One capture of a call that nothing interferes with. -/
def authorizeNext (state : HandoffCall × RemoteLogs) (item : RemoteHandoff × ExecutingBuild) :
    HandoffCall × RemoteLogs :=
  let call := state.1.examine state.2 item
  ({ call with pending := none }, appendIfCurrent state.2 call.pending)

/-- A whole call that nothing interferes with. -/
def authorizeRemoteHandoffs (runs : List RemoteHandoff) (live : List String) (logs : RemoteLogs) :
    RemoteLogs :=
  ((capturesOf runs).foldl authorizeNext ({ todo := [], live := live }, logs)).2

/-! ## 3. Dispatchers and builds -/

structure HandoffWorld where
  accepted : List RemoteHandoff := []
  logs : RemoteLogs := fun _ => []
  calls : List HandoffCall := []

inductive HandoffAction where
  /-- A handoff is accepted. -/
  | accept (handoff : RemoteHandoff)
  /-- Something else is appended to the log of a build. -/
  | happen (slug : String) (event : RemoteEvent)
  /-- A call begins, with the runs of a state that was read. -/
  | call (runs : List RemoteHandoff) (live : List String)
  /-- A call goes on with its next capture. -/
  | examine (index : Nat)
  /-- The append of a call reaches the store. -/
  | commit (index : Nat)

/-- Whether an event is about an instance, as an execution of the build. -/
def RemoteEvent.names (instanceId : String) : RemoteEvent → Bool
  | .started payload => payload.instanceId = instanceId
  | .ended other => other = instanceId
  | .drainAuthorized payload => payload.instanceId = instanceId
  | _ => false

/-- Executions have instances of their own, and only calls authorize. -/
def mayHappen (log : RemoteLog) : RemoteEvent → Bool
  | .drainAuthorized _ => false
  | .started payload => log.all fun event => !event.names payload.instanceId
  | _ => true

/-- A handoff is accepted behind the others, under a correlation of its own; a state has accepted
handoffs only. -/
def HandoffWorld.step (w : HandoffWorld) : HandoffAction → Option HandoffWorld
  | .accept handoff =>
    if ∀ other ∈ w.accepted, other.seq < handoff.seq ∧ other.correlation ≠ handoff.correlation then
      some { w with accepted := w.accepted ++ [handoff] }
    else none
  | .happen slug event =>
    if mayHappen (w.logs slug) event = true then some { w with logs := appendTo w.logs slug event }
    else none
  | .call runs live =>
    if ∀ handoff ∈ runs, handoff ∈ w.accepted then
      some { w with calls := w.calls ++ [{ todo := capturesOf runs, live := live }] }
    else none
  | .examine index =>
    match w.calls[index]? with
    | some call =>
      match call.todo, call.pending with
      | item :: todo, none =>
        some { w with calls := w.calls.set index { call.examine w.logs item with todo := todo } }
      | _, _ => none
    | none => none
  | .commit index =>
    match w.calls[index]? with
    | some call =>
      some { w with
        logs := appendIfCurrent w.logs call.pending
        calls := w.calls.set index { call with pending := none } }
    | none => none

def HandoffRun : HandoffWorld → HandoffWorld → Prop := Steps.Run HandoffWorld.step

/-! ## 4. What the reducer does to one instance -/

/-- `authorizeDrain`, for the instance of the payload. -/
def authorizeEntry (payload : ExecutionDrainAuthorized) (ended : Bool)
    (previous : Option DrainExecution) : Option DrainExecution :=
  if previous.any fun entry => entry.correlation = payload.correlation ||
      payload.correlation ∈ entry.correlations then previous
  else some
    { correlations := match previous with
        | some entry => entry.correlations ++ [entry.correlation]
        | none => []
      relaunch := previous.bind (·.relaunch)
      authorization := if ended then previous.bind (·.authorization) else some payload
      correlation := payload.correlation
      ended := ended || (previous.map (·.ended)).getD false
      suspended := (previous.map (·.suspended)).getD false }

def endEntry (entry : DrainExecution) : DrainExecution :=
  { entry with ended := true, authorization := none }

def settleEntry (correlation : String) (entry : DrainExecution) : DrainExecution :=
  if entry.correlation = correlation then { entry with authorization := none } else entry

def suspendEntry (entry : DrainExecution) : DrainExecution :=
  if entry.authorization.isSome = true ∧ ¬entry.ended = true then { entry with suspended := true }
  else entry

/-- The entry of an instance after an event. -/
def entryAfter (instanceId : String) (ended : Bool) (previous : Option DrainExecution) :
    RemoteEvent → Option DrainExecution
  | .ended other =>
    if other = instanceId then previous.map endEntry else previous
  | .drainAuthorized payload =>
    if payload.instanceId = instanceId then authorizeEntry payload ended previous else previous
  | .drainSettled correlation other =>
    if other = instanceId then previous.map (settleEntry correlation) else previous
  | .relaunchRequested payload =>
    if payload.instanceId = instanceId then previous.map (requestRelaunch payload) else previous
  | .shutDown => previous.map suspendEntry
  | _ => previous

theorem get?_updateDrain (acc : BuildAcc) (other instanceId : String)
    (f : DrainExecution → DrainExecution) :
    (updateDrain acc other f).drainingExecutions.get? instanceId =
      if other = instanceId then (acc.drainingExecutions.get? instanceId).map f
      else acc.drainingExecutions.get? instanceId := by
  unfold updateDrain
  split
  · rename_i entry hentry
    by_cases h : other = instanceId
    · subst h
      rw [if_pos rfl, hentry]
      exact ObjectMap.get?_set_self _ _ _
    · rw [if_neg h]
      exact ObjectMap.get?_set_ne _ _ (Ne.symm h)
  · rename_i hnone
    split
    · rename_i h
      subst h
      rw [hnone]
      rfl
    · rfl

theorem get?_authorizeDrain (acc : BuildAcc) (payload : ExecutionDrainAuthorized)
    (instanceId : String) :
    (authorizeDrain acc payload).drainingExecutions.get? instanceId =
      if payload.instanceId = instanceId then
        authorizeEntry payload (acc.endedExecutionInstances.has instanceId)
          (acc.drainingExecutions.get? instanceId)
      else acc.drainingExecutions.get? instanceId := by
  have hseen : ∀ previous : Option DrainExecution,
      (previous.map fun p => decide (p.correlation = payload.correlation)
        || decide (payload.correlation ∈ p.correlations)).getD false =
      previous.any fun entry => entry.correlation = payload.correlation ||
        payload.correlation ∈ entry.correlations := by
    intro previous
    cases previous <;> rfl
  unfold authorizeDrain
  dsimp only
  rw [hseen]
  by_cases h : payload.instanceId = instanceId
  · subst h
    rw [if_pos rfl]
    unfold authorizeEntry
    split
    · rfl
    · exact ObjectMap.get?_set_self _ _ _
  · rw [if_neg h]
    split
    · rfl
    · exact ObjectMap.get?_set_ne _ _ (Ne.symm h)

section

variable (log : RemoteLog) (event : RemoteEvent) (instanceId : String)

theorem remoteFacts_append : remoteFacts (log ++ [event]) = (remoteFacts log).note event := by
  rw [remoteFacts, List.foldl_append]
  rfl

theorem lastSeq_remoteFacts : (remoteFacts log).lastSeq = log.length := by
  induction log using List.reverseRecOn with
  | nil => rfl
  | append_singleton log event ih =>
    rw [remoteFacts_append, List.length_append]
    exact congrArg (· + 1) ih

/-- **The entry of one instance** after an event. -/
theorem drainEntry_note : drainEntry (log ++ [event]) instanceId =
    entryAfter instanceId (hasEnded log instanceId) (drainEntry log instanceId) event := by
  rw [drainEntry, remoteFacts_append]
  change (RemoteFacts.noteDrain (remoteFacts log).drain event).drainingExecutions.get?
    instanceId = _
  cases event with
  | ended other => exact get?_updateDrain _ other instanceId _
  | drainAuthorized payload => exact get?_authorizeDrain _ payload instanceId
  | drainSettled correlation other => exact get?_updateDrain _ other instanceId _
  | relaunchRequested payload => exact get?_updateDrain _ payload.instanceId instanceId _
  | shutDown => exact ObjectMap.get?_mapValues _ _ _
  | started _ => rfl
  | attached _ => rfl
  | runtimeRecorded _ _ _ => rfl
  | unrelated => rfl

theorem endedExecutionInstances_updateDrain (acc : BuildAcc) (f : DrainExecution → DrainExecution) :
    (updateDrain acc instanceId f).endedExecutionInstances = acc.endedExecutionInstances := by
  unfold updateDrain
  split <;> rfl

theorem hasEnded_note : hasEnded (log ++ [event]) instanceId = true ↔
    hasEnded log instanceId = true ∨ ∃ other, event = .ended other ∧ other = instanceId := by
  rw [hasEnded, remoteFacts_append]
  change (RemoteFacts.noteDrain (remoteFacts log).drain event).endedExecutionInstances.has _ = _ ↔ _
  cases event with
  | ended other =>
    rw [RemoteFacts.noteDrain, endExecution, endedExecutionInstances_updateDrain]
    simp only [ObjectMap.has_eq_isSome, ObjectMap.get?_set, hasEnded]
    by_cases h : instanceId = other
    · simp [h]
    · simp [h, Ne.symm h]
  | drainAuthorized payload =>
    have hsame : (authorizeDrain (remoteFacts log).drain payload).endedExecutionInstances =
        (remoteFacts log).drain.endedExecutionInstances := by
      unfold authorizeDrain
      dsimp only
      split <;> rfl
    rw [RemoteFacts.noteDrain, hsame]
    simp [hasEnded]
  | drainSettled correlation other =>
    rw [RemoteFacts.noteDrain, endedExecutionInstances_updateDrain]
    simp [hasEnded]
  | relaunchRequested payload =>
    rw [RemoteFacts.noteDrain, endedExecutionInstances_updateDrain]
    simp [hasEnded]
  | shutDown => simp [RemoteFacts.noteDrain, suspendDraining, hasEnded]
  | started _ => simp [RemoteFacts.noteDrain, hasEnded]
  | attached _ => simp [RemoteFacts.noteDrain, hasEnded]
  | runtimeRecorded _ _ _ => simp [RemoteFacts.noteDrain, hasEnded]
  | unrelated => simp [RemoteFacts.noteDrain, hasEnded]

theorem openInstance_note : openInstance (log ++ [event]) =
    match event with
    | .started payload => some payload.instanceId
    | .ended other => if openInstance log = some other then none else openInstance log
    | _ => openInstance log := by
  rw [openInstance, remoteFacts_append]
  cases event with
  | ended other =>
    change (if (remoteFacts log).opened.map (·.instanceId) = some other then none
      else (remoteFacts log).opened).map _ = _
    dsimp only
    unfold openInstance
    split <;> rfl
  | _ => rfl

end

/-! ## 5. What holds of every log -/

section

variable {log : RemoteLog} {instanceId : String}

theorem hidden_entryAfter {previous : Option DrainExecution} (event : RemoteEvent)
    (h : previous.bind (·.authorization) = none) :
    (entryAfter instanceId true previous event).bind (·.authorization) = none := by
  cases previous with
  | none =>
    cases event <;> simp only [entryAfter] <;> try split
    all_goals simp [authorizeEntry]
  | some entry =>
    change entry.authorization = none at h
    cases event <;> simp only [entryAfter] <;> try split
    all_goals simp [authorizeEntry, requestRelaunch, endEntry, settleEntry, suspendEntry, h] <;>
      try split
    all_goals simp [h]

/-- **An instance that has ended shows no authorization.** -/
theorem shownFor_of_ended (h : hasEnded log instanceId = true) :
    shownFor log instanceId = none := by
  induction log using List.reverseRecOn with
  | nil => cases h
  | append_singleton log event ih =>
    rw [shownFor, drainEntry_note]
    by_cases hbefore : hasEnded log instanceId = true
    · rw [hbefore]
      exact hidden_entryAfter event (ih hbefore)
    · obtain hbad | ⟨other, rfl, rfl⟩ := (hasEnded_note log event instanceId).mp h
      · exact absurd hbad hbefore
      · rw [entryAfter, if_pos rfl]
        cases drainEntry log other <;> rfl

/-- **A relaunch is accepted** under the authorization that stands. -/
theorem relaunch_note {event : RemoteEvent} {entry : DrainExecution}
    (h : drainEntry (log ++ [event]) instanceId = some entry)
    (hnew : entry.relaunch ≠ (drainEntry log instanceId).bind (·.relaunch)) :
    ∃ payload, event = .relaunchRequested payload ∧ payload.instanceId = instanceId ∧
      entry.relaunch = some payload ∧
      (shownFor log instanceId).map (·.correlation) = some payload.correlation := by
  rw [drainEntry_note] at h
  rw [shownFor]
  cases hprevious : drainEntry log instanceId with
  | none =>
    rw [hprevious] at h hnew
    cases event <;> simp only [entryAfter] at h <;> try split at h
    all_goals simp [authorizeEntry] at h
    rw [← h] at hnew
    exact absurd rfl hnew
  | some previous =>
    rw [hprevious] at h hnew
    change entry.relaunch ≠ previous.relaunch at hnew
    cases event with
    | relaunchRequested payload =>
      simp only [entryAfter] at h
      split at h
      · rename_i hinstance
        cases h
        unfold requestRelaunch at hnew ⊢
        split at hnew
        · rename_i hstands
          rw [if_pos hstands]
          exact ⟨payload, rfl, hinstance, rfl, hstands.1⟩
        · exact absurd rfl hnew
      · cases h
        exact absurd rfl hnew
    | drainAuthorized payload =>
      simp only [entryAfter] at h
      split at h
      · unfold authorizeEntry at h
        split at h <;>
        · cases h
          exact absurd rfl hnew
      · cases h
        exact absurd rfl hnew
    | drainSettled correlation other =>
      simp only [entryAfter] at h
      split at h
      · cases h
        unfold settleEntry at hnew
        split at hnew <;> exact absurd rfl hnew
      · cases h
        exact absurd rfl hnew
    | shutDown =>
      cases h
      unfold suspendEntry at hnew
      split at hnew <;> exact absurd rfl hnew
    | ended other =>
      simp only [entryAfter] at h
      split at h <;>
      · cases h
        exact absurd rfl hnew
    | started _ | attached _ | runtimeRecorded _ _ _ | unrelated =>
      cases h
      exact absurd rfl hnew

/-- The correlations that an entry has had, the present one first. -/
def DrainExecution.past (entry : DrainExecution) : List String :=
  entry.correlation :: entry.correlations

/-- What leaves the correlations of an entry alone, and its authorization, but for taking it. -/
def Keeps (f : DrainExecution → DrainExecution) : Prop :=
  ∀ entry, (f entry).correlation = entry.correlation ∧
    (f entry).correlations = entry.correlations ∧
    ((f entry).authorization = entry.authorization ∨ (f entry).authorization = none)

/-- Only an authorization makes or moves an entry. -/
theorem entryAfter_keeps {event : RemoteEvent} (h : ∀ payload, event ≠ .drainAuthorized payload)
    (ended : Bool) : ∃ f, Keeps f ∧
      ∀ previous, entryAfter instanceId ended previous event = previous.map f := by
  have hid : Keeps id := fun _ => ⟨rfl, rfl, .inl rfl⟩
  have hsame : ∀ previous : Option DrainExecution, previous = previous.map id :=
    fun previous => (Option.map_id_fun ▸ rfl)
  cases event with
  | drainAuthorized payload => exact absurd rfl (h payload)
  | ended other =>
    by_cases hother : other = instanceId
    · exact ⟨endEntry, fun _ => ⟨rfl, rfl, .inr rfl⟩, fun _ => if_pos hother⟩
    · exact ⟨id, hid, fun previous => (if_neg hother).trans (hsame previous)⟩
  | drainSettled correlation other =>
    by_cases hother : other = instanceId
    · refine ⟨settleEntry correlation, fun entry => ?_, fun _ => if_pos hother⟩
      unfold settleEntry
      split
      · exact ⟨rfl, rfl, .inr rfl⟩
      · exact ⟨rfl, rfl, .inl rfl⟩
    · exact ⟨id, hid, fun previous => (if_neg hother).trans (hsame previous)⟩
  | relaunchRequested payload =>
    by_cases hother : payload.instanceId = instanceId
    · refine ⟨requestRelaunch payload, fun entry => ?_, fun _ => if_pos hother⟩
      unfold requestRelaunch
      split <;> exact ⟨rfl, rfl, .inl rfl⟩
    · exact ⟨id, hid, fun previous => (if_neg hother).trans (hsame previous)⟩
  | shutDown =>
    refine ⟨suspendEntry, fun entry => ?_, fun _ => rfl⟩
    unfold suspendEntry
    split <;> exact ⟨rfl, rfl, .inl rfl⟩
  | started _ | attached _ | runtimeRecorded _ _ _ | unrelated => exact ⟨id, hid, hsame⟩

/-- An entry forgets no correlation. -/
theorem past_note {entry : DrainExecution} (event : RemoteEvent)
    (h : drainEntry log instanceId = some entry) :
    ∃ next, drainEntry (log ++ [event]) instanceId = some next ∧ entry.past ⊆ next.past := by
  rw [drainEntry_note, h]
  by_cases hauthorized : ∃ payload, event = .drainAuthorized payload
  · obtain ⟨payload, rfl⟩ := hauthorized
    simp only [entryAfter]
    split
    · unfold authorizeEntry
      split
      · exact ⟨entry, rfl, List.Subset.refl _⟩
      · refine ⟨_, rfl, fun correlation hc => List.mem_cons_of_mem _ ?_⟩
        obtain rfl | hc := List.mem_cons.mp hc
        · exact List.mem_append_right _ List.mem_cons_self
        · exact List.mem_append_left _ hc
    · exact ⟨entry, rfl, List.Subset.refl _⟩
  · obtain ⟨f, hf, heq⟩ := @entryAfter_keeps instanceId _
      (fun payload hp => hauthorized ⟨payload, hp⟩) (hasEnded log instanceId)
    rw [heq]
    refine ⟨f entry, rfl, ?_⟩
    rw [DrainExecution.past, DrainExecution.past, (hf entry).1, (hf entry).2.1]
    exact List.Subset.refl _

theorem past_append {entry : DrainExecution} (more : RemoteLog)
    (h : drainEntry log instanceId = some entry) :
    ∃ next, drainEntry (log ++ more) instanceId = some next ∧ entry.past ⊆ next.past := by
  induction more using List.reverseRecOn with
  | nil =>
    rw [List.append_nil]
    exact ⟨entry, h, List.Subset.refl _⟩
  | append_singleton more event ih =>
    obtain ⟨middle, hmiddle, hpast⟩ := ih
    obtain ⟨next, hnext, hpast'⟩ := past_note event hmiddle
    rw [← List.append_assoc]
    exact ⟨next, hnext, fun _ hc => hpast' (hpast hc)⟩

/-- What an instance has an entry for, or ended, an event of the log names. -/
theorem named (h : (drainEntry log instanceId).isSome = true ∨ hasEnded log instanceId = true) :
    ∃ event ∈ log, event.names instanceId = true := by
  induction log using List.reverseRecOn with
  | nil =>
    obtain h | h := h <;> cases h
  | append_singleton log event ih =>
    by_cases hbefore : (drainEntry log instanceId).isSome = true ∨ hasEnded log instanceId = true
    · obtain ⟨earlier, hmem, hnames⟩ := ih hbefore
      exact ⟨earlier, List.mem_append_left _ hmem, hnames⟩
    · refine ⟨event, List.mem_append_right _ List.mem_cons_self, ?_⟩
      obtain ⟨hentry, hended⟩ := not_or.mp hbefore
      obtain h | h := h
      · rw [drainEntry_note, Option.not_isSome_iff_eq_none.mp hentry] at h
        by_cases hauthorized : ∃ payload, event = .drainAuthorized payload
        · obtain ⟨payload, rfl⟩ := hauthorized
          simp only [entryAfter] at h
          split at h
          · rename_i hinstance
            exact decide_eq_true hinstance
          · cases h
        · obtain ⟨f, -, heq⟩ := @entryAfter_keeps instanceId _
            (fun payload hp => hauthorized ⟨payload, hp⟩) (hasEnded log instanceId)
          rw [heq] at h
          cases h
      · obtain h | ⟨other, rfl, rfl⟩ := (hasEnded_note log event instanceId).mp h
        · exact absurd h hended
        · exact decide_eq_true rfl

end

/-! ## 6. What holds while no call is stale -/

def RemoteHandoff.Captures (handoff : RemoteHandoff) (slug instanceId : String) : Prop :=
  ⟨slug, instanceId⟩ ∈ handoff.remoteBuilds.getD []

/-- The newest accepted handoff that captures an execution. -/
structure Newest (accepted : List RemoteHandoff) (slug instanceId : String)
    (handoff : RemoteHandoff) : Prop where
  mem : handoff ∈ accepted
  captures : handoff.Captures slug instanceId
  newest : ∀ other ∈ accepted, other.Captures slug instanceId → other.seq ≤ handoff.seq

/-- Handoffs in the order of their acceptance, each with a correlation of its own. -/
def AcceptedInOrder (accepted : List RemoteHandoff) : Prop :=
  accepted.Pairwise fun x y => x.seq < y.seq ∧ x.correlation ≠ y.correlation

theorem AcceptedInOrder.eq_of_correlation {accepted : List RemoteHandoff}
    (h : AcceptedInOrder accepted)
    {x y : RemoteHandoff} (hx : x ∈ accepted) (hy : y ∈ accepted)
    (heq : x.correlation = y.correlation) : x = y := by
  have hpair : accepted.Pairwise fun x y => x.correlation = y.correlation → x = y :=
    h.imp fun hxy heq => absurd heq hxy.2
  have hflip : accepted.Pairwise (flip fun x y => x.correlation = y.correlation → x = y) :=
    h.imp fun hxy heq => absurd heq.symm hxy.2
  exact List.Pairwise.forall_of_forall_of_flip (fun _ _ _ => rfl) hpair hflip hx hy heq

theorem AcceptedInOrder.eq_of_seq {accepted : List RemoteHandoff} (h : AcceptedInOrder accepted)
    {x y : RemoteHandoff} (hx : x ∈ accepted) (hy : y ∈ accepted) (heq : x.seq = y.seq) :
      x = y := by
  have hpair : accepted.Pairwise fun x y => x.seq = y.seq → x = y :=
    h.imp fun hxy heq => absurd heq hxy.1.ne
  have hflip : accepted.Pairwise (flip fun x y => x.seq = y.seq → x = y) :=
    h.imp fun hxy heq => absurd heq hxy.1.ne'
  exact List.Pairwise.forall_of_forall_of_flip (fun _ _ _ => rfl) hpair hflip hx hy heq

/-- What holds of the log of a build. -/
structure DrainInv (accepted : List RemoteHandoff) (slug : String) (log : RemoteLog) : Prop where
  known : ∀ instanceId entry, drainEntry log instanceId = some entry →
    ∀ correlation ∈ entry.past,
      ∃ handoff ∈ accepted, handoff.correlation = correlation ∧ handoff.Captures slug instanceId
  older : ∀ instanceId entry, drainEntry log instanceId = some entry →
    ∀ x ∈ accepted, ∀ y ∈ accepted, x.correlation ∈ entry.correlations →
      y.correlation = entry.correlation → x.seq < y.seq
  own : ∀ instanceId entry payload, drainEntry log instanceId = some entry →
    entry.authorization = some payload → payload.correlation = entry.correlation
  standing : ∀ instanceId entry, openInstance log = some instanceId →
    drainEntry log instanceId = some entry → entry.authorization.isSome = true
  running : ∀ instanceId, openInstance log = some instanceId → hasEnded log instanceId = false

/-- No settlement of the handoff that stands, for an execution that is open. -/
def Unsettled (log : RemoteLog) (event : RemoteEvent) : Prop :=
  ∀ correlation instanceId, event = .drainSettled correlation instanceId →
    openInstance log = some instanceId →
      ∀ entry, drainEntry log instanceId = some entry → entry.correlation ≠ correlation

namespace DrainInv

variable {accepted : List RemoteHandoff} {slug : String} {log : RemoteLog}

theorem drainEntry_nil (instanceId : String) : drainEntry [] instanceId = none := rfl

theorem openInstance_nil : openInstance [] = none := rfl

theorem empty : DrainInv accepted slug [] := by
  constructor
  · intro instanceId entry hentry
    rw [drainEntry_nil] at hentry
    cases hentry
  · intro instanceId entry hentry
    rw [drainEntry_nil] at hentry
    cases hentry
  · intro instanceId entry payload hentry
    rw [drainEntry_nil] at hentry
    cases hentry
  · intro instanceId entry hopen
    rw [openInstance_nil] at hopen
    cases hopen
  · intro instanceId hopen
    rw [openInstance_nil] at hopen
    cases hopen

theorem accept (h : DrainInv accepted slug log) {handoff : RemoteHandoff}
    (hnew : ∀ other ∈ accepted, other.seq < handoff.seq ∧ other.correlation ≠ handoff.correlation) :
    DrainInv (accepted ++ [handoff]) slug log where
  known := by
    intro instanceId entry hentry correlation hc
    obtain ⟨known, hmem, hrest⟩ := h.known instanceId entry hentry correlation hc
    exact ⟨known, List.mem_append_left _ hmem, hrest⟩
  older := by
    -- the entry has no correlation of the new handoff
    have hold : ∀ instanceId entry, drainEntry log instanceId = some entry →
        ∀ x ∈ accepted ++ [handoff], x.correlation ∈ entry.past → x ∈ accepted := by
      intro instanceId entry hentry x hx hc
      obtain hx | hx := List.mem_append.mp hx
      · exact hx
      · obtain ⟨known, hmem, hcorrelation, -⟩ := h.known instanceId entry hentry _ hc
        rw [List.mem_singleton.mp hx] at hcorrelation
        exact absurd hcorrelation (hnew known hmem).2
    intro instanceId entry hentry x hx y hy hxc hyc
    refine h.older instanceId entry hentry x (hold _ _ hentry x hx (List.mem_cons_of_mem _ hxc))
      y (hold _ _ hentry y hy ?_) hxc hyc
    rw [hyc]
    exact List.mem_cons_self
  own := h.own
  standing := h.standing
  running := h.running

theorem happen (h : DrainInv accepted slug log) {event : RemoteEvent}
    (hmay : mayHappen log event = true) (hunsettled : Unsettled log event) :
    DrainInv accepted slug (log ++ [event]) := by
  have hcall : ∀ payload, event ≠ .drainAuthorized payload := by
    rintro payload rfl
    cases hmay
  have hentry : ∀ instanceId entry, drainEntry (log ++ [event]) instanceId = some entry →
      ∃ previous, drainEntry log instanceId = some previous ∧
        entry.correlation = previous.correlation ∧ entry.correlations = previous.correlations ∧
        (entry.authorization = previous.authorization ∨ entry.authorization = none) := by
    intro instanceId entry hnext
    obtain ⟨f, hf, heq⟩ := @entryAfter_keeps instanceId _ hcall (hasEnded log instanceId)
    rw [drainEntry_note, heq] at hnext
    obtain ⟨previous, hprevious, rfl⟩ := Option.map_eq_some_iff.mp hnext
    exact ⟨previous, hprevious, hf previous⟩
  have hfresh : ∀ payload, event = .started payload →
      drainEntry log payload.instanceId = none ∧ hasEnded log payload.instanceId = false := by
    rintro payload rfl
    have hnot : ¬((drainEntry log payload.instanceId).isSome = true ∨
        hasEnded log payload.instanceId = true) := by
      intro hnamed
      obtain ⟨earlier, hmem, hnames⟩ := named hnamed
      have hother := List.all_eq_true.mp hmay earlier hmem
      rw [hnames] at hother
      cases hother
    obtain ⟨hnone, hended⟩ := not_or.mp hnot
    exact ⟨Option.not_isSome_iff_eq_none.mp hnone, Bool.eq_false_of_not_eq_true hended⟩
  -- what is open was open before, or has just been started
  have hopen : ∀ instanceId, openInstance (log ++ [event]) = some instanceId →
      (openInstance log = some instanceId ∧ event ≠ .ended instanceId) ∨
        ∃ payload, event = .started payload ∧ payload.instanceId = instanceId := by
    intro instanceId hnext
    rw [openInstance_note] at hnext
    cases event with
    | started payload => exact .inr ⟨payload, rfl, Option.some.inj hnext⟩
    | ended other =>
      dsimp only at hnext
      split at hnext
      · cases hnext
      · rename_i hother
        refine .inl ⟨hnext, ?_⟩
        rintro ⟨⟩
        exact hother hnext
    | _ => exact .inl ⟨hnext, nofun⟩
  refine ⟨?_, ?_, ?_, ?_, ?_⟩
  · intro instanceId entry hnext
    obtain ⟨previous, hprevious, hcorrelation, hcorrelations, -⟩ := hentry instanceId entry hnext
    rw [DrainExecution.past, hcorrelation, hcorrelations]
    exact h.known instanceId previous hprevious
  · intro instanceId entry hnext
    obtain ⟨previous, hprevious, hcorrelation, hcorrelations, -⟩ := hentry instanceId entry hnext
    rw [hcorrelation, hcorrelations]
    exact h.older instanceId previous hprevious
  · intro instanceId entry payload hnext hpayload
    obtain ⟨previous, hprevious, hcorrelation, -, hkept | hgone⟩ := hentry instanceId entry hnext
    · rw [hcorrelation]
      exact h.own instanceId previous payload hprevious (hkept ▸ hpayload)
    · rw [hgone] at hpayload
      cases hpayload
  · intro instanceId entry hnow hnext
    obtain ⟨hbefore, hended⟩ | ⟨payload, rfl, rfl⟩ := hopen instanceId hnow
    · obtain ⟨previous, hprevious, -⟩ := hentry instanceId entry hnext
      have hstanding := h.standing instanceId previous hbefore hprevious
      rw [drainEntry_note, hprevious] at hnext
      cases event with
      | drainAuthorized payload => exact absurd rfl (hcall payload)
      | ended other =>
        simp only [entryAfter] at hnext
        split at hnext
        · rename_i hother
          exact absurd (congrArg RemoteEvent.ended hother) hended
        · cases hnext
          exact hstanding
      | drainSettled correlation other =>
        simp only [entryAfter] at hnext
        split at hnext
        · rename_i hother
          subst hother
          cases hnext
          rw [settleEntry, if_neg (hunsettled correlation other rfl hbefore previous hprevious)]
          exact hstanding
        · cases hnext
          exact hstanding
      | relaunchRequested payload =>
        simp only [entryAfter] at hnext
        split at hnext
        · cases hnext
          unfold requestRelaunch
          split <;> exact hstanding
        · cases hnext
          exact hstanding
      | shutDown =>
        cases hnext
        unfold suspendEntry
        split <;> exact hstanding
      | started _ | attached _ | runtimeRecorded _ _ _ | unrelated =>
        cases hnext
        exact hstanding
    · obtain ⟨previous, hprevious, -⟩ := hentry _ entry hnext
      rw [(hfresh payload rfl).1] at hprevious
      cases hprevious
  · intro instanceId hnow
    refine Bool.eq_false_of_not_eq_true fun hended => ?_
    obtain hbefore | ⟨other, rfl, rfl⟩ := (hasEnded_note log event instanceId).mp hended
    · obtain ⟨hopened, -⟩ | ⟨payload, rfl, rfl⟩ := hopen instanceId hnow
      · rw [h.running instanceId hopened] at hbefore
        cases hbefore
      · rw [(hfresh payload rfl).2] at hbefore
        cases hbefore
    · obtain ⟨-, hnot⟩ | ⟨payload, hbad, -⟩ := hopen other hnow
      · exact hnot rfl
      · cases hbad

/-- **An authorization for the newest handoff** is the one shown after it. -/
theorem authorize (h : DrainInv accepted slug log) (horder : AcceptedInOrder accepted)
    {handoff : RemoteHandoff} {payload : ExecutionDrainAuthorized}
    (hopen : openInstance log = some payload.instanceId)
    (hnewest : Newest accepted slug payload.instanceId handoff)
    (hcorrelation : payload.correlation = handoff.correlation) :
    DrainInv accepted slug (log ++ [.drainAuthorized payload]) ∧
      (shownFor (log ++ [.drainAuthorized payload]) payload.instanceId).map (·.correlation) =
        some handoff.correlation := by
  have hrunning := h.running _ hopen
  have hother : ∀ instanceId, instanceId ≠ payload.instanceId →
      drainEntry (log ++ [.drainAuthorized payload]) instanceId = drainEntry log instanceId := by
    intro instanceId hne
    rw [drainEntry_note, entryAfter, if_neg (Ne.symm hne)]
  have hself : drainEntry (log ++ [.drainAuthorized payload]) payload.instanceId =
      authorizeEntry payload false (drainEntry log payload.instanceId) := by
    rw [drainEntry_note, entryAfter, if_pos rfl, hrunning]
  -- what the entry has had is of handoffs that are no newer
  have hpast : ∀ entry, drainEntry log payload.instanceId = some entry →
      ∀ x ∈ accepted, x.correlation ∈ entry.past → x.seq ≤ handoff.seq := by
    intro entry hentry x hx hc
    obtain ⟨known, hmem, heq, hcaptures⟩ := h.known _ entry hentry _ hc
    rw [← horder.eq_of_correlation hmem hx heq]
    exact hnewest.newest known hmem hcaptures
  have hnext : ∃ entry, drainEntry (log ++ [.drainAuthorized payload]) payload.instanceId =
      some entry ∧ entry.correlation = handoff.correlation ∧ entry.authorization.isSome = true ∧
      (∀ shown, entry.authorization = some shown → shown.correlation = handoff.correlation) ∧
      (∀ correlation ∈ entry.past, ∃ known ∈ accepted, known.correlation = correlation ∧
        known.Captures slug payload.instanceId) ∧
      (∀ x ∈ accepted, x.correlation ∈ entry.correlations → x.seq < handoff.seq) := by
    rw [hself]
    cases hprevious : drainEntry log payload.instanceId with
    | none =>
      refine ⟨_, rfl, hcorrelation, rfl, ?_, ?_, nofun⟩
      · rintro shown ⟨⟩
        exact hcorrelation
      · intro correlation hc
        rw [List.mem_singleton.mp hc]
        exact ⟨handoff, hnewest.mem, hcorrelation.symm, hnewest.captures⟩
    | some entry =>
      have hknown := h.known _ entry hprevious
      by_cases hseen : entry.correlation = payload.correlation ∨
          payload.correlation ∈ entry.correlations
      · -- seen before: it is the one that stands
        have hsame : entry.correlation = handoff.correlation := by
          obtain hnow | hbefore := hseen
          · exact hnow.trans hcorrelation
          · obtain ⟨standing, hmem, heq, hcaptures⟩ := hknown _ List.mem_cons_self
            have holder := h.older _ entry hprevious handoff hnewest.mem standing hmem
              (hcorrelation ▸ hbefore) heq
            exact absurd holder (Nat.not_lt.mpr (hnewest.newest standing hmem hcaptures))
        have hkept : authorizeEntry payload false (some entry) = some entry := by
          refine if_pos ?_
          rw [Option.any_some, Bool.or_eq_true, decide_eq_true_iff, decide_eq_true_iff]
          exact hseen
        exact ⟨entry, hkept, hsame, h.standing _ entry hopen hprevious,
          fun shown hshown => (h.own _ entry shown hprevious hshown).trans hsame, hknown,
          fun x hx hc => h.older _ entry hprevious x hx handoff hnewest.mem hc hsame.symm⟩
      · have hmoved : authorizeEntry payload false (some entry) = some
            { correlations := entry.correlations ++ [entry.correlation]
              relaunch := entry.relaunch
              authorization := some payload
              correlation := payload.correlation
              ended := entry.ended
              suspended := entry.suspended } := by
          refine if_neg ?_
          rw [Option.any_some, Bool.or_eq_true, decide_eq_true_iff, decide_eq_true_iff]
          exact hseen
        refine ⟨_, hmoved, hcorrelation, rfl, ?_, ?_, ?_⟩
        · rintro shown ⟨⟩
          exact hcorrelation
        · intro correlation hc
          obtain rfl | hc := List.mem_cons.mp hc
          · exact ⟨handoff, hnewest.mem, hcorrelation.symm, hnewest.captures⟩
          · exact hknown correlation (List.mem_cons.mpr ((List.mem_append.mp hc).symm.imp_left
              List.mem_singleton.mp))
        · intro x hx hc
          have hin : x.correlation ∈ entry.past := List.mem_cons.mpr
            ((List.mem_append.mp hc).symm.imp_left List.mem_singleton.mp)
          refine lt_of_le_of_ne (hpast entry hprevious x hx hin) fun heq => hseen ?_
          rw [hcorrelation, ← horder.eq_of_seq hx hnewest.mem heq]
          exact (List.mem_cons.mp hin).imp_left Eq.symm
  obtain ⟨next, hentry, hsame, hstands, hshown, hknown, holder⟩ := hnext
  have hcases : ∀ instanceId entry,
      drainEntry (log ++ [.drainAuthorized payload]) instanceId = some entry →
      (instanceId = payload.instanceId ∧ entry = next) ∨
        drainEntry log instanceId = some entry := by
    intro instanceId entry hnow
    by_cases hinstance : instanceId = payload.instanceId
    · rw [hinstance, hentry] at hnow
      exact .inl ⟨hinstance, (Option.some.inj hnow).symm⟩
    · rw [hother instanceId hinstance] at hnow
      exact .inr hnow
  refine ⟨⟨?_, ?_, ?_, ?_, ?_⟩, ?_⟩
  · intro instanceId entry hnow
    obtain ⟨rfl, rfl⟩ | hbefore := hcases instanceId entry hnow
    · exact hknown
    · exact h.known instanceId entry hbefore
  · intro instanceId entry hnow x hx y hy hxc hyc
    obtain ⟨rfl, rfl⟩ | hbefore := hcases instanceId entry hnow
    · rw [horder.eq_of_correlation hy hnewest.mem (hyc.trans hsame)]
      exact holder x hx hxc
    · exact h.older instanceId entry hbefore x hx y hy hxc hyc
  · intro instanceId entry shown hnow hauthorization
    obtain ⟨rfl, rfl⟩ | hbefore := hcases instanceId entry hnow
    · exact (hshown shown hauthorization).trans hsame.symm
    · exact h.own instanceId entry shown hbefore hauthorization
  · intro instanceId entry hnow hat
    rw [openInstance_note] at hnow
    obtain ⟨rfl, rfl⟩ | hbefore := hcases instanceId entry hat
    · exact hstands
    · exact h.standing instanceId entry hnow hbefore
  · intro instanceId hnow
    rw [openInstance_note] at hnow
    refine Bool.eq_false_of_not_eq_true fun hended => ?_
    obtain hbefore | ⟨other, hbad, -⟩ := (hasEnded_note log _ instanceId).mp hended
    · rw [h.running instanceId hnow] at hbefore
      cases hbefore
    · cases hbad
  · obtain ⟨shown, hauthorization⟩ := Option.isSome_iff_exists.mp hstands
    rw [shownFor, hentry]
    change next.authorization.map _ = _
    rw [hauthorization]
    exact congrArg some (hshown shown hauthorization)

end DrainInv

/-! ## 7. Runs -/

theorem authorizationFor_eq_some {log : RemoteLog} {handoff : RemoteHandoff}
    {capture : ExecutingBuild} {payload : ExecutionDrainAuthorized}
    (h : authorizationFor log handoff capture = some payload) :
    openInstance log = some capture.instanceId ∧ payload.instanceId = capture.instanceId ∧
      payload.correlation = handoff.correlation := by
  unfold authorizationFor at h
  split at h
  · cases h
  · rename_i hopen
    split at h
    · cases h
    · split at h
      · cases h
      · cases h
        exact ⟨not_not.mp hopen, rfl, rfl⟩

/-- What a call has read is the front of what is there. -/
structure CallInv (logs : RemoteLogs) (call : HandoffCall) : Prop where
  read : ∀ slug log, (slug, log) ∈ call.factsBySlug → log <+: logs slug
  pending : ∀ slug log payload, call.pending = some (slug, log, payload) →
    log <+: logs slug ∧ openInstance log = some payload.instanceId

theorem CallInv.mono {logs logs' : RemoteLogs} {call : HandoffCall} (h : CallInv logs call)
    (hlogs : ∀ slug, logs slug <+: logs' slug) : CallInv logs' call where
  read slug log hmem := (h.read slug log hmem).trans (hlogs slug)
  pending slug log payload hpending :=
    ⟨(h.pending slug log payload hpending).1.trans (hlogs slug),
      (h.pending slug log payload hpending).2⟩

theorem CallInv.examine {logs : RemoteLogs} {call : HandoffCall} (h : CallInv logs call)
    (item : RemoteHandoff × ExecutingBuild) : CallInv logs (call.examine logs item) := by
  obtain ⟨handoff, capture⟩ := item
  unfold HandoffCall.examine
  dsimp only
  split
  · exact h
  · have hlog : (call.factsBySlug.lookup capture.slug).getD (logs capture.slug) <+:
        logs capture.slug := by
      cases hlookup : call.factsBySlug.lookup capture.slug with
      | none => exact List.prefix_refl _
      | some log => exact h.read _ log (ObjectMap.mem_of_lookup hlookup)
    constructor
    · intro slug log hmem
      obtain hnew | hold := List.mem_cons.mp hmem
      · cases hnew
        exact hlog
      · exact h.read slug log hold
    · intro slug log payload hpending
      obtain ⟨found, hfound, hsome⟩ := Option.map_eq_some_iff.mp hpending
      cases hsome
      obtain ⟨hopen, hinstance, -⟩ := authorizationFor_eq_some hfound
      exact ⟨hlog, hinstance ▸ hopen⟩

theorem prefix_appendTo (logs : RemoteLogs) (slug : String) (event : RemoteEvent) (other : String) :
    logs other <+: appendTo logs slug event other := by
  unfold appendTo
  split
  · exact List.prefix_append _ _
  · exact List.prefix_refl _

theorem prefix_appendIfCurrent (logs : RemoteLogs)
    (pending : Option (String × RemoteLog × ExecutionDrainAuthorized)) (other : String) :
    logs other <+: appendIfCurrent logs pending other := by
  unfold appendIfCurrent
  split
  · split
    · exact prefix_appendTo _ _ _ _
    · exact List.prefix_refl _
  · exact List.prefix_refl _

structure HandoffInv (w : HandoffWorld) : Prop where
  order : AcceptedInOrder w.accepted
  drains : ∀ slug, DrainInv w.accepted slug (w.logs slug)
  calls : ∀ call ∈ w.calls, CallInv w.logs call

/-- No call is stale: what is appended is for the newest handoff of the execution.  And the handoff
that stands is not settled under an execution that is open. -/
def Steady (w : HandoffWorld) : HandoffAction → Prop
  | .happen slug event => Unsettled (w.logs slug) event
  | .commit index => ∀ call slug log payload, w.calls[index]? = some call →
      call.pending = some (slug, log, payload) → log = w.logs slug →
        ∃ handoff, Newest w.accepted slug payload.instanceId handoff ∧
          payload.correlation = handoff.correlation
  | _ => True

def SteadyRun : HandoffWorld → HandoffWorld → Prop :=
  Relation.ReflTransGen fun w w' => ∃ action, Steady w action ∧ w.step action = some w'

theorem drains_appendTo {accepted : List RemoteHandoff} {logs : RemoteLogs} {slug : String}
    {event : RemoteEvent} (h : ∀ slug, DrainInv accepted slug (logs slug))
    (hnew : DrainInv accepted slug (logs slug ++ [event])) (other : String) :
    DrainInv accepted other (appendTo logs slug event other) := by
  unfold appendTo
  split
  · rename_i heq
    subst heq
    exact hnew
  · exact h other

namespace HandoffInv

variable {w w' : HandoffWorld}

theorem initial : HandoffInv {} where
  order := List.Pairwise.nil
  drains := fun _ => DrainInv.empty
  calls := nofun

theorem commit (h : HandoffInv w) {call : HandoffCall} (hcall : call ∈ w.calls)
    (hsteady : ∀ slug log payload, call.pending = some (slug, log, payload) → log = w.logs slug →
      ∃ handoff, Newest w.accepted slug payload.instanceId handoff ∧
        payload.correlation = handoff.correlation) (other : String) :
    DrainInv w.accepted other (appendIfCurrent w.logs call.pending other) := by
  cases hpending : call.pending with
  | none => exact h.drains other
  | some append =>
    obtain ⟨slug, log, payload⟩ := append
    obtain ⟨hfront, hopen⟩ := (h.calls call hcall).pending slug log payload hpending
    rw [appendIfCurrent, lastSeq_remoteFacts, lastSeq_remoteFacts]
    split
    · rename_i hlength
      have hlog : log = w.logs slug := hfront.eq_of_length hlength.symm
      obtain ⟨handoff, hnewest, hcorrelation⟩ := hsteady slug log payload hpending hlog
      rw [hlog] at hopen
      exact drains_appendTo h.drains
        ((h.drains slug).authorize h.order hopen hnewest hcorrelation).1 other
    · exact h.drains other

theorem step (h : HandoffInv w) {action : HandoffAction} (hsteady : Steady w action)
    (hstep : w.step action = some w') : HandoffInv w' := by
  cases action with
  | accept handoff =>
    obtain ⟨hnew, ⟨⟩⟩ := Option.ite_none_right_eq_some.mp hstep
    refine ⟨?_, fun slug => (h.drains slug).accept hnew, h.calls⟩
    refine List.pairwise_append.mpr ⟨h.order, List.pairwise_singleton _ _, ?_⟩
    intro other hother last hlast
    rw [List.mem_singleton.mp hlast]
    exact hnew other hother
  | happen slug event =>
    obtain ⟨hmay, ⟨⟩⟩ := Option.ite_none_right_eq_some.mp hstep
    exact ⟨h.order, drains_appendTo h.drains ((h.drains slug).happen hmay hsteady),
      fun call hcall => (h.calls call hcall).mono (prefix_appendTo _ _ _)⟩
  | call runs live =>
    obtain ⟨-, ⟨⟩⟩ := Option.ite_none_right_eq_some.mp hstep
    refine ⟨h.order, h.drains, fun call hcall => ?_⟩
    obtain hold | hnew := List.mem_append.mp hcall
    · exact h.calls call hold
    · rw [List.mem_singleton.mp hnew]
      exact ⟨nofun, nofun⟩
  | examine index =>
    simp only [HandoffWorld.step] at hstep
    split at hstep
    · rename_i call hget
      split at hstep
      · rename_i item todo _ _
        cases hstep
        refine ⟨h.order, h.drains, fun other hother => ?_⟩
        obtain hold | rfl := List.mem_or_eq_of_mem_set hother
        · exact h.calls other hold
        · have hexamined := (h.calls call (List.mem_of_getElem? hget)).examine item
          exact ⟨hexamined.read, hexamined.pending⟩
      · cases hstep
    · cases hstep
  | commit index =>
    simp only [HandoffWorld.step] at hstep
    split at hstep
    · rename_i call hget
      cases hstep
      have hcall := List.mem_of_getElem? hget
      refine ⟨h.order, h.commit hcall fun slug log payload => hsteady call slug log payload hget,
        fun other hother => ?_⟩
      obtain hold | rfl := List.mem_or_eq_of_mem_set hother
      · exact (h.calls other hold).mono (prefix_appendIfCurrent _ _)
      · exact ⟨((h.calls call hcall).mono (prefix_appendIfCurrent _ _)).read, nofun⟩
    · cases hstep

theorem run (h : HandoffInv w) (hrun : SteadyRun w w') : HandoffInv w' := by
  induction hrun with
  | refl => exact h
  | tail _ hstep ih =>
    obtain ⟨action, hsteady, hstep⟩ := hstep
    exact ih.step hsteady hstep

end HandoffInv

/-- The journal and the logs only grow. -/
theorem prefix_of_step {w w' : HandoffWorld} {action : HandoffAction}
    (hstep : w.step action = some w') (slug : String) : w.logs slug <+: w'.logs slug := by
  cases action with
  | accept handoff =>
    obtain ⟨-, ⟨⟩⟩ := Option.ite_none_right_eq_some.mp hstep
    exact List.prefix_refl _
  | happen other event =>
    obtain ⟨-, ⟨⟩⟩ := Option.ite_none_right_eq_some.mp hstep
    exact prefix_appendTo _ _ _ _
  | call runs live =>
    obtain ⟨-, ⟨⟩⟩ := Option.ite_none_right_eq_some.mp hstep
    exact List.prefix_refl _
  | examine index =>
    simp only [HandoffWorld.step] at hstep
    repeat' split at hstep
    all_goals cases hstep
    exact List.prefix_refl _
  | commit index =>
    simp only [HandoffWorld.step] at hstep
    split at hstep
    · cases hstep
      exact prefix_appendIfCurrent _ _ _
    · cases hstep

theorem prefix_of_steadyRun {w w' : HandoffWorld} (hrun : SteadyRun w w') (slug : String) :
    w.logs slug <+: w'.logs slug := by
  induction hrun with
  | refl => exact List.prefix_refl _
  | tail _ hstep ih =>
    obtain ⟨action, -, hstep⟩ := hstep
    exact ih.trans (prefix_of_step hstep slug)

/-! ## 8. A call that nothing interferes with -/

/-- The state that a call works from still has the newest handoff of each execution it captures. -/
def CurrentRuns (accepted runs : List RemoteHandoff) : Prop :=
  (∀ handoff ∈ runs, handoff ∈ accepted) ∧
    ∀ slug instanceId, (∃ handoff ∈ runs, handoff.Captures slug instanceId) →
      ∃ handoff ∈ runs, Newest accepted slug instanceId handoff

theorem mem_capturesOf {runs : List RemoteHandoff} {item : RemoteHandoff × ExecutingBuild} :
    item ∈ capturesOf runs ↔ item.1 ∈ runs ∧ item.2 ∈ item.1.remoteBuilds.getD [] := by
  unfold capturesOf
  rw [List.mem_flatMap]
  constructor
  · rintro ⟨handoff, hmem, hitem⟩
    obtain ⟨capture, hcapture, rfl⟩ := List.mem_map.mp hitem
    exact ⟨(List.mem_insertionSort _).mp hmem, hcapture⟩
  · rintro ⟨hmem, hcapture⟩
    exact ⟨item.1, (List.mem_insertionSort _).mpr hmem, List.mem_map.mpr ⟨item.2, hcapture, rfl⟩⟩

theorem capturesOf_pairwise (runs : List RemoteHandoff) :
    (capturesOf runs).Pairwise fun x y => y.1.seq ≤ x.1.seq := by
  unfold capturesOf
  rw [List.pairwise_flatMap]
  have htotal : Std.Total fun x y : RemoteHandoff => y.seq ≤ x.seq := ⟨fun x y => Nat.le_total _ _⟩
  have htrans : IsTrans RemoteHandoff fun x y => y.seq ≤ x.seq :=
    ⟨fun _ _ _ hxy hyz => Nat.le_trans hyz hxy⟩
  refine ⟨fun handoff _ => ?_, ?_⟩
  · rw [List.pairwise_map]
    exact List.pairwise_of_forall fun _ _ => Nat.le_refl _
  · refine (List.pairwise_insertionSort _ runs).imp fun hseq x hx y hy => ?_
    obtain ⟨-, -, rfl⟩ := List.mem_map.mp hx
    obtain ⟨-, -, rfl⟩ := List.mem_map.mp hy
    exact hseq

/-- **The first capture of an execution** is by its newest handoff. -/
theorem newest_of_first {accepted runs : List RemoteHandoff} (h : CurrentRuns accepted runs)
    {before after : List (RemoteHandoff × ExecutingBuild)} {item : RemoteHandoff × ExecutingBuild}
    (hitems : capturesOf runs = before ++ item :: after) (hfirst : ∀ x ∈ before, x.2 ≠ item.2) :
    Newest accepted item.2.slug item.2.instanceId item.1 := by
  have hitem : item ∈ capturesOf runs := by
    rw [hitems]
    exact List.mem_append_right _ List.mem_cons_self
  obtain ⟨hruns, hcaptures⟩ := mem_capturesOf.mp hitem
  obtain ⟨newest, hmem, hnewest⟩ := h.2 _ _ ⟨item.1, hruns, hcaptures⟩
  have hseq : newest.seq ≤ item.1.seq := by
    have hlisted : (newest, item.2) ∈ before ++ item :: after := by
      rw [← hitems]
      exact mem_capturesOf.mpr ⟨hmem, hnewest.captures⟩
    obtain hbefore | hafter := List.mem_append.mp hlisted
    · exact absurd rfl (hfirst (newest, item.2) hbefore)
    · obtain hself | hafter := List.mem_cons.mp hafter
      · rw [← hself]
      · have hsorted := capturesOf_pairwise runs
        rw [hitems] at hsorted
        exact (List.pairwise_cons.mp (List.pairwise_append.mp hsorted).2.1).1 _ hafter
  exact ⟨h.1 _ hruns, hcaptures,
    fun other hother hcaptured => (hnewest.newest other hother hcaptured).trans hseq⟩

/-- A capture with nothing to append, whichever newest handoff it is of. -/
def Quiet (accepted : List RemoteHandoff) (log : RemoteLog) (capture : ExecutingBuild) : Prop :=
  ∀ handoff, Newest accepted capture.slug capture.instanceId handoff →
    authorizationFor log handoff capture = none

theorem authorizationFor_of_open {log : RemoteLog} {handoff : RemoteHandoff}
    {capture : ExecutingBuild} (h : openInstance log ≠ some capture.instanceId) :
    authorizationFor log handoff capture = none := if_pos h

theorem authorizationFor_of_shown {log : RemoteLog} {handoff : RemoteHandoff}
    {capture : ExecutingBuild}
    (h : (shownFor log capture.instanceId).map (·.correlation) = some handoff.correlation) :
    authorizationFor log handoff capture = none := by
  unfold authorizationFor
  split
  · rfl
  · -- the comparison of correlations is settled by the hypothesis
    split <;> rfl

/-- What holds of a call after some of its captures. -/
structure CallDone (accepted : List RemoteHandoff) (done : List (RemoteHandoff × ExecutingBuild))
    (live : List String) (call : HandoffCall) (logs : RemoteLogs) : Prop where
  idle : call.pending = none
  lives : call.live = live
  drains : ∀ slug, DrainInv accepted slug (logs slug)
  seen : ∀ capture ∈ call.seen, ∃ item ∈ done, item.2 = capture
  all : ∀ item ∈ done, item.2.slug ∈ live → item.2 ∈ call.seen
  /-- What was read of a build is what is there, but for the authorization of its execution. -/
  read : ∀ slug log, (slug, log) ∈ call.factsBySlug → openInstance log = openInstance (logs slug) ∧
    (log = logs slug ∨
      ∃ instanceId, openInstance log = some instanceId ∧ ⟨slug, instanceId⟩ ∈ call.seen)
  quiet : ∀ capture ∈ call.seen, Quiet accepted (logs capture.slug) capture

section

variable {accepted : List RemoteHandoff} {done : List (RemoteHandoff × ExecutingBuild)}
  {live : List String} {call : HandoffCall} {logs : RemoteLogs}
  {item : RemoteHandoff × ExecutingBuild}

/-- A capture that is not seen yet is the first of its execution. -/
theorem newest_of_unseen (hall : ∀ x ∈ done, x.2.slug ∈ live → x.2 ∈ call.seen)
    (hlive : item.2.slug ∈ live) (hunseen : item.2 ∉ call.seen)
    (hnewest : (∀ x ∈ done, x.2 ≠ item.2) → Newest accepted item.2.slug item.2.instanceId item.1) :
    Newest accepted item.2.slug item.2.instanceId item.1 := by
  refine hnewest fun earlier hearlier heq => hunseen ?_
  rw [← heq] at hlive ⊢
  exact hall earlier hearlier hlive

/-- A capture that is skipped was seen, or its build is not live. -/
theorem seen_of_skip (hall : ∀ x ∈ done, x.2.slug ∈ live → x.2 ∈ call.seen)
    (hskip : item.2.slug ∉ live ∨ item.2 ∈ call.seen) :
    ∀ x ∈ done ++ [item], x.2.slug ∈ live → x.2 ∈ call.seen := by
  intro other hother hlive
  obtain hold | hlast := List.mem_append.mp hother
  · exact hall other hold hlive
  · rw [List.mem_singleton.mp hlast] at hlive ⊢
    exact hskip.resolve_left (not_not.mpr hlive)

theorem seen_of_examined (hall : ∀ x ∈ done, x.2.slug ∈ live → x.2 ∈ call.seen) :
    ∀ x ∈ done ++ [item], x.2.slug ∈ live → x.2 ∈ item.2 :: call.seen := by
  intro other hother hlive
  obtain hold | hlast := List.mem_append.mp hother
  · exact List.mem_cons_of_mem _ (hall other hold hlive)
  · rw [List.mem_singleton.mp hlast]
    exact List.mem_cons_self

theorem CallDone.skip (h : CallDone accepted done live call logs)
    (hskip : item.2.slug ∉ call.live ∨ item.2 ∈ call.seen) :
    CallDone accepted (done ++ [item]) live call logs := by
  refine { h with seen := ?_, all := ?_ }
  · intro capture hcapture
    obtain ⟨earlier, hmem, heq⟩ := h.seen capture hcapture
    exact ⟨earlier, List.mem_append_left _ hmem, heq⟩
  · rw [h.lives] at hskip
    exact seen_of_skip h.all hskip

/-- What is read of a build is what was read before, or what is there. -/
theorem CallDone.log (h : CallDone accepted done live call logs) (slug : String) :
    openInstance ((call.factsBySlug.lookup slug).getD (logs slug)) = openInstance (logs slug) ∧
      ((call.factsBySlug.lookup slug).getD (logs slug) = logs slug ∨
        ∃ instanceId, openInstance ((call.factsBySlug.lookup slug).getD (logs slug)) =
          some instanceId ∧ ⟨slug, instanceId⟩ ∈ call.seen) := by
  cases hlookup : call.factsBySlug.lookup slug with
  | none => exact ⟨rfl, .inl rfl⟩
  | some log => exact h.read slug log (ObjectMap.mem_of_lookup hlookup)

theorem CallDone.next (h : CallDone accepted done live call logs)
    (horder : AcceptedInOrder accepted)
    (hnewest : (∀ x ∈ done, x.2 ≠ item.2) → Newest accepted item.2.slug item.2.instanceId item.1) :
    CallDone accepted (done ++ [item]) live (authorizeNext (call, logs) item).1
      (authorizeNext (call, logs) item).2 := by
  obtain ⟨handoff, capture⟩ := item
  by_cases hskip : capture.slug ∉ call.live ∨ capture ∈ call.seen
  · have hexamined : call.examine logs (handoff, capture) = call := if_pos hskip
    have hskipped := @CallDone.skip _ _ _ _ _ (handoff, capture) h hskip
    unfold authorizeNext
    dsimp only
    rw [hexamined, h.idle]
    exact { hskipped with idle := rfl }
  · obtain ⟨hlive, hunseen⟩ : capture.slug ∈ live ∧ capture ∉ call.seen := by
      obtain ⟨hlive, hunseen⟩ := not_or.mp hskip
      exact ⟨h.lives ▸ not_not.mp hlive, hunseen⟩
    have hnew : Newest accepted capture.slug capture.instanceId handoff :=
      @newest_of_unseen _ _ _ _ (handoff, capture) h.all hlive hunseen hnewest
    obtain ⟨hopen, hlog⟩ := h.log capture.slug
    have hexamined : call.examine logs (handoff, capture) = { call with
        seen := capture :: call.seen
        factsBySlug := (capture.slug,
          (call.factsBySlug.lookup capture.slug).getD (logs capture.slug)) :: call.factsBySlug
        pending := (authorizationFor ((call.factsBySlug.lookup capture.slug).getD
          (logs capture.slug)) handoff capture).map fun payload => (capture.slug,
            (call.factsBySlug.lookup capture.slug).getD (logs capture.slug), payload) } :=
      if_neg hskip
    unfold authorizeNext
    dsimp only
    rw [hexamined]
    dsimp only
    generalize (call.factsBySlug.lookup capture.slug).getD (logs capture.slug) = log at hopen hlog
    have hread : ∀ slug read, (slug, read) ∈ (capture.slug, log) :: call.factsBySlug →
        openInstance read = openInstance (logs slug) ∧ (read = logs slug ∨
          ∃ instanceId, openInstance read = some instanceId ∧
            ⟨slug, instanceId⟩ ∈ capture :: call.seen) := by
      have hmore : ∀ slug (read : RemoteLog), (read = logs slug ∨
          ∃ instanceId, openInstance read = some instanceId ∧ ⟨slug, instanceId⟩ ∈ call.seen) →
          (read = logs slug ∨ ∃ instanceId, openInstance read = some instanceId ∧
            ⟨slug, instanceId⟩ ∈ capture :: call.seen) := fun slug read =>
        Or.imp_right fun ⟨instanceId, hinstance, hmem⟩ =>
          ⟨instanceId, hinstance, List.mem_cons_of_mem _ hmem⟩
      intro slug read hmem
      obtain hhead | hold := List.mem_cons.mp hmem
      · cases hhead
        exact ⟨hopen, hmore _ _ hlog⟩
      · exact ⟨(h.read slug read hold).1, hmore _ _ (h.read slug read hold).2⟩
    have hseen : ∀ other ∈ capture :: call.seen,
        ∃ item ∈ done ++ [(handoff, capture)], item.2 = other := by
      intro other hother
      obtain rfl | hold := List.mem_cons.mp hother
      · exact ⟨_, List.mem_append_right _ List.mem_cons_self, rfl⟩
      · obtain ⟨earlier, hmem, heq⟩ := h.seen other hold
        exact ⟨earlier, List.mem_append_left _ hmem, heq⟩
    have hall := @seen_of_examined _ _ _ (handoff, capture) h.all
    have hsame : ∀ other, Newest accepted capture.slug capture.instanceId other →
        other = handoff := fun other hother => horder.eq_of_seq hother.mem hnew.mem
      (le_antisymm (hnew.newest other hother.mem hother.captures)
        (hother.newest handoff hnew.mem hnew.captures))
    cases hfound : authorizationFor log handoff capture with
    | none =>
      refine ⟨rfl, h.lives, h.drains, hseen, hall, hread, ?_⟩
      intro other hother
      obtain rfl | hold := List.mem_cons.mp hother
      · intro newest hnewest'
        rw [hsame newest hnewest']
        obtain rfl | ⟨instanceId, hinstance, hmem⟩ := hlog
        · exact hfound
        · -- the open execution is another one
          refine authorizationFor_of_open fun hself => hunseen ?_
          change openInstance (logs other.slug) = some other.instanceId at hself
          rw [← hopen, hinstance] at hself
          rw [Option.some.inj hself] at hmem
          exact hmem
      · exact h.quiet other hold
    | some payload =>
      obtain ⟨hinstance, hpayload, hcorrelation⟩ := authorizationFor_eq_some hfound
      have hcurrent : log = logs capture.slug := by
        obtain heq | ⟨instanceId, hother, hmem⟩ := hlog
        · exact heq
        · rw [hinstance] at hother
          rw [← Option.some.inj hother] at hmem
          exact absurd hmem hunseen
      subst hcurrent
      rw [Option.map_some]
      have happended : appendIfCurrent logs (some (capture.slug, logs capture.slug, payload)) =
          appendTo logs capture.slug (.drainAuthorized payload) := if_pos rfl
      rw [happended]
      rw [← hpayload] at hinstance hnew
      obtain ⟨hdrains, hshown⟩ :=
        (h.drains capture.slug).authorize horder hinstance hnew hcorrelation
      have hopened : ∀ slug,
        openInstance (appendTo logs capture.slug (.drainAuthorized payload) slug)
          = openInstance (logs slug) := by
        intro slug
        unfold appendTo
        split
        · exact openInstance_note _ _
        · rfl
      refine ⟨rfl, h.lives, drains_appendTo h.drains hdrains, hseen, hall, ?_, ?_⟩
      · intro slug read hmem
        obtain ⟨hopened', hread'⟩ := hread slug read hmem
        refine ⟨hopened'.trans (hopened slug).symm, ?_⟩
        by_cases hslug : slug = capture.slug
        · subst hslug
          refine .inr ⟨capture.instanceId, ?_, List.mem_cons_self⟩
          rw [hopened', hinstance, hpayload]
        · rw [appendTo, if_neg hslug]
          exact hread'
      · intro other hother
        obtain rfl | hold := List.mem_cons.mp hother
        · intro newest hnewest'
          rw [hsame newest hnewest', appendTo, if_pos rfl]
          refine authorizationFor_of_shown ?_
          rw [← hpayload]
          exact hshown
        · by_cases hslug : other.slug = capture.slug
          · intro newest _
            refine authorizationFor_of_open fun hself => hunseen ?_
            rw [hopened, hslug, hinstance, hpayload] at hself
            have heq : capture = other := by
              obtain ⟨slug, instanceId⟩ := other
              obtain ⟨slug', instanceId'⟩ := capture
              cases hself
              cases hslug
              rfl
            rw [heq]
            exact hold
          · rw [appendTo, if_neg hslug]
            exact h.quiet other hold

/-- In a list of captures, the first of each execution is by its newest handoff. -/
def FirstNewest (accepted : List RemoteHandoff) (items : List (RemoteHandoff × ExecutingBuild)) :
    Prop :=
  ∀ before item after, items = before ++ item :: after → (∀ x ∈ before, x.2 ≠ item.2) →
    Newest accepted item.2.slug item.2.instanceId item.1

theorem CallDone.foldl (horder : AcceptedInOrder accepted) :
    ∀ (items done : List (RemoteHandoff × ExecutingBuild)) (state : HandoffCall × RemoteLogs),
      FirstNewest accepted (done ++ items) → CallDone accepted done live state.1 state.2 →
        CallDone accepted (done ++ items) live (items.foldl authorizeNext state).1
          (items.foldl authorizeNext state).2 := by
  intro items
  induction items with
  | nil =>
    intro done state _ h
    rw [List.append_nil]
    exact h
  | cons item items ih =>
    intro done state hfirst h
    have hnext := h.next horder (hfirst done item items rfl)
    rw [List.append_cons] at hfirst
    have hrest := ih (done ++ [item]) (authorizeNext state item) hfirst hnext
    rw [List.append_assoc] at hrest
    exact hrest

/-- What holds of a call that has nothing to append. -/
structure CallRepeats (done : List (RemoteHandoff × ExecutingBuild)) (live : List String)
    (call : HandoffCall) (logs : RemoteLogs) : Prop where
  idle : call.pending = none
  lives : call.live = live
  read : ∀ slug log, (slug, log) ∈ call.factsBySlug → log = logs slug
  all : ∀ item ∈ done, item.2.slug ∈ live → item.2 ∈ call.seen

theorem CallRepeats.next (h : CallRepeats done live call logs)
    (hnewest : (∀ x ∈ done, x.2 ≠ item.2) → Newest accepted item.2.slug item.2.instanceId item.1)
    (hquiet : item.2.slug ∈ live → Quiet accepted (logs item.2.slug) item.2) :
    CallRepeats (done ++ [item]) live (authorizeNext (call, logs) item).1 logs ∧
      (authorizeNext (call, logs) item).2 = logs := by
  obtain ⟨handoff, capture⟩ := item
  by_cases hskip : capture.slug ∉ call.live ∨ capture ∈ call.seen
  · have hexamined : call.examine logs (handoff, capture) = call := if_pos hskip
    unfold authorizeNext
    dsimp only
    rw [hexamined, h.idle]
    rw [h.lives] at hskip
    exact ⟨⟨rfl, h.lives, h.read, @seen_of_skip _ _ _ (handoff, capture) h.all hskip⟩, rfl⟩
  · obtain ⟨hlive, hunseen⟩ : capture.slug ∈ live ∧ capture ∉ call.seen := by
      obtain ⟨hlive, hunseen⟩ := not_or.mp hskip
      exact ⟨h.lives ▸ not_not.mp hlive, hunseen⟩
    have hnew : Newest accepted capture.slug capture.instanceId handoff :=
      @newest_of_unseen _ _ _ _ (handoff, capture) h.all hlive hunseen hnewest
    have hlog : (call.factsBySlug.lookup capture.slug).getD (logs capture.slug) =
        logs capture.slug := by
      cases hlookup : call.factsBySlug.lookup capture.slug with
      | none => rfl
      | some log => exact h.read _ log (ObjectMap.mem_of_lookup hlookup)
    have hnone := hquiet hlive handoff hnew
    have hexamined : call.examine logs (handoff, capture) = { call with
        seen := capture :: call.seen
        factsBySlug := (capture.slug, logs capture.slug) :: call.factsBySlug
        pending := none } := by
      unfold HandoffCall.examine
      dsimp only
      rw [if_neg hskip, hlog, hnone]
      rfl
    unfold authorizeNext
    dsimp only
    rw [hexamined]
    refine ⟨⟨rfl, h.lives, fun slug log hmem => ?_,
      @seen_of_examined _ _ _ (handoff, capture) h.all⟩, rfl⟩
    obtain hhead | hold := List.mem_cons.mp hmem
    · cases hhead
      rfl
    · exact h.read slug log hold

theorem CallRepeats.foldl :
    ∀ (items done : List (RemoteHandoff × ExecutingBuild)) (call : HandoffCall),
      FirstNewest accepted (done ++ items) → CallRepeats done live call logs →
        (∀ item ∈ items, item.2.slug ∈ live → Quiet accepted (logs item.2.slug) item.2) →
          (items.foldl authorizeNext (call, logs)).2 = logs := by
  intro items
  induction items with
  | nil => exact fun _ _ _ _ _ => rfl
  | cons item items ih =>
    intro done call hfirst h hquiet
    obtain ⟨hitem, hitems⟩ := List.forall_mem_cons.mp hquiet
    obtain ⟨hnext, hlogs⟩ := h.next (hfirst done item items rfl) hitem
    rw [List.append_cons] at hfirst
    have hrest := ih (done ++ [item]) (authorizeNext (call, logs) item).1 hfirst hnext hitems
    rw [List.foldl_cons, ← show ((authorizeNext (call, logs) item).1, logs) =
      authorizeNext (call, logs) item from Prod.ext rfl hlogs.symm]
    exact hrest

/-- **A repeated call appends nothing.** -/
theorem authorizeRemoteHandoffs_again (horder : AcceptedInOrder accepted)
    (hdrains : ∀ slug, DrainInv accepted slug (logs slug)) {runs : List RemoteHandoff}
    (hruns : CurrentRuns accepted runs) (live : List String) :
    authorizeRemoteHandoffs runs live (authorizeRemoteHandoffs runs live logs) =
      authorizeRemoteHandoffs runs live logs := by
  have hfirst : FirstNewest accepted ([] ++ capturesOf runs) :=
    fun _ _ _ hitems => newest_of_first hruns hitems
  have hdone : CallDone accepted ([] ++ capturesOf runs) live _ _ := CallDone.foldl horder
    (capturesOf runs) [] ({ todo := [], live := live }, logs) hfirst
    ⟨rfl, rfl, hdrains, nofun, nofun, nofun, nofun⟩
  exact CallRepeats.foldl (capturesOf runs) [] { todo := [], live := live } hfirst
    ⟨rfl, rfl, nofun, nofun⟩ fun item hitem hlive => hdone.quiet _ (hdone.all item hitem hlive)

end

/-! ## 9. What is shown -/

theorem examine_todo (call : HandoffCall) (logs : RemoteLogs)
    (item : RemoteHandoff × ExecutingBuild) (todo rest : List (RemoteHandoff × ExecutingBuild)) :
    { HandoffCall.examine { call with todo := todo } logs item with todo := rest } =
      { call.examine logs item with todo := rest } := by
  unfold HandoffCall.examine
  dsimp only
  split <;> rfl

/-- Without interference the steps of a call are those of the whole. -/
theorem run_authorizeNext (accepted : List RemoteHandoff) (calls : List HandoffCall) :
    ∀ (items : List (RemoteHandoff × ExecutingBuild)) (call : HandoffCall) (logs : RemoteLogs),
      call.pending = none →
        HandoffRun ⟨accepted, logs, calls ++ [{ call with todo := items }]⟩
          ⟨accepted, (items.foldl authorizeNext (call, logs)).2,
            calls ++ [{ (items.foldl authorizeNext (call, logs)).1 with todo := [] }]⟩ := by
  intro items
  induction items with
  | nil => exact fun _ _ _ => .refl
  | cons item items ih =>
    rintro ⟨todo, live, seen, factsBySlug, pending⟩ logs ⟨⟩
    let call : HandoffCall := ⟨todo, live, seen, factsBySlug, none⟩
    have hset : ∀ c c' : HandoffCall, (calls ++ [c]).set calls.length c' = calls ++ [c'] := by
      intro c c'
      rw [List.set_append_right _ _ (Nat.le_refl _), Nat.sub_self]
      rfl
    have hexamine : HandoffWorld.step
      ⟨accepted, logs, calls ++ [{ call with todo := item :: items }]⟩
        (.examine calls.length) = some ⟨accepted, logs,
          calls ++ [{ call.examine logs item with todo := items }]⟩ := by
      rw [HandoffWorld.step, List.getElem?_concat_length]
      change some (HandoffWorld.mk accepted logs ((calls ++ [_]).set calls.length _)) = _
      rw [hset]
      exact congrArg (fun next => some (HandoffWorld.mk accepted logs (calls ++ [next])))
        (examine_todo call logs item (item :: items) items)
    have hcommit : HandoffWorld.step ⟨accepted, logs,
        calls ++ [{ call.examine logs item with todo := items }]⟩ (.commit calls.length) =
        some ⟨accepted, (authorizeNext (call, logs) item).2,
          calls ++ [{ (authorizeNext (call, logs) item).1 with todo := items }]⟩ := by
      rw [HandoffWorld.step, List.getElem?_concat_length]
      dsimp only
      rw [hset]
      rfl
    exact .head ⟨_, hexamine⟩ (.head ⟨_, hcommit⟩ (ih _ _ rfl))

theorem authorizeRemoteHandoffs_run (w : HandoffWorld) {runs : List RemoteHandoff}
    (hruns : ∀ handoff ∈ runs, handoff ∈ w.accepted) (live : List String) :
    ∃ call, HandoffRun w
      ⟨w.accepted, authorizeRemoteHandoffs runs live w.logs, w.calls ++ [call]⟩ := by
  have hcall : w.step (.call runs live) = some ⟨w.accepted, w.logs,
      w.calls ++ [{ todo := capturesOf runs, live := live }]⟩ := if_pos hruns
  exact ⟨_, .head ⟨_, hcall⟩
    (run_authorizeNext w.accepted w.calls _ { todo := [], live := live } w.logs rfl)⟩

/-- **As long as no call is stale**, and no handoff is settled under its execution: the
authorization of an instance never goes back, an instance that has ended shows none, a relaunch is
accepted under the one that stands, and a repeated call appends nothing. -/
theorem authorization_kept {w w' : HandoffWorld} (hreached : SteadyRun {} w)
    (hrun : SteadyRun w w') :
    (∀ slug instanceId before after, shownFor (w.logs slug) instanceId = some before →
      shownFor (w'.logs slug) instanceId = some after →
        ∃ x ∈ w'.accepted, ∃ y ∈ w'.accepted, x.correlation = before.correlation ∧
          y.correlation = after.correlation ∧ x.seq ≤ y.seq) ∧
    (∀ slug instanceId, hasEnded (w'.logs slug) instanceId = true →
      shownFor (w'.logs slug) instanceId = none) ∧
    (∀ slug log event instanceId entry, log ++ [event] <+: w'.logs slug →
      drainEntry (log ++ [event]) instanceId = some entry →
        entry.relaunch ≠ (drainEntry log instanceId).bind (·.relaunch) →
          ∃ payload, event = .relaunchRequested payload ∧ payload.instanceId = instanceId ∧
            entry.relaunch = some payload ∧
            (shownFor log instanceId).map (·.correlation) = some payload.correlation) ∧
    ∀ runs live, CurrentRuns w'.accepted runs →
      authorizeRemoteHandoffs runs live (authorizeRemoteHandoffs runs live w'.logs) =
        authorizeRemoteHandoffs runs live w'.logs := by
  have hinv := HandoffInv.initial.run hreached
  have hinv' := hinv.run hrun
  refine ⟨?_, fun slug instanceId hended => shownFor_of_ended hended,
    fun slug log event instanceId entry _ hentry hnew => relaunch_note hentry hnew,
    fun runs live hruns => authorizeRemoteHandoffs_again hinv'.order hinv'.drains hruns live⟩
  intro slug instanceId before after hbefore hafter
  obtain ⟨entry, hentry, hshown⟩ := Option.bind_eq_some_iff.mp hbefore
  obtain ⟨entry', hentry', hshown'⟩ := Option.bind_eq_some_iff.mp hafter
  have hown := (hinv.drains slug).own instanceId entry before hentry hshown
  have hown' := (hinv'.drains slug).own instanceId entry' after hentry' hshown'
  -- the earlier correlation is one that the entry still has
  have hpast : before.correlation ∈ entry'.past := by
    obtain ⟨more, hmore⟩ := prefix_of_steadyRun hrun slug
    obtain ⟨next, hnext, hkept⟩ := past_append more hentry
    rw [hmore, hentry'] at hnext
    cases hnext
    rw [hown]
    exact hkept List.mem_cons_self
  have hknown := (hinv'.drains slug).known instanceId entry' hentry'
  obtain ⟨x, hx, hxc, -⟩ := hknown _ hpast
  obtain ⟨y, hy, hyc, -⟩ := hknown entry'.correlation List.mem_cons_self
  refine ⟨x, hx, y, hy, hxc, hyc.trans hown'.symm, ?_⟩
  obtain hsame | holder := List.mem_cons.mp hpast
  · rw [hinv'.order.eq_of_correlation hx hy (hxc.trans (hsame.trans hyc.symm))]
  · rw [← hxc] at holder
    exact ((hinv'.drains slug).older instanceId entry' hentry' x hx y hy holder hyc).le

/-- The captures of the build `b` at its instance `i`. -/
def handoffAt (seq : Nat) (correlation : String) : RemoteHandoff :=
  ⟨seq, correlation, correlation, ⟨correlation, "", "", ""⟩, some [⟨"b", "i"⟩]⟩

theorem authorization_kept_attached :
    ∃ w, SteadyRun {} w ∧ (shownFor (w.logs "b") "i").map (·.correlation) = some "old" ∧
      ∀ runs live, CurrentRuns w.accepted runs →
        authorizeRemoteHandoffs runs live (authorizeRemoteHandoffs runs live w.logs) =
          authorizeRemoteHandoffs runs live w.logs := by
  have hnewest : Newest [handoffAt 1 "old"] "b" "i" (handoffAt 1 "old") :=
    ⟨List.mem_cons_self, List.mem_cons_self, fun other hother _ => by
      rw [List.mem_singleton.mp hother]⟩
  obtain ⟨w, hreached, hshown⟩ : ∃ w, SteadyRun {} w ∧
      (shownFor (w.logs "b") "i").map (·.correlation) = some "old" := by
    refine ⟨_, .head ⟨.happen "b" (.started ⟨"", "", "i", none, none, none⟩), nofun, rfl⟩ <|
      .head ⟨.happen "b" (.attached "i"), nofun, rfl⟩ <|
      .head ⟨.happen "b" (.runtimeRecorded 2 "i" ⟨"", "", "", ""⟩), nofun, rfl⟩ <|
      .head ⟨.accept (handoffAt 1 "old"), trivial, rfl⟩ <|
      .head ⟨.call [handoffAt 1 "old"] ["b"], trivial, rfl⟩ <|
      .head ⟨.examine 0, trivial, rfl⟩ <| .single ⟨.commit 0, ?_, rfl⟩, rfl⟩
    rintro call slug log payload ⟨⟩ ⟨⟩ -
    exact ⟨_, hnewest, rfl⟩
  exact ⟨w, hreached, hshown, (authorization_kept hreached .refl).2.2.2⟩

/-- An execution is attached, a handoff is accepted and a call begins; a newer handoff is accepted,
and a second call authorizes it. -/
def supersededCall : List HandoffAction :=
  [.happen "b" (.started ⟨"", "", "i", none, none, none⟩), .happen "b" (.attached "i"),
    .happen "b" (.runtimeRecorded 2 "i" ⟨"", "", "", ""⟩), .accept (handoffAt 1 "old"),
    .call [handoffAt 1 "old"] ["b"], .accept (handoffAt 2 "new"),
    .call [handoffAt 1 "old", handoffAt 2 "new"] ["b"], .examine 1, .commit 1]

/-- The call that began first puts the execution back. -/
theorem not_authorization_kept :
    ¬ ∀ w w', HandoffRun {} w → HandoffRun w w' → ∀ slug instanceId before after,
      shownFor (w.logs slug) instanceId = some before →
        shownFor (w'.logs slug) instanceId = some after →
          ∃ x ∈ w'.accepted, ∃ y ∈ w'.accepted, x.correlation = before.correlation ∧
            y.correlation = after.correlation ∧ x.seq ≤ y.seq := by
  intro hall
  obtain ⟨w, hperform, w', hperform', before, hbefore, after, hafter, hwere, hare, haccepted⟩ :
      ∃ w, Steps.perform HandoffWorld.step supersededCall {} = some w ∧
        ∃ w', Steps.perform HandoffWorld.step [.examine 0, .commit 0] w = some w' ∧
        ∃ before, shownFor (w.logs "b") "i" = some before ∧
        ∃ after, shownFor (w'.logs "b") "i" = some after ∧
          before.correlation = "new" ∧ after.correlation = "old" ∧
          w'.accepted = [handoffAt 1 "old", handoffAt 2 "new"] :=
    ⟨_, rfl, _, rfl, _, rfl, _, rfl, rfl, rfl, rfl⟩
  obtain ⟨x, hx, y, hy, hxc, hyc, hle⟩ := hall w w' (Steps.run_of_perform hperform)
    (Steps.run_of_perform hperform') "b" "i" before after hbefore hafter
  rw [haccepted] at hx hy
  rw [hwere] at hxc
  rw [hare] at hyc
  have hcases : ∀ z ∈ [handoffAt 1 "old", handoffAt 2 "new"],
      (z.correlation = "new" → z.seq = 2) ∧ (z.correlation = "old" → z.seq = 1) := by decide
  rw [(hcases x hx).1 hxc, (hcases y hy).2 hyc] at hle
  exact absurd hle (by decide)

end Autobuild
