/-
# Whether a tick is published

A dispatcher publishes a tick when it did something, when what stands has changed, or when it is
the first that completed a retry after a source's cooldown.  The decision is made from the journal
itself, or from what two reducers have kept of it.

* `Runs` relates what the scan of the journal carries to the attention that is carried for it: the
  same sources with the same deadlines, and the same starts.  Every event keeps it (`Runs.step`).
* `tick_eq`, `completed_eq`: the run's facts hold the last events of the run.
-/
import Mathlib.Data.List.Induction
import Autobuild.Lib.ObjectMap

namespace Autobuild

/-! ## 1. Events of the journal -/

/-- `Date.parse`, in milliseconds; `none` is `NaN`. -/
abbrev Instant := Option Int

/-- `a >= b`, which no `NaN` is. -/
def Instant.atLeast : Instant → Instant → Bool
  | some a, some b => decide (b ≤ a)
  | _, _ => false

/-- `a < b`. -/
def Instant.before : Instant → Instant → Bool
  | some a, some b => decide (a < b)
  | _, _ => false

/-- `Math.min`. -/
def Instant.earlier : Instant → Instant → Instant
  | some a, some b => some (min a b)
  | _, _ => none

def Instant.after (minutes : Int) (instant : Instant) : Instant :=
  instant.map (· + minutes * 60000)

/-- The standing counts that a published tick may lack. -/
structure StandingCounters where
  invalidTickets : Option Nat
  dependencyBlocked : Option Nat
  creationWithheld : Option Nat

structure TickCompleted where
  queued : Nat
  triage : Option Nat
  counters : StandingCounters
  blockedDiagnostics : Option (List String)
  janitorDiagnostics : Option (List String)
  ticketDiagnostics : Option (List String)
  creationDiagnostics : Option (List String)
  dependencyDiagnostics : Option (List String)

inductive JournalBody where
  | ticketSourceDegraded (source : String) (resetAt : Option Instant)
  | ticketSourceDependencyLimited (source : String)
  | ticketSourceRecovered (source : String)
  | forgeDegraded (resetAt : Instant)
  | forgeRecovered
  | runStarted (run : String)
  | runtimeRecorded (run : String)
  | stopRequested (run : String)
  | runStopped (run : String)
  | tickStarted (run : String) (startedAt : Option Instant)
  | tickCompleted (run : String) (payload : TickCompleted)
  | tickFailed (run : String)
  /-- A type that neither path reads, with its run if it has one. -/
  | other (run : Option String)

structure JournalEvent where
  seq : Nat
  ts : Instant
  body : JournalBody

/-- `event.payload.run`. -/
def JournalBody.run? : JournalBody → Option String
  | .runStarted run | .runtimeRecorded run | .stopRequested run | .runStopped run
  | .tickStarted run _ | .tickCompleted run _ | .tickFailed run => some run
  | .other run => run
  | _ => none

def JournalBody.isTickCompleted : JournalBody → Bool
  | .tickCompleted _ _ => true
  | _ => false

def JournalBody.isTickFailed : JournalBody → Bool
  | .tickFailed _ => true
  | _ => false

/-! ## 2. What a report publishes for -/

structure TickReport where
  merged : Nat
  closed : Nat
  conflicted : Nat
  abandoned : Nat
  discarded : Nat
  janitorFailed : Nat
  janitorDiagnostics : List String
  recovered : Nat
  dispatchFailed : Nat
  resumed : Nat
  blockedDiagnostics : List String
  swept : Nat
  settled : Nat
  provisioning : Nat
  dispatched : Nat
  authored : Nat
  bounced : Nat
  claimRaces : Nat
  invalidTickets : Nat
  ticketDiagnostics : List String
  queued : Nat
  creationWithheld : Nat
  creationDiagnostics : List String
  dependencyCheckFailed : Nat
  dependencyBlocked : Nat
  dependencyDiagnostics : List String
  harvestStarted : Nat
  harvestResumed : Nat
  harvestCompleted : Nat
  harvestEscalated : Nat
  harvestFailed : Nat
  sandboxIdleStops : Nat
  sandboxSettleFailures : Nat

structure TickStanding where
  triage : Option Nat := none

/-- The numbers of a report but those that stand. -/
def TickReport.activity (report : TickReport) : List Nat :=
  [report.merged, report.closed, report.conflicted, report.abandoned, report.discarded,
    report.janitorFailed, report.recovered, report.dispatchFailed, report.resumed, report.swept,
    report.settled, report.provisioning, report.dispatched, report.authored, report.bounced,
    report.claimRaces, report.dependencyCheckFailed, report.harvestStarted, report.harvestResumed,
    report.harvestCompleted, report.harvestEscalated, report.harvestFailed,
    report.sandboxIdleStops, report.sandboxSettleFailures]

/-- What stands has changed since the tick that was published. -/
def standingChanged (report : TickReport) (standing : TickStanding) (previous : TickCompleted) :
    Bool :=
  decide (previous.queued ≠ report.queued) || decide (previous.triage ≠ standing.triage) ||
    decide (report.invalidTickets ≠ previous.counters.invalidTickets.getD 0) ||
    decide (report.dependencyBlocked ≠ previous.counters.dependencyBlocked.getD 0) ||
    decide (report.creationWithheld ≠ previous.counters.creationWithheld.getD 0) ||
    decide (report.blockedDiagnostics ≠ previous.blockedDiagnostics.getD []) ||
    decide (report.janitorDiagnostics ≠ previous.janitorDiagnostics.getD []) ||
    decide (report.ticketDiagnostics ≠ previous.ticketDiagnostics.getD []) ||
    decide (report.creationDiagnostics ≠ previous.creationDiagnostics.getD []) ||
    decide (report.dependencyDiagnostics ≠ previous.dependencyDiagnostics.getD [])

def reportRequiresPublication (report : TickReport) (previous : Option JournalEvent)
    (standing : TickStanding) : Bool :=
  match previous with
  | some ⟨_, _, .tickCompleted _ payload⟩ =>
    standingChanged report standing payload || report.activity.any (· ≠ 0)
  | _ => true

/-! ## 3. From the journal -/

/-- A cooldown that a source is in. -/
structure SourceCooldown where
  deadline : Instant
  requiresRetry : Bool
  retried : Bool

structure Cooldowns where
  sources : JsMap String SourceCooldown := ∅
  starts : JsMap String Instant := ∅

/-- The deadline of a source that is degraded. -/
def degradedUntil (ts : Instant) (resetAt : Option Instant) : Instant :=
  match resetAt with
  | some instant => instant
  | none => ts.after 15

/-- A tick of `run` has ended: it retried the sources whose cooldown it began after. -/
def Cooldowns.endTick (cooldowns : Cooldowns) (run : String) : Cooldowns :=
  { sources := cooldowns.sources.mapValues fun _ source =>
      match cooldowns.starts.get? ⟨run⟩ with
      | some start =>
        if start.atLeast source.deadline then { source with retried := true } else source
      | none => source
    starts := cooldowns.starts.erase ⟨run⟩ }

def Cooldowns.note (cooldowns : Cooldowns) (event : JournalEvent) : Cooldowns :=
  match event.body with
  | .ticketSourceDegraded source resetAt =>
    let deadline := degradedUntil event.ts resetAt
    match cooldowns.sources.get? ⟨source⟩ with
    | some existing =>
      { cooldowns with
        sources := cooldowns.sources.set ⟨source⟩
          { existing with
            deadline := existing.deadline.earlier deadline
            requiresRetry := existing.requiresRetry || resetAt.isSome } }
    | none =>
      { cooldowns with
        sources := cooldowns.sources.set ⟨source⟩ ⟨deadline, resetAt.isSome, false⟩ }
  | .ticketSourceRecovered source =>
    { cooldowns with sources := cooldowns.sources.erase ⟨source⟩ }
  | .runStarted _ => { cooldowns with starts := ∅ }
  | .runStopped run => { cooldowns with starts := cooldowns.starts.erase ⟨run⟩ }
  | .tickStarted run startedAt =>
    { cooldowns with starts := cooldowns.starts.set ⟨run⟩ (startedAt.getD event.ts) }
  | .tickCompleted run _ => cooldowns.endTick run
  | .tickFailed run => cooldowns.endTick run
  | _ => cooldowns

/-- `events.findLast(…)`. -/
def lastOfRun (p : JournalBody → Bool) (events : List JournalEvent) (run : String) :
    Option JournalEvent :=
  events.reverse.find? fun event => p event.body && decide (event.body.run? = some run)

def failedLast (boundary : Option JournalEvent) : Bool :=
  match boundary with
  | some event => event.body.isTickFailed
  | none => false

def shouldPublishTick (report : TickReport) (events : List JournalEvent) (run : String)
    (startedAt : Instant) (standing : TickStanding) : Bool :=
  let previous := lastOfRun (·.isTickCompleted) events run
  if reportRequiresPublication report previous standing = true then true
  else
    let boundary := lastOfRun (fun body => body.isTickCompleted || body.isTickFailed) events run
    if failedLast boundary = true then true
    else
      (events.foldl Cooldowns.note {}).sources.values.any fun source =>
        source.requiresRetry && !source.retried && startedAt.atLeast source.deadline

/-! ## 4. From the facts -/

structure SourceAttention where
  event : JournalEvent
  deadline : Instant
  dependencyLimited : Bool
  requiresRetry : Bool
  retryObserved : Bool

structure ForgeAttention where
  event : JournalEvent
  deadline : Instant
  retryObserved : Bool

structure RepositoryAttention where
  forge : Option ForgeAttention := none
  sources : JsMap String SourceAttention := ∅
  failure : Option JournalEvent := none
  tickStarts : JsMap String Instant := ∅

namespace RepositoryAttention

def sourceDefersTick (attention : RepositoryAttention) (now : Instant) : Bool :=
  attention.sources.values.any fun source =>
    now.before source.deadline || (source.requiresRetry && !source.retryObserved)

/-- A cooldown-driven failure is not an outage of its own. -/
def dropDeferred (attention : RepositoryAttention) (now : Instant) : RepositoryAttention :=
  if attention.sourceDefersTick now = true then { attention with failure := none } else attention

/-- A failure of `run` is over. -/
def dropFailureOf (attention : RepositoryAttention) (run : String) : RepositoryAttention :=
  { attention with failure := attention.failure.filter fun event => event.body.run? ≠ some run }

def observeRetry (attention : RepositoryAttention) (run : String) : RepositoryAttention :=
  let ended := { attention with tickStarts := attention.tickStarts.erase ⟨run⟩ }
  match attention.tickStarts.get? ⟨run⟩ with
  | none => ended
  | some startedAt =>
    { ended with
      forge := attention.forge.map fun forge =>
        if startedAt.atLeast forge.deadline then { forge with retryObserved := true } else forge
      sources := attention.sources.mapValues fun _ source =>
        if startedAt.atLeast source.deadline then { source with retryObserved := true }
        else source }

def degradeSource (attention : RepositoryAttention) (event : JournalEvent) (source : String)
    (resetAt : Option Instant) : RepositoryAttention :=
  let deadline := degradedUntil event.ts resetAt
  match attention.sources.get? ⟨source⟩ with
  | some existing =>
    { attention with
      sources := attention.sources.set ⟨source⟩
        { existing with
          deadline := existing.deadline.earlier deadline
          requiresRetry := existing.requiresRetry || resetAt.isSome } }
  | none =>
    { attention with
      sources := attention.sources.set ⟨source⟩
        ⟨event, deadline, false, resetAt.isSome, false⟩ }

def fold (attention : RepositoryAttention) (event : JournalEvent) : RepositoryAttention :=
  match event.body with
  | .forgeDegraded resetAt =>
    { attention with
      forge := some (match attention.forge with
        | none => ⟨event, resetAt, false⟩
        | some forge => { forge with deadline := forge.deadline.earlier resetAt }) }
  | .forgeRecovered => { attention with forge := none }
  | .ticketSourceDegraded source resetAt =>
    (attention.degradeSource event source resetAt).dropDeferred event.ts
  | .ticketSourceDependencyLimited source =>
    match attention.sources.get? ⟨source⟩ with
    | some existing =>
      { attention with
        sources := attention.sources.set ⟨source⟩ { existing with dependencyLimited := true } }
    | none => attention
  | .ticketSourceRecovered source =>
    { attention with sources := attention.sources.erase ⟨source⟩ }
  | .runStarted _ => { attention with failure := none, tickStarts := ∅ }
  | .runStopped run =>
    ({ attention with tickStarts := attention.tickStarts.erase ⟨run⟩ }).dropFailureOf run
  | .tickStarted run startedAt =>
    { attention with tickStarts := attention.tickStarts.set ⟨run⟩ (startedAt.getD event.ts) }
  | .tickCompleted run _ => (attention.observeRetry run).dropFailureOf run
  | .tickFailed run =>
    let observed := attention.observeRetry run
    if observed.sourceDefersTick event.ts = true then { observed with failure := none }
    else if (observed.failure.bind (·.body.run?)) = some run then observed
    else { observed with failure := some event }
  | _ => attention

end RepositoryAttention

structure DispatcherRunFacts where
  runtime : Option JournalEvent := none
  start : Option JournalEvent := none
  latestStart : Option JournalEvent := none
  stop : Option JournalEvent := none
  tick : Option JournalEvent := none
  completed : Option JournalEvent := none
  boundary : Option String := none
  stopRequest : Option JournalEvent := none

def foldDispatcherRunFact (facts : DispatcherRunFacts) (event : JournalEvent) :
    DispatcherRunFacts :=
  match event.body with
  | .runStarted _ => { facts with start := facts.start.or (some event), latestStart := some event }
  | .runtimeRecorded _ => { facts with runtime := some event }
  | .runStopped _ => { facts with stop := some event }
  | .stopRequested _ => { facts with stopRequest := facts.stopRequest.or (some event) }
  | .tickStarted _ _ => { facts with boundary := some "dispatcher.tick-started" }
  | .tickCompleted _ _ =>
    { facts with
      boundary := some "dispatcher.tick-completed", tick := some event, completed := some event }
  | .tickFailed _ => { facts with boundary := some "dispatcher.tick-failed", tick := some event }
  | _ => facts

def foldRunFacts (run : String) (facts : DispatcherRunFacts) (event : JournalEvent) :
    DispatcherRunFacts :=
  if event.body.run? = some run then foldDispatcherRunFact facts event else facts

def shouldPublishTickFromFacts (report : TickReport) (attention : RepositoryAttention)
    (run : DispatcherRunFacts) (startedAt : Instant) (standing : TickStanding) : Bool :=
  if reportRequiresPublication report run.completed standing = true then true
  else if failedLast run.tick = true then true
  else
    attention.sources.values.any fun source =>
      source.requiresRetry && !source.retryObserved && startedAt.atLeast source.deadline

/-- A log, cut into pieces. -/
structure Split (events : List JournalEvent) where
  pieces : List (List JournalEvent)
  whole : pieces.flatten = events

def repositoryAttention {events : List JournalEvent} (split : Split events) :
    RepositoryAttention :=
  split.pieces.foldl (fun attention piece => piece.foldl RepositoryAttention.fold attention) {}

def dispatcherRunFacts {events : List JournalEvent} (run : String) (split : Split events) :
    DispatcherRunFacts :=
  split.pieces.foldl (fun facts piece => piece.foldl (foldRunFacts run) facts) {}

/-! ## 5. The scan and the attention -/

/-- What the scan of the journal carries of a source. -/
def SourceAttention.cooldown (source : SourceAttention) : SourceCooldown :=
  ⟨source.deadline, source.requiresRetry, source.retryObserved⟩

/-- The attention carries what the scan does. -/
structure Runs (cooldowns : Cooldowns) (attention : RepositoryAttention) : Prop where
  sources : ∀ source, cooldowns.sources.get? source =
    (attention.sources.get? source).map (·.cooldown)
  starts : cooldowns.starts = attention.tickStarts

namespace RepositoryAttention

variable {cooldowns : Cooldowns} {attention : RepositoryAttention}

@[simp]
theorem dropDeferred_sources (now : Instant) :
    (attention.dropDeferred now).sources = attention.sources := by
  rw [dropDeferred]
  split <;> rfl

@[simp]
theorem dropDeferred_tickStarts (now : Instant) :
    (attention.dropDeferred now).tickStarts = attention.tickStarts := by
  rw [dropDeferred]
  split <;> rfl

theorem runs_degradeSource (h : Runs cooldowns attention) (event : JournalEvent)
    {source : String} {resetAt : Option Instant}
    (hbody : event.body = .ticketSourceDegraded source resetAt) :
    Runs (cooldowns.note event) (attention.degradeSource event source resetAt) := by
  have hsource := h.sources ⟨source⟩
  unfold Cooldowns.note degradeSource
  rw [hbody]
  dsimp only
  rw [hsource]
  cases hget : attention.sources.get? ⟨source⟩ with
  | none =>
    refine ⟨fun other => ?_, h.starts⟩
    simp only [Option.map_none, ObjectMap.get?_set]
    split
    · rfl
    · exact h.sources other
  | some existing =>
    refine ⟨fun other => ?_, h.starts⟩
    simp only [Option.map_some, ObjectMap.get?_set]
    split
    · rfl
    · exact h.sources other

theorem runs_observeRetry (h : Runs cooldowns attention) (run : String) :
    Runs (cooldowns.endTick run) (attention.observeRetry run) := by
  unfold Cooldowns.endTick observeRetry
  rw [h.starts]
  cases attention.tickStarts.get? ⟨run⟩ with
  | none =>
    refine ⟨fun source => ?_, rfl⟩
    simp only [ObjectMap.get?_mapValues, h.sources]
    cases attention.sources.get? source <;> rfl
  | some startedAt =>
    refine ⟨fun source => ?_, rfl⟩
    simp only [ObjectMap.get?_mapValues, h.sources, Option.map_map]
    congr 1
    funext other
    simp only [Function.comp_apply, SourceAttention.cooldown]
    split <;> rfl

end RepositoryAttention

theorem Runs.step {cooldowns : Cooldowns} {attention : RepositoryAttention}
    (h : Runs cooldowns attention) (event : JournalEvent) :
    Runs (cooldowns.note event) (attention.fold event) := by
  obtain ⟨seq, ts, body⟩ := event
  cases body with
  | ticketSourceDegraded source resetAt =>
    have hdegraded := RepositoryAttention.runs_degradeSource h
      ⟨seq, ts, .ticketSourceDegraded source resetAt⟩ rfl
    refine ⟨fun other => ?_, ?_⟩
    · simp only [RepositoryAttention.fold, RepositoryAttention.dropDeferred_sources]
      exact hdegraded.sources other
    · simp only [RepositoryAttention.fold, RepositoryAttention.dropDeferred_tickStarts]
      exact hdegraded.starts
  | ticketSourceDependencyLimited source =>
    simp only [Cooldowns.note, RepositoryAttention.fold]
    cases hget : attention.sources.get? ⟨source⟩ with
    | none => exact h
    | some existing =>
      refine ⟨fun other => ?_, h.starts⟩
      rw [h.sources, ObjectMap.get?_set]
      split
      · rename_i heq
        rw [heq, hget]
        rfl
      · rfl
  | ticketSourceRecovered source =>
    refine ⟨fun other => ?_, h.starts⟩
    simp only [Cooldowns.note, RepositoryAttention.fold, ObjectMap.get?_erase, h.sources]
    split <;> rfl
  | runStarted run => exact ⟨h.sources, rfl⟩
  | runStopped run =>
    refine ⟨h.sources, ?_⟩
    simp only [Cooldowns.note, RepositoryAttention.fold, RepositoryAttention.dropFailureOf,
      h.starts]
  | tickStarted run startedAt =>
    refine ⟨h.sources, ?_⟩
    simp only [Cooldowns.note, RepositoryAttention.fold, h.starts]
  | tickCompleted run payload =>
    have hended := RepositoryAttention.runs_observeRetry h run
    exact ⟨hended.sources, hended.starts⟩
  | tickFailed run =>
    have hended := RepositoryAttention.runs_observeRetry h run
    simp only [Cooldowns.note, RepositoryAttention.fold]
    split
    · exact ⟨hended.sources, hended.starts⟩
    · split
      · exact hended
      · exact ⟨hended.sources, hended.starts⟩
  | forgeDegraded resetAt => exact ⟨h.sources, h.starts⟩
  | forgeRecovered => exact ⟨h.sources, h.starts⟩
  | runtimeRecorded run => exact h
  | stopRequested run => exact h
  | other run => exact h

theorem runs_fold (events : List JournalEvent) :
    Runs (events.foldl Cooldowns.note {}) (events.foldl RepositoryAttention.fold {}) := by
  induction events using List.reverseRecOn with
  | nil => exact ⟨fun _ => rfl, rfl⟩
  | append_singleton events event ih =>
    rw [List.foldl_append, List.foldl_append]
    exact ih.step event

/-- A question about the cooldown of some source has the same answer on both sides. -/
theorem Runs.any_eq {cooldowns : Cooldowns} {attention : RepositoryAttention}
    (h : Runs cooldowns attention) (p : SourceCooldown → Bool) :
    cooldowns.sources.values.any p =
      attention.sources.values.any fun source => p source.cooldown := by
  rw [Bool.eq_iff_iff, List.any_eq_true, List.any_eq_true]
  constructor
  · rintro ⟨cooldown, hmem, hp⟩
    obtain ⟨key, hget⟩ := ObjectMap.mem_values.mp hmem
    rw [h.sources] at hget
    obtain ⟨source, hsource, rfl⟩ := Option.map_eq_some_iff.mp hget
    exact ⟨source, ObjectMap.mem_values.mpr ⟨key, hsource⟩, hp⟩
  · rintro ⟨source, hmem, hp⟩
    obtain ⟨key, hget⟩ := ObjectMap.mem_values.mp hmem
    refine ⟨source.cooldown, ObjectMap.mem_values.mpr ⟨key, ?_⟩, hp⟩
    rw [h.sources, hget]
    rfl

/-! ## 6. The facts of a run -/

/-- A fact that is overwritten by every event of a kind holds the last of them. -/
theorem field_eq_lastOfRun {field : DispatcherRunFacts → Option JournalEvent}
    {p : JournalBody → Bool} (run : String)
    (hstep : ∀ facts event, field (foldDispatcherRunFact facts event) =
      if p event.body = true then some event else field facts)
    (hinitial : field {} = none) (events : List JournalEvent) :
    field (events.foldl (foldRunFacts run) {}) = lastOfRun p events run := by
  induction events using List.reverseRecOn with
  | nil => exact hinitial
  | append_singleton events event ih =>
    rw [List.foldl_append, List.foldl_cons, List.foldl_nil, foldRunFacts, lastOfRun,
      List.reverse_append, List.reverse_singleton, List.singleton_append, List.find?_cons]
    by_cases hrun : event.body.run? = some run
    · rw [if_pos hrun, hstep, ih]
      cases hp : p event.body <;> simp [hrun, lastOfRun]
    · rw [if_neg hrun, ih]
      simp [hrun, lastOfRun]

theorem completed_eq (run : String) (events : List JournalEvent) :
    (events.foldl (foldRunFacts run) {}).completed = lastOfRun (·.isTickCompleted) events run := by
  refine @field_eq_lastOfRun DispatcherRunFacts.completed _ run ?_ rfl events
  rintro facts ⟨seq, ts, body⟩
  cases body <;> rfl

theorem tick_eq (run : String) (events : List JournalEvent) :
    (events.foldl (foldRunFacts run) {}).tick =
      lastOfRun (fun body => body.isTickCompleted || body.isTickFailed) events run := by
  refine @field_eq_lastOfRun DispatcherRunFacts.tick _ run ?_ rfl events
  rintro facts ⟨seq, ts, body⟩
  cases body <;> rfl

/-- For every journal, run, report, start and standing values, and however the journal was split
for either reducer. -/
theorem tick_publication_agrees (report : TickReport) (events : List JournalEvent) (run : String)
    (startedAt : Instant) (standing : TickStanding) (facts runFacts : Split events) :
    shouldPublishTick report events run startedAt standing =
      shouldPublishTickFromFacts report (repositoryAttention facts)
        (dispatcherRunFacts run runFacts) startedAt standing := by
  rw [repositoryAttention, dispatcherRunFacts, ← List.foldl_flatten, ← List.foldl_flatten,
    facts.whole, runFacts.whole, shouldPublishTickFromFacts, completed_eq, tick_eq,
    shouldPublishTick]
  simp only [(runs_fold events).any_eq, SourceAttention.cooldown]

end Autobuild
