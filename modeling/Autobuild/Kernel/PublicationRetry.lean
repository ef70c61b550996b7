/-
# The retry budget of a publication

A publisher asks the log, before it runs the effect of a publication, whether the effect may start
(`publicationRetryGate`), and records a transient failure after it (`retryStep` at `.record`).  Six
failures are retried; the seventh exhausts the budget until its escalation is answered.

* `retryOf`: the state of one rewrite in the log, and `retryOf_append`, what an event does to it.
* `retryStep`: one publisher, from one await to the next, among the events of others.
* `Budget`: the invariant of one rewrite.  It speaks of the events since the last fact that cleared
  the budget (`windowOf`), and of every anchor in them.

The failure is numbered by a read, and appended by a second await whatever the log has become.  A
fact that clears the budget between the two therefore opens a window that does not start at one
(`budget_not_kept_of_straddled`); apart from that the budget is kept
(`publication_retry_budget`).
-/
import Mathlib.Data.List.Basic
import Mathlib.Data.List.Infix

namespace Autobuild.PublicationRetry

/-! ## 1. Events -/

inductive PublicationOperation where
  | restack
  | reconcile
  deriving DecidableEq

def PublicationOperation.text : PublicationOperation → String
  | .restack => "restack"
  | .reconcile => "reconcile"

structure RetryPayload where
  operation : PublicationOperation
  rewriteId : String
  round : Nat
  anchor : Nat
  error : String
  failure : Nat
  deriving DecidableEq

/-- `publication.retry-scheduled` with its time in milliseconds, and
`publication.retry-exhausted`. -/
inductive RetryNote where
  | scheduled (payload : RetryPayload) (retryAt : Nat)
  | exhausted (payload : RetryPayload)
  deriving DecidableEq

def RetryNote.payload : RetryNote → RetryPayload
  | .scheduled payload _ => payload
  | .exhausted payload => payload

inductive RetryFact where
  | retry (note : RetryNote)
  | answered (id : String)
  | raised (id : String) (round : Nat) (question : String)
  | restackCompleted (id : String)
  | restackContended (id : String)
  | reconcileContended (id : String)
  | reconcileCompleted (rewriteId : Option String)
  | released
  | other
  deriving DecidableEq

structure RetryEvent where
  seq : Nat
  fact : RetryFact
  deriving DecidableEq

abbrev RetryLog := List RetryEvent

/-- `store.append`: the seq of an event is its place in the log. -/
def RetryLog.append (log : RetryLog) (fact : RetryFact) : RetryLog :=
  log ++ [⟨log.length + 1, fact⟩]

@[simp] theorem RetryLog.length_append (log : RetryLog) (fact : RetryFact) :
    (log.append fact).length = log.length + 1 :=
  List.length_append

def publicationEscalationId (operation : PublicationOperation) (id : String) (anchor : Nat) :
    String :=
  "publication:" ++ operation.text ++ ":" ++ id ++ ":" ++ toString anchor

/-! ## 2. The state of a rewrite -/

structure RetryState where
  anchor : Nat
  latest : Option RetryNote
  deriving DecidableEq

def RetryState.isExhausted (state : RetryState) : Bool :=
  match state.latest with
  | some (.exhausted _) => true
  | _ => false

/-- `state.latest?.payload.failure ?? 0`. -/
def RetryState.failure (state : RetryState) : Nat :=
  (state.latest.map fun note => note.payload.failure).getD 0

def RetryNote.isOf (operation : PublicationOperation) (id : String) (note : RetryNote) : Bool :=
  note.payload.operation = operation ∧ note.payload.rewriteId = id

section State

variable (operation : PublicationOperation) (id : String)

/-- One round of the loop of `publicationRetryState`. -/
def noteRetry (state : RetryState) (event : RetryEvent) : RetryState :=
  match event.fact with
  | .answered answer =>
    if state.isExhausted = true ∧ answer = publicationEscalationId operation id state.anchor then
      ⟨event.seq, none⟩
    else state
  | .retry note =>
    if note.isOf operation id = true ∧ note.payload.anchor = state.anchor then
      { state with latest := some note }
    else state
  | _ => state

def publicationRetryState (events : List RetryEvent) : RetryState :=
  events.foldl (noteRetry operation id) ⟨0, none⟩

end State

/-- The rewrite whose retries the reducer drops. -/
def RetryFact.rewrite? : RetryFact → Option (PublicationOperation × String)
  | .restackCompleted id | .restackContended id => some (.restack, id)
  | .reconcileContended id => some (.reconcile, id)
  | .reconcileCompleted rewriteId => rewriteId.map fun id => (.reconcile, id)
  | _ => none

def RetryEvent.keptBy (operation : PublicationOperation) (id : String) (event : RetryEvent) :
    Bool :=
  match event.fact with
  | .retry note => !note.isOf operation id
  | _ => true

/-- The retries of `publicationStateReducer`, after one more event. -/
def foldRetries (retries : List RetryEvent) (event : RetryEvent) : List RetryEvent :=
  match event.fact with
  | .retry _ | .answered _ => retries ++ [event]
  | .released => []
  | fact =>
    match fact.rewrite? with
    | some (operation, id) => retries.filter (·.keptBy operation id)
    | none => retries

/-- `facts.publication.retry(operation, id)`. -/
def retryOf (log : RetryLog) (operation : PublicationOperation) (id : String) : RetryState :=
  publicationRetryState operation id (log.foldl foldRetries [])

/-- Whether a fact clears the budget of a rewrite. -/
def RetryFact.clears (operation : PublicationOperation) (id : String) (fact : RetryFact) : Bool :=
  fact = .released ∨ fact.rewrite? = some (operation, id)

section State

variable {operation : PublicationOperation} {id : String}

theorem noteRetry_of_other {state : RetryState} {event : RetryEvent}
    (h : event.keptBy operation id = false) {operation' : PublicationOperation} {id' : String}
    (hne : (operation, id) ≠ (operation', id')) : noteRetry operation' id' state event = state := by
  obtain ⟨seq, fact⟩ := event
  cases fact with
  | retry note =>
    simp only [RetryEvent.keptBy, RetryNote.isOf, Bool.not_eq_false', decide_eq_true_eq] at h
    refine if_neg ?_
    simp only [RetryNote.isOf, decide_eq_true_eq]
    rintro ⟨⟨rfl, rfl⟩, -⟩
    exact hne (Prod.ext h.1.symm h.2.symm)
  | _ => cases h

theorem foldl_noteRetry_filter {operation' : PublicationOperation} {id' : String}
    (hne : (operation, id) ≠ (operation', id')) (events : List RetryEvent) :
    ∀ state, (events.filter (·.keptBy operation id)).foldl (noteRetry operation' id') state =
      events.foldl (noteRetry operation' id') state := by
  induction events with
  | nil => exact fun _ => rfl
  | cons event events ih =>
    intro state
    rw [List.filter_cons]
    split
    · exact ih _
    next hdropped =>
      rw [List.foldl_cons, noteRetry_of_other (Bool.not_eq_true _ ▸ hdropped) hne, ih]

/-- Without a retry of its own there is nothing that an answer could move. -/
theorem foldl_noteRetry_own (events : List RetryEvent) :
    (events.filter (·.keptBy operation id)).foldl (noteRetry operation id) ⟨0, none⟩ =
      ⟨0, none⟩ := by
  induction events with
  | nil => rfl
  | cons event events ih =>
    rw [List.filter_cons]
    split
    next hkept =>
      have hstays : noteRetry operation id ⟨0, none⟩ event = ⟨0, none⟩ := by
        obtain ⟨seq, fact⟩ := event
        cases fact with
        | retry note =>
          have hother : (!note.isOf operation id) = true := hkept
          rw [Bool.not_eq_true'] at hother
          have hforeign : ¬(note.isOf operation id = true ∧ note.payload.anchor = 0) := fun h =>
            Bool.false_ne_true (hother.symm.trans h.1)
          exact if_neg hforeign
        | _ => rfl
      rw [List.foldl_cons, hstays, ih]
    · exact ih

/-- What an event does to the state of a rewrite. -/
theorem retryOf_append (log : RetryLog) (event : RetryEvent) :
    retryOf (log ++ [event]) operation id =
      if event.fact.clears operation id = true then ⟨0, none⟩
      else noteRetry operation id (retryOf log operation id) event := by
  have hrewrite : ∀ {other : PublicationOperation × String},
      event.fact.rewrite? = some other →
      publicationRetryState operation id
          ((log.foldl foldRetries []).filter (·.keptBy other.1 other.2)) =
        if event.fact.clears operation id = true then ⟨0, none⟩ else retryOf log operation id := by
    rintro ⟨operation', id'⟩ hother
    split
    next hclears =>
      simp only [RetryFact.clears, decide_eq_true_eq] at hclears
      rcases hclears with hreleased | hclears
      · rw [hreleased] at hother
        cases hother
      · cases hother.symm.trans hclears
        exact foldl_noteRetry_own _
    next hclears =>
      refine foldl_noteRetry_filter (fun hsame => hclears ?_) _ _
      simp only [RetryFact.clears, decide_eq_true_eq]
      exact .inr (hother.trans (congrArg some hsame))
  obtain ⟨seq, fact⟩ := event
  rw [retryOf, List.foldl_append, List.foldl_cons, List.foldl_nil]
  cases fact with
  | retry note =>
    simp only [foldRetries, RetryFact.clears, RetryFact.rewrite?, reduceCtorEq, or_self,
      decide_false, Bool.false_eq_true, if_false]
    rw [publicationRetryState, List.foldl_append]
    rfl
  | answered answer =>
    simp only [foldRetries, RetryFact.clears, RetryFact.rewrite?, reduceCtorEq, or_self,
      decide_false, Bool.false_eq_true, if_false]
    rw [publicationRetryState, List.foldl_append]
    rfl
  | released => rfl
  | raised _ _ _ => rfl
  | other => rfl
  | restackCompleted other => exact hrewrite rfl
  | restackContended other => exact hrewrite rfl
  | reconcileContended other => exact hrewrite rfl
  | reconcileCompleted rewriteId =>
    cases rewriteId with
    | none => rfl
    | some other => exact hrewrite rfl

end State

/-! ## 3. The publisher -/

def PUBLICATION_RETRY_SECONDS : List Nat := [30, 60, 120, 240, 300, 300]

/-- The ids of `facts.state.openEscalations`. -/
def openEscalations (log : RetryLog) : List String :=
  log.foldl (fun ids event =>
    match event.fact with
    | .raised id _ _ => if id ∈ ids then ids else ids ++ [id]
    | .answered id => ids.filter (· ≠ id)
    | _ => ids) []

inductive GateVerdict where
  /-- The escalation of the exhausted budget is not open, and is to be raised. -/
  | raise (fact : RetryFact)
  | deferred
  | pass

/-- What `publicationRetryGate` makes of the facts it read. -/
def publicationRetryGate (log : RetryLog) (now : Nat) (operation : PublicationOperation)
    (id : String) : GateVerdict :=
  let state := retryOf log operation id
  match state.latest with
  | some (.exhausted payload) =>
    let escalationId := publicationEscalationId operation id state.anchor
    if escalationId ∈ openEscalations log then .deferred
    else
      .raise (.raised escalationId payload.round
        (operation.text ++ " publication exhausted after 6 retries; last error: " ++ payload.error))
  | some (.scheduled _ retryAt) => if now < retryAt then .deferred else .pass
  | none => .pass

structure Call where
  operation : PublicationOperation
  id : String
  round : Nat
  deriving DecidableEq

/-- What the publisher does next. -/
inductive Stage where
  | idle
  /-- It reads the facts for the gate, before the effect or after an exhaustion. -/
  | gating (call : Call) (beforeEffect : Bool)
  /-- It appends the escalation, if the log still ends where the gate read it. -/
  | raising (call : Call) (beforeEffect : Bool) (lastSeq : Nat) (fact : RetryFact)
  | effecting (call : Call)
  /-- The effect failed, and it reads the facts to number the failure. -/
  | failing (call : Call) (error : String)
  /-- It appends the failure, as numbered by what it read. -/
  | recording (call : Call) (error : String) (state : RetryState)

/-- How the effect of a call ends. -/
inductive EffectOutcome where
  | returned
  /-- A deferral, a rate limit, or an error that is not of the forge or not transient: all of them
  are thrown without a record. -/
  | thrown
  | transient (error : String)

structure Publisher where
  log : RetryLog
  stage : Stage
  /-- The effects started so far, with the log that the gate read and the time. -/
  started : List (Call × RetryLog × Nat)

def Publisher.initial : Publisher := ⟨[], .idle, []⟩

inductive RetryAct where
  /-- Another party appends a fact. -/
  | append (fact : RetryFact)
  | call (call : Call)
  | gate (now : Nat)
  | raise
  | effect (outcome : EffectOutcome)
  | readFailure
  | record (now : Nat)
  /-- The process dies, and the next step of a publisher is a new call. -/
  | crash

/-- The fact that a failure is recorded as. -/
def failureNote (call : Call) (error : String) (state : RetryState) (now : Nat) : RetryNote :=
  let failure := state.failure + 1
  let payload := ⟨call.operation, call.id, call.round, state.anchor, error, failure⟩
  if failure ≤ PUBLICATION_RETRY_SECONDS.length then
    .scheduled payload (now + PUBLICATION_RETRY_SECONDS.getD (failure - 1) 0 * 1000)
  else .exhausted { payload with failure := 7 }

def retryStep (s : Publisher) : RetryAct → Publisher
  | .append fact => { s with log := s.log.append fact }
  | .call call =>
    match s.stage with
    | .idle => { s with stage := .gating call true }
    | _ => s
  | .gate now =>
    match s.stage with
    | .gating call beforeEffect =>
      match publicationRetryGate s.log now call.operation call.id with
      | .raise fact => { s with stage := .raising call beforeEffect s.log.length fact }
      | .deferred => { s with stage := .idle }
      | .pass =>
        if beforeEffect = true then
          { s with stage := .effecting call, started := s.started ++ [(call, s.log, now)] }
        else { s with stage := .idle }
    | _ => s
  | .raise =>
    match s.stage with
    | .raising call beforeEffect lastSeq fact =>
      if s.log.length = lastSeq then { s with log := s.log.append fact, stage := .idle }
      else { s with stage := .gating call beforeEffect }
    | _ => s
  | .effect outcome =>
    match s.stage with
    | .effecting call =>
      match outcome with
      | .transient error => { s with stage := .failing call error }
      | _ => { s with stage := .idle }
    | _ => s
  | .readFailure =>
    match s.stage with
    | .failing call error =>
      { s with stage := .recording call error (retryOf s.log call.operation call.id) }
    | _ => s
  | .record now =>
    match s.stage with
    | .recording call error state =>
      let note := failureNote call error state now
      { s with
        log := s.log.append (.retry note)
        stage := match note with
          | .scheduled _ _ => .idle
          | .exhausted _ => .gating call false }
    | _ => s
  | .crash => { s with stage := .idle }

/-- The facts of other parties: none of them keeps a budget or raises the escalation of one. -/
def Foreign : RetryFact → Prop
  | .retry _ => False
  | .raised id _ _ => ∀ operation rewriteId anchor,
      id ≠ publicationEscalationId operation rewriteId anchor
  | _ => True

/-- Runs whose steps are all allowed. -/
inductive RetryRuns (allowed : Publisher → RetryAct → Prop) : Publisher → Prop
  | start : RetryRuns allowed .initial
  | step {s : Publisher} {act : RetryAct} (run : RetryRuns allowed s) (h : allowed s act) :
    RetryRuns allowed (retryStep s act)

/-- One publisher at a time, among foreign facts. -/
def OnePublisher (_ : Publisher) : RetryAct → Prop
  | .append fact => Foreign fact
  | _ => True

/-- A fact clears the budget of a rewrite between the read and the append of its failure. -/
def straddles (operation : PublicationOperation) (id : String) (s : Publisher) : RetryAct → Bool
  | .append fact =>
    match s.stage with
    | .recording call _ _ => call.operation = operation ∧ call.id = id ∧
        fact.clears operation id = true
    | _ => false
  | _ => false

def Unstraddled (operation : PublicationOperation) (id : String) (s : Publisher)
    (act : RetryAct) : Prop :=
  OnePublisher s act ∧ straddles operation id s act = false

/-! ## 4. The events between two clears -/

section Window

variable (operation : PublicationOperation) (id : String)

/-- The number of a retry that is scheduled under the anchor. -/
def scheduledUnder (anchor : Nat) (event : RetryEvent) : Option Nat :=
  match event.fact with
  | .retry (.scheduled payload retryAt) =>
    if (RetryNote.scheduled payload retryAt).isOf operation id = true ∧ payload.anchor = anchor then
      some payload.failure
    else none
  | _ => none

def exhaustedUnder (anchor : Nat) (event : RetryEvent) : Bool :=
  match event.fact with
  | .retry (.exhausted payload) =>
    (RetryNote.exhausted payload).isOf operation id = true ∧ payload.anchor = anchor
  | _ => false

/-- The numbers of the scheduled retries, in log order. -/
def retriesUnder (anchor : Nat) (events : List RetryEvent) : List Nat :=
  events.filterMap (scheduledUnder operation id anchor)

def exhaustionsUnder (anchor : Nat) (events : List RetryEvent) : Nat :=
  events.countP (exhaustedUnder operation id anchor)

/-- What a budget allows of the events between two clears. -/
structure BudgetKept (window : List RetryEvent) : Prop where
  numbered : ∀ anchor, ∃ count ≤ 6, retriesUnder operation id anchor window = List.range' 1 count
  exhausted_once : ∀ anchor, exhaustionsUnder operation id anchor window ≤ 1
  exhausted_after : ∀ anchor before event after, window = before ++ event :: after →
    exhaustedUnder operation id anchor event = true →
      retriesUnder operation id anchor before = List.range' 1 6

/-- A part of the log that begins at its start or after a fact that clears the budget, and in which
none does. -/
def Window (log : RetryLog) (window : List RetryEvent) : Prop :=
  ∃ before after, log = before ++ window ++ after ∧
    (∀ event ∈ before.getLast?, event.fact.clears operation id = true) ∧
      ∀ event ∈ window, event.fact.clears operation id = false

/-- The anchor moves to the answer of the escalation of an exhausted anchor, and nowhere else. -/
def AnchorMoves (log : RetryLog) : Prop :=
  ∀ before event after, log = before ++ event :: after →
    event.fact.clears operation id = false →
      (retryOf (before ++ [event]) operation id).anchor ≠ (retryOf before operation id).anchor →
        (retryOf before operation id).isExhausted = true ∧
          event.fact = .answered
            (publicationEscalationId operation id (retryOf before operation id).anchor) ∧
          (retryOf (before ++ [event]) operation id).anchor = event.seq

/-- The events since the last clear. -/
def windowOf (log : RetryLog) : List RetryEvent :=
  log.foldl (fun window event =>
    if event.fact.clears operation id = true then [] else window ++ [event]) []

end Window

/-- The escalations with the id that are raised and not answered. -/
def openRaises (id : String) (log : RetryLog) : Nat :=
  log.foldl (fun count event =>
    match event.fact with
    | .raised other _ _ => if other = id then count + 1 else count
    | .answered other => if other = id then 0 else count
    | _ => count) 0

/-- No effect started on an exhausted budget or before its time. -/
def EffectsAllowed (started : List (Call × RetryLog × Nat)) : Prop :=
  ∀ call log now, (call, log, now) ∈ started →
    (retryOf log call.operation call.id).isExhausted = false ∧
      ∀ payload retryAt, (retryOf log call.operation call.id).latest =
        some (.scheduled payload retryAt) → retryAt ≤ now

/-! ## 5. What an event does to a budget -/

section Budget

variable {operation : PublicationOperation} {id : String}

/-- The budget of a rewrite: what its window holds, and what its state says of the anchor it is
at. -/
structure Budget (operation : PublicationOperation) (id : String) (log : RetryLog) : Prop where
  kept : BudgetKept operation id (windowOf operation id log)
  /-- Anchors are the seqs of events that are there. -/
  retries_later : ∀ anchor, log.length < anchor →
    retriesUnder operation id anchor (windowOf operation id log) = []
  exhaustions_later : ∀ anchor, log.length < anchor →
    exhaustionsUnder operation id anchor (windowOf operation id log) = 0
  anchor_le : (retryOf log operation id).anchor ≤ log.length
  open_retries : (retryOf log operation id).isExhausted = false →
    retriesUnder operation id (retryOf log operation id).anchor (windowOf operation id log) =
      List.range' 1 (retryOf log operation id).failure
  open_failure : (retryOf log operation id).isExhausted = false →
    (retryOf log operation id).failure ≤ 6
  open_exhaustions : (retryOf log operation id).isExhausted = false →
    exhaustionsUnder operation id (retryOf log operation id).anchor (windowOf operation id log) = 0

theorem windowOf_append (log : RetryLog) (event : RetryEvent) :
    windowOf operation id (log ++ [event]) =
      if event.fact.clears operation id = true then []
      else windowOf operation id log ++ [event] := by
  rw [windowOf, List.foldl_append, List.foldl_cons, List.foldl_nil]
  rfl

theorem budgetKept_nil : BudgetKept operation id [] where
  numbered _ := ⟨0, by decide, rfl⟩
  exhausted_once _ := Nat.zero_le 1
  exhausted_after _ before _ _ h _ := by simp at h

theorem Budget.nil : Budget operation id [] where
  kept := budgetKept_nil
  retries_later _ _ := rfl
  exhaustions_later _ _ := rfl
  anchor_le := le_rfl
  open_retries _ := rfl
  open_failure _ := Nat.zero_le 6
  open_exhaustions _ := rfl

/-- A fact that clears the budget opens it again. -/
theorem Budget.clear {log : RetryLog} {event : RetryEvent}
    (hclears : event.fact.clears operation id = true) : Budget operation id (log ++ [event]) := by
  have hwindow : windowOf operation id (log ++ [event]) = [] := by
    rw [windowOf_append, if_pos hclears]
  have hstate : retryOf (log ++ [event]) operation id = ⟨0, none⟩ := by
    rw [retryOf_append, if_pos hclears]
  constructor
  · rw [hwindow]
    exact budgetKept_nil
  · intro anchor _
    rw [hwindow]
    rfl
  · intro anchor _
    rw [hwindow]
    rfl
  · rw [hstate]
    exact Nat.zero_le _
  · rw [hwindow, hstate]
    exact fun _ => rfl
  · rw [hstate]
    exact fun _ => Nat.zero_le 6
  · rw [hwindow, hstate]
    exact fun _ => rfl

theorem retriesUnder_append (anchor : Nat) (window : List RetryEvent) (event : RetryEvent) :
    retriesUnder operation id anchor (window ++ [event]) =
      retriesUnder operation id anchor window ++
        (scheduledUnder operation id anchor event).toList := by
  rw [retriesUnder, List.filterMap_append, retriesUnder]
  cases hretry : scheduledUnder operation id anchor event <;> simp [hretry]

theorem exhaustionsUnder_append (anchor : Nat) (window : List RetryEvent) (event : RetryEvent) :
    exhaustionsUnder operation id anchor (window ++ [event]) =
      exhaustionsUnder operation id anchor window +
        if exhaustedUnder operation id anchor event = true then 1 else 0 := by
  rw [exhaustionsUnder, List.countP_append, List.countP_singleton]
  rfl

/-- One more event, which is numbered next if it is a retry and is the first exhaustion after the
sixth if it is an exhaustion. -/
theorem BudgetKept.append {window : List RetryEvent} (h : BudgetKept operation id window)
    {event : RetryEvent}
    (hscheduled : ∀ anchor failure, scheduledUnder operation id anchor event = some failure →
      failure ≤ 6 ∧ 1 ≤ failure ∧
        retriesUnder operation id anchor window = List.range' 1 (failure - 1))
    (hexhausted : ∀ anchor, exhaustedUnder operation id anchor event = true →
      exhaustionsUnder operation id anchor window = 0 ∧
        retriesUnder operation id anchor window = List.range' 1 6) :
    BudgetKept operation id (window ++ [event]) where
  numbered anchor := by
    rw [retriesUnder_append]
    cases hretry : scheduledUnder operation id anchor event with
    | none =>
      obtain ⟨count, hcount, hretries⟩ := h.numbered anchor
      exact ⟨count, hcount, by rw [hretries, Option.toList_none, List.append_nil]⟩
    | some failure =>
      obtain ⟨hle, hpos, hretries⟩ := hscheduled anchor failure hretry
      refine ⟨failure, hle, ?_⟩
      have hnext : failure = failure - 1 + 1 := by omega
      rw [hretries, Option.toList_some]
      conv_rhs => rw [hnext, List.range'_concat]
      rw [Nat.one_mul, Nat.add_comm 1, ← hnext]
  exhausted_once anchor := by
    rw [exhaustionsUnder_append]
    split
    next hnow =>
      have hnone := (hexhausted anchor hnow).1
      omega
    next => exact h.exhausted_once anchor
  exhausted_after := by
    intro anchor before last after hsplit hlast
    rcases List.eq_nil_or_concat after with rfl | ⟨rest, final, rfl⟩
    · obtain ⟨rfl, hevent⟩ := List.append_inj' hsplit rfl
      cases hevent
      exact (hexhausted anchor hlast).2
    · rw [List.concat_eq_append, ← List.cons_append, ← List.append_assoc] at hsplit
      obtain ⟨hwindow, -⟩ := List.append_inj' hsplit rfl
      exact h.exhausted_after anchor before last rest hwindow hlast

/-- An event that is no retry of the rewrite and does not clear it. -/
theorem Budget.foreign {log : RetryLog} (h : Budget operation id log) {fact : RetryFact}
    (hclears : fact.clears operation id = false)
    (hkept : ∀ note, fact = .retry note → note.isOf operation id = false) :
    Budget operation id (log.append fact) := by
  have hwindow : windowOf operation id (log.append fact) =
      windowOf operation id log ++ [⟨log.length + 1, fact⟩] := by
    rw [RetryLog.append, windowOf_append, if_neg (by simp [hclears])]
  have hscheduled : ∀ anchor, scheduledUnder operation id anchor ⟨log.length + 1, fact⟩ = none := by
    intro anchor
    cases fact with
    | retry note =>
      cases note with
      | scheduled payload retryAt => exact if_neg (by simp [hkept _ rfl])
      | exhausted payload => rfl
    | _ => rfl
  have hexhausted : ∀ anchor,
      exhaustedUnder operation id anchor ⟨log.length + 1, fact⟩ = false := by
    intro anchor
    cases fact with
    | retry note =>
      cases note with
      | scheduled payload retryAt => rfl
      | exhausted payload => simp [exhaustedUnder, hkept _ rfl]
    | _ => rfl
  have hretries : ∀ anchor,
      retriesUnder operation id anchor (windowOf operation id (log.append fact)) =
        retriesUnder operation id anchor (windowOf operation id log) := by
    intro anchor
    rw [hwindow, retriesUnder_append, hscheduled, Option.toList_none, List.append_nil]
  have hexhaustions : ∀ anchor,
      exhaustionsUnder operation id anchor (windowOf operation id (log.append fact)) =
        exhaustionsUnder operation id anchor (windowOf operation id log) := by
    intro anchor
    rw [hwindow, exhaustionsUnder_append, if_neg (by simp [hexhausted]), Nat.add_zero]
  have hlength := log.length_append fact
  -- Either the state stays, or the answer of the escalation opens an anchor that is new.
  have hstate : retryOf (log.append fact) operation id = retryOf log operation id ∨
      retryOf (log.append fact) operation id = ⟨log.length + 1, none⟩ := by
    rw [RetryLog.append, retryOf_append, if_neg (by simp [hclears])]
    cases fact with
    | retry note => exact .inl (if_neg (by simp [hkept note rfl]))
    | answered answer =>
      simp only [noteRetry]
      split
      · exact .inr rfl
      · exact .inl rfl
    | _ => exact .inl rfl
  have hkeptNow : BudgetKept operation id (windowOf operation id (log.append fact)) := by
    rw [hwindow]
    refine h.kept.append (fun anchor failure hsome => ?_) (fun anchor htrue => ?_)
    · rw [hscheduled] at hsome
      cases hsome
    · rw [hexhausted] at htrue
      cases htrue
  have hretriesLater : ∀ anchor, log.length < anchor →
      retriesUnder operation id anchor (windowOf operation id (log.append fact)) = [] :=
    fun anchor hlater => (hretries anchor).trans (h.retries_later anchor hlater)
  have hexhaustionsLater : ∀ anchor, log.length < anchor →
      exhaustionsUnder operation id anchor (windowOf operation id (log.append fact)) = 0 :=
    fun anchor hlater => (hexhaustions anchor).trans (h.exhaustions_later anchor hlater)
  rcases hstate with hstate | hstate
  · refine ⟨hkeptNow, fun anchor hlater => hretriesLater anchor (by omega),
      fun anchor hlater => hexhaustionsLater anchor (by omega), ?_, ?_, ?_, ?_⟩
    · rw [hstate, hlength]
      exact Nat.le_succ_of_le h.anchor_le
    · rw [hstate, hretries]
      exact h.open_retries
    · rw [hstate]
      exact h.open_failure
    · rw [hstate, hexhaustions]
      exact h.open_exhaustions
  · refine ⟨hkeptNow, fun anchor hlater => hretriesLater anchor (by omega),
      fun anchor hlater => hexhaustionsLater anchor (by omega), ?_, ?_, ?_, ?_⟩
    · rw [hstate, hlength]
    · rw [hstate]
      exact fun _ => hretriesLater _ (Nat.lt_succ_self _)
    · rw [hstate]
      exact fun _ => Nat.zero_le 6
    · rw [hstate]
      exact fun _ => hexhaustionsLater _ (Nat.lt_succ_self _)

/-- The failure of a call that read the state as it still is. -/
theorem Budget.record {log : RetryLog} (h : Budget operation id log) {call : Call}
    (hoperation : call.operation = operation) (hid : call.id = id) (error : String) (now : Nat)
    (hopen : (retryOf log operation id).isExhausted = false) :
    Budget operation id
      (log.append (.retry (failureNote call error (retryOf log operation id) now))) := by
  subst hoperation hid
  generalize hstate : retryOf log call.operation call.id = state at hopen
  have hretries := h.open_retries (hstate ▸ hopen)
  have hle := h.open_failure (hstate ▸ hopen)
  have hnone := h.open_exhaustions (hstate ▸ hopen)
  have hbound := h.anchor_le
  rw [hstate] at hretries hle hnone hbound
  generalize hnote : failureNote call error state now = note
  have hkind : (state.failure < 6 ∧ ∃ retryAt, note = .scheduled
        ⟨call.operation, call.id, call.round, state.anchor, error, state.failure + 1⟩ retryAt) ∨
      (state.failure = 6 ∧ note = .exhausted
        ⟨call.operation, call.id, call.round, state.anchor, error, 7⟩) := by
    rw [← hnote, failureNote]
    have hlength : PUBLICATION_RETRY_SECONDS.length = 6 := rfl
    split
    next hmore => exact .inl ⟨by omega, _, rfl⟩
    next hlast => exact .inr ⟨by omega, rfl⟩
  have hpayload : note.isOf call.operation call.id = true ∧ note.payload.anchor = state.anchor := by
    obtain ⟨-, retryAt, rfl⟩ | ⟨-, rfl⟩ := hkind <;>
      exact ⟨by simp [RetryNote.isOf, RetryNote.payload], rfl⟩
  have hclears : ¬(RetryFact.retry note).clears call.operation call.id = true := by
    simp [RetryFact.clears, RetryFact.rewrite?]
  have hnewState : retryOf (log.append (.retry note)) call.operation call.id =
      ⟨state.anchor, some note⟩ := by
    rw [RetryLog.append, retryOf_append, if_neg hclears, hstate]
    exact if_pos hpayload
  have hwindow : windowOf call.operation call.id (log.append (.retry note)) =
      windowOf call.operation call.id log ++ [⟨log.length + 1, .retry note⟩] := by
    rw [RetryLog.append, windowOf_append, if_neg hclears]
  have hlength := log.length_append (.retry note)
  have hscheduled : ∀ anchor,
      scheduledUnder call.operation call.id anchor ⟨log.length + 1, .retry note⟩ =
        if state.failure < 6 ∧ state.anchor = anchor then some (state.failure + 1) else none := by
    intro anchor
    obtain ⟨hmore, retryAt, rfl⟩ | ⟨hlast, rfl⟩ := hkind
    · simp [scheduledUnder, RetryNote.isOf, RetryNote.payload, hmore]
    · rw [if_neg (by omega)]
      rfl
  have hexhausted : ∀ anchor,
      exhaustedUnder call.operation call.id anchor ⟨log.length + 1, .retry note⟩ = true ↔
        state.failure = 6 ∧ state.anchor = anchor := by
    intro anchor
    obtain ⟨hmore, retryAt, rfl⟩ | ⟨hlast, rfl⟩ := hkind
    · simp only [exhaustedUnder, Bool.false_eq_true, false_iff, not_and]
      omega
    · simp [exhaustedUnder, RetryNote.isOf, RetryNote.payload, hlast]
  have hfailure : (⟨state.anchor, some note⟩ : RetryState).isExhausted = false →
      state.failure < 6 ∧ (⟨state.anchor, some note⟩ : RetryState).failure = state.failure + 1 := by
    obtain ⟨hmore, retryAt, rfl⟩ | ⟨hlast, rfl⟩ := hkind
    · exact fun _ => ⟨hmore, rfl⟩
    · exact fun hnot => nomatch hnot
  constructor
  · rw [hwindow]
    refine h.kept.append (fun anchor failure hsome => ?_) (fun anchor htrue => ?_)
    · rw [hscheduled] at hsome
      split at hsome
      next hnow =>
        obtain ⟨hmore, rfl⟩ := hnow
        cases hsome
        exact ⟨hmore, Nat.le_add_left 1 _, hretries⟩
      next => cases hsome
    · obtain ⟨hlast, rfl⟩ := (hexhausted anchor).mp htrue
      exact ⟨hnone, hlast ▸ hretries⟩
  · intro anchor hlater
    rw [hwindow, retriesUnder_append, h.retries_later anchor (by omega), hscheduled,
      if_neg (by omega)]
    rfl
  · intro anchor hlater
    rw [hwindow, exhaustionsUnder_append, h.exhaustions_later anchor (by omega),
      if_neg (by rw [hexhausted]; omega)]
  · rw [hnewState, hlength]
    exact Nat.le_succ_of_le hbound
  · rw [hnewState, hwindow]
    intro hnot
    obtain ⟨hmore, hnext⟩ := hfailure hnot
    rw [retriesUnder_append, hretries, hscheduled, if_pos ⟨hmore, rfl⟩, hnext, List.range'_concat,
      Nat.one_mul, Nat.add_comm 1]
    rfl
  · rw [hnewState]
    intro hnot
    obtain ⟨hmore, hnext⟩ := hfailure hnot
    omega
  · rw [hnewState, hwindow]
    intro hnot
    obtain ⟨hmore, -⟩ := hfailure hnot
    rw [exhaustionsUnder_append, hnone, if_neg (by rw [hexhausted]; omega)]

end Budget

/-! ## 6. Escalations -/

theorem mem_openEscalations {id : String} {log : RetryLog} :
    id ∈ openEscalations log ↔ 0 < openRaises id log := by
  induction log using List.reverseRecOn with
  | nil => simp [openEscalations, openRaises]
  | append_singleton log event ih =>
    rw [openEscalations, List.foldl_append, ← openEscalations, openRaises, List.foldl_append,
      ← openRaises]
    obtain ⟨seq, fact⟩ := event
    cases fact with
    | raised other round question =>
      simp only [List.foldl_cons, List.foldl_nil]
      by_cases hsame : other = id
      · subst hsame
        rw [if_pos rfl]
        refine iff_of_true ?_ (Nat.succ_pos _)
        split
        · assumption
        · exact List.mem_append_right _ List.mem_cons_self
      · rw [if_neg hsame, ← ih]
        split
        · exact Iff.rfl
        · simp [Ne.symm hsame]
    | answered other =>
      simp only [List.foldl_cons, List.foldl_nil, List.mem_filter, ih]
      by_cases hsame : other = id
      · subst hsame
        simp
      · simp [hsame, Ne.symm hsame]
    | _ => exact ih

/-- At most one escalation with the id of an anchor is open. -/
def OneOpen (log : RetryLog) : Prop :=
  ∀ operation id anchor, openRaises (publicationEscalationId operation id anchor) log ≤ 1

theorem OneOpen.append {log : RetryLog} (h : OneOpen log) {fact : RetryFact}
    (hraised : ∀ id round question, fact = .raised id round question →
      (∀ operation rewriteId anchor, id ≠ publicationEscalationId operation rewriteId anchor) ∨
        id ∉ openEscalations log) : OneOpen (log.append fact) := by
  intro operation id anchor
  rw [RetryLog.append, openRaises, List.foldl_append, ← openRaises, List.foldl_cons,
    List.foldl_nil]
  have hone := h operation id anchor
  cases fact with
  | raised other round question =>
    simp only
    split
    next hsame =>
      rcases hraised other round question rfl with hother | hclosed
      · exact absurd hsame (hother operation id anchor)
      · rw [hsame, mem_openEscalations] at hclosed
        omega
    next => exact hone
  | answered other =>
    simp only
    split
    · exact Nat.zero_le 1
    · exact hone
  | _ => exact hone

/-! ## 7. Runs -/

section Runs

variable {operation : PublicationOperation} {id : String}

/-- What the publisher knows where it is.  Nobody else exhausts a budget, so that it is open from
the gate to the append, and as long as nothing clears it the state is the one that was read. -/
def StageOk (operation : PublicationOperation) (id : String) (log : RetryLog) : Stage → Prop
  | .idle | .gating _ _ => True
  | .raising _ _ lastSeq fact => ∃ escalation round question,
      fact = .raised escalation round question ∧
        (log.length = lastSeq → escalation ∉ openEscalations log) ∧ lastSeq ≤ log.length
  | .effecting call | .failing call _ =>
    call.operation = operation → call.id = id → (retryOf log operation id).isExhausted = false
  | .recording call _ state =>
    call.operation = operation → call.id = id →
      (retryOf log operation id).isExhausted = false ∧ state = retryOf log operation id

structure Kept (operation : PublicationOperation) (id : String) (s : Publisher) : Prop where
  budgets : ∀ before, before <+: s.log → Budget operation id before
  open_once : OneOpen s.log
  stage : StageOk operation id s.log s.stage
  started : EffectsAllowed s.started

theorem kept_initial : Kept operation id .initial where
  budgets _ hbefore := List.prefix_nil.mp hbefore ▸ Budget.nil
  open_once _ _ _ := Nat.zero_le 1
  stage := trivial
  started _ _ _ h := absurd h List.not_mem_nil

theorem Kept.budget {s : Publisher} (h : Kept operation id s) : Budget operation id s.log :=
  h.budgets s.log (List.prefix_refl _)

theorem budgets_append {log : RetryLog} {fact : RetryFact}
    (h : ∀ before, before <+: log → Budget operation id before)
    (hnew : Budget operation id (log.append fact)) :
    ∀ before, before <+: log.append fact → Budget operation id before := by
  intro before hbefore
  rcases List.prefix_concat_iff.mp hbefore with rfl | hold
  · exact hnew
  · exact h before hold

/-- An open budget is left as it is, or cleared. -/
theorem retryOf_append_foreign {log : RetryLog} {fact : RetryFact}
    (hopen : (retryOf log operation id).isExhausted = false)
    (hkept : ∀ note, fact = .retry note → note.isOf operation id = false) :
    retryOf (log.append fact) operation id =
      if fact.clears operation id = true then ⟨0, none⟩ else retryOf log operation id := by
  rw [RetryLog.append, retryOf_append]
  refine if_congr Iff.rfl rfl ?_
  cases fact with
  | retry note => exact if_neg (by simp [hkept note rfl])
  | answered answer => exact if_neg (by simp [hopen])
  | _ => rfl

theorem isExhausted_append_foreign {log : RetryLog} {fact : RetryFact}
    (hopen : (retryOf log operation id).isExhausted = false)
    (hkept : ∀ note, fact = .retry note → note.isOf operation id = false) :
    (retryOf (log.append fact) operation id).isExhausted = false := by
  rw [retryOf_append_foreign hopen hkept]
  split
  · rfl
  · exact hopen

theorem budget_append_foreign {log : RetryLog} {fact : RetryFact} (h : Budget operation id log)
    (hkept : ∀ note, fact = .retry note → note.isOf operation id = false) :
    Budget operation id (log.append fact) := by
  cases hclears : fact.clears operation id with
  | false => exact h.foreign hclears hkept
  | true => exact Budget.clear hclears

/-- Another party's fact. -/
theorem Kept.append {s : Publisher} (h : Kept operation id s) {fact : RetryFact}
    (hfact : Foreign fact) (hstraddles : straddles operation id s (.append fact) = false) :
    Kept operation id (retryStep s (.append fact)) := by
  have hkept : ∀ note, fact = .retry note → note.isOf operation id = false := by
    rintro note rfl
    exact hfact.elim
  refine ⟨budgets_append h.budgets (budget_append_foreign h.budget hkept), ?_, ?_, h.started⟩
  · refine h.open_once.append ?_
    rintro other round question rfl
    exact .inl hfact
  · have hstage := h.stage
    simp only [retryStep]
    cases hcurrent : s.stage with
    | idle => trivial
    | gating call beforeEffect => trivial
    | raising call beforeEffect lastSeq raised =>
      rw [hcurrent] at hstage
      obtain ⟨escalation, round, question, hraised, hclosed, hle⟩ := hstage
      have hlength := s.log.length_append fact
      exact ⟨escalation, round, question, hraised, fun hsame => by omega, by omega⟩
    | effecting call =>
      rw [hcurrent] at hstage
      exact fun hoperation hid => isExhausted_append_foreign (hstage hoperation hid) hkept
    | failing call error =>
      rw [hcurrent] at hstage
      exact fun hoperation hid => isExhausted_append_foreign (hstage hoperation hid) hkept
    | recording call error state =>
      rw [hcurrent] at hstage
      intro hoperation hid
      obtain ⟨hopen, hstate⟩ := hstage hoperation hid
      have hclears : ¬fact.clears operation id = true := by
        simpa [straddles, hcurrent, hoperation, hid] using hstraddles
      refine ⟨isExhausted_append_foreign hopen hkept, ?_⟩
      rw [retryOf_append_foreign hopen hkept, if_neg hclears]
      exact hstate

/-- The verdict of the gate. -/
theorem publicationRetryGate_spec (log : RetryLog) (now : Nat) (call : Call) :
    match publicationRetryGate log now call.operation call.id with
    | .raise fact => ∃ escalation round question,
        fact = .raised escalation round question ∧ escalation ∉ openEscalations log
    | .deferred => True
    | .pass => (retryOf log call.operation call.id).isExhausted = false ∧
        ∀ payload retryAt, (retryOf log call.operation call.id).latest =
          some (.scheduled payload retryAt) → retryAt ≤ now := by
  simp only [publicationRetryGate]
  rcases hlatest : (retryOf log call.operation call.id).latest with _ | ⟨payload, retryAt⟩ | payload
  · exact ⟨by simp [RetryState.isExhausted, hlatest], fun _ _ h => nomatch h⟩
  · simp only
    by_cases hearly : now < retryAt
    · rw [if_pos hearly]
      trivial
    · rw [if_neg hearly]
      refine ⟨by simp [RetryState.isExhausted, hlatest], ?_⟩
      rintro other otherAt ⟨⟩
      exact not_lt.mp hearly
  · simp only
    split
    next hverdict =>
      split at hverdict
      · cases hverdict
      next hclosed =>
        cases hverdict
        exact ⟨_, _, _, rfl, hclosed⟩
    · trivial
    next hverdict =>
      split at hverdict
      · cases hverdict
      · cases hverdict

theorem Kept.gate {s : Publisher} (h : Kept operation id s) (now : Nat) :
    Kept operation id (retryStep s (.gate now)) := by
  cases hcurrent : s.stage with
  | gating call beforeEffect =>
    have hverdict := publicationRetryGate_spec s.log now call
    simp only [retryStep, hcurrent]
    cases hgate : publicationRetryGate s.log now call.operation call.id with
    | raise fact =>
      rw [hgate] at hverdict
      obtain ⟨escalation, round, question, hfact, hclosed⟩ := hverdict
      exact ⟨h.budgets, h.open_once, ⟨escalation, round, question, hfact, fun _ => hclosed, le_rfl⟩,
        h.started⟩
    | deferred => exact ⟨h.budgets, h.open_once, trivial, h.started⟩
    | pass =>
      rw [hgate] at hverdict
      simp only
      split
      · refine ⟨h.budgets, h.open_once, ?_, ?_⟩
        · rintro rfl rfl
          exact hverdict.1
        · intro other log time hstarted
          rcases List.mem_append.mp hstarted with hold | hnew
          · exact h.started other log time hold
          · cases List.mem_singleton.mp hnew
            exact hverdict
      · exact ⟨h.budgets, h.open_once, trivial, h.started⟩
  | _ => simpa only [retryStep, hcurrent] using h

theorem Kept.raise {s : Publisher} (h : Kept operation id s) :
    Kept operation id (retryStep s .raise) := by
  cases hcurrent : s.stage with
  | raising call beforeEffect lastSeq fact =>
    have hstage := h.stage
    rw [hcurrent] at hstage
    obtain ⟨escalation, round, question, rfl, hclosed, -⟩ := hstage
    simp only [retryStep, hcurrent]
    split
    next hsame =>
      refine ⟨budgets_append h.budgets
          (budget_append_foreign h.budget fun _ hnote => nomatch hnote),
        h.open_once.append ?_, trivial, h.started⟩
      rintro other _ _ ⟨⟩
      exact .inr (hclosed hsame)
    next => exact ⟨h.budgets, h.open_once, trivial, h.started⟩
  | _ => simpa only [retryStep, hcurrent] using h

theorem Kept.record {s : Publisher} (h : Kept operation id s) (now : Nat) :
    Kept operation id (retryStep s (.record now)) := by
  cases hcurrent : s.stage with
  | recording call error state =>
    have hstage := h.stage
    rw [hcurrent] at hstage
    have hbudget : Budget operation id
        (s.log.append (.retry (failureNote call error state now))) := by
      by_cases hown : call.operation = operation ∧ call.id = id
      · obtain ⟨hopen, rfl⟩ := hstage hown.1 hown.2
        exact h.budget.record hown.1 hown.2 error now hopen
      · refine budget_append_foreign h.budget ?_
        rintro note ⟨⟩
        rw [failureNote]
        simp only [RetryNote.isOf, decide_eq_false_iff_not]
        split <;> exact hown
    simp only [retryStep, hcurrent]
    refine ⟨budgets_append h.budgets hbudget, h.open_once.append ?_, ?_, h.started⟩
    · rintro _ _ _ ⟨⟩
    · simp only
      split <;> trivial
  | _ => simpa only [retryStep, hcurrent] using h

theorem Kept.step {s : Publisher} (h : Kept operation id s) {act : RetryAct}
    (hact : Unstraddled operation id s act) : Kept operation id (retryStep s act) := by
  cases act with
  | append fact => exact h.append hact.1 hact.2
  | gate now => exact h.gate now
  | raise => exact h.raise
  | record now => exact h.record now
  | crash => exact ⟨h.budgets, h.open_once, trivial, h.started⟩
  | call call =>
    cases hcurrent : s.stage with
    | idle =>
      simp only [retryStep, hcurrent]
      exact ⟨h.budgets, h.open_once, trivial, h.started⟩
    | _ => simpa only [retryStep, hcurrent] using h
  | effect outcome =>
    cases hcurrent : s.stage with
    | effecting call =>
      have hstage := h.stage
      rw [hcurrent] at hstage
      simp only [retryStep, hcurrent]
      cases outcome with
      | transient error => exact ⟨h.budgets, h.open_once, hstage, h.started⟩
      | _ => exact ⟨h.budgets, h.open_once, trivial, h.started⟩
    | _ => simpa only [retryStep, hcurrent] using h
  | readFailure =>
    cases hcurrent : s.stage with
    | failing call error =>
      have hstage := h.stage
      rw [hcurrent] at hstage
      simp only [retryStep, hcurrent]
      refine ⟨h.budgets, h.open_once, ?_, h.started⟩
      rintro rfl rfl
      exact ⟨hstage rfl rfl, rfl⟩
    | _ => simpa only [retryStep, hcurrent] using h

theorem kept_of_runs {s : Publisher} (run : RetryRuns (Unstraddled operation id) s) :
    Kept operation id s := by
  induction run with
  | start => exact kept_initial
  | step _ hact ih => exact ih.step hact

theorem windowOf_of_clears {before : RetryLog}
    (h : ∀ event ∈ before.getLast?, event.fact.clears operation id = true) :
    windowOf operation id before = [] := by
  rcases List.eq_nil_or_concat before with rfl | ⟨front, last, rfl⟩
  · rfl
  · rw [List.concat_eq_append] at h ⊢
    rw [windowOf_append, if_pos (h last (by simp))]

theorem windowOf_of_window {before window : RetryLog}
    (hbefore : ∀ event ∈ before.getLast?, event.fact.clears operation id = true)
    (hwindow : ∀ event ∈ window, event.fact.clears operation id = false) :
    windowOf operation id (before ++ window) = window := by
  induction window using List.reverseRecOn with
  | nil => rw [List.append_nil, windowOf_of_clears hbefore]
  | append_singleton window event ih =>
    have hevent := hwindow event (by simp)
    rw [← List.append_assoc, windowOf_append, if_neg (by simp [hevent]),
      ih fun other hother => hwindow other (List.mem_append_left _ hother)]

theorem anchorMoves (log : RetryLog) : AnchorMoves operation id log := by
  intro before event after _ hclears hmoves
  rw [retryOf_append, if_neg (by simp [hclears])] at hmoves ⊢
  obtain ⟨seq, fact⟩ := event
  cases fact with
  | answered answer =>
    simp only [noteRetry] at hmoves ⊢
    split at hmoves
    next hanswers =>
      rw [if_pos hanswers]
      exact ⟨hanswers.1, congrArg _ hanswers.2, rfl⟩
    next => exact absurd rfl hmoves
  | retry note =>
    simp only [noteRetry] at hmoves
    split at hmoves <;> exact absurd rfl hmoves
  | _ => exact absurd rfl hmoves

/-- The budget of every rewrite is kept between the facts that clear it, the anchors move with the
answers, at most one escalation of an anchor is open and no effect starts too early, in every run
in which no clearing fact falls between the read and the append of a failure of the rewrite. -/
theorem publication_retry_budget (operation : PublicationOperation) (id : String) (s : Publisher)
    (run : RetryRuns (Unstraddled operation id) s) :
    (∀ window, Window operation id s.log window → BudgetKept operation id window) ∧
      AnchorMoves operation id s.log ∧ OneOpen s.log ∧ EffectsAllowed s.started := by
  have hkept := kept_of_runs run
  refine ⟨?_, anchorMoves s.log, hkept.open_once, hkept.started⟩
  rintro window ⟨before, after, hlog, hbefore, hwindow⟩
  have hbudget := hkept.budgets (before ++ window) ⟨after, hlog.symm⟩
  have hkeptWindow := hbudget.kept
  rwa [windowOf_of_window hbefore hwindow] at hkeptWindow

/-- One failure of a call. -/
def failedActs (now : Nat) : List RetryAct :=
  [.call ⟨.restack, "r", 1⟩, .gate now, .effect (.transient "down"), .readFailure, .record now]

def failedTwice : Publisher := (failedActs 0 ++ failedActs 30000).foldl retryStep .initial

/-- A call that fails twice, then a completion of its rewrite. -/
theorem publication_retry_budget_of_two :
    failedTwice.log.length = 2 ∧ BudgetKept .restack "r" failedTwice.log := by
  have failed : ∀ (now : Nat) (s : Publisher), RetryRuns (Unstraddled .restack "r") s →
      RetryRuns (Unstraddled .restack "r") ((failedActs now).foldl retryStep s) := by
    intro now s run
    have called := @RetryRuns.step _ _ (.call ⟨.restack, "r", 1⟩) run ⟨trivial, rfl⟩
    have passed := @RetryRuns.step _ _ (.gate now) called ⟨trivial, rfl⟩
    have failed := @RetryRuns.step _ _ (.effect (.transient "down")) passed ⟨trivial, rfl⟩
    have read := @RetryRuns.step _ _ .readFailure failed ⟨trivial, rfl⟩
    exact @RetryRuns.step _ _ (.record now) read ⟨trivial, rfl⟩
  have twice : RetryRuns (Unstraddled .restack "r") failedTwice :=
    failed 30000 _ (failed 0 _ .start)
  have run := @RetryRuns.step _ _ (.append (.restackCompleted "r")) twice ⟨trivial, rfl⟩
  refine ⟨by decide +kernel, (publication_retry_budget .restack "r" _ run).1 _
    ⟨[], [⟨3, .restackCompleted "r"⟩], rfl, ?_, by decide +kernel⟩⟩
  exact fun _ hevent => nomatch hevent

/-! ## 8. A workspace that is released meanwhile -/

/-- The second failure is read while the first is its only retry, and appended after the workspace
was released. -/
def straddledActs : List RetryAct :=
  [.call ⟨.restack, "r", 1⟩, .gate 0, .effect (.transient "down"), .readFailure, .record 0,
    .call ⟨.restack, "r", 1⟩, .gate 30000, .effect (.transient "down"), .readFailure,
    .append .released, .record 30000, .append .released]

theorem budget_not_kept_of_straddled :
    ¬∀ (operation : PublicationOperation) (id : String) (s : Publisher),
      RetryRuns OnePublisher s →
        ∀ window, Window operation id s.log window → BudgetKept operation id window := by
  intro h
  have hallowed : ∀ act ∈ straddledActs, ∀ s, OnePublisher s act := by
    simp [straddledActs, OnePublisher, Foreign]
  have hrun : ∀ (acts : List RetryAct) (s : Publisher), (∀ act ∈ acts, ∀ s, OnePublisher s act) →
      RetryRuns OnePublisher s → RetryRuns OnePublisher (acts.foldl retryStep s) := by
    intro acts
    induction acts with
    | nil => exact fun _ _ run => run
    | cons act acts ih =>
      exact fun s hacts run => ih _
        (fun other hother => hacts other (List.mem_cons_of_mem _ hother))
        (run.step (hacts act List.mem_cons_self s))
  have hkept := h .restack "r" _ (hrun straddledActs _ hallowed .start)
    [⟨3, .retry (.scheduled ⟨.restack, "r", 1, 0, "down", 2⟩ 90000)⟩]
    ⟨[⟨1, .retry (.scheduled ⟨.restack, "r", 1, 0, "down", 1⟩ 30000)⟩, ⟨2, .released⟩],
      [⟨4, .released⟩], rfl, ?_, ?_⟩
  · obtain ⟨count, -, hnumbers⟩ := hkept.numbered 0
    cases count with
    | zero => cases hnumbers
    | succ count =>
      rw [List.range'_succ] at hnumbers
      cases hnumbers
  · rintro event ⟨⟩
    rfl
  · intro event hevent
    rw [List.mem_singleton.mp hevent]
    rfl

end Runs

end Autobuild.PublicationRetry
