/-
# The budget of dispatch failures

`ensureDispatchBudget` reads the reduced budget of a build, raises an escalation when it is used up,
and appends it only if the log has not moved; a lost append is decided again.

* `stepBudget` is one step of any number of callers and of anybody else who appends.
* `LimitOpenAt`, `LimitAborted` and `FailuresSince` say of a log what the reducer counts.
-/
import Autobuild.Events.Catalog
import Mathlib.Data.List.Induction

namespace Autobuild

/-! ## 1. The reducer -/

structure DispatchBudgetAccumulator where
  failures : List DispatchFailed := []
  openIds : List String := []
  aborted : Bool := false

/-- A raise of the limit, with its id. -/
def AbEvent.limitRaised? (event : AbEvent) : Option String :=
  match event.body with
  | .escalationRaised payload =>
    if payload.source = .policy ∧ payload.policyCause = some .dispatchFailureLimit
    then some payload.id else none
  | _ => none

def foldDispatchBudget (infrastructureOwnsWorkspace : Bool) (acc : DispatchBudgetAccumulator)
    (event : AbEvent) : DispatchBudgetAccumulator :=
  match event.body with
  | .runner .attached => { acc with failures := [] }
  | .escalationRaised payload =>
    if payload.source = .policy ∧ payload.policyCause = some .dispatchFailureLimit then
      if payload.id ∈ acc.openIds then acc
      else { acc with openIds := acc.openIds ++ [payload.id] }
    else acc
  | .escalationAnswered payload =>
    if payload.id ∈ acc.openIds then
      let answered : DispatchBudgetAccumulator :=
        { acc with openIds := acc.openIds.filter fun id => id ≠ payload.id }
      if payload.resolution ≠ .abort then { answered with failures := [] }
      else { answered with aborted := true }
    else acc
  | .dispatchFailed payload =>
    if infrastructureOwnsWorkspace ∧ payload.stage = "workspace" then acc
    else { acc with failures := acc.failures ++ [payload] }
  | _ => acc

structure DispatchBudget where
  count : Nat
  latest : Option DispatchFailed
  parked : Bool

def finishDispatchBudget (acc : DispatchBudgetAccumulator) : DispatchBudget where
  count := acc.failures.length
  latest := acc.failures.getLast?
  parked := acc.aborted || decide (acc.openIds.length > 0)

def budgetAcc (infrastructureOwnsWorkspace : Bool) (events : List AbEvent) :
    DispatchBudgetAccumulator := events.foldl (foldDispatchBudget infrastructureOwnsWorkspace) {}

/-- `dispatchFailureBudget`. -/
def dispatchFailureBudget (infrastructureOwnsWorkspace : Bool) (events : List AbEvent) :
    DispatchBudget := finishDispatchBudget (budgetAcc infrastructureOwnsWorkspace events)

/-! ## 2. Callers -/

/-- What a caller is given; the schema of the policy takes positive limits only. -/
structure DispatchLimit where
  maxAttempts : Nat
  positive : 0 < maxAttempts
  infrastructureOwnsWorkspace : Bool

inductive BudgetVerdict where
  | refuse
  | proceed
  | raise (failure : DispatchFailed)

/-- What a caller makes of the budget it read. -/
def DispatchLimit.decide (limit : DispatchLimit) (budget : DispatchBudget) : BudgetVerdict :=
  if budget.parked then .refuse
  else
    match budget.latest with
    | none => .proceed
    | some failure => if budget.count < limit.maxAttempts then .proceed else .raise failure

def DispatchLimit.raisedEvent (limit : DispatchLimit) (seq ts : Nat) (id : String)
    (failure : DispatchFailed) : AbEvent where
  seq := seq
  ts := ts
  actor := .dispatcher
  body := .escalationRaised
    { id := id
      phase := .setup
      round := none
      source := .policy
      policyCause := some .dispatchFailureLimit
      question := s!"maxDispatchAttempts ({limit.maxAttempts}) exhausted during {failure.stage}: "
        ++ failure.error
      refs := some [] }

/-- How far a call of `ensureDispatchBudget` is. -/
inductive BudgetStage where
  | reading
  /-- The budget of the log up to `cursor`. -/
  | read (budget : DispatchBudget) (cursor : Nat)
  | refused
  /-- Told to proceed on the log up to `cursor`. -/
  | proceeds (cursor : Nat)
  /-- Refused, having raised the escalation that follows `cursor` events. -/
  | raised (cursor : Nat)

structure BudgetCall where
  limit : DispatchLimit
  stage : BudgetStage

structure BudgetSystem where
  log : List AbEvent := []
  calls : List BudgetCall := []

inductive BudgetMove where
  /-- Somebody else appends; only a call of `ensureDispatchBudget` raises the limit. -/
  | outside (event : AbEvent) (other : event.limitRaised? = none)
  | call (limit : DispatchLimit)
  | read (index : Nat)
  /-- A call acts on what it read: it returns, or appends if the log is still the one it read. -/
  | act (index : Nat) (ts : Nat) (id : String)

namespace BudgetSystem

variable (system : BudgetSystem)

def setStage (index : Nat) (stage : BudgetStage) : BudgetSystem :=
  { system with calls := system.calls.modify index fun call => { call with stage := stage } }

def readBudget (index : Nat) : BudgetSystem :=
  match system.calls[index]? with
  | some ⟨limit, .reading⟩ =>
    system.setStage index
      (.read (dispatchFailureBudget limit.infrastructureOwnsWorkspace system.log) system.log.length)
  | _ => system

def act (index ts : Nat) (id : String) : BudgetSystem :=
  match system.calls[index]? with
  | some ⟨limit, .read budget cursor⟩ =>
    match limit.decide budget with
    | .refuse => system.setStage index .refused
    | .proceed => system.setStage index (.proceeds cursor)
    | .raise failure =>
      if system.log.length = cursor then
        { system with log := system.log ++ [limit.raisedEvent (cursor + 1) ts id failure] }.setStage
          index (.raised cursor)
      else system.setStage index .reading
  | _ => system

end BudgetSystem

def stepBudget (system : BudgetSystem) : BudgetMove → BudgetSystem
  | .outside event _ => { system with log := system.log ++ [event] }
  | .call limit => { system with calls := system.calls ++ [⟨limit, .reading⟩] }
  | .read index => system.readBudget index
  | .act index ts id => system.act index ts id

def runBudget (moves : List BudgetMove) : BudgetSystem := moves.foldl stepBudget {}

/-! ## 3. What a log says -/

/-- The event answers escalation `id`. -/
def AbEvent.answers (event : AbEvent) (id : String) : Prop :=
  ∃ payload, event.body = .escalationAnswered payload ∧ payload.id = id

/-- The raise at `index` is not answered yet. -/
def LimitOpenAt (log : List AbEvent) (index : Nat) (id : String) : Prop :=
  (∃ event, log[index]? = some event ∧ event.limitRaised? = some id) ∧
    ∀ event ∈ log.drop (index + 1), ¬event.answers id

def LimitOpen (log : List AbEvent) (id : String) : Prop := ∃ index, LimitOpenAt log index id

/-- An open limit was answered with an abort. -/
def LimitAborted (log : List AbEvent) : Prop :=
  ∃ index payload, (log[index]?.map (·.body)) = some (.escalationAnswered payload) ∧
    payload.resolution = .abort ∧ LimitOpen (log.take index) payload.id

/-- After `before`, the event starts the count again: an attachment, or an answer to an open limit
other than an abort. -/
def StartsBudget (before : List AbEvent) (event : AbEvent) : Prop :=
  event.body = .runner .attached ∨
    ∃ payload, event.body = .escalationAnswered payload ∧ payload.resolution ≠ .abort ∧
      LimitOpen before payload.id

def AbEvent.failsDispatch (infrastructureOwnsWorkspace : Bool) (event : AbEvent) : Bool :=
  match event.body with
  | .dispatchFailed payload => !(infrastructureOwnsWorkspace && payload.stage = "workspace")
  | _ => false

/-- There are `count` counted failures since the count last started. -/
def FailuresSince (infrastructureOwnsWorkspace : Bool) (log : List AbEvent) (count : Nat) : Prop :=
  ∃ before since, log = before ++ since ∧
    (∀ part event rest, since = part ++ event :: rest → ¬StartsBudget (before ++ part) event) ∧
    (since.filter (·.failsDispatch infrastructureOwnsWorkspace)).length = count ∧
    (before = [] ∨ ∃ earlier event, before = earlier ++ [event] ∧ StartsBudget earlier event)

end Autobuild
