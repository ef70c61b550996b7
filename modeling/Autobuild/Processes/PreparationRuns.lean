/-
# Who owns a prepared ticket

One dispatcher at a time takes tickets in and recovers the attempts that were left unresolved, its
own of a moment ago or those of a dispatcher that died.  Every call may take effect and report
failure, and every await may be the last.

* `PreparationEntry`: what happened, in order; the journal and the builds are read off it.
* `PreparationStep`: the dispatcher between its awaits.  Ticket states change freely, so a read
  of one may show anything.
* `Permitted`: what an entry may follow on.
* `preparation_ownership`: in every run every entry is permitted, and no attempt both creates a
  build and hands its ticket back.
-/
import Autobuild.Kernel.TicketPreparation
import Autobuild.Lib.JsText
import Mathlib.Data.List.Induction
import Mathlib.Logic.Relation

namespace Autobuild

/-! ## 1. What happened -/

structure BuildOwner where
  repo : String
  ticket : Option TicketRef

def BuildOwner.Is (owner : BuildOwner) (repo : String) (ticket : TicketRef) : Prop :=
  owner.repo = repo ∧ owner.ticket.map (·.source) = some ticket.source ∧
    owner.ticket.map (·.id) = some ticket.id

instance (owner : BuildOwner) (repo : String) (ticket : TicketRef) :
    Decidable (owner.Is repo ticket) :=
  inferInstanceAs (Decidable (_ ∧ _ ∧ _))

/-- The record of a build, and its `build.created`. -/
structure OwnedBuild where
  record : BuildOwner
  created : Option BuildOwner

def OwnedBuild.Of (build : OwnedBuild) (repo : String) (ticket : TicketRef) : Prop :=
  build.record.Is repo ticket ∧
    match build.created with
    | none => False
    | some created => created.Is repo ticket

instance (build : OwnedBuild) (repo : String) (ticket : TicketRef) :
    Decidable (build.Of repo ticket) := by
  obtain ⟨record, created⟩ := build
  cases created with
  | none => exact inferInstanceAs (Decidable (_ ∧ False))
  | some created => exact inferInstanceAs (Decidable (_ ∧ BuildOwner.Is ..))

inductive PreparationEntry where
  /-- An event is in the journal. -/
  | recorded (event : PreparationEvent)
  /-- `tickets.claim` confirmed. -/
  | claimConfirmed (attempt : String)
  /-- `attempt.slug = slug` -/
  | selected (attempt slug : String)
  | readBuild (attempt slug : String) (build : Option OwnedBuild)
  /-- No ticket, or a ticket with a state or without. -/
  | readTicket (attempt : String) (ref : TicketRef) (state : Option (Option String))
  /-- A recovery transition is issued. -/
  | transition (attempt : String) (ref : TicketRef) (state : String)
  /-- The ticket is bounced for its text. -/
  | bounce (attempt : String)
  /-- The build of an attempt is in the store. -/
  | created (attempt slug : String) (build : OwnedBuild)
  /-- A build of anybody else is. -/
  | foreign (slug : String) (build : OwnedBuild)

namespace PreparationEntry

def event? : PreparationEntry → Option PreparationEvent
  | .recorded event => some event
  | _ => none

def build? (slug : String) : PreparationEntry → Option OwnedBuild
  | .created _ other build => if other = slug then some build else none
  | .foreign other build => if other = slug then some build else none
  | _ => none

def buildRead? (attempt : String) : PreparationEntry → Option (String × Option OwnedBuild)
  | .readBuild other slug build => if other = attempt then some (slug, build) else none
  | _ => none

def ticketRead? (attempt : String) :
    PreparationEntry → Option (TicketRef × Option (Option String))
  | .readTicket other ref state => if other = attempt then some (ref, state) else none
  | _ => none

/-- The ticket of the attempt goes back, or is found back. -/
def HandsBack (attempt : String) : PreparationEntry → Prop
  | .transition other _ _ => other = attempt
  | .bounce other => other = attempt
  | .recorded ⟨other, .resolved .handedBack _⟩ => other = attempt
  | .recorded ⟨other, .resolved .bounced _⟩ => other = attempt
  | _ => False

end PreparationEntry

abbrev PreparationTrace := List PreparationEntry

namespace PreparationTrace

variable (trace : PreparationTrace)

def journal : List PreparationEvent := trace.filterMap (·.event?)

def build (slug : String) : Option OwnedBuild := trace.findSome? (·.build? slug)

def lastBuildRead (attempt : String) : Option (String × Option OwnedBuild) :=
  (trace.filterMap (·.buildRead? attempt)).getLast?

def lastTicketRead (attempt : String) : Option (TicketRef × Option (Option String)) :=
  (trace.filterMap (·.ticketRead? attempt)).getLast?

/-- The attempt recorded that it selected the slug. -/
def Selected (attempt slug : String) : Prop :=
  .recorded ⟨attempt, .creationSelected slug⟩ ∈ trace

def NotCreated (attempt : String) : Prop := ∀ slug build, .created attempt slug build ∉ trace

def NotHandedBack (attempt : String) : Prop := ∀ entry ∈ trace, ¬ entry.HandsBack attempt

end PreparationTrace

/-! ## 2. The dispatcher -/

structure Intake where
  repo : String
  triageState : String
  toLowerCase : String → String
  /-- `resolveTicketRef` under the recorded migrations.  It may throw. -/
  resolve : TicketRef → String → Option TicketRef

/-- The attempt is known to be for another ticket. -/
def Intake.ForOther (intake : Intake) (ticket : TicketRef) (held : TicketPreparation) : Prop :=
  ∃ ref, intake.resolve held.ticket (held.slug.getD held.attempt) = some ref ∧
    ¬ (ref.source = ticket.source ∧ ref.id = ticket.id)

/-- `!this.preparing(ticket)` -/
def Intake.Clear (intake : Intake) (journal : List PreparationEvent) (ticket : TicketRef) : Prop :=
  ∀ attempt held, unresolved journal attempt = some held → intake.ForOther ticket held

/-- What is awaited. -/
inductive DispatchStage where
  | claim
  | lostClaim
  | confirm
  /-- Assets, specification, naming. -/
  | prepare
  | selectHandback
  | bounce
  | bounced
  | select
  | create
  | own
  /-- The append of the failure. -/
  | failing
  deriving DecidableEq

inductive RecoveryStage where
  | start
  | ticket
  | transition (ref : TicketRef)
  | settle (outcome : PreparationOutcome) (reason : Option String)
  | failing

inductive PreparationControl where
  | idle
  /-- At the head of the loop over the ready tickets. -/
  | scanning (ready : List TicketRef)
  | dispatching (stage : DispatchStage) (attempt : TicketPreparation) (ready : List TicketRef)
  | recovering (stage : RecoveryStage) (attempt : TicketPreparation)
      (pending : List TicketPreparation)

namespace TicketPreparation

variable (attempt : TicketPreparation)

def handbackState : String := attempt.handback.getD attempt.readyState

def handbackOutcome : PreparationOutcome :=
  if attempt.handbackState = attempt.readyState then .handedBack else .bounced

def failedAt (stage error : String) : TicketPreparation :=
  { attempt with stage := some stage, error := some error }

/-- The build an attempt creates. -/
def ownBuild (repo : String) : OwnedBuild :=
  ⟨⟨repo, some attempt.ticket⟩, some ⟨repo, some attempt.ticket⟩⟩

/-- `reason.slice(0, 4000)` -/
def recordedReason (reason : String) : List Nat := (JsText.codeUnits reason).take 4000

/-- What the read of the ticket decides. -/
def afterTicket (toLowerCase : String → String) (ref : TicketRef) :
    Option (Option String) → RecoveryStage
  | none => .settle .abandoned (some "Ticket no longer exists; ticket unchanged.")
  | some none => .settle .abandoned (some ("Ticket state is unavailable; ticket unchanged. " ++
      "Inspect the provider record before manually retrying."))
  | some (some state) =>
    if toLowerCase state = toLowerCase attempt.handbackState then
      .settle attempt.handbackOutcome none
    else if attempt.claimed = false then
      .settle .abandoned (some ("Claim outcome uncertain: the claim request did not confirm and " ++
        "the provider may have applied it; ticket observed in state " ++ state ++
        "; ticket unchanged. Inspect ownership before manually retrying. Original failure: " ++
        attempt.error.getD "unknown"))
    else if toLowerCase state ≠ toLowerCase attempt.claimedState then
      .settle .abandoned (some ("Confirmed claim but ticket externally changed to state " ++
        state ++ "; ticket unchanged. Inspect ownership before manually retrying. " ++
        "Original failure: " ++ attempt.error.getD "unknown"))
    else .transition ref

/-- What the read of the build decides. -/
def afterBuild (repo slug : String) : Option OwnedBuild → RecoveryStage
  | none => .ticket
  | some build =>
    if build.Of repo attempt.ticket then .settle .owned none
    else .settle .abandoned (some ("Conflicting build ownership at " ++ slug ++
      "; ticket unchanged. Inspect ownership before manually retrying. Original failure: " ++
      attempt.error.getD "unknown"))

end TicketPreparation

namespace DispatchStage

/-- The event whose append is awaited. -/
def event? (attempt : TicketPreparation) : DispatchStage → Option PreparationBody
  | .lostClaim => some (.resolved .lostClaim none)
  | .confirm => some .claimed
  | .selectHandback => attempt.handback.map .handbackSelected
  | .bounced => some (.resolved .bounced none)
  | .select => attempt.slug.map .creationSelected
  | .own => some (.resolved .owned none)
  | .failing => some (.failed (attempt.stage.getD "") attempt.claimed attempt.handbackState
      (attempt.error.getD ""))
  | _ => none

/-- On from a confirmed append. -/
def next (attempt : TicketPreparation) (ready : List TicketRef) :
    DispatchStage → PreparationControl
  | .confirm => .dispatching .prepare attempt ready
  | .selectHandback => .dispatching .bounce attempt ready
  | .select => .dispatching .create attempt ready
  | .failing => .recovering .start attempt []
  | _ => .scanning ready

/-- On from a failure.  After the creation it ends the tick, and the failure of the diagnostic
append does not keep the recovery back. -/
def thrown (attempt : TicketPreparation) (ready : List TicketRef) (stage error : String) :
    DispatchStage → PreparationControl
  | .own => .idle
  | .failing => .recovering .start attempt []
  | _ => .dispatching .failing (attempt.failedAt stage error) ready

end DispatchStage

/-- The next attempt of the batch. -/
def nextRecovery : List TicketPreparation → PreparationControl
  | [] => .idle
  | attempt :: pending => .recovering .start attempt pending

inductive CallOutcome where
  | done
  /-- It took effect and reported failure. -/
  | lost
  | failed

def CallOutcome.tookEffect : CallOutcome → Bool
  | .failed => false
  | _ => true

def CallOutcome.confirmed : CallOutcome → Bool
  | .done => true
  | _ => false

structure PreparationSystem where
  trace : PreparationTrace := []
  control : PreparationControl := .idle

/-- An append to the journal, with its outcome. -/
def PreparationTrace.record (trace : PreparationTrace) (outcome : CallOutcome)
    (event : PreparationEvent) : PreparationTrace :=
  if outcome.tookEffect then trace ++ [.recorded event] else trace

inductive PreparationStep (intake : Intake) (system : PreparationSystem) :
    PreparationSystem → Prop
  | scan (ready : List TicketRef) : system.control = .idle →
      (∀ ticket ∈ ready, intake.Clear system.trace.journal ticket) →
      PreparationStep intake system { system with control := .scanning ready }
  /-- A gate turns the ticket away. -/
  | skip {ticket : TicketRef} {ready : List TicketRef} :
      system.control = .scanning (ticket :: ready) →
      PreparationStep intake system { system with control := .scanning ready }
  | begin {ticket : TicketRef} {ready : List TicketRef}
      (attempt readyState claimedState : String) (outcome : CallOutcome) :
      system.control = .scanning (ticket :: ready) →
      (∀ event ∈ system.trace.journal, event.attempt ≠ attempt) →
      PreparationStep intake system
        { trace := system.trace.record outcome ⟨attempt, .intended ticket readyState claimedState⟩
          control := if outcome.confirmed then .dispatching .claim
              { attempt := attempt, ticket := ticket, readyState := readyState
                claimedState := claimedState } ready
            else .idle }
  | claim {attempt : TicketPreparation} {ready : List TicketRef} :
      system.control = .dispatching .claim attempt ready →
      PreparationStep intake system
        { trace := system.trace ++ [.claimConfirmed attempt.attempt]
          control := .dispatching .confirm { attempt with claimed := true } ready }
  | loseClaim {attempt : TicketPreparation} {ready : List TicketRef} :
      system.control = .dispatching .claim attempt ready →
      PreparationStep intake system
        { system with control := .dispatching .lostClaim attempt ready }
  | nonconforming {attempt : TicketPreparation} {ready : List TicketRef} :
      system.control = .dispatching .prepare attempt ready →
      PreparationStep intake system
        { system with
          control := .dispatching .selectHandback
            { attempt with handback := some intake.triageState } ready }
  /-- `uniqueSlug` -/
  | name {attempt : TicketPreparation} {ready : List TicketRef} (slug : String) :
      system.control = .dispatching .prepare attempt ready → slug ≠ "" →
      system.trace.build slug = none →
      PreparationStep intake system
        { trace := system.trace ++ [.selected attempt.attempt slug]
          control := .dispatching .select { attempt with slug := some slug } ready }
  | bounce {attempt : TicketPreparation} {ready : List TicketRef} (outcome : CallOutcome)
      (error : String) : system.control = .dispatching .bounce attempt ready →
      PreparationStep intake system
        { trace := system.trace ++ [.bounce attempt.attempt]
          control := if outcome.confirmed then .dispatching .bounced attempt ready
            else DispatchStage.bounce.thrown attempt ready "bounce" error }
  | create {attempt : TicketPreparation} {ready : List TicketRef} {slug : String}
      (outcome : CallOutcome) (error : String) :
      system.control = .dispatching .create attempt ready → attempt.slug = some slug →
      system.trace.build slug = none →
      PreparationStep intake system
        { trace := system.trace ++ [.created attempt.attempt slug (attempt.ownBuild intake.repo)]
          control := if outcome.confirmed then .dispatching .own attempt ready
            else DispatchStage.create.thrown attempt ready "create-build" error }
  /-- A call fails without effect. -/
  | throws {stage : DispatchStage} {attempt : TicketPreparation} {ready : List TicketRef}
      (name error : String) : system.control = .dispatching stage attempt ready →
      PreparationStep intake system
        { system with control := stage.thrown attempt ready name error }
  | append {stage : DispatchStage} {attempt : TicketPreparation} {ready : List TicketRef}
      {body : PreparationBody} (outcome : CallOutcome) (name error : String) :
      system.control = .dispatching stage attempt ready → stage.event? attempt = some body →
      PreparationStep intake system
        { trace := system.trace.record outcome ⟨attempt.attempt, body⟩
          control := if outcome.confirmed then stage.next attempt ready
            else stage.thrown attempt ready name error }
  /-- A batch of attempts that are due. -/
  | recover (batch : List TicketPreparation) : system.control = .idle →
      (∀ attempt ∈ batch, unresolved system.trace.journal attempt.attempt = some attempt) →
      PreparationStep intake system { system with control := nextRecovery batch }
  | readBuild {attempt : TicketPreparation} {pending : List TicketPreparation} {slug : String} :
      system.control = .recovering .start attempt pending → attempt.slug = some slug → slug ≠ "" →
      PreparationStep intake system
        { trace := system.trace ++ [.readBuild attempt.attempt slug (system.trace.build slug)]
          control := .recovering
            (attempt.afterBuild intake.repo slug (system.trace.build slug)) attempt pending }
  | noSlug {attempt : TicketPreparation} {pending : List TicketPreparation} :
      system.control = .recovering .start attempt pending →
      attempt.slug = none ∨ attempt.slug = some "" →
      PreparationStep intake system
        { system with control := .recovering .ticket attempt pending }
  | readTicket {attempt : TicketPreparation} {pending : List TicketPreparation} {ref : TicketRef}
      (state : Option (Option String)) :
      system.control = .recovering .ticket attempt pending →
      intake.resolve attempt.ticket (attempt.slug.getD attempt.attempt) = some ref →
      PreparationStep intake system
        { trace := system.trace ++ [.readTicket attempt.attempt ref state]
          control := .recovering (attempt.afterTicket intake.toLowerCase ref state) attempt
            pending }
  | transition {attempt : TicketPreparation} {pending : List TicketPreparation} {ref : TicketRef}
      (outcome : CallOutcome) :
      system.control = .recovering (.transition ref) attempt pending →
      PreparationStep intake system
        { trace := system.trace ++ [.transition attempt.attempt ref attempt.handbackState]
          control := .recovering
            (if outcome.confirmed then .settle attempt.handbackOutcome none else .failing)
            attempt pending }
  | settle {attempt : TicketPreparation} {pending : List TicketPreparation}
      {resolution : PreparationOutcome} {reason : Option String} (outcome : CallOutcome) :
      system.control = .recovering (.settle resolution reason) attempt pending →
      PreparationStep intake system
        { trace := system.trace.record outcome
            ⟨attempt.attempt, .resolved resolution (reason.map TicketPreparation.recordedReason)⟩
          control := if outcome.confirmed then nextRecovery pending
            else .recovering .failing attempt pending }
  | recoveryThrows {stage : RecoveryStage} {attempt : TicketPreparation}
      {pending : List TicketPreparation} :
      system.control = .recovering stage attempt pending →
      PreparationStep intake system
        { system with control := .recovering .failing attempt pending }
  | recordFailure {attempt : TicketPreparation} {pending : List TicketPreparation}
      (outcome : CallOutcome) (error : String) (retryAt : Nat) :
      system.control = .recovering .failing attempt pending →
      PreparationStep intake system
        { trace := system.trace.record outcome ⟨attempt.attempt, .recoveryFailed
            (some attempt.claimed) (some attempt.handbackState) attempt.error error retryAt⟩
          control := nextRecovery pending }
  /-- The tick ends, or the dispatcher dies. -/
  | stop : PreparationStep intake system { system with control := .idle }
  | foreign (slug : String) (build : OwnedBuild) : system.trace.build slug = none →
      PreparationStep intake system
        { system with trace := system.trace ++ [.foreign slug build] }

def PreparationRun (intake : Intake) (system : PreparationSystem) : Prop :=
  Relation.ReflTransGen (PreparationStep intake) {} system

/-! ## 3. What an entry may follow on -/

/-- What was before an entry. -/
def Permitted (intake : Intake) (before : PreparationTrace) : PreparationEntry → Prop
  | .transition attempt ref _ =>
    .claimConfirmed attempt ∈ before ∧
      (∀ slug, before.Selected attempt slug → before.lastBuildRead attempt = some (slug, none)) ∧
      (∃ ticket readyState claimedState state,
        .recorded ⟨attempt, .intended ticket readyState claimedState⟩ ∈ before ∧
          before.lastTicketRead attempt = some (ref, some (some state)) ∧
          intake.toLowerCase state = intake.toLowerCase claimedState) ∧
      before.NotCreated attempt
  | .bounce attempt =>
    (∃ ticket readyState claimedState,
      .recorded ⟨attempt, .intended ticket readyState claimedState⟩ ∈ before) ∧
      before.NotCreated attempt
  | .created attempt _ _ => before.NotHandedBack attempt
  | .recorded ⟨_, .intended ticket _ _⟩ => intake.Clear before.journal ticket
  | .recorded ⟨attempt, .resolved .owned _⟩ =>
    ∃ slug build ticket readyState claimedState, .selected attempt slug ∈ before ∧
      .recorded ⟨attempt, .intended ticket readyState claimedState⟩ ∈ before ∧
      before.build slug = some build ∧ build.Of intake.repo ticket
  | .recorded ⟨attempt, .resolved .handedBack _⟩ => before.NotCreated attempt
  | .recorded ⟨attempt, .resolved .bounced _⟩ => before.NotCreated attempt
  | _ => True

end Autobuild
