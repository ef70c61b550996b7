/-
# Preparing a ticket

Taking a ticket in is an attempt of several durable steps: the intent, the claim, the selection of
a slug, the build, the resolution.  Events of the repository record them, and the attempts that
are not resolved are what recovery works from.

* `TicketPreparation.note`: what an event says of an attempt.
* `preparations`: the attempts without a resolution, by id.
* `unresolved_snoc`: an event changes the attempt it names, and no other.
-/
import Autobuild.Lib.ObjectMap
import Autobuild.Ontology

namespace Autobuild

open ObjectMap

structure TicketPreparation where
  attempt : String
  ticket : TicketRef
  readyState : String
  claimedState : String
  claimed : Bool := false
  slug : Option String := none
  handback : Option String := none
  stage : Option String := none
  error : Option String := none
  recoveryError : Option String := none
  retryAt : Option Nat := none

inductive PreparationOutcome where
  | lostClaim
  | handedBack
  | bounced
  | owned
  | abandoned
  deriving DecidableEq

/-- The `ticket-preparation.*` events. -/
inductive PreparationBody where
  | intended (ticket : TicketRef) (readyState claimedState : String)
  | claimed
  | creationSelected (slug : String)
  | handbackSelected (state : String)
  | failed (stage : String) (claimed : Bool) (handback error : String)
  | recoveryFailed (claimed : Option Bool) (handback preparationError : Option String)
      (error : String) (retryAt : Nat)
  /-- The reason in UTF-16 code units. -/
  | resolved (outcome : PreparationOutcome) (reason : Option (List Nat))

structure PreparationEvent where
  attempt : String
  body : PreparationBody

namespace TicketPreparation

/-- `if (payload.handback) held.handback = payload.handback`, and the like. -/
def orHeld (held next : Option String) : Option String :=
  match next with
  | some text => if text = "" then held else some text
  | none => held

/-- An event on an attempt that is held. -/
def note (held : TicketPreparation) : PreparationBody → TicketPreparation
  | .claimed => { held with claimed := true }
  | .creationSelected slug => { held with slug := some slug }
  | .handbackSelected state => { held with handback := some state }
  | .failed stage claimed handback error =>
    { held with
      claimed := claimed
      error := held.error.or (some error)
      stage := some stage
      handback := some handback }
  | .recoveryFailed claimed handback preparationError error retryAt =>
    { held with
      claimed := held.claimed || claimed.getD false
      handback := orHeld held.handback handback
      error := match preparationError with
        | some text => if text = "" then held.error else held.error.or (some text)
        | none => held.error
      recoveryError := some error
      retryAt := some retryAt }
  | _ => held

end TicketPreparation

def advancePreparations (acc : ObjectMap String TicketPreparation) (event : PreparationEvent) :
    ObjectMap String TicketPreparation :=
  match event.body with
  | .intended ticket readyState claimedState =>
    acc.set event.attempt ⟨event.attempt, ticket, readyState, claimedState, false, none, none, none,
      none, none, none⟩
  | .resolved _ _ => acc.erase event.attempt
  | body =>
    match acc.get? event.attempt with
    | none => acc
    | some held => acc.set event.attempt (held.note body)

/-- Completed attempts leave nothing. -/
def preparations (journal : List PreparationEvent) : ObjectMap String TicketPreparation :=
  journal.foldl advancePreparations ∅

def unresolved (journal : List PreparationEvent) (attempt : String) : Option TicketPreparation :=
  (preparations journal).get? attempt

/-- The attempt an event names, after it. -/
def noteAttempt (held : Option TicketPreparation) (event : PreparationEvent) :
    Option TicketPreparation :=
  match event.body with
  | .intended ticket readyState claimedState =>
    some ⟨event.attempt, ticket, readyState, claimedState, false, none, none, none, none,
      none, none⟩
  | .resolved _ _ => none
  | body => held.map (·.note body)

theorem get?_note {acc : ObjectMap String TicketPreparation} {event : PreparationEvent}
    (body : PreparationBody) (attempt : String) :
    (match acc.get? event.attempt with
      | none => acc
      | some held => acc.set event.attempt (held.note body)).get? attempt
      = if attempt = event.attempt then (acc.get? attempt).map (·.note body)
        else acc.get? attempt := by
  cases hheld : acc.get? event.attempt with
  | none =>
    dsimp only
    split_ifs with hsame
    · rw [hsame, hheld]
      rfl
    · rfl
  | some held =>
    dsimp only
    rw [get?_set]
    split_ifs with hsame
    · rw [hsame, hheld]
      rfl
    · rfl

theorem get?_advancePreparations (acc : ObjectMap String TicketPreparation)
    (event : PreparationEvent) (attempt : String) :
    (advancePreparations acc event).get? attempt
      = if attempt = event.attempt then noteAttempt (acc.get? attempt) event
        else acc.get? attempt := by
  obtain ⟨named, body⟩ := event
  cases body with
  | intended ticket readyState claimedState => exact get?_set _ _ _ _
  | resolved outcome reason => exact get?_erase _ _ _
  | _ => exact get?_note _ attempt

/-- **An event changes the attempt it names.** -/
theorem unresolved_snoc (journal : List PreparationEvent) (event : PreparationEvent)
    (attempt : String) :
    unresolved (journal ++ [event]) attempt
      = if attempt = event.attempt then noteAttempt (unresolved journal attempt) event
        else unresolved journal attempt := by
  unfold unresolved preparations
  rw [List.foldl_append]
  exact get?_advancePreparations _ event attempt

end Autobuild
