/-
# The reducers fold a parent as `ParentFacts.note` says

The projection of a log keeps where a node stands, its ledger what was asked and accepted; a move
reads both (`BuildAcc.parentFacts`).

* `advanceNodeRestackEvent_moves`: what an event does to the ledger's request and change.
* `foldFacts_place`: what it does to the target and the base branch.
* `foldEvent_parentFacts`, `foldlM_foldEvent_parentFacts`: `ParentFacts.note` is both.
-/
import Autobuild.Kernel.Incremental
import Autobuild.Kernel.NodeFacts
import Autobuild.Kernel.NodeParent

namespace Autobuild

open Checked

/-! ## 1. The two parts -/

structure NodePlace where
  kind : Option BuildKind
  nodeOpened : Bool
  target : Option BuildTarget
  baseBranch : Option String

structure NodeMoves where
  request : Option ParentChange
  change : Option ParentChange

def NodePlace.note (place : NodePlace) : EventBody → NodePlace
  | .build (.created payload) =>
    { place with
      kind := payload.kind, target := payload.target, baseBranch := some payload.baseBranch }
  | .node (.opened _) => { place with nodeOpened := true }
  | .node (.parentAccepted move) =>
    if place.kind = some .node then
      { place with target := move.next.target, baseBranch := some move.next.branch }
    else place
  | _ => place

def NodeMoves.note (moves : NodeMoves) : EventBody → NodeMoves
  | .node (.parentRequested request) => { moves with request := some request }
  | .node (.parentAccepted move) => ⟨none, some move⟩
  | .node (.parentCancelled id _) => { moves with request := moves.request.filter (·.id ≠ id) }
  | .node (.parentCompleted id) => { moves with change := moves.change.filter (·.id ≠ id) }
  | _ => moves

def ParentFacts.place (facts : ParentFacts) : NodePlace :=
  ⟨facts.kind, facts.nodeOpened, facts.target, facts.baseBranch⟩

def ParentFacts.moves (facts : ParentFacts) : NodeMoves :=
  ⟨facts.parentRequest, facts.parentChange⟩

theorem ParentFacts.ext_parts {facts facts' : ParentFacts} (hplace : facts.place = facts'.place)
    (hmoves : facts.moves = facts'.moves) : facts = facts' := by
  cases facts
  cases facts'
  cases hplace
  cases hmoves
  rfl

theorem ParentFacts.note_place (facts : ParentFacts) (body : EventBody) :
    (facts.note body).place = facts.place.note body := by
  cases body with
  | build body => cases body <;> rfl
  | node body =>
    cases body with
    | parentAccepted move =>
      by_cases h : facts.kind = some .node <;>
        simp [ParentFacts.note, ParentFacts.accept, ParentFacts.place, NodePlace.note, h]
    | _ => rfl
  | _ => rfl

theorem ParentFacts.note_moves (facts : ParentFacts) (body : EventBody) :
    (facts.note body).moves = facts.moves.note body := by
  cases body with
  | build body => cases body <;> rfl
  | node body => cases body <;> rfl
  | _ => rfl

/-! ## 2. The ledger -/

section Ledger

variable {state next : NodeRestackState} {seq : Nat}

def NodeRestackState.moves (state : NodeRestackState) : NodeMoves :=
  ⟨state.parentRequest, state.parentChange⟩

theorem reserveWriter_moves {payload : NodeWriterReserved}
    (h : state.reserveWriter seq payload = .ok next) : next.moves = state.moves := by
  unfold NodeRestackState.reserveWriter at h
  split at h
  · exact nomatch h
  · cases h
    rfl

theorem prepareItem_moves {payload : NodeItemPrepared} (h : state.prepareItem payload = .ok next) :
    next.moves = state.moves := by
  unfold NodeRestackState.prepareItem at h
  split at h
  · exact nomatch h
  · split_ifs at h
    cases h
    rfl

theorem conflictItem_moves {payload : NodeItemConflicted}
    (h : state.conflictItem payload = .ok next) : next.moves = state.moves := by
  unfold NodeRestackState.conflictItem at h
  split at h
  · exact nomatch h
  · split_ifs at h
    cases h
    rfl

theorem replayItem_moves {payload : NodeItemReplayed} (h : state.replayItem payload = .ok next) :
    next.moves = state.moves := by
  unfold NodeRestackState.replayItem at h
  split at h
  · cases h
    rfl
  · split at h
    · cases h
      rfl
    · split at h
      · exact nomatch h
      · split_ifs at h
        cases h
        rfl

theorem intendPublish_moves {payload : NodePublishIntended}
    (h : state.intendPublish payload = .ok next) : next.moves = state.moves := by
  unfold NodeRestackState.intendPublish at h
  split at h
  · exact nomatch h
  · split_ifs at h
    cases h
    rfl

theorem confirmRewrite_moves {payload : NodeRewritten}
    (h : state.confirmRewrite payload = .ok next) : next.moves = state.moves := by
  unfold NodeRestackState.confirmRewrite at h
  split at h
  · rename_i _ active _ _
    split_ifs at h
    cases h
    cases active.operation <;> rfl
  · exact nomatch h

theorem settleWriter_moves {payload : NodeWriterSettled}
    (h : state.settleWriter payload = .ok next) : next.moves = state.moves := by
  unfold NodeRestackState.settleWriter at h
  split at h
  · exact nomatch h
  · split_ifs at h <;> cases h <;> rfl

theorem noteInventory_moves (state : NodeRestackState) (payload : NodeInventory) :
    (state.noteInventory payload).moves = state.moves := by
  unfold NodeRestackState.noteInventory
  cases state.contributionBase <;> rfl

/-- A request, its acceptance, its cancellation and the completion move the ledger; no other event
does. -/
theorem advanceNodeRestackEvent_moves {body : EventBody}
    (h : advanceNodeRestackEvent state seq body = .ok next) :
    next.moves = state.moves.note body := by
  cases body with
  | node body =>
    cases body with
    | writerReserved payload => exact reserveWriter_moves h
    | itemPrepared payload => exact prepareItem_moves h
    | itemConflicted payload => exact conflictItem_moves h
    | itemReplayed payload => exact replayItem_moves h
    | publishIntended payload => exact intendPublish_moves h
    | rewritten payload => exact confirmRewrite_moves h
    | writerSettled payload => exact settleWriter_moves h
    | inventory payload =>
      cases h
      exact noteInventory_moves state payload
    | _ =>
      cases h
      rfl
  | target body => cases body <;> cases h <;> rfl
  | _ =>
    cases h
    rfl

/-- The moves of a ledger that may not have begun. -/
def movesOf (nodeRestack : Option NodeRestackState) : NodeMoves :=
  (nodeRestack.getD {}).moves

theorem nodeRestackAfter_moves {kind : Option BuildKind}
    {nodeRestack nodeRestack' : Option NodeRestackState} {event : AbEvent}
    (h : nodeRestackAfter kind nodeRestack event = .ok nodeRestack') :
    movesOf nodeRestack' = (movesOf nodeRestack).note event.body := by
  unfold nodeRestackAfter at h
  split_ifs at h with hreaches
  · obtain ⟨advanced, hadvanced, h⟩ := bind_eq_ok.mp h
    cases h
    unfold advanceNodeRestack at hadvanced
    rw [List.foldlM_cons] at hadvanced
    obtain ⟨next, hnext, hadvanced⟩ := bind_eq_ok.mp hadvanced
    cases hadvanced
    exact advanceNodeRestackEvent_moves hnext
  · cases h
    -- the ledger sees every event that moves it
    generalize event.body = body at hreaches
    cases body with
    | node body => exact absurd rfl hreaches
    | _ => rfl

end Ledger

/-! ## 3. The projection -/

section Projection

variable (acc : BuildAcc)

def NodeFacts.place (facts : NodeFacts) : NodePlace :=
  ⟨facts.kind, facts.nodeOpened.isSome, facts.target, facts.baseBranch⟩

def BuildAcc.place (acc : BuildAcc) : NodePlace := acc.toNodeFacts.place

theorem foldNodeEvent_place (seq ts : Nat) (body : NodeEvent) :
    (foldNodeEvent acc seq ts body).place = acc.place.note (.node body) := by
  cases body with
  | parentAccepted payload =>
    by_cases h : acc.kind = some .node <;>
      simp [foldNodeEvent, acceptNodeParent, BuildAcc.place, NodeFacts.place, NodePlace.note, h]
  | _ => rfl

/-- The creation, the opening and an accepted move place a node; no other event does. -/
theorem foldFacts_place (event : AbEvent) :
    (foldFacts acc event).place = acc.place.note event.body := by
  cases hon : onNode event.body with
  | false =>
    have hnote : acc.place.note event.body = acc.place := by
      generalize event.body = body at hon
      cases body with
      | build body => cases body <;> first | rfl | cases hon
      | node body => cases hon
      | _ => rfl
    rw [hnote]
    exact congrArg NodeFacts.place (foldFacts_nodeFacts acc hon)
  | true =>
    obtain ⟨seq, ts, actor, body⟩ := event
    cases body with
    | build body => cases body <;> rfl
    | node body => exact foldNodeEvent_place acc seq ts body
    | _ => cases hon

theorem foldActivity_place (event : AbEvent) : (foldActivity acc event).place = acc.place := by
  obtain ⟨seq, ts, actor, body⟩ := event
  cases body with
  | build body => cases body <;> rfl
  | target body => cases body <;> rfl
  | node body => cases body <;> rfl
  | _ => rfl

end Projection

/-! ## 4. Logs -/

/-- What a move reads of the reduced state. -/
def BuildAcc.parentFacts (acc : BuildAcc) : ParentFacts where
  kind := acc.kind
  nodeOpened := acc.nodeOpened.isSome
  target := acc.target
  baseBranch := acc.baseBranch
  parentRequest := (acc.nodeRestack.getD {}).parentRequest
  parentChange := (acc.nodeRestack.getD {}).parentChange

theorem foldEvent_place {acc next : BuildAcc} {event : AbEvent}
    (h : foldEvent acc event = .ok next) : next.place = acc.place.note event.body := by
  unfold foldEvent at h
  obtain ⟨nodeRestack, -, h⟩ := bind_eq_ok.mp h
  rw [← Except.ok.inj h]
  refine (foldFacts_place _ event).trans ?_
  refine congrArg (NodePlace.note · event.body) ?_
  exact (congrArg NodeFacts.place (foldSuperseded_nodeFacts _ event.body)).trans
    (foldActivity_place acc event)

/-- **One event.** -/
theorem foldEvent_parentFacts {acc next : BuildAcc} {event : AbEvent}
    (h : foldEvent acc event = .ok next) :
    next.parentFacts = acc.parentFacts.note event.body := by
  refine ParentFacts.ext_parts ?_ ?_
  · rw [ParentFacts.note_place]
    exact foldEvent_place h
  · rw [ParentFacts.note_moves]
    exact nodeRestackAfter_moves (foldEvent_ok_ledger h).1

/-- **A log.** -/
theorem foldlM_foldEvent_parentFacts {events : List AbEvent} {acc next : BuildAcc}
    (h : events.foldlM foldEvent acc = .ok next) :
    next.parentFacts = (events.map (·.body)).foldl .note acc.parentFacts := by
  rw [List.foldl_map]
  exact foldlM_part foldEvent_parentFacts h

/-- **The facts of a log are those of its reduced state.** -/
theorem foldEvents_parentFacts {events : List StoredEvent} {acc : BuildAcc}
    (h : foldEvents initialBuildAcc events = .ok acc) :
    acc.parentFacts = parentFacts ((projectEvents events).map (·.body)) := by
  rw [foldEvents_initial] at h
  exact foldlM_foldEvent_parentFacts h

/-- A node that is opened. -/
def openedNode : List StoredEvent :=
  [.known ⟨1, 0, .dispatcher, .build (.created ⟨⟨"tracker", "N-1", none, none⟩, "repo", "main",
      some .node, none, none, none⟩)⟩,
    .known ⟨2, 0, .dispatcher, .node (.opened "sha")⟩]

theorem foldEvents_parentFacts_openedNode : ∃ acc,
    foldEvents initialBuildAcc openedNode = .ok acc ∧ acc.parentFacts.nodeOpened = true ∧
      acc.parentFacts.baseBranch = some "main" := by
  have hok : (foldEvents initialBuildAcc openedNode).isOk = true := by decide +kernel
  cases hacc : foldEvents initialBuildAcc openedNode with
  | error e =>
    rw [hacc] at hok
    cases hok
  | ok acc =>
    have hfacts := foldEvents_parentFacts hacc
    exact ⟨acc, rfl, by rw [hfacts]; rfl, by rw [hfacts]; rfl⟩

end Autobuild
