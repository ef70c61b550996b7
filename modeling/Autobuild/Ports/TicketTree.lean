/-
# The integration tree of a ticket source

A ticket may target a node ticket of its source; without a target it stands at the root.  A
write of kind or target is validated against the tickets as they are stored, and the stored
target is the canonical id the source resolved.

* `validateTicketTree`: the check of a draft or an update; the walk up the targets is bounded by
  fuel, and runs out only if the source answers with ever new tickets.
* `TreeSource.Reads`: what a source relies on, an id read back is the ticket stored under it.
* `TreeWrite`: a create or an update, accepted and applied.
* `projectTicketTree`: the tree a listing is shown as.
-/
import Autobuild.Lib.JsText
import Autobuild.Lib.ObjectMap
import Autobuild.Lib.ParentMap
import Autobuild.Ontology
import Mathlib.Data.Finset.Card
import Mathlib.Data.Finset.SDiff
import Mathlib.Data.Finset.Dedup

namespace Autobuild

open ObjectMap

/-! ## 1. Tickets -/

inductive TicketKind where
  | work
  | node
  deriving DecidableEq

/-- A ticket, in the fields the tree is made of. -/
structure Ticket where
  ref : TicketRef
  /-- Absent is work. -/
  kind : Option TicketKind
  /-- Canonical id of a node ticket; absent is the root. -/
  target : Option String
  deriving DecidableEq

structure TicketListing where
  tickets : List Ticket
  /-- Records the scan left out. -/
  diagnostics : List String

/-- `TicketDraft | TicketUpdate`.  The kind may be any text, and a target may be cleared. -/
structure TreePatch where
  kind : Option String
  target : Option (Option String)

/-- What the validation calls of a source.  A call may fail. -/
structure TreeSource where
  name : String
  get : String → Except String (Option Ticket)
  listAll : Option (Except String TicketListing)

def TicketKind.ofText? : String → Option TicketKind
  | "work" => some .work
  | "node" => some .node
  | _ => none

/-- `${source}:${id}` -/
def ticketKey (source id : String) : String := source ++ ":" ++ id

def normalizeTicket (ticket : Ticket) : Ticket :=
  { ticket with kind := some (ticket.kind.getD .work) }

/-! ## 2. Validation -/

namespace TreeSource

variable (source : TreeSource)

/-- No ticket of the listing targets the node that is to be work. -/
def checkChildren (current : Ticket) : List Ticket → Except String Unit
  | [] => .ok ()
  | child :: rest =>
    match child.target with
    | none => checkChildren current rest
    | some target =>
      match source.get target with
      | .error e => .error e
      | .ok none => checkChildren current rest
      | .ok (some parent) =>
        if parent.ref.id = current.ref.id ∧ parent.ref.source = current.ref.source then
          .error s!"cannot change node {current.ref.id} to work: ticket {child.ref.id} targets it"
        else checkChildren current rest

def checkDemotion (current : Ticket) : Except String Unit :=
  match source.listAll with
  | none => .error "source must enumerate all tickets to validate node demotion"
  | some (.error e) => .error e
  | some (.ok listing) =>
    if listing.diagnostics ≠ [] then .error (String.intercalate "\n" listing.diagnostics)
    else source.checkChildren current listing.tickets

/-- The walk up the targets.  `canonical` is the id of the first ticket, once it is known. -/
def walkTargets : Nat → List String → Option String → String → Option (Except String String)
  | 0, _, _, _ => none
  | fuel + 1, seen, canonical, next =>
    match source.get next with
    | .error e => some (.error e)
    | .ok none =>
      some (.error s!"target {next} does not exist in the configured {source.name} source")
    | .ok (some node) =>
      if node.ref.source ≠ source.name then
        some (.error s!"target {next} is in a different source")
      else if node.kind ≠ some .node then some (.error s!"target {next} is not a node")
      else if ticketKey node.ref.source node.ref.id ∈ seen then
        some (.error s!"target {next} would create a cycle (or has a cyclic ancestor chain)")
      else
        let canonical := canonical.getD node.ref.id
        match node.target with
        | none => some (.ok canonical)
        | some target =>
          walkTargets fuel (ticketKey node.ref.source node.ref.id :: seen) (some canonical) target

/-- What the walk must not meet: the ticket itself. -/
def seenAtFirst (id : Option String) : Option Ticket → List String
  | some current => [ticketKey current.ref.source current.ref.id]
  | none =>
    match id with
    | some id => if id = "" then [] else [ticketKey source.name id]
    | none => []

/-- The ticket that is written, if it is there. -/
def current (id : Option String) : Except String (Option Ticket) :=
  match id with
  | none => .ok none
  | some id => source.get id

/-- The checks before the walk. -/
def checkPatch (current : Option Ticket) (patch : TreePatch) : Except String Unit :=
  match current with
  | some ticket =>
    if patch.kind = some "work" ∧ ticket.kind = some .node then source.checkDemotion ticket
    else .ok ()
  | none => .ok ()

end TreeSource

/-- `null` and `undefined` are answered as they are; a target by its canonical id. -/
def validateTicketTree (source : TreeSource) (fuel : Nat) (id : Option String)
    (patch : TreePatch) : Option (Except String (Option (Option String))) :=
  if patch.kind ≠ none ∧ patch.kind ≠ some "work" ∧ patch.kind ≠ some "node" then
    some (.error "kind must be work or node")
  else if (patch.target.join.map JsText.isBlank).getD false then
    some (.error "target must not be blank")
  else
    match source.current id with
    | .error e => some (.error e)
    | .ok current =>
      match source.checkPatch current patch with
      | .error e => some (.error e)
      | .ok () =>
        match patch.target with
        | none => some (.ok none)
        | some none => some (.ok (some none))
        | some (some target) =>
          (source.walkTargets fuel (source.seenAtFirst id current) none target).map
            fun answer => answer.map fun canonical => some (some canonical)

/-! ## 3. Writes -/

/-- The part of a patch the tree sees, with the answer of its validation. -/
def Ticket.patched (ticket : Ticket) (patch : TreePatch) (answer : Option (Option String)) :
    Ticket :=
  { ticket with
    kind := (patch.kind.bind TicketKind.ofText?).or ticket.kind
    target := answer.getD ticket.target }

/-- A ticket is work unless its draft says otherwise. -/
def createdTicket (ref : TicketRef) (draft : TreePatch) (answer : Option (Option String)) :
    Ticket :=
  Ticket.patched ⟨ref, some .work, none⟩ draft answer

/-- The source of some tickets, as it is read.  An id may be an alias, an alias of a ticket
elsewhere too; the canonical id of a ticket is that ticket, and a listing that names no record
it left out has them all. -/
structure TreeSource.Reads (source : TreeSource) (tickets : List Ticket) : Prop where
  found : ∀ id ticket, source.get id = .ok (some ticket) → ticket.ref.source = source.name →
    ticket ∈ tickets
  canonical : ∀ ticket ∈ tickets, ∀ found, source.get ticket.ref.id = .ok found →
    found = some ticket
  listed : ∀ listing, source.listAll = some (.ok listing) → listing.diagnostics = [] →
    ∀ ticket ∈ tickets, ticket ∈ listing.tickets

/-- An accepted write is applied before the next one is validated. -/
inductive TreeWrite (name : String) (tickets : List Ticket) : List Ticket → Prop
  /-- A create gets a free id of its own, whatever id was asked for. -/
  | create {source : TreeSource} {fuel : Nat} {requested : Option String} {draft : TreePatch}
      {answer : Option (Option String)} {ref : TicketRef} :
      source.name = name → source.Reads tickets →
      validateTicketTree source fuel requested draft = some (.ok answer) →
      ref.source = name → ref.id ≠ "" → (∀ ticket ∈ tickets, ticket.ref.id ≠ ref.id) →
      TreeWrite name tickets (tickets ++ [createdTicket ref draft answer])
  /-- An update is written to the ticket its id resolves to. -/
  | update {source : TreeSource} {fuel : Nat} {id : String} {patch : TreePatch}
      {answer : Option (Option String)} {ticket : Ticket} :
      source.name = name → source.Reads tickets →
      validateTicketTree source fuel (some id) patch = some (.ok answer) →
      ticket ∈ tickets → source.get id = .ok (some ticket) →
      TreeWrite name tickets
        (tickets.map fun other =>
          if other.ref.id = ticket.ref.id then other.patched patch answer else other)

/-- Any number of writes. -/
abbrev TreeWrites (name : String) : List Ticket → List Ticket → Prop :=
  Relation.ReflTransGen (TreeWrite name)

/-! ## 4. Projection -/

/-- An entry of the tree.  The children are references to entries, by their ids. -/
structure TicketTreeEntry where
  ticket : Ticket
  children : List String

structure TicketTree where
  root : String
  children : List String
  entries : JsMap String TicketTreeEntry

/-- The ids of the entries that the walk has not seen. -/
def unseen (entries : JsMap String TicketTreeEntry) (seen : List String) : Finset String :=
  (entries.keys.map (·.key)).toFinset \ seen.toFinset

theorem unseen_card_lt {entries : JsMap String TicketTreeEntry} {seen : List String}
    {target : String} {parent : TicketTreeEntry} (hseen : target ∉ seen)
    (hparent : entries.get? ⟨target⟩ = some parent) :
    (unseen entries (target :: seen)).card < (unseen entries seen).card := by
  have hkey : (⟨target⟩ : MapKey String) ∈ entries.keys :=
    isSome_get?.mp (by rw [hparent]; rfl)
  refine Finset.card_lt_card ⟨fun id hid => ?_, fun hsub => ?_⟩
  · simp only [unseen, Finset.mem_sdiff, List.mem_toFinset, List.mem_cons, not_or] at hid ⊢
    exact ⟨hid.1, hid.2.2⟩
  · have hmem : target ∈ unseen entries seen := by
      simp only [unseen, Finset.mem_sdiff, List.mem_toFinset]
      exact ⟨List.mem_map.mpr ⟨_, hkey, rfl⟩, hseen⟩
    have hout := hsub hmem
    simp [unseen] at hout

/-- The way up from a ticket ends, through nodes of the listing. -/
def checkChain (entries : JsMap String TicketTreeEntry) (id : String) (seen : List String)
    (target : Option String) : Except String Unit :=
  match target with
  | none => .ok ()
  | some target =>
    if _ : target ∈ seen then .error s!"cyclic target graph at {target}"
    else
      match _ : entries.get? ⟨target⟩ with
      | none => .error s!"orphan target {target} on {id}"
      | some parent =>
        if parent.ticket.kind ≠ some .node then .error s!"target {target} is not a node"
        else checkChain entries id (target :: seen) parent.ticket.target
termination_by (unseen entries seen).card
decreasing_by exact unseen_card_lt ‹_› ‹_›

def TicketTreeEntry.push (entry : TicketTreeEntry) (id : String) : TicketTreeEntry :=
  { entry with children := entry.children ++ [id] }

namespace TicketTree

/-- `entries.get(target)!.children.push(entry)` -/
def pushUnder (tree : TicketTree) (target id : String) : TicketTree :=
  match tree.entries.get? ⟨target⟩ with
  | some parent => { tree with entries := tree.entries.set ⟨target⟩ (parent.push id) }
  | none => tree

def pushRoot (tree : TicketTree) (id : String) : TicketTree :=
  { tree with children := tree.children ++ [id] }

/-- A blank target reads as none. -/
def place (tree : TicketTree) (ticket : Ticket) : TicketTree :=
  match ticket.target with
  | some target =>
    if target = "" then tree.pushRoot ticket.ref.id else tree.pushUnder target ticket.ref.id
  | none => tree.pushRoot ticket.ref.id

def placeEntry (tree : TicketTree) (ticket : Ticket) : Except String TicketTree :=
  match checkChain tree.entries ticket.ref.id [ticket.ref.id] ticket.target with
  | .error e => .error e
  | .ok () => .ok (tree.place ticket)

end TicketTree

def entriesOf (tickets : List Ticket) : JsMap String TicketTreeEntry :=
  tickets.foldl (fun entries ticket =>
    entries.set ⟨ticket.ref.id⟩ ⟨normalizeTicket ticket, []⟩) ∅

/-- `localeLe` is `localeCompare(..) <= 0`. -/
def projectTicketTree (localeLe : String → String → Bool) (tickets : List Ticket)
    (root : String) : Except String TicketTree :=
  let entries := entriesOf tickets
  let sorted := (entries.values.map (·.ticket)).insertionSort
    (fun left right => localeLe left.ref.id right.ref.id = true)
  sorted.foldlM TicketTree.placeEntry ⟨root, [], entries⟩

end Autobuild
