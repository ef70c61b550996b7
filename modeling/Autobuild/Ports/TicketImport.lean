/-
# Importing tickets

An import maps the states of a directory to states of the target and plans an id for each ticket.
It adds the states that are missing, creates the tickets that the target does not have, and then
writes the tree, the blockers, the comments and the attachments, each of them where it is missing.
Identity comes from creation keys, so an import that was interrupted is resumed by running it again.

* `plannedId`: the ids, against a target that may hold a part of the tickets already.
* `ticketWrites`: the writes of the tickets in order, and `ImportWrite.run` what one does.
* `importSteps`: all writes, the states first; `importTickets` runs them.
* `ImportRun`: imports that are interrupted after any number of writes, one after another.
-/
import Autobuild.Lib.ObjectMap
import Autobuild.Lib.Resume
import Autobuild.Ports.ImportStates
import Autobuild.Ports.TicketTree
import Mathlib.Data.Set.Finite.Basic
import Mathlib.Logic.Relation

namespace Autobuild

open ObjectMap

/-! ## 1. The directory and the target -/

/-- A portable asset. -/
structure ImportBundle where
  kind : String
  name : String
  content : String

structure ImportTicket where
  id : String
  creationKey : Option String
  kind : Option TicketKind
  target : Option String
  blockedBy : List String
  /-- The bodies: who wrote them and when is not imported. -/
  comments : List String
  attachments : List ImportBundle

/-- `.ab-migration.json`, written before the first write of the target. -/
structure ImportManifest where
  identity : String
  keys : ObjectMap String String

def ImportManifest.keyOf (manifest : ImportManifest) (ticket : ImportTicket) : String :=
  ticket.creationKey.getD ((manifest.keys.get? ticket.id).getD
    ("migration:" ++ manifest.identity ++ ":" ++ ticket.id))

@[ext] structure TargetTicket where
  id : String
  creationKey : Option String
  kind : Option TicketKind
  target : Option String
  blockedBy : List String
  comments : List String
  /-- By kind and name. -/
  assets : String × String → Option String

/-- `RequestedIdPolicy`.  `allocate` looks at which ids are occupied, not at their order, and gives
one that is not. -/
structure RequestedIdPolicy where
  preserve : String → Option String
  allocate : List String → String
  allocate_congr : ∀ occupied occupied', (∀ id, id ∈ occupied ↔ id ∈ occupied') →
    allocate occupied = allocate occupied'
  allocate_fresh : ∀ occupied, allocate occupied ∉ occupied

namespace FileRequestedIds

def numbered (n : Nat) : String :=
  "file-" ++ Nat.repr (n + 1)

theorem numbered_injective : Function.Injective numbered := by
  intro n m h
  have hdigits : Nat.toDigits 10 (n + 1) = Nat.toDigits 10 (m + 1) :=
    String.ofList_injective ((String.append_right_inj _).mp h)
  have hread := congrArg (Nat.ofDigitChars 10 · 0) hdigits
  simp only [Nat.ofDigitChars_ten_toDigits] at hread
  exact Nat.succ_injective hread

theorem exists_free (occupied : List String) : ∃ n, numbered n ∉ occupied := by
  obtain ⟨id, ⟨n, rfl⟩, hn⟩ :=
    (Set.infinite_range_of_injective numbered_injective).exists_notMem_finset occupied.toFinset
  exact ⟨n, fun hmem => hn (List.mem_toFinset.mpr hmem)⟩

end FileRequestedIds

/-- An id that `validateFileTicketId` refuses stops the import before its first write. -/
def fileRequestedIds : RequestedIdPolicy where
  preserve := some
  allocate occupied := FileRequestedIds.numbered (Nat.find (FileRequestedIds.exists_free occupied))
  allocate_congr _ _ h := congrArg _ (Nat.find_congr' (not_congr (h _)))
  allocate_fresh occupied := Nat.find_spec (FileRequestedIds.exists_free occupied)

/-- What an import asks of a ticket source. -/
structure ImportTarget extends RequestedIdPolicy where
  integrationTree : Bool

/-! ## 2. The plan -/

section Plan

variable (source : ImportTarget) (manifest : ImportManifest) (target : List TargetTicket)

/-- `byKey.get(key)` -/
def adopted? (key : String) : Option TargetTicket :=
  target.find? fun ticket => ticket.creationKey = some key

def keptId (ticket : ImportTicket) : Option String :=
  match adopted? target (manifest.keyOf ticket) with
  | some _ => none
  | none => source.preserve ticket.id

/-- The first loop's `clashes`, from the ids that are occupied. -/
def clashes : List String → List ImportTicket → List (String × String)
  | _, [] => []
  | occupied, ticket :: rest =>
    match keptId source manifest target ticket with
    | none => clashes occupied rest
    | some kept =>
      (if kept ∈ occupied then [(ticket.id, kept)] else []) ++ clashes (occupied ++ [kept]) rest

/-- `planned` does not have the ticket after the first loop. -/
def isUnplanned (ticket : ImportTicket) : Bool :=
  (adopted? target (manifest.keyOf ticket)).isNone && (source.preserve ticket.id).isNone

/-- The second loop. -/
def allocateAll : List String → List ImportTicket → List (String × String)
  | _, [] => []
  | occupied, ticket :: rest =>
    (ticket.id, source.allocate occupied) ::
      allocateAll (occupied ++ [source.allocate occupied]) rest

/-- `occupied` after the first loop. -/
def occupiedIds (tickets : List ImportTicket) : List String :=
  target.map (·.id) ++ tickets.filterMap (keptId source manifest target)

def plannedId (tickets : List ImportTicket) (ticket : ImportTicket) : String :=
  match adopted? target (manifest.keyOf ticket) with
  | some adopted => adopted.id
  | none =>
    match source.preserve ticket.id with
    | some kept => kept
    | none =>
      ((allocateAll source (occupiedIds source manifest target tickets)
        (tickets.filter (isUnplanned source manifest target))).lookup ticket.id).getD ""

/-- `mapping[id]` -/
def mappedId (tickets : List ImportTicket) (id : String) : String :=
  match tickets.find? (·.id = id) with
  | some ticket => plannedId source manifest target tickets ticket
  | none => ""

end Plan

/-! ## 3. The writes -/

inductive TicketEdit where
  | setKind (kind : TicketKind)
  /-- `update(id, { kind, target })` -/
  | place (kind : TicketKind) (target : Option String)
  | addBlocker (id : String)
  /-- A comment whose body is not there yet: `bodies` is read once and extended by each write. -/
  | comment (body : String)
  /-- The asset, if it is not there or differs. -/
  | putAsset (kind name content : String)

namespace TicketEdit

def kind? : TicketEdit → Option (Option TicketKind)
  | .setKind kind => some (some kind)
  | .place kind _ => some (some kind)
  | _ => none

def target? : TicketEdit → Option (Option String)
  | .place _ target => some target
  | _ => none

def blocker? : TicketEdit → Option String
  | .addBlocker id => some id
  | _ => none

def comment? : TicketEdit → Option String
  | .comment body => some body
  | _ => none

def asset? (place : String × String) : TicketEdit → Option (Option String)
  | .putAsset kind name content => if place = (kind, name) then some (some content) else none
  | _ => none

/-- What is written twice stays what it is. -/
def apply (ticket : TargetTicket) (change : TicketEdit) : TargetTicket :=
  match change with
  | .setKind kind => { ticket with kind := some kind }
  | .place kind target => { ticket with kind := some kind, target := target }
  | .addBlocker id =>
    if id ∈ ticket.blockedBy then ticket else { ticket with blockedBy := ticket.blockedBy ++ [id] }
  | .comment body =>
    if body ∈ ticket.comments then ticket
    else { ticket with comments := ticket.comments ++ [body] }
  | .putAsset kind name content =>
    { ticket with
      assets := fun place => if place = (kind, name) then some content else ticket.assets place }

end TicketEdit

inductive ImportWrite where
  /-- `byKey.get(key) ?? create(..)` -/
  | create (key id : String) (kind : Option TicketKind)
  | edit (id : String) (change : TicketEdit)

def TargetTicket.created (key id : String) (kind : Option TicketKind) : TargetTicket :=
  ⟨id, some key, kind, none, [], [], fun _ => none⟩

/-- `create` is atomic and idempotent by key. -/
def ImportWrite.run (write : ImportWrite) (target : List TargetTicket) : List TargetTicket :=
  match write with
  | .create key id kind =>
    if (adopted? target key).isSome then target
    else target ++ [TargetTicket.created key id kind]
  | .edit id change =>
    target.map fun ticket => if ticket.id = id then change.apply ticket else ticket

def runImport (program : List ImportWrite) (target : List TargetTicket) : List TargetTicket :=
  Resume.exec ImportWrite.run program target

section Program

variable (source : ImportTarget) (manifest : ImportManifest) (tickets : List ImportTicket)
  (mapped : String → String)

def importCreates : List ImportWrite :=
  tickets.map fun ticket => .create (manifest.keyOf ticket) (mapped ticket.id)
    (if source.integrationTree then some (ticket.kind.getD .work) else none)

def importTree : List ImportWrite :=
  if source.integrationTree then
    (tickets.filter (·.kind = some .node)).map (fun ticket =>
        .edit (mapped ticket.id) (.setKind .node)) ++
      tickets.map fun ticket =>
        .edit (mapped ticket.id) (.place (ticket.kind.getD .work) (ticket.target.map mapped))
  else []

def importDetails (ticket : ImportTicket) : List ImportWrite :=
  ticket.blockedBy.map (fun blocker => .edit (mapped ticket.id) (.addBlocker (mapped blocker))) ++
    ticket.comments.map (fun body => .edit (mapped ticket.id) (.comment body)) ++
    ticket.attachments.map fun bundle =>
      .edit (mapped ticket.id) (.putAsset bundle.kind bundle.name bundle.content)

def importWrites : List ImportWrite :=
  importCreates source manifest tickets mapped ++
    (importTree source tickets mapped ++ tickets.flatMap (importDetails mapped))

end Program

/-- The writes of the tickets, of an import that starts at a target. -/
def ticketWrites (source : ImportTarget) (manifest : ImportManifest)
    (tickets : List ImportTicket) (target : List TargetTicket) : List ImportWrite :=
  importWrites source manifest tickets (mappedId source manifest target tickets)

def writeTickets (source : ImportTarget) (manifest : ImportManifest)
    (tickets : List ImportTicket) (target : List TargetTicket) : List TargetTicket :=
  runImport (ticketWrites source manifest tickets target) target

/-- The checks before the first write that look at identities. -/
structure TicketsAccepted (source : ImportTarget) (manifest : ImportManifest)
    (tickets : List ImportTicket) (target : List TargetTicket) : Prop where
  /-- No `duplicate ticket id`. -/
  ids : (tickets.map (·.id)).Nodup
  /-- No `duplicate creation key`. -/
  keys : (tickets.map manifest.keyOf).Nodup
  targetIds : (target.map (·.id)).Nodup
  /-- No `ambiguous target creation key`. -/
  targetKeys : (target.filterMap (·.creationKey)).Nodup
  unclashed : clashes source manifest target (target.map (·.id)) tickets = []

/-! ## 4. Imports -/

structure ImportDirectory where
  /-- The directories of `readdir`. -/
  states : List String
  manifest : ImportManifest
  tickets : List ImportTicket

structure ImportStore where
  states : List String
  tickets : List TargetTicket

inductive ImportStep where
  | addState (name : String)
  | write (write : ImportWrite)

section Imports

variable (text : LowerCase) (source : ImportTarget) (directory : ImportDirectory)

def ImportStep.run (store : ImportStore) : ImportStep → Except String ImportStore
  | .addState name =>
    (importState text store.states name).map fun states => { store with states }
  | .write change => .ok { store with tickets := change.run store.tickets }

/-- The writes of an import that starts at a store. -/
def importSteps (store : ImportStore) : Except String (List ImportStep) :=
  uniqueStateMap directory.states (targetState text store.states) >>= fun states =>
    .ok ((newStates store.states states).map .addState ++
      (ticketWrites source directory.manifest directory.tickets store.tickets).map .write)

def importTickets (store : ImportStore) : Except String ImportStore :=
  importSteps text source directory store >>= fun steps =>
    steps.foldlM (ImportStep.run text) store

/-- What the import checks before its first write, and that its states do not collide later. -/
structure ImportAccepted (store : ImportStore) : Prop where
  tickets : TicketsAccepted source directory.manifest directory.tickets store.tickets
  states : ∃ states, StatesAccepted text directory.states store.states states

/-- An import that is interrupted after a number of writes. -/
def Interrupted (store store' : ImportStore) : Prop :=
  ∃ steps count, importSteps text source directory store = .ok steps ∧
    (steps.take count).foldlM (ImportStep.run text) store = .ok store'

/-- Any number of interrupted imports. -/
def ImportRun : ImportStore → ImportStore → Prop :=
  Relation.ReflTransGen (Interrupted text source directory)

end Imports

end Autobuild
