/-
# Reading a reducer's value through the cache

A read folds the log from the cache row of its key to a boundary, and writes the row back.  The
reads of one key run side by side, each a `ReadStage` between two calls of its storage.  Reads of a
stream seed keep a checkpoint for each cursor of the resume window as well, and hold a lock.

* `ValueEntry` is a resolved request: its reducer, its state check and its identity, as parameters.
* A row's state is read as the properties that the check looks at; `none` is a value of another
  shape.  Two rows have one JSON text if they are equal.
* What other servers leave in the row is a move of its own: the accumulator of a prefix, or a row
  this version does not recognise.
-/
import Autobuild.Lib.ObjectMap
import Mathlib.Data.Rat.Cast.Order

namespace Autobuild

open ObjectMap

/-! ## 1. Rows -/

structure ScopeEvent (ε : Type) where
  seq : Nat
  event : ε

structure SnapshotState (α : Type) where
  identity : Option String
  acc : Option α
  deriving DecidableEq

structure ReducerSnapshot (α : Type) where
  version : Int
  cursor : Rat
  state : Option (SnapshotState α)
  deriving DecidableEq

/-- What a request resolves to.  `advance` includes the projection of the stored events. -/
structure ValueEntry (ε α β : Type) where
  version : Int
  identity : String
  initial : α
  advance : α → List (ScopeEvent ε) → α
  validate : α → Bool
  value : α → β

structure ReducerValue (β : Type) where
  version : Int
  cursor : Nat
  value : β

def repositoryTailWindow : Nat := 1000

/-- Whether a put replaces the stored row. -/
def snapshotSupersedes {α : Type} (next : ReducerSnapshot α) (stored : Option (ReducerSnapshot α)) :
    Bool :=
  match stored with
  | none => true
  | some stored =>
    if next.version < stored.version then false
    else if next.cursor ≠ stored.cursor then decide (next.cursor > stored.cursor)
    else decide (next.version > stored.version)

section

variable {ε α β : Type} (entry : ValueEntry ε α β)

def ValueEntry.snapshot (cursor : Nat) (acc : α) : ReducerSnapshot α :=
  ⟨entry.version, cursor, some ⟨some entry.identity, some acc⟩⟩

/-- The checks of a row that do not depend on the log. -/
def ValueEntry.recognise (snapshot : ReducerSnapshot α) : Option (Nat × α) :=
  match snapshot.state with
  | some ⟨some identity, some acc⟩ =>
    if snapshot.version = entry.version ∧ snapshot.cursor.den = 1 ∧ 0 ≤ snapshot.cursor ∧
        identity = entry.identity ∧ entry.validate acc = true then
      some (snapshot.cursor.num.toNat, acc)
    else none
  | _ => none

/-- The cursor and the accumulator of a row that is valid at a boundary. -/
def ValueEntry.validRow (boundary : Nat) (row : Option (ReducerSnapshot α)) : Option (Nat × α) :=
  (row.bind entry.recognise).filter fun found => found.1 ≤ boundary

/-! ## 2. The store -/

/-- A read about to fold the events from its cursor to its boundary. -/
structure ReadFold (α : Type) where
  boundary : Nat
  row : Option (ReducerSnapshot α)
  valid : Bool
  recovering : Bool
  cursor : Nat
  acc : α

/-- A read about to write its row and its checkpoints. -/
structure CacheWrite (α β : Type) where
  row : Option (ReducerSnapshot α)
  valid : Bool
  next : ReducerSnapshot α
  checkpoints : List (Nat × α)
  value : ReducerValue β

/-- What a read calls next. -/
inductive ReadStage (α β : Type) where
  | bounded (boundary : Nat)
  /-- The row is ahead of the boundary. -/
  | ahead (row : ReducerSnapshot α)
  | covering (fold : ReadFold α)
  | recovering (fold : ReadFold α)
  | folding (fold : ReadFold α)
  | writing (write : CacheWrite α β)
  | returned (value : ReducerValue β)
  | failed

def ReadStage.busy : ReadStage α β → Bool
  | .returned _ => false
  | .failed => false
  | _ => true

/-- A read; `start` is the high water of the log when it began. -/
structure ValueRead (α β : Type) where
  start : Nat
  stage : ReadStage α β

structure ValueStore (ε α β : Type) where
  log : List (ScopeEvent ε) := []
  row : Option (ReducerSnapshot α) := none
  /-- The checkpoints of a stream seed. -/
  checkpoints : JsMap Nat (ReducerSnapshot α) := ∅
  /-- The generation of the seed is admitted. -/
  live : Bool := false
  reads : List (ValueRead α β) := []

def ValueStore.snapshotTail (store : ValueStore ε α β) : Nat :=
  (store.log.getLast?.map (·.seq)).getD 0

def ValueStore.append (store : ValueStore ε α β) (event : ε) : ValueStore ε α β :=
  { store with log := store.log ++ [⟨store.log.length + 1, event⟩] }

def ValueStore.eventsBetween (store : ValueStore ε α β) (since through : Nat) :
    List (ScopeEvent ε) :=
  (store.log.take through).drop since

/-- Some read holds the seed lock. -/
def ValueStore.locked (store : ValueStore ε α β) : Bool :=
  store.reads.any (·.stage.busy)

/-- `checkpoints.latest`. -/
def latestCheckpoint (checkpoints : JsMap Nat (ReducerSnapshot α)) (through : Nat) :
    Option (ReducerSnapshot α) :=
  ((checkpoints.keys.map (·.key)).filter (· ≤ through)).max?.bind fun cursor =>
    checkpoints.get? ⟨cursor⟩

section

variable [DecidableEq α]

def ValueStore.putSnapshot (store : ValueStore ε α β) (next : ReducerSnapshot α) :
    ValueStore ε α β :=
  if next.cursor > store.snapshotTail then store
  else if !snapshotSupersedes next store.row then store
  else { store with row := some next }

def ValueStore.repair (store : ValueStore ε α β) (observed next : ReducerSnapshot α) :
    ValueStore ε α β :=
  if store.row ≠ some observed ∨ next.cursor > store.snapshotTail then store
  else if observed.cursor > next.cursor ∧ (store.snapshotTail : Rat) ≥ observed.cursor then store
  else { store with row := some next }

end

/-- `checkpoints.publish`: the row, the new checkpoints, and none left below the window. -/
def ValueStore.publish (store : ValueStore ε α β) (write : CacheWrite α β) : ValueStore ε α β :=
  { store with
    row := some write.next
    checkpoints := (write.checkpoints.foldl
      (fun checkpoints found => checkpoints.set ⟨found.1⟩ (entry.snapshot found.1 found.2))
      store.checkpoints).filter fun found =>
        write.value.cursor ≤ found.1.key + repositoryTailWindow }

/-! ## 3. A read -/

/-- The cursor after contiguous events. -/
def walkEvents (cursor : Nat) : List (ScopeEvent ε) → Option Nat
  | [] => some cursor
  | event :: rest => if event.seq = cursor + 1 then walkEvents event.seq rest else none

/-- An accumulator after each event. -/
def seedFold (acc : α) : List (ScopeEvent ε) → List (Nat × α) × α
  | [] => ([], acc)
  | event :: rest =>
    let next := entry.advance acc [event]
    let (checkpoints, last) := seedFold next rest
    ((event.seq, next) :: checkpoints, last)

/-- The validity of a row at a boundary; a stream seed does not outlive an invalid row. -/
def settleRow (seed : Bool) (boundary : Nat) (row : Option (ReducerSnapshot α)) : ReadStage α β :=
  match entry.validRow boundary row with
  | some (cursor, acc) =>
    let fold : ReadFold α := ⟨boundary, row, true, false, cursor, acc⟩
    if seed then .covering fold else .folding fold
  | none =>
    if seed && row.isSome then .failed
    else .folding ⟨boundary, row, false, false, 0, entry.initial⟩

/-- The new accumulator and checkpoints. -/
def foldDelta (seed : Bool) (fold : ReadFold α) (delta : List (ScopeEvent ε)) :
    List (Nat × α) × α :=
  if seed then
    let oldest := fold.boundary - repositoryTailWindow
    let acc := entry.advance fold.acc (delta.filter (·.seq ≤ oldest))
    let (checkpoints, last) := seedFold entry acc (delta.filter (oldest < ·.seq))
    ((if fold.cursor ≤ oldest then [(oldest, acc)] else []) ++ checkpoints, last)
  else ([], entry.advance fold.acc delta)

/-- The fold of a read, and whether its row is worth writing. -/
def finishFold (seed : Bool) (fold : ReadFold α) (delta : List (ScopeEvent ε)) : ReadStage α β :=
  match walkEvents fold.cursor delta with
  | none => .failed
  | some cursor =>
    if cursor ≠ fold.boundary then .failed
    else
      let (checkpoints, acc) := foldDelta entry seed fold delta
      let value := ⟨entry.version, cursor, entry.value acc⟩
      if !fold.valid || fold.recovering || !delta.isEmpty then
        .writing ⟨fold.row, fold.valid, entry.snapshot cursor acc, checkpoints, value⟩
      else .returned value

variable [DecidableEq α]

/-- The write of a value cache, best effort: it replaces a malformed row of this version, leaves
one of another version alone, and puts its own otherwise. -/
def ValueStore.writeRow (store : ValueStore ε α β) (write : CacheWrite α β) : ValueStore ε α β :=
  match write.row, write.valid with
  | some row, false =>
    if row.version = entry.version then store.repair row write.next else store
  | _, _ => store.putSnapshot write.next

/-- The next call of a read, which the storage answers or does not. -/
def advanceRead (seed answered : Bool) (store : ValueStore ε α β) :
    ReadStage α β → ReadStage α β × ValueStore ε α β
  | .bounded boundary =>
    if !answered then (if seed then .failed else settleRow entry seed boundary none, store)
    else
      match store.row with
      | none => (settleRow entry seed boundary none, store)
      | some row =>
        if row.cursor > boundary then (.ahead row, store)
        else (settleRow entry seed boundary (some row), store)
  | .ahead row =>
    if !answered then (.failed, store)
    else (settleRow entry seed store.snapshotTail (some row), store)
  | .covering fold =>
    if !answered then (.failed, store)
    else if store.checkpoints.has ⟨fold.cursor⟩ then (.folding fold, store)
    else (.recovering fold, store)
  | .recovering fold =>
    if !answered then (.failed, store)
    else
      match latestCheckpoint store.checkpoints fold.cursor with
      | none =>
        (.folding { fold with cursor := 0, acc := entry.initial, recovering := true }, store)
      | some checkpoint =>
        match entry.validRow fold.cursor (some checkpoint) with
        | none => (.failed, store)
        | some (cursor, acc) => (.folding { fold with cursor, acc, recovering := true }, store)
  | .folding fold =>
    if !answered then (.failed, store)
    else
      (finishFold entry seed fold
        ((store.eventsBetween fold.cursor fold.boundary).filter (·.seq ≤ fold.boundary)), store)
  | .writing write =>
    if seed then
      if !answered then (.failed, store) else (.returned write.value, store.publish entry write)
    else (.returned write.value, if answered then store.writeRow entry write else store)
  | .returned value => (.returned value, store)
  | .failed => (.failed, store)

/-- A read begins with the high water of the log.  A seed that is admitted has a row. -/
def startRead (seed answered : Bool) (store : ValueStore ε α β) : ValueStore ε α β :=
  if seed && store.locked then store
  else if seed && store.live && store.row.isNone then
    { store with reads := store.reads ++ [⟨store.snapshotTail, .failed⟩] }
  else
    { store with
      live := store.live || seed
      reads := store.reads ++ [⟨store.snapshotTail,
        if answered then .bounded store.snapshotTail else .failed⟩] }

/-- A row of another version or identity, or malformed. -/
structure ForeignRow where
  row : ReducerSnapshot α
  unrecognised : entry.recognise row = none

/-- The accumulator of the first events. -/
def ValueEntry.reduced (log : List (ScopeEvent ε)) (cursor : Nat) : α :=
  entry.advance entry.initial (log.take cursor)

inductive CacheMove where
  | append (event : ε)
  | start (answered : Bool)
  | advance (position : Nat) (answered : Bool)
  /-- Another server stores what the first `cursor` events come to. -/
  | shared (cursor : Nat)
  | foreign (row : ForeignRow entry)
  | dropped

def stepRead (seed answered : Bool) (store : ValueStore ε α β) (position : Nat) :
    ValueStore ε α β :=
  match store.reads[position]? with
  | none => store
  | some read =>
    let (stage, store) := advanceRead entry seed answered store read.stage
    { store with reads := store.reads.set position { read with stage } }

def stepMove (seed : Bool) (store : ValueStore ε α β) : CacheMove entry → ValueStore ε α β
  | .append event => store.append event
  | .start answered => startRead seed answered store
  | .advance position answered => stepRead entry seed answered store position
  | .shared cursor =>
    if cursor > store.log.length ∨ (seed && store.locked) = true then store
    else { store with row := some (entry.snapshot cursor (entry.reduced store.log cursor)) }
  | .foreign row => { store with row := some row.row }
  | .dropped => { store with row := none }

def runMoves (seed : Bool) (store : ValueStore ε α β) (moves : List (CacheMove entry)) :
    ValueStore ε α β :=
  moves.foldl (stepMove entry seed) store

end

end Autobuild
