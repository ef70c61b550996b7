/-
# Repository leases and ticks

A repository has one lease and one tick record.  A holder claims the lease for a time, renews
it by heartbeats and gives it back; while it holds the lease it may open a tick, and finishing
the tick appends the tick's boundaries to the journal together with the record.

The in-memory store is the reference (`MemoryRepo`); the rows of the Postgres store
(`RepoStreamRow`) carry the lease in three nullable columns and number the events of a finish
one at a time.  Every call runs under the lock of its repository, or without an await: it is
one step, which reads the clock once to decide and once to stamp.
-/
import Autobuild.Events.Repository
import Mathlib.Data.List.Basic

namespace Autobuild

/-! ## 1. Records -/

/-- `z.string().min(1)`. -/
structure Holder where
  name : String
  nonempty : name ≠ ""
  deriving DecidableEq

structure Lease where
  holder : Holder
  expiresAt : Nat
  ttlMs : Nat

inductive RepoTickCompletion where
  | completed (counters : Json)
  | failed (error : String) (forgeRequests : Option Json)

structure FinishedTick where
  completion : RepoTickCompletion
  run : Holder
  startedAt : Nat
  completedAt : Nat

structure RepoTickObservation where
  run : Holder
  /-- `open.startedAt`. -/
  openedAt : Option Nat
  finished : Option FinishedTick

structure RepoTickFinish where
  observation : RepoTickObservation
  events : List RepositoryEvent

/-- Two readings of the clock within one call. -/
structure Clock where
  now : Nat
  stamp : Nat
  ordered : now ≤ stamp

/-! ## 2. What a finish may carry -/

/-- A boundary written by the dispatcher for the run of the holder. -/
def boundaryOf (holder : Holder) (event : RepositoryEventWrite) : Bool :=
  match event.body with
  | .tick tick => decide (event.actor = .dispatcher) && decide (tick.run = holder.name)
  | .harvest _ => false
  | .other _ => false

def isTickStart : RepositoryBody → Bool
  | .tick (.started _) => true
  | _ => false

/-- The end is of the kind the completion says. -/
def endsTick (completion : RepoTickCompletion) (body : RepositoryBody) : Bool :=
  match completion, body with
  | .completed _, .tick (.completed _ _) => true
  | .failed _ _, .tick (.failed _ _) => true
  | _, _ => false

/-- Only a matching start and terminal boundary may ride the atomic finish. -/
def validateTickFinish (holder : Holder) (completion : RepoTickCompletion)
    (events : List RepositoryEventWrite) : Except String (List RepositoryEventWrite) :=
  match completion, events with
  | .completed _, [] => .ok []
  | completion, [first, last] =>
    if !isTickStart first.body || !endsTick completion last.body || !boundaryOf holder first
        || !boundaryOf holder last then .error "invalid tick finish boundaries"
    else
      match last.body, completion with
      | .tick (.failed _ error), .failed expected _ =>
        if error ≠ expected then .error "tick error mismatch" else .ok events
      | .tick (.completed _ counters), .completed expected =>
        if counters.stringify ≠ expected.stringify then .error "tick counters mismatch"
        else .ok events
      | _, _ => .ok events
  | _, _ => .error "tick finish requires start and terminal boundaries"

/-! ## 3. The in-memory store -/

structure MemoryRepo where
  tick : Option RepoTickObservation := none
  updatedAt : Nat := 0
  heartbeatAt : Option Nat := none
  lease : Option Lease := none
  events : List RepositoryEvent := []
  /-- The change position of the repository. -/
  position : Nat := 0

/-- The calls on the lease and the tick. -/
inductive RepoCall where
  | claimRepoLease (holder : Holder) (ttlMs : Nat)
  | heartbeatRepo (holder : Holder)
  | releaseRepoLease (holder : Holder)
  | beginRepoTick (holder : Holder)
  | finishRepoTick (holder : Holder) (completion : RepoTickCompletion)
      (events : List RepositoryEventWrite)

inductive RepoReply where
  | leased (ok : Bool)
  | released
  | begun (startedAt : Option Nat)
  | finished (finish : Option RepoTickFinish)
  | threw (message : String)

/-- Not `!lease || lease.holder !== holder || lease.expiresAt <= now`. -/
def Lease.heldBy (lease : Option Lease) (holder : Holder) (now : Nat) : Bool :=
  match lease with
  | none => false
  | some lease => decide (lease.holder = holder) && decide (now < lease.expiresAt)

/-- Not `lease.holder !== holder && lease.expiresAt > now`. -/
def Lease.claimable (lease : Option Lease) (holder : Holder) (now : Nat) : Bool :=
  match lease with
  | none => true
  | some lease => decide (lease.holder = holder) || decide (lease.expiresAt ≤ now)

/-- The envelopes of a finish, numbered from the end of the journal. -/
def envelopes (start ts : Nat) : List RepositoryEventWrite → List RepositoryEvent
  | [] => []
  | event :: rest => { event with seq := start + 1, ts := ts } :: envelopes (start + 1) ts rest

def openedTick (holder : Holder) (stamp : Nat) (previous : Option RepoTickObservation) :
    RepoTickObservation where
  run := holder
  openedAt := some stamp
  finished := previous.bind (·.finished)

def closedTick (holder : Holder) (completion : RepoTickCompletion) (startedAt stamp : Nat) :
    RepoTickObservation where
  run := holder
  openedAt := none
  finished := some ⟨completion, holder, startedAt, stamp⟩

/-- The start of the open tick of a holder. -/
def openBy (tick : Option RepoTickObservation) (holder : Holder) : Option Nat :=
  match tick with
  | none => none
  | some tick => if tick.run = holder then tick.openedAt else none

namespace MemoryRepo

variable (state : MemoryRepo)

def claimRepoLease (holder : Holder) (ttlMs now : Nat) : RepoReply × MemoryRepo :=
  if Lease.claimable state.lease holder now then
    (.leased true,
      { state with
        position := if state.lease.map (·.holder) = some holder then state.position
          else state.position + 1
        lease := some ⟨holder, now + ttlMs, ttlMs⟩
        updatedAt := now })
  else (.leased false, state)

def heartbeatRepo (holder : Holder) (now : Nat) : RepoReply × MemoryRepo :=
  match state.lease with
  | none => (.leased false, state)
  | some lease =>
    if lease.holder = holder ∧ now < lease.expiresAt then
      (.leased true,
        { state with
          lease := some { lease with expiresAt := now + lease.ttlMs }
          heartbeatAt := some now
          updatedAt := now })
    else (.leased false, state)

def releaseRepoLease (holder : Holder) (now : Nat) : RepoReply × MemoryRepo :=
  if state.lease.map (·.holder) = some holder then
    (.released, { state with position := state.position + 1, lease := none, updatedAt := now })
  else (.released, state)

def beginRepoTick (holder : Holder) (clock : Clock) : RepoReply × MemoryRepo :=
  if Lease.heldBy state.lease holder clock.now then
    (.begun (some clock.stamp),
      { state with
        tick := some (openedTick holder clock.stamp state.tick)
        updatedAt := clock.stamp })
  else (.begun none, state)

def finishRepoTick (holder : Holder) (completion : RepoTickCompletion)
    (events : List RepositoryEventWrite) (clock : Clock) : RepoReply × MemoryRepo :=
  match validateTickFinish holder completion events with
  | .error message => (.threw message, state)
  | .ok validated =>
    if Lease.heldBy state.lease holder clock.now then
      match openBy state.tick holder with
      | none => (.threw "no open repository tick", state)
      | some startedAt =>
        let appended := envelopes state.events.length clock.stamp validated
        let tick := closedTick holder completion startedAt clock.stamp
        (.finished (some ⟨tick, appended⟩),
          { state with
            tick := some tick
            events := state.events ++ appended
            position := state.position + appended.length
            updatedAt := clock.stamp })
    else (.finished none, state)

def call (request : RepoCall) (clock : Clock) : RepoReply × MemoryRepo :=
  match request with
  | .claimRepoLease holder ttlMs => state.claimRepoLease holder ttlMs clock.now
  | .heartbeatRepo holder => state.heartbeatRepo holder clock.now
  | .releaseRepoLease holder => state.releaseRepoLease holder clock.now
  | .beginRepoTick holder => state.beginRepoTick holder clock
  | .finishRepoTick holder completion events =>
    state.finishRepoTick holder completion events clock

end MemoryRepo

/-! ## 4. The Postgres store -/

/-- A row of `repo_streams`, with the rows of `repo_events` that belong to it. -/
structure RepoStreamRow where
  leaseHolder : Option Holder := none
  leaseExpiresAt : Option Nat := none
  leaseTtlMs : Option Nat := none
  tick : Option RepoTickObservation := none
  updatedAt : Nat := 0
  heartbeatAt : Option Nat := none
  events : List RepositoryEvent := []

namespace RepoStreamRow

variable (row : RepoStreamRow)

/-- `row.lease_holder && row.lease_holder !== holder && row.lease_expires_at && … > now`; a
holder is not empty, so it is true when it is there. -/
def held (holder : Holder) (now : Nat) : Bool :=
  match row.leaseHolder, row.leaseExpiresAt with
  | some other, some expiresAt => decide (other ≠ holder) && decide (expiresAt > now)
  | _, _ => false

/-- Not `row.lease_holder !== holder || !row.lease_expires_at || … <= now`. -/
def heldBy (holder : Holder) (now : Nat) : Bool :=
  match row.leaseHolder, row.leaseExpiresAt with
  | some other, some expiresAt => decide (other = holder) && decide (now < expiresAt)
  | _, _ => false

def claim (holder : Holder) (ttlMs now : Nat) : RepoReply × RepoStreamRow :=
  if row.held holder now then (.leased false, row)
  else
    (.leased true,
      { row with
        leaseHolder := some holder
        leaseExpiresAt := some (now + ttlMs)
        leaseTtlMs := some ttlMs
        updatedAt := now })

def beat (holder : Holder) (now : Nat) : RepoReply × RepoStreamRow :=
  if row.heldBy holder now then
    (.leased true,
      { row with
        leaseExpiresAt := some (now + row.leaseTtlMs.getD 0)
        heartbeatAt := some now
        updatedAt := now })
  else (.leased false, row)

def release (holder : Holder) (now : Nat) : RepoReply × RepoStreamRow :=
  if row.leaseHolder = some holder then
    (.released,
      { row with
        leaseHolder := none, leaseExpiresAt := none, leaseTtlMs := none, updatedAt := now })
  else (.released, row)

def beginRepoTick (holder : Holder) (clock : Clock) : RepoReply × RepoStreamRow :=
  if row.heldBy holder clock.now then
    (.begun (some clock.stamp),
      { row with
        tick := some (openedTick holder clock.stamp row.tick)
        updatedAt := clock.stamp })
  else (.begun none, row)

/-- `COALESCE(MAX(seq), 0)`. -/
def tailSeq (events : List RepositoryEvent) : Nat := (events.map (·.seq)).foldl max 0

/-- Insert the event after the highest seq. -/
def appendRepoLocked (events : List RepositoryEvent) (event : RepositoryEventWrite) (ts : Nat) :
    RepositoryEvent :=
  { event with seq := tailSeq events + 1, ts := ts }

/-- One event after another: the envelopes and the journal they leave. -/
def appendAll (ts : Nat) : List RepositoryEvent → List RepositoryEventWrite →
    List RepositoryEvent × List RepositoryEvent
  | events, [] => ([], events)
  | events, event :: rest =>
    let envelope := appendRepoLocked events event ts
    let (later, journal) := appendAll ts (events ++ [envelope]) rest
    (envelope :: later, journal)

def finishRepoTick (holder : Holder) (completion : RepoTickCompletion)
    (events : List RepositoryEventWrite) (clock : Clock) : RepoReply × RepoStreamRow :=
  match validateTickFinish holder completion events with
  | .error message => (.threw message, row)
  | .ok validated =>
    if row.heldBy holder clock.now then
      match openBy row.tick holder with
      | none => (.threw "no open repository tick", row)
      | some startedAt =>
        let (appended, journal) := appendAll clock.stamp row.events validated
        let tick := closedTick holder completion startedAt clock.stamp
        (.finished (some ⟨tick, appended⟩),
          { row with tick := some tick, events := journal, updatedAt := clock.stamp })
    else (.finished none, row)

def call (request : RepoCall) (clock : Clock) : RepoReply × RepoStreamRow :=
  match request with
  | .claimRepoLease holder ttlMs => row.claim holder ttlMs clock.now
  | .heartbeatRepo holder => row.beat holder clock.now
  | .releaseRepoLease holder => row.release holder clock.now
  | .beginRepoTick holder => row.beginRepoTick holder clock
  | .finishRepoTick holder completion events => row.finishRepoTick holder completion events clock

end RepoStreamRow

end Autobuild
