/-
# The metadata of a repository view

A view keeps the records of all builds and the digests of its repository, with markers for what
a write made stale.  Reads of the backing run one at a time in a chain; a marker is cleared
before the read it guards, and a write that resolves meanwhile sets it again.

* `startTask`, `resumeListed`, `resumeDigests`, `failRead`: the parts of a task between its
  awaits.
* `MetaStep`: writers, calls and replies of the backing in any order, any read failing at any
  time.
* `MetaRun`: the runs of it.
* `Reflects`: an answer shows every create and append that had resolved before its call.
-/
import Autobuild.Lib.ObjectMap
import Mathlib.Logic.Relation

namespace Autobuild

open ObjectMap

/-! ## 1. Writes, and what a read shows of them -/

inductive MetaWriteKind where
  | create
  | append
  | lease
  deriving DecidableEq

/-- A committed write to a build. -/
structure MetaWrite where
  kind : MetaWriteKind
  slug : String
  repo : String
  deriving DecidableEq

/-- A record, as of a number of writes of the store. -/
structure ListedBuild where
  slug : String
  repo : String
  asOf : Nat
  deriving DecidableEq

/-- Digests by slug, each as of a number of writes of the store. -/
abbrev ListedDigests := JsMap String Nat

/-! ## 2. The view -/

structure RepoMeta where
  initialized : Bool := false
  records : List ListedBuild := []
  recordsDirty : Bool := true
  discovery : ListedDigests := ∅
  /-- A `Set` of slugs. -/
  dirtyDigests : List String := []
  discoveryDirty : Bool := true

inductive MetaTask where
  | refresh
  | list
  | digests
  deriving DecidableEq

/-- What a task awaits. -/
inductive MetaRead where
  /-- `refresh`: `backing.listBuilds()` -/
  | refreshRecords
  /-- `refresh`: `readBuildDigests` -/
  | refreshDigests
  /-- `listBuilds`: `backing.listBuilds()` -/
  | records
  /-- `getRepoBuildDigests`: `readBuildDigests` -/
  | digests
  /-- `getRepoBuildDigests`: the persisted digests of records that were dirty. -/
  | dirty (asked : List ListedBuild)
  /-- `getRepoBuildDigests`: those of records without a digest. -/
  | missing (asked : List ListedBuild)

namespace RepoMeta

def invalidate (view : RepoMeta) (slug : Option String) : RepoMeta :=
  { view with
    recordsDirty := true
    dirtyDigests := match slug with
      | some slug => if slug = "" then view.dirtyDigests else slug :: view.dirtyDigests
      | none => view.dirtyDigests }

/-- A create or an append names its build, a lease call does not. -/
def resolved (view : RepoMeta) (write : MetaWrite) : RepoMeta :=
  view.invalidate (if write.kind = .lease then none else some write.slug)

def missingRecords (view : RepoMeta) (repo : String) : List ListedBuild :=
  view.records.filter fun record =>
    record.repo = repo ∧ (view.discovery.get? ⟨record.slug⟩).isNone = true

def readMissing (view : RepoMeta) (repo : String) : RepoMeta × Option MetaRead :=
  if view.missingRecords repo = [] then (view, none)
  else (view, some (.missing (view.missingRecords repo)))

def dirtyRecords (view : RepoMeta) : List ListedBuild :=
  view.records.filter fun record => record.slug ∈ view.dirtyDigests

def readDirty (view : RepoMeta) (repo : String) : RepoMeta × Option MetaRead :=
  if view.dirtyDigests = [] then view.readMissing repo
  else ({ view with dirtyDigests := [] }, some (.dirty view.dirtyRecords))

/-- A task up to its first await. -/
def startTask (view : RepoMeta) (repo : String) : MetaTask → RepoMeta × Option MetaRead
  | .refresh =>
    ({ view with recordsDirty := false, discoveryDirty := false, dirtyDigests := [] },
      some .refreshRecords)
  | .list =>
    if view.recordsDirty then ({ view with recordsDirty := false }, some .records)
    else (view, none)
  | .digests =>
    if view.discoveryDirty then ({ view with discoveryDirty := false }, some .digests)
    else view.readDirty repo

/-- `for (const [slug, digest] of ..) this.discovery.set(slug, digest)` -/
def mergeDigests (view : RepoMeta) (digests : ListedDigests) : RepoMeta :=
  { view with
    discovery := digests.entries.foldl (fun found entry => found.set entry.1 entry.2)
      view.discovery }

/-- On from an answer of `backing.listBuilds()`. -/
def resumeListed (view : RepoMeta) (records : List ListedBuild) :
    MetaRead → RepoMeta × Option MetaRead
  | .refreshRecords => ({ view with records := records }, some .refreshDigests)
  | _ => ({ view with records := records }, none)

/-- On from an answer with digests. -/
def resumeDigests (view : RepoMeta) (repo : String) (digests : ListedDigests) :
    MetaRead → RepoMeta × Option MetaRead
  | .refreshDigests => ({ view with discovery := digests, initialized := true }, none)
  | .digests => { view with discovery := digests }.readDirty repo
  | .dirty _ => (view.mergeDigests digests).readMissing repo
  | _ => (view.mergeDigests digests, none)

/-- A failed read puts the markers of the dirty records back, and no other. -/
def failRead (view : RepoMeta) : MetaRead → RepoMeta
  | .dirty asked => { view with dirtyDigests := asked.map (·.slug) ++ view.dirtyDigests }
  | _ => view

end RepoMeta

/-! ## 3. Calls in any order -/

inductive MetaCallKind where
  | refresh
  | list
  | digests
  deriving DecidableEq

/-- An open call, with the creates and appends that had resolved before it. -/
structure MetaCall where
  kind : MetaCallKind
  before : List (Nat × MetaWrite)

/-- Where a call is that has no task in the chain. -/
inductive MetaStage where
  /-- `refreshJournal` is pending. -/
  | journal
  /-- About to put a task in the chain. -/
  | next (task : MetaTask)

structure ChainedTask where
  call : MetaCall
  task : MetaTask

inductive MetaAnswer where
  | listed (records : List ListedBuild)
  | digests (digests : ListedDigests)

structure MetaSystem where
  /-- The writes of the store in commit order, of this view or not. -/
  committed : List MetaWrite := []
  /-- The creates and appends that resolved through the view. -/
  resolved : List (Nat × MetaWrite) := []
  view : RepoMeta := {}
  waiting : List (MetaCall × MetaStage) := []
  /-- `metaChain`: the head runs once it started. -/
  chain : List ChainedTask := []
  /-- What the head awaits, and how many writes there were when it asked. -/
  running : Option (MetaRead × Nat) := none
  answered : List (MetaCall × MetaAnswer) := []

namespace MetaSystem

variable (system : MetaSystem)

def called (kind : MetaCallKind) : MetaSystem :=
  { system with
    waiting := (⟨kind, system.resolved⟩,
      if kind ≠ .refresh ∧ system.view.initialized = true then .next .list else .journal)
        :: system.waiting }

/-- The end of a task: its call goes on, or answers. -/
def finish (view : RepoMeta) (head : ChainedTask) (rest : List ChainedTask) : MetaSystem :=
  let system := { system with view := view, chain := rest, running := none }
  match head.task, head.call.kind with
  | .refresh, .refresh => system
  | .refresh, _ => { system with waiting := (head.call, .next .list) :: system.waiting }
  | .list, .digests => { system with waiting := (head.call, .next .digests) :: system.waiting }
  | .list, _ => { system with answered := (head.call, .listed view.records) :: system.answered }
  | .digests, _ =>
    { system with answered := (head.call, .digests view.discovery) :: system.answered }

/-- On to the next await, or to the end of the task. -/
def proceed (head : ChainedTask) (rest : List ChainedTask) :
    RepoMeta × Option MetaRead → MetaSystem
  | (view, some read) =>
    { system with view := view, running := some (read, system.committed.length) }
  | (view, none) => system.finish view head rest

end MetaSystem

/-! ## 4. The backing store -/

/-- A listing shows every build of the writes that were there when it was asked for. -/
def HonestListing (committed : List MetaWrite) (floor : Nat) (records : List ListedBuild) :
    Prop :=
  ∀ position write, committed[position]? = some write → position < floor →
    ∃ record ∈ records, record.slug = write.slug ∧ record.repo = write.repo ∧
      floor ≤ record.asOf

def HonestDigests (repo : String) (committed : List MetaWrite) (floor : Nat)
    (digests : ListedDigests) : Prop :=
  ∀ position write, committed[position]? = some write → position < floor → write.repo = repo →
    ∃ asOf, digests.get? ⟨write.slug⟩ = some asOf ∧ floor ≤ asOf

/-- The persisted digests of some records: those of the repository, and no others. -/
structure HonestPersisted (repo : String) (asked : List ListedBuild) (floor : Nat)
    (digests : ListedDigests) : Prop where
  found : ∀ record ∈ asked, record.repo = repo → ∃ asOf, digests.get? ⟨record.slug⟩ = some asOf
  current : ∀ slug asOf, digests.get? ⟨slug⟩ = some asOf → floor ≤ asOf ∧
    ∃ record ∈ asked, record.repo = repo ∧ record.slug = slug

def HonestReply (repo : String) (committed : List MetaWrite) (floor : Nat)
    (digests : ListedDigests) : MetaRead → Prop
  | .refreshDigests => HonestDigests repo committed floor digests
  | .digests => HonestDigests repo committed floor digests
  | .dirty asked => HonestPersisted repo asked floor digests
  | .missing asked => HonestPersisted repo asked floor digests
  | _ => False

/-- `backing.listBuilds()` was asked. -/
def MetaRead.isListing : MetaRead → Bool
  | .refreshRecords => true
  | .records => true
  | _ => false

/-- The kinds of step that take a marker away. -/
inductive MetaLabel where
  | start
  | fail
  | other

inductive MetaStep (repo : String) (system : MetaSystem) : MetaLabel → MetaSystem → Prop
  /-- The store commits a write, of whoever writes. -/
  | commit (write : MetaWrite) : write.slug ≠ "" →
      MetaStep repo system .other { system with committed := system.committed ++ [write] }
  /-- A write resolves through the view. -/
  | resolve {position : Nat} {write : MetaWrite} :
      system.committed[position]? = some write →
      MetaStep repo system .other { system with
        view := system.view.resolved write
        resolved := if write.kind = .lease then system.resolved
          else (position, write) :: system.resolved }
  /-- A conditional append that lost. -/
  | lost (slug : String) :
      MetaStep repo system .other { system with view := system.view.invalidate (some slug) }
  | call (kind : MetaCallKind) : MetaStep repo system .other (system.called kind)
  | journal {call : MetaCall} {rest : List (MetaCall × MetaStage)} :
      system.waiting.Perm ((call, .journal) :: rest) →
      MetaStep repo system .other { system with waiting := (call, .next .refresh) :: rest }
  | journalFailed {call : MetaCall} {rest : List (MetaCall × MetaStage)} :
      system.waiting.Perm ((call, .journal) :: rest) →
      MetaStep repo system .other { system with waiting := rest }
  | enqueue {call : MetaCall} {task : MetaTask} {rest : List (MetaCall × MetaStage)} :
      system.waiting.Perm ((call, .next task) :: rest) →
      MetaStep repo system .other { system with
        waiting := rest
        chain := system.chain ++ [⟨call, task⟩] }
  | start {head : ChainedTask} {rest : List ChainedTask} : system.running = none →
      system.chain = head :: rest →
      MetaStep repo system .start (system.proceed head rest (system.view.startTask repo head.task))
  | listed {head : ChainedTask} {rest : List ChainedTask} {read : MetaRead} {floor : Nat}
      {records : List ListedBuild} : system.running = some (read, floor) →
      system.chain = head :: rest → read.isListing = true →
      HonestListing system.committed floor records →
      MetaStep repo system .other
        (system.proceed head rest (system.view.resumeListed records read))
  | digests {head : ChainedTask} {rest : List ChainedTask} {read : MetaRead} {floor : Nat}
      {digests : ListedDigests} : system.running = some (read, floor) →
      system.chain = head :: rest → HonestReply repo system.committed floor digests read →
      MetaStep repo system .other
        (system.proceed head rest (system.view.resumeDigests repo digests read))
  /-- A read fails, and its call with it. -/
  | fail {head : ChainedTask} {rest : List ChainedTask} {read : MetaRead} {floor : Nat} :
      system.running = some (read, floor) → system.chain = head :: rest →
      MetaStep repo system .fail { system with
        view := system.view.failRead read, chain := rest, running := none }

/-- Any run of the view. -/
def MetaRun (repo : String) (system : MetaSystem) : Prop :=
  Relation.ReflTransGen (fun before after => ∃ label, MetaStep repo before label after) {} system

/-! ## 5. What an answer shows -/

/-- A record shows a write. -/
def ShowsRecord (records : List ListedBuild) (mark : Nat × MetaWrite) : Prop :=
  ∃ record ∈ records, record.slug = mark.2.slug ∧ record.repo = mark.2.repo ∧
    mark.1 < record.asOf

def ShowsDigest (digests : ListedDigests) (mark : Nat × MetaWrite) : Prop :=
  ∃ asOf, digests.get? ⟨mark.2.slug⟩ = some asOf ∧ mark.1 < asOf

/-- The answer to a call shows every create and append that had resolved before it. -/
def Reflects (repo : String) (call : MetaCall) : MetaAnswer → Prop
  | .listed records => ∀ mark ∈ call.before, ShowsRecord records mark
  | .digests digests => ∀ mark ∈ call.before, mark.2.repo = repo → ShowsDigest digests mark

end Autobuild
