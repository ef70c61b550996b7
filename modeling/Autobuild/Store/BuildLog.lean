/-
# The in-memory store of one build

Four calls append an event to the log of a build, two of them together with artifacts, and a
fifth deposits an artifact alone.  A call runs without interruption up to its next await; the
artifact calls await the blob store once for each artifact they prepare, and commit in one piece
after the last.

* `prepareEventWrite` and `contentHash` are parameters: a raw write, and what makes it an event.
* A call that throws inside its commit leaves what it has written, so `depositAll` returns the
  build beside its error.
-/
import Autobuild.Kernel.NodeRewrites
import Autobuild.Lib.Json
import Mathlib.Data.List.Sort

namespace Autobuild

open ObjectMap

/-! ## 1. Records -/

structure ArtifactInput where
  kind : String
  content : String
  metadata : Option Json

structure ArtifactMeta where
  build : String
  kind : String
  revision : Nat
  blobRef : String
  metadata : Json
  createdAt : Nat

/-- A validated write; the store assigns `seq` and `ts`. -/
structure EventWrite where
  actor : Actor
  body : EventBody

structure MemoryBuild where
  events : List AbEvent := []
  artifacts : JsMap String (List ArtifactMeta) := ∅
  index : RewriteTables := {}
  updatedAt : Nat := 0

/-- What a store is made with. -/
structure MemoryStore (ω : Type) where
  slug : String
  prepareEventWrite : ω → Except String EventWrite
  contentHash : String → String
  maxRevisions : Int

/-- The log starts empty, or with the `build.created` the caller gave. -/
def MemoryBuild.createBuild (created : Option (Actor × BuildCreated)) (ts : Nat) : MemoryBuild :=
  { events := (created.map fun (actor, payload) =>
      (⟨1, ts, actor, .build (.created payload)⟩ : AbEvent)).toList
    updatedAt := ts }

/-! ## 2. Retention -/

def dispatcherRetentionRepoKinds : List String :=
  ["dispatcher-effective-config", "dispatcher-config"]

def operatorRetentionRepoKinds : List String := ["operator-notes"]

def dispatcherRetentionBuildKinds : List String := ["build-runner-effective-config"]

def isRetentionManagedKind (kind : String) : Bool :=
  decide (kind ∈ dispatcherRetentionRepoKinds) || decide (kind ∈ operatorRetentionRepoKinds)
    || decide (kind ∈ dispatcherRetentionBuildKinds)

/-- The revisions beyond the newest `maxRevisions`. -/
def revisionsToPrune (revisions : List Nat) (maxRevisions : Int) : Except String (List Nat) :=
  if maxRevisions < 1 then
    .error s!"maxRevisions must be a positive integer, got {maxRevisions}"
  else
    .ok (((revisions.insertionSort (· ≥ ·)).drop maxRevisions.toNat).insertionSort (· ≤ ·))

/-- Revisions prune from the front, so the length is not the next revision. -/
def nextRevision (revs : Option (List ArtifactMeta)) : Nat :=
  ((revs.bind List.getLast?).map (·.revision + 1)).getD 0

def MemoryBuild.revisions (state : MemoryBuild) (kind : String) : Option (List ArtifactMeta) :=
  state.artifacts.get? ⟨kind⟩

/-- `artifacts.set(kind, revs)`. -/
def MemoryBuild.keep (state : MemoryBuild) (kind : String) (revs : List ArtifactMeta) :
    MemoryBuild :=
  { state with artifacts := state.artifacts.set ⟨kind⟩ revs }

def pruneBuildKind (maxRevisions : Int) (state : MemoryBuild) (kind : String) :
    Except String MemoryBuild :=
  if !isRetentionManagedKind kind then .ok state
  else
    match state.revisions kind with
    | none => .ok state
    | some revs =>
      (revisionsToPrune (revs.map (·.revision)) maxRevisions).map fun pruned =>
        if pruned = [] then state
        else state.keep kind (revs.filter fun artifact => artifact.revision ∉ pruned)

/-! ## 3. Commits -/

def envelope (seq ts : Nat) (write : EventWrite) : AbEvent := ⟨seq, ts, write.actor, write.body⟩

def MemoryBuild.push (state : MemoryBuild) (event : AbEvent) : MemoryBuild :=
  { state with
    events := state.events ++ [event]
    index := state.index.append event
    updatedAt := event.ts }

structure PreparedArtifact where
  kind : String
  blobRef : String
  metadata : Json

/-- The revisions of a bundle: siblings of one kind take consecutive ones. -/
def assignRevisions (slug : String) (artifacts : JsMap String (List ArtifactMeta)) (ts : Nat) :
    JsMap String Nat → List PreparedArtifact → List ArtifactMeta
  | _, [] => []
  | nextRev, p :: rest =>
    let revision := (nextRev.get? ⟨p.kind⟩).getD (nextRevision (artifacts.get? ⟨p.kind⟩))
    { build := slug, kind := p.kind, revision, blobRef := p.blobRef, metadata := p.metadata
      createdAt := ts }
      :: assignRevisions slug artifacts ts (nextRev.set ⟨p.kind⟩ (revision + 1)) rest

def MemoryBuild.deposit (state : MemoryBuild) (artifact : ArtifactMeta) : MemoryBuild :=
  state.keep artifact.kind ((state.revisions artifact.kind).getD [] ++ [artifact])

/-- The deposits of a bundle, each followed by its prune; what a throw leaves is returned. -/
def depositAll (maxRevisions : Int) : MemoryBuild → List ArtifactMeta →
    MemoryBuild × Option String
  | state, [] => (state, none)
  | state, artifact :: rest =>
    match pruneBuildKind maxRevisions (state.deposit artifact) artifact.kind with
    | .error message => (state.deposit artifact, some message)
    | .ok pruned => depositAll maxRevisions pruned rest

inductive WriteReply where
  | appended (event : AbEvent) (artifacts : List ArtifactMeta)
  | deposited (artifact : ArtifactMeta)
  /-- `null`: the expected seq is not the current one. -/
  | stale
  | failed (message : String)
  /-- The call awaits the blob store. -/
  | suspended
  /-- No call was waiting. -/
  | idle

/-- The revisions a reply reports. -/
def WriteReply.assigned : WriteReply → List ArtifactMeta
  | .appended _ artifacts => artifacts
  | .deposited artifact => [artifact]
  | _ => []

/-- The call did not go through. -/
def WriteReply.rejected : WriteReply → Bool
  | .stale => true
  | .failed _ => true
  | _ => false

section

variable {ω : Type}

/-- `validateExpectedSeq`. -/
def expectedSeqError? (expectedSeq : Option Int) : Option String :=
  match expectedSeq with
  | some expected =>
    if expected < 0 then some s!"expectedSeq must be a nonnegative integer, got {expected}"
    else none
  | none => none

def MemoryStore.append (store : MemoryStore ω) (state : MemoryBuild) (event : ω) (ts : Nat) :
    WriteReply × MemoryBuild :=
  match store.prepareEventWrite event with
  | .error message => (.failed message, state)
  | .ok write =>
    let event := envelope (state.events.length + 1) ts write
    (.appended event [], state.push event)

def MemoryStore.appendIfCurrent (store : MemoryStore ω) (state : MemoryBuild)
    (expectedSeq : Int) (event : ω) (ts : Nat) : WriteReply × MemoryBuild :=
  match expectedSeqError? (some expectedSeq), store.prepareEventWrite event with
  | some message, _ => (.failed message, state)
  | none, .error message => (.failed message, state)
  | none, .ok write =>
    if (state.events.length : Int) ≠ expectedSeq then (.stale, state)
    else
      let event := envelope (expectedSeq.toNat + 1) ts write
      (.appended event [], state.push event)

/-- The commit of a bundle.  The event is validated before the first deposit. -/
def MemoryStore.commitBundle (store : MemoryStore ω) (state : MemoryBuild)
    (expectedSeq : Option Int) (prepared : List PreparedArtifact)
    (makeEvent : List ArtifactMeta → Except String ω) (ts : Nat) : WriteReply × MemoryBuild :=
  if expectedSeq ≠ none ∧ expectedSeq ≠ some (state.events.length : Int) then (.stale, state)
  else
    let deposited := assignRevisions store.slug state.artifacts ts ∅ prepared
    match makeEvent deposited >>= store.prepareEventWrite with
    | .error message => (.failed message, state)
    | .ok write =>
      match depositAll store.maxRevisions state deposited with
      | (state, some message) => (.failed message, state)
      | (state, none) =>
        let event := envelope (state.events.length + 1) ts write
        (.appended event deposited, state.push event)

/-- The commit of a lone artifact. -/
def MemoryStore.commitArtifact (store : MemoryStore ω) (state : MemoryBuild)
    (prepared : PreparedArtifact) (ts : Nat) : WriteReply × MemoryBuild :=
  let artifact : ArtifactMeta :=
    { build := store.slug
      kind := prepared.kind
      revision := nextRevision (state.revisions prepared.kind)
      blobRef := prepared.blobRef
      metadata := prepared.metadata
      createdAt := ts }
  match pruneBuildKind store.maxRevisions (state.deposit artifact) artifact.kind with
  | .error message => (.failed message, state.deposit artifact)
  | .ok pruned => (.deposited artifact, { pruned with updatedAt := ts })

def MemoryStore.prepare (store : MemoryStore ω) (artifact : ArtifactInput) : PreparedArtifact :=
  ⟨artifact.kind, store.contentHash artifact.content, artifact.metadata.getD (.obj [])⟩

/-! ## 4. Calls and their awaits -/

/-- A call at its await of `blobs.put`. -/
inductive WriteTask (ω : Type) where
  | bundle (expectedSeq : Option Int) (current : ArtifactInput) (rest : List ArtifactInput)
      (prepared : List PreparedArtifact) (makeEvent : List ArtifactMeta → Except String ω)
  | lone (artifact : ArtifactInput)

structure StoreSystem (ω : Type) where
  build : MemoryBuild
  tasks : List (WriteTask ω) := []

inductive WriteCall (ω : Type) where
  | append (event : ω)
  | appendIfCurrent (expectedSeq : Int) (event : ω)
  | appendWithArtifacts (artifacts : List ArtifactInput)
      (makeEvent : List ArtifactMeta → Except String ω)
  | appendWithArtifactsIfCurrent (expectedSeq : Int) (artifacts : List ArtifactInput)
      (makeEvent : List ArtifactMeta → Except String ω)
  | putArtifact (artifact : ArtifactInput)
  /-- The blob store answers the call at the position: it stored the blob, or failed. -/
  | resume (position : Nat) (stored : Bool)

/-- The loop of a bundle's preparation, up to its next await or the commit. -/
def prepareNext (store : MemoryStore ω) (system : StoreSystem ω) (expectedSeq : Option Int)
    (prepared : List PreparedArtifact) (makeEvent : List ArtifactMeta → Except String ω)
    (ts : Nat) : List ArtifactInput → WriteReply × StoreSystem ω
  | [] =>
    let (reply, build) := store.commitBundle system.build expectedSeq prepared makeEvent ts
    (reply, { system with build })
  | artifact :: rest =>
    if artifact.kind = "" then (.failed "artifact kind is required", system)
    else
      (.suspended, { system with
        tasks := system.tasks ++ [.bundle expectedSeq artifact rest prepared makeEvent] })

def startBundle (store : MemoryStore ω) (system : StoreSystem ω) (expectedSeq : Option Int)
    (artifacts : List ArtifactInput) (makeEvent : List ArtifactMeta → Except String ω)
    (ts : Nat) : WriteReply × StoreSystem ω :=
  match expectedSeqError? expectedSeq with
  | some message => (.failed message, system)
  | none => prepareNext store system expectedSeq [] makeEvent ts artifacts

/-- A call that awaited goes on. -/
def resumeTask (store : MemoryStore ω) (system : StoreSystem ω) (stored : Bool) (ts : Nat) :
    WriteTask ω → WriteReply × StoreSystem ω
  | .bundle expectedSeq current rest prepared makeEvent =>
    if !stored then (.failed "blob store", system)
    else
      prepareNext store system expectedSeq (prepared ++ [store.prepare current]) makeEvent ts rest
  | .lone artifact =>
    if !stored then (.failed "blob store", system)
    else
      let (reply, build) := store.commitArtifact system.build (store.prepare artifact) ts
      (reply, { system with build })

/-- One uninterrupted stretch of one call; the clock reads `ts`. -/
def stepCall (store : MemoryStore ω) (system : StoreSystem ω) (ts : Nat) :
    WriteCall ω → WriteReply × StoreSystem ω
  | .append event =>
    let (reply, build) := store.append system.build event ts
    (reply, { system with build })
  | .appendIfCurrent expectedSeq event =>
    let (reply, build) := store.appendIfCurrent system.build expectedSeq event ts
    (reply, { system with build })
  | .appendWithArtifacts artifacts makeEvent =>
    startBundle store system none artifacts makeEvent ts
  | .appendWithArtifactsIfCurrent expectedSeq artifacts makeEvent =>
    startBundle store system (some expectedSeq) artifacts makeEvent ts
  | .putArtifact artifact =>
    if artifact.kind = "" then (.failed "artifact kind is required", system)
    else (.suspended, { system with tasks := system.tasks ++ [.lone artifact] })
  | .resume position stored =>
    match system.tasks[position]? with
    | none => (.idle, system)
    | some task =>
      resumeTask store { system with tasks := system.tasks.eraseIdx position } stored ts task

/-- The stretches in the order they run. -/
def runCalls (store : MemoryStore ω) :
    StoreSystem ω → List (Nat × WriteCall ω) → List WriteReply × StoreSystem ω
  | system, [] => ([], system)
  | system, (ts, call) :: rest =>
    let (reply, next) := stepCall store system ts call
    let (replies, last) := runCalls store next rest
    (reply :: replies, last)

end

end Autobuild
