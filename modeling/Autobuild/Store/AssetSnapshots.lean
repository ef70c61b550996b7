/-
# Ticket asset snapshots

A build pins the ticket assets it was claimed with.  Where the assets live outside the build store,
their bytes are copied into it: a file in chunks, and a manifest that refers to the chunks, each an
artifact of its own kind.

* `prepareAssetSnapshots` copies; other deposits may come before any of its own (`others`).
* `readAssetSnapshot` reads one asset back from what the store answers to its calls.  Nothing is
  assumed of the answers.

Compression, the content hash, the UUIDs and the parser of the manifest's JSON are parameters.
-/
import Autobuild.Ports.TicketFile
import Autobuild.Store.BuildLog

namespace Autobuild.AssetSnapshots

open Utf8 StreamJson TicketFile
open JsText (MAX_SAFE_INTEGER)

/-! ## 1. Assets -/

/-- An entry of the metadata, which has the hash of a file in place of its content. -/
inductive TicketAssetEntry where
  | file (path : Text) (size : Nat) (blobRef : Text)
  | dir (path : Text)
  deriving DecidableEq

namespace TicketAssetEntry

def path : TicketAssetEntry → Text
  | .file path _ _ => path
  | .dir path => path

def isFile : TicketAssetEntry → Bool
  | .file _ _ _ => true
  | .dir _ => false

end TicketAssetEntry

structure TicketAssetMeta where
  repo : Text
  ticketId : Text
  kind : Text
  name : Text
  revision : Nat
  layout : TicketAssetLayout
  size : Nat
  createdAt : Text
  entries : List TicketAssetEntry
  deriving DecidableEq

structure TicketAssetSummary where
  repo : Text
  ticketId : Text
  kind : Text
  name : Text
  revision : Nat
  layout : TicketAssetLayout
  size : Nat
  fileCount : Nat
  dirCount : Nat
  createdAt : Text
  deriving DecidableEq

/-- An asset with the content of its files. -/
structure TicketAsset where
  info : TicketAssetMeta
  entries : List TicketAssetEntryInput

/-- An artifact of the repository. -/
structure SnapshotRef where
  kind : String
  revision : Nat
  deriving DecidableEq

structure PinnedAsset where
  kind : Text
  name : Text
  revision : Nat
  layout : TicketAssetLayout
  size : Nat
  fileCount : Nat
  dirCount : Nat
  snapshot : Option SnapshotRef
  deriving DecidableEq

def summarizeTicketAsset (info : TicketAssetMeta) : TicketAssetSummary where
  repo := info.repo
  ticketId := info.ticketId
  kind := info.kind
  name := info.name
  revision := info.revision
  layout := info.layout
  size := info.size
  fileCount := (info.entries.filter TicketAssetEntry.isFile).length
  dirCount := (info.entries.filter fun entry => !entry.isFile).length
  createdAt := info.createdAt

def pinnedAssetOf (summary : TicketAssetSummary) : PinnedAsset where
  kind := summary.kind
  name := summary.name
  revision := summary.revision
  layout := summary.layout
  size := summary.size
  fileCount := summary.fileCount
  dirCount := summary.dirCount
  snapshot := none

/-! ## 2. Manifests -/

def CHUNK_BYTES : Nat := 256 * 1024

/-- `maxOutputLength` of the inflation. -/
def MAX_MANIFEST_BYTES : Nat := 4 * 1024 * 1024

structure ChunkRef extends SnapshotRef where
  hash : Text
  size : Nat
  deriving DecidableEq

structure SnapshotFile where
  path : Text
  chunks : List ChunkRef
  deriving DecidableEq

structure SnapshotManifest where
  info : TicketAssetMeta
  files : List SnapshotFile
  deriving DecidableEq

def snapshotKindPrefix : String := "ticket-snapshot-"

/-- `[a-f0-9-]`. -/
def isUuidChar (c : Char) : Bool :=
  ('a' ≤ c && c ≤ 'f') || ('0' ≤ c && c ≤ '9') || c = '-'

/-- `/^ticket-snapshot-[a-f0-9-]+$/`. -/
def isSnapshotKind (kind : String) : Bool :=
  let rest := kind.toList.drop snapshotKindPrefix.length
  kind.toList.take snapshotKindPrefix.length = snapshotKindPrefix.toList && rest ≠ [] &&
    rest.all isUuidChar

def ChunkRef.valid (chunk : ChunkRef) : Bool :=
  isSnapshotKind chunk.kind && chunk.revision ≤ MAX_SAFE_INTEGER && 1 ≤ chunk.size &&
    chunk.size ≤ CHUNK_BYTES

/-- The checks of `manifestSchema.shape.meta` beside the types of the fields. -/
def metaSchema (info : TicketAssetMeta) : Bool :=
  info.revision ≤ MAX_SAFE_INTEGER && info.size ≤ MAX_SAFE_INTEGER &&
    info.entries.all fun entry =>
      match entry with
      | .file _ size _ => size ≤ MAX_SAFE_INTEGER
      | .dir _ => true

/-- The checks of `manifestSchema` beside the types of the fields. -/
def manifestSchema (manifest : SnapshotManifest) : Bool :=
  metaSchema manifest.info && manifest.files.all fun file => file.chunks.all ChunkRef.valid

def entryMetaJson : TicketAssetEntry → StreamJson
  | .dir path => .obj [(points "type", .str (points "dir")), (points "path", .str path)]
  | .file path size blobRef =>
    .obj [(points "type", .str (points "file")), (points "path", .str path),
      (points "size", .num (toString size)), (points "blobRef", .str blobRef)]

def metaJson (info : TicketAssetMeta) : StreamJson :=
  .obj [(points "repo", .str info.repo), (points "ticketId", .str info.ticketId),
    (points "kind", .str info.kind), (points "name", .str info.name),
    (points "revision", .num (toString info.revision)), (points "layout", .str info.layout.text),
    (points "size", .num (toString info.size)), (points "createdAt", .str info.createdAt),
    (points "entries", .arr (info.entries.map entryMetaJson))]

def chunkJson (chunk : ChunkRef) : StreamJson :=
  .obj [(points "kind", .str (points chunk.kind)),
    (points "revision", .num (toString chunk.revision)),
    (points "size", .num (toString chunk.size)), (points "hash", .str chunk.hash)]

def fileJson (file : SnapshotFile) : StreamJson :=
  .obj [(points "path", .str file.path), (points "chunks", .arr (file.chunks.map chunkJson))]

/-- The text of a manifest before it is compressed. -/
def manifestText (manifest : SnapshotManifest) : Text :=
  stringify (.obj [(points "version", .num "1"), (points "meta", metaJson manifest.info),
    (points "files", .arr (manifest.files.map fileJson))])

/-- The bytes of a text. -/
def toBytes (text : Text) : Bytes := (encode text).map (Fin.ofNat 256)

/-- What the snapshots use of the platform. -/
structure SnapshotRuntime where
  contentHash : Bytes → Text
  gzipSync : Bytes → Bytes
  /-- Nothing, where the bytes are not a compressed content of at most so many bytes. -/
  gunzipSync : Bytes → Nat → Option Bytes
  /-- The manifest whose fields the JSON of the bytes has, and no others. -/
  parseManifest : Bytes → Option SnapshotManifest
  /-- The UUID of a call. -/
  randomUUID : Nat → String

/-! ## 3. The store of the repository -/

structure StoredArtifact where
  kind : String
  revision : Nat
  content : Bytes

/-- The artifacts, the oldest first. -/
abbrev ArtifactStore := List StoredArtifact

def revisionsOf (store : ArtifactStore) (kind : String) : List Nat :=
  (store.filter fun artifact => artifact.kind = kind).map (·.revision)

/-- The bound on the revisions is positive. -/
def pruneRepoKind (maxRevisions : Int) (store : ArtifactStore) (kind : String) : ArtifactStore :=
  if !isRetentionManagedKind kind then store
  else
    let pruned := (revisionsToPrune (revisionsOf store kind) maxRevisions).toOption.getD []
    store.filter fun artifact => artifact.kind ≠ kind ∨ artifact.revision ∉ pruned

inductive SnapshotError where
  | kindRequired
  | assetMissing
  | schema
  | validation (error : TicketAssetError)
  | metadata
  | content
  | noReference
  | manifestMissing
  | manifestUnreadable
  | files
  | chunks
  | chunkCorrupt

def putRepoArtifact (maxRevisions : Int) (store : ArtifactStore) (kind : String) (content : Bytes) :
    Except SnapshotError (Nat × ArtifactStore) :=
  if kind = "" then .error .kindRequired
  else
    let revision := ((revisionsOf store kind).getLast?.map (· + 1)).getD 0
    .ok (revision, pruneRepoKind maxRevisions (store ++ [⟨kind, revision, content⟩]) kind)

def getRepoArtifact (store : ArtifactStore) (ref : SnapshotRef) : Option Bytes :=
  (store.find? fun artifact => artifact.kind = ref.kind ∧ artifact.revision = ref.revision).map
    (·.content)

/-- Deposits by others; one that is refused changes nothing. -/
def depositOthers (maxRevisions : Int) (store : ArtifactStore) :
    List (String × Bytes) → ArtifactStore
  | [] => store
  | (kind, content) :: rest =>
    match putRepoArtifact maxRevisions store kind content with
    | .ok (_, store) => depositOthers maxRevisions store rest
    | .error _ => depositOthers maxRevisions store rest

/-! ## 4. Checks -/

/-- The structure check reads the path of an entry and the size of a file; zeros stand for the
content. -/
def TicketAssetEntry.outline : TicketAssetEntry → TicketAssetEntryInput
  | .file path size _ => .file path (List.replicate size 0)
  | .dir path => .dir path

def TicketAssetMeta.outline (info : TicketAssetMeta) : TicketAssetInput :=
  ⟨info.kind, info.name, info.layout, info.entries.map TicketAssetEntry.outline⟩

/-- Whether a pin has every value of a summary. -/
def PinnedAsset.agrees (pin summary : PinnedAsset) : Bool :=
  { pin with snapshot := none } = { summary with snapshot := none }

def verifyMetadata (info : TicketAssetMeta) (repo ticketId : Text) (pin : PinnedAsset) :
    Except SnapshotError Unit :=
  if info.repo ≠ repo ∨ info.ticketId ≠ ticketId ∨
      pin.agrees (pinnedAssetOf (summarizeTicketAsset info)) = false then .error .metadata
  else
    match validateTicketAssetStructure info.outline DEFAULT_TICKET_ASSET_LIMITS with
    | .error error => .error (.validation error)
    | .ok size => if size = info.size then .ok () else .error .metadata

/-- Whether an entry has the path, the type, the size and the hash of the metadata. -/
def sameEntry (runtime : SnapshotRuntime) : TicketAssetEntryInput → TicketAssetEntry → Bool
  | .dir path, .dir stored => path = stored
  | .file path content, .file stored size blobRef =>
    path = stored && content.length = size && runtime.contentHash content = blobRef
  | _, _ => false

def verify (runtime : SnapshotRuntime) (asset : TicketAsset) (repo ticketId : Text)
    (pin : PinnedAsset) : Except SnapshotError Unit :=
  match verifyMetadata asset.info repo ticketId pin with
  | .error error => .error error
  | .ok () =>
    match validateTicketAssetInput ⟨asset.info.kind, asset.info.name, asset.info.layout,
        asset.entries⟩ DEFAULT_TICKET_ASSET_LIMITS with
    | .error error => .error (.validation error)
    | .ok size =>
      if size ≠ asset.info.size ∨ asset.entries.length ≠ asset.info.entries.length then
        .error .metadata
      else if (asset.entries.zip asset.info.entries).all
          (fun entry => sameEntry runtime entry.1 entry.2) = true then .ok ()
      else .error .content

/-! ## 5. Copying -/

/-- The slices of a content, of `CHUNK_BYTES` each but the last. -/
def slices (content : Bytes) : List Bytes :=
  if content = [] then []
  else content.take CHUNK_BYTES :: slices (content.drop CHUNK_BYTES)
termination_by content.length
decreasing_by
  have hpos := List.length_pos_of_ne_nil ‹_›
  simp only [List.length_drop, CHUNK_BYTES]
  omega

/-- What others deposit before each of the copy's own deposits. -/
structure Surroundings where
  maxRevisions : Int
  others : Nat → List (String × Bytes)

/-- The store, and the number of deposits that the copy has made. -/
structure CopyState where
  store : ArtifactStore
  deposits : Nat

def snapshotKind (runtime : SnapshotRuntime) (call : Nat) : String :=
  snapshotKindPrefix ++ runtime.randomUUID call

section Copy

variable (runtime : SnapshotRuntime) (around : Surroundings)

/-- One deposit under a new kind, after those of others. -/
def deposit (content : Bytes) (state : CopyState) :
    Except SnapshotError (SnapshotRef × CopyState) :=
  let kind := snapshotKind runtime state.deposits
  let store := depositOthers around.maxRevisions state.store (around.others state.deposits)
  match putRepoArtifact around.maxRevisions store kind content with
  | .error error => .error error
  | .ok (revision, store) => .ok (⟨kind, revision⟩, ⟨store, state.deposits + 1⟩)

def putChunks : List Bytes → CopyState → Except SnapshotError (List ChunkRef × CopyState)
  | [], state => .ok ([], state)
  | bytes :: rest, state => do
    let (ref, state) ← deposit runtime around bytes state
    let (chunks, state) ← putChunks rest state
    return (⟨ref, runtime.contentHash bytes, bytes.length⟩ :: chunks, state)

def putFiles :
    List TicketAssetEntryInput → CopyState → Except SnapshotError (List SnapshotFile × CopyState)
  | [], state => .ok ([], state)
  | .dir _ :: rest, state => putFiles rest state
  | .file path content :: rest, state => do
    let (chunks, state) ← putChunks runtime around (slices content) state
    let (files, state) ← putFiles rest state
    return (⟨path, chunks⟩ :: files, state)

/-- The manifest of an asset, with its chunks deposited. -/
def snapshotManifest (asset : TicketAsset) (ticketId : Text) (state : CopyState) :
    Except SnapshotError (SnapshotManifest × CopyState) := do
  let (files, state) ← putFiles runtime around asset.entries state
  return (⟨{ asset.info with ticketId }, files⟩, state)

/-- Where the assets are copied from. -/
structure AssetSource where
  listTicketAssets : List TicketAssetSummary
  getTicketAsset : Text → Text → Nat → Option TicketAsset

/-- One pin, with its snapshot. -/
def prepareSnapshot (source : AssetSource) (repo ticketId canonicalTicketId : Text)
    (pin : PinnedAsset) (state : CopyState) : Except SnapshotError (PinnedAsset × CopyState) :=
  match source.getTicketAsset pin.kind pin.name pin.revision with
  | none => .error .assetMissing
  | some asset => do
    if metaSchema asset.info = false then throw .schema
    verify runtime asset repo canonicalTicketId pin
    let (manifest, state) ← snapshotManifest runtime around asset ticketId state
    let (ref, state) ← deposit runtime around (runtime.gzipSync (toBytes (manifestText manifest)))
      state
    return ({ pin with snapshot := some ref }, state)

def prepareSnapshots (source : AssetSource) (repo ticketId canonicalTicketId : Text) :
    List PinnedAsset → CopyState → Except SnapshotError (List PinnedAsset × CopyState)
  | [], state => .ok ([], state)
  | pin :: rest, state => do
    let (pin, state) ←
      prepareSnapshot runtime around source repo ticketId canonicalTicketId pin state
    let (pins, state) ← prepareSnapshots source repo ticketId canonicalTicketId rest state
    return (pin :: pins, state)

/-- The assets of a ticket are copied in the order of the list. -/
def prepareAssetSnapshots (source : AssetSource) (repo ticketId canonicalTicketId : Text)
    (store : ArtifactStore) : Except SnapshotError (List PinnedAsset × CopyState) :=
  prepareSnapshots runtime around source repo ticketId canonicalTicketId
    (source.listTicketAssets.map pinnedAssetOf) ⟨store, 0⟩

end Copy

/-! ## 6. Reading -/

/-- What the store answers to a call, which may differ from call to call. -/
abbrev Answers := Nat → SnapshotRef → Option Bytes

/-- The chunks of a file in their order, from a call on.  Their sizes add up to that of the file, so
they fill its array one after the other. -/
def readChunks (runtime : SnapshotRuntime) (answers : Answers) :
    List ChunkRef → Nat → Except SnapshotError (Bytes × Nat)
  | [], call => .ok ([], call)
  | chunk :: rest, call =>
    match answers call chunk.toSnapshotRef with
    | none => .error .chunkCorrupt
    | some content =>
      if content.length ≠ chunk.size ∨ runtime.contentHash content ≠ chunk.hash then
        .error .chunkCorrupt
      else
        match readChunks runtime answers rest (call + 1) with
        | .error error => .error error
        | .ok (more, call) => .ok (content ++ more, call)

def readEntries (runtime : SnapshotRuntime) (answers : Answers) (files : List SnapshotFile) :
    List TicketAssetEntry → Nat → Except SnapshotError (List TicketAssetEntryInput)
  | [], _ => .ok []
  | .dir path :: rest, call => do
    let entries ← readEntries runtime answers files rest call
    return .dir path :: entries
  | .file path size _ :: rest, call =>
    match files.find? fun file => file.path = path with
    | none => .error .chunks
    | some file =>
      if (file.chunks.map (·.size)).sum ≠ size then .error .chunks
      else do
        let (content, call) ← readChunks runtime answers file.chunks call
        let entries ← readEntries runtime answers files rest call
        return .file path content :: entries

/-- The manifest that the store answers for a pin. -/
def answeredManifest (runtime : SnapshotRuntime) (answers : Answers) (ref : SnapshotRef) :
    Except SnapshotError SnapshotManifest :=
  match answers 0 ref with
  | none => .error .manifestMissing
  | some content =>
    match (runtime.gunzipSync content MAX_MANIFEST_BYTES).bind runtime.parseManifest with
    | none => .error .manifestUnreadable
    | some manifest => if manifestSchema manifest = true then .ok manifest else .error .schema

/-- An asset as its manifest describes it.  Two files of one path make the map of the files smaller
than their list. -/
def readManifest (runtime : SnapshotRuntime) (answers : Answers) (repo ticketId : Text)
    (pin : PinnedAsset) (historicalTicketId : Option Text) (manifest : SnapshotManifest) :
    Except SnapshotError TicketAsset := do
  let snapshotTicketId :=
    if some manifest.info.ticketId = historicalTicketId then manifest.info.ticketId else ticketId
  verifyMetadata manifest.info repo snapshotTicketId pin
  if ¬(manifest.files.map (·.path)).Nodup ∨
      manifest.files.length ≠ (manifest.info.entries.filter TicketAssetEntry.isFile).length then
    throw .files
  let entries ← readEntries runtime answers manifest.files manifest.info.entries 1
  verify runtime ⟨manifest.info, entries⟩ repo snapshotTicketId pin
  return ⟨manifest.info, entries⟩

def readAssetSnapshot (runtime : SnapshotRuntime) (answers : Answers) (repo ticketId : Text)
    (pin : PinnedAsset) (historicalTicketId : Option Text) : Except SnapshotError TicketAsset :=
  match pin.snapshot with
  | none => .error .noReference
  | some ref => do
    let manifest ← answeredManifest runtime answers ref
    readManifest runtime answers repo ticketId pin historicalTicketId manifest

end Autobuild.AssetSnapshots
