/-
# Reading ticket asset snapshots

* `readManifest_spec`: the entries come back from a store that still has what the copy deposited.
* `asset_snapshots`: so they do after any other deposits, if the texts that nothing bounds leave
  room for the manifest; and whatever the store answers, the reading throws, or it returns the
  entries, or the manifest that was answered lists others.

A pin has no hash of its manifest, so a manifest that lists other hashes of the same sizes passes,
with chunks to match (`snapshots_altered`).
-/
import Autobuild.Store.SnapshotManifestSize

namespace Autobuild.AssetSnapshots

open Utf8 StreamJson TicketFile

/-! ## 1. Chunks and files -/

section Read

variable {runtime : SnapshotRuntime} {state : CopyState} {answers : Answers}

/-- The answers are those of a store that still has what the copy deposited. -/
def Serves (runtime : SnapshotRuntime) (answers : Answers) (state : CopyState) : Prop :=
  ∀ n, ∀ call < state.deposits, ∀ revision : Nat,
    answers n ⟨snapshotKind runtime call, revision⟩ =
      getRepoArtifact state.store ⟨snapshotKind runtime call, revision⟩

theorem readChunks_spec (hserves : Serves runtime answers state) {parts : List Bytes}
    {chunks : List ChunkRef} (h : List.Forall₂ (HoldsChunk runtime state) parts chunks) :
    ∀ call, readChunks runtime answers chunks call = .ok (parts.flatten, call + parts.length) := by
  induction h with
  | nil => exact fun _ => rfl
  | cons hchunk _ ih =>
    intro call
    obtain ⟨deposit, hdeposit, rfl, hget⟩ := hchunk
    rw [readChunks, hserves call deposit hdeposit 0, hget]
    simp only [ne_eq, not_true_eq_false, or_self, if_false, ih, List.flatten_cons,
      List.length_cons]
    rw [Nat.add_assoc, Nat.add_comm 1]

theorem sum_size_of_holdsChunk {parts : List Bytes} {chunks : List ChunkRef}
    (h : List.Forall₂ (HoldsChunk runtime state) parts chunks) :
    (chunks.map (·.size)).sum = parts.flatten.length := by
  induction h with
  | nil => rfl
  | cons hchunk _ ih =>
    obtain ⟨deposit, -, rfl, -⟩ := hchunk
    rw [List.map_cons, List.sum_cons, ih, List.flatten_cons, List.length_append]

theorem path_of_holdsFile {sources : List (Text × Bytes)} {files : List SnapshotFile}
    (h : List.Forall₂ (HoldsFile runtime state) sources files) :
    files.map (·.path) = sources.map Prod.fst := by
  induction h with
  | nil => rfl
  | cons hfile _ ih => rw [List.map_cons, List.map_cons, ih, hfile.1]

theorem find_of_holdsFile {sources : List (Text × Bytes)} {files : List SnapshotFile}
    (h : List.Forall₂ (HoldsFile runtime state) sources files)
    (hnodup : (sources.map Prod.fst).Nodup) {source : Text × Bytes} (hsource : source ∈ sources) :
    ∃ file, files.find? (fun file => file.path = source.1) = some file ∧
      HoldsFile runtime state source file := by
  induction h with
  | nil => exact absurd hsource List.not_mem_nil
  | @cons first file rest files hfile hrest ih =>
    rw [List.map_cons, List.nodup_cons] at hnodup
    rcases List.mem_cons.mp hsource with rfl | hsource
    · exact ⟨file, List.find?_cons_of_pos (decide_eq_true hfile.1), hfile⟩
    · have hne : file.path ≠ source.1 := by
        rw [hfile.1]
        exact fun heq => hnodup.1 (List.mem_map.mpr ⟨source, hsource, heq.symm⟩)
      obtain ⟨found, hfind, hholds⟩ := ih hnodup.2 hsource
      exact ⟨found, by rw [List.find?_cons_of_neg (by simpa using hne), hfind], hholds⟩

theorem filesOf_sublist (entries : List TicketAssetEntryInput) :
    ((filesOf entries).map Prod.fst).Sublist (entries.map TicketAssetEntryInput.path) := by
  induction entries with
  | nil => exact List.Sublist.refl _
  | cons entry rest ih =>
    cases entry with
    | file path content => exact ih.cons_cons path
    | dir path => exact ih.cons path

theorem length_filesOf (runtime : SnapshotRuntime) (entries : List TicketAssetEntryInput) :
    (filesOf entries).length =
      ((entries.map (storedEntry runtime)).filter TicketAssetEntry.isFile).length := by
  induction entries with
  | nil => rfl
  | cons entry rest ih =>
    cases entry with
    | file path content =>
      rw [filesOf, List.length_cons, ih, List.map_cons, List.filter_cons_of_pos rfl,
        List.length_cons]
    | dir path => rw [filesOf, ih, List.map_cons, List.filter_cons_of_neg (Bool.false_ne_true)]

theorem readEntries_spec (hserves : Serves runtime answers state) {files : List SnapshotFile} :
    ∀ (entries : List TicketAssetEntryInput),
      (∀ source ∈ filesOf entries, ∃ file, files.find? (fun file => file.path = source.1) =
        some file ∧ HoldsFile runtime state source file) →
      ∀ call, readEntries runtime answers files (entries.map (storedEntry runtime)) call =
        .ok entries
  | [], _, _ => rfl
  | .dir path :: rest, h, call => by
    rw [List.map_cons, storedEntry, readEntries, readEntries_spec hserves rest h call]
    rfl
  | .file path content :: rest, h, call => by
    obtain ⟨file, hfind, -, hchunks⟩ := h (path, content) List.mem_cons_self
    have hrest := readEntries_spec hserves rest fun source hsource =>
      h source (List.mem_cons_of_mem _ hsource)
    have hsize := sum_size_of_holdsChunk hchunks
    have hread := readChunks_spec hserves hchunks call
    rw [flatten_slices] at hsize hread
    rw [List.map_cons, storedEntry, readEntries, hfind]
    simp only [hsize, ne_eq, not_true_eq_false, if_false, hread, Checked.ok_bind, hrest]
    rfl

/-! ## 2. Manifests -/

theorem isSnapshotKind_snapshotKind (htexts : runtime.Texts) (call : Nat) :
    isSnapshotKind (snapshotKind runtime call) = true := by
  have hlength := htexts.uuid_length call
  have hchars := htexts.uuid_chars call
  have hne : (runtime.randomUUID call).toList ≠ [] := by
    intro hnil
    rw [hnil] at hlength
    exact absurd hlength (by decide)
  have htake : (snapshotKind runtime call).toList.take snapshotKindPrefix.length =
      snapshotKindPrefix.toList := by
    rw [snapshotKind, String.toList_append]
    exact List.take_left
  have hdrop : (snapshotKind runtime call).toList.drop snapshotKindPrefix.length =
      (runtime.randomUUID call).toList := by
    rw [snapshotKind, String.toList_append]
    exact List.drop_left
  simp [isSnapshotKind, htake, hdrop, hne, hchars]

theorem manifestSchema_stored (htexts : runtime.Texts) (repo ticketId : Text)
    {record : AssetRecord} (haccepted : record.Accepted) {files : List SnapshotFile}
    (hfiles : List.Forall₂ (HoldsFile runtime state) (filesOf record.input.entries) files) :
    manifestSchema (manifestOf runtime repo ticketId record files) = true := by
  rw [manifestSchema, Bool.and_eq_true]
  refine ⟨metaSchema_stored runtime repo ticketId haccepted, ?_⟩
  rw [List.all_eq_true]
  intro file hfile
  rw [List.all_eq_true]
  intro chunk hchunk
  obtain ⟨source, -, -, hchunks⟩ := exists_of_mem hfiles hfile
  obtain ⟨bytes, hbytes, call, -, rfl, -⟩ := exists_of_mem hchunks hchunk
  obtain ⟨hpos, hle⟩ := length_of_mem_slices hbytes
  simp only [ChunkRef.valid, isSnapshotKind_snapshotKind htexts, hpos, hle]
  rfl

/-- A manifest that passes every check is read under its own ticket or an alias of it. -/
theorem readManifest_ok {manifest : SnapshotManifest} {entries : List TicketAssetEntryInput}
    {repo readTicketId : Text} {pin : PinnedAsset} {historicalTicketId : Option Text}
    (hticket : readTicketId = manifest.info.ticketId ∨
      historicalTicketId = some manifest.info.ticketId)
    (hmetadata : verifyMetadata manifest.info repo manifest.info.ticketId pin = .ok ())
    (hpaths : (manifest.files.map (·.path)).Nodup)
    (hcount : manifest.files.length =
      (manifest.info.entries.filter TicketAssetEntry.isFile).length)
    (hentries : readEntries runtime answers manifest.files manifest.info.entries 1 = .ok entries)
    (hverify : verify runtime ⟨manifest.info, entries⟩ repo manifest.info.ticketId pin = .ok ()) :
    readManifest runtime answers repo readTicketId pin historicalTicketId manifest =
      .ok ⟨manifest.info, entries⟩ := by
  have hid : (if some manifest.info.ticketId = historicalTicketId then manifest.info.ticketId
      else readTicketId) = manifest.info.ticketId := by
    rcases hticket with rfl | rfl
    · exact ite_self _
    · exact if_pos rfl
  have hthrow : ¬(¬(manifest.files.map (·.path)).Nodup ∨ manifest.files.length ≠
      (manifest.info.entries.filter TicketAssetEntry.isFile).length) := by
    rw [not_or, not_not, not_not]
    exact ⟨hpaths, hcount⟩
  simp only [readManifest, hid, hmetadata, hentries, hverify, Checked.ok_bind, if_neg hthrow]
  rfl

/-- The manifest of an asset is read as its entries, under its own ticket or an alias of it. -/
theorem readManifest_spec (hserves : Serves runtime answers state) {repo ticketId : Text}
    {record : AssetRecord} (haccepted : record.Accepted) {files : List SnapshotFile}
    (hfiles : List.Forall₂ (HoldsFile runtime state) (filesOf record.input.entries) files)
    {pin : PinnedAsset} (hpin : pin.agrees (pinnedAssetOf
      (summarizeTicketAsset (storedMeta runtime repo ticketId record))) = true)
    {readTicketId : Text} {historicalTicketId : Option Text}
    (hticket : readTicketId = ticketId ∨ historicalTicketId = some ticketId) :
    readManifest runtime answers repo readTicketId pin historicalTicketId
      (manifestOf runtime repo ticketId record files) =
        .ok ⟨storedMeta runtime repo ticketId record, record.input.entries⟩ := by
  have hsources : ((filesOf record.input.entries).map Prod.fst).Nodup :=
    (filesOf_sublist _).nodup haccepted.nodup
  have hpaths : (files.map (·.path)).Nodup := by
    rw [path_of_holdsFile hfiles]
    exact hsources
  have hcount : files.length = ((record.input.entries.map (storedEntry runtime)).filter
      TicketAssetEntry.isFile).length := by
    rw [← length_filesOf, hfiles.length_eq]
  have hentries := readEntries_spec hserves record.input.entries
    (fun source hsource => find_of_holdsFile hfiles hsources hsource) 1
  exact readManifest_ok hticket (verifyMetadata_stored haccepted hpin) hpaths hcount hentries
    (verify_stored haccepted hpin)

/-! ## 3. Round trips -/

/-- What is compressed comes back, unless it is longer than the limit. -/
def SnapshotRuntime.Lossless (runtime : SnapshotRuntime) : Prop :=
  ∀ bytes limit, runtime.gunzipSync (runtime.gzipSync bytes) limit =
    if bytes.length ≤ limit then some bytes else none

/-- The files that the copy of an asset may write into its manifest, at any of its deposits. -/
def Written (runtime : SnapshotRuntime) (total : Nat) (record : AssetRecord)
    (files : List SnapshotFile) : Prop :=
  List.Forall₂ (fun source file => file.path = source.1 ∧
    List.Forall₂ (fun bytes chunk => ∃ call < total,
      chunk = ⟨⟨snapshotKind runtime call, 0⟩, runtime.contentHash bytes, bytes.length⟩)
      (slices source.2) file.chunks) (filesOf record.input.entries) files

theorem written_of_holdsFile {total : Nat} (htotal : state.deposits ≤ total) {record : AssetRecord}
    {files : List SnapshotFile}
    (h : List.Forall₂ (HoldsFile runtime state) (filesOf record.input.entries) files) :
    Written runtime total record files := by
  refine h.imp fun _ _ hfile => ⟨hfile.1, hfile.2.imp ?_⟩
  rintro _ _ ⟨call, hcall, hchunk, -⟩
  exact ⟨call, hcall.trans_le htotal, hchunk⟩

theorem length_toBytes (text : Text) : (toBytes text).length = size text := List.length_map _

/-- A snapshot whose manifest fits the limit is read. -/
theorem readAssetSnapshot_spec (htexts : runtime.Texts) (hgzip : runtime.Lossless)
    (hserves : Serves runtime answers state) {repo ticketId : Text} {record : AssetRecord}
    (haccepted : record.Accepted) {pin : PinnedAsset}
    (hholds : HoldsSnapshot runtime repo ticketId state record pin)
    (hfree : freeBytes repo ticketId record ≤ 750000)
    (hparse : ∀ files, Written runtime state.deposits record files →
      runtime.parseManifest (toBytes (manifestText (manifestOf runtime repo ticketId record
        files))) = some (manifestOf runtime repo ticketId record files))
    {readTicketId : Text} {historicalTicketId : Option Text}
    (hticket : readTicketId = ticketId ∨ historicalTicketId = some ticketId) :
    readAssetSnapshot runtime answers repo readTicketId pin historicalTicketId =
      .ok ⟨storedMeta runtime repo ticketId record, record.input.entries⟩ := by
  obtain ⟨files, call, hcall, hpin, hget, hfiles⟩ := hholds
  have hsnapshot : pin.snapshot = some ⟨snapshotKind runtime call, 0⟩ := by
    rw [hpin]
  have hsize := size_manifestText_le htexts repo ticketId haccepted hfiles
  have hfits : (toBytes (manifestText (manifestOf runtime repo ticketId record files))).length ≤
      MAX_MANIFEST_BYTES := by
    rw [length_toBytes, MAX_MANIFEST_BYTES]
    omega
  have hanswer := hserves 0 call hcall 0
  rw [hget] at hanswer
  have hread : answeredManifest runtime answers ⟨snapshotKind runtime call, 0⟩ =
      .ok (manifestOf runtime repo ticketId record files) := by
    rw [answeredManifest, hanswer]
    simp only [hgzip _ _, if_pos hfits, Option.bind_some,
      hparse files (written_of_holdsFile le_rfl hfiles),
      manifestSchema_stored htexts repo ticketId haccepted hfiles, if_true]
  have hagrees : pin.agrees (pinnedAssetOf
      (summarizeTicketAsset (storedMeta runtime repo ticketId record))) = true := by
    rw [hpin]
    exact decide_eq_true rfl
  rw [readAssetSnapshot, hsnapshot]
  dsimp only
  rw [hread]
  exact readManifest_spec hserves haccepted hfiles hagrees hticket

/-- A manifest with a long ticket is not inflated. -/
theorem readAssetSnapshot_of_long (hgzip : runtime.Lossless)
    (hserves : Serves runtime answers state) {repo ticketId : Text} {record : AssetRecord}
    {pin : PinnedAsset} (hholds : HoldsSnapshot runtime repo ticketId state record pin)
    (hlong : MAX_MANIFEST_BYTES < size ticketId) (readTicketId : Text)
    (historicalTicketId : Option Text) :
    readAssetSnapshot runtime answers repo readTicketId pin historicalTicketId =
      .error .manifestUnreadable := by
  obtain ⟨files, call, hcall, hpin, hget, hfiles⟩ := hholds
  have hsnapshot : pin.snapshot = some ⟨snapshotKind runtime call, 0⟩ := by
    rw [hpin]
  have hsize : size ticketId ≤
      size (manifestText (manifestOf runtime repo ticketId record files)) := by
    have hquote := size_quote ticketId
    rw [manifestText, size_object]
    simp only [stringifyFields, List.map_cons, List.map_nil, List.sum_cons, size_entry, manifestOf,
      metaJson, size_object]
    simp only [storedMeta, stringify]
    omega
  have hlarge : ¬(toBytes (manifestText (manifestOf runtime repo ticketId record files))).length ≤
      MAX_MANIFEST_BYTES := by
    rw [length_toBytes]
    omega
  have hanswer := hserves 0 call hcall 0
  rw [hget] at hanswer
  have hread : answeredManifest runtime answers ⟨snapshotKind runtime call, 0⟩ =
      .error .manifestUnreadable := by
    rw [answeredManifest, hanswer]
    simp only [hgzip _ _, if_neg hlarge, Option.bind_none]
  rw [readAssetSnapshot, hsnapshot]
  dsimp only
  rw [hread]
  rfl

/-- Whatever the store answers: entries that are read are those of the asset, if the manifest
lists them. -/
theorem entries_of_readAssetSnapshot {repo readTicketId : Text}
    {entries : List TicketAssetEntryInput} (hhash : Collisionless runtime entries)
    {pin : PinnedAsset} {historicalTicketId : Option Text} {asset : TicketAsset}
    (h : readAssetSnapshot runtime answers repo readTicketId pin historicalTicketId = .ok asset) :
    asset.entries = entries ∨ ∃ ref manifest, pin.snapshot = some ref ∧
      answeredManifest runtime answers ref = .ok manifest ∧
        manifest.info.entries ≠ entries.map (storedEntry runtime) := by
  rw [readAssetSnapshot] at h
  split at h
  · exact absurd h nofun
  next ref hsnapshot =>
  obtain ⟨manifest, hmanifest, h⟩ := Checked.bind_eq_ok.mp h
  by_cases hlisted : manifest.info.entries = entries.map (storedEntry runtime)
  · left
    rw [readManifest] at h
    dsimp only at h
    generalize (if some manifest.info.ticketId = historicalTicketId then manifest.info.ticketId
      else readTicketId) = snapshotTicketId at h
    obtain ⟨-, -, h⟩ := Checked.bind_eq_ok.mp h
    split at h
    · exact absurd h nofun
    obtain ⟨found, -, h⟩ := Checked.bind_eq_ok.mp h
    obtain ⟨⟨⟩, hverify, h⟩ := Checked.bind_eq_ok.mp h
    cases h
    obtain ⟨hlength, hsame⟩ := of_verify hverify
    dsimp only at hlength hsame
    rw [hlisted] at hlength hsame
    exact entries_eq hhash hlength hsame
  · exact .inr ⟨ref, manifest, hsnapshot, hmanifest, hlisted⟩

end Read

/-- The answers of a store in which others deposit more before each call. -/
def answersAfter (around : Surroundings) (state : CopyState)
    (later : Nat → List (String × Bytes)) : Answers := fun n ref =>
  getRepoArtifact (depositOthers around.maxRevisions state.store (later n)) ref

/-- Others use none of the kinds of the copy. -/
def Apart (runtime : SnapshotRuntime) (total : Nat) (later : Nat → List (String × Bytes)) : Prop :=
  ∀ call < total, ∀ n, ∀ artifact ∈ later n, artifact.1 ≠ snapshotKind runtime call

theorem serves_answersAfter {runtime : SnapshotRuntime} {around : Surroundings} {state : CopyState}
    {later : Nat → List (String × Bytes)} (h : Apart runtime state.deposits later) :
    Serves runtime (answersAfter around state later) state := fun n call hcall =>
  (depositOthers_spec around.maxRevisions (later n) state.store (h call hcall n)).2

/-- The copy of accepted assets. -/
theorem prepareAssetSnapshots_spec {runtime : SnapshotRuntime} {around : Surroundings}
    {source : AssetSource} {repo canonicalTicketId : Text} (ticketId : Text)
    {store : ArtifactStore} {records : List AssetRecord}
    (haccepted : ∀ record ∈ records, record.Accepted)
    (hsource : source.Keeps (records.map (storedAsset runtime repo canonicalTicketId)))
    (hsep : Separate runtime around (depositsOf records))
    (hunused : ∀ call < depositsOf records, Unused store (snapshotKind runtime call)) :
    ∃ pins state, prepareAssetSnapshots runtime around source repo ticketId canonicalTicketId
        store = .ok (pins, state) ∧ state.deposits = depositsOf records ∧
      List.Forall₂ (HoldsSnapshot runtime repo ticketId state) records pins := by
  have hfresh : Fresh runtime (depositsOf records) ⟨store, 0⟩ := fun call _ hcall =>
    hunused call hcall
  obtain ⟨pins, state, hprepare, hdone, hpins⟩ := prepareSnapshots_spec hsep repo ticketId
    canonicalTicketId records haccepted
    (fun record hrecord => hsource.kept _ (List.mem_map.mpr ⟨record, hrecord, rfl⟩)) hfresh
    (by simp)
  refine ⟨pins, state, ?_, by simpa using hdone.count, hpins⟩
  rw [prepareAssetSnapshots, hsource.listed, List.map_map, List.map_map]
  exact hprepare

/-- Accepted assets are copied and come back, after whatever others deposit, unless the texts of
an asset that nothing bounds are long.  Whatever the store answers for a pin, the reading throws,
or it returns the entries, or the manifest that was answered does not list them. -/
theorem asset_snapshots (runtime : SnapshotRuntime) (around : Surroundings) (source : AssetSource)
    (repo ticketId canonicalTicketId : Text) (store : ArtifactStore) (records : List AssetRecord)
    (haccepted : ∀ record ∈ records, record.Accepted)
    (hsource : source.Keeps (records.map (storedAsset runtime repo canonicalTicketId)))
    (hsep : Separate runtime around (depositsOf records))
    (hunused : ∀ call < depositsOf records, Unused store (snapshotKind runtime call))
    (htexts : runtime.Texts) (hgzip : runtime.Lossless)
    (hparse : ∀ record ∈ records, ∀ files, Written runtime (depositsOf records) record files →
      runtime.parseManifest (toBytes (manifestText (manifestOf runtime repo ticketId record
        files))) = some (manifestOf runtime repo ticketId record files))
    (hhash : ∀ record ∈ records, Collisionless runtime record.input.entries)
    (hfree : ∀ record ∈ records, freeBytes repo ticketId record ≤ 750000) :
    ∃ pins state, prepareAssetSnapshots runtime around source repo ticketId canonicalTicketId
        store = .ok (pins, state) ∧
      List.Forall₂ (fun record pin =>
        (∀ later readTicketId historicalTicketId, Apart runtime (depositsOf records) later →
          readTicketId = ticketId ∨ historicalTicketId = some ticketId →
            ∃ asset, readAssetSnapshot runtime (answersAfter around state later) repo readTicketId
              pin historicalTicketId = .ok asset ∧ asset.entries = record.input.entries) ∧
        ∀ answers readTicketId historicalTicketId asset,
          readAssetSnapshot runtime answers repo readTicketId pin historicalTicketId = .ok asset →
            asset.entries = record.input.entries ∨ ∃ ref manifest, pin.snapshot = some ref ∧
              answeredManifest runtime answers ref = .ok manifest ∧
                manifest.info.entries ≠ record.input.entries.map (storedEntry runtime))
        records pins := by
  obtain ⟨pins, state, hprepare, hcount, hpins⟩ := prepareAssetSnapshots_spec ticketId
    haccepted hsource hsep hunused
  refine ⟨pins, state, hprepare, ?_⟩
  have hmem : List.Forall₂ (fun record pin => record ∈ records ∧
      HoldsSnapshot runtime repo ticketId state record pin) records pins :=
    (List.forall₂_and_left _ _).mpr ⟨fun _ h => h, hpins⟩
  refine hmem.imp fun record pin h => ⟨?_, ?_⟩
  · intro later readTicketId historicalTicketId hlater hticket
    have hserves : Serves runtime (answersAfter around state later) state :=
      serves_answersAfter (hcount.symm ▸ hlater)
    have hread := readAssetSnapshot_spec htexts hgzip hserves (haccepted record h.1) h.2
      (hfree record h.1) (fun files hfiles => hparse record h.1 files (hcount ▸ hfiles)) hticket
    exact ⟨_, hread, rfl⟩
  · intro answers readTicketId historicalTicketId asset hread
    exact entries_of_readAssetSnapshot (hhash record h.1) hread

/-! ## 4. An asset of one file -/

def noteRecord (content : Bytes) : AssetRecord :=
  ⟨⟨points "notes", points "plan", .file, [.file (points "plan.md") content]⟩, content.length, 0,
    points "2026-01-01T00:00:00.000Z"⟩

def noteUuid (call : Nat) : String :=
  if call = 0 then "00000000-0000-4000-8000-000000000000"
  else "00000000-0000-4000-8000-000000000001"

def noteRepo : Text := points "repo"

def noteTicket : Text := points "ISSUE-1"

/-- The manifest of a note of one byte, with its chunk at a call. -/
def noteManifest (contentHash : Bytes → Text) (content : Bytes) (call : Nat) : SnapshotManifest :=
  ⟨⟨noteRepo, noteTicket, points "notes", points "plan", 0, .file, 1,
      points "2026-01-01T00:00:00.000Z", [.file (points "plan.md") 1 (contentHash content)]⟩,
    [⟨points "plan.md", [⟨⟨snapshotKindPrefix ++ noteUuid call, 0⟩, contentHash content, 1⟩]⟩]⟩

/-- Contents are stored as they are, and three manifests are known. -/
def noteRuntime (contentHash : Bytes → Text) : SnapshotRuntime where
  contentHash := contentHash
  gzipSync bytes := bytes
  gunzipSync bytes limit := if bytes.length ≤ limit then some bytes else none
  parseManifest bytes := [noteManifest contentHash [1] 0, noteManifest contentHash [1] 1,
    noteManifest contentHash [2] 0].find? fun manifest => toBytes (manifestText manifest) = bytes
  randomUUID := noteUuid

def quiet : Surroundings := ⟨200, fun _ => []⟩

def sourceOf (asset : TicketAsset) : AssetSource where
  listTicketAssets := [summarizeTicketAsset asset.info]
  getTicketAsset kind name revision :=
    if kind = asset.info.kind ∧ name = asset.info.name ∧ revision = asset.info.revision then
      some asset
    else none

theorem keeps_sourceOf (asset : TicketAsset) : (sourceOf asset).Keeps [asset] where
  listed := rfl
  kept := by
    intro other hother
    rw [List.mem_singleton.mp hother]
    exact if_pos ⟨rfl, rfl, rfl⟩

theorem lossless_noteRuntime (contentHash : Bytes → Text) : (noteRuntime contentHash).Lossless :=
  fun _ _ => rfl

theorem accepted_noteRecord (b : Fin 256) : (noteRecord [b]).Accepted :=
  ⟨rfl, Nat.zero_le _⟩

theorem slices_single (b : Fin 256) : slices [b] = [[b]] := by
  have hone : [b].length ≤ CHUNK_BYTES := Nat.le_of_ble_eq_true rfl
  rw [slices_of_ne_nil (List.cons_ne_nil _ _), List.take_of_length_le hone,
    List.drop_eq_nil_of_le hone, slices_nil]

theorem depositsOf_note (b : Fin 256) : depositsOf [noteRecord [b]] = 2 := by
  simp [depositsOf, noteRecord, filesOf, chunkDeposits, slices_single]

theorem separate_note (contentHash : Bytes → Text) (b : Fin 256) :
    Separate (noteRuntime contentHash) quiet (depositsOf [noteRecord [b]]) := by
  rw [depositsOf_note]
  refine ⟨?_, fun _ _ _ artifact hartifact => absurd hartifact List.not_mem_nil⟩
  have hall : ∀ i < 2, ∀ j < 2, noteUuid i = noteUuid j → i = j := by decide
  exact hall

/-- The hashes of a one and of a two; the other contents are not of interest. -/
def noteHash (content : Bytes) : Text :=
  if content = [1] then points "4bf5122f344554c53bde2ebb8cd2b7e3d1600ad631c385a5d7cce23c7785459a"
  else points "dbc1b4c900ffe48d575b5da5c638040125f65db0fe3e24494b76ea986457d986"

theorem texts_noteRuntime : (noteRuntime noteHash).Texts where
  hash_plain bytes := by
    refine plain_of_all ?_
    change (noteHash bytes).all _ = true
    rw [noteHash]
    split <;> rfl
  hash_length bytes := by
    change (noteHash bytes).length = 64
    rw [noteHash]
    split <;> rfl
  uuid_chars call := by
    change (noteUuid call).toList.all isUuidChar = true
    rw [noteUuid]
    split <;> rfl
  uuid_length call := by
    change (noteUuid call).toList.length = 36
    rw [noteUuid]
    split <;> rfl

/-- The manifest that the copy of a note writes. -/
theorem manifestOf_note {contentHash : Bytes → Text} {b : Fin 256} {files : List SnapshotFile}
    (h : Written (noteRuntime contentHash) 2 (noteRecord [b]) files) :
    ∃ call < 2, manifestOf (noteRuntime contentHash) noteRepo noteTicket (noteRecord [b]) files =
      noteManifest contentHash [b] call := by
  have hfiles : filesOf (noteRecord [b]).input.entries = [(points "plan.md", [b])] := rfl
  rw [Written, hfiles] at h
  obtain _ | @⟨_, ⟨path, chunks⟩, _, _, ⟨hpath, hchunks⟩, hrest⟩ := h
  cases hrest
  dsimp only at hpath hchunks
  rw [slices_single] at hchunks
  obtain _ | ⟨⟨call, hcall, hchunk⟩, hrest⟩ := hchunks
  cases hrest
  refine ⟨call, hcall, ?_⟩
  rw [hpath, hchunk]
  rfl

theorem parse_note (call : Nat) (h : call < 2) :
    (noteRuntime noteHash).parseManifest (toBytes (manifestText (noteManifest noteHash [1] call))) =
      some (noteManifest noteHash [1] call) := by
  have hne : toBytes (manifestText (noteManifest noteHash [1] 0)) ≠
      toBytes (manifestText (noteManifest noteHash [1] 1)) := by
    decide +kernel
  simp only [noteRuntime]
  obtain rfl | rfl : call = 0 ∨ call = 1 := by omega
  · generalize noteManifest noteHash [1] 0 = manifest
    simp
  · generalize noteManifest noteHash [1] 0 = other at hne ⊢
    generalize noteManifest noteHash [1] 1 = manifest at hne ⊢
    simp [hne]

theorem asset_snapshots_note :
    ∃ pins state, prepareAssetSnapshots (noteRuntime noteHash) quiet (sourceOf (storedAsset
        (noteRuntime noteHash) noteRepo noteTicket (noteRecord [1]))) noteRepo noteTicket
        noteTicket [] = .ok (pins, state) ∧
      List.Forall₂ (fun record pin => ∃ asset, readAssetSnapshot (noteRuntime noteHash)
        (answersAfter quiet state fun _ => [("operator-notes", [7])]) noteRepo noteTicket pin none =
          .ok asset ∧ asset.entries = record.input.entries) [noteRecord [1]] pins := by
  have hrecord : ∀ {P : AssetRecord → Prop}, P (noteRecord [1]) →
      ∀ record ∈ [noteRecord [1]], P record := fun h record hmem =>
    List.mem_singleton.mp hmem ▸ h
  obtain ⟨pins, state, hprepare, hpins⟩ := asset_snapshots (noteRuntime noteHash) quiet
    (sourceOf (storedAsset (noteRuntime noteHash) noteRepo noteTicket (noteRecord [1]))) noteRepo
    noteTicket noteTicket [] [noteRecord [1]] (hrecord (accepted_noteRecord 1)) (keeps_sourceOf _)
    (separate_note noteHash 1) (fun _ _ _ h => absurd h List.not_mem_nil) texts_noteRuntime
    (lossless_noteRuntime noteHash)
    (hrecord fun files hfiles => by
      rw [depositsOf_note] at hfiles
      obtain ⟨call, hcall, hmanifest⟩ := manifestOf_note hfiles
      rw [hmanifest]
      exact parse_note call hcall)
    (hrecord fun path content hfile other hsame => by
      obtain ⟨-, rfl⟩ : path = points "plan.md" ∧ content = [1] := by
        simpa [noteRecord] using hfile
      by_contra hother
      have hne : points "dbc1b4c900ffe48d575b5da5c638040125f65db0fe3e24494b76ea986457d986" ≠
          points "4bf5122f344554c53bde2ebb8cd2b7e3d1600ad631c385a5d7cce23c7785459a" := by decide
      refine hne ?_
      simpa [noteRuntime, noteHash, hother] using hsame)
    (hrecord (by decide))
  refine ⟨pins, state, hprepare, hpins.imp fun record pin h => ?_⟩
  obtain ⟨asset, hread, hentries⟩ := h.1 (fun _ => [("operator-notes", [7])]) noteTicket none
    (fun call hcall n artifact hartifact => by
      rw [List.mem_singleton.mp hartifact]
      intro hsame
      have hhead := congrArg (fun kind => kind.toList.head?) hsame
      simp [snapshotKind, snapshotKindPrefix] at hhead) (.inl rfl)
  exact ⟨asset, hread, hentries⟩

/-- A hash without collisions. -/
def plainHash (content : Bytes) : Text := content.map fun b => ⟨b.val, by omega⟩

theorem plainHash_injective : Function.Injective plainHash := by
  refine List.map_injective_iff.mpr fun a b h => ?_
  simpa [Fin.ext_iff] using h

/-- The manifest and the chunk of a note of a two, in the place of those of a one. -/
def alteredAnswers : Answers := fun n _ =>
  if n = 0 then some (toBytes (manifestText (noteManifest plainHash [2] 0))) else some [2]

theorem answeredManifest_altered (ref : SnapshotRef) :
    answeredManifest (noteRuntime plainHash) alteredAnswers ref =
      .ok (noteManifest plainHash [2] 0) := by
  have hfits : (toBytes (manifestText (noteManifest plainHash [2] 0))).length ≤
      MAX_MANIFEST_BYTES := by
    decide +kernel
  have hfirst : toBytes (manifestText (noteManifest plainHash [1] 0)) ≠
      toBytes (manifestText (noteManifest plainHash [2] 0)) := by
    decide +kernel
  have hsecond : toBytes (manifestText (noteManifest plainHash [1] 1)) ≠
      toBytes (manifestText (noteManifest plainHash [2] 0)) := by
    decide +kernel
  have hschema : manifestSchema (noteManifest plainHash [2] 0) = true := by
    decide +kernel
  simp only [answeredManifest, alteredAnswers, noteRuntime, if_true]
  generalize noteManifest plainHash [1] 0 = first at hfirst ⊢
  generalize noteManifest plainHash [1] 1 = second at hsecond ⊢
  generalize noteManifest plainHash [2] 0 = manifest at hfits hfirst hsecond hschema ⊢
  simp [hfits, hfirst, hsecond, hschema]

/-- The copy of the note of a one, under any ticket. -/
theorem prepare_note (ticketId : Text) :
    ∃ pin state, prepareAssetSnapshots (noteRuntime plainHash) quiet (sourceOf (storedAsset
        (noteRuntime plainHash) noteRepo ticketId (noteRecord [1]))) noteRepo ticketId ticketId [] =
          .ok ([pin], state) ∧
      HoldsSnapshot (noteRuntime plainHash) noteRepo ticketId state (noteRecord [1]) pin := by
  obtain ⟨pins, state, hprepare, -, hpins⟩ := prepareAssetSnapshots_spec ticketId
    (fun record hrecord => List.mem_singleton.mp hrecord ▸ accepted_noteRecord 1)
    (keeps_sourceOf (storedAsset (noteRuntime plainHash) noteRepo ticketId (noteRecord [1])))
    (separate_note plainHash 1) fun _ _ _ h => absurd h List.not_mem_nil
  obtain _ | ⟨hpin, hrest⟩ := hpins
  cases hrest
  exact ⟨_, state, hprepare, hpin⟩

/-- Another manifest with another chunk passes for the pin, and a long ticket leaves a manifest
that is not inflated. -/
theorem snapshots_altered :
    Function.Injective plainHash ∧ (noteRuntime plainHash).Lossless ∧
      (noteRecord [1]).Accepted ∧
      (∃ pin state asset, prepareAssetSnapshots (noteRuntime plainHash) quiet (sourceOf
          (storedAsset (noteRuntime plainHash) noteRepo noteTicket (noteRecord [1]))) noteRepo
          noteTicket noteTicket [] = .ok ([pin], state) ∧
        readAssetSnapshot (noteRuntime plainHash) alteredAnswers noteRepo noteTicket pin none =
          .ok asset ∧ asset.entries ≠ (noteRecord [1]).input.entries) ∧
      ∃ ticketId pin state, prepareAssetSnapshots (noteRuntime plainHash) quiet (sourceOf
          (storedAsset (noteRuntime plainHash) noteRepo ticketId (noteRecord [1]))) noteRepo
          ticketId ticketId [] = .ok ([pin], state) ∧
        readAssetSnapshot (noteRuntime plainHash) (answersAfter quiet state fun _ => []) noteRepo
          ticketId pin none = .error .manifestUnreadable := by
  refine ⟨plainHash_injective, lossless_noteRuntime plainHash, accepted_noteRecord 1, ?_, ?_⟩
  · obtain ⟨pin, state, hprepare, files, call, -, hpin, -, -⟩ := prepare_note noteTicket
    have hagrees : pin.agrees (pinnedAssetOf (summarizeTicketAsset (storedMeta
        (noteRuntime plainHash) noteRepo noteTicket (noteRecord [2])))) = true := by
      rw [hpin]
      exact decide_eq_true rfl
    have hsnapshot : pin.snapshot =
        some ⟨snapshotKind (noteRuntime plainHash) call, 0⟩ := by
      rw [hpin]
    have hentries : readEntries (noteRuntime plainHash) alteredAnswers
        (noteManifest plainHash [2] 0).files (noteManifest plainHash [2] 0).info.entries 1 =
          .ok (noteRecord [2]).input.entries := rfl
    have hread : readManifest (noteRuntime plainHash) alteredAnswers noteRepo noteTicket pin none
        (noteManifest plainHash [2] 0) =
          .ok ⟨(noteManifest plainHash [2] 0).info, (noteRecord [2]).input.entries⟩ :=
      readManifest_ok (.inl rfl) (verifyMetadata_stored (accepted_noteRecord 2) hagrees)
        (by decide) rfl hentries (verify_stored (accepted_noteRecord 2) hagrees)
    refine ⟨pin, state, ⟨(noteManifest plainHash [2] 0).info, (noteRecord [2]).input.entries⟩,
      hprepare, ?_, ?_⟩
    · rw [readAssetSnapshot, hsnapshot]
      dsimp only
      rw [answeredManifest_altered]
      exact hread
    · simp [noteRecord]
  · have hlong : MAX_MANIFEST_BYTES < size (List.replicate (MAX_MANIFEST_BYTES + 1) slash) := by
      have hone : size [slash] = 1 := rfl
      rw [size_replicate, hone, Nat.mul_one]
      exact Nat.lt_succ_self _
    obtain ⟨pin, state, hprepare, hholds⟩ :=
      prepare_note (List.replicate (MAX_MANIFEST_BYTES + 1) slash)
    refine ⟨_, pin, state, hprepare, ?_⟩
    refine readAssetSnapshot_of_long (lossless_noteRuntime plainHash) ?_ hholds hlong _ none
    exact serves_answersAfter fun _ _ _ artifact hartifact => absurd hartifact List.not_mem_nil

end Autobuild.AssetSnapshots
