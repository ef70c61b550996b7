/-
# The size of a snapshot manifest

A manifest names a path twice, once in the metadata and once with its chunks, and JSON may write
six bytes for one of a path.  With a thousand entries, and the chunks of 25 MiB, that leaves room
below the limit of the inflation for the texts that nothing bounds: the repository, the ticket and
the time of the asset (`size_manifestText_le`).
-/
import Autobuild.Store.SnapshotChecks

namespace Autobuild.AssetSnapshots

open Utf8 StreamJson TicketFile

/-! ## 1. Texts -/

/-- Hashes are 64 digits, and UUIDs are 36 characters. -/
structure SnapshotRuntime.Texts (runtime : SnapshotRuntime) : Prop where
  hash_plain : ∀ bytes, Plain (runtime.contentHash bytes)
  hash_length : ∀ bytes, (runtime.contentHash bytes).length = 64
  uuid_chars : ∀ call, (runtime.randomUUID call).toList.all isUuidChar = true
  uuid_length : ∀ call, (runtime.randomUUID call).toList.length = 36

theorem size_quote_hash {runtime : SnapshotRuntime} (h : runtime.Texts) (bytes : Bytes) :
    size (quote (runtime.contentHash bytes)) = 66 := by
  rw [(h.hash_plain bytes).quote, h.hash_length]

theorem plain_of_all {text : Text}
    (h : text.all (fun c => 34 < c.val && c.val < 127 && c.val != 92) = true) : Plain text := by
  intro c hc
  have hc := List.all_eq_true.mp h c hc
  simp only [Bool.and_eq_true, decide_eq_true_eq, bne_iff_ne] at hc
  exact ⟨hc.1.1, hc.1.2, hc.2⟩

theorem plain_uuidChar {c : Char} (h : isUuidChar c = true) : 34 < c.toNat ∧ c.toNat < 127 ∧
    c.toNat ≠ 92 := by
  simp only [isUuidChar, Bool.or_eq_true, Bool.and_eq_true, decide_eq_true_eq, Char.le_def,
    UInt32.le_iff_toNat_le] at h
  rcases h with (h | h) | rfl
  · change 97 ≤ c.toNat ∧ c.toNat ≤ 102 at h
    omega
  · change 48 ≤ c.toNat ∧ c.toNat ≤ 57 at h
    omega
  · decide

theorem size_quote_kind {runtime : SnapshotRuntime} (h : runtime.Texts) (call : Nat) :
    size (quote (points (snapshotKind runtime call))) = 54 := by
  have hplain : Plain (points (snapshotKind runtime call)) := by
    intro c hc
    rw [points, snapshotKind, String.toList_append, List.map_append, List.mem_append] at hc
    rcases hc with hc | hc
    · have hprefix : Plain (points snapshotKindPrefix) := plain_of_all rfl
      exact hprefix c hc
    · obtain ⟨d, hd, rfl⟩ := List.mem_map.mp hc
      exact plain_uuidChar (List.all_eq_true.mp (h.uuid_chars call) d hd)
  have hlength : (points (snapshotKind runtime call)).length = 52 := by
    rw [points, List.length_map, snapshotKind, String.toList_append, List.length_append,
      h.uuid_length]
    rfl
  rw [hplain.quote, hlength]

/-- JSON writes at most four bytes for a digit. -/
theorem size_num_le {n k : Nat} (hk : 0 < k) (h : n < 10 ^ k) :
    size (stringify (.num (toString n))) ≤ 4 * k := by
  have hdigits : (toString n).length ≤ k := (Nat.length_repr_le_iff hk).mpr h
  have hsize := size_points_le (toString n)
  rw [stringify]
  omega

theorem size_arr_le (items : List StreamJson) :
    size (stringify (.arr items)) ≤ (items.map fun item => size (stringify item) + 1).sum + 2 := by
  have hopen : size (points "[") = 1 := rfl
  have hclose : size (points "]") = 1 := rfl
  have hsum : (items.map fun item => size (stringify item) + 1).sum =
      (items.map fun item => size (stringify item)).sum + items.length := by
    rw [List.sum_map_add, List.map_const', List.sum_replicate_nat, Nat.mul_one]
  rw [stringify, size_append, size_append, hopen, hclose, size_joinComma, stringifyItems_eq,
    List.map_map, List.length_map, hsum, Function.comp_def]
  omega

/-! ## 2. Entries and chunks -/

theorem exists_of_mem {α β : Type*} {R : α → β → Prop} {xs : List α} {ys : List β}
    (h : List.Forall₂ R xs ys) {y : β} (hy : y ∈ ys) : ∃ x ∈ xs, R x y := by
  induction h with
  | nil => exact absurd hy List.not_mem_nil
  | @cons x z xs zs hxz _ ih =>
    rcases List.mem_cons.mp hy with rfl | hy
    · exact ⟨x, List.mem_cons_self, hxz⟩
    · obtain ⟨w, hw, hwy⟩ := ih hy
      exact ⟨w, List.mem_cons_of_mem _ hw, hwy⟩

theorem size_entryMetaJson_le {runtime : SnapshotRuntime} (h : runtime.Texts)
    {entry : TicketAssetEntryInput} (hpath : size entry.path ≤ 256)
    (hsize : entry.size ≤ TICKET_ASSET_MAX_BYTES) :
    size (stringify (entryMetaJson (storedEntry runtime entry))) ≤ 1678 := by
  have htype : size (quote (points "type")) = 6 := rfl
  have hpathKey : size (quote (points "path")) = 6 := rfl
  have hsizeKey : size (quote (points "size")) = 6 := rfl
  have hblobKey : size (quote (points "blobRef")) = 9 := rfl
  have hdir : size (quote (points "dir")) = 5 := rfl
  have hfile : size (quote (points "file")) = 6 := rfl
  cases entry with
  | dir path =>
    have hquote := size_quote_le path
    simp only [TicketAssetEntryInput.path] at hpath
    rw [storedEntry, entryMetaJson, size_object]
    simp only [stringifyFields, List.map_cons, List.map_nil, List.sum_cons, List.sum_nil,
      size_entry, List.length_cons, List.length_nil]
    simp only [stringify, htype, hpathKey, hdir]
    omega
  | file path content =>
    have hquote := size_quote_le path
    have hnum := size_num_le (n := content.length) (k := 8) (by decide)
      (lt_of_le_of_lt hsize (by decide))
    simp only [TicketAssetEntryInput.path] at hpath
    rw [stringify] at hnum
    rw [storedEntry, entryMetaJson, size_object]
    simp only [stringifyFields, List.map_cons, List.map_nil, List.sum_cons, List.sum_nil,
      size_entry, List.length_cons, List.length_nil]
    simp only [stringify, htype, hpathKey, hsizeKey, hblobKey, hfile, size_quote_hash h]
    omega

theorem size_chunkJson_le {runtime : SnapshotRuntime} (h : runtime.Texts) {state : CopyState}
    {bytes : Bytes} {chunk : ChunkRef} (hchunk : HoldsChunk runtime state bytes chunk)
    (hbytes : bytes.length ≤ CHUNK_BYTES) : size (stringify (chunkJson chunk)) ≤ 182 := by
  have hkindKey : size (quote (points "kind")) = 6 := rfl
  have hrevisionKey : size (quote (points "revision")) = 10 := rfl
  have hsizeKey : size (quote (points "size")) = 6 := rfl
  have hhashKey : size (quote (points "hash")) = 6 := rfl
  have hzero : size (points (toString 0)) = 1 := rfl
  have hnum := size_num_le (n := bytes.length) (k := 6) (by decide)
    (lt_of_le_of_lt hbytes (by decide))
  obtain ⟨call, -, rfl, -⟩ := hchunk
  rw [stringify] at hnum
  rw [chunkJson, size_object]
  simp only [stringifyFields, List.map_cons, List.map_nil, List.sum_cons, List.sum_nil,
    size_entry, List.length_cons, List.length_nil]
  simp only [stringify, hkindKey, hrevisionKey, hsizeKey, hhashKey, hzero, size_quote_kind h,
    size_quote_hash h]
  omega

theorem size_fileJson_le {runtime : SnapshotRuntime} (h : runtime.Texts) {state : CopyState}
    {source : Text × Bytes} {file : SnapshotFile} (hfile : HoldsFile runtime state source file)
    (hpath : size source.1 ≤ 256) :
    size (stringify (fileJson file)) ≤ 1559 + 183 * (slices source.2).length := by
  have hpathKey : size (quote (points "path")) = 6 := rfl
  have hchunksKey : size (quote (points "chunks")) = 8 := rfl
  obtain ⟨hsame, hchunks⟩ := hfile
  have hquote := size_quote_le file.path
  rw [hsame] at hquote
  have hsum : ((file.chunks.map chunkJson).map fun item => size (stringify item) + 1).sum ≤
      183 * (slices source.2).length := by
    rw [List.map_map, hchunks.length_eq, ← List.length_map (f := (fun item =>
      size (stringify item) + 1) ∘ chunkJson), Nat.mul_comm]
    refine List.sum_le_card_nsmul _ _ fun n hn => ?_
    obtain ⟨chunk, hchunk, rfl⟩ := List.mem_map.mp hn
    obtain ⟨bytes, hbytes, hholds⟩ := exists_of_mem hchunks hchunk
    have hle := size_chunkJson_le h hholds (length_of_mem_slices hbytes).2
    rw [Function.comp_apply]
    omega
  have harr := size_arr_le (file.chunks.map chunkJson)
  rw [fileJson, size_object]
  simp only [stringifyFields, List.map_cons, List.map_nil, List.sum_cons, List.sum_nil,
    size_entry, List.length_cons, List.length_nil, hpathKey, hchunksKey]
  rw [stringify, hsame]
  omega

/-! ## 3. Manifests -/

theorem sum_fileJson_le {runtime : SnapshotRuntime} (h : runtime.Texts) {state : CopyState}
    {sources : List (Text × Bytes)} {files : List SnapshotFile}
    (hfiles : List.Forall₂ (HoldsFile runtime state) sources files)
    (hpaths : ∀ source ∈ sources, size source.1 ≤ 256) :
    ((files.map fileJson).map fun item => size (stringify item) + 1).sum ≤
      1560 * sources.length + 183 * chunkDeposits sources := by
  induction hfiles with
  | nil => exact Nat.zero_le _
  | cons hfile _ ih =>
    have hone := size_fileJson_le h hfile (hpaths _ List.mem_cons_self)
    have hrest := ih fun source hsource => hpaths source (List.mem_cons_of_mem _ hsource)
    simp only [chunkDeposits, List.map_cons, List.sum_cons, List.length_cons] at hrest ⊢
    omega

theorem sum_entryMetaJson_le {runtime : SnapshotRuntime} (h : runtime.Texts)
    {record : AssetRecord} (haccepted : record.Accepted) :
    (((record.input.entries.map (storedEntry runtime)).map entryMetaJson).map fun item =>
      size (stringify item) + 1).sum ≤ 1679 * record.input.entries.length := by
  have hwithin := withinLimits_of_validateTicketAssetInput haccepted.valid
  rw [List.map_map, List.map_map, Nat.mul_comm, ← List.length_map (f := ((fun item =>
    size (stringify item) + 1) ∘ entryMetaJson) ∘ storedEntry runtime)]
  refine List.sum_le_card_nsmul _ _ fun n hn => ?_
  obtain ⟨entry, hentry, rfl⟩ := List.mem_map.mp hn
  have hsize : entry.size ≤ TICKET_ASSET_MAX_BYTES := by
    cases entry with
    | file path content => exact length_le_of_accepted haccepted hentry
    | dir path => exact Nat.zero_le _
  have hle := size_entryMetaJson_le h (hwithin.path_size entry hentry) hsize
  rw [Function.comp_apply, Function.comp_apply]
  omega

theorem length_filesOf_le (entries : List TicketAssetEntryInput) :
    (filesOf entries).length ≤ entries.length := by
  induction entries with
  | nil => exact le_rfl
  | cons entry rest ih =>
    cases entry <;> simp only [filesOf, List.length_cons] <;> omega

/-- Every file has at most one chunk that is not full. -/
theorem chunkDeposits_le (entries : List TicketAssetEntryInput) :
    CHUNK_BYTES * chunkDeposits (filesOf entries) ≤
      (entries.map TicketAssetEntryInput.size).sum + (CHUNK_BYTES - 1) * entries.length := by
  induction entries with
  | nil => exact Nat.zero_le _
  | cons entry rest ih =>
    cases entry with
    | dir path =>
      simp only [filesOf, List.map_cons, List.sum_cons, TicketAssetEntryInput.size,
        List.length_cons]
      rw [Nat.mul_succ]
      omega
    | file path content =>
      have hslices := length_slices_le content
      simp only [chunkDeposits] at ih
      simp only [filesOf, chunkDeposits, List.map_cons, List.sum_cons, TicketAssetEntryInput.size,
        List.length_cons]
      rw [Nat.mul_succ, Nat.mul_add]
      omega

theorem chunkDeposits_le_of_accepted {record : AssetRecord} (haccepted : record.Accepted) :
    chunkDeposits (filesOf record.input.entries) ≤ 1100 := by
  have hwithin := withinLimits_of_validateTicketAssetInput haccepted.valid
  have hbytes : (record.input.entries.map TicketAssetEntryInput.size).sum ≤ 26214400 :=
    hwithin.bytes
  have hentries : record.input.entries.length ≤ 1000 := hwithin.entries_length
  have hchunks := chunkDeposits_le record.input.entries
  rw [CHUNK_BYTES] at hchunks
  omega

/-- The bytes of the texts of an asset that nothing bounds. -/
def freeBytes (repo ticketId : Text) (record : AssetRecord) : Nat :=
  size (quote repo) + size (quote ticketId) + size (quote record.createdAt)

theorem size_metaJson_le {runtime : SnapshotRuntime} (h : runtime.Texts) (repo ticketId : Text)
    {record : AssetRecord} (haccepted : record.Accepted) :
    size (stringify (metaJson (storedMeta runtime repo ticketId record))) ≤
      1679400 + freeBytes repo ticketId record := by
  have hrepo : size (quote (points "repo")) = 6 := rfl
  have hticket : size (quote (points "ticketId")) = 10 := rfl
  have hkind : size (quote (points "kind")) = 6 := rfl
  have hname : size (quote (points "name")) = 6 := rfl
  have hrevision : size (quote (points "revision")) = 10 := rfl
  have hlayout : size (quote (points "layout")) = 8 := rfl
  have hsize : size (quote (points "size")) = 6 := rfl
  have hcreated : size (quote (points "createdAt")) = 11 := rfl
  have hentriesKey : size (quote (points "entries")) = 9 := rfl
  have hlayoutText : size (quote record.input.layout.text) = 6 := by
    cases record.input.layout <;> rfl
  have hwithin := withinLimits_of_validateTicketAssetInput haccepted.valid
  have hkindText := hwithin.kind_plain.quote
  have hnameText := hwithin.name_plain.quote
  have hkindLength := hwithin.kind_length
  have hnameLength := hwithin.name_length
  have hcount : record.input.entries.length ≤ 1000 := hwithin.entries_length
  have hrevisionNum := size_num_le (n := record.revision) (k := 16) (by decide)
    (lt_of_le_of_lt haccepted.safe (by decide))
  have hsizeNum := size_num_le (n := record.size) (k := 8) (by decide)
    (lt_of_le_of_lt (size_le_of_validate haccepted.valid) (by decide))
  have hsum := sum_entryMetaJson_le h haccepted
  have harr := size_arr_le ((record.input.entries.map (storedEntry runtime)).map entryMetaJson)
  rw [metaJson, size_object]
  simp only [stringifyFields, List.map_cons, List.map_nil, List.sum_cons, List.sum_nil,
    size_entry, List.length_cons, List.length_nil, hrepo, hticket, hkind, hname, hrevision,
    hlayout, hsize, hcreated, hentriesKey]
  simp only [storedMeta, freeBytes]
  simp only [stringify] at hrevisionNum hsizeNum harr ⊢
  omega

/-- The manifest of an accepted asset, but for the texts that nothing bounds. -/
theorem size_manifestText_le {runtime : SnapshotRuntime} (h : runtime.Texts) (repo ticketId : Text)
    {record : AssetRecord} (haccepted : record.Accepted) {state : CopyState}
    {files : List SnapshotFile}
    (hfiles : List.Forall₂ (HoldsFile runtime state) (filesOf record.input.entries) files) :
    size (manifestText (manifestOf runtime repo ticketId record files)) ≤
      3441000 + freeBytes repo ticketId record := by
  have hversion : size (quote (points "version")) = 9 := rfl
  have hmeta : size (quote (points "meta")) = 6 := rfl
  have hfilesKey : size (quote (points "files")) = 7 := rfl
  have hone : size (points "1") = 1 := rfl
  have hwithin := withinLimits_of_validateTicketAssetInput haccepted.valid
  have hcount : record.input.entries.length ≤ 1000 := hwithin.entries_length
  have hfileCount := length_filesOf_le record.input.entries
  have hchunks := chunkDeposits_le_of_accepted haccepted
  have hmetaJson := size_metaJson_le h repo ticketId haccepted
  have hsum := sum_fileJson_le h hfiles fun source hsource =>
    hwithin.path_size (.file source.1 source.2) (mem_filesOf.mp hsource)
  have harr := size_arr_le (files.map fileJson)
  rw [manifestText, size_object]
  simp only [stringifyFields, List.map_cons, List.map_nil, List.sum_cons, List.sum_nil,
    size_entry, List.length_cons, List.length_nil, hversion, hmeta, hfilesKey, manifestOf]
  rw [stringify, hone]
  omega

end Autobuild.AssetSnapshots
