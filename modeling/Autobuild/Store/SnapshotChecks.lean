/-
# The checks of ticket asset snapshots

What the validator accepts of an asset it accepts of the metadata that an adapter keeps of it
(`validate_outline`), so an accepted asset passes the checks before the copy and after the reading
(`verify_stored`).  An entry that passes is the one whose hash the metadata has (`entries_eq`).
-/
import Autobuild.Store.SnapshotCopies

namespace Autobuild.AssetSnapshots

open Utf8 StreamJson TicketFile
open JsText (MAX_SAFE_INTEGER)

/-! ## 1. What is accepted -/

/-- `storeTicketAssetBlobs`, for an entry. -/
def storedEntry (runtime : SnapshotRuntime) : TicketAssetEntryInput → TicketAssetEntry
  | .file path content => .file path content.length (runtime.contentHash content)
  | .dir path => .dir path

/-- An accepted asset, as an adapter keeps it. -/
structure AssetRecord where
  input : TicketAssetInput
  size : Nat
  revision : Nat
  createdAt : Text

/-- The validator accepts it under the default limits. -/
structure AssetRecord.Accepted (record : AssetRecord) : Prop where
  valid : validateTicketAssetInput record.input DEFAULT_TICKET_ASSET_LIMITS = .ok record.size
  safe : record.revision ≤ MAX_SAFE_INTEGER

def storedMeta (runtime : SnapshotRuntime) (repo ticketId : Text) (record : AssetRecord) :
    TicketAssetMeta where
  repo := repo
  ticketId := ticketId
  kind := record.input.kind
  name := record.input.name
  revision := record.revision
  layout := record.input.layout
  size := record.size
  createdAt := record.createdAt
  entries := record.input.entries.map (storedEntry runtime)

/-- The entry with zeros for its content. -/
def blankEntry : TicketAssetEntryInput → TicketAssetEntryInput
  | .file path content => .file path (List.replicate content.length 0)
  | .dir path => .dir path

theorem blankEntry_type (entry : TicketAssetEntryInput) : (blankEntry entry).type = entry.type := by
  cases entry <;> rfl

theorem blankEntry_path (entry : TicketAssetEntryInput) : (blankEntry entry).path = entry.path := by
  cases entry <;> rfl

theorem blankEntry_size (entry : TicketAssetEntryInput) : (blankEntry entry).size = entry.size := by
  cases entry with
  | file path content => exact List.length_replicate
  | dir path => rfl

theorem outline_storedEntry (runtime : SnapshotRuntime) (entry : TicketAssetEntryInput) :
    (storedEntry runtime entry).outline = blankEntry entry := by
  cases entry <;> rfl

theorem validateEntries_blank (entries : List TicketAssetEntryInput) :
    ∀ (kinds : AssetKinds) (size : Nat),
      validateEntries kinds size (entries.map blankEntry) = validateEntries kinds size entries := by
  induction entries with
  | nil => exact fun _ _ => rfl
  | cons entry rest ih =>
    intro kinds size
    rw [List.map_cons, validateEntries, validateEntries, blankEntry_path, blankEntry_type,
      blankEntry_size]
    simp only [ih]

/-- The validator reads nothing of the contents but their sizes. -/
theorem validate_blank (kind name : Text) (layout : TicketAssetLayout)
    (entries : List TicketAssetEntryInput) (limits : TicketAssetLimits) :
    validateTicketAssetStructure ⟨kind, name, layout, entries.map blankEntry⟩ limits =
      validateTicketAssetStructure ⟨kind, name, layout, entries⟩ limits := by
  have hfiles : (entries.map blankEntry).filter (fun entry => entry.type = .file) =
      (entries.filter fun entry => entry.type = .file).map blankEntry := by
    rw [List.filter_map]
    simp only [Function.comp_def, blankEntry_type]
  simp only [validateTicketAssetStructure, hfiles, List.length_map, validateEntries_blank,
    List.any_map, Function.comp_def, blankEntry_path]

theorem validate_outline (runtime : SnapshotRuntime) (repo ticketId : Text) {record : AssetRecord}
    (h : record.Accepted) :
    validateTicketAssetStructure (storedMeta runtime repo ticketId record).outline
      DEFAULT_TICKET_ASSET_LIMITS = .ok record.size := by
  have hentries : (record.input.entries.map (storedEntry runtime)).map TicketAssetEntry.outline =
      record.input.entries.map blankEntry := by
    rw [List.map_map]
    exact List.map_congr_left fun entry _ => outline_storedEntry runtime entry
  have hvalid := h.valid
  rw [validateTicketAssetInput] at hvalid
  simp only [TicketAssetMeta.outline, storedMeta]
  rw [hentries, validate_blank]
  exact hvalid

/-- The size that the validator returns is within the limit. -/
theorem size_le_of_validate {input : TicketAssetInput} {limits : TicketAssetLimits} {size : Nat}
    (h : validateTicketAssetInput input limits = .ok size) : size ≤ limits.maxBytes :=
  (of_validateTicketAssetInput h).2.2.2.2

theorem nodup_of_validateEntries {entries : List TicketAssetEntryInput} :
    ∀ {kinds kinds' : AssetKinds} {size size' : Nat},
      validateEntries kinds size entries = .ok (kinds', size') →
        (entries.map TicketAssetEntryInput.path).Nodup ∧
          ∀ entry ∈ entries, kinds.has ⟨entry.path⟩ = false := by
  induction entries with
  | nil => exact fun _ => ⟨List.nodup_nil, fun _ h => absurd h List.not_mem_nil⟩
  | cons entry rest ih =>
    intro kinds kinds' size size' h
    rw [validateEntries] at h
    split at h
    · cases h
    split at h
    · cases h
    next hnew =>
    rw [Bool.not_eq_true] at hnew
    obtain ⟨hnodup, hfresh⟩ := ih h
    have hset : ∀ other ∈ rest, other.path ≠ entry.path ∧ kinds.has ⟨other.path⟩ = false := by
      intro other hother
      have hhas := hfresh other hother
      simp only [ObjectMap.has, decide_eq_false_iff_not, ObjectMap.mem_keys_set, not_or] at hhas ⊢
      exact ⟨fun hsame => hhas.1 (congrArg MapKey.mk hsame), hhas.2⟩
    constructor
    · rw [List.map_cons, List.nodup_cons]
      refine ⟨fun hmem => ?_, hnodup⟩
      obtain ⟨other, hother, hsame⟩ := List.mem_map.mp hmem
      exact (hset other hother).1 hsame
    · intro other hother
      rcases List.mem_cons.mp hother with rfl | hother
      · exact hnew
      · exact (hset other hother).2

theorem AssetRecord.Accepted.nodup {record : AssetRecord} (h : record.Accepted) :
    (record.input.entries.map TicketAssetEntryInput.path).Nodup := by
  obtain ⟨-, -, -, ⟨kinds, hentries⟩, -⟩ := of_validateTicketAssetInput h.valid
  exact (nodup_of_validateEntries hentries).1

/-! ## 2. The checks -/

theorem length_le_of_accepted {record : AssetRecord} (h : record.Accepted) {path : Text}
    {content : Bytes} (hfile : .file path content ∈ record.input.entries) :
    content.length ≤ TICKET_ASSET_MAX_BYTES := by
  have hbytes := (withinLimits_of_validateTicketAssetInput h.valid).bytes
  refine le_trans ?_ hbytes
  exact List.single_le_sum (fun _ _ => Nat.zero_le _) _
    (List.mem_map.mpr ⟨.file path content, hfile, rfl⟩)

theorem metaSchema_stored (runtime : SnapshotRuntime) (repo ticketId : Text) {record : AssetRecord}
    (h : record.Accepted) : metaSchema (storedMeta runtime repo ticketId record) = true := by
  have hmax : TICKET_ASSET_MAX_BYTES ≤ MAX_SAFE_INTEGER := by decide
  have hsize : record.size ≤ TICKET_ASSET_MAX_BYTES := size_le_of_validate h.valid
  simp only [metaSchema, storedMeta, Bool.and_eq_true, List.all_map, List.all_eq_true,
    Function.comp_apply]
  refine ⟨⟨decide_eq_true h.safe, decide_eq_true (hsize.trans hmax)⟩, fun entry hentry => ?_⟩
  cases entry with
  | file path content => exact decide_eq_true ((length_le_of_accepted h hentry).trans hmax)
  | dir path => rfl

theorem verifyMetadata_stored {runtime : SnapshotRuntime} {repo ticketId : Text}
    {record : AssetRecord} {pin : PinnedAsset} (h : record.Accepted)
    (hpin : pin.agrees (pinnedAssetOf
      (summarizeTicketAsset (storedMeta runtime repo ticketId record))) = true) :
    verifyMetadata (storedMeta runtime repo ticketId record) repo ticketId pin = .ok () := by
  have hsame : ¬((storedMeta runtime repo ticketId record).repo ≠ repo ∨
      (storedMeta runtime repo ticketId record).ticketId ≠ ticketId ∨
        pin.agrees (pinnedAssetOf
          (summarizeTicketAsset (storedMeta runtime repo ticketId record))) = false) := by
    rw [hpin]
    simp [storedMeta]
  rw [verifyMetadata, if_neg hsame, validate_outline runtime repo ticketId h]
  exact if_pos rfl

theorem sameEntry_stored (runtime : SnapshotRuntime) (entries : List TicketAssetEntryInput) :
    (entries.zip (entries.map (storedEntry runtime))).all
      (fun entry => sameEntry runtime entry.1 entry.2) = true := by
  induction entries with
  | nil => rfl
  | cons entry rest ih =>
    rw [List.map_cons, List.zip_cons_cons, List.all_cons, ih, Bool.and_true]
    cases entry <;> simp [storedEntry, sameEntry]

theorem verify_stored {runtime : SnapshotRuntime} {repo ticketId : Text} {record : AssetRecord}
    {pin : PinnedAsset} (h : record.Accepted)
    (hpin : pin.agrees (pinnedAssetOf
      (summarizeTicketAsset (storedMeta runtime repo ticketId record))) = true) :
    verify runtime ⟨storedMeta runtime repo ticketId record, record.input.entries⟩ repo ticketId
      pin = .ok () := by
  have hvalid : validateTicketAssetInput ⟨record.input.kind, record.input.name,
      record.input.layout, record.input.entries⟩ DEFAULT_TICKET_ASSET_LIMITS = .ok record.size :=
    h.valid
  simp only [verify, verifyMetadata_stored h hpin]
  simp only [storedMeta, hvalid, List.length_map, sameEntry_stored, ne_eq, not_true_eq_false,
    or_self, if_false, if_true]

/-- No other content has the hash of a file of the asset. -/
def Collisionless (runtime : SnapshotRuntime) (entries : List TicketAssetEntryInput) : Prop :=
  ∀ path content, .file path content ∈ entries →
    ∀ other, runtime.contentHash other = runtime.contentHash content → other = content

/-- Entries that pass against the metadata of an asset are its entries. -/
theorem entries_eq {runtime : SnapshotRuntime} {entries : List TicketAssetEntryInput} :
    ∀ {others : List TicketAssetEntryInput}, Collisionless runtime entries →
      others.length = (entries.map (storedEntry runtime)).length →
        (others.zip (entries.map (storedEntry runtime))).all
          (fun entry => sameEntry runtime entry.1 entry.2) = true → others = entries := by
  induction entries with
  | nil => exact fun _ hlength _ => List.length_eq_zero_iff.mp hlength
  | cons entry rest ih =>
    intro others hhash hlength hsame
    cases others with
    | nil => exact absurd hlength nofun
    | cons other others =>
      rw [List.map_cons, List.zip_cons_cons, List.all_cons, Bool.and_eq_true] at hsame
      simp only [List.map_cons, List.length_cons, Nat.add_right_cancel_iff] at hlength
      obtain ⟨hentry, hrest⟩ := hsame
      rw [ih (fun path content hfile => hhash path content (List.mem_cons_of_mem _ hfile)) hlength
        hrest]
      refine congrArg (· :: rest) ?_
      cases entry with
      | dir path =>
        cases other with
        | dir path' => rw [of_decide_eq_true hentry]
        | file path' content' => exact absurd hentry nofun
      | file path content =>
        cases other with
        | dir path' => exact absurd hentry nofun
        | file path' content' =>
          simp only [storedEntry, sameEntry, Bool.and_eq_true, decide_eq_true_eq] at hentry
          obtain ⟨⟨hpath, -⟩, hcontent⟩ := hentry
          rw [hpath, hhash path content List.mem_cons_self content' hcontent]

/-- What a check that passed has compared. -/
theorem of_verify {runtime : SnapshotRuntime} {asset : TicketAsset} {repo ticketId : Text}
    {pin : PinnedAsset} (h : verify runtime asset repo ticketId pin = .ok ()) :
    asset.entries.length = asset.info.entries.length ∧
      (asset.entries.zip asset.info.entries).all
        (fun entry => sameEntry runtime entry.1 entry.2) = true := by
  rw [verify] at h
  split at h
  · exact absurd h nofun
  split at h
  · exact absurd h nofun
  split at h
  · exact absurd h nofun
  next hlength =>
  split at h
  next hsame =>
    simp only [not_or, ne_eq, not_not] at hlength
    exact ⟨hlength.2, hsame⟩
  · exact absurd h nofun

/-! ## 3. The snapshots of accepted assets -/

section Copy

variable {runtime : SnapshotRuntime} {around : Surroundings} {total : Nat}

/-- The asset of a record, as an adapter keeps it. -/
def storedAsset (runtime : SnapshotRuntime) (repo ticketId : Text) (record : AssetRecord) :
    TicketAsset := ⟨storedMeta runtime repo ticketId record, record.input.entries⟩

/-- The source lists the assets, and has each of them. -/
structure AssetSource.Keeps (source : AssetSource) (assets : List TicketAsset) : Prop where
  listed : source.listTicketAssets = assets.map fun asset => summarizeTicketAsset asset.info
  kept : ∀ asset ∈ assets,
    source.getTicketAsset asset.info.kind asset.info.name asset.info.revision = some asset

/-- The number of deposits for the assets. -/
def depositsOf (records : List AssetRecord) : Nat :=
  (records.map fun record => chunkDeposits (filesOf record.input.entries) + 1).sum

/-- The manifest of a record, with the files that refer to its chunks. -/
def manifestOf (runtime : SnapshotRuntime) (repo ticketId : Text) (record : AssetRecord)
    (files : List SnapshotFile) : SnapshotManifest :=
  ⟨storedMeta runtime repo ticketId record, files⟩

/-- A pin refers to the manifest of the asset. -/
def HoldsSnapshot (runtime : SnapshotRuntime) (repo ticketId : Text) (state : CopyState)
    (record : AssetRecord) (pin : PinnedAsset) : Prop :=
  ∃ files, ∃ call < state.deposits,
    pin = { pinnedAssetOf (summarizeTicketAsset (storedMeta runtime repo ticketId record)) with
      snapshot := some ⟨snapshotKind runtime call, 0⟩ } ∧
    getRepoArtifact state.store ⟨snapshotKind runtime call, 0⟩ =
      some (runtime.gzipSync (toBytes (manifestText (manifestOf runtime repo ticketId record
        files)))) ∧
    List.Forall₂ (HoldsFile runtime state) (filesOf record.input.entries) files

theorem HoldsSnapshot.kept {repo ticketId : Text} {state state' : CopyState} {record : AssetRecord}
    {pin : PinnedAsset} (h : HoldsSnapshot runtime repo ticketId state record pin)
    (hkept : Kept runtime state state') :
    HoldsSnapshot runtime repo ticketId state' record pin := by
  obtain ⟨files, call, hcall, hpin, hget, hfiles⟩ := h
  exact ⟨files, call, hcall.trans_le hkept.deposits, hpin, by rw [hkept.same call hcall, hget],
    hfiles.imp fun _ _ hfile => hfile.kept hkept⟩

theorem prepareSnapshot_spec (hsep : Separate runtime around total) {source : AssetSource}
    (repo : Text) (ticketId canonicalTicketId : Text) {record : AssetRecord}
    (haccepted : record.Accepted)
    (hsource : source.getTicketAsset record.input.kind record.input.name record.revision =
      some (storedAsset runtime repo canonicalTicketId record))
    {state : CopyState} (hfresh : Fresh runtime total state)
    (hroom : state.deposits + (chunkDeposits (filesOf record.input.entries) + 1) ≤ total) :
    ∃ pin state', prepareSnapshot runtime around source repo ticketId canonicalTicketId
        (pinnedAssetOf (summarizeTicketAsset (storedMeta runtime repo canonicalTicketId record)))
        state = .ok (pin, state') ∧
      Deposited runtime total (chunkDeposits (filesOf record.input.entries) + 1) state state' ∧
        HoldsSnapshot runtime repo ticketId state' record pin := by
  obtain ⟨files, state₁, hput, hdone, hfiles⟩ := putFiles_spec hsep record.input.entries hfresh
    (by omega)
  obtain ⟨state₂, hdeposit, hdone', hget⟩ := deposit_spec hsep
    (runtime.gzipSync (toBytes (manifestText (manifestOf runtime repo ticketId record files))))
    hdone.fresh (by rw [hdone.count]; omega)
  refine ⟨_, state₂, ?_, hdone.trans hdone', files, state₁.deposits, ?_, rfl, hget,
    hfiles.imp fun _ _ hfile => hfile.kept hdone'.kept⟩
  · have hget : ∀ summary, summary = summarizeTicketAsset (storedMeta runtime repo canonicalTicketId
        record) → source.getTicketAsset (pinnedAssetOf summary).kind (pinnedAssetOf summary).name
          (pinnedAssetOf summary).revision =
            some (storedAsset runtime repo canonicalTicketId record) := by
      rintro _ rfl
      exact hsource
    have hmanifest : snapshotManifest runtime around (storedAsset runtime repo canonicalTicketId
        record) ticketId state = .ok (manifestOf runtime repo ticketId record files, state₁) := by
      simp only [snapshotManifest, storedAsset, hput, Checked.ok_bind]
      rfl
    have hschema : metaSchema (storedAsset runtime repo canonicalTicketId record).info = true :=
      metaSchema_stored runtime repo canonicalTicketId haccepted
    have hchecked : verify runtime (storedAsset runtime repo canonicalTicketId record) repo
        canonicalTicketId (pinnedAssetOf (summarizeTicketAsset
          (storedMeta runtime repo canonicalTicketId record))) = .ok () :=
      verify_stored haccepted (decide_eq_true rfl)
    rw [prepareSnapshot, hget _ rfl]
    simp only [hschema, hchecked, hmanifest, hdeposit, Checked.ok_bind, reduceCtorEq, if_false]
    rfl
  · rw [hdone'.count]
    exact Nat.lt_succ_self _

theorem prepareSnapshots_spec (hsep : Separate runtime around total) {source : AssetSource}
    (repo ticketId canonicalTicketId : Text) :
    ∀ (records : List AssetRecord), (∀ record ∈ records, record.Accepted) →
      (∀ record ∈ records,
        source.getTicketAsset record.input.kind record.input.name record.revision =
          some (storedAsset runtime repo canonicalTicketId record)) →
      ∀ {state : CopyState}, Fresh runtime total state →
        state.deposits + depositsOf records ≤ total →
          ∃ pins state', prepareSnapshots runtime around source repo ticketId canonicalTicketId
              (records.map fun record => pinnedAssetOf
                (summarizeTicketAsset (storedMeta runtime repo canonicalTicketId record))) state =
                .ok (pins, state') ∧
            Deposited runtime total (depositsOf records) state state' ∧
              List.Forall₂ (HoldsSnapshot runtime repo ticketId state') records pins
  | [], _, _, state, hfresh, _ => ⟨[], state, rfl, Deposited.refl hfresh, .nil⟩
  | record :: rest, haccepted, hsource, state, hfresh, hroom => by
    simp only [depositsOf, List.map_cons, List.sum_cons] at hroom
    obtain ⟨pin, state₁, hpin, hdone, hholds⟩ := prepareSnapshot_spec hsep repo ticketId
      canonicalTicketId (haccepted record List.mem_cons_self) (hsource record List.mem_cons_self)
      hfresh (by omega)
    obtain ⟨pins, state₂, hrest, hdone', hpins⟩ := prepareSnapshots_spec hsep repo ticketId
      canonicalTicketId rest (fun other hother => haccepted other (List.mem_cons_of_mem _ hother))
      (fun other hother => hsource other (List.mem_cons_of_mem _ hother)) hdone.fresh
      (by rw [hdone.count, depositsOf]; omega)
    refine ⟨pin :: pins, state₂, ?_, hdone.trans hdone', .cons (hholds.kept hdone'.kept) hpins⟩
    rw [List.map_cons, prepareSnapshots, hpin, Checked.ok_bind]
    dsimp only
    rw [hrest]
    rfl

end Copy

end Autobuild.AssetSnapshots
