/-
# The copies of ticket assets

Every deposit of a copy goes under a kind of its own, so what others deposit meanwhile, and later,
leaves it as it is.

* `deposit_spec`: one deposit, and what it leaves of the earlier ones (`Kept`).
* `putFiles_spec`: the files of an asset, each by its slices (`HoldsFile`).
* `prepareSnapshots_spec`: every pin refers to the manifest of its asset.
-/
import Autobuild.Lib.Checked
import Autobuild.Store.AssetSnapshots

namespace Autobuild.AssetSnapshots

open Utf8 StreamJson TicketFile

/-! ## 1. The store -/

/-- No artifact has the kind. -/
def Unused (store : ArtifactStore) (kind : String) : Prop :=
  ∀ artifact ∈ store, artifact.kind ≠ kind

theorem Unused.of_subset {store store' : ArtifactStore} {kind : String} (h : Unused store kind)
    (hsub : store' ⊆ store) : Unused store' kind := fun artifact hartifact =>
  h artifact (hsub hartifact)

theorem pruneRepoKind_subset (maxRevisions : Int) (store : ArtifactStore) (kind : String) :
    pruneRepoKind maxRevisions store kind ⊆ store := by
  rw [pruneRepoKind]
  split
  · exact List.Subset.refl _
  · exact List.filter_subset_self _

theorem getRepoArtifact_pruneRepoKind (maxRevisions : Int) (store : ArtifactStore) {kind : String}
    {ref : SnapshotRef} (h : ref.kind ≠ kind) :
    getRepoArtifact (pruneRepoKind maxRevisions store kind) ref = getRepoArtifact store ref := by
  rw [pruneRepoKind]
  split
  · rfl
  · rw [getRepoArtifact, getRepoArtifact, List.find?_filter]
    refine congrArg _ (congrArg (List.find? · store) (funext fun artifact => ?_))
    by_cases hkind : artifact.kind = ref.kind
    · simp [hkind, h]
    · simp [hkind]

theorem getRepoArtifact_append (store : ArtifactStore) {artifact : StoredArtifact}
    {ref : SnapshotRef} (h : ref.kind ≠ artifact.kind) :
    getRepoArtifact (store ++ [artifact]) ref = getRepoArtifact store ref := by
  have hnone : [artifact].find? (fun other => other.kind = ref.kind ∧
      other.revision = ref.revision) = none := by
    simp [h.symm]
  rw [getRepoArtifact, getRepoArtifact, List.find?_append, hnone, Option.or_none]

/-- A deposit leaves the artifacts of every other kind. -/
theorem putRepoArtifact_other {maxRevisions : Int} {store store' : ArtifactStore} {kind : String}
    {content : Bytes} {revision : Nat}
    (h : putRepoArtifact maxRevisions store kind content = .ok (revision, store'))
    {ref : SnapshotRef} (hne : ref.kind ≠ kind) :
    getRepoArtifact store' ref = getRepoArtifact store ref := by
  rw [putRepoArtifact] at h
  split at h
  · exact absurd h nofun
  · cases h
    rw [getRepoArtifact_pruneRepoKind _ _ hne, getRepoArtifact_append _ hne]

theorem Unused.putRepoArtifact {maxRevisions : Int} {store store' : ArtifactStore}
    {kind other : String} {content : Bytes} {revision : Nat} (hunused : Unused store other)
    (h : putRepoArtifact maxRevisions store kind content = .ok (revision, store'))
    (hne : kind ≠ other) : Unused store' other := by
  rw [AssetSnapshots.putRepoArtifact] at h
  split at h
  · exact absurd h nofun
  · cases h
    refine Unused.of_subset ?_ (pruneRepoKind_subset _ _ _)
    intro artifact hartifact
    rcases List.mem_append.mp hartifact with hartifact | hartifact
    · exact hunused artifact hartifact
    · rw [List.mem_singleton.mp hartifact]
      exact hne

/-- The first deposit of a kind without retention. -/
theorem putRepoArtifact_new (maxRevisions : Int) {store : ArtifactStore} {kind : String}
    (content : Bytes) (hne : kind ≠ "") (hretention : isRetentionManagedKind kind = false)
    (hunused : Unused store kind) :
    putRepoArtifact maxRevisions store kind content = .ok (0, store ++ [⟨kind, 0, content⟩]) ∧
      getRepoArtifact (store ++ [⟨kind, 0, content⟩]) ⟨kind, 0⟩ = some content := by
  have hrevisions : revisionsOf store kind = [] := by
    rw [revisionsOf, List.map_eq_nil_iff, List.filter_eq_nil_iff]
    exact fun artifact hartifact => by simpa using hunused artifact hartifact
  have hnone : store.find? (fun artifact => artifact.kind = kind ∧ artifact.revision = 0) =
      none := by
    rw [List.find?_eq_none]
    exact fun artifact hartifact => by simp [hunused artifact hartifact]
  constructor
  · simp only [putRepoArtifact, if_neg hne, hrevisions, pruneRepoKind, hretention]
    rfl
  · rw [getRepoArtifact, List.find?_append, hnone]
    simp

/-- What others deposit leaves every kind that is not theirs. -/
theorem depositOthers_spec (maxRevisions : Int) {kind : String} :
    ∀ (others : List (String × Bytes)) (store : ArtifactStore),
      (∀ artifact ∈ others, artifact.1 ≠ kind) →
        (Unused store kind → Unused (depositOthers maxRevisions store others) kind) ∧
          ∀ revision : Nat, getRepoArtifact (depositOthers maxRevisions store others)
            ⟨kind, revision⟩ = getRepoArtifact store ⟨kind, revision⟩
  | [], _, _ => ⟨id, fun _ => rfl⟩
  | (other, content) :: rest, store, h => by
    have hother : other ≠ kind := h (other, content) List.mem_cons_self
    have hrest : ∀ artifact ∈ rest, artifact.1 ≠ kind := fun artifact hartifact =>
      h artifact (List.mem_cons_of_mem _ hartifact)
    rw [depositOthers]
    split
    next revision store' hput =>
      obtain ⟨hunused, hget⟩ := depositOthers_spec maxRevisions rest store' hrest
      refine ⟨fun hstore => hunused (hstore.putRepoArtifact hput hother), fun revision => ?_⟩
      rw [hget, putRepoArtifact_other hput hother.symm]
    next => exact depositOthers_spec maxRevisions rest store hrest

/-! ## 2. One deposit -/

section Copy

variable {runtime : SnapshotRuntime} {around : Surroundings} {total : Nat}

theorem snapshotKind_ne_nil (call : Nat) : snapshotKind runtime call ≠ "" := by
  intro h
  have hchars := congrArg String.toList h
  simp [snapshotKind, snapshotKindPrefix] at hchars

theorem snapshotKind_retention (call : Nat) :
    isRetentionManagedKind (snapshotKind runtime call) = false := by
  have hne : ∀ kind : String, kind.toList.head? ≠ some 't' → snapshotKind runtime call ≠ kind := by
    rintro kind hkind rfl
    simp [snapshotKind, snapshotKindPrefix] at hkind
  rw [isRetentionManagedKind]
  simp only [dispatcherRetentionRepoKinds, operatorRetentionRepoKinds,
    dispatcherRetentionBuildKinds, List.mem_cons, List.not_mem_nil, or_false,
    Bool.or_eq_false_iff, decide_eq_false_iff_not, not_or]
  exact ⟨⟨⟨hne _ (by decide), hne _ (by decide)⟩, hne _ (by decide)⟩, hne _ (by decide)⟩

/-- The UUIDs of the copy's deposits differ, and others use none of them. -/
structure Separate (runtime : SnapshotRuntime) (around : Surroundings) (total : Nat) : Prop where
  distinct : ∀ i < total, ∀ j < total, runtime.randomUUID i = runtime.randomUUID j → i = j
  apart : ∀ call < total, ∀ n, ∀ artifact ∈ around.others n,
    artifact.1 ≠ snapshotKind runtime call

theorem Separate.kind_ne (h : Separate runtime around total) {i j : Nat} (hi : i < total)
    (hj : j < total) (hne : i ≠ j) : snapshotKind runtime i ≠ snapshotKind runtime j := by
  intro heq
  refine hne (h.distinct i hi j hj ?_)
  have hchars := congrArg String.toList heq
  rw [snapshotKind, snapshotKind, String.toList_append, String.toList_append] at hchars
  exact String.toList_inj.mp (List.append_cancel_left hchars)

/-- The kinds of the deposits to come are unused. -/
def Fresh (runtime : SnapshotRuntime) (total : Nat) (state : CopyState) : Prop :=
  ∀ call, state.deposits ≤ call → call < total → Unused state.store (snapshotKind runtime call)

/-- What the copy has deposited stays as it is. -/
structure Kept (runtime : SnapshotRuntime) (state state' : CopyState) : Prop where
  deposits : state.deposits ≤ state'.deposits
  same : ∀ call < state.deposits, ∀ revision : Nat,
    getRepoArtifact state'.store ⟨snapshotKind runtime call, revision⟩ =
      getRepoArtifact state.store ⟨snapshotKind runtime call, revision⟩

theorem Kept.refl (state : CopyState) : Kept runtime state state := ⟨le_rfl, fun _ _ _ => rfl⟩

theorem Kept.trans {a b c : CopyState} (hab : Kept runtime a b) (hbc : Kept runtime b c) :
    Kept runtime a c :=
  ⟨hab.deposits.trans hbc.deposits, fun call hcall revision => by
    rw [hbc.same call (hcall.trans_le hab.deposits), hab.same call hcall]⟩

/-- What a part of the copy does to the state: it makes so many deposits. -/
structure Deposited (runtime : SnapshotRuntime) (total count : Nat) (state state' : CopyState) :
    Prop where
  count : state'.deposits = state.deposits + count
  fresh : Fresh runtime total state'
  kept : Kept runtime state state'

theorem Deposited.refl {state : CopyState} (h : Fresh runtime total state) :
    Deposited runtime total 0 state state := ⟨rfl, h, Kept.refl state⟩

theorem Deposited.trans {m n : Nat} {a b c : CopyState} (hab : Deposited runtime total m a b)
    (hbc : Deposited runtime total n b c) : Deposited runtime total (m + n) a c :=
  ⟨by rw [hbc.count, hab.count, Nat.add_assoc], hbc.fresh, hab.kept.trans hbc.kept⟩

theorem deposit_spec (hsep : Separate runtime around total) (content : Bytes) {state : CopyState}
    (hfresh : Fresh runtime total state) (hroom : state.deposits < total) :
    ∃ state', deposit runtime around content state =
        .ok (⟨snapshotKind runtime state.deposits, 0⟩, state') ∧
      Deposited runtime total 1 state state' ∧
        getRepoArtifact state'.store ⟨snapshotKind runtime state.deposits, 0⟩ = some content := by
  have hothers : ∀ call < total, _ := fun call hcall =>
    depositOthers_spec around.maxRevisions (around.others state.deposits) state.store
      (hsep.apart call hcall state.deposits)
  obtain ⟨hput, hget⟩ := putRepoArtifact_new around.maxRevisions content
    (snapshotKind_ne_nil state.deposits) (snapshotKind_retention state.deposits)
    ((hothers _ hroom).1 (hfresh _ le_rfl hroom))
  refine ⟨⟨_, state.deposits + 1⟩, ?_, ⟨rfl, ?_, ?_⟩, hget⟩
  · simp only [deposit, hput]
  · intro call hcall htotal
    refine Unused.putRepoArtifact ((hothers call htotal).1 (hfresh call ?_ htotal)) hput ?_
    · exact (Nat.le_succ _).trans hcall
    · exact hsep.kind_ne hroom htotal (Nat.ne_of_lt hcall)
  · refine ⟨Nat.le_succ _, fun call hcall revision => ?_⟩
    have htotal := hcall.trans hroom
    rw [putRepoArtifact_other hput (hsep.kind_ne htotal hroom (Nat.ne_of_lt hcall)),
      (hothers call htotal).2]

/-! ## 3. Chunks -/

theorem slices_nil : slices [] = [] := by
  rw [slices, if_pos rfl]

theorem slices_of_ne_nil {content : Bytes} (h : content ≠ []) :
    slices content = content.take CHUNK_BYTES :: slices (content.drop CHUNK_BYTES) := by
  rw [slices, if_neg h]

theorem flatten_slices (content : Bytes) : (slices content).flatten = content := by
  induction content using slices.induct with
  | case1 => rw [slices_nil, List.flatten_nil]
  | case2 content hne ih =>
    rw [slices_of_ne_nil hne, List.flatten_cons, ih, List.take_append_drop]

theorem length_of_mem_slices {content bytes : Bytes} (h : bytes ∈ slices content) :
    1 ≤ bytes.length ∧ bytes.length ≤ CHUNK_BYTES := by
  induction content using slices.induct with
  | case1 =>
    rw [slices_nil] at h
    exact absurd h List.not_mem_nil
  | case2 content hne ih =>
    rw [slices_of_ne_nil hne] at h
    rcases List.mem_cons.mp h with rfl | h
    · have hpos := List.length_pos_of_ne_nil hne
      rw [List.length_take, CHUNK_BYTES]
      omega
    · exact ih h

/-- All slices but the last are full. -/
theorem length_slices_le (content : Bytes) :
    CHUNK_BYTES * (slices content).length ≤ content.length + (CHUNK_BYTES - 1) := by
  induction content using slices.induct with
  | case1 =>
    rw [slices_nil, List.length_nil, Nat.mul_zero]
    exact Nat.zero_le _
  | case2 content hne ih =>
    have hpos := List.length_pos_of_ne_nil hne
    rw [slices_of_ne_nil hne, List.length_cons]
    by_cases hlast : content.length ≤ CHUNK_BYTES
    · rw [List.drop_eq_nil_of_le hlast, slices_nil, List.length_nil]
      omega
    · rw [List.length_drop] at ih
      rw [Nat.mul_succ]
      omega

/-- The chunk that refers to the bytes, at one of the deposits so far. -/
def HoldsChunk (runtime : SnapshotRuntime) (state : CopyState) (bytes : Bytes) (chunk : ChunkRef) :
    Prop :=
  ∃ call < state.deposits,
    chunk = ⟨⟨snapshotKind runtime call, 0⟩, runtime.contentHash bytes, bytes.length⟩ ∧
      getRepoArtifact state.store ⟨snapshotKind runtime call, 0⟩ = some bytes

theorem HoldsChunk.kept {state state' : CopyState} {bytes : Bytes} {chunk : ChunkRef}
    (h : HoldsChunk runtime state bytes chunk) (hkept : Kept runtime state state') :
    HoldsChunk runtime state' bytes chunk := by
  obtain ⟨call, hcall, hchunk, hget⟩ := h
  exact ⟨call, hcall.trans_le hkept.deposits, hchunk, by rw [hkept.same call hcall, hget]⟩

theorem putChunks_spec (hsep : Separate runtime around total) :
    ∀ (parts : List Bytes) {state : CopyState}, Fresh runtime total state →
      state.deposits + parts.length ≤ total →
        ∃ chunks state', putChunks runtime around parts state = .ok (chunks, state') ∧
          Deposited runtime total parts.length state state' ∧
            List.Forall₂ (HoldsChunk runtime state') parts chunks
  | [], state, hfresh, _ => ⟨[], state, rfl, Deposited.refl hfresh, .nil⟩
  | bytes :: rest, state, hfresh, hroom => by
    rw [List.length_cons] at hroom
    obtain ⟨state₁, hdeposit, hdone, hget⟩ := deposit_spec hsep bytes hfresh (by omega)
    obtain ⟨chunks, state₂, hrest, hdone', hchunks⟩ := putChunks_spec hsep rest hdone.fresh
      (by rw [hdone.count]; omega)
    refine ⟨⟨⟨snapshotKind runtime state.deposits, 0⟩, runtime.contentHash bytes, bytes.length⟩ ::
      chunks, state₂, ?_, ?_, .cons ?_ hchunks⟩
    · rw [putChunks, hdeposit, Checked.ok_bind]
      dsimp only
      rw [hrest]
      rfl
    · rw [List.length_cons, Nat.add_comm]
      exact hdone.trans hdone'
    · refine HoldsChunk.kept ?_ hdone'.kept
      exact ⟨state.deposits, by rw [hdone.count]; omega, rfl, hget⟩

/-! ## 4. Files -/

/-- The files among the entries. -/
def filesOf : List TicketAssetEntryInput → List (Text × Bytes)
  | [] => []
  | .dir _ :: rest => filesOf rest
  | .file path content :: rest => (path, content) :: filesOf rest

theorem mem_filesOf {entries : List TicketAssetEntryInput} {path : Text} {content : Bytes} :
    (path, content) ∈ filesOf entries ↔ .file path content ∈ entries := by
  induction entries with
  | nil => simp [filesOf]
  | cons entry rest ih => cases entry <;> simp [filesOf, ih]

/-- The number of deposits for the chunks of the files. -/
def chunkDeposits (files : List (Text × Bytes)) : Nat :=
  (files.map fun file => (slices file.2).length).sum

/-- A file of the manifest, with the chunks of its content. -/
def HoldsFile (runtime : SnapshotRuntime) (state : CopyState) (source : Text × Bytes)
    (file : SnapshotFile) : Prop :=
  file.path = source.1 ∧ List.Forall₂ (HoldsChunk runtime state) (slices source.2) file.chunks

theorem HoldsFile.kept {state state' : CopyState} {source : Text × Bytes} {file : SnapshotFile}
    (h : HoldsFile runtime state source file) (hkept : Kept runtime state state') :
    HoldsFile runtime state' source file :=
  ⟨h.1, h.2.imp fun _ _ hchunk => hchunk.kept hkept⟩

theorem putFiles_spec (hsep : Separate runtime around total) :
    ∀ (entries : List TicketAssetEntryInput) {state : CopyState}, Fresh runtime total state →
      state.deposits + chunkDeposits (filesOf entries) ≤ total →
        ∃ files state', putFiles runtime around entries state = .ok (files, state') ∧
          Deposited runtime total (chunkDeposits (filesOf entries)) state state' ∧
            List.Forall₂ (HoldsFile runtime state') (filesOf entries) files
  | [], state, hfresh, _ => ⟨[], state, rfl, Deposited.refl hfresh, .nil⟩
  | .dir path :: rest, state, hfresh, hroom => putFiles_spec hsep rest hfresh hroom
  | .file path content :: rest, state, hfresh, hroom => by
    simp only [filesOf, chunkDeposits, List.map_cons, List.sum_cons] at hroom
    obtain ⟨chunks, state₁, hparts, hdone, hchunks⟩ := putChunks_spec hsep (slices content) hfresh
      (by omega)
    obtain ⟨files, state₂, hrest, hdone', hfiles⟩ := putFiles_spec hsep rest hdone.fresh
      (by rw [hdone.count, chunkDeposits]; omega)
    refine ⟨⟨path, chunks⟩ :: files, state₂, ?_, hdone.trans hdone', .cons ?_ hfiles⟩
    · rw [putFiles, hparts, Checked.ok_bind]
      dsimp only
      rw [hrest]
      rfl
    · exact HoldsFile.kept ⟨rfl, hchunks⟩ hdone'.kept

end Copy

end Autobuild.AssetSnapshots
