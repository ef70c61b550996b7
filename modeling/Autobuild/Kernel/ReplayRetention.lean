/-
# Replay retention: the pack of a head kept as artifacts

`retainReplay` deposits the pack of a head in chunks of a mebibyte, each under a kind that names the
digest of the whole pack, and after them the manifest, under the kind of the head.  Any number of
attempts run side by side, each with a pack of its own, and each may stop at any await.

* `retainStep`: an attempt from one await to the next.
* `Retained`: the invariant of the artifacts and the attempts.  What an artifact promises
  (`ArtifactOk`) was true when it was deposited and only grows: a manifest has all the chunks of its
  pack before it, and a chunk is a slice of a pack with its digest.
* `restoreReplay`: the reads of a restore, each at a time of its own.  Without a collision every
  chunk it reads is a slice of the pack of its manifest (`getChunk_eq_slice`).
-/
import Autobuild.Lib.JsText
import Mathlib.Logic.Function.Basic
import Mathlib.Order.Monotone.Basic
import Mathlib.Algebra.Group.Nat.Defs

namespace Autobuild.ReplayRetention

open JsText (MAX_SAFE_INTEGER)

/-! ## 1. Slices -/

section Slices

variable {α : Type}

/-- The slice of `size` elements that starts at `i * size`. -/
def slice (size i : Nat) (xs : List α) : List α := (xs.drop (i * size)).take size

/-- `Math.ceil(length / size)`. -/
def sliceCount (size length : Nat) : Nat := (length + size - 1) / size

theorem take_append_slice (size i : Nat) (xs : List α) :
    xs.take (i * size) ++ slice size i xs = xs.take ((i + 1) * size) := by
  rw [slice, Nat.succ_mul, List.take_add]

theorem length_slice (size i : Nat) (xs : List α) :
    (slice size i xs).length = min size (xs.length - i * size) := by
  rw [slice, List.length_take, List.length_drop]

theorem take_sliceCount {size : Nat} (hsize : 0 < size) (xs : List α) :
    xs.take (sliceCount size xs.length * size) = xs := by
  refine List.take_of_length_le ?_
  have hdiv := Nat.div_add_mod (xs.length + size - 1) size
  have hmod := Nat.mod_lt (xs.length + size - 1) hsize
  rw [sliceCount, Nat.mul_comm]
  omega

end Slices

/-! ## 2. Artifacts -/

abbrev Octets := List UInt8

def REPLAY_CHUNK_BYTES : Nat := 1024 * 1024

structure Manifest where
  version : Nat
  head : String
  base : String
  digest : String
  bytes : Nat
  chunkBytes : Nat
  chunks : Nat
  deriving DecidableEq

/-- What is stored under the kind of a head: the text of a manifest or, in the earlier format, the
base64 of the objects. -/
inductive RetainedContent where
  | manifest (m : Manifest)
  | base64 (objects : Octets)
  deriving DecidableEq

/-- An artifact of the kind `replay-objects-<head>` or `replay-v1-<digest>-<i>`. -/
inductive ReplayArtifact where
  | objects (head : String) (content : RetainedContent)
  | chunk (digest : String) (i : Nat) (content : Octets)

def objectsOf (head : String) : ReplayArtifact → Option RetainedContent
  | .objects other content => if other = head then some content else none
  | .chunk _ _ _ => none

def chunkOf (digest : String) (i : Nat) : ReplayArtifact → Option Octets
  | .objects _ _ => none
  | .chunk other j content => if other = digest ∧ j = i then some content else none

/-- `store.getArtifact` with the kind of a head: the latest revision. -/
def getObjects (artifacts : List ReplayArtifact) (head : String) : Option RetainedContent :=
  (artifacts.filterMap (objectsOf head)).getLast?

/-- `store.getArtifact` with the kind of a chunk. -/
def getChunk (artifacts : List ReplayArtifact) (digest : String) (i : Nat) : Option Octets :=
  (artifacts.filterMap (chunkOf digest i)).getLast?

inductive ReplayError where
  | invalidIdentity
  | invalidManifest
  | identityMismatch
  | missingChunk
  | digestMismatch
  | commandFailed
  deriving DecidableEq

def isHex (text : String) : Bool :=
  text.toList.all fun c => ('a' ≤ c ∧ c ≤ 'f') ∨ ('0' ≤ c ∧ c ≤ '9')

/-- `shaPattern`. -/
def isSha (text : String) : Bool := isHex text && (text.length == 40 || text.length == 64)

def isDigest (text : String) : Bool := isHex text && text.length == 64

def Manifest.valid (m : Manifest) : Bool :=
  m.version == 1 && isSha m.head && isSha m.base && isDigest m.digest &&
    decide (m.bytes ≤ MAX_SAFE_INTEGER) && decide (0 < m.bytes) &&
      m.chunkBytes == REPLAY_CHUNK_BYTES && m.chunks == sliceCount REPLAY_CHUNK_BYTES m.bytes

def parse : RetainedContent → Except ReplayError RetainedContent
  | .base64 objects => .ok (.base64 objects)
  | .manifest m => if m.valid = true then .ok (.manifest m) else .error .invalidManifest

def validateIdentity (head : String) (base : Option String) :
    RetainedContent → Except ReplayError Unit
  | .base64 _ => .ok ()
  | .manifest m =>
    if m.head ≠ head ∨ (base ≠ none ∧ base ≠ some m.base) then .error .identityMismatch else .ok ()

/-- Whether a stored manifest completes an attempt, else the attempt throws. -/
def completes (head base : String) (content : RetainedContent) : Bool :=
  match parse content with
  | .error _ => false
  | .ok content => (validateIdentity head (some base) content).isOk

/-! ## 3. An attempt -/

/-- What an attempt does next. -/
inductive RetainStage where
  /-- It reads whether the head is retained. -/
  | reading
  /-- It makes the pack. -/
  | packing
  /-- It reads a chunk, or after the last one the manifest. -/
  | comparing (pack : Octets) (i : Nat)
  /-- The chunk is missing, and it deposits it. -/
  | depositing (pack : Octets) (i : Nat)
  /-- The manifest is missing, and it deposits it. -/
  | completing (pack : Octets)
  | returned
  /-- It threw, or its process died. -/
  | stopped
  deriving DecidableEq

section Attempts

variable (sha256 : Octets → String)

def manifestOf (head base : String) (pack : Octets) : Manifest where
  version := 1
  head := head
  base := base
  digest := sha256 pack
  bytes := pack.length
  chunkBytes := REPLAY_CHUNK_BYTES
  chunks := sliceCount REPLAY_CHUNK_BYTES pack.length

/-- An attempt from one await to the next, with what it deposits.  `made` is the pack that
`git pack-objects` writes, if that is what it awaits. -/
def retainStep (head base : String) (made : Octets) (artifacts : List ReplayArtifact) :
    RetainStage → RetainStage × Option ReplayArtifact
  | .reading =>
    if isSha head = true ∧ isSha base = true then
      match getObjects artifacts head with
      | some content => (if completes head base content = true then .returned else .stopped, none)
      | none => (.packing, none)
    else (.stopped, none)
  | .packing =>
    match parse (.manifest (manifestOf sha256 head base made)) with
    | .error _ => (.stopped, none)
    | .ok _ => (.comparing made 0, none)
  | .comparing pack i =>
    if i < (manifestOf sha256 head base pack).chunks then
      match getChunk artifacts (sha256 pack) i with
      | some content =>
        (if content = slice REPLAY_CHUNK_BYTES i pack then .comparing pack (i + 1) else .stopped,
          none)
      | none => (.depositing pack i, none)
    else
      match getObjects artifacts head with
      | some content => (if completes head base content = true then .returned else .stopped, none)
      | none => (.completing pack, none)
  | .depositing pack i =>
    (.comparing pack (i + 1), some (.chunk (sha256 pack) i (slice REPLAY_CHUNK_BYTES i pack)))
  | .completing pack =>
    (.returned, some (.objects head (.manifest (manifestOf sha256 head base pack))))
  | .returned => (.returned, none)
  | .stopped => (.stopped, none)

/-- The store and the attempts, with the packs that were made. -/
structure ReplayState where
  artifacts : List ReplayArtifact
  attempts : Nat → RetainStage
  packs : List (Nat × Octets)

inductive ReplayAct where
  | go (attempt : Nat) (made : Octets)
  | stop (attempt : Nat)

variable (head base : Nat → String)

def replayStep (state : ReplayState) : ReplayAct → ReplayState
  | .go n made =>
    let next := retainStep sha256 (head n) (base n) made state.artifacts (state.attempts n)
    { artifacts := state.artifacts ++ next.2.toList
      attempts := Function.update state.attempts n next.1
      packs := if state.attempts n = .packing then state.packs ++ [(n, made)] else state.packs }
  | .stop n =>
    if state.attempts n = .returned then state
    else { state with attempts := Function.update state.attempts n .stopped }

def ReplayState.initial : ReplayState := ⟨[], fun _ => .reading, []⟩

/-- The state after the first `t` steps. -/
def replayAt (acts : List ReplayAct) (t : Nat) : ReplayState :=
  (acts.take t).foldl (replayStep sha256 head base) .initial

end Attempts

/-! ## 4. Restoring -/

def STAGE_BYTES : Nat := 12288

/-- The pieces are appended one after the other. -/
def stage (file bytes : Octets) : Octets :=
  (List.range (sliceCount STAGE_BYTES bytes.length)).foldl
    (fun file i => file ++ slice STAGE_BYTES i bytes) file

inductive RestoreOutcome where
  /-- The repository has the head. -/
  | present
  | nothing
  | threw (error : ReplayError)
  /-- Git is run on a file with these bytes. -/
  | handed (file : Octets)

section Restore

variable (sha256 : Octets → String) (failsAt : Option Nat) (read : Nat → List ReplayArtifact)

/-- The loop over the chunks from `i` on, of which `left` are left: what was hashed and what was
staged.  The read of chunk `i` is the one after the first `i + 1`, and `failsAt` says which of the
commands fails, if one does. -/
def restoreChunks (m : Manifest) (i : Nat) :
    Nat → Octets → Octets → Except ReplayError (Octets × Octets)
  | 0, hashed, file => .ok (hashed, file)
  | left + 1, hashed, file =>
    match getChunk (read (i + 1)) m.digest i with
    | none => .error .missingChunk
    | some content =>
      if content.length ≠ min m.chunkBytes (m.bytes - i * m.chunkBytes) then .error .missingChunk
      else if failsAt = some (i + 1) then .error .commandFailed
      else restoreChunks m (i + 1) left (hashed ++ content) (stage file content)

def restoreReplay (present : Bool) (head : String) : RestoreOutcome :=
  if isSha head = false then .threw .invalidIdentity
  else if present = true then .present
  else
    match getObjects (read 0) head with
    | none => .nothing
    | some stored =>
      match parse stored with
      | .error error => .threw error
      | .ok content =>
        match validateIdentity head none content with
        | .error error => .threw error
        | .ok () =>
          if failsAt = some 0 then .threw .commandFailed
          else
            match content with
            | .base64 objects =>
              if failsAt = some 1 then .threw .commandFailed else .handed (stage [] objects)
            | .manifest m =>
              match restoreChunks failsAt read m 0 m.chunks [] [] with
              | .error error => .threw error
              | .ok (hashed, file) =>
                if sha256 hashed ≠ m.digest then .threw .digestMismatch else .handed file

end Restore

/-! ## 5. What artifacts and attempts promise -/

section Invariant

theorem mem_of_getObjects {artifacts : List ReplayArtifact} {head : String}
    {content : RetainedContent} (h : getObjects artifacts head = some content) :
    .objects head content ∈ artifacts := by
  obtain ⟨artifact, hartifact, hcontent⟩ := List.mem_filterMap.mp (List.mem_of_getLast? h)
  cases artifact with
  | objects other stored =>
    simp only [objectsOf, Option.ite_none_right_eq_some, Option.some.injEq] at hcontent
    obtain ⟨rfl, rfl⟩ := hcontent
    exact hartifact
  | chunk _ _ _ => cases hcontent

theorem mem_of_getChunk {artifacts : List ReplayArtifact} {digest : String} {i : Nat}
    {content : Octets} (h : getChunk artifacts digest i = some content) :
    .chunk digest i content ∈ artifacts := by
  obtain ⟨artifact, hartifact, hcontent⟩ := List.mem_filterMap.mp (List.mem_of_getLast? h)
  cases artifact with
  | objects _ _ => cases hcontent
  | chunk other j stored =>
    simp only [chunkOf, Option.ite_none_right_eq_some, Option.some.injEq] at hcontent
    obtain ⟨⟨rfl, rfl⟩, rfl⟩ := hcontent
    exact hartifact

theorem exists_getObjects {artifacts : List ReplayArtifact} {head : String}
    {content : RetainedContent} (h : .objects head content ∈ artifacts) :
    ∃ stored, getObjects artifacts head = some stored := by
  refine Option.isSome_iff_exists.mp (List.getLast?_isSome.mpr ?_)
  exact List.ne_nil_of_mem (List.mem_filterMap.mpr ⟨_, h, if_pos rfl⟩)

theorem exists_getChunk {artifacts : List ReplayArtifact} {digest : String} {i : Nat}
    {content : Octets} (h : .chunk digest i content ∈ artifacts) :
    ∃ stored, getChunk artifacts digest i = some stored := by
  refine Option.isSome_iff_exists.mp (List.getLast?_isSome.mpr ?_)
  exact List.ne_nil_of_mem (List.mem_filterMap.mpr ⟨_, h, if_pos ⟨rfl, rfl⟩⟩)

variable (sha256 : Octets → String) (head base : Nat → String)

/-- The first `count` chunks of a pack are stored under its digest. -/
def HasChunks (artifacts : List ReplayArtifact) (pack : Octets) (count : Nat) : Prop :=
  ∀ i < count, ∃ content, .chunk (sha256 pack) i content ∈ artifacts

/-- Attempt `n` made the pack, and its manifest is valid. -/
def Made (packs : List (Nat × Octets)) (n : Nat) (pack : Octets) : Prop :=
  (n, pack) ∈ packs ∧ (manifestOf sha256 (head n) (base n) pack).valid = true

def ArtifactOk (artifacts : List ReplayArtifact) (packs : List (Nat × Octets)) :
    ReplayArtifact → Prop
  | .objects stored content =>
    ∃ n pack, head n = stored ∧ Made sha256 head base packs n pack ∧
      content = .manifest (manifestOf sha256 (head n) (base n) pack) ∧
        HasChunks sha256 artifacts pack (sliceCount REPLAY_CHUNK_BYTES pack.length)
  | .chunk digest i content =>
    ∃ n pack, (n, pack) ∈ packs ∧ sha256 pack = digest ∧
      content = slice REPLAY_CHUNK_BYTES i pack

def StageOk (artifacts : List ReplayArtifact) (packs : List (Nat × Octets)) (n : Nat) :
    RetainStage → Prop
  | .comparing pack i | .depositing pack i =>
    Made sha256 head base packs n pack ∧ HasChunks sha256 artifacts pack i
  | .completing pack =>
    Made sha256 head base packs n pack ∧
      HasChunks sha256 artifacts pack (sliceCount REPLAY_CHUNK_BYTES pack.length)
  | .returned => ∃ content, .objects (head n) content ∈ artifacts
  | .reading | .packing | .stopped => True

structure Retained (state : ReplayState) : Prop where
  artifacts : ∀ artifact ∈ state.artifacts,
    ArtifactOk sha256 head base state.artifacts state.packs artifact
  attempts : ∀ n, StageOk sha256 head base state.artifacts state.packs n (state.attempts n)

variable {sha256 head base}

theorem HasChunks.mono {artifacts artifacts' : List ReplayArtifact} {pack : Octets} {count : Nat}
    (h : HasChunks sha256 artifacts pack count) (hgrows : artifacts ⊆ artifacts') :
    HasChunks sha256 artifacts' pack count := by
  intro i hi
  obtain ⟨content, hcontent⟩ := h i hi
  exact ⟨content, hgrows hcontent⟩

theorem Made.mono {packs packs' : List (Nat × Octets)} {n : Nat} {pack : Octets}
    (h : Made sha256 head base packs n pack) (hgrows : packs ⊆ packs') :
    Made sha256 head base packs' n pack :=
  ⟨hgrows h.1, h.2⟩

theorem ArtifactOk.mono {artifacts artifacts' : List ReplayArtifact}
    {packs packs' : List (Nat × Octets)} {artifact : ReplayArtifact}
    (h : ArtifactOk sha256 head base artifacts packs artifact) (hartifacts : artifacts ⊆ artifacts')
    (hpacks : packs ⊆ packs') : ArtifactOk sha256 head base artifacts' packs' artifact := by
  cases artifact with
  | objects stored content =>
    obtain ⟨n, pack, hhead, hmade, hcontent, hchunks⟩ := h
    exact ⟨n, pack, hhead, hmade.mono hpacks, hcontent, hchunks.mono hartifacts⟩
  | chunk digest i content =>
    obtain ⟨n, pack, hpack, hdigest, hcontent⟩ := h
    exact ⟨n, pack, hpacks hpack, hdigest, hcontent⟩

theorem StageOk.mono {artifacts artifacts' : List ReplayArtifact}
    {packs packs' : List (Nat × Octets)} {n : Nat} {stage : RetainStage}
    (h : StageOk sha256 head base artifacts packs n stage) (hartifacts : artifacts ⊆ artifacts')
    (hpacks : packs ⊆ packs') : StageOk sha256 head base artifacts' packs' n stage := by
  cases stage with
  | comparing pack i => exact ⟨h.1.mono hpacks, h.2.mono hartifacts⟩
  | depositing pack i => exact ⟨h.1.mono hpacks, h.2.mono hartifacts⟩
  | completing pack => exact ⟨h.1.mono hpacks, h.2.mono hartifacts⟩
  | returned =>
    obtain ⟨content, hcontent⟩ := h
    exact ⟨content, hartifacts hcontent⟩
  | reading => trivial
  | packing => trivial
  | stopped => trivial

theorem parse_ok_iff {m : Manifest} {content : RetainedContent} :
    parse (.manifest m) = .ok content ↔ m.valid = true ∧ content = .manifest m := by
  rw [parse]
  split
  next hvalid => simp [hvalid, eq_comm]
  next hvalid => simp [hvalid]

theorem HasChunks.succ {artifacts : List ReplayArtifact} {pack : Octets} {i : Nat}
    (h : HasChunks sha256 artifacts pack i)
    (hi : ∃ content, .chunk (sha256 pack) i content ∈ artifacts) :
    HasChunks sha256 artifacts pack (i + 1) := by
  intro j hj
  rcases Nat.lt_succ_iff_lt_or_eq.mp hj with hj | rfl
  · exact h j hj
  · exact hi

/-- What an attempt comes to after a step, and what it deposits, keep their promises. -/
theorem retainStep_ok {state : ReplayState} (h : Retained sha256 head base state) (n : Nat)
    (made : Octets) {stage : RetainStage} {deposit : Option ReplayArtifact}
    {packs : List (Nat × Octets)}
    (hstep : retainStep sha256 (head n) (base n) made state.artifacts (state.attempts n) =
      (stage, deposit))
    (hpacks : packs =
      if state.attempts n = .packing then state.packs ++ [(n, made)] else state.packs) :
    StageOk sha256 head base (state.artifacts ++ deposit.toList) packs n stage ∧
      ∀ artifact ∈ deposit, ArtifactOk sha256 head base state.artifacts packs artifact := by
  have hstage := h.attempts n
  -- A manifest that is already stored ends the attempt one way or the other.
  have hended : ∀ content, getObjects state.artifacts (head n) = some content →
      ((if completes (head n) (base n) content = true then RetainStage.returned else .stopped,
        (none : Option ReplayArtifact)) = (stage, deposit)) →
      StageOk sha256 head base (state.artifacts ++ deposit.toList) packs n stage ∧
        ∀ artifact ∈ deposit, ArtifactOk sha256 head base state.artifacts packs artifact := by
    intro content hcontent hresult
    obtain ⟨rfl, rfl⟩ := Prod.mk.inj hresult
    refine ⟨?_, fun _ hdeposit => nomatch hdeposit⟩
    split
    · exact ⟨content, List.mem_append_left _ (mem_of_getObjects hcontent)⟩
    · trivial
  cases hcurrent : state.attempts n with
  | reading =>
    rw [hcurrent] at hstep
    simp only [retainStep] at hstep
    split at hstep
    · split at hstep
      next content hcontent => exact hended content hcontent hstep
      next =>
        obtain ⟨rfl, rfl⟩ := Prod.mk.inj hstep
        exact ⟨trivial, fun _ hdeposit => nomatch hdeposit⟩
    · obtain ⟨rfl, rfl⟩ := Prod.mk.inj hstep
      exact ⟨trivial, fun _ hdeposit => nomatch hdeposit⟩
  | packing =>
    rw [hcurrent] at hstep
    rw [if_pos hcurrent] at hpacks
    simp only [retainStep] at hstep
    split at hstep
    next =>
      obtain ⟨rfl, rfl⟩ := Prod.mk.inj hstep
      exact ⟨trivial, fun _ hdeposit => nomatch hdeposit⟩
    next content hparse =>
      obtain ⟨rfl, rfl⟩ := Prod.mk.inj hstep
      subst hpacks
      exact ⟨⟨⟨by simp, (parse_ok_iff.mp hparse).1⟩, fun i hi => absurd hi (Nat.not_lt_zero i)⟩,
        fun _ hdeposit => nomatch hdeposit⟩
  | comparing pack i =>
    rw [hcurrent] at hstep hstage
    rw [if_neg (by simp [hcurrent])] at hpacks
    subst hpacks
    obtain ⟨hmade, hchunks⟩ := hstage
    simp only [retainStep] at hstep
    split at hstep
    · split at hstep
      next content hcontent =>
        obtain ⟨rfl, rfl⟩ := Prod.mk.inj hstep
        refine ⟨?_, fun _ hdeposit => nomatch hdeposit⟩
        rw [Option.toList_none, List.append_nil]
        split
        · exact ⟨hmade, hchunks.succ ⟨content, mem_of_getChunk hcontent⟩⟩
        · trivial
      next =>
        obtain ⟨rfl, rfl⟩ := Prod.mk.inj hstep
        rw [Option.toList_none, List.append_nil]
        exact ⟨⟨hmade, hchunks⟩, fun _ hdeposit => nomatch hdeposit⟩
    · next hlast =>
      split at hstep
      next content hcontent => exact hended content hcontent hstep
      next =>
        obtain ⟨rfl, rfl⟩ := Prod.mk.inj hstep
        rw [Option.toList_none, List.append_nil]
        refine ⟨⟨hmade, fun j hj => hchunks j ?_⟩, fun _ hdeposit => nomatch hdeposit⟩
        exact hj.trans_le (not_lt.mp hlast)
  | depositing pack i =>
    rw [hcurrent] at hstep hstage
    rw [if_neg (by simp [hcurrent])] at hpacks
    subst hpacks
    obtain ⟨hmade, hchunks⟩ := hstage
    obtain ⟨rfl, rfl⟩ := Prod.mk.inj hstep
    refine ⟨⟨hmade, (hchunks.mono (List.subset_append_left _ _)).succ
      ⟨_, List.mem_append_right _ List.mem_cons_self⟩⟩, ?_⟩
    rintro artifact ⟨⟩
    exact ⟨n, pack, hmade.1, rfl, rfl⟩
  | completing pack =>
    rw [hcurrent] at hstep hstage
    rw [if_neg (by simp [hcurrent])] at hpacks
    subst hpacks
    obtain ⟨hmade, hchunks⟩ := hstage
    obtain ⟨rfl, rfl⟩ := Prod.mk.inj hstep
    refine ⟨⟨_, List.mem_append_right _ List.mem_cons_self⟩, ?_⟩
    rintro artifact ⟨⟩
    exact ⟨n, pack, rfl, hmade, rfl, hchunks⟩
  | returned =>
    rw [hcurrent] at hstep hstage
    rw [if_neg (by simp [hcurrent])] at hpacks
    subst hpacks
    obtain ⟨rfl, rfl⟩ := Prod.mk.inj hstep
    rw [Option.toList_none, List.append_nil]
    exact ⟨hstage, fun _ hdeposit => nomatch hdeposit⟩
  | stopped =>
    rw [hcurrent] at hstep
    obtain ⟨rfl, rfl⟩ := Prod.mk.inj hstep
    exact ⟨trivial, fun _ hdeposit => nomatch hdeposit⟩

theorem Retained.step {state : ReplayState} (h : Retained sha256 head base state)
    (act : ReplayAct) : Retained sha256 head base (replayStep sha256 head base state act) := by
  cases act with
  | go n made =>
    rcases hnext : retainStep sha256 (head n) (base n) made state.artifacts (state.attempts n)
      with ⟨stage, deposit⟩
    obtain ⟨hstage, hdeposit⟩ := retainStep_ok h n made hnext rfl
    have hartifacts : state.artifacts ⊆ state.artifacts ++ deposit.toList :=
      List.subset_append_left _ _
    have hpacks : state.packs ⊆
        if state.attempts n = .packing then state.packs ++ [(n, made)] else state.packs := by
      split
      · exact List.subset_append_left _ _
      · exact List.Subset.refl _
    simp only [replayStep, hnext]
    constructor
    · intro artifact hartifact
      rcases List.mem_append.mp hartifact with hold | hnew
      · exact (h.artifacts artifact hold).mono hartifacts hpacks
      · exact (hdeposit artifact (Option.mem_toList.mp hnew)).mono hartifacts
          (List.Subset.refl _)
    · intro m
      by_cases hm : m = n
      · subst hm
        simpa using hstage
      · simpa [Function.update_of_ne hm] using (h.attempts m).mono hartifacts hpacks
  | stop n =>
    rw [replayStep]
    split
    · exact h
    · refine ⟨h.artifacts, fun m => ?_⟩
      by_cases hm : m = n
      · subst hm
        simp [StageOk]
      · simpa [Function.update_of_ne hm] using h.attempts m

theorem retained_initial : Retained sha256 head base .initial :=
  ⟨fun _ hartifact => absurd hartifact List.not_mem_nil, fun _ => trivial⟩

theorem retained_replayAt (acts : List ReplayAct) (t : Nat) :
    Retained sha256 head base (replayAt sha256 head base acts t) := by
  have hrun : ∀ (steps : List ReplayAct) (state : ReplayState), Retained sha256 head base state →
      Retained sha256 head base (steps.foldl (replayStep sha256 head base) state) := by
    intro steps
    induction steps with
    | nil => exact fun _ h => h
    | cons act steps ih => exact fun state h => ih _ (h.step act)
  exact hrun _ _ retained_initial

end Invariant

/-! ## 6. What a restore hands to git -/

section Handed

theorem stage_eq (file bytes : Octets) : stage file bytes = file ++ bytes := by
  have hpieces : ∀ n, (List.range n).foldl (fun file i => file ++ slice STAGE_BYTES i bytes) file =
      file ++ bytes.take (n * STAGE_BYTES) := by
    intro n
    induction n with
    | zero => simp
    | succ n ih =>
      rw [List.range_succ, List.foldl_append, ih, List.foldl_cons, List.foldl_nil,
        List.append_assoc, take_append_slice]
  rw [stage, hpieces, take_sliceCount (by decide)]

variable {sha256 : Octets → String} {head base : Nat → String}

theorem replayStep_artifacts (state : ReplayState) (act : ReplayAct) :
    state.artifacts ⊆ (replayStep sha256 head base state act).artifacts := by
  cases act with
  | go n made => exact List.subset_append_left _ _
  | stop n =>
    rw [replayStep]
    split <;> exact List.Subset.refl _

theorem replayStep_packs (state : ReplayState) (act : ReplayAct) :
    state.packs ⊆ (replayStep sha256 head base state act).packs := by
  cases act with
  | go n made =>
    simp only [replayStep]
    split
    · exact List.subset_append_left _ _
    · exact List.Subset.refl _
  | stop n =>
    rw [replayStep]
    split <;> exact List.Subset.refl _

/-- Artifacts and packs are kept. -/
theorem replayAt_grows (acts : List ReplayAct) {t u : Nat} (htu : t ≤ u) :
    (replayAt sha256 head base acts t).artifacts ⊆ (replayAt sha256 head base acts u).artifacts ∧
      (replayAt sha256 head base acts t).packs ⊆ (replayAt sha256 head base acts u).packs := by
  have hrun : ∀ (steps : List ReplayAct) (state : ReplayState),
      state.artifacts ⊆ (steps.foldl (replayStep sha256 head base) state).artifacts ∧
        state.packs ⊆ (steps.foldl (replayStep sha256 head base) state).packs := by
    intro steps
    induction steps with
    | nil => exact fun _ => ⟨List.Subset.refl _, List.Subset.refl _⟩
    | cons act steps ih =>
      intro state
      obtain ⟨hartifacts, hpacks⟩ := ih (replayStep sha256 head base state act)
      exact ⟨List.Subset.trans (replayStep_artifacts state act) hartifacts,
        List.Subset.trans (replayStep_packs state act) hpacks⟩
  have hsplit : acts.take u = acts.take t ++ (acts.drop t).take (u - t) := by
    rw [← List.take_add, Nat.add_sub_cancel' htu]
  rw [replayAt, replayAt, hsplit, List.foldl_append]
  exact hrun _ _

/-- No two packs of a run have one digest. -/
def NoCollision (sha256 : Octets → String) (packs : List (Nat × Octets)) : Prop :=
  ∀ p ∈ packs, ∀ q ∈ packs, sha256 p.2 = sha256 q.2 → p.2 = q.2

/-- A chunk under the digest of a pack is a slice of it. -/
theorem getChunk_eq_slice {state : ReplayState} (h : Retained sha256 head base state)
    (hcollision : NoCollision sha256 state.packs) {n : Nat} {pack : Octets}
    (hpack : (n, pack) ∈ state.packs) {count : Nat}
    (hchunks : HasChunks sha256 state.artifacts pack count) {i : Nat} (hi : i < count) :
    getChunk state.artifacts (sha256 pack) i = some (slice REPLAY_CHUNK_BYTES i pack) := by
  obtain ⟨content, hcontent⟩ := hchunks i hi
  obtain ⟨stored, hstored⟩ := exists_getChunk hcontent
  obtain ⟨m, other, hother, hdigest, rfl⟩ := h.artifacts _ (mem_of_getChunk hstored)
  have hsame : other = pack := hcollision (m, other) hother (n, pack) hpack hdigest
  rw [hstored, hsame]

/-- The loop, where every read finds its slice. -/
theorem restoreChunks_eq {failsAt : Option Nat} {read : Nat → List ReplayArtifact} {m : Manifest}
    {pack : Octets} (hbytes : m.bytes = pack.length) (hsize : m.chunkBytes = REPLAY_CHUNK_BYTES)
    (hread : ∀ i < m.chunks,
      getChunk (read (i + 1)) m.digest i = some (slice REPLAY_CHUNK_BYTES i pack)) :
    ∀ left i, i + left = m.chunks →
      restoreChunks failsAt read m i left (pack.take (i * REPLAY_CHUNK_BYTES))
          (pack.take (i * REPLAY_CHUNK_BYTES)) =
        .ok (pack.take (m.chunks * REPLAY_CHUNK_BYTES),
          pack.take (m.chunks * REPLAY_CHUNK_BYTES)) ∨
      failsAt ≠ none ∧
        restoreChunks failsAt read m i left (pack.take (i * REPLAY_CHUNK_BYTES))
          (pack.take (i * REPLAY_CHUNK_BYTES)) = .error .commandFailed := by
  intro left
  induction left with
  | zero =>
    intro i hi
    rw [← hi, Nat.add_zero]
    exact .inl rfl
  | succ left ih =>
    intro i hi
    have hlength : ¬(slice REPLAY_CHUNK_BYTES i pack).length ≠
        min m.chunkBytes (m.bytes - i * m.chunkBytes) := by
      rw [length_slice, hbytes, hsize]
      exact not_not.mpr rfl
    rw [restoreChunks, hread i (by omega)]
    simp only [if_neg hlength]
    split
    next hfails =>
      refine .inr ⟨?_, rfl⟩
      rw [hfails]
      exact Option.some_ne_none _
    next =>
      rw [stage_eq, take_append_slice]
      exact ih (i + 1) (by omega)

theorem Manifest.of_valid {m : Manifest} (h : m.valid = true) :
    isSha m.head = true ∧ m.chunkBytes = REPLAY_CHUNK_BYTES ∧
      m.chunks = sliceCount REPLAY_CHUNK_BYTES m.bytes := by
  simp only [Manifest.valid, Bool.and_eq_true, beq_iff_eq] at h
  obtain ⟨⟨⟨⟨⟨⟨⟨-, hhead⟩, -⟩, -⟩, -⟩, -⟩, hsize⟩, hcount⟩ := h
  exact ⟨hhead, hsize, hcount⟩

/-- A restore whose reads find a valid manifest and every chunk of the pack it is of. -/
theorem restoreReplay_of_manifest {failsAt : Option Nat} {read : Nat → List ReplayArtifact}
    {m : Manifest} {pack : Octets} (hvalid : m.valid = true) (hbytes : m.bytes = pack.length)
    (hdigest : m.digest = sha256 pack)
    (hstored : getObjects (read 0) m.head = some (.manifest m))
    (hread : ∀ i < m.chunks,
      getChunk (read (i + 1)) m.digest i = some (slice REPLAY_CHUNK_BYTES i pack)) :
    restoreReplay sha256 failsAt read false m.head = .handed pack ∨
      failsAt ≠ none ∧
        restoreReplay sha256 failsAt read false m.head = .threw .commandFailed := by
  obtain ⟨hhead, hsize, hcount⟩ := Manifest.of_valid hvalid
  have hidentity : validateIdentity m.head none (.manifest m) = .ok () := by
    simp [validateIdentity]
  have hwhole : pack.take (m.chunks * REPLAY_CHUNK_BYTES) = pack := by
    rw [hcount, hbytes]
    exact take_sliceCount (by decide) pack
  have hloop := @restoreChunks_eq failsAt read m pack hbytes hsize hread m.chunks 0
    (Nat.zero_add _)
  rw [Nat.zero_mul, List.take_zero, hwhole] at hloop
  rw [restoreReplay, if_neg (by simp [hhead]), if_neg Bool.false_ne_true, hstored]
  simp only [parse, if_pos hvalid, hidentity]
  split
  next hfails => exact .inr ⟨by simp [hfails], rfl⟩
  next =>
    rcases hloop with hloop | ⟨hfails, hloop⟩
    · refine .inl ?_
      simp only [hloop]
      rw [if_neg (not_not.mpr hdigest.symm)]
    · refine .inr ⟨hfails, ?_⟩
      simp only [hloop]

/-- What a restore comes to when its reads see the artifacts of a run at later and later times. -/
theorem restoreReplay_of_stored {failsAt : Option Nat} {acts : List ReplayAct}
    {reads : Nat → Nat} (hreads : Monotone reads)
    (hcollision : ∀ t, NoCollision sha256 (replayAt sha256 head base acts t).packs)
    {restored : String} {content : RetainedContent}
    (hstored : getObjects (replayAt sha256 head base acts (reads 0)).artifacts restored =
      some content) :
    ∃ n pack, (n, pack) ∈ (replayAt sha256 head base acts (reads 0)).packs ∧ head n = restored ∧
      (restoreReplay sha256 failsAt (fun k => (replayAt sha256 head base acts (reads k)).artifacts)
          false restored = .handed pack ∨
        failsAt ≠ none ∧
          restoreReplay sha256 failsAt
            (fun k => (replayAt sha256 head base acts (reads k)).artifacts) false restored =
              .threw .commandFailed) := by
  have hrun := @retained_replayAt sha256 head base acts
  obtain ⟨n, pack, hhead, hmade, hcontent, hchunks⟩ :=
    (hrun (reads 0)).artifacts _ (mem_of_getObjects hstored)
  have hread : ∀ i < sliceCount REPLAY_CHUNK_BYTES pack.length,
      getChunk (replayAt sha256 head base acts (reads (i + 1))).artifacts (sha256 pack) i =
        some (slice REPLAY_CHUNK_BYTES i pack) := by
    intro i hi
    obtain ⟨hartifacts, hpacks⟩ := @replayAt_grows sha256 head base acts _ _
      (hreads (Nat.zero_le (i + 1)))
    exact getChunk_eq_slice (hrun _) (hcollision _) (hpacks hmade.1) (hchunks.mono hartifacts) hi
  refine ⟨n, pack, hmade.1, hhead, ?_⟩
  subst hhead
  rw [hcontent] at hstored
  exact restoreReplay_of_manifest hmade.2 rfl rfl hstored hread

/-- A restore reports that nothing is stored, throws, or hands git the pack of an attempt for its
head; and the last if an attempt had returned before its first read and no command of it fails. -/
theorem replay_retention_atomic (sha256 : Octets → String) (head base : Nat → String)
    (acts : List ReplayAct) (restored : String) (reads : Nat → Nat) (failsAt : Option Nat)
    (hreads : Monotone reads)
    (hcollision : ∀ t, NoCollision sha256 (replayAt sha256 head base acts t).packs) :
    let first := replayAt sha256 head base acts (reads 0)
    let outcome := restoreReplay sha256 failsAt
      (fun k => (replayAt sha256 head base acts (reads k)).artifacts) false restored
    let Hands := ∃ n pack, (n, pack) ∈ first.packs ∧ head n = restored ∧ outcome = .handed pack
    (outcome = .nothing ∨ (∃ error, outcome = .threw error) ∨ Hands) ∧
      (failsAt = none → (∃ n, head n = restored ∧ first.attempts n = .returned) → Hands) := by
  intro first outcome Hands
  constructor
  · cases hstored : getObjects first.artifacts restored with
    | none =>
      by_cases hhead : isSha restored = false
      · exact .inr (.inl ⟨_, if_pos hhead⟩)
      · refine .inl ?_
        simp only [outcome, restoreReplay, if_neg hhead, if_neg Bool.false_ne_true]
        rw [hstored]
    | some content =>
      obtain ⟨n, pack, hpack, hhead, hhanded | ⟨-, hthrew⟩⟩ :=
        @restoreReplay_of_stored sha256 head base failsAt acts reads hreads hcollision _ _ hstored
      · exact .inr (.inr ⟨n, pack, hpack, hhead, hhanded⟩)
      · exact .inr (.inl ⟨_, hthrew⟩)
  · rintro hnone ⟨n, rfl, hreturned⟩
    have hattempt := (@retained_replayAt sha256 head base acts (reads 0)).attempts n
    rw [hreturned] at hattempt
    obtain ⟨content, hcontent⟩ := hattempt
    obtain ⟨stored, hstored⟩ := exists_getObjects hcontent
    obtain ⟨m, pack, hpack, hhead, hhanded | ⟨hfails, -⟩⟩ :=
      @restoreReplay_of_stored sha256 head base failsAt acts reads hreads hcollision _ _ hstored
    · exact ⟨m, pack, hpack, hhead, hhanded⟩
    · exact absurd hnone hfails


/-- SHA-256 of the four bytes `PACK`, and of no byte for anything else. -/
def shaOfPack (bytes : Octets) : String :=
  if bytes = [80, 65, 67, 75] then
    "0a1f4adb6f560d2864be0441d942f0e08b283991b35f574673d715ed6769409d"
  else "e3b0c44298fc1c149afbf4c8996fb92427ae41e4649b934ca495991b7852b855"

/-- The first attempt dies between its chunk and its manifest, and the second completes it. -/
def resumedActs : List ReplayAct :=
  [.go 0 [], .go 0 [80, 65, 67, 75], .go 0 [], .go 0 [], .stop 0, .go 1 [],
    .go 1 [80, 65, 67, 75], .go 1 [], .go 1 [], .go 1 []]

def resumedHead (_ : Nat) : String := "0123456789abcdef0123456789abcdef01234567"

theorem replay_retention_of_resumed :
    ∃ n pack, (n, pack) ∈ (replayAt shaOfPack resumedHead resumedHead resumedActs 10).packs ∧
      resumedHead n = resumedHead 1 ∧
        restoreReplay shaOfPack none
          (fun k => (replayAt shaOfPack resumedHead resumedHead resumedActs (10 + k)).artifacts)
          false (resumedHead 1) = .handed pack := by
  have hpacks : ∀ t, ∀ p ∈ (replayAt shaOfPack resumedHead resumedHead resumedActs t).packs,
      p.2 = [80, 65, 67, 75] := by
    have hlast : (replayAt shaOfPack resumedHead resumedHead resumedActs 10).packs =
        [(0, [80, 65, 67, 75]), (1, [80, 65, 67, 75])] := by decide +kernel
    intro t p hp
    have hall : (replayAt shaOfPack resumedHead resumedHead resumedActs (t + 10)).packs =
        (replayAt shaOfPack resumedHead resumedHead resumedActs 10).packs := by
      have hlength : resumedActs.length = 10 := rfl
      rw [replayAt, replayAt, List.take_of_length_le (by omega), List.take_of_length_le (by omega)]
    have hgrows := (@replayAt_grows shaOfPack resumedHead resumedHead resumedActs _ _
      (Nat.le_add_right t 10)).2 hp
    rw [hall, hlast] at hgrows
    simp only [List.mem_cons, List.not_mem_nil, or_false] at hgrows
    rcases hgrows with rfl | rfl <;> rfl
  exact (replay_retention_atomic shaOfPack resumedHead resumedHead resumedActs (resumedHead 1)
    (10 + ·) none (fun _ _ h => Nat.add_le_add_left h 10)
    (fun t p hp q hq _ => (hpacks t p hp).trans (hpacks t q hq).symm)).2 rfl
    ⟨1, rfl, by decide +kernel⟩

end Handed

end Autobuild.ReplayRetention
