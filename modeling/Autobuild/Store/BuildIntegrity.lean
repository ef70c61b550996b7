/-
# The integrity of a build's log and revisions

* `LogKept` is the invariant of a build: seqs from 1 without gaps, revisions ascending, and the
  rewrite tables what the receipts of the log determine (`Determined`).
* A deposit of the next revision keeps it, and its prune never drops the newest revision
  (`pruneBuildKind_kept`), so the next revision only grows.
* `buildLog_integrity` is about every run of calls that await and interleave.  A store made with
  no room for a revision throws after its deposit (`not_buildLog_integrity`).
-/
import Autobuild.Store.BuildLog
import Autobuild.Lib.Checked

namespace Autobuild

open ObjectMap Checked

/-! ## 1. Revisions -/

/-- The revision the next deposit of a kind takes. -/
def MemoryBuild.next (state : MemoryBuild) (kind : String) : Nat :=
  nextRevision (state.revisions kind)

def Ascending (revs : List ArtifactMeta) : Prop :=
  (revs.map (·.revision)).Pairwise (· < ·)

/-- The invariant of a build. -/
structure LogKept (state : MemoryBuild) : Prop where
  seqs : state.events.map (·.seq) = List.range' 1 state.events.length
  ascending : ∀ kind revs, state.revisions kind = some revs → Ascending revs
  index : Determined (rewritesOf state.events) state.index

/-- Deposits touch neither the log nor its index. -/
structure SameLog (before after : MemoryBuild) : Prop where
  events : after.events = before.events
  index : after.index = before.index

theorem lt_nextRevision {revs : List ArtifactMeta} (h : Ascending revs) {artifact : ArtifactMeta}
    (ha : artifact ∈ revs) : artifact.revision < nextRevision (some revs) := by
  obtain ⟨front, last, rfl⟩ : ∃ front last, revs = front ++ [last] := by
    rcases List.eq_nil_or_concat revs with rfl | ⟨front, last, rfl⟩
    · exact absurd ha List.not_mem_nil
    · exact ⟨front, last, List.concat_eq_append⟩
  have hnext : nextRevision (some (front ++ [last])) = last.revision + 1 := by
    unfold nextRevision
    rw [Option.bind_some, List.getLast?_concat]
    rfl
  rw [hnext]
  unfold Ascending at h
  rw [List.map_append, List.pairwise_append] at h
  rcases List.mem_append.mp ha with ha | ha
  · have hlt := h.2.2 artifact.revision (List.mem_map_of_mem ha) last.revision
      (List.mem_map_of_mem List.mem_cons_self)
    omega
  · rw [List.mem_singleton.mp ha]
    omega

theorem nextRevision_snoc (revs : List ArtifactMeta) (artifact : ArtifactMeta) :
    nextRevision (some (revs ++ [artifact])) = artifact.revision + 1 := by
  unfold nextRevision
  rw [Option.bind_some, List.getLast?_concat]
  rfl

/-- The newest of ascending revisions is not pruned. -/
theorem newest_not_pruned {revisions pruned : List Nat} {newest : Nat} {maxRevisions : Int}
    (hlast : ∀ revision ∈ revisions, revision < newest)
    (h : revisionsToPrune (revisions ++ [newest]) maxRevisions = .ok pruned) :
    newest ∉ pruned := by
  unfold revisionsToPrune at h
  split_ifs at h with hmax
  rw [← Except.ok.inj h, List.mem_insertionSort]
  have hperm := List.perm_insertionSort (· ≥ ·) (revisions ++ [newest])
  have hsorted := List.pairwise_insertionSort (· ≥ ·) (revisions ++ [newest])
  generalize (revisions ++ [newest]).insertionSort (· ≥ ·) = sorted at hperm hsorted
  cases sorted with
  | nil =>
    rw [List.drop_nil]
    exact List.not_mem_nil
  | cons first rest =>
    intro hm
    have hrest : newest ∈ rest := by
      obtain ⟨count, hcount⟩ : ∃ count, maxRevisions.toNat = count + 1 :=
        ⟨maxRevisions.toNat - 1, by omega⟩
      rw [hcount, List.drop_succ_cons] at hm
      exact List.mem_of_mem_drop hm
    have hfirst : first = newest := by
      have hge : first ≥ newest := List.rel_of_pairwise_cons hsorted hrest
      rcases List.mem_append.mp (hperm.mem_iff.mp List.mem_cons_self) with hf | hf
      · have hlt := hlast first hf
        omega
      · exact List.mem_singleton.mp hf
    have hperm' : rest.Perm revisions := by
      rw [hfirst] at hperm
      exact (List.perm_cons newest).mp (hperm.trans (List.perm_append_singleton newest revisions))
    exact absurd (hlast newest (hperm'.mem_iff.mp hrest)) (lt_irrefl newest)

/-- Room for a revision, where the kind is pruned. -/
def RoomFor (maxRevisions : Int) (kind : String) : Prop :=
  isRetentionManagedKind kind = true → 1 ≤ maxRevisions

theorem revisions_keep (state : MemoryBuild) (kept : String) (revs : List ArtifactMeta)
    (kind : String) :
    (state.keep kept revs).revisions kind
      = if kind = kept then some revs else state.revisions kind := by
  show (state.artifacts.set ⟨kept⟩ revs).get? ⟨kind⟩ = _
  rw [get?_set]
  by_cases hk : kind = kept
  · rw [if_pos hk, if_pos (by rw [hk])]
  · rw [if_neg hk, if_neg fun he => hk (MapKey.mk.inj he)]
    rfl

/-- The kinds after a deposit of the next revision. -/
structure Deposited (before : MemoryBuild) (artifact : ArtifactMeta) (after : MemoryBuild) :
    Prop where
  log : SameLog before after
  ascending : ∀ kind revs, after.revisions kind = some revs → Ascending revs
  next : ∀ kind, after.next kind
    = if kind = artifact.kind then artifact.revision + 1 else before.next kind

/-- The deposit of the next revision, before its prune. -/
theorem LogKept.deposit {state : MemoryBuild}
    (h : ∀ kind revs, state.revisions kind = some revs → Ascending revs) {artifact : ArtifactMeta}
    (hnext : artifact.revision = state.next artifact.kind) :
    Deposited state artifact (state.deposit artifact) := by
  refine ⟨⟨rfl, rfl⟩, fun kind revs hr => ?_, fun kind => ?_⟩
  · unfold MemoryBuild.deposit at hr
    rw [revisions_keep] at hr
    split at hr
    · rw [← Option.some.inj hr]
      unfold Ascending
      rw [List.map_append, List.pairwise_append]
      cases hold : state.revisions artifact.kind with
      | none => exact ⟨List.Pairwise.nil, List.pairwise_singleton _ _, fun _ ha => absurd ha
          List.not_mem_nil⟩
      | some old =>
        refine ⟨h _ old hold, List.pairwise_singleton _ _, fun revision hm other ho => ?_⟩
        obtain ⟨member, hmem, rfl⟩ := List.mem_map.mp hm
        have ho : other = artifact.revision := List.mem_singleton.mp ho
        rw [ho, hnext]
        unfold MemoryBuild.next
        rw [hold]
        exact lt_nextRevision (h _ old hold) hmem
    · exact h kind revs hr
  · unfold MemoryBuild.next MemoryBuild.deposit
    rw [revisions_keep]
    split
    · rw [nextRevision_snoc]
    · rfl

/-- **A prune keeps the newest revision**, so the next one is as before it. -/
theorem pruneBuildKind_kept {maxRevisions : Int} {state : MemoryBuild}
    (h : ∀ kind revs, state.revisions kind = some revs → Ascending revs) {artifact : ArtifactMeta}
    (hnext : artifact.revision = state.next artifact.kind)
    (hroom : RoomFor maxRevisions artifact.kind) :
    ∃ pruned, pruneBuildKind maxRevisions (state.deposit artifact) artifact.kind = .ok pruned ∧
      Deposited state artifact pruned := by
  have hdeposit := LogKept.deposit h hnext
  have hrevs : (state.deposit artifact).revisions artifact.kind
      = some ((state.revisions artifact.kind).getD [] ++ [artifact]) := by
    unfold MemoryBuild.deposit
    rw [revisions_keep, if_pos rfl]
  unfold pruneBuildKind
  by_cases hmanaged : isRetentionManagedKind artifact.kind = true
  · have hmax := hroom hmanaged
    rw [hmanaged, hrevs]
    have hprune : ∃ pruned, revisionsToPrune
        (((state.revisions artifact.kind).getD [] ++ [artifact]).map (·.revision)) maxRevisions
          = .ok pruned := by
      unfold revisionsToPrune
      rw [if_neg (by omega)]
      exact ⟨_, rfl⟩
    obtain ⟨pruned, hpruned⟩ := hprune
    have hkept : artifact.revision ∉ pruned := by
      rw [List.map_append] at hpruned
      refine newest_not_pruned (fun revision hm => ?_) hpruned
      obtain ⟨member, hmem, rfl⟩ := List.mem_map.mp hm
      cases hold : state.revisions artifact.kind with
      | none =>
        rw [hold] at hmem
        exact absurd hmem List.not_mem_nil
      | some old =>
        rw [hold] at hmem
        rw [hnext]
        unfold MemoryBuild.next
        rw [hold]
        exact lt_nextRevision (h _ old hold) hmem
    by_cases hnil : pruned = []
    · refine ⟨state.deposit artifact, ?_, hdeposit⟩
      show (revisionsToPrune _ maxRevisions).map _ = _
      rw [hpruned, hnil]
      rfl
    · refine ⟨(state.deposit artifact).keep artifact.kind
        (((state.revisions artifact.kind).getD [] ++ [artifact]).filter
          fun artifact => artifact.revision ∉ pruned), ?_,
        ⟨rfl, rfl⟩, fun kind revs hr => ?_, fun kind => ?_⟩
      · show (revisionsToPrune _ maxRevisions).map _ = _
        rw [hpruned]
        exact congrArg Except.ok (if_neg hnil)
      · rw [revisions_keep] at hr
        split at hr
        · rw [← Option.some.inj hr]
          exact (hdeposit.ascending _ _ hrevs).sublist (List.filter_sublist.map _)
        · exact hdeposit.ascending kind revs hr
      · unfold MemoryBuild.next
        rw [revisions_keep]
        by_cases hk : kind = artifact.kind
        · have hlast : [artifact].filter (fun artifact => artifact.revision ∉ pruned)
              = [artifact] := by
            rw [List.filter_cons_of_pos (by simpa using hkept)]
            rfl
          rw [if_pos hk, if_pos hk, List.filter_append, hlast, nextRevision_snoc]
        · rw [if_neg hk, if_neg hk]
          exact (hdeposit.next kind).trans (if_neg hk)
  · rw [Bool.eq_false_of_not_eq_true hmanaged]
    exact ⟨state.deposit artifact, rfl, hdeposit⟩

/-! ## 2. Bundles -/

/-- The artifacts take the next revisions of their kinds, one after the other. -/
def Consecutive : (String → Nat) → List ArtifactMeta → Prop
  | _, [] => True
  | next, artifact :: rest => artifact.revision = next artifact.kind ∧
      Consecutive (fun kind => if kind = artifact.kind then artifact.revision + 1 else next kind)
        rest

/-- The next revisions after some deposits. -/
def nextAfter : (String → Nat) → List ArtifactMeta → String → Nat
  | next, [] => next
  | next, artifact :: rest =>
    nextAfter (fun kind => if kind = artifact.kind then artifact.revision + 1 else next kind) rest

theorem assignRevisions_consecutive {slug : String}
    {artifacts : JsMap String (List ArtifactMeta)} {ts : Nat} :
    ∀ {prepared : List PreparedArtifact} {nextRev : JsMap String Nat} {next : String → Nat},
      (∀ kind, next kind
        = (nextRev.get? ⟨kind⟩).getD (nextRevision (artifacts.get? ⟨kind⟩))) →
      Consecutive next (assignRevisions slug artifacts ts nextRev prepared)
  | [], _, _, _ => trivial
  | p :: rest, nextRev, next, h => by
    refine ⟨(h p.kind).symm, assignRevisions_consecutive fun kind => ?_⟩
    rw [get?_set]
    by_cases hk : kind = p.kind
    · rw [if_pos hk, if_pos (by rw [hk])]
      rfl
    · rw [if_neg hk, if_neg fun he => hk (MapKey.mk.inj he)]
      exact h kind

theorem assignRevisions_kinds {slug : String} {artifacts : JsMap String (List ArtifactMeta)}
    {ts : Nat} : ∀ {prepared : List PreparedArtifact} {nextRev : JsMap String Nat},
      (assignRevisions slug artifacts ts nextRev prepared).map (·.kind) = prepared.map (·.kind)
  | [], _ => rfl
  | p :: rest, nextRev => by
    unfold assignRevisions
    rw [List.map_cons, assignRevisions_kinds, List.map_cons]

/-- **The deposits of a bundle go through**, and leave the log alone. -/
theorem depositAll_kept {maxRevisions : Int} :
    ∀ {metas : List ArtifactMeta} {state : MemoryBuild},
      (∀ kind revs, state.revisions kind = some revs → Ascending revs) →
      Consecutive state.next metas → (∀ artifact ∈ metas, RoomFor maxRevisions artifact.kind) →
      ∃ after, depositAll maxRevisions state metas = (after, none) ∧ SameLog state after ∧
        (∀ kind revs, after.revisions kind = some revs → Ascending revs) ∧
        after.next = nextAfter state.next metas
  | [], state, h, _, _ => ⟨state, rfl, ⟨rfl, rfl⟩, h, rfl⟩
  | artifact :: rest, state, h, hnext, hroom => by
    obtain ⟨pruned, hpruned, hdeposited⟩ :=
      pruneBuildKind_kept h hnext.1 (hroom artifact List.mem_cons_self)
    have hfun : pruned.next
        = fun kind => if kind = artifact.kind then artifact.revision + 1 else state.next kind :=
      funext hdeposited.next
    have hrest := hnext.2
    rw [← hfun] at hrest
    obtain ⟨after, ha, hlog, hascending, hlast⟩ := depositAll_kept hdeposited.ascending hrest
      fun other ho => hroom other (List.mem_cons_of_mem _ ho)
    refine ⟨after, ?_, ⟨hlog.events.trans hdeposited.log.events,
      hlog.index.trans hdeposited.log.index⟩, hascending, ?_⟩
    · unfold depositAll
      rw [hpruned]
      exact ha
    · rw [hlast, hfun]
      rfl

/-- The revisions some artifacts give to a kind. -/
def revisionsOf (kind : String) (metas : List ArtifactMeta) : List Nat :=
  (metas.filter fun artifact => artifact.kind = kind).map (·.revision)

/-- Consecutive revisions ascend from the next one, and the next one is past them. -/
theorem Consecutive.ascending :
    ∀ {metas : List ArtifactMeta} {next : String → Nat}, Consecutive next metas → ∀ kind,
      (revisionsOf kind metas).Pairwise (· < ·) ∧
        (∀ revision ∈ revisionsOf kind metas,
          next kind ≤ revision ∧ revision < nextAfter next metas kind) ∧
        next kind ≤ nextAfter next metas kind
  | [], next, _, _ => ⟨List.Pairwise.nil, fun _ h => absurd h List.not_mem_nil, le_rfl⟩
  | artifact :: rest, next, h, kind => by
    obtain ⟨hpairwise, hbounds, hle⟩ := h.2.ascending kind
    have hrevision := h.1
    unfold nextAfter
    unfold revisionsOf at hpairwise hbounds ⊢
    by_cases hk : artifact.kind = kind
    · rw [if_pos hk.symm] at hle
      rw [List.filter_cons_of_pos (by simpa using hk), List.map_cons, List.pairwise_cons]
      have hstart : next kind = artifact.revision := by rw [hrevision, hk]
      refine ⟨⟨fun revision hr => ?_, hpairwise⟩, fun revision hr => ?_, by omega⟩
      · have hb := (hbounds revision hr).1
        rw [if_pos hk.symm] at hb
        omega
      · rcases List.mem_cons.mp hr with rfl | hr
        · exact ⟨hstart.le, by omega⟩
        · have hb := hbounds revision hr
          rw [if_pos hk.symm] at hb
          exact ⟨by omega, hb.2⟩
    · rw [if_neg fun he => hk he.symm] at hle
      rw [List.filter_cons_of_neg (by simpa using hk)]
      refine ⟨hpairwise, fun revision hr => ?_, hle⟩
      have hb := hbounds revision hr
      rw [if_neg fun he => hk he.symm] at hb
      exact hb

/-! ## 3. One call -/

theorem LogKept.push {state : MemoryBuild} (h : LogKept state) {event : AbEvent}
    (hseq : event.seq = state.events.length + 1) : LogKept (state.push event) := by
  refine ⟨?_, h.ascending, h.index.append event⟩
  show (state.events ++ [event]).map (·.seq) = List.range' 1 (state.events ++ [event]).length
  rw [List.map_append, h.seqs, List.length_append, List.length_singleton, List.range'_1_concat,
    List.map_singleton, hseq, Nat.add_comm 1]

/-- What a call may make of a build. -/
structure CallKept (before : MemoryBuild) (reply : WriteReply) (after : MemoryBuild) : Prop where
  log : LogKept after
  rejected : reply.rejected = true → after = before
  ascending : ∀ kind, (revisionsOf kind reply.assigned).Pairwise (· < ·)
  bounds : ∀ kind, ∀ revision ∈ revisionsOf kind reply.assigned,
    before.next kind ≤ revision ∧ revision < after.next kind
  next : ∀ kind, before.next kind ≤ after.next kind

/-- A call that assigns nothing and leaves the artifacts. -/
theorem CallKept.of_unassigned {before after : MemoryBuild} {reply : WriteReply}
    (hlog : LogKept after) (hrejected : reply.rejected = true → after = before)
    (hassigned : reply.assigned = []) (hartifacts : after.artifacts = before.artifacts) :
    CallKept before reply after := by
  have hnext : after.next = before.next := by
    funext kind
    unfold MemoryBuild.next MemoryBuild.revisions
    rw [hartifacts]
  refine ⟨hlog, hrejected, fun kind => ?_, fun kind revision hr => ?_, fun kind => by rw [hnext]⟩
  · rw [hassigned]
    exact List.Pairwise.nil
  · rw [hassigned] at hr
    exact absurd hr List.not_mem_nil

theorem CallKept.refused {state : MemoryBuild} (h : LogKept state) {reply : WriteReply}
    (hassigned : reply.assigned = []) : CallKept state reply state :=
  .of_unassigned h (fun _ => rfl) hassigned rfl

section

variable {ω : Type} {store : MemoryStore ω} {state : MemoryBuild}

theorem append_kept (h : LogKept state) (event : ω) (ts : Nat) :
    CallKept state (store.append state event ts).1 (store.append state event ts).2 := by
  unfold MemoryStore.append
  split
  · exact .refused h rfl
  · exact .of_unassigned (h.push rfl) nofun rfl rfl

theorem appendIfCurrent_kept (h : LogKept state) (expectedSeq : Int) (event : ω) (ts : Nat) :
    CallKept state (store.appendIfCurrent state expectedSeq event ts).1
      (store.appendIfCurrent state expectedSeq event ts).2 := by
  unfold MemoryStore.appendIfCurrent
  split
  · exact .refused h rfl
  · exact .refused h rfl
  · split
    · exact .refused h rfl
    · rename_i hcurrent
      refine .of_unassigned (h.push ?_) nofun rfl rfl
      show expectedSeq.toNat + 1 = state.events.length + 1
      omega

theorem commitBundle_kept (h : LogKept state) (expectedSeq : Option Int)
    {prepared : List PreparedArtifact} (hroom : ∀ p ∈ prepared, RoomFor store.maxRevisions p.kind)
    (makeEvent : List ArtifactMeta → Except String ω) (ts : Nat) :
    CallKept state (store.commitBundle state expectedSeq prepared makeEvent ts).1
      (store.commitBundle state expectedSeq prepared makeEvent ts).2 := by
  unfold MemoryStore.commitBundle
  split
  · exact .refused h rfl
  · dsimp only
    have hconsecutive : Consecutive state.next
        (assignRevisions store.slug state.artifacts ts ∅ prepared) :=
      assignRevisions_consecutive fun kind => rfl
    have hroom : ∀ artifact ∈ assignRevisions store.slug state.artifacts ts ∅ prepared,
        RoomFor store.maxRevisions artifact.kind := by
      intro artifact ha
      have hk := List.mem_map_of_mem (f := (·.kind)) ha
      rw [assignRevisions_kinds] at hk
      obtain ⟨p, hp, hkind⟩ := List.mem_map.mp hk
      rw [← hkind]
      exact hroom p hp
    generalize assignRevisions store.slug state.artifacts ts ∅ prepared = deposited at *
    obtain ⟨after, hafter, hlog, hascending, hnext⟩ :=
      depositAll_kept h.ascending hconsecutive hroom
    split
    · exact .refused h rfl
    · rename_i write hwrite
      rw [hafter]
      dsimp only
      have hkept : LogKept after := by
        refine ⟨?_, hascending, ?_⟩
        · rw [hlog.events]
          exact h.seqs
        · rw [hlog.events, hlog.index]
          exact h.index
      have hbounds := hconsecutive.ascending
      have hsame : ∀ kind, (after.push (envelope (after.events.length + 1) ts write)).next kind
          = nextAfter state.next deposited kind := by
        intro kind
        rw [← hnext]
        rfl
      refine ⟨hkept.push rfl, nofun, fun kind => (hbounds kind).1, fun kind revision hr => ?_,
        fun kind => ?_⟩
      · rw [hsame]
        exact (hbounds kind).2.1 revision hr
      · rw [hsame]
        exact (hbounds kind).2.2

theorem commitArtifact_kept (h : LogKept state) {prepared : PreparedArtifact}
    (hroom : RoomFor store.maxRevisions prepared.kind) (ts : Nat) :
    CallKept state (store.commitArtifact state prepared ts).1
      (store.commitArtifact state prepared ts).2 := by
  unfold MemoryStore.commitArtifact
  dsimp only
  let artifact : ArtifactMeta :=
    { build := store.slug
      kind := prepared.kind
      revision := nextRevision (state.revisions prepared.kind)
      blobRef := prepared.blobRef
      metadata := prepared.metadata
      createdAt := ts }
  have hartifact : artifact.revision = state.next artifact.kind := rfl
  obtain ⟨pruned, hpruned, hdeposited⟩ := pruneBuildKind_kept h.ascending hartifact hroom
  rw [hpruned]
  have hnext : ∀ kind, ({ pruned with updatedAt := ts } : MemoryBuild).next kind
      = if kind = prepared.kind then state.next prepared.kind + 1 else state.next kind :=
    hdeposited.next
  refine ⟨⟨?_, hdeposited.ascending, ?_⟩, nofun, fun kind => ?_, fun kind revision hr => ?_,
    fun kind => ?_⟩
  · show pruned.events.map (·.seq) = List.range' 1 pruned.events.length
    rw [hdeposited.log.events]
    exact h.seqs
  · show Determined (rewritesOf pruned.events) pruned.index
    rw [hdeposited.log.events, hdeposited.log.index]
    exact h.index
  · unfold revisionsOf WriteReply.assigned
    exact (List.pairwise_singleton _ _).sublist (List.filter_sublist.map _)
  · unfold revisionsOf WriteReply.assigned at hr
    obtain ⟨artifact, ha, rfl⟩ := List.mem_map.mp hr
    obtain ⟨ha, hk⟩ := List.mem_filter.mp ha
    have hk := of_decide_eq_true hk
    rw [List.mem_singleton.mp ha] at hk ⊢
    have hk : prepared.kind = kind := hk
    rw [hnext, if_pos hk.symm, ← hk]
    show state.next prepared.kind ≤ state.next prepared.kind ∧
      state.next prepared.kind < state.next prepared.kind + 1
    omega
  · rw [hnext]
    split
    · rename_i hk
      rw [hk]
      omega
    · exact le_rfl

/-! ## 4. Calls that await -/

/-- The kinds a call deposits, now or after its awaits. -/
def WriteCall.kinds : WriteCall ω → List String
  | .appendWithArtifacts artifacts _ => artifacts.map (·.kind)
  | .appendWithArtifactsIfCurrent _ artifacts _ => artifacts.map (·.kind)
  | .putArtifact artifact => [artifact.kind]
  | _ => []

def WriteTask.kinds : WriteTask ω → List String
  | .bundle _ current rest prepared _ =>
    prepared.map (·.kind) ++ current.kind :: rest.map (·.kind)
  | .lone artifact => [artifact.kind]

/-- There is room for a revision of each kind. -/
def Roomy (maxRevisions : Int) (kinds : List String) : Prop :=
  ∀ kind ∈ kinds, RoomFor maxRevisions kind

/-- The invariant of a store with calls under way. -/
structure SystemKept (store : MemoryStore ω) (system : StoreSystem ω) : Prop where
  build : LogKept system.build
  tasks : ∀ task ∈ system.tasks, Roomy store.maxRevisions task.kinds

/-- What one stretch of one call makes of the store. -/
structure StretchKept (store : MemoryStore ω) (before : StoreSystem ω)
    (result : WriteReply × StoreSystem ω) : Prop where
  call : CallKept before.build result.1 result.2.build
  tasks : ∀ task ∈ result.2.tasks, Roomy store.maxRevisions task.kinds

variable {system : StoreSystem ω}

/-- A stretch that does not reach a commit. -/
theorem SystemKept.awaits (h : SystemKept store system) {reply : WriteReply}
    (hassigned : reply.assigned = []) : StretchKept store system (reply, system) :=
  ⟨.refused h.build hassigned, h.tasks⟩

theorem SystemKept.suspends (h : SystemKept store system) {task : WriteTask ω}
    (hroom : Roomy store.maxRevisions task.kinds) :
    StretchKept store system (.suspended, { system with tasks := system.tasks ++ [task] }) := by
  refine ⟨.refused h.build rfl, fun other ho => ?_⟩
  rcases List.mem_append.mp ho with ho | ho
  · exact h.tasks other ho
  · rw [List.mem_singleton.mp ho]
    exact hroom

theorem prepareNext_kept (h : SystemKept store system) (expectedSeq : Option Int)
    {prepared : List PreparedArtifact} (makeEvent : List ArtifactMeta → Except String ω) (ts : Nat)
    {artifacts : List ArtifactInput}
    (hroom : Roomy store.maxRevisions (prepared.map (·.kind) ++ artifacts.map (·.kind))) :
    StretchKept store system
      (prepareNext store system expectedSeq prepared makeEvent ts artifacts) := by
  cases artifacts with
  | nil =>
    have hcall : CallKept system.build
        (store.commitBundle system.build expectedSeq prepared makeEvent ts).1
        (store.commitBundle system.build expectedSeq prepared makeEvent ts).2 :=
      commitBundle_kept h.build expectedSeq
        (fun p hp => hroom p.kind (List.mem_append_left _ (List.mem_map_of_mem hp))) makeEvent ts
    exact ⟨hcall, h.tasks⟩
  | cons artifact rest =>
    unfold prepareNext
    dsimp only
    split
    · exact h.awaits rfl
    · exact h.suspends hroom

theorem resumeTask_kept (h : SystemKept store system) (stored : Bool) (ts : Nat)
    {task : WriteTask ω} (hroom : Roomy store.maxRevisions task.kinds) :
    StretchKept store system (resumeTask store system stored ts task) := by
  cases task with
  | bundle expectedSeq current rest prepared makeEvent =>
    unfold resumeTask
    dsimp only
    split
    · exact h.awaits rfl
    · refine prepareNext_kept h expectedSeq makeEvent ts ?_
      rw [List.map_append, List.append_assoc]
      exact hroom
  | lone artifact =>
    unfold resumeTask
    dsimp only
    split
    · exact h.awaits rfl
    · have hkind : RoomFor store.maxRevisions (store.prepare artifact).kind :=
        hroom artifact.kind List.mem_cons_self
      exact ⟨commitArtifact_kept h.build hkind ts, h.tasks⟩

/-- **One stretch** of any call. -/
theorem stepCall_kept (h : SystemKept store system) (ts : Nat) {call : WriteCall ω}
    (hroom : Roomy store.maxRevisions call.kinds) :
    StretchKept store system (stepCall store system ts call) := by
  cases call with
  | append event => exact ⟨append_kept h.build event ts, h.tasks⟩
  | appendIfCurrent expectedSeq event =>
    exact ⟨appendIfCurrent_kept h.build expectedSeq event ts, h.tasks⟩
  | appendWithArtifacts artifacts makeEvent => exact prepareNext_kept h none makeEvent ts hroom
  | appendWithArtifactsIfCurrent expectedSeq artifacts makeEvent =>
    unfold stepCall startBundle
    dsimp only
    split
    · exact h.awaits rfl
    · exact prepareNext_kept h (some expectedSeq) makeEvent ts hroom
  | putArtifact artifact =>
    unfold stepCall
    dsimp only
    split
    · exact h.awaits rfl
    · exact h.suspends hroom
  | resume position stored =>
    unfold stepCall
    dsimp only
    split
    · exact h.awaits rfl
    · rename_i task htask
      have hkept : SystemKept store { system with tasks := system.tasks.eraseIdx position } :=
        ⟨h.build, fun other ho => h.tasks other (List.mem_of_mem_eraseIdx ho)⟩
      have hstep := resumeTask_kept hkept stored ts (h.tasks task (List.mem_of_getElem? htask))
      exact ⟨hstep.call, hstep.tasks⟩

/-! ## 5. Runs -/

/-- The revisions of a run ascend from the next one at its start, past none at its end. -/
structure CallsKept (store : MemoryStore ω) (before : StoreSystem ω)
    (run : List WriteReply × StoreSystem ω) : Prop where
  system : SystemKept store run.2
  ascending : ∀ kind, (revisionsOf kind (run.1.flatMap (·.assigned))).Pairwise (· < ·)
  bounds : ∀ kind, ∀ revision ∈ revisionsOf kind (run.1.flatMap (·.assigned)),
    before.build.next kind ≤ revision ∧ revision < run.2.build.next kind
  next : ∀ kind, before.build.next kind ≤ run.2.build.next kind

theorem revisionsOf_append (kind : String) (front back : List ArtifactMeta) :
    revisionsOf kind (front ++ back) = revisionsOf kind front ++ revisionsOf kind back := by
  unfold revisionsOf
  rw [List.filter_append, List.map_append]

theorem runCalls_kept : ∀ {calls : List (Nat × WriteCall ω)} {system : StoreSystem ω},
    SystemKept store system → (∀ call ∈ calls, Roomy store.maxRevisions call.2.kinds) →
    CallsKept store system (runCalls store system calls)
  | [], system, h, _ => ⟨h, fun _ => List.Pairwise.nil, fun _ _ hr => absurd hr List.not_mem_nil,
      fun _ => le_rfl⟩
  | (ts, call) :: rest, system, h, hroom => by
    have hstep := stepCall_kept h ts (hroom (ts, call) List.mem_cons_self)
    have hrest := runCalls_kept ⟨hstep.call.log, hstep.tasks⟩
      fun other ho => hroom other (List.mem_cons_of_mem _ ho)
    unfold runCalls
    dsimp only
    generalize stepCall store system ts call = step at hstep hrest
    generalize runCalls store step.2 rest = run at hrest
    refine ⟨hrest.system, fun kind => ?_, fun kind revision hr => ?_,
      fun kind => (hstep.call.next kind).trans (hrest.next kind)⟩
    · rw [List.flatMap_cons, revisionsOf_append, List.pairwise_append]
      refine ⟨hstep.call.ascending kind, hrest.ascending kind, fun first hf second hs => ?_⟩
      -- the first call's revisions lie below what is next after it, the others' from there on
      have hb := (hstep.call.bounds kind first hf).2
      have hb' := (hrest.bounds kind second hs).1
      omega
    · rw [List.flatMap_cons, revisionsOf_append] at hr
      have hle := hstep.call.next kind
      have hle' := hrest.next kind
      rcases List.mem_append.mp hr with hr | hr
      · have hb := hstep.call.bounds kind revision hr
        exact ⟨hb.1, hb.2.trans_le hle'⟩
      · have hb := hrest.bounds kind revision hr
        exact ⟨hle.trans hb.1, hb.2⟩

theorem createBuild_kept (created : Option (Actor × BuildCreated)) (ts : Nat) :
    LogKept (.createBuild created ts) := by
  refine ⟨?_, fun kind revs hr => ?_, ?_⟩
  · cases created <;> rfl
  · exact absurd hr nofun
  · have hreceipts : rewritesOf (MemoryBuild.createBuild created ts).events = [] := by
      cases created <;> rfl
    rw [hreceipts]
    exact ⟨rfl, fun _ => rfl, fun _ => rfl⟩

end

/-- **Log and revision integrity**, where the store has room for a revision of every kind that is
pruned on deposit: in every state a run of calls reaches, and for every call that comes next. -/
theorem buildLog_integrity {ω : Type} (store : MemoryStore ω)
    (created : Option (Actor × BuildCreated)) (createdAt : Nat) (calls : List (Nat × WriteCall ω))
    (hroom : ∀ call ∈ calls, Roomy store.maxRevisions call.2.kinds) :
    let run := runCalls store ⟨.createBuild created createdAt, []⟩ calls
    run.2.build.events.map (·.seq) = List.range' 1 run.2.build.events.length ∧
      (∀ kind, (revisionsOf kind (run.1.flatMap (·.assigned))).Pairwise (· < ·)) ∧
      Determined (rewritesOf run.2.build.events) run.2.build.index ∧
      ∀ ts call, Roomy store.maxRevisions call.kinds →
        (stepCall store run.2 ts call).1.rejected = true →
        (stepCall store run.2 ts call).2.build = run.2.build := by
  intro run
  have hrun : CallsKept store _ run :=
    runCalls_kept ⟨createBuild_kept created createdAt, fun _ h => absurd h List.not_mem_nil⟩ hroom
  exact ⟨hrun.system.build.seqs, hrun.ascending, hrun.system.build.index,
    fun ts call hcall => (stepCall_kept hrun.system ts hcall).call.rejected⟩

/-- A store of blobs named by their content, whose raw events need no preparation. -/
def plainStore (maxRevisions : Int) : MemoryStore EventWrite where
  slug := "b"
  prepareEventWrite := .ok
  contentHash content := content
  maxRevisions := maxRevisions

def configArtifact (content : String) : ArtifactInput :=
  ⟨"build-runner-effective-config", content, none⟩

def noted (_ : List ArtifactMeta) : Except String EventWrite :=
  .ok ⟨.kernel, .node (.rewritten ⟨"n", "base", "head"⟩)⟩

/-- Two bundles of a managed kind, the second called while the first awaits; then a lone one. -/
theorem buildLog_integrity_interleaved :
    let run := runCalls (plainStore 1) ⟨.createBuild none 0, []⟩
      [(1, .appendWithArtifacts [configArtifact "a", configArtifact "b"] noted),
        (2, .appendWithArtifactsIfCurrent 0 [configArtifact "c"] noted),
        (3, .resume 1 true), (4, .resume 0 true), (5, .resume 0 true)]
    run.2.build.events.map (·.seq) = List.range' 1 run.2.build.events.length ∧
      (∀ kind, (revisionsOf kind (run.1.flatMap (·.assigned))).Pairwise (· < ·)) ∧
      Determined (rewritesOf run.2.build.events) run.2.build.index ∧
      ∀ ts call, Roomy (plainStore 1).maxRevisions call.kinds →
        (stepCall (plainStore 1) run.2 ts call).1.rejected = true →
        (stepCall (plainStore 1) run.2 ts call).2.build = run.2.build :=
  buildLog_integrity (plainStore 1) none 0 _ fun _ _ _ _ _ => le_rfl

/-- The deposit of a managed kind throws in its prune, after the deposit, where the store keeps no
revision. -/
theorem not_buildLog_integrity :
    ¬ ∀ (store : MemoryStore EventWrite) (created : Option (Actor × BuildCreated))
      (createdAt : Nat) (calls : List (Nat × WriteCall EventWrite)) (ts : Nat)
      (call : WriteCall EventWrite),
      let system := (runCalls store ⟨.createBuild created createdAt, []⟩ calls).2
      (stepCall store system ts call).1.rejected = true →
        (stepCall store system ts call).2.build = system.build := by
  intro h
  have hbuild := h (plainStore 0) none 0 [(1, .appendWithArtifacts [configArtifact "a"] noted)] 2
    (.resume 0 true) rfl
  have hrevisions := congrArg
    (fun build => (build.revisions "build-runner-effective-config").map List.length) hbuild
  exact absurd hrevisions (by decide)

end Autobuild
