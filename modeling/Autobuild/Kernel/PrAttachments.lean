/-
# The attachments of a pull request

An artifact is designated for the pull request, its copy is hosted, and the copy is reclaimed; a
revised spec restarts them all.  The reducers keep the newest designation of every kind and the
newest copy of every designation; whole arrays are scanned here as well, and the two are compared.

* `bestOf_filter_above`: the newest fact above a fence is the newest fact, if that is above it.
* `get?_foldNewest`: what such a map holds at a key is the newest fact of that key.
* A kind `__proto__` is never kept, because the assignment sets no property.
  `pr_attachments_agree_iff`: the reducers answer as the scans do exactly where no such designation
  is later than the last restart.
-/
import Mathlib.Data.List.Sort
import Autobuild.Lib.Best
import Autobuild.Store.Digest

namespace Autobuild

/-! ## 1. Reducers -/

structure PrAttachmentDesignationEvent where
  event : AbEvent
  payload : PrAttachment
  body : event.body = .plain (.prAttachmentDesignated payload)

structure PrAttachmentHostedEvent where
  event : AbEvent
  designationSeq : Nat
  asset : HostedPrAttachmentAsset
  body : event.body = .plain (.prAttachmentHosted designationSeq asset)

def PrAttachmentDesignationEvent.seq (designation : PrAttachmentDesignationEvent) : Nat :=
  designation.event.seq

def PrAttachmentDesignationEvent.kind (designation : PrAttachmentDesignationEvent) : String :=
  designation.payload.artifact.kind

def PrAttachmentHostedEvent.seq (hosted : PrAttachmentHostedEvent) : Nat := hosted.event.seq

def designation? (event : AbEvent) : Option PrAttachmentDesignationEvent :=
  match h : event.body with
  | .plain (.prAttachmentDesignated payload) => some ⟨event, payload, h⟩
  | _ => none

def hosted? (event : AbEvent) : Option PrAttachmentHostedEvent :=
  match h : event.body with
  | .plain (.prAttachmentHosted designationSeq asset) => some ⟨event, designationSeq, asset, h⟩
  | _ => none

/-- `object[key] = value` of a plain object: `__proto__` becomes its prototype, and no property. -/
def assignProperty {ν : Type} (object : ObjectMap String ν) (key : String) (value : ν) :
    ObjectMap String ν :=
  if key = "__proto__" then object else object.set key value

structure DesignationAcc where
  restartSeq : Nat := 0
  byKind : ObjectMap String PrAttachmentDesignationEvent := ∅

def foldDesignations (acc : DesignationAcc) (event : AbEvent) : DesignationAcc :=
  match event.body with
  | .spec (.revised _ _) => { acc with restartSeq := max acc.restartSeq event.seq }
  | _ =>
    match designation? event with
    | some designation =>
      match acc.byKind.get? designation.kind with
      | none => { acc with byKind := assignProperty acc.byKind designation.kind designation }
      | some previous =>
        if previous.seq < designation.seq then
          { acc with byKind := assignProperty acc.byKind designation.kind designation }
        else acc
    | none => acc

/-- Facts in the order of their seq, and those of one seq in the order they have. -/
def sortBySeq {α : Type} (seq : α → Nat) (facts : List α) : List α :=
  facts.mergeSort fun left right => decide (seq left ≤ seq right)

def finishDesignations (acc : DesignationAcc) : List PrAttachmentDesignationEvent :=
  sortBySeq (·.seq) (acc.byKind.values.filter fun designation => acc.restartSeq < designation.seq)

structure HostedPrAttachmentsAcc extends DesignationAcc where
  hostedByDesignation : ObjectMap Nat PrAttachmentHostedEvent := ∅

def foldHosted (acc : HostedPrAttachmentsAcc) (event : AbEvent) : HostedPrAttachmentsAcc :=
  let next := { acc with toDesignationAcc := foldDesignations acc.toDesignationAcc event }
  match hosted? event with
  | none => next
  | some hosted =>
    match acc.hostedByDesignation.get? hosted.designationSeq with
    | none =>
      { next with
        hostedByDesignation := acc.hostedByDesignation.set hosted.designationSeq hosted }
    | some previous =>
      if previous.seq < hosted.seq then
        { next with
          hostedByDesignation := acc.hostedByDesignation.set hosted.designationSeq hosted }
      else next

def finishHosted (acc : HostedPrAttachmentsAcc)
    (designations : List PrAttachmentDesignationEvent) : JsMap Nat PrAttachmentHostedEvent :=
  designations.foldl (fun hosted designation =>
    match acc.hostedByDesignation.get? designation.seq with
    | some event =>
      if designation.seq < event.seq then hosted.set ⟨designation.seq⟩ event else hosted
    | none => hosted) ∅

/-- `advance` over the pieces of a log, and `finish`. -/
def currentPrAttachments (pieces : List (List AbEvent)) : List PrAttachmentDesignationEvent :=
  finishDesignations (pieces.foldl (fun acc piece => piece.foldl foldDesignations acc) {})

def hostedPrAttachments (pieces : List (List AbEvent)) : JsMap Nat PrAttachmentHostedEvent :=
  let acc := pieces.foldl (fun acc piece => piece.foldl foldHosted acc) {}
  finishHosted acc (finishDesignations acc.toDesignationAcc)

def pendingReclaims (pieces : List (List AbEvent)) : List AbEvent :=
  (pieces.foldl (fun acc piece => piece.foldl PendingPrAttachmentReclaimsAcc.fold acc)
    PendingPrAttachmentReclaimsAcc.initial).finish

/-! ## 2. Scans of the whole array -/

def restartSeq (events : List AbEvent) : Nat :=
  events.foldl (fun restart event =>
    match event.body with
    | .spec (.revised _ _) => max restart event.seq
    | _ => restart) 0

/-- The newest fact of every key in a `Map`: a later one replaces it when its seq is higher. -/
def keepNewest {κ ν : Type} [DecidableEq κ] [PropertyKey κ] (seq : ν → Nat) (map : ObjectMap κ ν)
    (key : κ) (fact : ν) : ObjectMap κ ν :=
  match map.get? key with
  | none => map.set key fact
  | some previous => if seq previous < seq fact then map.set key fact else map

def oracleCurrent (events : List AbEvent) : List PrAttachmentDesignationEvent :=
  let byKind := events.foldl (fun (byKind : JsMap String PrAttachmentDesignationEvent) event =>
    match designation? event with
    | some designation =>
      if designation.seq ≤ restartSeq events then byKind
      else keepNewest (·.seq) byKind ⟨designation.kind⟩ designation
    | none => byKind) ∅
  sortBySeq (·.seq) byKind.values

def oracleHosted (events : List AbEvent) : JsMap Nat PrAttachmentHostedEvent :=
  let bySeq := (oracleCurrent events).foldl
    (fun (bySeq : JsMap Nat PrAttachmentDesignationEvent) designation =>
      bySeq.set ⟨designation.seq⟩ designation) ∅
  events.foldl (fun (out : JsMap Nat PrAttachmentHostedEvent) event =>
    match hosted? event with
    | none => out
    | some hosted =>
      match bySeq.get? ⟨hosted.designationSeq⟩ with
      | none => out
      | some designation =>
        if hosted.seq ≤ designation.seq then out
        else keepNewest (·.seq) out ⟨designation.seq⟩ hosted) ∅

def isHosted (event : AbEvent) : Bool :=
  match event.body with
  | .plain (.prAttachmentHosted _ _) => true
  | _ => false

def oracleReclaims (events : List AbEvent) : List AbEvent :=
  let hostedEvents := sortBySeq (·.seq) (events.filter isHosted)
  let done := events.filterMap fun event =>
    match event.body with
    | .plain (.prAttachmentReclaimed hostedSeq) =>
      if hostedSeq ∈ hostedEvents.map (·.seq) ∧ hostedSeq < event.seq then some hostedSeq else none
    | _ => none
  hostedEvents.filter fun event => event.seq ∉ done

/-! ## 3. The newest fact -/

section Newest

variable {ν : Type} {seq : ν → Nat}

/-- A fact replaces the one that is kept when its seq is higher. -/
def isNewer (seq : ν → Nat) (fact kept : ν) : Bool := decide (seq kept < seq fact)

/-- The newest fact, the first of those with the highest seq. -/
def newestFact (seq : ν → Nat) (facts : List ν) : Option ν := bestOf (isNewer seq) facts

/-- Newness is the order of the seqs, read downwards. -/
theorem isNewer_rank (x y : ν) :
    isNewer seq x y = true ↔ OrderDual.toDual (seq x) < OrderDual.toDual (seq y) := by
  rw [isNewer, decide_eq_true_iff, OrderDual.toDual_lt_toDual]

theorem newestFact_mem {facts : List ν} {fact : ν} (h : newestFact seq facts = some fact) :
    fact ∈ facts :=
  (bestOf_spec isNewer_rank h).1

theorem seq_le_newestFact {facts : List ν} {newest fact : ν}
    (h : newestFact seq facts = some newest) (hmem : fact ∈ facts) : seq fact ≤ seq newest :=
  (bestOf_spec isNewer_rank h).2 fact hmem

theorem newestFact_isSome {facts : List ν} {fact : ν} (h : fact ∈ facts) :
    ∃ newest, newestFact seq facts = some newest := by
  cases hnewest : newestFact seq facts with
  | none => rw [bestOf_eq_none hnewest] at h; exact absurd h List.not_mem_nil
  | some newest => exact ⟨newest, rfl⟩

/-- The newest fact above a fence is the newest fact, if that is above it. -/
theorem newestFact_filter_above (fence : Nat) (facts : List ν) :
    newestFact seq (facts.filter fun fact => fence < seq fact) =
      (newestFact seq facts).filter fun fact => fence < seq fact := by
  induction facts using List.reverseRecOn with
  | nil => rfl
  | append_singleton facts fact ih =>
    rw [newestFact, newestFact] at ih ⊢
    rw [bestOf_snoc, List.filter_append]
    by_cases habove : fence < seq fact
    · rw [List.filter_cons_of_pos (by simpa using habove), List.filter_nil, bestOf_snoc, ih]
      cases bestOf (isNewer seq) facts with
      | none => simp [pickBetter, Option.filter, habove]
      | some kept =>
        by_cases hkept : fence < seq kept
        · by_cases hnewer : isNewer seq fact kept = true <;>
            simp [pickBetter, Option.filter, habove, hkept, hnewer]
        · have hnewer : isNewer seq fact kept = true := decide_eq_true (by omega)
          simp [pickBetter, Option.filter, hkept, hnewer, habove]
    · rw [List.filter_cons_of_neg (by simpa using habove), List.filter_nil, List.append_nil, ih]
      cases bestOf (isNewer seq) facts with
      | none => simp [pickBetter, Option.filter, habove]
      | some kept =>
        by_cases hnewer : isNewer seq fact kept = true
        · have hkept : ¬fence < seq kept := by
            have := of_decide_eq_true hnewer
            omega
          simp [pickBetter, Option.filter, hnewer, habove, hkept]
        · simp [pickBetter, hnewer]

variable {κ : Type} [DecidableEq κ] [PropertyKey κ]

theorem get?_keepNewest (map : ObjectMap κ ν) (key k : κ) (fact : ν) :
    (keepNewest seq map key fact).get? k =
      if key = k then pickBetter (isNewer seq) (map.get? k) fact else map.get? k := by
  unfold keepNewest
  by_cases hk : key = k
  · subst hk
    rw [if_pos rfl]
    cases hget : map.get? key with
    | none => simp [pickBetter]
    | some previous =>
      by_cases hnewer : seq previous < seq fact
      · simp [pickBetter, isNewer, hnewer]
      · simp [pickBetter, isNewer, hnewer, hget]
  · rw [if_neg hk]
    cases map.get? key with
    | none => exact ObjectMap.get?_set_ne _ _ (Ne.symm hk)
    | some previous =>
      dsimp only
      split
      · exact ObjectMap.get?_set_ne _ _ (Ne.symm hk)
      · rfl

/-- A map of the newest facts holds at each key the newest fact of that key. -/
theorem get?_foldNewest (key : ν → κ) (facts : List ν) (k : κ) :
    (facts.foldl (fun map fact => keepNewest seq map (key fact) fact) ∅).get? k =
      newestFact seq (facts.filter fun fact => key fact = k) := by
  induction facts using List.reverseRecOn with
  | nil => rfl
  | append_singleton facts fact ih =>
    rw [List.foldl_append, List.foldl_cons, List.foldl_nil, get?_keepNewest, ih,
      List.filter_append]
    by_cases hk : key fact = k
    · rw [if_pos hk, List.filter_cons_of_pos (by simpa using hk), List.filter_nil, newestFact,
        newestFact, bestOf_snoc]
    · rw [if_neg hk, List.filter_cons_of_neg (by simpa using hk), List.filter_nil, List.append_nil]

end Newest

/-- A map whose values know their keys holds each value once. -/
theorem nodup_values {κ ν : Type} [DecidableEq κ] {map : ObjectMap κ ν} (key : ν → κ)
    (h : ∀ k v, map.get? k = some v → key v = k) : map.values.Nodup := by
  refine List.Nodup.of_map key ?_
  have hkeys : map.values.map key = map.keys := by
    rw [ObjectMap.values, ObjectMap.keys, List.map_map]
    refine List.map_congr_left fun entry hentry => ?_
    exact h entry.1 entry.2 (ObjectMap.get?_eq_some.mpr hentry)
  rw [hkeys]
  exact map.nodup

/-! ## 4. What the reducers hold -/

def designations (events : List AbEvent) : List PrAttachmentDesignationEvent :=
  events.filterMap designation?

def copies (events : List AbEvent) : List PrAttachmentHostedEvent := events.filterMap hosted?

theorem designation?_event {event : AbEvent} {designation : PrAttachmentDesignationEvent}
    (h : designation? event = some designation) : designation.event = event := by
  unfold designation? at h
  split at h
  · obtain rfl := Option.some.inj h
    rfl
  · exact nomatch h

theorem designation?_of_revised {event : AbEvent} {artifact : ArtifactRef}
    {assets : Option (List PinnedAsset)} (h : event.body = .spec (.revised artifact assets)) :
    designation? event = none := by
  obtain ⟨seq, ts, actor, body⟩ := event
  obtain rfl : body = _ := h
  rfl

/-- What a fact does to the fence. -/
def restartStep (restart : Nat) (event : AbEvent) : Nat :=
  match event.body with
  | .spec (.revised _ _) => max restart event.seq
  | _ => restart

/-- What a designation does to the map of kinds. -/
def keepDesignation (byKind : ObjectMap String PrAttachmentDesignationEvent)
    (designation : PrAttachmentDesignationEvent) :
    ObjectMap String PrAttachmentDesignationEvent :=
  if designation.kind ≠ "__proto__" then keepNewest (·.seq) byKind designation.kind designation
  else byKind

theorem keepDesignation_eq (byKind : ObjectMap String PrAttachmentDesignationEvent)
    (designation : PrAttachmentDesignationEvent) :
    keepDesignation byKind designation =
      match byKind.get? designation.kind with
      | none => assignProperty byKind designation.kind designation
      | some previous =>
        if previous.seq < designation.seq then
          assignProperty byKind designation.kind designation
        else byKind := by
  unfold keepDesignation assignProperty keepNewest
  by_cases hproto : designation.kind = "__proto__"
  · simp only [hproto, ne_eq, not_true, if_false, if_true, ite_self]
    split <;> rfl
  · simp only [hproto, ne_eq, not_false_iff, if_true, if_false]
    cases byKind.get? designation.kind <;> rfl

theorem foldDesignations_eq (acc : DesignationAcc) (event : AbEvent) :
    foldDesignations acc event =
      ⟨restartStep acc.restartSeq event, match designation? event with
        | some designation => keepDesignation acc.byKind designation
        | none => acc.byKind⟩ := by
  unfold foldDesignations restartStep
  split
  · rename_i artifact assets hbody
    rw [designation?_of_revised hbody]
  · cases designation? event with
    | none => rfl
    | some designation =>
      dsimp only
      rw [keepDesignation_eq]
      split
      · rfl
      · split <;> rfl

theorem foldl_foldDesignations (acc : DesignationAcc) (events : List AbEvent) :
    events.foldl foldDesignations acc =
      ⟨events.foldl restartStep acc.restartSeq,
        (designations events).foldl keepDesignation acc.byKind⟩ := by
  induction events generalizing acc with
  | nil => rfl
  | cons event rest ih =>
    rw [List.foldl_cons, ih, foldDesignations_eq]
    simp only [designations, List.filterMap_cons]
    cases designation? event <;> rfl

theorem foldHosted_eq (acc : HostedPrAttachmentsAcc) (event : AbEvent) :
    foldHosted acc event =
      ⟨foldDesignations acc.toDesignationAcc event, match hosted? event with
        | some hosted =>
          keepNewest (·.seq) acc.hostedByDesignation hosted.designationSeq hosted
        | none => acc.hostedByDesignation⟩ := by
  unfold foldHosted
  cases hosted? event with
  | none => rfl
  | some hosted =>
    dsimp only [keepNewest]
    cases acc.hostedByDesignation.get? hosted.designationSeq with
    | none => rfl
    | some previous =>
      dsimp only
      split <;> rfl

theorem foldl_foldHosted (acc : HostedPrAttachmentsAcc) (events : List AbEvent) :
    events.foldl foldHosted acc =
      ⟨events.foldl foldDesignations acc.toDesignationAcc,
        (copies events).foldl (fun map hosted =>
          keepNewest (·.seq) map hosted.designationSeq hosted) acc.hostedByDesignation⟩ := by
  induction events generalizing acc with
  | nil => rfl
  | cons event rest ih =>
    rw [List.foldl_cons, ih, foldHosted_eq]
    simp only [copies, List.filterMap_cons]
    cases hosted? event <;> rfl

/-- The designations of a kind that is kept. -/
theorem get?_byKind (events : List AbEvent) (kind : String) :
    ((designations events).foldl keepDesignation ∅).get? kind =
      newestFact (·.seq) (((designations events).filter fun designation =>
        designation.kind ≠ "__proto__").filter fun designation => designation.kind = kind) := by
  rw [← get?_foldNewest, List.foldl_filter]
  simp only [decide_eq_true_iff]
  rfl

theorem currentPrAttachments_eq (pieces : List (List AbEvent)) :
    currentPrAttachments pieces =
      finishDesignations (pieces.flatten.foldl foldDesignations {}) := by
  rw [currentPrAttachments, List.foldl_flatten]

theorem mem_sortBySeq {α : Type} {seq : α → Nat} {facts : List α} {fact : α} :
    fact ∈ sortBySeq seq facts ↔ fact ∈ facts :=
  List.mem_mergeSort

/-- The newest designation of every kind that is kept, where it is later than the restart. -/
theorem mem_currentPrAttachments {pieces : List (List AbEvent)}
    {designation : PrAttachmentDesignationEvent} :
    designation ∈ currentPrAttachments pieces ↔
      designation.kind ≠ "__proto__" ∧
      newestFact (·.seq) ((designations pieces.flatten).filter (·.kind = designation.kind)) =
        some designation ∧
      restartSeq pieces.flatten < designation.seq := by
  rw [currentPrAttachments_eq, foldl_foldDesignations, finishDesignations, mem_sortBySeq,
    List.mem_filter, ObjectMap.mem_values, decide_eq_true_iff]
  have hkept : ∀ kind, kind ≠ "__proto__" →
      ((designations pieces.flatten).filter fun designation =>
        designation.kind ≠ "__proto__").filter (·.kind = kind) =
      (designations pieces.flatten).filter (·.kind = kind) := by
    intro kind hkind
    rw [List.filter_filter]
    refine List.filter_congr fun other _ => ?_
    by_cases hother : other.kind = kind <;> simp [hother, hkind]
  constructor
  · rintro ⟨⟨kind, hget⟩, hlater⟩
    have hget : _ = some designation := (get?_byKind _ kind).symm.trans hget
    have hmem := List.mem_filter.mp (newestFact_mem hget)
    have hkind : designation.kind = kind := of_decide_eq_true hmem.2
    have hproto : designation.kind ≠ "__proto__" :=
      of_decide_eq_true (List.mem_filter.mp hmem.1).2
    subst hkind
    rw [hkept _ hproto] at hget
    exact ⟨hproto, hget, hlater⟩
  · rintro ⟨hproto, hget, hlater⟩
    refine ⟨⟨designation.kind, ?_⟩, hlater⟩
    refine (get?_byKind _ _).trans ?_
    rw [hkept _ hproto]
    exact hget

/-! ## 5. What the scans find -/

/-- A `Map` keyed by what a fact names holds at each key the newest fact that names it, of those
that are read. -/
theorem get?_foldMap {κ ν : Type} [DecidableEq κ] {seq : ν → Nat} (key : ν → κ) (read : ν → Bool)
    (facts : List ν) (k : κ) :
    (facts.foldl (fun (map : JsMap κ ν) fact =>
      if read fact = true then keepNewest seq map ⟨key fact⟩ fact else map) ∅).get? ⟨k⟩ =
      newestFact seq ((facts.filter read).filter fun fact => key fact = k) := by
  rw [← List.foldl_filter, get?_foldNewest fun fact => MapKey.mk (key fact)]
  simp only [MapKey.mk.injEq]

theorem oracleCurrent_eq (events : List AbEvent) :
    oracleCurrent events = sortBySeq (·.seq)
      ((designations events).foldl (fun (map : JsMap String PrAttachmentDesignationEvent) fact =>
        if decide (restartSeq events < fact.seq) = true then keepNewest (·.seq) map ⟨fact.kind⟩ fact
        else map) ∅).values := by
  rw [oracleCurrent, designations, List.foldl_filterMap]
  congr 4
  funext map event
  cases designation? event with
  | none => rfl
  | some designation =>
    by_cases hlater : restartSeq events < designation.seq
    · simp [hlater, Nat.not_le.mpr hlater]
    · simp [hlater, Nat.not_lt.mp hlater]

/-- The newest designation of every kind among those later than the restart. -/
theorem mem_oracleCurrent {events : List AbEvent} {designation : PrAttachmentDesignationEvent} :
    designation ∈ oracleCurrent events ↔
      newestFact (·.seq) ((designations events).filter (·.kind = designation.kind)) =
        some designation ∧
      restartSeq events < designation.seq := by
  rw [oracleCurrent_eq, mem_sortBySeq, ObjectMap.mem_values]
  have hget : ∀ kind : String, newestFact (·.seq)
      (((designations events).filter fun fact => restartSeq events < fact.seq).filter
        (·.kind = kind)) =
      (newestFact (·.seq) ((designations events).filter (·.kind = kind))).filter
        (restartSeq events < ·.seq) := by
    intro kind
    rw [← newestFact_filter_above, List.filter_filter, List.filter_filter]
    simp only [Bool.and_comm]
  constructor
  · rintro ⟨⟨kind⟩, hmap⟩
    rw [get?_foldMap, hget, Option.filter_eq_some_iff] at hmap
    have hkind : designation.kind = kind :=
      of_decide_eq_true (List.mem_filter.mp (newestFact_mem hmap.1)).2
    subst hkind
    exact ⟨hmap.1, of_decide_eq_true hmap.2⟩
  · rintro ⟨hnewest, hlater⟩
    refine ⟨⟨designation.kind⟩, ?_⟩
    rw [get?_foldMap, hget, Option.filter_eq_some_iff]
    exact ⟨hnewest, decide_eq_true hlater⟩

theorem nodup_currentPrAttachments (pieces : List (List AbEvent)) :
    (currentPrAttachments pieces).Nodup := by
  rw [currentPrAttachments_eq, foldl_foldDesignations, finishDesignations, sortBySeq,
    (List.mergeSort_perm _ _).nodup_iff]
  refine List.Nodup.filter _ (nodup_values (·.kind) fun kind designation hget => ?_)
  have hget := (get?_byKind _ kind).symm.trans hget
  exact of_decide_eq_true (List.mem_filter.mp (newestFact_mem hget)).2

theorem nodup_oracleCurrent (events : List AbEvent) : (oracleCurrent events).Nodup := by
  rw [oracleCurrent_eq, sortBySeq, (List.mergeSort_perm _ _).nodup_iff]
  refine nodup_values (fun designation => MapKey.mk designation.kind) ?_
  rintro ⟨kind⟩ designation hget
  rw [get?_foldMap] at hget
  exact congrArg MapKey.mk (of_decide_eq_true (List.mem_filter.mp (newestFact_mem hget)).2)

/-- No designation of the kind `__proto__` is later than the last restart. -/
def KeepsEveryKind (events : List AbEvent) : Prop :=
  ∀ designation ∈ designations events, designation.kind = "__proto__" →
    designation.seq ≤ restartSeq events

/-- The reducer has the same designations exactly where it keeps every kind. -/
theorem perm_current_iff (pieces : List (List AbEvent)) :
    (currentPrAttachments pieces).Perm (oracleCurrent pieces.flatten) ↔
      KeepsEveryKind pieces.flatten := by
  rw [List.perm_ext_iff_of_nodup (nodup_currentPrAttachments pieces) (nodup_oracleCurrent _)]
  constructor
  · intro hsame designation hmem hproto
    by_contra hlater
    -- The newest one of the kind is found by the scan, but not kept.
    have hkind : designation ∈ (designations pieces.flatten).filter (·.kind = "__proto__") :=
      List.mem_filter.mpr ⟨hmem, decide_eq_true hproto⟩
    obtain ⟨newest, hnewest⟩ := @newestFact_isSome _ (·.seq) _ _ hkind
    have hnewestKind : newest.kind = "__proto__" :=
      of_decide_eq_true (List.mem_filter.mp (newestFact_mem hnewest)).2
    have hle := seq_le_newestFact hnewest hkind
    have hfound : newest ∈ oracleCurrent pieces.flatten := by
      rw [mem_oracleCurrent, hnewestKind]
      exact ⟨hnewest, by omega⟩
    exact (mem_currentPrAttachments.mp ((hsame newest).mpr hfound)).1 hnewestKind
  · intro hkeeps designation
    rw [mem_currentPrAttachments, mem_oracleCurrent]
    refine ⟨And.right, fun h => ⟨fun hproto => ?_, h⟩⟩
    have hmem := (List.mem_filter.mp (newestFact_mem h.1)).1
    exact absurd (hkeeps designation hmem hproto) (Nat.not_le.mpr h.2)

theorem pairwise_sortBySeq {α : Type} (seq : α → Nat) (facts : List α) :
    (sortBySeq seq facts).Pairwise fun left right => seq left ≤ seq right := by
  let le := fun left right : α => decide (seq left ≤ seq right)
  have htrans : ∀ a b c, le a b = true → le b c = true → le a c = true := by
    intro a b c hab hbc
    exact decide_eq_true ((of_decide_eq_true hab).trans (of_decide_eq_true hbc))
  have htotal : ∀ a b, (le a b || le b a) = true := by
    intro a b
    simpa [le] using Nat.le_total (seq a) (seq b)
  exact (List.pairwise_mergeSort htrans htotal facts).imp of_decide_eq_true

theorem mem_designations {events : List AbEvent} {designation : PrAttachmentDesignationEvent}
    (h : designation ∈ designations events) : designation.event ∈ events := by
  obtain ⟨event, hevent, hdesignation⟩ := List.mem_filterMap.mp h
  rw [designation?_event hdesignation]
  exact hevent

/-- Events of distinct seqs hold one designation of a seq. -/
theorem designation_eq_of_seq {events : List AbEvent} (hdistinct : (events.map (·.seq)).Nodup)
    {d d' : PrAttachmentDesignationEvent} (hd : d ∈ designations events)
    (hd' : d' ∈ designations events) (hseq : d.seq = d'.seq) : d = d' := by
  have hevent : d.event = d'.event :=
    List.inj_on_of_nodup_map hdistinct (mem_designations hd) (mem_designations hd') hseq
  obtain ⟨event, payload, body⟩ := d
  obtain ⟨event', payload', body'⟩ := d'
  obtain rfl : event = event' := hevent
  obtain ⟨⟩ : EventBody.plain (.prAttachmentDesignated payload) = .plain _ := body.symm.trans body'
  rfl

theorem mem_designations_of_current {events : List AbEvent}
    {designation : PrAttachmentDesignationEvent} (h : designation ∈ oracleCurrent events) :
    designation ∈ designations events :=
  (List.mem_filter.mp (newestFact_mem (mem_oracleCurrent.mp h).1)).1

theorem current_eq_of_perm {pieces : List (List AbEvent)}
    (hdistinct : (pieces.flatten.map (·.seq)).Nodup)
    (h : (currentPrAttachments pieces).Perm (oracleCurrent pieces.flatten)) :
    currentPrAttachments pieces = oracleCurrent pieces.flatten := by
  have hleft : (currentPrAttachments pieces).Pairwise fun d d' => d.seq ≤ d'.seq := by
    rw [currentPrAttachments_eq, finishDesignations]
    exact pairwise_sortBySeq _ _
  have hright : (oracleCurrent pieces.flatten).Pairwise fun d d' => d.seq ≤ d'.seq := by
    rw [oracleCurrent_eq]
    exact pairwise_sortBySeq _ _
  refine List.Perm.eq_of_pairwise ?_ hleft hright h
  intro d d' hd hd' hle hge
  exact designation_eq_of_seq hdistinct (mem_designations_of_current (h.mem_iff.mp hd))
    (mem_designations_of_current hd') (Nat.le_antisymm hle hge)

/-! ## 6. Hosted copies -/

/-- The newest copy of a designation, where it is later than the designation. -/
def hostedCopy (events : List AbEvent) (seq : Nat) : Option PrAttachmentHostedEvent :=
  (newestFact (·.seq) ((copies events).filter (·.designationSeq = seq))).filter (seq < ·.seq)

theorem get?_finishHosted (acc : HostedPrAttachmentsAcc)
    (current : List PrAttachmentDesignationEvent) (seq : Nat) :
    (finishHosted acc current).get? ⟨seq⟩ =
      if seq ∈ current.map (·.seq) then (acc.hostedByDesignation.get? seq).filter (seq < ·.seq)
      else none := by
  unfold finishHosted
  induction current using List.reverseRecOn with
  | nil => rfl
  | append_singleton current designation ih =>
    rw [List.foldl_append, List.foldl_cons, List.foldl_nil]
    by_cases hseq : designation.seq = seq
    · subst hseq
      rw [if_pos (by simp)]
      cases hget : acc.hostedByDesignation.get? designation.seq with
      | none =>
        rw [hget] at ih
        simpa using ih
      | some event =>
        by_cases hlater : designation.seq < event.seq
        · simp [hlater, Option.filter]
        · rw [hget] at ih
          simpa [hlater, Option.filter] using ih
    · simp only [List.map_append, List.map_cons, List.map_nil, List.mem_append,
        List.mem_singleton, Ne.symm hseq, or_false]
      rw [← ih]
      split
      · split
        · exact ObjectMap.get?_set_ne _ _ fun h => hseq (MapKey.mk.inj h).symm
        · rfl
      · rfl

theorem get?_hostedPrAttachments (pieces : List (List AbEvent)) (seq : Nat) :
    (hostedPrAttachments pieces).get? ⟨seq⟩ =
      if seq ∈ (currentPrAttachments pieces).map (·.seq) then hostedCopy pieces.flatten seq
      else none := by
  rw [hostedPrAttachments, currentPrAttachments_eq, ← List.foldl_flatten, foldl_foldHosted]
  refine (get?_finishHosted _ _ seq).trans ?_
  dsimp only
  rw [get?_foldNewest]
  rfl

/-- A `Map` of designations by their seq has the seqs they have. -/
theorem get?_bySeq (current : List PrAttachmentDesignationEvent) (seq : Nat) :
    match (current.foldl (fun (bySeq : JsMap Nat PrAttachmentDesignationEvent) designation =>
      bySeq.set ⟨designation.seq⟩ designation) ∅).get? ⟨seq⟩ with
    | some designation => designation.seq = seq ∧ seq ∈ current.map (·.seq)
    | none => seq ∉ current.map (·.seq) := by
  induction current using List.reverseRecOn with
  | nil => exact List.not_mem_nil
  | append_singleton current designation ih =>
    rw [List.foldl_append, List.foldl_cons, List.foldl_nil, ObjectMap.get?_set]
    by_cases hseq : designation.seq = seq
    · simp [hseq]
    · have hkey : ¬(MapKey.mk seq = MapKey.mk designation.seq) :=
        fun h => hseq (MapKey.mk.inj h).symm
      rw [if_neg hkey]
      simpa [Ne.symm hseq] using ih

theorem oracleHosted_eq (events : List AbEvent) :
    oracleHosted events = (copies events).foldl
      (fun (map : JsMap Nat PrAttachmentHostedEvent) fact =>
        if decide (fact.designationSeq ∈ (oracleCurrent events).map (·.seq) ∧
            fact.designationSeq < fact.seq) = true then
          keepNewest (·.seq) map ⟨fact.designationSeq⟩ fact
        else map) ∅ := by
  rw [oracleHosted, copies, List.foldl_filterMap]
  congr 1
  funext map event
  cases hosted? event with
  | none => rfl
  | some hosted =>
    have hfound := get?_bySeq (oracleCurrent events) hosted.designationSeq
    dsimp only
    split at hfound
    · rename_i designation hget
      obtain ⟨hseq, hmem⟩ := hfound
      rw [hget]
      dsimp only
      rw [hseq]
      by_cases hlater : hosted.designationSeq < hosted.seq
      · rw [if_neg (Nat.not_le.mpr hlater), if_pos (decide_eq_true ⟨hmem, hlater⟩)]
      · rw [if_pos (Nat.not_lt.mp hlater), if_neg fun h => hlater (of_decide_eq_true h).2]
    · rename_i hget
      rw [hget, if_neg fun h => hfound (of_decide_eq_true h).1]

theorem get?_oracleHosted (events : List AbEvent) (seq : Nat) :
    (oracleHosted events).get? ⟨seq⟩ =
      if seq ∈ (oracleCurrent events).map (·.seq) then hostedCopy events seq else none := by
  rw [oracleHosted_eq]
  refine (get?_foldMap PrAttachmentHostedEvent.designationSeq _ _ seq).trans ?_
  by_cases hmem : seq ∈ (oracleCurrent events).map (·.seq)
  · rw [if_pos hmem, hostedCopy, ← newestFact_filter_above, List.filter_filter, List.filter_filter]
    congr 1
    refine List.filter_congr fun hosted _ => ?_
    by_cases hseq : hosted.designationSeq = seq
    · subst hseq
      simp [hmem]
    · simp [hseq]
  · rw [if_neg hmem]
    have hempty : ((copies events).filter fun fact =>
        decide (fact.designationSeq ∈ (oracleCurrent events).map (·.seq) ∧
          fact.designationSeq < fact.seq)).filter (·.designationSeq = seq) = [] := by
      rw [List.filter_filter, List.filter_eq_nil_iff]
      intro hosted _ hread
      simp only [Bool.and_eq_true, decide_eq_true_eq] at hread
      exact hmem (hread.1 ▸ hread.2.1)
    rw [hempty]
    rfl

theorem hosted_eq_of_perm {pieces : List (List AbEvent)}
    (h : (currentPrAttachments pieces).Perm (oracleCurrent pieces.flatten)) (seq : Nat) :
    (hostedPrAttachments pieces).get? ⟨seq⟩ = (oracleHosted pieces.flatten).get? ⟨seq⟩ := by
  rw [get?_hostedPrAttachments, get?_oracleHosted]
  simp only [(h.map (·.seq)).mem_iff]

/-! ## 7. Reclaims -/

theorem isHosted_iff {event : AbEvent} : isHosted event = true ↔
    ∃ designationSeq asset, event.body = .plain (.prAttachmentHosted designationSeq asset) := by
  unfold isHosted
  split
  · rename_i designationSeq asset hbody
    exact ⟨fun _ => ⟨designationSeq, asset, hbody⟩, fun _ => rfl⟩
  · rename_i hother
    exact ⟨nofun, fun ⟨designationSeq, asset, hbody⟩ => absurd hbody (hother _ _)⟩

theorem reclaims_fold_hosted (acc : PendingPrAttachmentReclaimsAcc) (event : AbEvent) :
    (acc.fold event).hosted = acc.hosted ++ [event].filter isHosted := by
  unfold PendingPrAttachmentReclaimsAcc.fold
  split
  · rename_i designationSeq asset hbody
    rw [List.filter_cons_of_pos (isHosted_iff.mpr ⟨_, _, hbody⟩)]
    rfl
  · rename_i hostedSeq hbody
    have hnot : ¬isHosted event = true := by
      rw [isHosted_iff, hbody]
      exact nofun
    rw [List.filter_cons_of_neg hnot, List.filter_nil, List.append_nil]
    split
    · split <;> rfl
    · rfl
  · rename_i hhosted _
    have hnot : ¬isHosted event = true := by
      rw [isHosted_iff]
      rintro ⟨designationSeq, asset, hbody⟩
      exact hhosted _ _ hbody
    rw [List.filter_cons_of_neg hnot, List.filter_nil, List.append_nil]

/-- A reclaim of the copy of `seq` that is later than it. -/
def Reclaims (seq : Nat) (event : AbEvent) : Prop :=
  event.body = .plain (.prAttachmentReclaimed seq) ∧ seq < event.seq

theorem reclaims_fold_reclaimed (acc : PendingPrAttachmentReclaimsAcc) (event : AbEvent)
    (seq : Nat) :
    (acc.fold event).reclaimed seq = true ↔ acc.reclaimed seq = true ∨ Reclaims seq event := by
  by_cases hreclaim : ∃ hostedSeq, event.body = .plain (.prAttachmentReclaimed hostedSeq)
  · obtain ⟨hostedSeq, hbody⟩ := hreclaim
    rw [acc.reclaimed_fold hbody, Reclaims, hbody]
    refine or_congr_right ?_
    constructor
    · rintro ⟨rfl, hlater⟩
      exact ⟨rfl, hlater⟩
    · rintro ⟨hsame, hlater⟩
      obtain ⟨⟩ : EventBody.plain (.prAttachmentReclaimed hostedSeq) = .plain _ := hsame
      exact ⟨rfl, hlater⟩
  · have hsame : (acc.fold event).reclaimedAt = acc.reclaimedAt := by
      unfold PendingPrAttachmentReclaimsAcc.fold
      split
      · rfl
      · exact absurd ⟨_, ‹_›⟩ hreclaim
      · rfl
    have hreclaimed : (acc.fold event).reclaimed seq = acc.reclaimed seq := by
      rw [PendingPrAttachmentReclaimsAcc.reclaimed, hsame]
      rfl
    rw [hreclaimed]
    exact ⟨.inl, fun h => h.resolve_right fun h => hreclaim ⟨seq, h.1⟩⟩

theorem foldl_reclaims (acc : PendingPrAttachmentReclaimsAcc) (events : List AbEvent) :
    (events.foldl PendingPrAttachmentReclaimsAcc.fold acc).hosted =
        acc.hosted ++ events.filter isHosted ∧
      ∀ seq, (events.foldl PendingPrAttachmentReclaimsAcc.fold acc).reclaimed seq = true ↔
        acc.reclaimed seq = true ∨ ∃ event ∈ events, Reclaims seq event := by
  induction events generalizing acc with
  | nil => simp
  | cons event rest ih =>
    rw [List.foldl_cons]
    obtain ⟨hhosted, hreclaimed⟩ := ih (acc.fold event)
    constructor
    · rw [hhosted, reclaims_fold_hosted, List.append_assoc, ← List.filter_append]
      rfl
    · intro seq
      rw [hreclaimed, reclaims_fold_reclaimed, or_assoc, List.exists_mem_cons_iff]

theorem pendingReclaims_eq (pieces : List (List AbEvent)) :
    pendingReclaims pieces = oracleReclaims pieces.flatten := by
  rw [pendingReclaims, ← List.foldl_flatten]
  obtain ⟨hhosted, hreclaimed⟩ :=
    foldl_reclaims PendingPrAttachmentReclaimsAcc.initial pieces.flatten
  rw [PendingPrAttachmentReclaimsAcc.finish, hhosted, oracleReclaims]
  refine List.filter_congr fun event hevent => ?_
  have hseq : event.seq ∈ (sortBySeq (·.seq) (pieces.flatten.filter isHosted)).map (·.seq) :=
    List.mem_map_of_mem hevent
  rw [Bool.eq_iff_iff, Bool.not_eq_true', ← Bool.not_eq_true, hreclaimed, decide_eq_true_iff]
  refine not_congr ?_
  simp only [List.mem_filterMap]
  constructor
  · rintro (hnone | ⟨reclaim, hmem, hbody, hlater⟩)
    · exact absurd hnone Bool.false_ne_true
    · refine ⟨reclaim, hmem, ?_⟩
      rw [hbody]
      exact if_pos ⟨hseq, hlater⟩
  · rintro ⟨reclaim, hmem, hdone⟩
    refine .inr ⟨reclaim, hmem, ?_⟩
    split at hdone
    · rename_i hostedSeq hbody
      obtain ⟨⟨-, hlater⟩, hsame⟩ := Option.ite_none_right_eq_some.mp hdone
      obtain rfl := Option.some.inj hsame
      exact ⟨hbody, hlater⟩
    · exact nomatch hdone

/-! ## 8. Reducers and scans -/

/-- The reducers over the pieces of an array answer as the scans over all of it, the current
attachments up to `same`. -/
structure AttachmentsAgree
    (same : List PrAttachmentDesignationEvent → List PrAttachmentDesignationEvent → Prop)
    (pieces : List (List AbEvent)) : Prop where
  current : same (currentPrAttachments pieces) (oracleCurrent pieces.flatten)
  hosted : ∀ seq, (hostedPrAttachments pieces).get? ⟨seq⟩ =
    (oracleHosted pieces.flatten).get? ⟨seq⟩
  reclaims : pendingReclaims pieces = oracleReclaims pieces.flatten

/-- The reducers answer as the scans exactly where no designation of the kind `__proto__` is
later than the last restart; where events share a seq, up to the order of the designations that
do. -/
theorem pr_attachments_agree_iff (pieces : List (List AbEvent)) :
    (AttachmentsAgree List.Perm pieces ↔ KeepsEveryKind pieces.flatten) ∧
      ((pieces.flatten.map (·.seq)).Nodup →
        (AttachmentsAgree Eq pieces ↔ KeepsEveryKind pieces.flatten)) := by
  have hagree : KeepsEveryKind pieces.flatten → AttachmentsAgree List.Perm pieces := by
    intro hkeeps
    have hperm := (perm_current_iff pieces).mpr hkeeps
    exact ⟨hperm, hosted_eq_of_perm hperm, pendingReclaims_eq pieces⟩
  constructor
  · exact ⟨fun h => (perm_current_iff pieces).mp h.current, hagree⟩
  · intro hdistinct
    constructor
    · intro h
      refine (perm_current_iff pieces).mp ?_
      rw [h.current]
    · intro hkeeps
      have h := hagree hkeeps
      exact ⟨current_eq_of_perm hdistinct h.current, h.hosted, h.reclaims⟩

/-- One artifact of a kind is designated. -/
def designationOf (kind : String) : AbEvent :=
  { seq := 1, ts := 0, actor := .agent "implement" "s1"
    body := .plain (.prAttachmentDesignated ⟨⟨kind, 0⟩, "home.png", "image/png"⟩) }

theorem pr_attachments_disagree_of_proto :
    ¬AttachmentsAgree Eq [[designationOf "__proto__"]] := by
  intro h
  have hperm : (currentPrAttachments [[designationOf "__proto__"]]).Perm
      (oracleCurrent [designationOf "__proto__"]) := by
    rw [h.current]
    rfl
  have hkeeps := (perm_current_iff _).mp hperm
  exact absurd (hkeeps _ (List.mem_singleton.mpr rfl) rfl) (by decide)

/-- Designations before and after a restart, one of them replaced. -/
def designatedPieces : List (List AbEvent) :=
  [[designationOf "__proto__", { designationOf "visual:home" with seq := 2 }],
   [⟨3, 0, .human "operator" none, .spec (.revised ⟨"spec", 2⟩ none)⟩,
    { designationOf "visual:home" with seq := 4 }],
   [{ designationOf "visual:menu" with seq := 5 }, { designationOf "visual:home" with seq := 6 }]]

theorem pr_attachments_agree_of_image : AttachmentsAgree Eq designatedPieces :=
  ((pr_attachments_agree_iff _).2 (by decide)).mpr (by
    unfold KeepsEveryKind
    decide)

end Autobuild
