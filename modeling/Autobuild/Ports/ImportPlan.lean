/-
# The plan of an import does not depend on how far it came

A ticket that was created is adopted under the id it was planned, so that every other ticket finds
the same ids occupied and is planned the same id again.

* `plannedId_create`, `TicketsAccepted.create`: a creation keeps the plan and the checks.
* `Resumable.creates`, `Resumable.edits`: and so does every prefix of an import.
-/
import Autobuild.Ports.TicketImport

namespace Autobuild

/-! ## 1. Adopted tickets -/

theorem adopted?_append (target rest : List TargetTicket) (key : String) :
    adopted? (target ++ rest) key = (adopted? target key).or (adopted? rest key) :=
  List.find?_append

theorem adopted?_created (key id : String) (kind : Option TicketKind) (key' : String) :
    adopted? [TargetTicket.created key id kind] key'
      = if key = key' then some (TargetTicket.created key id kind) else none := by
  by_cases h : key = key' <;> simp [adopted?, TargetTicket.created, h]

theorem adopted?_map {f : TargetTicket → TargetTicket}
    (hkey : ∀ ticket, (f ticket).creationKey = ticket.creationKey) (target : List TargetTicket)
    (key : String) : adopted? (target.map f) key = (adopted? target key).map f := by
  unfold adopted?
  rw [List.find?_map]
  simp only [Function.comp_def, hkey]

theorem creationKey_of_adopted? {target : List TargetTicket} {key : String} {ticket : TargetTicket}
    (h : adopted? target key = some ticket) : ticket ∈ target ∧ ticket.creationKey = some key :=
  ⟨List.mem_of_find?_eq_some h, by simpa using List.find?_some h⟩

theorem key_notMem_of_adopted?_none {target : List TargetTicket} {key : String}
    (h : adopted? target key = none) : key ∉ target.filterMap (·.creationKey) := by
  intro hmem
  obtain ⟨ticket, hticket, hkey⟩ := List.mem_filterMap.mp hmem
  have hnot := List.find?_eq_none.mp h ticket hticket
  simp [hkey] at hnot

section Plan

variable {source : ImportTarget} {manifest : ImportManifest} {target : List TargetTicket}

theorem keptId_of_adopted {ticket : ImportTicket}
    (h : (adopted? target (manifest.keyOf ticket)).isSome) :
    keptId source manifest target ticket = none := by
  obtain ⟨adopted, hadopted⟩ := Option.isSome_iff_exists.mp h
  simp only [keptId, hadopted]

theorem isUnplanned_of_adopted {ticket : ImportTicket}
    (h : (adopted? target (manifest.keyOf ticket)).isSome) :
    isUnplanned source manifest target ticket = false := by
  obtain ⟨adopted, hadopted⟩ := Option.isSome_iff_exists.mp h
  simp only [isUnplanned, hadopted, Option.isNone_some, Bool.false_and]

/-! ## 2. What is left to plan -/

variable {done rest : List ImportTicket}

theorem occupiedIds_of_adopted
    (h : ∀ ticket ∈ done, (adopted? target (manifest.keyOf ticket)).isSome) :
    occupiedIds source manifest target (done ++ rest)
      = occupiedIds source manifest target rest := by
  have hnone : done.filterMap (keptId source manifest target) = [] :=
    List.filterMap_eq_nil_iff.mpr fun ticket ht => keptId_of_adopted (h ticket ht)
  simp only [occupiedIds, List.filterMap_append, hnone, List.nil_append]

theorem unplanned_of_adopted
    (h : ∀ ticket ∈ done, (adopted? target (manifest.keyOf ticket)).isSome) :
    (done ++ rest).filter (isUnplanned source manifest target)
      = rest.filter (isUnplanned source manifest target) := by
  have hnil : done.filter (isUnplanned source manifest target) = [] :=
    List.filter_eq_nil_iff.mpr fun ticket ht => by simp [isUnplanned_of_adopted (h ticket ht)]
  rw [List.filter_append, hnil, List.nil_append]

theorem allocateAll_congr {occupied occupied' : List String}
    (h : ∀ id, id ∈ occupied ↔ id ∈ occupied') (tickets : List ImportTicket) :
    allocateAll source occupied tickets = allocateAll source occupied' tickets := by
  induction tickets generalizing occupied occupied' with
  | nil => rfl
  | cons ticket tickets ih =>
    have hallocate := source.allocate_congr occupied occupied' h
    have hgrown : ∀ id, id ∈ occupied ++ [source.allocate occupied]
        ↔ id ∈ occupied' ++ [source.allocate occupied'] := by
      intro id
      simp only [List.mem_append, h id, hallocate]
    simp only [allocateAll]
    rw [ih hgrown, hallocate]

/-- No clash is reported exactly if no id is taken twice. -/
theorem clashes_eq_nil_iff {occupied : List String} (h : occupied.Nodup)
    (tickets : List ImportTicket) :
    clashes source manifest target occupied tickets = []
      ↔ (occupied ++ tickets.filterMap (keptId source manifest target)).Nodup := by
  induction tickets generalizing occupied with
  | nil => simpa [clashes] using h
  | cons ticket tickets ih =>
    cases hkept : keptId source manifest target ticket with
    | none => simpa only [clashes, hkept, List.filterMap_cons_none hkept] using ih h
    | some kept =>
      simp only [clashes, hkept, List.filterMap_cons_some hkept, List.append_eq_nil_iff]
      by_cases hmem : kept ∈ occupied
      · simp only [hmem, if_true, List.cons_ne_nil, false_and, false_iff]
        exact fun hnodup => List.disjoint_of_nodup_append hnodup hmem List.mem_cons_self
      · have hgrown : (occupied ++ [kept]).Nodup :=
          List.nodup_append_comm.mp (List.nodup_cons.mpr ⟨hmem, h⟩)
        simp only [hmem, if_false, true_and]
        rw [ih hgrown, List.append_assoc, List.singleton_append]

/-! ## 3. One creation -/

section Create

variable {ticket : ImportTicket} {id : String} {kind : Option TicketKind}

/-- The target after `ticket` was created. -/
def withCreated (manifest : ImportManifest) (target : List TargetTicket) (ticket : ImportTicket)
    (id : String) (kind : Option TicketKind) : List TargetTicket :=
  target ++ [TargetTicket.created (manifest.keyOf ticket) id kind]

theorem adopted?_withCreated_self (hnew : adopted? target (manifest.keyOf ticket) = none) :
    adopted? (withCreated manifest target ticket id kind) (manifest.keyOf ticket)
      = some (TargetTicket.created (manifest.keyOf ticket) id kind) := by
  rw [withCreated, adopted?_append, hnew, adopted?_created, if_pos rfl, Option.none_or]

theorem adopted?_withCreated_of_ne {key : String} (hne : manifest.keyOf ticket ≠ key) :
    adopted? (withCreated manifest target ticket id kind) key = adopted? target key := by
  rw [withCreated, adopted?_append, adopted?_created, if_neg hne, Option.or_none]

/-- What one creation changes for the tickets before and after the one that is created. -/
structure CreateStep (manifest : ImportManifest) (target : List TargetTicket)
    (done : List ImportTicket) (ticket : ImportTicket) (rest : List ImportTicket) : Prop where
  adopted : ∀ other ∈ done, (adopted? target (manifest.keyOf other)).isSome
  new : adopted? target (manifest.keyOf ticket) = none
  ids : ((done ++ ticket :: rest).map (·.id)).Nodup
  keys : ((done ++ ticket :: rest).map manifest.keyOf).Nodup

namespace CreateStep

theorem key_ne (h : CreateStep manifest target done ticket rest) {other : ImportTicket}
    (hother : other ∈ rest) : manifest.keyOf ticket ≠ manifest.keyOf other := by
  intro heq
  have hkeys := h.keys
  rw [List.map_append, List.map_cons] at hkeys
  have hrest := (List.nodup_cons.mp (List.Nodup.of_append_right hkeys)).1
  exact hrest (heq ▸ List.mem_map_of_mem hother)

theorem id_ne (h : CreateStep manifest target done ticket rest) {other : ImportTicket}
    (hother : other ∈ rest) : ticket.id ≠ other.id := by
  intro heq
  have hids := h.ids
  rw [List.map_append, List.map_cons] at hids
  have hrest := (List.nodup_cons.mp (List.Nodup.of_append_right hids)).1
  exact hrest (heq ▸ List.mem_map_of_mem (f := fun ticket : ImportTicket => ticket.id) hother)

theorem adopted_rest (h : CreateStep manifest target done ticket rest) {other : ImportTicket}
    (hother : other ∈ rest) :
    adopted? (withCreated manifest target ticket id kind) (manifest.keyOf other)
      = adopted? target (manifest.keyOf other) :=
  adopted?_withCreated_of_ne (h.key_ne hother)

theorem adopted_done (h : CreateStep manifest target done ticket rest) {other : ImportTicket}
    (hother : other ∈ done) :
    adopted? (withCreated manifest target ticket id kind) (manifest.keyOf other)
      = adopted? target (manifest.keyOf other) := by
  obtain ⟨adopted, hadopted⟩ := Option.isSome_iff_exists.mp (h.adopted other hother)
  rw [withCreated, adopted?_append, hadopted, Option.some_or]

/-- The ticket that was created is done as well. -/
theorem adopted_after (h : CreateStep manifest target done ticket rest) :
    ∀ other ∈ done ++ [ticket],
      (adopted? (withCreated manifest target ticket id kind) (manifest.keyOf other)).isSome := by
  intro other hother
  rcases List.mem_append.mp hother with hother | hother
  · rw [h.adopted_done hother]
    exact h.adopted other hother
  · rw [List.mem_singleton.mp hother, adopted?_withCreated_self h.new]
    rfl

theorem kept_rest (h : CreateStep manifest target done ticket rest) :
    rest.filterMap (keptId source manifest (withCreated manifest target ticket id kind))
      = rest.filterMap (keptId source manifest target) :=
  List.filterMap_congr fun other hother => by simp only [keptId, h.adopted_rest hother]

theorem unplanned_rest (h : CreateStep manifest target done ticket rest) :
    rest.filter (isUnplanned source manifest (withCreated manifest target ticket id kind))
      = rest.filter (isUnplanned source manifest target) :=
  List.filter_congr fun other hother => by simp only [isUnplanned, h.adopted_rest hother]

/-- What is occupied after the creation, and who is left without an id. -/
theorem occupiedIds_after (h : CreateStep manifest target done ticket rest) :
    occupiedIds source manifest (withCreated manifest target ticket id kind)
        (done ++ ticket :: rest)
      = target.map (·.id) ++ id :: rest.filterMap (keptId source manifest target) := by
  rw [List.append_cons, occupiedIds_of_adopted h.adopted_after, occupiedIds, h.kept_rest]
  simp [withCreated, TargetTicket.created]

theorem unplanned_after (h : CreateStep manifest target done ticket rest) :
    (done ++ ticket :: rest).filter
        (isUnplanned source manifest (withCreated manifest target ticket id kind))
      = rest.filter (isUnplanned source manifest target) := by
  rw [List.append_cons, unplanned_of_adopted h.adopted_after, h.unplanned_rest]

/-- A ticket that keeps its id occupies what it was going to. -/
theorem kept (h : CreateStep manifest target done ticket rest)
    (hkept : source.preserve ticket.id = some id) :
    plannedId source manifest target (done ++ ticket :: rest) ticket = id
      ∧ occupiedIds source manifest target (done ++ ticket :: rest)
          = target.map (·.id) ++ id :: rest.filterMap (keptId source manifest target)
      ∧ (done ++ ticket :: rest).filter (isUnplanned source manifest target)
          = rest.filter (isUnplanned source manifest target) := by
  have hself : keptId source manifest target ticket = some id := by
    simp only [keptId, h.new, hkept]
  refine ⟨by simp only [plannedId, h.new, hkept], ?_, ?_⟩
  · rw [occupiedIds_of_adopted h.adopted, occupiedIds, List.filterMap_cons_some hself]
  · rw [unplanned_of_adopted h.adopted, List.filter_cons_of_neg (by simp [isUnplanned, hkept])]

/-- A ticket without an id is the first one that is allocated one. -/
theorem allocated (h : CreateStep manifest target done ticket rest)
    (hkept : source.preserve ticket.id = none) :
    plannedId source manifest target (done ++ ticket :: rest) ticket
        = source.allocate (occupiedIds source manifest target (done ++ ticket :: rest))
      ∧ occupiedIds source manifest target (done ++ ticket :: rest)
          = target.map (·.id) ++ rest.filterMap (keptId source manifest target)
      ∧ (done ++ ticket :: rest).filter (isUnplanned source manifest target)
          = ticket :: rest.filter (isUnplanned source manifest target) := by
  have hself : keptId source manifest target ticket = none := by
    simp only [keptId, h.new, hkept]
  have hunplanned : (done ++ ticket :: rest).filter (isUnplanned source manifest target)
      = ticket :: rest.filter (isUnplanned source manifest target) := by
    rw [unplanned_of_adopted h.adopted,
      List.filter_cons_of_pos (by simp [isUnplanned, h.new, hkept])]
  refine ⟨?_, ?_, hunplanned⟩
  · simp only [plannedId, h.new, hkept, hunplanned, allocateAll, List.lookup_cons,
      beq_self_eq_true, Option.getD_some]
  · rw [occupiedIds_of_adopted h.adopted, occupiedIds, List.filterMap_cons_none hself]

/-- The second loop allocates the same ids to the tickets that come after. -/
theorem lookup_rest (h : CreateStep manifest target done ticket rest)
    (hid : id = plannedId source manifest target (done ++ ticket :: rest) ticket)
    {other : ImportTicket} (hother : other ∈ rest) :
    (allocateAll source
        (occupiedIds source manifest (withCreated manifest target ticket id kind)
          (done ++ ticket :: rest))
        ((done ++ ticket :: rest).filter
          (isUnplanned source manifest (withCreated manifest target ticket id kind)))).lookup
            other.id
      = (allocateAll source (occupiedIds source manifest target (done ++ ticket :: rest))
          ((done ++ ticket :: rest).filter (isUnplanned source manifest target))).lookup
          other.id := by
  rw [h.occupiedIds_after, h.unplanned_after]
  cases hkept : source.preserve ticket.id with
  | some kept =>
    obtain ⟨hplanned, hoccupied, hunplanned⟩ := h.kept hkept
    rw [hoccupied, hunplanned, hid, hplanned]
  | none =>
    obtain ⟨hplanned, hoccupied, hunplanned⟩ := h.allocated hkept
    have hne : (other.id == ticket.id) = false := by simpa using (h.id_ne hother).symm
    rw [hunplanned, allocateAll, List.lookup_cons, hne, hid, hplanned]
    refine congrArg _ (allocateAll_congr ?_ _)
    intro name
    rw [hoccupied]
    simp only [List.mem_append, List.mem_cons, List.not_mem_nil, or_false]
    tauto

/-- **A creation keeps the plan** of every ticket. -/
theorem plannedId_eq (h : CreateStep manifest target done ticket rest)
    (hid : id = plannedId source manifest target (done ++ ticket :: rest) ticket)
    {other : ImportTicket} (hother : other ∈ done ++ ticket :: rest) :
    plannedId source manifest (withCreated manifest target ticket id kind)
        (done ++ ticket :: rest) other
      = plannedId source manifest target (done ++ ticket :: rest) other := by
  rcases List.mem_append.mp hother with hdone | hrest
  · obtain ⟨adopted, hadopted⟩ := Option.isSome_iff_exists.mp (h.adopted other hdone)
    simp only [plannedId, h.adopted_done hdone, hadopted]
  rcases List.mem_cons.mp hrest with rfl | hrest
  · rw [← hid, plannedId, adopted?_withCreated_self h.new]
    rfl
  · unfold plannedId
    rw [h.adopted_rest hrest, h.lookup_rest hid hrest]

/-- No id is taken twice after the creation. -/
theorem occupiedIds_nodup (h : CreateStep manifest target done ticket rest)
    (hid : id = plannedId source manifest target (done ++ ticket :: rest) ticket)
    (hnodup : (occupiedIds source manifest target (done ++ ticket :: rest)).Nodup) :
    (occupiedIds source manifest (withCreated manifest target ticket id kind)
      (done ++ ticket :: rest)).Nodup := by
  rw [h.occupiedIds_after]
  cases hkept : source.preserve ticket.id with
  | some kept =>
    obtain ⟨hplanned, hoccupied, -⟩ := h.kept hkept
    rw [hid, hplanned, ← hoccupied]
    exact hnodup
  | none =>
    obtain ⟨hplanned, hoccupied, -⟩ := h.allocated hkept
    have hfresh := source.allocate_fresh
      (occupiedIds source manifest target (done ++ ticket :: rest))
    rw [← hplanned, ← hid, hoccupied] at hfresh
    rw [hoccupied] at hnodup
    exact List.nodup_middle.mpr (List.nodup_cons.mpr ⟨hfresh, hnodup⟩)

end CreateStep

end Create

end Plan

/-! ## 4. Runs -/

section Runs

variable {source : ImportTarget} {manifest : ImportManifest} {tickets : List ImportTicket}
  {target target' : List TargetTicket}

namespace TicketsAccepted

theorem occupied (h : TicketsAccepted source manifest tickets target) :
    (occupiedIds source manifest target tickets).Nodup :=
  (clashes_eq_nil_iff h.targetIds tickets).mp h.unclashed

theorem of_occupied (h : TicketsAccepted source manifest tickets target)
    (hkeys : (target'.filterMap (·.creationKey)).Nodup)
    (hoccupied : (occupiedIds source manifest target' tickets).Nodup) :
    TicketsAccepted source manifest tickets target' where
  ids := h.ids
  keys := h.keys
  targetIds := List.Nodup.of_append_left hoccupied
  targetKeys := hkeys
  unclashed := (clashes_eq_nil_iff (List.Nodup.of_append_left hoccupied) tickets).mpr hoccupied

theorem mappedId_eq (h : TicketsAccepted source manifest tickets target) (from' : List TargetTicket)
    {ticket : ImportTicket} (hticket : ticket ∈ tickets) :
    mappedId source manifest from' tickets ticket.id
      = plannedId source manifest from' tickets ticket := by
  have hsome : (tickets.find? (·.id = ticket.id)).isSome :=
    List.find?_isSome.mpr ⟨ticket, hticket, by simp⟩
  obtain ⟨found, hfound⟩ := Option.isSome_iff_exists.mp hsome
  have hid : found.id = ticket.id := by simpa using List.find?_some hfound
  have heq : found = ticket :=
    List.inj_on_of_nodup_map h.ids (List.mem_of_find?_eq_some hfound) hticket hid
  simp only [mappedId, hfound, heq]

end TicketsAccepted

/-- An import that came as far as creating `done`: it is accepted again, with the same plan. -/
structure Resumable (source : ImportTarget) (manifest : ImportManifest)
    (tickets : List ImportTicket) (target target' : List TargetTicket)
    (done : List ImportTicket) : Prop where
  accepted : TicketsAccepted source manifest tickets target'
  planned : ∀ ticket ∈ tickets, plannedId source manifest target' tickets ticket
    = plannedId source manifest target tickets ticket
  adopted : ∀ ticket ∈ done, (adopted? target' (manifest.keyOf ticket)).isSome

namespace Resumable

variable {done rest : List ImportTicket}

theorem create {ticket : ImportTicket} {kind : Option TicketKind}
    (h : Resumable source manifest (done ++ ticket :: rest) target target' done) :
    Resumable source manifest (done ++ ticket :: rest) target
      ((ImportWrite.create (manifest.keyOf ticket)
        (mappedId source manifest target (done ++ ticket :: rest) ticket.id) kind).run target')
      (done ++ [ticket]) := by
  have hmem : ticket ∈ done ++ ticket :: rest := List.mem_append_right _ List.mem_cons_self
  cases hnew : adopted? target' (manifest.keyOf ticket) with
  | some adopted =>
    -- the key is there: nothing is created
    simp only [ImportWrite.run, hnew, Option.isSome_some, if_true]
    refine ⟨h.accepted, h.planned, fun other hother => ?_⟩
    rcases List.mem_append.mp hother with hother | hother
    · exact h.adopted other hother
    · rw [List.mem_singleton.mp hother, hnew]
      rfl
  | none =>
    have hstep : CreateStep manifest target' done ticket rest :=
      ⟨h.adopted, hnew, h.accepted.ids, h.accepted.keys⟩
    have hid : mappedId source manifest target (done ++ ticket :: rest) ticket.id
        = plannedId source manifest target' (done ++ ticket :: rest) ticket :=
      (h.accepted.mappedId_eq target hmem).trans (h.planned ticket hmem).symm
    simp only [ImportWrite.run, hnew, Option.isSome_none, Bool.false_eq_true, if_false]
    refine ⟨h.accepted.of_occupied ?_ (hstep.occupiedIds_nodup hid h.accepted.occupied),
      fun other hother => (hstep.plannedId_eq hid hother).trans (h.planned other hother),
      hstep.adopted_after⟩
    rw [List.filterMap_append]
    exact List.nodup_append_comm.mp (List.nodup_cons.mpr
      ⟨key_notMem_of_adopted?_none hnew, h.accepted.targetKeys⟩)

/-- The creations of a prefix. -/
theorem creates (h : TicketsAccepted source manifest tickets target)
    (hsplit : tickets = done ++ rest) :
    Resumable source manifest tickets target
      (runImport (importCreates source manifest done (mappedId source manifest target tickets))
        target) done := by
  induction done using List.reverseRecOn generalizing rest with
  | nil => exact ⟨h, fun _ _ => rfl, fun _ hmem => absurd hmem List.not_mem_nil⟩
  | append_singleton done ticket ih =>
    rw [List.append_assoc, List.singleton_append] at hsplit
    have hbefore := ih hsplit
    subst hsplit
    unfold importCreates runImport
    rw [List.map_append, Resume.exec_append]
    exact hbefore.create

/-- A write that keeps ids and creation keys. -/
theorem map {edit : TargetTicket → TargetTicket} (hid : ∀ ticket, (edit ticket).id = ticket.id)
    (hkey : ∀ ticket, (edit ticket).creationKey = ticket.creationKey)
    (h : Resumable source manifest tickets target target' done) :
    Resumable source manifest tickets target (target'.map edit) done := by
  have hadopted : ∀ key, adopted? (target'.map edit) key = (adopted? target' key).map edit :=
    adopted?_map hkey target'
  have hids : (target'.map edit).map (·.id) = target'.map (·.id) := by
    simp only [List.map_map, Function.comp_def, hid]
  have hkept : keptId source manifest (target'.map edit) = keptId source manifest target' := by
    funext ticket
    unfold keptId
    rw [hadopted]
    cases adopted? target' (manifest.keyOf ticket) <;> rfl
  have hunplanned : isUnplanned source manifest (target'.map edit)
      = isUnplanned source manifest target' := by
    funext ticket
    simp only [isUnplanned, hadopted, Option.isNone_map]
  have hoccupied : occupiedIds source manifest (target'.map edit) tickets
      = occupiedIds source manifest target' tickets := by
    simp only [occupiedIds, hids, hkept]
  refine ⟨h.accepted.of_occupied ?_ (hoccupied ▸ h.accepted.occupied), ?_, ?_⟩
  · rw [List.filterMap_map]
    simp only [Function.comp_def, hkey]
    exact h.accepted.targetKeys
  · intro ticket hticket
    rw [← h.planned ticket hticket]
    unfold plannedId
    rw [hadopted, hoccupied, hunplanned]
    cases adopted? target' (manifest.keyOf ticket) with
    | none => rfl
    | some adopted => exact hid adopted
  · intro ticket hticket
    rw [hadopted, Option.isSome_map]
    exact h.adopted ticket hticket

end Resumable

end Runs

end Autobuild
