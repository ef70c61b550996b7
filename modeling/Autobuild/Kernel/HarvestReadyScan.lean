/-
# Bracketing a ready scan

A ready listing is taken between two snapshots of the journal, and the creations of
`harvestCreationsFromStates` are withheld from it.  Between the snapshots a run can park and be
resumed.

* `mem_harvestCreationsFromStates` says which creation the two snapshots return.
* `readyScan_brackets_iff`: a creation in flight at a middle prefix is returned exactly when it is
  `Bracketed`; a reservation the first snapshot records must be in flight there already.
* `not_readyScan_brackets`: a run that is parked at the first snapshot and resumed after it files
  without being withheld.
-/
import Autobuild.Kernel.HarvestClaims
import Autobuild.Kernel.HarvestRuns

namespace Autobuild

open ObjectMap Checked

/-! ## 1. Which creations are returned -/

/-- Of the creations written under a key the last stays. -/
theorem get?_foldl_set (key : String) :
    ∀ (creations : List InFlightHarvestCreation) (map : JsMap String InFlightHarvestCreation),
      (creations.foldl (fun map creation => map.set ⟨creation.key⟩ creation) map).get? ⟨key⟩
        = ((creations.filter fun creation => creation.key = key).getLast?).or (map.get? ⟨key⟩)
  | [], _ => rfl
  | creation :: rest, map => by
    rw [List.foldl_cons, get?_foldl_set key rest]
    by_cases hk : creation.key = key
    · rw [List.filter_cons_of_pos (by simpa using hk), hk, get?_set_self, List.getLast?_cons]
      cases (rest.filter fun creation => decide (creation.key = key)).getLast? <;> rfl
    · rw [List.filter_cons_of_neg (by simpa using hk),
        get?_set_ne _ _ (mapKey_ne fun he => hk he.symm)]

/-- Of the reservations the second snapshot adds under a key the first counts. -/
theorem get?_foldl_addReserved (lastSeq : Nat) (key : String) :
    ∀ (creations : List InFlightHarvestCreation) (known : List String)
      (map : JsMap String InFlightHarvestCreation),
      (creations.foldl (addReserved lastSeq) (known, map)).2.get? ⟨key⟩
        = if key ∈ known then map.get? ⟨key⟩
          else ((creations.filter fun creation =>
            creation.key = key ∧ lastSeq < creation.reservationSeq).head?).or (map.get? ⟨key⟩)
  | [], known, map => by
    rw [List.foldl_nil]
    split <;> rfl
  | creation :: rest, known, map => by
    rw [List.foldl_cons]
    by_cases hskip : creation.key ∈ known ∨ creation.reservationSeq ≤ lastSeq
    · have hsame : addReserved lastSeq (known, map) creation = (known, map) := if_pos hskip
      rw [hsame, get?_foldl_addReserved lastSeq key rest]
      by_cases hknown : key ∈ known
      · rw [if_pos hknown, if_pos hknown]
      · rw [if_neg hknown, if_neg hknown, List.filter_cons_of_neg]
        intro hp
        obtain ⟨hk, hlt⟩ := of_decide_eq_true hp
        rcases hskip with hm | hle
        · exact hknown (hk ▸ hm)
        · exact absurd hlt (Nat.not_lt.mpr hle)
    · have hadd : addReserved lastSeq (known, map) creation
          = (known ++ [creation.key], map.set ⟨creation.key⟩ creation) := if_neg hskip
      rw [hadd, get?_foldl_addReserved lastSeq key rest]
      rw [not_or, Nat.not_le] at hskip
      by_cases hk : creation.key = key
      · have hnot : key ∉ known := hk ▸ hskip.1
        have hp : decide (creation.key = key ∧ lastSeq < creation.reservationSeq) = true :=
          decide_eq_true ⟨hk, hskip.2⟩
        rw [if_pos (List.mem_append_right _ (List.mem_singleton.mpr hk.symm)), if_neg hnot,
          List.filter_cons_of_pos (p := fun (creation : InFlightHarvestCreation) =>
            decide (creation.key = key ∧ lastSeq < creation.reservationSeq)) hp, hk,
          get?_set_self]
        rfl
      · rw [get?_set_ne _ _ (mapKey_ne fun he => hk he.symm),
          List.filter_cons_of_neg fun hp => hk (of_decide_eq_true hp).1]
        by_cases hknown : key ∈ known
        · rw [if_pos (List.mem_append_left _ hknown), if_pos hknown]
        · rw [if_neg hknown, if_neg]
          intro hm
          rcases List.mem_append.mp hm with hm | hm
          · exact hknown hm
          · exact hk (List.mem_singleton.mp hm).symm

/-- The keys under which the first snapshot records reservations. -/
def recordedKeys (state : HarvestState) : List String :=
  (reservedCreations state).map (·.key)

/-- A creation in flight is a reservation. -/
theorem reserved_of_inFlight {state : HarvestState} {creation : InFlightHarvestCreation}
    (h : creation ∈ inFlightHarvestCreations state) : creation ∈ reservedCreations state := by
  obtain ⟨run, hrun, hc⟩ := List.mem_flatMap.mp h
  split at hc
  · exact absurd hc List.not_mem_nil
  · obtain ⟨reservation, hr, rfl⟩ := List.mem_map.mp hc
    exact List.mem_flatMap.mpr ⟨run, hrun, List.mem_map_of_mem (List.mem_filter.mp hr).1⟩

theorem mem_of_getLast?_filter {creations : List InFlightHarvestCreation} {key : String}
    {creation : InFlightHarvestCreation}
    (h : (creations.filter fun c => c.key = key).getLast? = some creation) :
    creation ∈ creations ∧ creation.key = key := by
  obtain ⟨hm, hk⟩ := List.mem_filter.mp (List.mem_of_getLast? h)
  exact ⟨hm, of_decide_eq_true hk⟩

/-- **What the two snapshots return**: under a key the first one records, its last creation in
flight; under another key, the first reservation past its end. -/
theorem mem_harvestCreationsFromStates {before after : HarvestState}
    {creation : InFlightHarvestCreation} :
    creation ∈ harvestCreationsFromStates before after ↔
      (if creation.key ∈ recordedKeys before then
        ((inFlightHarvestCreations before).filter fun c => c.key = creation.key).getLast?
      else ((reservedCreations after).filter fun c =>
        c.key = creation.key ∧ before.lastSeq < c.reservationSeq).head?) = some creation := by
  have hread : ∀ key, (((reservedCreations after).foldl (addReserved before.lastSeq)
      (recordedKeys before, (inFlightHarvestCreations before).foldl
        (fun (creations : JsMap String InFlightHarvestCreation) creation =>
          creations.set ⟨creation.key⟩ creation) ∅)).2).get? ⟨key⟩
      = if key ∈ recordedKeys before then
          ((inFlightHarvestCreations before).filter fun c => c.key = key).getLast?
        else ((reservedCreations after).filter fun c =>
          c.key = key ∧ before.lastSeq < c.reservationSeq).head? := by
    intro key
    rw [get?_foldl_addReserved, get?_foldl_set]
    have hempty : (∅ : JsMap String InFlightHarvestCreation).get? ⟨key⟩ = none := rfl
    rw [hempty, Option.or_none]
    by_cases hk : key ∈ recordedKeys before
    · rw [if_pos hk, if_pos hk]
    · rw [if_neg hk, if_neg hk]
      have hnone : ((inFlightHarvestCreations before).filter fun c => c.key = key).getLast?
          = none := by
        refine Option.eq_none_iff_forall_ne_some.mpr fun c hc => hk ?_
        obtain ⟨hm, he⟩ := mem_of_getLast?_filter hc
        exact he ▸ List.mem_map_of_mem (reserved_of_inFlight hm)
      rw [hnone, Option.or_none]
  show creation ∈ ObjectMap.values _ ↔ _
  rw [mem_values]
  constructor
  · rintro ⟨key, hk⟩
    have hkey : creation.key = key.key := by
      have hk := (hread key.key).symm.trans hk
      split at hk
      · exact (mem_of_getLast?_filter hk).2
      · exact (of_decide_eq_true (List.mem_filter.mp (List.mem_of_head? hk)).2).1
    rw [hkey]
    exact (hread key.key).symm.trans hk
  · exact fun h => ⟨⟨creation.key⟩, (hread creation.key).trans h⟩

/-! ## 2. Reservations along a journal -/

/-- The seqs of a journal increase, from 1 on. -/
def JournalOrder (events : List RepositoryEvent) : Prop :=
  (0 :: events.map (·.seq)).Pairwise (· < ·)

theorem foldHarvest_lastSeq {events : List RepositoryEvent} :
    ∀ {acc : HarvestAcc}, foldHarvest events = .ok acc →
      acc.lastSeq = (events.map (·.seq)).foldl max 0 := by
  induction events using List.reverseRecOn with
  | nil =>
    intro acc h
    rw [← Except.ok.inj h]
    rfl
  | append_singleton events event ih =>
    intro next h
    obtain ⟨acc, hacc, hn⟩ := foldHarvest_snoc.mp h
    have hlast : next.lastSeq = (acc.noted event.seq).lastSeq := by
      cases foldHarvestEvent_move' hacc hn <;> assumption
    rw [List.map_append, List.foldl_append, ← ih hacc, hlast]
    rfl

theorem foldl_max_lt {n : Nat} : ∀ {xs : List Nat} {a : Nat}, a < n → (∀ x ∈ xs, x < n) →
    xs.foldl max a < n
  | [], _, ha, _ => ha
  | x :: xs, _, ha, h => by
    rw [List.foldl_cons]
    exact foldl_max_lt (Nat.max_lt.mpr ⟨ha, h x List.mem_cons_self⟩)
      fun y hy => h y (List.mem_cons_of_mem _ hy)

/-- The rest of a journal is past the end of a prefix. -/
theorem lastSeq_lt {before after : List RepositoryEvent} (horder : JournalOrder (before ++ after))
    {acc : HarvestAcc} (hacc : foldHarvest before = .ok acc) {event : RepositoryEvent}
    (he : event ∈ after) : acc.lastSeq < event.seq := by
  unfold JournalOrder at horder
  rw [List.map_append, ← List.cons_append, List.pairwise_append] at horder
  have hlt := fun seq hs => horder.2.2 seq hs event.seq (List.mem_map_of_mem he)
  rw [foldHarvest_lastSeq hacc]
  exact foldl_max_lt (hlt 0 List.mem_cons_self) fun seq hs => hlt seq (List.mem_cons_of_mem _ hs)

/-- A reservation after an event was there before, or is the event's. -/
theorem HarvestMove.origin {acc next : HarvestAcc} {event : RepositoryEvent}
    (h : HarvestMove acc event next) {id : String} {after : HarvestRunState}
    (hafter : next.run? id = some after) {reservation : HarvestProposalReservation}
    (hr : reservation ∈ after.reservations) :
    (∃ run, acc.run? id = some run ∧ reservation ∈ run.reservations) ∨
      event.seq = reservation.seq := by
  cases hrun : acc.run? id with
  | some run =>
    obtain ⟨other, ho, hgrows⟩ := h.grows hrun
    rw [hafter] at ho
    obtain ⟨added, ha, hseqs⟩ := hgrows.reservations
    rw [← Option.some.inj ho] at ha
    rw [ha] at hr
    rcases List.mem_append.mp hr with hr | hr
    · exact Or.inl ⟨run, rfl, hr⟩
    · exact Or.inr (hseqs reservation hr).symm
  | none =>
    exfalso
    have hset : ∀ {name : String} {other : HarvestRunState}, acc.run? name ≠ none →
        next.runs = acc.runs.set ⟨name⟩ other → False := by
      intro name other hname hruns
      rw [run?_of_set hruns] at hafter
      split at hafter
      · rename_i he
        exact hname (he ▸ hrun)
      · rw [hrun] at hafter
        exact absurd hafter nofun
    cases h with
    | quiet hbody hruns hclaimed hledger =>
      unfold HarvestAcc.run? at hafter hrun
      rw [hruns, hrun] at hafter
      exact absurd hafter nofun
    | resumed hbody human hruns hclaimed hledger =>
      rw [run?_of_mapValues hruns, hrun] at hafter
      exact absurd hafter nofun
    | changed hbody run other ho hstep hruns hclaimed hledger =>
      exact hset (by rw [ho]; nofun) hruns
    | completed hbody run dispositions report ho hstatus hruns hclaimed hledger =>
      exact hset (by rw [ho]; nofun) hruns
    | exhausted run payload hbody hname ho hcheck hpartition hruns hclaimed hledger =>
      exact hset (by rw [ho]; nofun) hruns
    | started payload hbody hfresh hruns hclaimed hledger =>
      rw [run?_of_set hruns] at hafter
      split at hafter
      · rw [← Option.some.inj hafter] at hr
        exact absurd hr List.not_mem_nil
      · rw [hrun] at hafter
        exact absurd hafter nofun

/-- A reservation of a journal is in a prefix, or was written after it. -/
theorem reservation_origin {before : List RepositoryEvent} {start : HarvestAcc}
    (hstart : foldHarvest before = .ok start) {id : String}
    {reservation : HarvestProposalReservation} {after : List RepositoryEvent} :
    ∀ {acc : HarvestAcc} {run : HarvestRunState}, foldHarvest (before ++ after) = .ok acc →
      acc.run? id = some run → reservation ∈ run.reservations →
      (∃ first, start.run? id = some first ∧ reservation ∈ first.reservations) ∨
        ∃ event ∈ after, event.seq = reservation.seq := by
  induction after using List.reverseRecOn with
  | nil =>
    intro acc run h hrun hr
    rw [List.append_nil, hstart] at h
    rw [← Except.ok.inj h] at hrun
    exact Or.inl ⟨run, hrun, hr⟩
  | append_singleton after event ih =>
    intro next last h hlast hr
    rw [← List.append_assoc] at h
    obtain ⟨acc, hacc, hn⟩ := foldHarvest_snoc.mp h
    rcases (foldHarvestEvent_move' hacc hn).origin hlast hr with ⟨run, hrun, hr⟩ | he
    · refine (ih hacc hrun hr).imp_right fun ⟨e, he, hs⟩ => ?_
      exact ⟨e, List.mem_append_left _ he, hs⟩
    · exact Or.inr ⟨event, by simp, he⟩

theorem mem_reservedCreations {acc : HarvestAcc} (hnamed : acc.Named)
    {creation : InFlightHarvestCreation} :
    creation ∈ reservedCreations (finishHarvest acc) ↔
      ∃ id run reservation, acc.run? id = some run ∧ reservation ∈ run.reservations ∧
        creation = creationOf id reservation := by
  constructor
  · intro h
    obtain ⟨run, hrun, hc⟩ := List.mem_flatMap.mp h
    obtain ⟨reservation, hr, rfl⟩ := List.mem_map.mp hc
    exact ⟨run.run, run, reservation, (mem_runs hnamed).mp hrun, hr, rfl⟩
  · rintro ⟨id, run, reservation, hrun, hr, rfl⟩
    have hname := hnamed id run hrun
    refine List.mem_flatMap.mpr ⟨run, (mem_runs hnamed).mpr (by rw [hname]; exact hrun), ?_⟩
    rw [hname]
    exact List.mem_map_of_mem hr

/-! ## 3. The bracket -/

/-- No other creation stands before this one under its key, which joins the run and the proposal
key with a NUL. -/
def FirstUnderKey (creations : List InFlightHarvestCreation)
    (creation : InFlightHarvestCreation) : Prop :=
  ∀ other ∈ creations.takeWhile (· ≠ creation), other.key ≠ creation.key

/-- Under a key the first snapshot records, the creation is in flight there (and no later one in
flight shares its key); under another key, no earlier reservation of the last snapshot does. -/
def Bracketed (before after : HarvestState) (creation : InFlightHarvestCreation) : Prop :=
  if creation.key ∈ recordedKeys before then
    creation ∈ inFlightHarvestCreations before ∧
      FirstUnderKey (inFlightHarvestCreations before).reverse creation
  else FirstUnderKey (reservedCreations after) creation

theorem head?_filter_iff {creation : InFlightHarvestCreation} :
    ∀ {creations : List InFlightHarvestCreation}, creation ∈ creations →
      ((creations.filter fun c => c.key = creation.key).head? = some creation ↔
        FirstUnderKey creations creation)
  | [], h => absurd h List.not_mem_nil
  | other :: rest, h => by
    unfold FirstUnderKey
    by_cases he : other = creation
    · rw [he, List.filter_cons_of_pos (by simp), List.takeWhile_cons_of_neg (by simp)]
      exact ⟨fun _ _ hm => absurd hm List.not_mem_nil, fun _ => rfl⟩
    · have hrest : creation ∈ rest := (List.mem_cons.mp h).resolve_left fun hc => he hc.symm
      rw [List.takeWhile_cons_of_pos (by simpa using he), List.forall_mem_cons]
      by_cases hk : other.key = creation.key
      · rw [List.filter_cons_of_pos (by simpa using hk)]
        exact ⟨fun hh => absurd (Option.some.inj hh) he, fun hh => absurd hk hh.1⟩
      · rw [List.filter_cons_of_neg (by simpa using hk), head?_filter_iff hrest]
        exact ⟨fun hh => ⟨hk, hh⟩, fun hh => hh.2⟩

theorem getLast?_filter_iff {creation : InFlightHarvestCreation}
    {creations : List InFlightHarvestCreation} (h : creation ∈ creations) :
    (creations.filter fun c => c.key = creation.key).getLast? = some creation ↔
      FirstUnderKey creations.reverse creation := by
  rw [← List.head?_reverse, ← List.filter_reverse]
  exact head?_filter_iff (List.mem_reverse.mpr h)

section

variable {first middle last : List RepositoryEvent} {before mid after : HarvestState}

/-- Under a key the first snapshot does not record, all reservations are past its end. -/
theorem filter_reserved (horder : JournalOrder (first ++ last)) (hbefore :
    reduceHarvest first = .ok before) (hafter : reduceHarvest (first ++ last) = .ok after)
    {key : String} (hkey : key ∉ recordedKeys before) :
    ((reservedCreations after).filter fun c => c.key = key ∧ before.lastSeq < c.reservationSeq)
      = (reservedCreations after).filter fun c => c.key = key := by
  obtain ⟨start, hstart, rfl⟩ := reduceHarvest_eq_ok.mp hbefore
  obtain ⟨acc, hacc, rfl⟩ := reduceHarvest_eq_ok.mp hafter
  refine List.filter_congr fun creation hm => ?_
  obtain ⟨id, run, reservation, hrun, hr, rfl⟩ :=
    (mem_reservedCreations (harvestCustody_foldHarvest hacc).named).mp hm
  by_cases hk : (creationOf id reservation).key = key
  · rcases reservation_origin hstart hacc hrun hr with ⟨known, hknown, hk'⟩ | ⟨event, he, hs⟩
    · refine absurd ?_ hkey
      rw [← hk]
      exact List.mem_map_of_mem ((mem_reservedCreations (harvestCustody_foldHarvest
        hstart).named).mpr ⟨id, known, reservation, hknown, hk', rfl⟩)
    · have hlt : (finishHarvest start).lastSeq < (creationOf id reservation).reservationSeq := by
        show start.lastSeq < reservation.seq
        rw [← hs]
        exact lastSeq_lt horder hstart he
      rw [decide_eq_true hk, decide_eq_true ⟨hk, hlt⟩]
  · rw [decide_eq_false hk, decide_eq_false fun h => hk h.1]

/-- What is in flight at a prefix is a reservation of the whole. -/
theorem reserved_of_prefix (hmid : reduceHarvest first = .ok mid)
    (hafter : reduceHarvest (first ++ last) = .ok after) {creation : InFlightHarvestCreation}
    (h : creation ∈ inFlightHarvestCreations mid) : creation ∈ reservedCreations after := by
  obtain ⟨start, hstart, rfl⟩ := reduceHarvest_eq_ok.mp hmid
  obtain ⟨acc, hacc, rfl⟩ := reduceHarvest_eq_ok.mp hafter
  obtain ⟨id, run, reservation, hrun, hr, rfl⟩ :=
    (mem_reservedCreations (harvestCustody_foldHarvest hstart).named).mp (reserved_of_inFlight h)
  obtain ⟨grown, hgrown, hgrows⟩ := run_grows hstart hrun hacc
  obtain ⟨added, ha, -⟩ := hgrows.reservations
  refine (mem_reservedCreations (harvestCustody_foldHarvest hacc).named).mpr
    ⟨id, grown, reservation, hgrown, ?_, rfl⟩
  rw [ha]
  exact List.mem_append_left _ hr

/-- **The ready scan brackets what is in flight at a middle prefix exactly when each such
creation is `Bracketed`.** -/
theorem readyScan_brackets_iff (horder : JournalOrder (first ++ middle ++ last))
    (hbefore : reduceHarvest first = .ok before) (hmid : reduceHarvest (first ++ middle) = .ok mid)
    (hafter : reduceHarvest (first ++ middle ++ last) = .ok after) :
    (∀ creation ∈ inFlightHarvestCreations mid,
      creation ∈ harvestCreationsFromStates before after) ↔
      ∀ creation ∈ inFlightHarvestCreations mid, Bracketed before after creation := by
  refine forall₂_congr fun creation hc => ?_
  have hreserved := reserved_of_prefix hmid hafter hc
  rw [List.append_assoc] at horder hafter
  rw [mem_harvestCreationsFromStates]
  unfold Bracketed
  by_cases hkey : creation.key ∈ recordedKeys before
  · rw [if_pos hkey, if_pos hkey]
    constructor
    · intro h
      have hm := (mem_of_getLast?_filter h).1
      exact ⟨hm, (getLast?_filter_iff hm).mp h⟩
    · exact fun ⟨hm, h⟩ => (getLast?_filter_iff hm).mpr h
  · rw [if_neg hkey, if_neg hkey, filter_reserved horder hbefore hafter hkey]
    exact head?_filter_iff hreserved

end

/-- A run reserves an id and parks. -/
def parkedJournal : List RepositoryEvent :=
  [harvestEvent 1 (.started (scanStart "first" [⟨"build", 1⟩])),
    harvestEvent 2 (.proposalIdReserved "first" "p1" "id1"),
    harvestEvent 3 (.failed ⟨"first", stoppedFiling, 1, false⟩)]

/-- A human resumes it. -/
def resumedJournal : List RepositoryEvent :=
  [harvestEvent 4 .resumeRequested, harvestEvent 5 .resumed]

/-- The creations in flight at the middle prefix, and those withheld. -/
def readyScanView (first middle last : List RepositoryEvent) :
    Except String (List InFlightHarvestCreation × List InFlightHarvestCreation) := do
  let before ← reduceHarvest first
  let mid ← reduceHarvest (first ++ middle)
  let after ← reduceHarvest (first ++ middle ++ last)
  .ok (inFlightHarvestCreations mid, harvestCreationsFromStates before after)

theorem exists_readyScan {first middle last : List RepositoryEvent}
    {flying withheld : List InFlightHarvestCreation}
    (h : (readyScanView first middle last).toOption = some (flying, withheld)) :
    ∃ before mid after, reduceHarvest first = .ok before ∧
      reduceHarvest (first ++ middle) = .ok mid ∧
      reduceHarvest (first ++ middle ++ last) = .ok after ∧
      inFlightHarvestCreations mid = flying ∧
      harvestCreationsFromStates before after = withheld := by
  cases hv : readyScanView first middle last with
  | error message =>
    rw [hv] at h
    exact absurd h nofun
  | ok view =>
    rw [hv] at h
    rw [Option.some.inj h] at hv
    obtain ⟨before, hb, hv⟩ := bind_eq_ok.mp hv
    obtain ⟨mid, hm, hv⟩ := bind_eq_ok.mp hv
    obtain ⟨after, ha, hv⟩ := bind_eq_ok.mp hv
    obtain ⟨hf, hw⟩ := Prod.mk.inj (Except.ok.inj hv)
    exact ⟨before, mid, after, hb, hm, ha, hf, hw⟩

/-- A first snapshot of a running workflow brackets what it files. -/
theorem readyScan_brackets_running :
    ∃ before mid after, reduceHarvest (parkedJournal.take 2) = .ok before ∧
      reduceHarvest (parkedJournal.take 2 ++ []) = .ok mid ∧
      reduceHarvest (parkedJournal.take 2 ++ [] ++ parkedJournal.drop 2) = .ok after ∧
      inFlightHarvestCreations mid ≠ [] ∧
      ∀ creation ∈ inFlightHarvestCreations mid, Bracketed before after creation := by
  obtain ⟨before, mid, after, hb, hm, ha, hf, hw⟩ := @exists_readyScan (parkedJournal.take 2) []
    (parkedJournal.drop 2) [⟨"first", "p1", "id1", 2⟩] [⟨"first", "p1", "id1", 2⟩]
    (by decide +kernel)
  refine ⟨before, mid, after, hb, hm, ha, ?_, (readyScan_brackets_iff ?_ hb hm ha).mp ?_⟩
  · rw [hf]
    exact nofun
  · unfold JournalOrder
    decide
  · rw [hf, hw]
    exact fun _ hc => hc

/-- **Parked at the first snapshot, in flight at the middle, and not withheld.** -/
theorem not_readyScan_brackets :
    JournalOrder (parkedJournal ++ resumedJournal ++ []) ∧
      ∃ before mid after, reduceHarvest parkedJournal = .ok before ∧
        reduceHarvest (parkedJournal ++ resumedJournal) = .ok mid ∧
        reduceHarvest (parkedJournal ++ resumedJournal ++ []) = .ok after ∧
        ⟨"first", "p1", "id1", 2⟩ ∈ inFlightHarvestCreations mid ∧
        ⟨"first", "p1", "id1", 2⟩ ∉ harvestCreationsFromStates before after := by
  obtain ⟨before, mid, after, hb, hm, ha, hf, hw⟩ := @exists_readyScan parkedJournal
    resumedJournal [] [⟨"first", "p1", "id1", 2⟩] [] (by decide +kernel)
  refine ⟨?_, before, mid, after, hb, hm, ha, ?_, ?_⟩
  · unfold JournalOrder
    decide
  · rw [hf]
    exact List.mem_cons_self
  · rw [hw]
    exact List.not_mem_nil

end Autobuild
