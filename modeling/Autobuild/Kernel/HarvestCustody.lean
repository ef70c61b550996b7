/-
# The custody of observations

`HarvestRunState.held` is what a run holds: its snapshot, or what its exhaustion committed.  The
claims of the reducer are exactly what the runs hold (`HarvestCustody.claims`), and every journal
the reducer accepts keeps it so (`harvestCustody_foldHarvest`).
-/
import Autobuild.Kernel.HarvestSteps
import Mathlib.Data.List.Induction

namespace Autobuild

open ObjectMap Checked

/-! ## 1. Occurrences -/

theorem occurrenceKey_inj {a b : OccurrenceKey} (h : occurrenceKey a = occurrenceKey b) :
    a = b := by
  obtain ⟨hbuild, hseq⟩ := JsText.numbered_inj h
  cases a
  cases b
  cases hbuild
  cases hseq
  rfl

theorem mem_of_occurrenceKey_mem {o : OccurrenceKey} {os : List OccurrenceKey}
    (h : occurrenceKey o ∈ os.map occurrenceKey) : o ∈ os := by
  obtain ⟨other, hm, hk⟩ := List.mem_map.mp h
  rw [← occurrenceKey_inj hk]
  exact hm

theorem mapKey_ne {a b : String} (h : a ≠ b) : MapKey.mk a ≠ MapKey.mk b :=
  fun he => h (MapKey.mk.inj he)

/-- The loop of a start: every occurrence was free, and is the run's afterwards. -/
theorem foldlM_claimOccurrence {run : String} {seq : Nat} :
    ∀ {os : List OccurrenceKey} {claimed next : JsMap String HarvestClaim},
      os.foldlM (claimOccurrence run seq) claimed = .ok next →
        (os.map occurrenceKey).Nodup ∧
          (∀ o ∈ os, claimed.get? ⟨occurrenceKey o⟩ = none ∧
            next.get? ⟨occurrenceKey o⟩ = some ⟨o, run⟩) ∧
          ∀ key, key ∉ os.map occurrenceKey → next.get? ⟨key⟩ = claimed.get? ⟨key⟩
  | [], claimed, next, h => by
    rw [← Except.ok.inj h]
    exact ⟨List.nodup_nil, fun _ ho => absurd ho List.not_mem_nil, fun _ _ => rfl⟩
  | o :: os, claimed, next, h => by
    rw [List.foldlM_cons] at h
    obtain ⟨middle, hm, h⟩ := bind_eq_ok.mp h
    obtain ⟨hnodup, hin, hout⟩ := foldlM_claimOccurrence h
    unfold claimOccurrence at hm
    split at hm
    · exact absurd hm nofun
    · rename_i hfree
      have hm := (Except.ok.inj hm).symm
      have hnot : occurrenceKey o ∉ os.map occurrenceKey := by
        intro hmem
        have hfree' := (hin o (mem_of_occurrenceKey_mem hmem)).1
        rw [hm, get?_set_self] at hfree'
        exact absurd hfree' nofun
      refine ⟨List.nodup_cons.mpr ⟨hnot, hnodup⟩, fun other ho => ?_, fun key hk => ?_⟩
      · rcases List.mem_cons.mp ho with rfl | ho
        · refine ⟨hfree, ?_⟩
          rw [hout _ hnot, hm, get?_set_self]
        · have hne : occurrenceKey other ≠ occurrenceKey o := by
            intro he
            exact hnot (he ▸ List.mem_map_of_mem ho)
          obtain ⟨hfree', hnext⟩ := hin other ho
          rw [hm, get?_set_ne _ _ (mapKey_ne hne)] at hfree'
          exact ⟨hfree', hnext⟩
      · rw [List.map_cons, List.mem_cons, not_or] at hk
        rw [hout key hk.2, hm, get?_set_ne _ _ (mapKey_ne hk.1)]

/-- A snapshot of free occurrences can be claimed. -/
theorem exists_foldlM_claimOccurrence {run : String} {seq : Nat} :
    ∀ {os : List OccurrenceKey} {claimed : JsMap String HarvestClaim}, os.Nodup →
      (∀ o ∈ os, claimed.get? ⟨occurrenceKey o⟩ = none) →
        ∃ next, os.foldlM (claimOccurrence run seq) claimed = .ok next
  | [], claimed, _, _ => ⟨claimed, rfl⟩
  | o :: os, claimed, hnodup, hfree => by
    obtain ⟨hnot, hnodup⟩ := List.nodup_cons.mp hnodup
    have hone : claimOccurrence run seq claimed o
        = .ok (claimed.set ⟨occurrenceKey o⟩ ⟨o, run⟩) := by
      unfold claimOccurrence
      rw [hfree o List.mem_cons_self]
    have hrest : ∀ other ∈ os,
        (claimed.set ⟨occurrenceKey o⟩ ⟨o, run⟩).get? ⟨occurrenceKey other⟩ = none := by
      intro other ho
      rw [get?_set_ne]
      · exact hfree other (List.mem_cons_of_mem _ ho)
      · intro he
        exact hnot (occurrenceKey_inj (congrArg MapKey.key he) ▸ ho)
    obtain ⟨next, hn⟩ := exists_foldlM_claimOccurrence hnodup hrest
    refine ⟨next, ?_⟩
    rw [List.foldlM_cons, hone]
    exact hn

/-- The loop of a release: every key was the run's, and is free afterwards. -/
theorem foldlM_releaseClaim {run : String} :
    ∀ {keys : List String} {claimed next : JsMap String HarvestClaim},
      keys.foldlM (releaseClaim run) claimed = .ok next →
        (∀ key ∈ keys, (claimed.get? ⟨key⟩).map (·.run) = some run) ∧
          ∀ key, next.get? ⟨key⟩ = if key ∈ keys then none else claimed.get? ⟨key⟩
  | [], claimed, next, h => by
    rw [← Except.ok.inj h]
    exact ⟨fun _ hk => absurd hk List.not_mem_nil, fun key => (if_neg List.not_mem_nil).symm⟩
  | first :: keys, claimed, next, h => by
    rw [List.foldlM_cons] at h
    obtain ⟨middle, hm, h⟩ := bind_eq_ok.mp h
    obtain ⟨howned, hnext⟩ := foldlM_releaseClaim h
    unfold releaseClaim at hm
    dsimp only at hm
    split_ifs at hm with howner
    have howner := not_not.mp howner
    have hm := (Except.ok.inj hm).symm
    refine ⟨fun key hk => ?_, fun key => ?_⟩
    · rcases List.mem_cons.mp hk with rfl | hk
      · exact howner
      · have ho := howned key hk
        rw [hm, get?_erase] at ho
        split at ho
        · exact absurd ho nofun
        · exact ho
    · rw [hnext key, hm, get?_erase]
      by_cases hk : key ∈ keys
      · rw [if_pos hk, if_pos (List.mem_cons_of_mem _ hk)]
      · rw [if_neg hk]
        by_cases he : key = first
        · rw [if_pos (congrArg MapKey.mk he), if_pos (he ▸ List.mem_cons_self)]
        · rw [if_neg fun h => he (congrArg MapKey.key h), if_neg]
          exact fun h => (List.mem_cons.mp h).elim he hk

/-! ## 2. The partition of a snapshot -/

theorem takeNew_eq_ok {refusal : String} {allowed taken next : List String} {key : String} :
    takeNew refusal allowed taken key = .ok next ↔
      key ∈ allowed ∧ key ∉ taken ∧ next = taken ++ [key] := by
  unfold takeNew
  split
  · rename_i h
    refine ⟨nofun, fun ⟨hin, hout, _⟩ => ?_⟩
    exact h.elim (fun hn => absurd hin hn) fun hm => absurd hm hout
  · rename_i h
    rw [not_or, not_not] at h
    refine ⟨fun hn => ⟨h.1, h.2, (Except.ok.inj hn).symm⟩, fun ⟨_, _, hn⟩ => ?_⟩
    rw [hn]

/-- A loop over some keys takes them all, when each is allowed and new. -/
theorem foldlM_takeNew {refusal : String → String} {allowed : List String} :
    ∀ {keys taken next : List String},
      keys.foldlM (fun taken key => takeNew (refusal key) allowed taken key) taken = .ok next ↔
        keys.Nodup ∧ (∀ key ∈ keys, key ∈ allowed ∧ key ∉ taken) ∧ next = taken ++ keys
  | [], taken, next => by
    rw [List.append_nil]
    refine ⟨fun h => ⟨List.nodup_nil, fun _ hk => absurd hk List.not_mem_nil,
      (Except.ok.inj h).symm⟩, fun ⟨_, _, h⟩ => ?_⟩
    rw [h]
    rfl
  | key :: keys, taken, next => by
    rw [List.foldlM_cons, bind_eq_ok]
    simp only [takeNew_eq_ok, foldlM_takeNew, List.nodup_cons, List.forall_mem_cons]
    constructor
    · rintro ⟨middle, ⟨hin, hout, rfl⟩, hnodup, hkeys, rfl⟩
      refine ⟨⟨fun hm => (hkeys key hm).2 (by simp), hnodup⟩, ⟨⟨hin, hout⟩, fun other ho => ?_⟩,
        by rw [List.append_assoc]; rfl⟩
      exact ⟨(hkeys other ho).1, fun hm => (hkeys other ho).2 (List.mem_append_left _ hm)⟩
    · rintro ⟨⟨hnot, hnodup⟩, ⟨⟨hin, hout⟩, hkeys⟩, rfl⟩
      refine ⟨taken ++ [key], ⟨hin, hout, rfl⟩, hnodup, fun other ho => ?_,
        by rw [List.append_assoc]; rfl⟩
      refine ⟨(hkeys other ho).1, fun hm => ?_⟩
      rcases List.mem_append.mp hm with hm | hm
      · exact (hkeys other ho).2 hm
      · exact hnot (List.mem_singleton.mp hm ▸ ho)

/-- Committed and released occurrences are the snapshot, each once. -/
structure ExactPartition (run : HarvestRunState) (payload : HarvestRecoveryExhausted) : Prop where
  committed : (payload.committedDispositions.map (occurrenceKey ·.occurrence)).Nodup
  released : (payload.releasedObservations.map occurrenceKey).Nodup
  disjoint : ∀ key ∈ payload.releasedObservations.map occurrenceKey,
    key ∉ payload.committedDispositions.map (occurrenceKey ·.occurrence)
  snapshot : ∀ key, key ∈ run.observations.map occurrenceKey ↔
    key ∈ payload.committedDispositions.map (occurrenceKey ·.occurrence) ∨
      key ∈ payload.releasedObservations.map occurrenceKey

theorem exactPartition_of_checkPartition {run : HarvestRunState}
    {payload : HarvestRecoveryExhausted} (h : checkPartition run payload = .ok ()) :
    ExactPartition run payload := by
  unfold checkPartition at h
  dsimp only at h
  obtain ⟨committed, hc, h⟩ := bind_eq_ok.mp h
  obtain ⟨partition, hp, h⟩ := bind_eq_ok.mp h
  obtain ⟨hcnodup, hcin, hceq⟩ := foldlM_takeNew.mp hc
  obtain ⟨hrnodup, hrin, hreq⟩ := foldlM_takeNew.mp hp
  rw [List.nil_append] at hceq
  split_ifs at h with hlength
  have hlength := not_not.mp hlength
  have hnodup : partition.Nodup := by
    rw [hreq, hceq]
    refine List.nodup_append.mpr ⟨hcnodup, hrnodup, fun a ha b hb he => ?_⟩
    exact (hrin b hb).2 (hceq ▸ he ▸ ha)
  have hsubset : ∀ key ∈ partition,
      key ∈ JsText.distinct (run.observations.map occurrenceKey) := by
    intro key hk
    rw [hreq, hceq] at hk
    rcases List.mem_append.mp hk with hk | hk
    · exact (hcin key hk).1
    · exact (hrin key hk).1
  have hperm := (List.subperm_of_subset hnodup hsubset).perm_of_length_le hlength.ge
  refine ⟨hcnodup, hrnodup, fun key hk => hceq ▸ (hrin key hk).2, fun key => ?_⟩
  rw [← JsText.mem_distinct, ← hperm.mem_iff, hreq, hceq, List.mem_append]

/-! ## 3. What the runs hold -/

/-- The snapshot of a run, or what its exhaustion committed. -/
def HarvestRunState.held (run : HarvestRunState) : List OccurrenceKey :=
  match run.recoveryExhaustion with
  | none => run.observations
  | some exhaustion => exhaustion.committedDispositions.map (·.occurrence)

/-- Nothing more of the run goes to the ledger. -/
def HarvestRunState.Closed (run : HarvestRunState) : Prop :=
  run.status = .completed ∨ run.recoveryExhaustion.isSome = true

/-- The invariant of the reducer. -/
structure HarvestCustody (acc : HarvestAcc) : Prop where
  named : acc.Named
  distinct : ∀ id run, acc.run? id = some run → (run.observations.map occurrenceKey).Nodup
  keyed : ∀ key claim, acc.claim? key = some claim → key = occurrenceKey claim.occurrence
  claims : ∀ id o, acc.claim? (occurrenceKey o) = some ⟨o, id⟩ ↔
    ∃ run, acc.run? id = some run ∧ o ∈ run.held
  parked : ∀ id run, acc.run? id = some run → run.recoveryExhaustion.isSome = true →
    run.status = .failed
  ledgered : ∀ entry ∈ acc.ledger, ∃ run, acc.run? entry.run = some run ∧ run.Closed

/-- A change of one run that leaves what it claims, and what closes it. -/
structure RunKept (before after : HarvestRunState) : Prop where
  run : after.run = before.run
  observations : after.observations = before.observations
  held : after.held = before.held
  parked : after.recoveryExhaustion.isSome = true → before.recoveryExhaustion.isSome = true ∧
    (before.status = .failed → after.status = .failed)
  exhausted : before.recoveryExhaustion.isSome = true → after.recoveryExhaustion.isSome = true
  closed : before.Closed → after.Closed

theorem RunKept.of_eq {before after : HarvestRunState} (hrun : after.run = before.run)
    (hobservations : after.observations = before.observations)
    (hexhaustion : after.recoveryExhaustion = before.recoveryExhaustion)
    (hstatus : before.status ≠ .running → after.status = before.status)
    (hclosed : before.status = .completed → after.status = .completed) :
    RunKept before after := by
  refine ⟨hrun, hobservations, ?_, fun hs => ?_, fun hs => hexhaustion ▸ hs, fun hc => ?_⟩
  · unfold HarvestRunState.held
    rw [hexhaustion, hobservations]
  · rw [hexhaustion] at hs
    refine ⟨hs, fun hf => ?_⟩
    rw [hstatus (by rw [hf]; nofun), hf]
  · unfold HarvestRunState.Closed at hc ⊢
    rw [hexhaustion]
    exact hc.imp_left hclosed

theorem RunKept.refl (run : HarvestRunState) : RunKept run run :=
  .of_eq rfl rfl rfl (fun _ => rfl) id

/-- What one event does to a run on its own. -/
theorem RunStep.kept {seq : Nat} {before after : HarvestRunState}
    (h : RunStep seq before after) : RunKept before after := by
  cases h with
  | workflow h =>
    have hstatus : after.status = before.status := by
      show after.custody.status = before.custody.status
      rw [h]
    refine .of_eq (run_of_custody h) ?_ ?_ (fun _ => hstatus) (fun hs => hstatus.trans hs)
    · show after.custody.observations = before.custody.observations
      rw [h]
    · show after.custody.recoveryExhaustion = before.custody.recoveryExhaustion
      rw [h]
  | requested request => exact .of_eq rfl rfl rfl (fun _ => rfl) id
  | reserved reservation => exact .of_eq rfl rfl rfl (fun _ => rfl) id
  | filed payload =>
    unfold fileProposal
    split
    · exact .of_eq rfl rfl rfl (fun _ => rfl) id
    · exact .of_eq rfl rfl rfl (fun _ => rfl) id
  | escalated escalation ts =>
    unfold escalateRun
    split
    · exact .of_eq rfl rfl rfl (fun _ => rfl) id
    · rename_i hs
      have hs := not_not.mp hs
      exact .of_eq rfl rfl rfl (fun hn => absurd hs hn)
        (fun hc => absurd (hs.symm.trans hc) nofun)
  | failed payload =>
    unfold failRun
    split
    · exact .of_eq rfl rfl rfl (fun _ => rfl) id
    · rename_i hs
      have hs := not_not.mp hs
      exact .of_eq rfl rfl rfl (fun hn => absurd hs hn)
        (fun hc => absurd (hs.symm.trans hc) nofun)

theorem resumeRun_kept (human : Bool) (seq ts : Nat) (run : HarvestRunState) :
    RunKept run (resumeRun human seq ts run) := by
  unfold resumeRun
  split
  · rename_i exhaustion he
    split
    · refine ⟨rfl, rfl, ?_, fun _ => ?_, fun _ => rfl, fun _ => Or.inr rfl⟩
      · unfold HarvestRunState.held
        rw [he]
      · rw [he]
        exact ⟨rfl, id⟩
    · exact .of_eq rfl rfl rfl (fun _ => rfl) id
  · rename_i he
    split
    · exact .of_eq rfl rfl rfl (fun _ => rfl) id
    · rename_i hs
      have hs := not_not.mp hs
      split
      · have hnot : run.recoveryExhaustion.isSome ≠ true := by
          rw [he]
          exact nofun
        refine ⟨rfl, rfl, rfl, fun hn => absurd hn hnot, fun hn => absurd hn hnot, fun hc => ?_⟩
        · rcases hc with hc | hc
          · exact absurd (hs.symm.trans hc) nofun
          · exact absurd hc hnot
      · exact .of_eq rfl rfl rfl (fun _ => rfl) id

section

variable {acc next : HarvestAcc}

theorem run?_of_set {name : String} {after : HarvestRunState}
    (h : next.runs = acc.runs.set ⟨name⟩ after) (id : String) :
    next.run? id = if id = name then some after else acc.run? id := by
  unfold HarvestAcc.run?
  rw [h, get?_set]
  by_cases he : id = name
  · rw [if_pos he, if_pos (congrArg MapKey.mk he)]
  · rw [if_neg he, if_neg (mapKey_ne he)]

theorem run?_of_mapValues {f : HarvestRunState → HarvestRunState}
    (h : next.runs = acc.runs.mapValues fun _ run => f run) (id : String) :
    next.run? id = (acc.run? id).map f := by
  unfold HarvestAcc.run?
  rw [h, get?_mapValues]

/-- Every run is kept, and nothing moves in the claims. -/
theorem HarvestCustody.of_kept (hacc : HarvestCustody acc)
    (hforth : ∀ id run, acc.run? id = some run → ∃ after, next.run? id = some after ∧
      RunKept run after)
    (hback : ∀ id after, next.run? id = some after → ∃ run, acc.run? id = some run ∧
      RunKept run after)
    (hclaimed : next.claimed = acc.claimed) (hledger : next.ledger = acc.ledger) :
    HarvestCustody next := by
  have hclaim : ∀ key, next.claim? key = acc.claim? key := by
    intro key
    unfold HarvestAcc.claim?
    rw [hclaimed]
  refine ⟨fun id after h => ?_, fun id after h => ?_, fun key claim h => ?_, fun id o => ?_,
    fun id after h hs => ?_, fun entry he => ?_⟩
  · obtain ⟨run, hrun, hkept⟩ := hback id after h
    rw [hkept.run, hacc.named id run hrun]
  · obtain ⟨run, hrun, hkept⟩ := hback id after h
    rw [hkept.observations]
    exact hacc.distinct id run hrun
  · rw [hclaim] at h
    exact hacc.keyed key claim h
  · rw [hclaim, hacc.claims]
    constructor
    · rintro ⟨run, hrun, ho⟩
      obtain ⟨after, hafter, hkept⟩ := hforth id run hrun
      exact ⟨after, hafter, hkept.held ▸ ho⟩
    · rintro ⟨after, hafter, ho⟩
      obtain ⟨run, hrun, hkept⟩ := hback id after hafter
      exact ⟨run, hrun, hkept.held ▸ ho⟩
  · obtain ⟨run, hrun, hkept⟩ := hback id after h
    obtain ⟨hsome, hstatus⟩ := hkept.parked hs
    exact hstatus (hacc.parked id run hrun hsome)
  · rw [hledger] at he
    obtain ⟨run, hrun, hclosed⟩ := hacc.ledgered entry he
    obtain ⟨after, hafter, hkept⟩ := hforth _ run hrun
    exact ⟨after, hafter, hkept.closed hclosed⟩

/-- One run is kept, the others stay. -/
theorem HarvestCustody.of_set (hacc : HarvestCustody acc) {run after : HarvestRunState}
    (hrun : acc.run? run.run = some run) (hkept : RunKept run after)
    (hruns : next.runs = acc.runs.set ⟨run.run⟩ after)
    (hclaimed : next.claimed = acc.claimed) (hledger : next.ledger = acc.ledger) :
    HarvestCustody next := by
  refine hacc.of_kept (fun id other ho => ?_) (fun id other ho => ?_) hclaimed hledger
  · rw [run?_of_set hruns]
    by_cases he : id = run.run
    · rw [he, hrun] at ho
      rw [if_pos he, ← Option.some.inj ho]
      exact ⟨after, rfl, hkept⟩
    · rw [if_neg he]
      exact ⟨other, ho, RunKept.refl other⟩
  · rw [run?_of_set hruns] at ho
    by_cases he : id = run.run
    · rw [if_pos he] at ho
      rw [he, ← Option.some.inj ho]
      exact ⟨run, hrun, hkept⟩
    · rw [if_neg he] at ho
      exact ⟨other, ho, RunKept.refl other⟩

/-- The checks of an exhaustion. -/
theorem of_checkExhaustion {run : HarvestRunState} {payload : HarvestRecoveryExhausted}
    {seq : Nat} (h : checkExhaustion run payload seq = .ok ()) :
    run.recoveryExhaustion = none ∧ run.status = .failed := by
  unfold checkExhaustion at h
  split_ifs at h with hsome hstatus
  exact ⟨Option.not_isSome_iff_eq_none.mp hsome, by
    by_contra hs
    exact hstatus (Or.inl hs)⟩

/-- A completion closes its run and writes its ledger. -/
theorem HarvestCustody.completed (hacc : HarvestCustody acc) {run after : HarvestRunState}
    (hrun : acc.run? run.run = some run) (hstatus : run.status = .running)
    (hname : after.run = run.run) (hobservations : after.observations = run.observations)
    (hexhaustion : after.recoveryExhaustion = run.recoveryExhaustion)
    (hcompleted : after.status = .completed) {dispositions : List HarvestDisposition} {seq : Nat}
    (hruns : next.runs = acc.runs.set ⟨run.run⟩ after) (hclaimed : next.claimed = acc.claimed)
    (hledger : next.ledger = acc.ledger ++ ledgerEntries dispositions run.run seq) :
    HarvestCustody next := by
  have hopen : run.recoveryExhaustion = none := by
    refine Option.not_isSome_iff_eq_none.mp fun hs => ?_
    exact absurd (hstatus.symm.trans (hacc.parked _ run hrun hs)) nofun
  have hkept : RunKept run after :=
    .of_eq hname hobservations hexhaustion (fun hn => absurd hstatus hn) (fun _ => hcompleted)
  have hwithout := @HarvestCustody.of_set acc { next with ledger := acc.ledger } hacc run after
    hrun hkept hruns hclaimed rfl
  refine ⟨hwithout.named, hwithout.distinct, hwithout.keyed, hwithout.claims, hwithout.parked,
    fun entry he => ?_⟩
  rw [hledger] at he
  rcases List.mem_append.mp he with he | he
  · exact hwithout.ledgered entry he
  · obtain ⟨disposition, -, rfl⟩ := List.mem_map.mp he
    refine ⟨after, ?_, Or.inl hcompleted⟩
    rw [run?_of_set hruns, if_pos rfl]

/-- An exhaustion leaves the run what it committed. -/
theorem HarvestCustody.exhausted (hacc : HarvestCustody acc) {run : HarvestRunState}
    {payload : HarvestRecoveryExhausted} {seq ts : Nat} (hrun : acc.run? run.run = some run)
    (hcheck : checkExhaustion run payload seq = .ok ())
    (hpartition : checkPartition run payload = .ok ())
    (hruns : next.runs = acc.runs.set ⟨run.run⟩ (exhaustRun run payload seq ts))
    (hclaimed : (payload.releasedObservations.map occurrenceKey).foldlM (releaseClaim run.run)
      acc.claimed = .ok next.claimed)
    (hledger : next.ledger = acc.ledger ++ ledgerEntries payload.committedDispositions run.run
      seq) :
    HarvestCustody next := by
  obtain ⟨hopen, hfailed⟩ := of_checkExhaustion hcheck
  obtain ⟨-, -, hdisjoint, hsnapshot⟩ := exactPartition_of_checkPartition hpartition
  obtain ⟨howned, hfree⟩ := foldlM_releaseClaim hclaimed
  have hheld : run.held = run.observations := by
    unfold HarvestRunState.held
    rw [hopen]
  have hclaim : ∀ key, next.claim? key = if key ∈ payload.releasedObservations.map occurrenceKey
      then none else acc.claim? key := hfree
  refine ⟨fun id after h => ?_, fun id after h => ?_, fun key claim h => ?_, fun id o => ?_,
    fun id after h hs => ?_, fun entry he => ?_⟩
  · rw [run?_of_set hruns] at h
    split at h
    · rename_i he
      rw [← Option.some.inj h, he]
      rfl
    · exact hacc.named id after h
  · rw [run?_of_set hruns] at h
    split at h
    · rw [← Option.some.inj h]
      exact hacc.distinct _ run hrun
    · exact hacc.distinct id after h
  · rw [hclaim] at h
    split at h
    · exact absurd h nofun
    · exact hacc.keyed key claim h
  · rw [hclaim, run?_of_set hruns]
    by_cases he : id = run.run
    · rw [if_pos he]
      constructor
      · intro h
        split at h
        · exact absurd h nofun
        · rename_i hnot
          obtain ⟨other, ho, hm⟩ := (hacc.claims id o).mp h
          rw [he, hrun] at ho
          rw [← Option.some.inj ho, hheld] at hm
          refine ⟨_, rfl, ?_⟩
          rcases (hsnapshot _).mp (List.mem_map_of_mem hm) with hc | hr
          · obtain ⟨disposition, hd, hk⟩ := List.mem_map.mp hc
            exact List.mem_map.mpr ⟨disposition, hd, occurrenceKey_inj hk⟩
          · exact absurd hr hnot
      · rintro ⟨after, ha, hm⟩
        rw [← Option.some.inj ha] at hm
        obtain ⟨disposition, hd, rfl⟩ := List.mem_map.mp hm
        have hc := List.mem_map_of_mem (f := (occurrenceKey ·.occurrence)) hd
        rw [if_neg fun hr => hdisjoint _ hr hc, he]
        refine (hacc.claims _ _).mpr ⟨run, hrun, ?_⟩
        rw [hheld]
        exact mem_of_occurrenceKey_mem ((hsnapshot _).mpr (Or.inl hc))
    · rw [if_neg he, ← hacc.claims]
      constructor
      · intro h
        split at h
        · exact absurd h nofun
        · exact h
      · intro h
        rw [if_neg]
        · exact h
        · intro hr
          have ho : (acc.claim? (occurrenceKey o)).map (·.run) = some run.run := howned _ hr
          rw [h] at ho
          exact he (Option.some.inj ho)
  · rw [run?_of_set hruns] at h
    split at h
    · rw [← Option.some.inj h]
      exact hfailed
    · exact hacc.parked id after h hs
  · rw [hledger] at he
    rw [run?_of_set hruns]
    rcases List.mem_append.mp he with he | he
    · split
      · exact ⟨_, rfl, Or.inr rfl⟩
      · exact hacc.ledgered entry he
    · obtain ⟨disposition, -, rfl⟩ := List.mem_map.mp he
      exact ⟨_, if_pos rfl, Or.inr rfl⟩

/-- A start takes its snapshot. -/
theorem HarvestCustody.started (hacc : HarvestCustody acc) {payload : HarvestStarted}
    {seq ts : Nat} (hfresh : acc.run? payload.run = none)
    (hruns : next.runs = acc.runs.set ⟨payload.run⟩ (startedRun payload seq ts))
    (hclaimed : payload.observations.foldlM (claimOccurrence payload.run seq) acc.claimed
      = .ok next.claimed)
    (hledger : next.ledger = acc.ledger) : HarvestCustody next := by
  obtain ⟨hnodup, hin, hout⟩ := foldlM_claimOccurrence hclaimed
  have hin : ∀ o ∈ payload.observations, acc.claim? (occurrenceKey o) = none ∧
      next.claim? (occurrenceKey o) = some ⟨o, payload.run⟩ := hin
  have hout : ∀ key, key ∉ payload.observations.map occurrenceKey →
      next.claim? key = acc.claim? key := hout
  refine ⟨fun id after h => ?_, fun id after h => ?_, fun key claim h => ?_, fun id o => ?_,
    fun id after h hs => ?_, fun entry he => ?_⟩
  · rw [run?_of_set hruns] at h
    split at h
    · rename_i he
      rw [← Option.some.inj h, he]
      rfl
    · exact hacc.named id after h
  · rw [run?_of_set hruns] at h
    split at h
    · rw [← Option.some.inj h]
      exact hnodup
    · exact hacc.distinct id after h
  · by_cases hk : key ∈ payload.observations.map occurrenceKey
    · obtain ⟨o, ho, rfl⟩ := List.mem_map.mp hk
      rw [(hin o ho).2] at h
      rw [← Option.some.inj h]
    · rw [hout key hk] at h
      exact hacc.keyed key claim h
  · rw [run?_of_set hruns]
    by_cases hk : occurrenceKey o ∈ payload.observations.map occurrenceKey
    · have ho := mem_of_occurrenceKey_mem hk
      obtain ⟨hfree, hown⟩ := hin o ho
      rw [hown]
      constructor
      · intro h
        rw [if_pos (congrArg HarvestClaim.run (Option.some.inj h)).symm]
        exact ⟨_, rfl, ho⟩
      · rintro ⟨after, ha, hm⟩
        split at ha
        · rename_i he
          rw [he]
        · have hclaim := (hacc.claims id o).mpr ⟨after, ha, hm⟩
          rw [hfree] at hclaim
          exact absurd hclaim nofun
    · rw [hout _ hk, hacc.claims]
      constructor
      · rintro ⟨run, hr, hm⟩
        refine ⟨run, ?_, hm⟩
        rw [if_neg]
        · exact hr
        · intro he
          rw [he, hfresh] at hr
          exact absurd hr nofun
      · rintro ⟨after, ha, hm⟩
        split at ha
        · rw [← Option.some.inj ha] at hm
          exact absurd (List.mem_map_of_mem hm) hk
        · exact ⟨after, ha, hm⟩
  · rw [run?_of_set hruns] at h
    split at h
    · rw [← Option.some.inj h] at hs
      exact absurd hs nofun
    · exact hacc.parked id after h hs
  · rw [hledger] at he
    obtain ⟨run, hr, hclosed⟩ := hacc.ledgered entry he
    refine ⟨run, ?_, hclosed⟩
    rw [run?_of_set hruns, if_neg]
    · exact hr
    · intro he
      rw [he, hfresh] at hr
      exact absurd hr nofun

/-- **The invariant is kept** by every accepted event. -/
theorem HarvestCustody.move {event : RepositoryEvent} (hacc : HarvestCustody acc)
    (h : HarvestMove acc event next) : HarvestCustody next := by
  cases h with
  | quiet hbody hruns hclaimed hledger =>
    have hrun : ∀ id, next.run? id = acc.run? id := by
      intro id
      unfold HarvestAcc.run?
      rw [hruns]
    refine hacc.of_kept (fun id run hr => ?_) (fun id run hr => ?_) hclaimed hledger
    · exact ⟨run, (hrun id).trans hr, RunKept.refl run⟩
    · exact ⟨run, (hrun id).symm.trans hr, RunKept.refl run⟩
  | resumed hbody human hruns hclaimed hledger =>
    refine hacc.of_kept (fun id run hr => ?_) (fun id after ha => ?_) hclaimed hledger
    · refine ⟨_, ?_, resumeRun_kept human event.seq event.ts run⟩
      rw [run?_of_mapValues hruns, hr]
      rfl
    · rw [run?_of_mapValues hruns] at ha
      obtain ⟨run, hr, rfl⟩ := Option.map_eq_some_iff.mp ha
      exact ⟨run, hr, resumeRun_kept human event.seq event.ts run⟩
  | changed hbody run after hrun hstep hruns hclaimed hledger =>
    exact hacc.of_set hrun hstep.kept hruns hclaimed hledger
  | completed hbody run dispositions report hrun hstatus hruns hclaimed hledger =>
    refine hacc.completed hrun hstatus ?_ ?_ ?_ ?_ hruns hclaimed hledger
    · rfl
    · rfl
    · rfl
    · rfl
  | exhausted run payload hbody hname hrun hcheck hpartition hruns hclaimed hledger =>
    exact hacc.exhausted hrun hcheck hpartition hruns hclaimed hledger
  | started payload hbody hfresh hruns hclaimed hledger =>
    exact hacc.started hfresh hruns hclaimed hledger

end

/-! ## 4. Along a journal -/

theorem foldHarvest_snoc {events : List RepositoryEvent} {event : RepositoryEvent}
    {next : HarvestAcc} : foldHarvest (events ++ [event]) = .ok next ↔
      ∃ acc, foldHarvest events = .ok acc ∧ foldHarvestEvent acc event = .ok next := by
  unfold foldHarvest
  rw [List.foldlM_append, bind_eq_ok]
  simp only [List.foldlM_cons, List.foldlM_nil, bind_eq_ok, pure_eq_ok]
  constructor
  · rintro ⟨acc, hacc, last, hlast, he⟩
    exact ⟨acc, hacc, by rw [hlast, he]⟩
  · rintro ⟨acc, hacc, hn⟩
    exact ⟨acc, hacc, next, hn, rfl⟩

theorem harvestCustody_initial : HarvestCustody {} := by
  have hrun : ∀ id, ({} : HarvestAcc).run? id = none := fun _ => rfl
  have hclaim : ∀ key, ({} : HarvestAcc).claim? key = none := fun _ => rfl
  refine ⟨fun id run h => ?_, fun id run h => ?_, fun key claim h => ?_, fun id o => ?_,
    fun id run h => ?_, fun entry he => absurd he List.not_mem_nil⟩
  · exact absurd ((hrun id).symm.trans h) nofun
  · exact absurd ((hrun id).symm.trans h) nofun
  · exact absurd ((hclaim key).symm.trans h) nofun
  · rw [hclaim]
    exact ⟨nofun, fun ⟨_, h, _⟩ => absurd ((hrun id).symm.trans h) nofun⟩
  · exact absurd ((hrun id).symm.trans h) nofun

/-- An accepted event, seen after its `seq` was noted. -/
def HarvestAcc.noted (acc : HarvestAcc) (seq : Nat) : HarvestAcc :=
  { acc with lastSeq := max acc.lastSeq seq }

theorem HarvestCustody.noted {acc : HarvestAcc} (h : HarvestCustody acc) (seq : Nat) :
    HarvestCustody (acc.noted seq) :=
  ⟨h.named, h.distinct, h.keyed, h.claims, h.parked, h.ledgered⟩

/-- **Every accepted journal keeps the invariant.** -/
theorem harvestCustody_foldHarvest {events : List RepositoryEvent} :
    ∀ {acc : HarvestAcc}, foldHarvest events = .ok acc → HarvestCustody acc := by
  induction events using List.reverseRecOn with
  | nil =>
    intro acc h
    rw [← Except.ok.inj h]
    exact harvestCustody_initial
  | append_singleton events event ih =>
    intro next h
    obtain ⟨acc, hacc, hn⟩ := foldHarvest_snoc.mp h
    have hcustody := ih hacc
    exact (hcustody.noted event.seq).move (foldHarvestEvent_move hcustody.named hn)

theorem foldHarvestEvent_move' {events : List RepositoryEvent} {event : RepositoryEvent}
    {acc next : HarvestAcc} (hacc : foldHarvest events = .ok acc)
    (hn : foldHarvestEvent acc event = .ok next) : HarvestMove (acc.noted event.seq) event next :=
  foldHarvestEvent_move (harvestCustody_foldHarvest hacc).named hn

theorem reduceHarvest_eq_ok {events : List RepositoryEvent} {state : HarvestState} :
    reduceHarvest events = .ok state ↔
      ∃ acc, foldHarvest events = .ok acc ∧ finishHarvest acc = state :=
  map_eq_ok

theorem mem_runs {acc : HarvestAcc} (h : acc.Named) {run : HarvestRunState} :
    run ∈ (finishHarvest acc).runs ↔ acc.run? run.run = some run := by
  show run ∈ acc.runs.values ↔ _
  rw [mem_values]
  constructor
  · rintro ⟨key, hk⟩
    have hname := h key.key run hk
    rw [hname]
    exact hk
  · exact fun hr => ⟨_, hr⟩

end Autobuild
