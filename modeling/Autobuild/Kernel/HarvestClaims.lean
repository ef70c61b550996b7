/-
# Harvest claims

* `StandingClaim` reads the claims off the journal: a start claimed the occurrence and no later
  exhaustion released it.
* A run that is in the ledger is closed, and a closed run never writes to it again
  (`HarvestMove.closed`).
* `harvest_claims` puts them together.
-/
import Autobuild.Kernel.HarvestCustody

namespace Autobuild

open ObjectMap Checked

/-! ## 1. The claims of a journal -/

/-- The event starts a run on the occurrence. -/
def Claims (event : RepositoryEvent) (o : OccurrenceKey) : Prop :=
  ∃ payload, event.body = .harvest (.started payload) ∧ o ∈ payload.observations

/-- The event gives the occurrence back. -/
def Releases (event : RepositoryEvent) (o : OccurrenceKey) : Prop :=
  ∃ payload, event.body = .harvest (.recoveryExhausted payload) ∧
    o ∈ payload.releasedObservations

/-- A run was started on the occurrence, and nothing released it since. -/
def StandingClaim (events : List RepositoryEvent) (o : OccurrenceKey) : Prop :=
  ∃ before start after, events = before ++ start :: after ∧ Claims start o ∧
    ∀ event ∈ after, ¬Releases event o

theorem standingClaim_snoc {events : List RepositoryEvent} {event : RepositoryEvent}
    {o : OccurrenceKey} : StandingClaim (events ++ [event]) o ↔
      Claims event o ∨ (StandingClaim events o ∧ ¬Releases event o) := by
  constructor
  · rintro ⟨before, start, after, he, hclaims, hafter⟩
    rcases List.eq_nil_or_concat after with rfl | ⟨rest, last, rfl⟩
    · obtain ⟨-, hs⟩ := List.append_inj' he rfl
      rw [List.cons.inj hs |>.1]
      exact Or.inl hclaims
    · rw [List.concat_eq_append] at he hafter
      rw [← List.cons_append, ← List.append_assoc] at he
      obtain ⟨hevents, hs⟩ := List.append_inj' he rfl
      rw [List.cons.inj hs |>.1]
      refine Or.inr ⟨⟨before, start, rest, hevents, hclaims, fun e he => ?_⟩, ?_⟩
      · exact hafter e (List.mem_append_left _ he)
      · exact hafter last (List.mem_append_right _ List.mem_cons_self)
  · rintro (hclaims | ⟨⟨before, start, after, rfl, hclaims, hafter⟩, hnot⟩)
    · exact ⟨events, event, [], rfl, hclaims, fun _ he => absurd he List.not_mem_nil⟩
    · refine ⟨before, start, after ++ [event], by rw [List.append_assoc]; rfl, hclaims,
        fun e he => ?_⟩
      rcases List.mem_append.mp he with he | he
      · exact hafter e he
      · rw [List.mem_singleton.mp he]
        exact hnot

theorem not_claims_of_ordinary {event : RepositoryEvent} {o : OccurrenceKey}
    (h : Ordinary event) : ¬Claims event o ∧ ¬Releases event o := by
  obtain ⟨hs, he⟩ := h
  constructor
  · rintro ⟨payload, hbody, -⟩
    rw [hbody] at hs
    exact absurd hs nofun
  · rintro ⟨payload, hbody, -⟩
    rw [hbody] at he
    exact absurd he nofun

/-- The claims after one event. -/
theorem HarvestMove.claimed {acc next : HarvestAcc} {event : RepositoryEvent}
    (h : HarvestMove acc event next) (o : OccurrenceKey) :
    next.claim? (occurrenceKey o) ≠ none ↔
      Claims event o ∨ (acc.claim? (occurrenceKey o) ≠ none ∧ ¬Releases event o) := by
  have hquiet : Ordinary event → next.claimed = acc.claimed →
      (next.claim? (occurrenceKey o) ≠ none ↔
        Claims event o ∨ (acc.claim? (occurrenceKey o) ≠ none ∧ ¬Releases event o)) := by
    intro ho hc
    obtain ⟨hclaims, hreleases⟩ := not_claims_of_ordinary (o := o) ho
    unfold HarvestAcc.claim?
    rw [hc]
    exact ⟨fun hn => Or.inr ⟨hn, hreleases⟩, fun hn => hn.elim (absurd · hclaims) And.left⟩
  cases h with
  | quiet hbody hruns hclaimed hledger => exact hquiet hbody hclaimed
  | resumed hbody human hruns hclaimed hledger => exact hquiet hbody hclaimed
  | changed hbody run after hrun hstep hruns hclaimed hledger => exact hquiet hbody hclaimed
  | completed hbody run dispositions report hrun hstatus hruns hclaimed hledger =>
    exact hquiet hbody hclaimed
  | exhausted run payload hbody hname hrun hcheck hpartition hruns hclaimed hledger =>
    have hclaim : next.claim? (occurrenceKey o)
        = if occurrenceKey o ∈ payload.releasedObservations.map occurrenceKey then none
          else acc.claim? (occurrenceKey o) := (foldlM_releaseClaim hclaimed).2 _
    have hreleases : Releases event o ↔ o ∈ payload.releasedObservations := by
      constructor
      · rintro ⟨other, ho, hm⟩
        rw [hbody] at ho
        cases ho
        exact hm
      · exact fun hm => ⟨payload, hbody, hm⟩
    have hclaims : ¬Claims event o := by
      rintro ⟨other, ho, -⟩
      rw [hbody] at ho
      exact absurd ho nofun
    rw [hclaim, hreleases]
    constructor
    · intro hn
      split at hn
      · exact absurd rfl hn
      · rename_i hk
        exact Or.inr ⟨hn, fun hm => hk (List.mem_map_of_mem hm)⟩
    · rintro (hn | ⟨hn, hm⟩)
      · exact absurd hn hclaims
      · rw [if_neg fun hk => hm (mem_of_occurrenceKey_mem hk)]
        exact hn
  | started payload hbody hfresh hruns hclaimed hledger =>
    obtain ⟨-, hin, hout⟩ := foldlM_claimOccurrence hclaimed
    have hclaims : Claims event o ↔ o ∈ payload.observations := by
      constructor
      · rintro ⟨other, ho, hm⟩
        rw [hbody] at ho
        cases ho
        exact hm
      · exact fun hm => ⟨payload, hbody, hm⟩
    have hreleases : ¬Releases event o := by
      rintro ⟨other, ho, -⟩
      rw [hbody] at ho
      exact absurd ho nofun
    rw [hclaims]
    by_cases hm : o ∈ payload.observations
    · refine ⟨fun _ => Or.inl hm, fun _ => ?_⟩
      rw [show next.claim? (occurrenceKey o) = _ from (hin o hm).2]
      exact nofun
    · rw [show next.claim? (occurrenceKey o) = acc.claim? (occurrenceKey o) from
        hout _ fun hk => hm (mem_of_occurrenceKey_mem hk)]
      exact ⟨fun hn => Or.inr ⟨hn, hreleases⟩, fun hn => hn.elim (absurd · hm) And.left⟩

theorem claim?_iff_standingClaim {events : List RepositoryEvent} (o : OccurrenceKey) :
    ∀ {acc : HarvestAcc}, foldHarvest events = .ok acc →
      (acc.claim? (occurrenceKey o) ≠ none ↔ StandingClaim events o) := by
  induction events using List.reverseRecOn with
  | nil =>
    intro acc h
    rw [← Except.ok.inj h]
    refine ⟨fun hn => absurd rfl hn, ?_⟩
    rintro ⟨before, start, after, he, -⟩
    exact absurd he.symm (by simp)
  | append_singleton events event ih =>
    intro next h
    obtain ⟨acc, hacc, hn⟩ := foldHarvest_snoc.mp h
    rw [standingClaim_snoc, ← ih hacc]
    exact (foldHarvestEvent_move' hacc hn).claimed o

/-- The claimed occurrences of the state. -/
theorem HarvestCustody.mem_claimed {acc : HarvestAcc} (h : HarvestCustody acc)
    (o : OccurrenceKey) :
    o ∈ (finishHarvest acc).claimed ↔ acc.claim? (occurrenceKey o) ≠ none := by
  show o ∈ acc.claimed.values.map (·.occurrence) ↔ _
  rw [List.mem_map]
  constructor
  · rintro ⟨claim, hm, rfl⟩
    obtain ⟨key, hk⟩ := mem_values.mp hm
    have hkey := h.keyed key.key claim hk
    have hk : acc.claim? key.key = some claim := hk
    rw [← hkey, hk]
    exact nofun
  · intro hn
    obtain ⟨claim, hk⟩ := Option.ne_none_iff_exists'.mp hn
    refine ⟨claim, mem_values.mpr ⟨_, hk⟩, ?_⟩
    exact (occurrenceKey_inj (h.keyed _ claim hk)).symm

/-! ## 2. Closed runs -/

section

variable {acc next : HarvestAcc} {event : RepositoryEvent}

/-- The ledger grows at its end. -/
theorem HarvestMove.ledger (h : HarvestMove acc event next) :
    ∃ entries, next.ledger = acc.ledger ++ entries := by
  cases h with
  | quiet hbody hruns hclaimed hledger => exact ⟨[], by rw [hledger, List.append_nil]⟩
  | resumed hbody human hruns hclaimed hledger => exact ⟨[], by rw [hledger, List.append_nil]⟩
  | changed hbody run after hrun hstep hruns hclaimed hledger =>
    exact ⟨[], by rw [hledger, List.append_nil]⟩
  | completed hbody run dispositions report hrun hstatus hruns hclaimed hledger =>
    exact ⟨_, hledger⟩
  | exhausted run payload hbody hname hrun hcheck hpartition hruns hclaimed hledger =>
    exact ⟨_, hledger⟩
  | started payload hbody hfresh hruns hclaimed hledger =>
    exact ⟨[], by rw [hledger, List.append_nil]⟩

theorem filter_ledgerEntries {dispositions : List HarvestDisposition} {run id : String}
    {seq : Nat} (h : id ≠ run) :
    (ledgerEntries dispositions run seq).filter (fun entry => entry.run = id) = [] := by
  rw [List.filter_eq_nil_iff]
  intro entry he
  obtain ⟨disposition, -, rfl⟩ := List.mem_map.mp he
  exact fun hr => h (of_decide_eq_true hr).symm

/-- **A closed run is left alone**, and no entry of it goes to the ledger. -/
theorem HarvestMove.closed (hacc : HarvestCustody acc) (h : HarvestMove acc event next)
    {id : String} {run : HarvestRunState} (hrun : acc.run? id = some run)
    (hclosed : run.Closed) :
    (∃ after, next.run? id = some after ∧ RunKept run after) ∧
      next.ledger.filter (fun entry => entry.run = id)
        = acc.ledger.filter (fun entry => entry.run = id) := by
  have hopen : ∀ {other : HarvestRunState}, acc.run? other.run = some other →
      ¬other.Closed → id ≠ other.run := by
    intro other ho hn he
    rw [he, ho] at hrun
    exact hn (Option.some.inj hrun ▸ hclosed)
  cases h with
  | quiet hbody hruns hclaimed hledger =>
    refine ⟨⟨run, ?_, .refl run⟩, by rw [hledger]⟩
    unfold HarvestAcc.run?
    rw [hruns]
    exact hrun
  | resumed hbody human hruns hclaimed hledger =>
    refine ⟨⟨_, ?_, resumeRun_kept human event.seq event.ts run⟩, by rw [hledger]⟩
    rw [run?_of_mapValues hruns, hrun]
    rfl
  | changed hbody other after ho hstep hruns hclaimed hledger =>
    refine ⟨?_, by rw [hledger]⟩
    rw [run?_of_set hruns]
    split
    · rename_i he
      rw [he, ho] at hrun
      exact ⟨after, rfl, Option.some.inj hrun ▸ hstep.kept⟩
    · exact ⟨run, hrun, .refl run⟩
  | completed hbody other dispositions report ho hstatus hruns hclaimed hledger =>
    have hne : id ≠ other.run := by
      refine hopen ho fun hc => ?_
      rcases hc with hc | hc
      · exact absurd (hstatus.symm.trans hc) nofun
      · exact absurd (hstatus.symm.trans (hacc.parked _ other ho hc)) nofun
    refine ⟨⟨run, ?_, .refl run⟩, ?_⟩
    · rw [run?_of_set hruns, if_neg hne]
      exact hrun
    · rw [hledger, List.filter_append, filter_ledgerEntries hne, List.append_nil]
  | exhausted other payload hbody hname ho hcheck hpartition hruns hclaimed hledger =>
    obtain ⟨hnone, hfailed⟩ := of_checkExhaustion hcheck
    have hne : id ≠ other.run := by
      refine hopen ho fun hc => ?_
      rcases hc with hc | hc
      · exact absurd (hfailed.symm.trans hc) nofun
      · rw [hnone] at hc
        exact absurd hc nofun
    refine ⟨⟨run, ?_, .refl run⟩, ?_⟩
    · rw [run?_of_set hruns, if_neg hne]
      exact hrun
    · rw [hledger, List.filter_append, filter_ledgerEntries hne, List.append_nil]
  | started payload hbody hfresh hruns hclaimed hledger =>
    refine ⟨⟨run, ?_, .refl run⟩, by rw [hledger]⟩
    rw [run?_of_set hruns, if_neg]
    · exact hrun
    · intro he
      rw [he, hfresh] at hrun
      exact absurd hrun nofun

end

theorem foldHarvest_append {before after : List RepositoryEvent} {acc : HarvestAcc}
    (h : foldHarvest (before ++ after) = .ok acc) : ∃ middle, foldHarvest before = .ok middle := by
  unfold foldHarvest at h
  rw [List.foldlM_append] at h
  obtain ⟨middle, hm, -⟩ := bind_eq_ok.mp h
  exact ⟨middle, hm⟩

/-- The ledger entries of a run in the ledger are its last. -/
theorem ledger_kept {before : List RepositoryEvent} {start : HarvestAcc}
    (hstart : foldHarvest before = .ok start) {entry : HarvestLedgerEntry}
    (hentry : entry ∈ start.ledger) {after : List RepositoryEvent} :
    ∀ {acc : HarvestAcc}, foldHarvest (before ++ after) = .ok acc →
      (∃ run, acc.run? entry.run = some run ∧ run.Closed) ∧
        acc.ledger.filter (fun other => other.run = entry.run)
          = start.ledger.filter (fun other => other.run = entry.run) := by
  induction after using List.reverseRecOn with
  | nil =>
    intro acc h
    rw [List.append_nil, hstart] at h
    rw [← Except.ok.inj h]
    exact ⟨(harvestCustody_foldHarvest hstart).ledgered entry hentry, rfl⟩
  | append_singleton after event ih =>
    intro next h
    rw [← List.append_assoc] at h
    obtain ⟨acc, hacc, hn⟩ := foldHarvest_snoc.mp h
    obtain ⟨⟨run, hrun, hclosed⟩, hledger⟩ := ih hacc
    have hcustody := harvestCustody_foldHarvest hacc
    obtain ⟨⟨last, hlast, hkept⟩, hsame⟩ := (foldHarvestEvent_move' hacc hn).closed
      (hcustody.noted event.seq) hrun hclosed
    exact ⟨⟨last, hlast, hkept.closed hclosed⟩, hsame.trans hledger⟩

/-- What an exhaustion committed stays committed, and in the ledger. -/
theorem committed_kept {before : List RepositoryEvent} {event : RepositoryEvent}
    {payload : HarvestRecoveryExhausted}
    (hbody : event.body = .harvest (.recoveryExhausted payload))
    {disposition : HarvestDisposition} (hd : disposition ∈ payload.committedDispositions)
    {after : List RepositoryEvent} :
    ∀ {acc : HarvestAcc}, foldHarvest (before ++ event :: after) = .ok acc →
      (∃ run, acc.run? payload.run = some run ∧ run.recoveryExhaustion.isSome = true ∧
        disposition.occurrence ∈ run.held) ∧
        { disposition with run := payload.run, seq := event.seq } ∈ acc.ledger := by
  induction after using List.reverseRecOn with
  | nil =>
    intro next h
    obtain ⟨acc, hacc, hn⟩ := foldHarvest_snoc.mp h
    cases foldHarvestEvent_move' hacc hn with
    | exhausted run other hother hname hrun hcheck hpartition hruns hclaimed hledger =>
      rw [hbody] at hother
      cases hother
      have hheld : disposition.occurrence ∈ (exhaustRun run payload event.seq event.ts).held :=
        List.mem_map_of_mem hd
      refine ⟨⟨_, ?_, rfl, hheld⟩, ?_⟩
      · rw [run?_of_set hruns, if_pos hname.symm]
      · rw [hledger, ← hname]
        exact List.mem_append_right _ (List.mem_map.mpr ⟨disposition, hd, rfl⟩)
    | started other hother => exact absurd (hbody.symm.trans hother) nofun
    | quiet ho => exact absurd (hbody ▸ ho.2) nofun
    | resumed ho => exact absurd (hbody ▸ ho.2) nofun
    | changed ho => exact absurd (hbody ▸ ho.2) nofun
    | completed ho => exact absurd (hbody ▸ ho.2) nofun
  | append_singleton after last ih =>
    intro next h
    rw [← List.cons_append, ← List.append_assoc] at h
    obtain ⟨acc, hacc, hn⟩ := foldHarvest_snoc.mp h
    obtain ⟨⟨run, hrun, hsome, hheld⟩, hentry⟩ := ih hacc
    have hmove := foldHarvestEvent_move' hacc hn
    obtain ⟨⟨kept, hk, hkept⟩, -⟩ := hmove.closed
      ((harvestCustody_foldHarvest hacc).noted last.seq) hrun (Or.inr hsome)
    obtain ⟨entries, hledger⟩ := hmove.ledger
    refine ⟨⟨kept, hk, hkept.exhausted hsome, hkept.held ▸ hheld⟩, ?_⟩
    rw [hledger]
    exact List.mem_append_left _ hentry

/-- The event of an accepted journal, where it was appended. -/
theorem foldHarvest_at {before after : List RepositoryEvent} {event : RepositoryEvent}
    {last : HarvestAcc} (h : foldHarvest (before ++ event :: after) = .ok last) :
    ∃ acc next, foldHarvest before = .ok acc ∧ HarvestMove (acc.noted event.seq) event next := by
  rw [List.append_cons] at h
  obtain ⟨next, hn⟩ := foldHarvest_append h
  obtain ⟨acc, hacc, hn⟩ := foldHarvest_snoc.mp hn
  exact ⟨acc, next, hacc, foldHarvestEvent_move' hacc hn⟩

/-- An event that releases is an accepted exhaustion of a run that holds the occurrence. -/
theorem HarvestMove.releases {acc next : HarvestAcc} {event : RepositoryEvent}
    (h : HarvestMove acc event next) {o : OccurrenceKey} (ho : Releases event o) :
    ∃ run payload, event.body = .harvest (.recoveryExhausted payload) ∧
      run.run = payload.run ∧ acc.run? run.run = some run ∧ run.recoveryExhaustion = none ∧
      ExactPartition run payload ∧ o ∈ payload.releasedObservations ∧
      (acc.claim? (occurrenceKey o)).map (·.run) = some run.run := by
  obtain ⟨released, hother, hm⟩ := ho
  cases h with
  | exhausted run payload hbody hname hrun hcheck hpartition hruns hclaimed hledger =>
    rw [hbody] at hother
    cases hother
    exact ⟨run, _, hbody, hname, hrun, (of_checkExhaustion hcheck).1,
      exactPartition_of_checkPartition hpartition, hm,
      (foldlM_releaseClaim hclaimed).1 _ (List.mem_map_of_mem hm)⟩
  | started other hbody => exact absurd (hother.symm.trans hbody) nofun
  | quiet ho => exact absurd (hother ▸ ho.2) nofun
  | resumed ho => exact absurd (hother ▸ ho.2) nofun
  | changed ho => exact absurd (hother ▸ ho.2) nofun
  | completed ho => exact absurd (hother ▸ ho.2) nofun

/-- Nothing releases what an exhaustion committed, that exhaustion included. -/
theorem not_releases_of_committed {before : List RepositoryEvent} {event : RepositoryEvent}
    {payload : HarvestRecoveryExhausted}
    (hbody : event.body = .harvest (.recoveryExhausted payload))
    {disposition : HarvestDisposition} (hd : disposition ∈ payload.committedDispositions)
    {after : List RepositoryEvent} {last : HarvestAcc}
    (h : foldHarvest (before ++ event :: after) = .ok last) {later : RepositoryEvent}
    (hlater : later ∈ event :: after) : ¬Releases later disposition.occurrence := by
  intro hreleases
  rcases List.mem_cons.mp hlater with rfl | hlater
  · obtain ⟨acc, next, -, hmove⟩ := foldHarvest_at h
    obtain ⟨run, other, hother, -, -, -, hpartition, hm, -⟩ := hmove.releases hreleases
    rw [hbody] at hother
    cases hother
    exact hpartition.disjoint _ (List.mem_map_of_mem hm)
      (List.mem_map_of_mem (f := (occurrenceKey ·.occurrence)) hd)
  · obtain ⟨front, back, rfl⟩ := List.append_of_mem hlater
    rw [← List.cons_append, ← List.append_assoc] at h
    obtain ⟨acc, next, hacc, hmove⟩ := foldHarvest_at h
    obtain ⟨run, other, -, -, hrun, hnone, -, -, howner⟩ := hmove.releases hreleases
    obtain ⟨⟨kept, hk, hsome, hheld⟩, -⟩ := committed_kept hbody hd hacc
    have hclaim := ((harvestCustody_foldHarvest hacc).claims payload.run _).mpr ⟨kept, hk, hheld⟩
    have howner : (acc.claim? (occurrenceKey disposition.occurrence)).map (·.run)
        = some run.run := howner
    rw [hclaim] at howner
    have hrun : acc.run? run.run = some run := hrun
    rw [← Option.some.inj howner, hk] at hrun
    rw [Option.some.inj hrun, hnone] at hsome
    exact absurd hsome nofun

/-- A run may start on whatever is not claimed. -/
theorem started_ok {events : List RepositoryEvent} {acc : HarvestAcc}
    (h : foldHarvest events = .ok acc) {event : RepositoryEvent} {payload : HarvestStarted}
    (hbody : event.body = .harvest (.started payload))
    (hfresh : acc.run? payload.run = none) (hnodup : payload.observations.Nodup)
    (hfree : ∀ o ∈ payload.observations, acc.claim? (occurrenceKey o) = none) :
    ∃ next, foldHarvest (events ++ [event]) = .ok next := by
  obtain ⟨claimed, hclaimed⟩ := @exists_foldlM_claimOccurrence payload.run event.seq
    payload.observations acc.claimed hnodup hfree
  have hfold : ∃ next, foldHarvestEvent acc event = .ok next := by
    unfold foldHarvestEvent
    rw [hbody]
    show ∃ next, foldStarted (acc.noted event.seq) payload event.seq event.ts = .ok next
    unfold foldStarted
    have hfresh : (acc.noted event.seq).run? payload.run = none := hfresh
    have hclaimed : payload.observations.foldlM (claimOccurrence payload.run event.seq)
        (acc.noted event.seq).claimed = .ok claimed := hclaimed
    rw [hfresh, hclaimed]
    exact ⟨_, rfl⟩
  obtain ⟨next, hn⟩ := hfold
  exact ⟨next, foldHarvest_snoc.mpr ⟨acc, h, hn⟩⟩

/-! ## 3. Exclusive and conserved -/

/-- **Claims are exclusive and conserved**, for every journal the reducer accepts.  Each claimed
occurrence is held by one run, and what is claimed is what the starts claimed and no exhaustion
has released since; any run may start on the rest.  What an exhaustion commits is in the ledger
and never released, and a run in the ledger writes no more to it. -/
theorem harvest_claims {events : List RepositoryEvent} {state : HarvestState}
    (h : reduceHarvest events = .ok state) :
    (∀ run ∈ state.runs, ∀ other ∈ state.runs, ∀ o ∈ run.held, o ∈ other.held → run = other) ∧
    (∀ o, o ∈ state.claimed ↔ ∃ run ∈ state.runs, o ∈ run.held) ∧
    (∀ o, o ∈ state.claimed ↔ StandingClaim events o) ∧
    (∀ event payload, event.body = .harvest (.started payload) →
      (∀ run ∈ state.runs, run.run ≠ payload.run) → payload.observations.Nodup →
      (∀ o ∈ payload.observations, ¬StandingClaim events o) →
      ∃ next, reduceHarvest (events ++ [event]) = .ok next ∧
        ∀ o ∈ payload.observations, ∃ run ∈ next.runs, run.run = payload.run ∧ o ∈ run.held) ∧
    (∀ before event after payload, events = before ++ event :: after →
      event.body = .harvest (.recoveryExhausted payload) →
      ∀ disposition ∈ payload.committedDispositions,
        { disposition with run := payload.run, seq := event.seq } ∈ state.ledger ∧
        ∀ later ∈ event :: after, ¬Releases later disposition.occurrence) ∧
    (∀ before after start, events = before ++ after → reduceHarvest before = .ok start →
      ∀ entry ∈ start.ledger, state.ledger.filter (fun other => other.run = entry.run)
        = start.ledger.filter (fun other => other.run = entry.run)) := by
  obtain ⟨acc, hacc, rfl⟩ := reduceHarvest_eq_ok.mp h
  have hcustody := harvestCustody_foldHarvest hacc
  have hmem := fun run => @mem_runs acc hcustody.named run
  refine ⟨?_, ?_, ?_, ?_, ?_, ?_⟩
  · intro run hrun other hother o ho ho'
    rw [hmem] at hrun hother
    have hfirst := (hcustody.claims _ o).mpr ⟨run, hrun, ho⟩
    have hsecond := (hcustody.claims _ o).mpr ⟨other, hother, ho'⟩
    rw [hfirst] at hsecond
    have hname : run.run = other.run := congrArg HarvestClaim.run (Option.some.inj hsecond)
    rw [hname, hother] at hrun
    exact (Option.some.inj hrun).symm
  · intro o
    rw [hcustody.mem_claimed]
    constructor
    · intro hn
      obtain ⟨⟨occurrence, id⟩, hk⟩ := Option.ne_none_iff_exists'.mp hn
      have ho : o = occurrence := occurrenceKey_inj (hcustody.keyed _ _ hk)
      rw [← ho] at hk
      obtain ⟨run, hrun, hm⟩ := (hcustody.claims id o).mp hk
      refine ⟨run, (hmem run).mpr ?_, hm⟩
      rw [hcustody.named id run hrun]
      exact hrun
    · rintro ⟨run, hrun, hm⟩
      rw [(hcustody.claims run.run o).mpr ⟨run, (hmem run).mp hrun, hm⟩]
      exact nofun
  · intro o
    rw [hcustody.mem_claimed]
    exact claim?_iff_standingClaim o hacc
  · intro event payload hbody hfresh hnodup hfree
    have hnone : acc.run? payload.run = none := by
      refine Option.eq_none_iff_forall_ne_some.mpr fun run hrun => ?_
      have hname := hcustody.named _ run hrun
      refine hfresh run ((hmem run).mpr ?_) hname
      rw [hname]
      exact hrun
    obtain ⟨next, hn⟩ := started_ok hacc hbody hnone hnodup fun o ho => by
      by_contra hclaim
      exact hfree o ho ((claim?_iff_standingClaim o hacc).mp hclaim)
    refine ⟨_, reduceHarvest_eq_ok.mpr ⟨next, hn, rfl⟩, fun o ho => ?_⟩
    have hnext := harvestCustody_foldHarvest hn
    obtain ⟨before, hbefore, hstep⟩ := foldHarvest_snoc.mp hn
    cases foldHarvestEvent_move' hbefore hstep with
    | started other hother hfresh hruns hclaimed hledger =>
      rw [hbody] at hother
      cases hother
      refine ⟨startedRun payload event.seq event.ts, (mem_runs hnext.named).mpr ?_, rfl, ho⟩
      rw [run?_of_set hruns]
      exact if_pos rfl
    | exhausted run other hother => exact absurd (hbody.symm.trans hother) nofun
    | quiet ho => exact absurd (hbody ▸ ho.1) nofun
    | resumed ho => exact absurd (hbody ▸ ho.1) nofun
    | changed ho => exact absurd (hbody ▸ ho.1) nofun
    | completed ho => exact absurd (hbody ▸ ho.1) nofun
  · rintro before event after payload rfl hbody disposition hd
    exact ⟨(committed_kept hbody hd hacc).2, fun later hl =>
      not_releases_of_committed hbody hd hacc hl⟩
  · rintro before after start rfl hstart entry hentry
    obtain ⟨first, hfirst, rfl⟩ := reduceHarvest_eq_ok.mp hstart
    exact (ledger_kept hfirst hentry hacc).2

def harvestEvent (seq : Nat) (event : HarvestEvent) : RepositoryEvent :=
  { actor := .dispatcher, body := .harvest event, seq, ts := 0 }

def scanStart (run : String) (observations : List OccurrenceKey) : HarvestStarted :=
  ⟨run, observations, ⟨"scan", 1⟩, none⟩

def stoppedFiling : HarvestBoundary := ⟨.file, none, "timeout"⟩

/-- Give-up with the first observation filed and the second released. -/
def partialFiling : HarvestRecoveryExhausted :=
  { run := "first"
    stopped := stoppedFiling
    attempts := 1
    limit := 1
    releasedObservations := [⟨"build", 2⟩]
    committedDispositions := [⟨⟨"build", 1⟩, .filed, some "p1", none, none⟩]
    pendingProposals := [⟨"p2", .create, [⟨"build", 2⟩]⟩] }

def exhaustedJournal : List RepositoryEvent :=
  [harvestEvent 1 (.started (scanStart "first" [⟨"build", 1⟩, ⟨"build", 2⟩])),
    harvestEvent 2 (.failed ⟨"first", stoppedFiling, 1, false⟩),
    harvestEvent 3 (.recoveryRequested "first" 1 1),
    harvestEvent 4 .resumed,
    harvestEvent 5 (.failed ⟨"first", stoppedFiling, 2, false⟩),
    harvestEvent 6 (.recoveryExhausted partialFiling)]

theorem exists_reduceHarvest {events : List RepositoryEvent} {claimed : List OccurrenceKey}
    {runs : List String}
    (h : (reduceHarvest events).toOption.map (fun state => (state.claimed, state.runs.map (·.run)))
      = some (claimed, runs)) :
    ∃ state, reduceHarvest events = .ok state ∧ state.claimed = claimed ∧
      state.runs.map (·.run) = runs := by
  cases hr : reduceHarvest events with
  | error message =>
    rw [hr] at h
    exact absurd h nofun
  | ok state =>
    rw [hr] at h
    obtain ⟨hc, hn⟩ := Prod.mk.inj (Option.some.inj h)
    exact ⟨state, rfl, hc, hn⟩

/-- The released observation goes to a second run; the filed one stays. -/
theorem harvest_claims_exhaustedJournal :
    ∃ state, reduceHarvest exhaustedJournal = .ok state ∧
      (∃ next, reduceHarvest (exhaustedJournal
        ++ [harvestEvent 7 (.started (scanStart "second" [⟨"build", 2⟩]))]) = .ok next ∧
        ∃ run ∈ next.runs, run.run = "second" ∧ ⟨"build", 2⟩ ∈ run.held) ∧
      ¬Releases (harvestEvent 6 (.recoveryExhausted partialFiling)) ⟨"build", 1⟩ ∧
      ∀ entry ∈ state.ledger, state.ledger.filter (fun other => other.run = entry.run)
        = state.ledger.filter (fun other => other.run = entry.run) := by
  obtain ⟨state, hs, hclaimed, hruns⟩ := @exists_reduceHarvest exhaustedJournal [⟨"build", 1⟩]
    ["first"] (by decide +kernel)
  obtain ⟨-, -, hstanding, hstart, hcommitted, hledger⟩ := harvest_claims hs
  refine ⟨state, hs, ?_, ?_, hledger exhaustedJournal [] state (List.append_nil _).symm hs⟩
  · obtain ⟨next, hn, hheld⟩ := hstart
      (harvestEvent 7 (.started (scanStart "second" [⟨"build", 2⟩]))) _ rfl
      (fun run hr he => by
        have hm := List.mem_map_of_mem (f := (·.run)) hr
        rw [hruns, he] at hm
        exact absurd hm (by decide))
      (by decide) (fun o ho => by
        rw [← hstanding, hclaimed, List.mem_singleton.mp ho]
        decide)
    obtain ⟨run, hr, hname, hm⟩ := hheld ⟨"build", 2⟩ List.mem_cons_self
    exact ⟨next, hn, run, hr, hname, hm⟩
  · exact (hcommitted (exhaustedJournal.take 5) _ [] partialFiling rfl rfl _
      List.mem_cons_self).2 _ List.mem_cons_self

end Autobuild
