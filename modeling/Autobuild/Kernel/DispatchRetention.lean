/-
# What the upgrade state keeps

* A map over its limit is over by one, so every event evicts one entry at most (`Bounded`).
* The evicted run is neither authoritative nor just touched, and the newest handoff and the three
  newest settled runs are others (`Evicted`).
-/
import Autobuild.Kernel.DispatchStoredOrder

namespace Autobuild

open ObjectMap

/-! ## 1. The victim -/

/-- Of more elements than a list has, one is not in it. -/
theorem exists_notMem_of_lt {β : Type} {xs ys : List β} (hx : xs.Nodup)
    (h : ys.length < xs.length) : ∃ x ∈ xs, x ∉ ys := by
  by_contra hall
  have hsub : xs ⊆ ys := fun x hm => by
    by_contra hn
    exact hall ⟨x, hm, hn⟩
  exact absurd (List.subperm_of_subset hx hsub).length_le (Nat.not_le.mpr h)

namespace RunMark

/-- The runs an eviction leaves out. -/
def spared (marks : List RunMark) (touched : String) (authoritative : Option String) :
    List String :=
  touched :: (authoritative.toList ++ (newestHandoff marks).toList ++ newestSettled marks)

theorem length_spared_le (marks : List RunMark) (touched : String)
    (authoritative : Option String) : (spared marks touched authoritative).length ≤ 6 := by
  have hoption : ∀ id : Option String, id.toList.length ≤ 1 := by
    intro id
    cases id <;> simp
  have hsettled : (newestSettled marks).length ≤ 3 := by
    unfold newestSettled
    rw [List.length_map, List.length_take]
    exact Nat.min_le_left _ _
  have ha := hoption authoritative
  have hh := hoption (newestHandoff marks)
  unfold spared
  rw [List.length_cons, List.length_append, List.length_append]
  omega

variable {marks : List RunMark} {touched id : String} {authoritative : Option String}

theorem mem_candidates {mark : RunMark} :
    (mark ∈ marks.filter fun mark =>
      !(mark.id = touched || some mark.id = authoritative || some mark.id = newestHandoff marks ||
        mark.id ∈ newestSettled marks)) ↔
      mark ∈ marks ∧ mark.id ∉ spared marks touched authoritative := by
  unfold spared
  rw [List.mem_filter]
  simp only [Bool.not_eq_true', Bool.or_eq_false_iff, decide_eq_false_iff_not, List.mem_cons,
    List.mem_append, Option.mem_toList, not_or, eq_comm (b := some mark.id),
    and_assoc]

theorem victim_spec (h : victim marks touched authoritative = some id) :
    ∃ mark ∈ marks, mark.id = id ∧ id ∉ spared marks touched authoritative := by
  obtain ⟨mark, hbest, rfl⟩ := Option.map_eq_some_iff.mp h
  obtain ⟨hm, hspared⟩ := mem_candidates.mp (bestOf_spec goesFirst_iff hbest).1
  exact ⟨mark, hm, rfl, hspared⟩

theorem victim_ne_none (hnodup : (marks.map (·.id)).Nodup) (h : 6 < marks.length) :
    victim marks touched authoritative ≠ none := by
  intro hnone
  have hlength : (spared marks touched authoritative).length < (marks.map (·.id)).length := by
    rw [List.length_map]
    exact lt_of_le_of_lt (length_spared_le _ _ _) h
  obtain ⟨id, hid, hspared⟩ := exists_notMem_of_lt hnodup hlength
  obtain ⟨mark, hm, rfl⟩ := List.mem_map.mp hid
  have hempty := bestOf_eq_none (Option.map_eq_none_iff.mp hnone)
  exact absurd (hempty ▸ mem_candidates.mpr ⟨hm, hspared⟩) List.not_mem_nil

/-- The newest accepted handoff is another run's, and at least as new. -/
theorem exists_newer_handoff {mark : RunMark} (hm : mark ∈ marks) {seq : Nat}
    (hs : mark.handoffSeq = some seq) (hn : some mark.id ≠ newestHandoff marks) :
    ∃ other ∈ marks, other.id ≠ mark.id ∧ ∃ newer, other.handoffSeq = some newer ∧ seq ≤ newer := by
  have hrank : ∀ x y : String × Nat,
      decide (x.2 > y.2) = true ↔ OrderDual.toDual x.2 < OrderDual.toDual y.2 :=
    fun x y => decide_eq_true_iff
  have hpair : (mark.id, seq) ∈ marks.filterMap fun mark =>
      mark.handoffSeq.map fun seq => (mark.id, seq) :=
    List.mem_filterMap.mpr ⟨mark, hm, by rw [hs]; rfl⟩
  unfold newestHandoff at hn
  cases hbest : bestOf (fun x y : String × Nat => decide (x.2 > y.2))
      (marks.filterMap fun mark => mark.handoffSeq.map fun seq => (mark.id, seq)) with
  | none =>
    rw [bestOf_eq_none hbest] at hpair
    exact absurd hpair List.not_mem_nil
  | some best =>
    obtain ⟨hmem, hle⟩ := bestOf_spec hrank hbest
    obtain ⟨other, ho, hother⟩ := List.mem_filterMap.mp hmem
    obtain ⟨newer, hnewer, rfl⟩ := Option.map_eq_some_iff.mp hother
    rw [hbest] at hn
    exact ⟨other, ho, fun he => hn (congrArg some he.symm), newer, hnewer, hle _ hpair⟩

/-- Three other runs were settled at least as late. -/
theorem exists_newer_settled (hnodup : (marks.map (·.id)).Nodup) {mark : RunMark}
    (hm : mark ∈ marks) (hs : 0 ≤ mark.settledSeq) (hn : mark.id ∉ newestSettled marks) :
    ∃ others : List RunMark, (others.map (·.id)).Nodup ∧ others.length = 3 ∧
      ∀ other ∈ others, other ∈ marks ∧ other.id ≠ mark.id ∧
        mark.settledSeq ≤ other.settledSeq := by
  unfold newestSettled at hn
  have hsub : (marks.filter fun mark => mark.settledSeq ≥ 0).Sublist marks := List.filter_sublist
  have hperm := List.perm_insertionSort (fun x y : RunMark => y.settledSeq ≤ x.settledSeq)
    (marks.filter fun mark => mark.settledSeq ≥ 0)
  have hsorted := List.pairwise_insertionSort (fun x y : RunMark => y.settledSeq ≤ x.settledSeq)
    (marks.filter fun mark => mark.settledSeq ≥ 0)
  have hmem : mark ∈ (marks.filter fun mark => mark.settledSeq ≥ 0).insertionSort
      fun x y => y.settledSeq ≤ x.settledSeq :=
    hperm.mem_iff.mpr (List.mem_filter.mpr ⟨hm, decide_eq_true hs⟩)
  generalize (marks.filter fun mark => mark.settledSeq ≥ 0).insertionSort
    (fun x y => y.settledSeq ≤ x.settledSeq) = settled at hn hperm hsorted hmem
  have hids : (settled.map (·.id)).Nodup :=
    ((hperm.map _).nodup_iff).mpr (hnodup.sublist (hsub.map _))
  have hlater : mark ∈ settled.drop 3 := by
    rw [← List.take_append_drop 3 settled] at hmem
    rcases List.mem_append.mp hmem with hfirst | hlast
    · exact absurd (List.mem_map_of_mem hfirst) hn
    · exact hlast
  have hlength : (settled.take 3).length = 3 := by
    have hpos := List.length_pos_of_mem hlater
    rw [List.length_drop] at hpos
    rw [List.length_take]
    omega
  rw [← List.take_append_drop 3 settled] at hsorted
  refine ⟨settled.take 3, hids.sublist ((List.take_sublist 3 settled).map _), hlength,
    fun other ho => ⟨?_, ?_, (List.pairwise_append.mp hsorted).2.2 other ho mark hlater⟩⟩
  · exact hsub.subset (hperm.mem_iff.mp (List.mem_of_mem_take ho))
  · intro he
    exact hn (he ▸ List.mem_map_of_mem ho)

end RunMark

/-! ## 2. Runs -/

/-- What is true of a run that leaves `acc` when `touched` is the run of the event. -/
structure Evicted (acc : DispatchUpgradeState) (touched id : String) (run : UpgradeRun) :
    Prop where
  touched : id ≠ touched
  authoritative : acc.authoritativeRun ≠ some id
  handoff : ∀ fact, run.handoff = some fact → ∃ other run', acc.runs.get? other = some run' ∧
    other ≠ id ∧ ∃ fact', run'.handoff = some fact' ∧ fact.seq ≤ fact'.seq
  settled : 0 ≤ run.settledSeq → ∃ others : List String, others.Nodup ∧ others.length = 3 ∧
    ∀ other ∈ others, other ≠ id ∧
      ∃ run', acc.runs.get? other = some run' ∧ run.settledSeq ≤ run'.settledSeq

/-- Every map and the window of rollbacks is within the limit. -/
structure Bounded (acc : DispatchUpgradeState) : Prop where
  runs : acc.runs.size ≤ upgradeHistoryLimit
  lineages : acc.lineages.size ≤ upgradeHistoryLimit
  rollbackIds : acc.rollbackIds.length ≤ upgradeHistoryLimit
  holds : acc.holds.size ≤ upgradeHistoryLimit

section

variable {acc : DispatchUpgradeState} {touched id : String} {run : UpgradeRun}

theorem ids_marks (acc : DispatchUpgradeState) : acc.marks.map (·.id) = acc.runs.keys := by
  unfold DispatchUpgradeState.marks
  rw [List.map_map]
  rfl

theorem nodup_marks (acc : DispatchUpgradeState) : (acc.marks.map (·.id)).Nodup := by
  rw [ids_marks]
  exact acc.runs.nodup

theorem length_marks (acc : DispatchUpgradeState) : acc.marks.length = acc.runs.size :=
  List.length_map _

theorem evicted_of_victim
    (h : RunMark.victim acc.marks touched acc.authoritativeRun = some id)
    (hrun : acc.runs.get? id = some run) : Evicted acc touched id run := by
  obtain ⟨mark, hm, hid, hspared⟩ := RunMark.victim_spec h
  have hmark : RunMark.of (id, run) ∈ acc.marks := mem_marks.mpr ⟨id, run, hrun, rfl⟩
  unfold RunMark.spared at hspared
  simp only [List.mem_cons, List.mem_append, Option.mem_toList, not_or] at hspared
  obtain ⟨htouched, ⟨hauthoritative, hnewest⟩, hsettled⟩ := hspared
  refine ⟨htouched, hauthoritative, fun fact hf => ?_, fun hs => ?_⟩
  · have hseq : (RunMark.of (id, run)).handoffSeq = some fact.seq := congrArg (Option.map _) hf
    obtain ⟨other, ho, hne, newer, hnewer, hle⟩ :=
      RunMark.exists_newer_handoff hmark hseq fun he => hnewest he.symm
    obtain ⟨other, run', hrun', rfl⟩ := mem_marks.mp ho
    obtain ⟨fact', hf', rfl⟩ := Option.map_eq_some_iff.mp hnewer
    exact ⟨other, run', hrun', hne, fact', hf', hle⟩
  · obtain ⟨others, hnodup, hlength, hothers⟩ :=
      RunMark.exists_newer_settled (nodup_marks acc) hmark hs hsettled
    refine ⟨others.map (·.id), hnodup, (List.length_map _).trans hlength, fun other ho => ?_⟩
    obtain ⟨mark', hm', rfl⟩ := List.mem_map.mp ho
    obtain ⟨hin, hne, hle⟩ := hothers mark' hm'
    obtain ⟨other, run', hrun', rfl⟩ := mem_marks.mp hin
    exact ⟨hne, run', hrun', hle⟩

/-- Over the limit by one, one run goes. -/
theorem retainRuns_cases (h : acc.runs.size ≤ upgradeHistoryLimit + 1) (touched : String) :
    (acc.runs.size ≤ upgradeHistoryLimit ∧ acc.retainRuns touched = acc) ∨
      ∃ id, RunMark.victim acc.marks touched acc.authoritativeRun = some id ∧
        acc.retainRuns touched = { acc with runs := acc.runs.erase id } ∧
        (acc.runs.erase id).size ≤ upgradeHistoryLimit := by
  unfold DispatchUpgradeState.retainRuns
  by_cases hle : acc.runs.size ≤ upgradeHistoryLimit
  · refine .inl ⟨hle, ?_⟩
    rw [Nat.sub_eq_zero_of_le hle]
    rfl
  · have hone : acc.runs.size - upgradeHistoryLimit = 1 := by omega
    have hlarge : 6 < acc.marks.length := by
      rw [length_marks]
      unfold upgradeHistoryLimit at hle
      omega
    rw [hone]
    cases hv : RunMark.victim acc.marks touched acc.authoritativeRun with
    | none => exact absurd hv (RunMark.victim_ne_none (nodup_marks acc) hlarge)
    | some id =>
      obtain ⟨mark, hm, hid, -⟩ := RunMark.victim_spec hv
      have hkey : id ∈ acc.runs.keys := by
        rw [← ids_marks, ← hid]
        exact List.mem_map_of_mem hm
      have hsize := size_erase hkey
      refine .inr ⟨id, rfl, ?_, by omega⟩
      show acc.evictRun touched = _
      unfold DispatchUpgradeState.evictRun
      rw [hv]

/-- The state with the event noted, before runs are evicted. -/
def DispatchUpgradeState.noted (acc : DispatchUpgradeState) (seq : Nat) (event : UpgradeEvent) :
    DispatchUpgradeState :=
  { acc with
    authoritativeRun := acc.authorityAfter event
    runs := acc.runs.set event.run ((acc.runOf event.run).note seq event) }

theorem Bounded.noteUpgrade (h : Bounded acc) (seq : Nat) (event : UpgradeEvent) :
    Bounded (acc.noteUpgrade seq event) := by
  have hsize : (acc.noted seq event).runs.size ≤ upgradeHistoryLimit + 1 :=
    (size_set_le _ _ _).trans (Nat.succ_le_succ h.runs)
  show Bounded ((acc.noted seq event).retainRuns event.run)
  obtain ⟨hle, heq⟩ | ⟨id, -, heq, hle⟩ := retainRuns_cases hsize event.run
  · rw [heq]
    exact { h with runs := hle }
  · rw [heq]
    exact { h with runs := hle }

theorem evicted_of_noteUpgrade (h : Bounded acc) {seq : Nat} {event : UpgradeEvent}
    (hrun : (acc.noted seq event).runs.get? id = some run)
    (hgone : (acc.noteUpgrade seq event).runs.get? id = none) :
    Evicted (acc.noted seq event) event.run id run := by
  have hsize : (acc.noted seq event).runs.size ≤ upgradeHistoryLimit + 1 :=
    (size_set_le _ _ _).trans (Nat.succ_le_succ h.runs)
  have hgone' : ((acc.noted seq event).retainRuns event.run).runs.get? id = none := hgone
  obtain ⟨-, heq⟩ | ⟨other, hv, heq, -⟩ := retainRuns_cases hsize event.run
  · rw [heq, hrun] at hgone'
    exact absurd hgone' nofun
  · rw [heq, get?_erase] at hgone'
    split at hgone'
    · rename_i he
      rw [he] at hrun ⊢
      exact evicted_of_victim hv hrun
    · rw [hrun] at hgone'
      exact absurd hgone' nofun

end

/-! ## 3. Lineages and holds -/

section

variable {acc : DispatchUpgradeState}

/-- Every lineage that is not kept goes, as long as there are too many. -/
theorem size_evictLineages (keep : String → Bool) :
    ∀ (keys : List String) (lineages : ObjectMap String String), keys.Nodup →
      (∀ run ∈ keys, run ∈ lineages.keys) →
      (DispatchUpgradeState.evictLineages keep keys lineages).size ≤ upgradeHistoryLimit ∨
        (DispatchUpgradeState.evictLineages keep keys lineages).size
          + (keys.filter fun run => !keep run).length ≤ lineages.size := by
  intro keys
  induction keys with
  | nil => exact fun lineages _ _ => .inr (Nat.le_refl _)
  | cons run rest ih =>
    intro lineages hnodup hmem
    obtain ⟨hrun, hrest⟩ := List.nodup_cons.mp hnodup
    unfold DispatchUpgradeState.evictLineages
    by_cases hsize : lineages.size ≤ upgradeHistoryLimit
    · rw [if_pos hsize]
      exact .inl hsize
    · rw [if_neg hsize]
      cases hkeep : keep run with
      | true =>
        rw [List.filter_cons_of_neg (by simp [hkeep])]
        exact ih lineages hrest fun x hx => hmem x (List.mem_cons_of_mem _ hx)
      | false =>
        have hs := size_erase (hmem run List.mem_cons_self)
        have hrest' : ∀ x ∈ rest, x ∈ (lineages.erase run).keys := by
          intro x hx
          have hne : x ≠ run := fun he => hrun (he ▸ hx)
          rw [keys_erase]
          exact (List.mem_erase_of_ne hne).mpr (hmem x (List.mem_cons_of_mem _ hx))
        rw [List.filter_cons_of_pos (by simp [hkeep]), List.length_cons]
        rcases ih (lineages.erase run) hrest hrest' with hle | hle
        · exact .inl hle
        · exact .inr (by rw [if_neg Bool.false_ne_true]; omega)

/-- Of the keys at most two are kept. -/
theorem length_kept_le (acc : DispatchUpgradeState) (run : String) {keys : List String}
    (hnodup : keys.Nodup) : (keys.filter fun j => acc.keepsLineage run j).length ≤ 2 := by
  by_contra hlt
  have hlength : (run :: acc.authoritativeRun.toList).length ≤ 2 := by
    cases acc.authoritativeRun <;> simp
  obtain ⟨j, hj, hnot⟩ := exists_notMem_of_lt (hnodup.sublist List.filter_sublist)
    (lt_of_le_of_lt hlength (Nat.not_le.mp hlt))
  have hkeep := (List.mem_filter.mp hj).2
  unfold DispatchUpgradeState.keepsLineage at hkeep
  simp only [List.mem_cons, Option.mem_toList, not_or] at hnot
  simp only [Bool.or_eq_true, decide_eq_true_eq] at hkeep
  rcases hkeep with hkeep | hkeep
  · exact hnot.2 hkeep.symm
  · exact hnot.1 hkeep

theorem Bounded.noteStart (h : Bounded acc) (run : String) (lineage : Option String) :
    Bounded (acc.noteStart run lineage) := by
  cases lineage with
  | none => exact h
  | some lineage =>
    refine { h with lineages := ?_ }
    have hle : (acc.startedLineages run lineage).size ≤ upgradeHistoryLimit + 1 :=
      (size_set_le _ _ _).trans (Nat.succ_le_succ ((size_erase_le _ _).trans h.lineages))
    have hnodup : (acc.startedLineages run lineage).keys.Nodup :=
      (acc.startedLineages run lineage).nodup
    have hlength := size_eq_length_keys (acc.startedLineages run lineage)
    have hsplit := List.length_eq_length_filter_add (l := (acc.startedLineages run lineage).keys)
      fun j => acc.keepsLineage run j
    have hkept := length_kept_le acc run hnodup
    rcases size_evictLineages (acc.keepsLineage run) _ (acc.startedLineages run lineage) hnodup
      fun _ hm => hm with hsize | hsize
    · exact hsize
    · unfold DispatchUpgradeState.noteStart
      unfold upgradeHistoryLimit at hle ⊢
      dsimp only
      omega

/-- The authoritative run and the started run keep their lineages. -/
theorem noteStart_keeps (acc : DispatchUpgradeState) {run lineage id : String}
    (hid : acc.authoritativeRun = some id ∨ id = run) :
    (acc.noteStart run (some lineage)).lineages.get? id
      = (acc.startedLineages run lineage).get? id := by
  have hkeep : acc.keepsLineage run id = true := by
    unfold DispatchUpgradeState.keepsLineage
    simp only [Bool.or_eq_true, decide_eq_true_eq]
    exact hid.imp_left Eq.symm
  have hdue : id ∉ acc.dueLineages run lineage := by
    intro hmem
    have hnot := (List.mem_filter.mp (List.mem_of_mem_take hmem)).2
    rw [hkeep] at hnot
    exact absurd hnot Bool.false_ne_true
  rw [get?_noteStart, if_neg hdue]

/-- Of the holds two at most are left out, so there is an oldest one of the others. -/
theorem oldestHold_ne_none (current : Option String) (lineage : String)
    (h : 2 < acc.holds.size) : acc.oldestHold current lineage ≠ none := by
  intro hnone
  have hempty := bestOf_eq_none (Option.map_eq_none_iff.mp hnone)
  rw [List.map_eq_nil_iff] at hempty
  have hlength : (lineage :: current.toList).length ≤ 2 := by
    cases current <;> simp
  rw [size_eq_length_keys] at h
  obtain ⟨other, ho, hnot⟩ := exists_notMem_of_lt acc.holds.nodup (lt_of_le_of_lt hlength h)
  obtain ⟨⟨other, hold⟩, hm, rfl⟩ := List.mem_map.mp ho
  simp only [List.mem_cons, Option.mem_toList, not_or] at hnot
  have hin : (other, hold) ∈ acc.holds.entries.filter fun entry =>
      some entry.1 ≠ current ∧ entry.1 ≠ lineage :=
    List.mem_filter.mpr ⟨hm, decide_eq_true ⟨fun he => hnot.2 he.symm, hnot.1⟩⟩
  rw [hempty] at hin
  exact absurd hin List.not_mem_nil

theorem oldestHold_spec {current : Option String} {lineage oldest : String}
    (h : acc.oldestHold current lineage = some oldest) :
    oldest ∈ acc.holds.keys ∧ some oldest ≠ current ∧ oldest ≠ lineage := by
  have hrank : ∀ x y : String × Nat, decide (x.2 < y.2) = true ↔ x.2 < y.2 :=
    fun x y => decide_eq_true_iff
  obtain ⟨pair, hbest, rfl⟩ := Option.map_eq_some_iff.mp h
  obtain ⟨⟨other, hold⟩, hm, rfl⟩ := List.mem_map.mp (bestOf_spec hrank hbest).1
  obtain ⟨hin, hother⟩ := List.mem_filter.mp hm
  exact ⟨List.mem_map_of_mem hin, of_decide_eq_true hother⟩

theorem Bounded.noteRollback (h : Bounded acc) (seq : Nat) (payload : RuntimeRolledBack) :
    Bounded (acc.noteRollback seq payload) := by
  unfold DispatchUpgradeState.noteRollback
  split
  · exact h
  · have hids : ∀ ids : List String,
        (ids.drop (ids.length - upgradeHistoryLimit)).length ≤ upgradeHistoryLimit := by
      intro ids
      rw [List.length_drop]
      omega
    have hle : (acc.holds.set payload.lineage ⟨payload, seq⟩).size ≤ upgradeHistoryLimit + 1 :=
      (size_set_le _ _ _).trans (Nat.succ_le_succ h.holds)
    dsimp only
    by_cases hsize : (acc.holds.set payload.lineage ⟨payload, seq⟩).size ≤ upgradeHistoryLimit
    · rw [Nat.sub_eq_zero_of_le hsize]
      exact ⟨h.runs, h.lineages, hids _, hsize⟩
    · have hone :
          (acc.holds.set payload.lineage ⟨payload, seq⟩).size - upgradeHistoryLimit = 1 := by
        omega
      have htwo : 2 < (acc.holds.set payload.lineage ⟨payload, seq⟩).size := by
        unfold upgradeHistoryLimit at hsize
        omega
      rw [hone, Function.iterate_one]
      unfold DispatchUpgradeState.evictHold
      split
      · rename_i oldest hoid
        have herase := size_erase (oldestHold_spec hoid).1
        refine ⟨h.runs, h.lineages, hids _, ?_⟩
        dsimp only at herase ⊢
        omega
      · rename_i hnone
        exact absurd hnone (oldestHold_ne_none _ _ htwo)

theorem Bounded.noteCleared (h : Bounded acc) (payload : RollbackHoldCleared) :
    Bounded (acc.noteCleared payload) := by
  unfold DispatchUpgradeState.noteCleared
  split
  · exact { h with holds := (size_erase_le _ _).trans h.holds }
  · exact h

/-- **Every event keeps the state within its limits.** -/
theorem Bounded.foldDispatch (h : Bounded acc) (event : DispatchEvent) :
    Bounded (foldDispatch acc event) := by
  unfold Autobuild.foldDispatch
  cases event.body with
  | runStarted run lineage => exact h.noteStart run lineage
  | tickStarted run => exact { h with }
  | rolledBack payload => exact h.noteRollback event.seq payload
  | rollbackHoldCleared payload => exact h.noteCleared payload
  | upgrade upgrade => exact h.noteUpgrade event.seq upgrade
  | other type => exact h

end

end Autobuild
