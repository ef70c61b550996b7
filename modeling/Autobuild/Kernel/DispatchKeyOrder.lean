/-
# The upgrade state up to the order of its keys

The accumulator is kept in a `jsonb` column, which gives objects back with their keys in another
order.

* `SameRun` and `SameUpgrade`: the same up to the order of keys.
* The evictions of runs and holds choose by seq, and the facts of two runs are of different events
  (`FactsOf`), so they choose alike (`SameUpgrade.retainRuns`, `SameUpgrade.evictHold`).
-/
import Autobuild.Kernel.DispatchUpgrade
import Mathlib.Data.List.Lex
import Mathlib.Data.Prod.Lex

namespace Autobuild

open ObjectMap

/-! ## 1. Runs up to the order of keys -/

def UpgradeIdentity.canonical (payload : UpgradeIdentity) : UpgradeIdentity :=
  { payload with fromRuntime := payload.fromRuntime.canonical }

def Handoff.canonical (payload : Handoff) : Handoff :=
  { payload with
    toUpgradeIdentity := payload.toUpgradeIdentity.canonical
    toRuntime := payload.toRuntime.canonical }

def WithSeq.mapPayload {α β : Type} (f : α → β) (fact : WithSeq α) : WithSeq β :=
  ⟨f fact.payload, fact.seq⟩

namespace UpgradeRun

/-- The facts with their runtimes in the order of the schema, without the dictionary. -/
def bare (run : UpgradeRun) : UpgradeRun :=
  { run with
    detected := run.detected.map (·.mapPayload UpgradeIdentity.canonical)
    failure := run.failure.map (·.mapPayload fun payload =>
      { payload with toUpgradeIdentity := payload.toUpgradeIdentity.canonical })
    prepared := run.prepared.map (·.mapPayload Handoff.canonical)
    request := run.request.map (·.mapPayload fun payload =>
      { payload with toHandoff := payload.toHandoff.canonical })
    handoff := run.handoff.map (·.mapPayload fun payload =>
      { payload with toHandoff := payload.toHandoff.canonical })
    released := run.released.map (·.mapPayload Handoff.canonical)
    takeover := run.takeover.map (·.mapPayload fun payload =>
      { payload with toHandoff := payload.toHandoff.canonical })
    completed := run.completed.map (·.mapPayload fun payload =>
      { payload with toHandoff := payload.toHandoff.canonical })
    outstanding := ∅ }

end UpgradeRun

/-- The same run, perhaps with keys in another order. -/
structure SameRun (run run' : UpgradeRun) : Prop where
  bare : run.bare = run'.bare
  outstanding : SameEntries run.outstanding run'.outstanding

theorem SameRun.refl (run : UpgradeRun) : SameRun run run := ⟨rfl, SameEntries.refl _⟩

theorem factSeq_map {α β : Type} (f : α → β) (fact : Option (WithSeq α)) :
    factSeq (fact.map (·.mapPayload f)) = factSeq fact := by
  cases fact <;> rfl

theorem map_seq_mapPayload {α β : Type} (f : α → β) (fact : Option (WithSeq α)) :
    (fact.map (·.mapPayload f)).map (·.seq) = fact.map (·.seq) := by
  cases fact <;> rfl

/-- The eviction reads nothing that depends on the order. -/
theorem mark_bare (id : String) (run : UpgradeRun) :
    RunMark.of (id, run.bare) = RunMark.of (id, run) := by
  have hhandoff : (RunMark.of (id, run.bare)).handoffSeq = (RunMark.of (id, run)).handoffSeq :=
    map_seq_mapPayload _ run.handoff
  have hsettled : run.bare.settledSeq = run.settledSeq := by
    unfold UpgradeRun.settledSeq UpgradeRun.bare
    dsimp only
    rw [factSeq_map]
    cases run.completed <;> rfl
  have htier : run.bare.evictionTier = run.evictionTier := by
    unfold UpgradeRun.evictionTier UpgradeRun.bare
    dsimp only
    rw [Option.isNone_map, Option.isSome_map]
  have hrecency : run.bare.recency = run.recency := by
    unfold UpgradeRun.recency UpgradeRun.bare
    dsimp only
    simp only [factSeq_map]
  unfold RunMark.of at hhandoff ⊢
  dsimp only at hhandoff ⊢
  rw [hhandoff, hsettled, htier, hrecency]

theorem SameRun.mark {run run' : UpgradeRun} (h : SameRun run run') (id : String) :
    RunMark.of (id, run) = RunMark.of (id, run') := by
  rw [← mark_bare id run, h.bare, mark_bare]

/-- What is not a comparison of runtimes reads no order. -/
theorem admits_bare (run : UpgradeRun) (event : UpgradeEvent) :
    run.admits event = ({ run.bare with outstanding := run.outstanding } : UpgradeRun).admits
      event := by
  unfold UpgradeRun.admits UpgradeRun.bare
  cases event with
  | targetResolved payload => rfl
  | detected payload => rfl
  | failed payload =>
    dsimp only
    cases run.handoff <;> rfl
  | targetPrepared payload =>
    dsimp only
    cases run.handoff <;> cases run.completed <;> cases run.prepared <;> cases run.request <;>
      cases run.failure <;> rfl
  | yieldRequested payload =>
    dsimp only
    cases run.failure <;> cases run.request <;> cases run.handoff <;> rfl
  | handoffStarted payload =>
    dsimp only
    cases run.handoff <;> cases run.failure <;> cases run.request <;> rfl
  | terminalReleased payload => rfl
  | takeover payload =>
    dsimp only
    cases run.request <;> rfl
  | drainDeadline payload =>
    dsimp only
    cases run.completed <;> rfl
  | drainSettled payload =>
    dsimp only
    cases run.completed <;> rfl
  | handoffCompleted payload =>
    dsimp only
    cases run.request <;> rfl

theorem SameRun.admits {run run' : UpgradeRun} (h : SameRun run run') (event : UpgradeEvent) :
    run.admits event = run'.admits event := by
  rw [admits_bare run, admits_bare run', h.bare]
  unfold UpgradeRun.admits
  cases event with
  | drainSettled payload =>
    dsimp only
    rw [h.outstanding]
  | handoffCompleted payload =>
    dsimp only
    rw [h.outstanding.size_eq]
  | _ => rfl

/-- An event with the runtimes that are kept of it in the order of the schema. -/
def canonicalEvent : UpgradeEvent → UpgradeEvent
  | .detected payload => .detected payload.canonical
  | .failed payload =>
    .failed { payload with toUpgradeIdentity := payload.toUpgradeIdentity.canonical }
  | .targetPrepared payload => .targetPrepared payload.canonical
  | .yieldRequested payload =>
    .yieldRequested { payload with toHandoff := payload.toHandoff.canonical }
  | .handoffStarted payload =>
    .handoffStarted { payload with toHandoff := payload.toHandoff.canonical }
  | .terminalReleased payload => .terminalReleased payload.canonical
  | .takeover payload => .takeover { payload with toHandoff := payload.toHandoff.canonical }
  | .handoffCompleted payload =>
    .handoffCompleted { payload with toHandoff := payload.toHandoff.canonical }
  | event => event

/-- What an accepted event writes on the facts is its own runtimes. -/
theorem bare_accept (run : UpgradeRun) (seq : Nat) (event : UpgradeEvent) :
    (run.accept seq event).bare
      = { run.bare.accept seq (canonicalEvent event) with outstanding := ∅ } := by
  unfold UpgradeRun.accept UpgradeRun.bare
  cases event with
  | failed payload =>
    dsimp only [canonicalEvent]
    cases run.request with
    | none => rfl
    | some fact =>
      by_cases hc : fact.payload.correlation = payload.correlation <;>
        simp [Option.filter, WithSeq.mapPayload, Handoff.canonical, UpgradeIdentity.canonical, hc]
  | terminalReleased payload =>
    dsimp only [canonicalEvent]
    rw [Option.map_or]
    rfl
  | takeover payload =>
    dsimp only [canonicalEvent]
    rw [Option.map_or]
    rfl
  | handoffCompleted payload =>
    dsimp only [canonicalEvent]
    rw [Option.map_or]
    rfl
  | _ => rfl

/-- **An event accepted on both sides leaves the same run.** -/
theorem SameRun.accept {run run' : UpgradeRun} (h : SameRun run run') (seq : Nat)
    (event : UpgradeEvent) : SameRun (run.accept seq event) (run'.accept seq event) := by
  constructor
  · rw [bare_accept, bare_accept, h.bare]
  · cases event with
    | handoffStarted payload => exact SameEntries.refl _
    | drainSettled payload => exact h.outstanding.erase payload.slug
    | _ => exact h.outstanding

/-! ## 2. The state up to the order of keys -/

/-- The same upgrade state, perhaps with keys in another order. -/
structure SameUpgrade (acc acc' : DispatchUpgradeState) : Prop where
  authoritativeRun : acc.authoritativeRun = acc'.authoritativeRun
  runs : ∀ id, Option.Rel SameRun (acc.runs.get? id) (acc'.runs.get? id)
  lineages : SameEntries acc.lineages acc'.lineages
  rollbackIds : acc.rollbackIds = acc'.rollbackIds
  lastRollback : acc.lastRollback = acc'.lastRollback
  holds : SameEntries acc.holds acc'.holds

theorem rel_sameRun_refl (run : Option UpgradeRun) : Option.Rel SameRun run run := by
  cases run with
  | none => exact .none
  | some run => exact .some (SameRun.refl run)

theorem SameUpgrade.refl (acc : DispatchUpgradeState) : SameUpgrade acc acc :=
  ⟨rfl, fun _ => rel_sameRun_refl _, SameEntries.refl _, rfl, rfl, SameEntries.refl _⟩

theorem sameRun_getD {run run' : Option UpgradeRun} (h : Option.Rel SameRun run run') :
    SameRun (run.getD {}) (run'.getD {}) := by
  cases h with
  | none => exact SameRun.refl _
  | some hr => exact hr

theorem map_mark_eq {run run' : Option UpgradeRun} (h : Option.Rel SameRun run run')
    (id : String) :
    run.map (fun run => RunMark.of (id, run)) = run'.map fun run => RunMark.of (id, run) := by
  cases h with
  | none => rfl
  | some hr => exact congrArg some (hr.mark id)

theorem SameUpgrade.runOf {acc acc' : DispatchUpgradeState} (h : SameUpgrade acc acc')
    (run : String) : SameRun (acc.runOf run) (acc'.runOf run) := sameRun_getD (h.runs run)

theorem SameUpgrade.marks_perm {acc acc' : DispatchUpgradeState} (h : SameUpgrade acc acc') :
    acc.marks.Perm acc'.marks := by
  have hs : SameEntries (acc.runs.mapValues fun id run => RunMark.of (id, run))
      (acc'.runs.mapValues fun id run => RunMark.of (id, run)) := by
    intro id
    rw [get?_mapValues, get?_mapValues]
    exact map_mark_eq (h.runs id) id
  have hp := (sameEntries_iff_perm.mp hs).map Prod.snd
  unfold mapValues at hp
  rwa [List.map_map, List.map_map] at hp

theorem SameUpgrade.runs_size {acc acc' : DispatchUpgradeState} (h : SameUpgrade acc acc') :
    acc.runs.size = acc'.runs.size := by
  have hl := h.marks_perm.length_eq
  unfold DispatchUpgradeState.marks at hl
  rwa [List.length_map, List.length_map] at hl

/-! ## 3. What the evictions compare -/

/-- `seq` is of a fact the eviction compares. -/
def UpgradeRun.Dated (run : UpgradeRun) (seq : Nat) : Prop :=
  run.handoff.map (·.seq) = some seq ∨ run.completed.map (·.seq) = some seq ∨
    run.failure.map (·.seq) = some seq

/-- The run or the lineage an event is kept under. -/
def DispatchEvent.subject (event : DispatchEvent) : Option String :=
  match event.body with
  | .upgrade upgrade => some upgrade.run
  | .rolledBack payload => some payload.lineage
  | _ => none

/-- The facts of a run and of a hold are those of its own events. -/
structure FactsOf (journal : List DispatchEvent) (acc : DispatchUpgradeState) : Prop where
  runs : ∀ id run, acc.runs.get? id = some run → ∀ seq, run.Dated seq →
    ∃ event ∈ journal, event.seq = seq ∧ event.subject = some id
  holds : ∀ lineage hold, acc.holds.get? lineage = some hold →
    ∃ event ∈ journal, event.seq = hold.seq ∧ event.subject = some lineage

/-- The seqs of a journal rise. -/
def Rising (journal : List DispatchEvent) : Prop := journal.Pairwise fun x y => x.seq < y.seq

theorem Rising.eq_of_seq {journal : List DispatchEvent} (h : Rising journal) {x y : DispatchEvent}
    (hx : x ∈ journal) (hy : y ∈ journal) (hxy : x.seq = y.seq) : x = y := by
  have hlt : (journal.map (·.seq)).Pairwise (· < ·) := List.pairwise_map.mpr h
  have hnodup : (journal.map (·.seq)).Nodup := hlt.imp fun hxy => hxy.ne
  exact List.inj_on_of_nodup_map hnodup hx hy hxy

namespace RunMark

/-- Two runs are never level in what is compared. -/
structure Apart (marks : List RunMark) : Prop where
  id : ∀ x ∈ marks, ∀ y ∈ marks, x.id = y.id → x = y
  handoff : ∀ x ∈ marks, ∀ y ∈ marks, ∀ seq, x.handoffSeq = some seq → y.handoffSeq = some seq →
    x = y
  settled : ∀ x ∈ marks, ∀ y ∈ marks, 0 ≤ x.settledSeq → x.settledSeq = y.settledSeq → x = y

variable {marks marks' : List RunMark}

theorem newestHandoff_perm (h : Apart marks) (hp : marks.Perm marks') :
    newestHandoff marks = newestHandoff marks' := by
  have hrank : ∀ x y : String × Nat,
      decide (x.2 > y.2) = true ↔ OrderDual.toDual x.2 < OrderDual.toDual y.2 :=
    fun x y => decide_eq_true_iff
  unfold newestHandoff
  refine congrArg _ (bestOf_perm hrank (hp.filterMap _) fun x hx y hy hxy => ?_)
  obtain ⟨mark, hm, hx⟩ := List.mem_filterMap.mp hx
  obtain ⟨mark', hm', hy⟩ := List.mem_filterMap.mp hy
  obtain ⟨seq, hs, rfl⟩ := Option.map_eq_some_iff.mp hx
  obtain ⟨seq', hs', rfl⟩ := Option.map_eq_some_iff.mp hy
  have hseq : seq = seq' := hxy
  rw [← hseq] at hs' ⊢
  rw [h.handoff mark hm mark' hm' seq hs hs']

instance : Std.Total fun x y : RunMark => y.settledSeq ≤ x.settledSeq :=
  ⟨fun x y => le_total y.settledSeq x.settledSeq⟩

instance : IsTrans RunMark fun x y => y.settledSeq ≤ x.settledSeq :=
  ⟨fun _ _ _ hxy hyz => le_trans hyz hxy⟩

theorem newestSettled_perm (h : Apart marks) (hp : marks.Perm marks') :
    newestSettled marks = newestSettled marks' := by
  unfold newestSettled
  rw [insertionSort_eq_of_perm (hp.filter _)]
  intro x hx y hy hxy hyx
  obtain ⟨hmx, hpos⟩ := List.mem_filter.mp hx
  obtain ⟨hmy, -⟩ := List.mem_filter.mp hy
  exact h.settled x hmx y hmy (of_decide_eq_true hpos) (le_antisymm hyx hxy)

/-- The order of `goesFirst`. -/
def rank (mark : RunMark) : Nat ×ₗ Int ×ₗ List Nat :=
  toLex (mark.tier, toLex (mark.recency, JsText.codeUnits mark.id))

theorem goesFirst_iff (x y : RunMark) : goesFirst x y = true ↔ x.rank < y.rank := by
  unfold goesFirst rank
  rw [decide_eq_true_eq, Prod.Lex.toLex_lt_toLex, Prod.Lex.toLex_lt_toLex]

theorem victim_perm (h : Apart marks) (hp : marks.Perm marks') (touched : String)
    (authoritative : Option String) :
    victim marks touched authoritative = victim marks' touched authoritative := by
  unfold victim
  rw [newestHandoff_perm h hp, newestSettled_perm h hp]
  refine congrArg _ (bestOf_perm goesFirst_iff (hp.filter _) fun x hx y hy hxy => ?_)
  have hid : JsText.codeUnits x.id = JsText.codeUnits y.id := congrArg (fun r => r.2.2) hxy
  exact h.id x (List.mem_filter.mp hx).1 y (List.mem_filter.mp hy).1
    (JsText.codeUnits_injective hid)

theorem victim_ne {marks : List RunMark} {touched id : String} {authoritative : Option String}
    (h : victim marks touched authoritative = some id) : id ≠ touched := by
  obtain ⟨mark, hbest, rfl⟩ := Option.map_eq_some_iff.mp h
  have hm := (List.mem_filter.mp (bestOf_spec goesFirst_iff hbest).1).2
  intro he
  simp [he] at hm

end RunMark

/-! ## 4. The evictions -/

theorem dated_of_settledSeq {run : UpgradeRun} (h : 0 ≤ run.settledSeq) :
    ∃ seq : Nat, run.settledSeq = seq ∧ run.Dated seq := by
  unfold UpgradeRun.settledSeq at h ⊢
  cases hc : run.completed with
  | some completed => exact ⟨completed.seq, rfl, .inr (.inl (by rw [hc]; rfl))⟩
  | none =>
    rw [hc] at h
    cases hf : run.failure with
    | some failure => exact ⟨failure.seq, rfl, .inr (.inr (by rw [hf]; rfl))⟩
    | none =>
      rw [hf] at h
      exact absurd h (by decide)

section Kept

variable {journal : List DispatchEvent} {acc acc' : DispatchUpgradeState}

theorem FactsOf.id_eq (h : FactsOf journal acc) (hr : Rising journal) {id id' : String}
    {run run' : UpgradeRun} (hrun : acc.runs.get? id = some run)
    (hrun' : acc.runs.get? id' = some run') {seq : Nat} (hd : run.Dated seq)
    (hd' : run'.Dated seq) : id = id' := by
  obtain ⟨event, hm, hs, hid⟩ := h.runs id run hrun seq hd
  obtain ⟨event', hm', hs', hid'⟩ := h.runs id' run' hrun' seq hd'
  rw [hr.eq_of_seq hm hm' (hs.trans hs'.symm)] at hid
  exact Option.some.inj (hid.symm.trans hid')

theorem mem_marks {mark : RunMark} :
    mark ∈ acc.marks ↔ ∃ id run, acc.runs.get? id = some run ∧ RunMark.of (id, run) = mark := by
  unfold DispatchUpgradeState.marks
  rw [List.mem_map]
  constructor
  · rintro ⟨⟨id, run⟩, hm, rfl⟩
    exact ⟨id, run, get?_eq_some.mpr hm, rfl⟩
  · rintro ⟨id, run, hrun, rfl⟩
    exact ⟨(id, run), get?_eq_some.mp hrun, rfl⟩

theorem FactsOf.apart (h : FactsOf journal acc) (hr : Rising journal) :
    RunMark.Apart acc.marks := by
  have hid : ∀ x ∈ acc.marks, ∀ y ∈ acc.marks, x.id = y.id → x = y := by
    intro x hx y hy hxy
    obtain ⟨id, run, hrun, rfl⟩ := mem_marks.mp hx
    obtain ⟨id', run', hrun', rfl⟩ := mem_marks.mp hy
    have he : id = id' := hxy
    rw [he, hrun'] at hrun
    rw [he, Option.some.inj hrun]
  refine ⟨hid, fun x hx y hy seq hsx hsy => ?_, fun x hx y hy hpos hs => ?_⟩
  · refine hid x hx y hy ?_
    obtain ⟨id, run, hrun, rfl⟩ := mem_marks.mp hx
    obtain ⟨id', run', hrun', rfl⟩ := mem_marks.mp hy
    exact h.id_eq hr hrun hrun' (.inl hsx) (.inl hsy)
  · refine hid x hx y hy ?_
    obtain ⟨id, run, hrun, rfl⟩ := mem_marks.mp hx
    obtain ⟨id', run', hrun', rfl⟩ := mem_marks.mp hy
    have hpos' : 0 ≤ run'.settledSeq := le_of_le_of_eq hpos hs
    obtain ⟨seq, hseq, hd⟩ := dated_of_settledSeq hpos
    obtain ⟨seq', hseq', hd'⟩ := dated_of_settledSeq hpos'
    have he : seq = seq' := Int.ofNat.inj (hseq.symm.trans (hs.trans hseq'))
    rw [← he] at hd'
    exact h.id_eq hr hrun hrun' hd hd'

theorem FactsOf.eraseRun (h : FactsOf journal acc) (id : String) :
    FactsOf journal { acc with runs := acc.runs.erase id } := by
  refine ⟨fun j run hrun => ?_, h.holds⟩
  rw [get?_erase] at hrun
  split at hrun
  · exact absurd hrun nofun
  · exact h.runs j run hrun

theorem FactsOf.eraseHold (h : FactsOf journal acc) (lineage : String) :
    FactsOf journal { acc with holds := acc.holds.erase lineage } := by
  refine ⟨h.runs, fun j hold hhold => ?_⟩
  rw [get?_erase] at hhold
  split at hhold
  · exact absurd hhold nofun
  · exact h.holds j hold hhold

theorem FactsOf.evictRun (h : FactsOf journal acc) (touched : String) :
    FactsOf journal (acc.evictRun touched) := by
  unfold DispatchUpgradeState.evictRun
  split
  · exact h.eraseRun _
  · exact h

theorem FactsOf.evictHold (h : FactsOf journal acc) (current : Option String) (lineage : String) :
    FactsOf journal (acc.evictHold current lineage) := by
  unfold DispatchUpgradeState.evictHold
  split
  · exact h.eraseHold _
  · exact h

theorem SameUpgrade.eraseRun (h : SameUpgrade acc acc') (id : String) :
    SameUpgrade { acc with runs := acc.runs.erase id }
      { acc' with runs := acc'.runs.erase id } := by
  refine { h with runs := fun j => ?_ }
  rw [get?_erase, get?_erase]
  split
  · exact .none
  · exact h.runs j

/-- **The same run goes.** -/
theorem SameUpgrade.evictRun (h : SameUpgrade acc acc') (hf : FactsOf journal acc)
    (hr : Rising journal) (touched : String) :
    SameUpgrade (acc.evictRun touched) (acc'.evictRun touched) := by
  have hvictim : RunMark.victim acc.marks touched acc.authoritativeRun
      = RunMark.victim acc'.marks touched acc'.authoritativeRun := by
    rw [RunMark.victim_perm (hf.apart hr) h.marks_perm, h.authoritativeRun]
  unfold DispatchUpgradeState.evictRun
  rw [hvictim]
  split
  · exact h.eraseRun _
  · exact h

theorem SameUpgrade.oldestHold (h : SameUpgrade acc acc') (hf : FactsOf journal acc)
    (hr : Rising journal) (current : Option String) (lineage : String) :
    acc.oldestHold current lineage = acc'.oldestHold current lineage := by
  have hrank : ∀ x y : String × Nat, decide (x.2 < y.2) = true ↔ x.2 < y.2 :=
    fun x y => decide_eq_true_iff
  have hp := sameEntries_iff_perm.mp h.holds
  unfold DispatchUpgradeState.oldestHold
  refine congrArg _ (bestOf_perm hrank ((hp.filter _).map _) fun x hx y hy hxy => ?_)
  obtain ⟨⟨lineage, hold⟩, hm, rfl⟩ := List.mem_map.mp hx
  obtain ⟨⟨lineage', hold'⟩, hm', rfl⟩ := List.mem_map.mp hy
  have hhold := get?_eq_some.mpr (List.mem_filter.mp hm).1
  have hhold' := get?_eq_some.mpr (List.mem_filter.mp hm').1
  obtain ⟨event, he, hs, hid⟩ := hf.holds lineage hold hhold
  obtain ⟨event', he', hs', hid'⟩ := hf.holds lineage' hold' hhold'
  have hseq : hold.seq = hold'.seq := hxy
  rw [hr.eq_of_seq he he' (hs.trans (hseq.trans hs'.symm))] at hid
  rw [hseq, Option.some.inj (hid.symm.trans hid')]

/-- **The same hold goes.** -/
theorem SameUpgrade.evictHold (h : SameUpgrade acc acc') (hf : FactsOf journal acc)
    (hr : Rising journal) (current : Option String) (lineage : String) :
    SameUpgrade (acc.evictHold current lineage) (acc'.evictHold current lineage) := by
  unfold DispatchUpgradeState.evictHold
  rw [h.oldestHold hf hr]
  split
  · exact { h with holds := h.holds.erase _ }
  · exact h

theorem SameUpgrade.iterate {f : DispatchUpgradeState → DispatchUpgradeState}
    (hkept : ∀ {acc}, FactsOf journal acc → FactsOf journal (f acc))
    (hsame : ∀ {acc acc'}, SameUpgrade acc acc' → FactsOf journal acc →
      SameUpgrade (f acc) (f acc')) (n : Nat) :
    ∀ {acc acc'}, SameUpgrade acc acc' → FactsOf journal acc →
      SameUpgrade (f^[n] acc) (f^[n] acc') ∧ FactsOf journal (f^[n] acc) := by
  induction n with
  | zero => exact fun h hf => ⟨h, hf⟩
  | succ n ih => exact fun h hf => ih (hsame h hf) (hkept hf)

theorem SameUpgrade.retainRuns (h : SameUpgrade acc acc') (hf : FactsOf journal acc)
    (hr : Rising journal) (touched : String) :
    SameUpgrade (acc.retainRuns touched) (acc'.retainRuns touched) ∧
      FactsOf journal (acc.retainRuns touched) := by
  unfold DispatchUpgradeState.retainRuns
  rw [h.runs_size]
  exact SameUpgrade.iterate (fun hf => hf.evictRun touched)
    (fun h hf => h.evictRun hf hr touched) _ h hf

end Kept

/-- The run just touched stays. -/
theorem get?_evictRun (acc : DispatchUpgradeState) (touched : String) :
    (acc.evictRun touched).runs.get? touched = acc.runs.get? touched := by
  unfold DispatchUpgradeState.evictRun
  split
  · rename_i id hid
    exact (get?_erase _ _ _).trans (if_neg (RunMark.victim_ne hid).symm)
  · rfl

theorem authoritativeRun_evictRun (acc : DispatchUpgradeState) (touched : String) :
    (acc.evictRun touched).authoritativeRun = acc.authoritativeRun := by
  unfold DispatchUpgradeState.evictRun
  split <;> rfl

theorem iterate_evictRun (touched : String) (n : Nat) :
    ∀ acc : DispatchUpgradeState,
      ((·.evictRun touched)^[n] acc).runs.get? touched = acc.runs.get? touched ∧
      ((·.evictRun touched)^[n] acc).authoritativeRun = acc.authoritativeRun := by
  induction n with
  | zero => exact fun acc => ⟨rfl, rfl⟩
  | succ n ih =>
    intro acc
    obtain ⟨hrun, hauthority⟩ := ih (acc.evictRun touched)
    exact ⟨hrun.trans (get?_evictRun acc touched),
      hauthority.trans (authoritativeRun_evictRun acc touched)⟩

end Autobuild
