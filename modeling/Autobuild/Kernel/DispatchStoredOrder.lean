/-
# Folding on from a stored upgrade state

The eviction of lineages goes by the order of the keys, and a carried runtime is compared by its
text.

* `StepAlike` says of the states before an event that neither comes out differently.
* Nothing else reads the order: where every event of the rest comes out alike, the rest folds on to
  the same state, and where one does not, the states differ after it (`sameUpgrade_reordered`).
* A `jsonb` column does reorder both (`not_sameUpgrade_stored`).
-/
import Autobuild.Kernel.DispatchInherited
import Autobuild.Kernel.DispatchKeyOrder

namespace Autobuild

open ObjectMap

/-! ## 1. Lineages -/

namespace DispatchUpgradeState

/-- The lineages a start leaves no room for, the first in the order of the keys. -/
def dueLineages (acc : DispatchUpgradeState) (run lineage : String) : List String :=
  ((acc.startedLineages run lineage).keys.filter fun j => !acc.keepsLineage run j).take
    ((acc.startedLineages run lineage).size - upgradeHistoryLimit)

end DispatchUpgradeState

/-- The loop erases what is due, from the front. -/
theorem get?_evictLineages (keep : String → Bool) (j : String) :
    ∀ (keys : List String) (lineages : ObjectMap String String), keys.Nodup →
      (∀ run ∈ keys, run ∈ lineages.keys) →
      (DispatchUpgradeState.evictLineages keep keys lineages).get? j
        = if j ∈ (keys.filter fun run => !keep run).take (lineages.size - upgradeHistoryLimit)
          then none else lineages.get? j := by
  intro keys
  induction keys with
  | nil =>
    intro lineages _ _
    rw [List.filter_nil, List.take_nil, if_neg List.not_mem_nil]
    rfl
  | cons run rest ih =>
    intro lineages hnodup hmem
    obtain ⟨hrun, hrest⟩ := List.nodup_cons.mp hnodup
    unfold DispatchUpgradeState.evictLineages
    by_cases hsize : lineages.size ≤ upgradeHistoryLimit
    · rw [if_pos hsize, Nat.sub_eq_zero_of_le hsize, List.take_zero, if_neg (List.not_mem_nil)]
    · rw [if_neg hsize]
      cases hkeep : keep run with
      | true =>
        rw [if_pos rfl, ih lineages hrest fun x hx => hmem x (List.mem_cons_of_mem _ hx),
          List.filter_cons_of_neg (by simp [hkeep])]
      | false =>
        have hm := hmem run List.mem_cons_self
        have hs := size_erase hm
        have hrest' : ∀ x ∈ rest, x ∈ (lineages.erase run).keys := by
          intro x hx
          have hne : x ≠ run := fun he => hrun (he ▸ hx)
          have hx' := isSome_get?.mpr (hmem x (List.mem_cons_of_mem _ hx))
          rw [← isSome_get?, get?_erase, if_neg hne]
          exact hx'
        have htake : lineages.size - upgradeHistoryLimit
            = (lineages.erase run).size - upgradeHistoryLimit + 1 := by omega
        rw [if_neg Bool.false_ne_true, ih _ hrest hrest', get?_erase,
          List.filter_cons_of_pos (by simp [hkeep]), htake, List.take_succ_cons]
        by_cases hj : j = run
        · rw [if_pos hj, ite_self, if_pos (List.mem_cons.mpr (.inl hj))]
        · rw [if_neg hj]
          simp only [List.mem_cons, hj, false_or]

theorem get?_noteStart (acc : DispatchUpgradeState) (run lineage j : String) :
    (acc.noteStart run (some lineage)).lineages.get? j
      = if j ∈ acc.dueLineages run lineage then none
        else (acc.startedLineages run lineage).get? j :=
  get?_evictLineages _ j _ _ (acc.startedLineages run lineage).nodup fun _ h => h

theorem SameUpgrade.noteStart_iff {acc acc' : DispatchUpgradeState} (h : SameUpgrade acc acc')
    (run lineage : String) :
    SameUpgrade (acc.noteStart run (some lineage)) (acc'.noteStart run (some lineage)) ↔
      ∀ j, j ∈ acc.dueLineages run lineage ↔ j ∈ acc'.dueLineages run lineage := by
  have hstarted : SameEntries (acc.startedLineages run lineage)
      (acc'.startedLineages run lineage) := (h.lineages.erase run).set run lineage
  have hpresent : ∀ (acc : DispatchUpgradeState) (j : String), j ∈ acc.dueLineages run lineage →
      (acc.startedLineages run lineage).get? j ≠ none := by
    intro acc j hj hnone
    have hm := List.mem_of_mem_filter (List.mem_of_mem_take hj)
    exact get?_eq_none.mp hnone hm
  constructor
  · intro hsame j
    have hj := hsame.lineages j
    rw [get?_noteStart, get?_noteStart] at hj
    constructor
    · intro hdue
      by_contra hdue'
      rw [if_pos hdue, if_neg hdue', ← hstarted j] at hj
      exact hpresent acc j hdue hj.symm
    · intro hdue'
      by_contra hdue
      rw [if_pos hdue', if_neg hdue, hstarted j] at hj
      exact hpresent acc' j hdue' hj
  · intro hdue
    refine { h with lineages := fun j => ?_ }
    rw [get?_noteStart, get?_noteStart, hstarted j]
    exact if_congr (hdue j) rfl rfl

/-! ## 2. Upgrades -/

namespace UpgradeRun

/-- Accepting the event once more changes nothing. -/
def inert (run : UpgradeRun) (authoritative : Option String) : UpgradeEvent → Bool
  | .terminalReleased _ => run.released.isSome
  | .takeover payload => run.takeover.isSome && authoritative = some payload.successor
  | .drainDeadline payload => run.deadline = some payload.deadline
  | .handoffCompleted _ => run.completed.isSome
  | _ => false

theorem or_eq_of_isSome {α : Type} {fact : Option α} (h : fact.isSome = true) (next : Option α) :
    fact.or next = fact := by
  cases fact with
  | none => exact absurd h Bool.false_ne_true
  | some fact => rfl

theorem accept_of_inert {run : UpgradeRun} {authoritative : Option String} {event : UpgradeEvent}
    (h : run.inert authoritative event = true) (seq : Nat) : run.accept seq event = run := by
  cases event with
  | terminalReleased payload =>
    unfold accept
    dsimp only
    rw [or_eq_of_isSome h]
  | takeover payload =>
    obtain ⟨hsome, -⟩ := Bool.and_eq_true_iff.mp h
    unfold accept
    dsimp only
    rw [or_eq_of_isSome hsome]
  | drainDeadline payload =>
    have hdeadline : run.deadline = some payload.deadline := of_decide_eq_true h
    unfold accept
    dsimp only
    rw [← hdeadline]
  | handoffCompleted payload =>
    unfold accept
    dsimp only
    rw [or_eq_of_isSome h]
  | _ => exact absurd h Bool.false_ne_true

theorem note_of_inert {run : UpgradeRun} {authoritative : Option String} {event : UpgradeEvent}
    (h : run.inert authoritative event = true) (seq : Nat) : run.note seq event = run := by
  unfold note
  rw [accept_of_inert h, ite_self]

theorem isSome_of_map_or {α β : Type} {f : α → β} {fact : Option α} {next : α}
    (h : (fact.or (some next)).map f = fact.map f) : fact.isSome = true := by
  cases fact with
  | none => exact absurd h nofun
  | some fact => rfl

end UpgradeRun

theorem SameRun.inert_eq {run run' : UpgradeRun} (h : SameRun run run')
    (authoritative : Option String) (event : UpgradeEvent) :
    run.inert authoritative event = run'.inert authoritative event := by
  have hbare : ∀ run : UpgradeRun, run.inert authoritative event
      = run.bare.inert authoritative event := by
    intro run
    unfold UpgradeRun.inert UpgradeRun.bare
    cases event with
    | terminalReleased payload => exact Option.isSome_map.symm
    | takeover payload =>
      dsimp only
      rw [Option.isSome_map]
    | handoffCompleted payload => exact Option.isSome_map.symm
    | _ => rfl
  rw [hbare run, hbare run', h.bare]

/-- An accepted event changes a run it finds no fact on: only an inert one goes unseen. -/
theorem inert_of_accept_same {run : UpgradeRun} {authoritative : Option String} {seq : Nat}
    {event : UpgradeEvent} {other : UpgradeRun} (hadmits : run.admits event = true)
    (hother : other.continues event = false)
    (hauthority : ∀ payload, event = .takeover payload → authoritative = some payload.successor)
    (hsame : SameRun (run.accept seq event) run) : run.inert authoritative event = true := by
  cases event with
  | targetResolved payload => exact absurd hother nofun
  | detected payload => exact absurd hother nofun
  | failed payload => exact absurd hother nofun
  | targetPrepared payload => exact absurd hother nofun
  | yieldRequested payload =>
    have hrequest := congrArg UpgradeRun.request hsame.bare
    unfold UpgradeRun.admits at hadmits
    cases hr : run.request with
    | none =>
      unfold UpgradeRun.bare at hrequest
      dsimp only at hrequest
      rw [hr] at hrequest
      exact absurd hrequest nofun
    | some request =>
      rw [hr] at hadmits
      simp at hadmits
  | handoffStarted payload =>
    have hhandoff := congrArg UpgradeRun.handoff hsame.bare
    unfold UpgradeRun.admits at hadmits
    cases hr : run.handoff with
    | none =>
      unfold UpgradeRun.bare at hhandoff
      dsimp only at hhandoff
      rw [hr] at hhandoff
      exact absurd hhandoff nofun
    | some handoff =>
      rw [hr] at hadmits
      simp at hadmits
  | terminalReleased payload =>
    exact UpgradeRun.isSome_of_map_or (congrArg UpgradeRun.released hsame.bare)
  | takeover payload =>
    refine Bool.and_eq_true_iff.mpr ⟨?_, decide_eq_true (hauthority payload rfl)⟩
    exact UpgradeRun.isSome_of_map_or (congrArg UpgradeRun.takeover hsame.bare)
  | drainDeadline payload =>
    exact decide_eq_true (congrArg UpgradeRun.deadline hsame.bare).symm
  | drainSettled payload =>
    have hgone := hsame.outstanding payload.slug
    have hat : run.outstanding.get? payload.slug = some payload.instanceId :=
      of_decide_eq_true (Bool.and_eq_true_iff.mp hadmits).2
    have herased : (run.outstanding.erase payload.slug).get? payload.slug = none :=
      (get?_erase _ _ _).trans (if_pos rfl)
    exact absurd (herased.symm.trans (hgone.trans hat)) nofun
  | handoffCompleted payload =>
    exact UpgradeRun.isSome_of_map_or (congrArg UpgradeRun.completed hsame.bare)

/-- Accepted alike, or nothing to see of it. -/
def UpgradeAlike (acc acc' : DispatchUpgradeState) (event : UpgradeEvent) : Prop :=
  (acc.runOf event.run).accepts event = (acc'.runOf event.run).accepts event ∨
    (acc.runOf event.run).inert acc.authoritativeRun event = true

theorem SameRun.symm {run run' : UpgradeRun} (h : SameRun run run') : SameRun run' run :=
  ⟨h.bare.symm, h.outstanding.symm⟩

theorem SameRun.trans {run run' run'' : UpgradeRun} (h : SameRun run run')
    (h' : SameRun run' run'') : SameRun run run'' :=
  ⟨h.bare.trans h'.bare, h.outstanding.trans h'.outstanding⟩

theorem authorityAfter_of_inert {acc : DispatchUpgradeState} {event : UpgradeEvent}
    (h : (acc.runOf event.run).inert acc.authoritativeRun event = true) :
    acc.authorityAfter event = acc.authoritativeRun := by
  cases event with
  | takeover payload =>
    obtain ⟨-, hauthority⟩ := Bool.and_eq_true_iff.mp h
    unfold DispatchUpgradeState.authorityAfter
    dsimp only
    rw [of_decide_eq_true hauthority, ite_self]
  | _ => rfl

section

variable {journal : List DispatchEvent} {acc acc' : DispatchUpgradeState}

/-- The run and the authority after the event, before runs are evicted. -/
theorem SameUpgrade.note_of_alike (h : SameUpgrade acc acc') {event : UpgradeEvent} (seq : Nat)
    (ha : UpgradeAlike acc acc' event) :
    SameRun ((acc.runOf event.run).note seq event) ((acc'.runOf event.run).note seq event) ∧
      acc.authorityAfter event = acc'.authorityAfter event := by
  have hrun := h.runOf event.run
  rcases ha with haccepts | hinert
  · constructor
    · unfold UpgradeRun.note
      rw [haccepts]
      split
      · exact hrun.accept seq event
      · exact hrun
    · unfold DispatchUpgradeState.authorityAfter
      cases event with
      | takeover payload =>
        dsimp only
        have hpayload : (acc.runOf payload.run).accepts (.takeover payload)
            = (acc'.runOf payload.run).accepts (.takeover payload) := haccepts
        rw [hpayload, h.authoritativeRun]
      | _ => exact h.authoritativeRun
  · have hinert' : (acc'.runOf event.run).inert acc'.authoritativeRun event = true := by
      rw [← h.authoritativeRun, ← hrun.inert_eq]
      exact hinert
    rw [UpgradeRun.note_of_inert hinert, UpgradeRun.note_of_inert hinert',
      authorityAfter_of_inert hinert, authorityAfter_of_inert hinert']
    exact ⟨hrun, h.authoritativeRun⟩

/-- An event accepted on one side only is inert, where nothing is to be seen of it. -/
theorem inert_of_note {event : UpgradeEvent} {seq : Nat}
    (hrun : SameRun (acc.runOf event.run) (acc'.runOf event.run))
    (hauthority : acc.authoritativeRun = acc'.authoritativeRun)
    (ha : (acc.runOf event.run).accepts event = true)
    (ha' : (acc'.runOf event.run).accepts event = false)
    (hsame : SameRun ((acc.runOf event.run).note seq event) ((acc'.runOf event.run).note seq event))
    (hafter : acc.authorityAfter event = acc'.authorityAfter event) :
    (acc.runOf event.run).inert acc.authoritativeRun event = true := by
  unfold UpgradeRun.note at hsame
  rw [ha, ha', if_pos rfl, if_neg Bool.false_ne_true] at hsame
  have hadmits := (Bool.and_eq_true_iff.mp ha).2
  have hother : (acc'.runOf event.run).continues event = false := by
    unfold UpgradeRun.accepts at ha'
    rw [← hrun.admits event, hadmits, Bool.and_true] at ha'
    exact ha'
  refine inert_of_accept_same hadmits hother ?_ (hsame.trans hrun.symm)
  rintro payload rfl
  unfold DispatchUpgradeState.authorityAfter at hafter
  dsimp only [UpgradeEvent.run] at hafter ha ha'
  rw [ha, ha', if_pos rfl, if_neg Bool.false_ne_true] at hafter
  rw [hauthority, hafter]

theorem SameUpgrade.alike_of_note (h : SameUpgrade acc acc') {event : UpgradeEvent} {seq : Nat}
    (hsame : SameRun ((acc.runOf event.run).note seq event) ((acc'.runOf event.run).note seq event))
    (hafter : acc.authorityAfter event = acc'.authorityAfter event) :
    UpgradeAlike acc acc' event := by
  have hrun := h.runOf event.run
  unfold UpgradeAlike
  cases ha : (acc.runOf event.run).accepts event <;>
    cases ha' : (acc'.runOf event.run).accepts event
  · exact .inl rfl
  · refine .inr ?_
    rw [h.authoritativeRun, hrun.inert_eq]
    exact inert_of_note hrun.symm h.authoritativeRun.symm ha' ha hsame.symm hafter.symm
  · exact .inr (inert_of_note hrun h.authoritativeRun ha ha' hsame hafter)
  · exact .inl rfl

/-! ## 3. One event -/

theorem FactsOf.mono (h : FactsOf journal acc) (more : List DispatchEvent) :
    FactsOf (journal ++ more) acc := by
  refine ⟨fun id run hrun seq hd => ?_, fun lineage hold hhold => ?_⟩
  · obtain ⟨event, hm, he⟩ := h.runs id run hrun seq hd
    exact ⟨event, List.mem_append_left _ hm, he⟩
  · obtain ⟨event, hm, he⟩ := h.holds lineage hold hhold
    exact ⟨event, List.mem_append_left _ hm, he⟩

theorem dated_accept {run : UpgradeRun} {event : UpgradeEvent} {seq s : Nat}
    (h : (run.accept seq event).Dated s) : s = seq ∨ run.Dated s := by
  have hnew : ∀ {α : Type} {payload : α}, (some (⟨payload, seq⟩ : WithSeq α)).map (·.seq) = some s →
      s = seq := fun h => (Option.some.inj h).symm
  cases event with
  | failed payload =>
    rcases h with h | h | h
    · exact .inr (.inl h)
    · exact .inr (.inr (.inl h))
    · exact .inl (hnew h)
  | targetPrepared payload =>
    rcases h with h | h | h
    · exact .inr (.inl h)
    · exact .inr (.inr (.inl h))
    · exact absurd h nofun
  | handoffStarted payload =>
    rcases h with h | h | h
    · exact .inl (hnew h)
    · exact .inr (.inr (.inl h))
    · exact absurd h nofun
  | handoffCompleted payload =>
    rcases h with h | h | h
    · exact .inr (.inl h)
    · unfold UpgradeRun.accept at h
      dsimp only at h
      cases hc : run.completed with
      | none =>
        rw [hc] at h
        exact .inl (hnew h)
      | some completed =>
        rw [hc] at h
        refine .inr (.inr (.inl ?_))
        rw [hc]
        exact h
    · exact .inr (.inr (.inr h))
  | _ => exact .inr h

theorem dated_note {run : UpgradeRun} {event : UpgradeEvent} {seq s : Nat}
    (h : (run.note seq event).Dated s) : s = seq ∨ run.Dated s := by
  unfold UpgradeRun.note at h
  split at h
  · exact dated_accept h
  · exact .inr h

theorem FactsOf.setRun (h : FactsOf journal acc) {event : DispatchEvent} (hm : event ∈ journal)
    {id : String} (hsubject : event.subject = some id) {run : UpgradeRun}
    (hdated : ∀ s, run.Dated s → s = event.seq ∨ (acc.runOf id).Dated s)
    (authoritative : Option String) :
    FactsOf journal
      { acc with authoritativeRun := authoritative, runs := acc.runs.set id run } := by
  refine ⟨fun j other hother s hs => ?_, h.holds⟩
  rw [get?_set] at hother
  split at hother
  · rename_i hj
    rw [hj]
    rw [← Option.some.inj hother] at hs
    rcases hdated s hs with rfl | hd
    · exact ⟨event, hm, rfl, hsubject⟩
    · unfold DispatchUpgradeState.runOf at hd
      cases hr : acc.runs.get? id with
      | none =>
        rw [hr] at hd
        rcases hd with hd | hd | hd <;> exact absurd hd nofun
      | some old =>
        rw [hr] at hd
        exact h.runs id old hr s hd
  · exact h.runs j other hother s hs

theorem SameUpgrade.setRun (h : SameUpgrade acc acc') {run run' : UpgradeRun}
    (hrun : SameRun run run')
    {authoritative authoritative' : Option String} (ha : authoritative = authoritative')
    (id : String) :
    SameUpgrade { acc with authoritativeRun := authoritative, runs := acc.runs.set id run }
      { acc' with authoritativeRun := authoritative', runs := acc'.runs.set id run' } := by
  refine { h with authoritativeRun := ha, runs := fun j => ?_ }
  rw [get?_set, get?_set]
  split
  · exact .some hrun
  · exact h.runs j

theorem SameUpgrade.noteUpgrade_iff (h : SameUpgrade acc acc') (hf : FactsOf journal acc)
    (hr : Rising journal) {event : DispatchEvent} (hm : event ∈ journal) {upgrade : UpgradeEvent}
    (hbody : event.body = .upgrade upgrade) :
    SameUpgrade (acc.noteUpgrade event.seq upgrade) (acc'.noteUpgrade event.seq upgrade) ↔
      UpgradeAlike acc acc' upgrade := by
  have hsubject : event.subject = some upgrade.run := by
    unfold DispatchEvent.subject
    rw [hbody]
  constructor
  · intro hsame
    have hruns := hsame.runs upgrade.run
    have hauthority := hsame.authoritativeRun
    unfold DispatchUpgradeState.noteUpgrade DispatchUpgradeState.retainRuns at hruns hauthority
    rw [(iterate_evictRun _ _ _).1, (iterate_evictRun _ _ _).1, get?_set_self,
      get?_set_self] at hruns
    rw [(iterate_evictRun _ _ _).2, (iterate_evictRun _ _ _).2] at hauthority
    cases hruns with
    | some hrun => exact h.alike_of_note hrun hauthority
  · intro ha
    obtain ⟨hrun, hauthority⟩ := h.note_of_alike event.seq ha
    exact ((h.setRun hrun hauthority upgrade.run).retainRuns
      (hf.setRun hm hsubject (fun s => dated_note) _) hr upgrade.run).1

theorem FactsOf.noteUpgrade (hf : FactsOf journal acc) (hr : Rising journal)
    {event : DispatchEvent} (hm : event ∈ journal) {upgrade : UpgradeEvent}
    (hbody : event.body = .upgrade upgrade) :
      FactsOf journal (acc.noteUpgrade event.seq upgrade) := by
  have hsubject : event.subject = some upgrade.run := by
    unfold DispatchEvent.subject
    rw [hbody]
  exact ((SameUpgrade.refl _).retainRuns (hf.setRun hm hsubject (fun s => dated_note) _) hr
    upgrade.run).2

theorem SameUpgrade.noteRollback (h : SameUpgrade acc acc') (hf : FactsOf journal acc)
    (hr : Rising journal) {event : DispatchEvent} (hm : event ∈ journal)
    {payload : RuntimeRolledBack} (hbody : event.body = .rolledBack payload) :
    SameUpgrade (acc.noteRollback event.seq payload) (acc'.noteRollback event.seq payload) ∧
      FactsOf journal (acc.noteRollback event.seq payload) := by
  have hsubject : event.subject = some payload.lineage := by
    unfold DispatchEvent.subject
    rw [hbody]
  unfold DispatchUpgradeState.noteRollback
  rw [← h.rollbackIds, ← h.lineages payload.run]
  split
  · exact ⟨h, hf⟩
  · have hholds := h.holds.set payload.lineage ⟨payload, event.seq⟩
    dsimp only
    rw [← hholds.size_eq]
    refine SameUpgrade.iterate (fun hf => hf.evictHold _ _) (fun h hf => h.evictHold hf hr _ _) _
      ?_ ?_
    · exact ⟨rfl, h.runs, h.lineages, rfl, rfl, hholds⟩
    · refine ⟨hf.runs, fun j hold hhold => ?_⟩
      dsimp only at hhold
      rw [get?_set] at hhold
      split at hhold
      · rename_i hj
        rw [hj, ← Option.some.inj hhold]
        exact ⟨event, hm, rfl, hsubject⟩
      · exact hf.holds j hold hhold

theorem SameUpgrade.noteCleared (h : SameUpgrade acc acc') (payload : RollbackHoldCleared) :
    SameUpgrade (acc.noteCleared payload) (acc'.noteCleared payload) := by
  unfold DispatchUpgradeState.noteCleared
  rw [h.holds payload.lineage]
  split
  · exact { h with holds := h.holds.erase _ }
  · exact h

theorem FactsOf.noteCleared (hf : FactsOf journal acc) (payload : RollbackHoldCleared) :
    FactsOf journal (acc.noteCleared payload) := by
  unfold DispatchUpgradeState.noteCleared
  split
  · exact hf.eraseHold _
  · exact hf

/-- Neither the eviction of lineages nor the comparison of runtimes comes out differently. -/
def StepAlike (acc acc' : DispatchUpgradeState) (event : DispatchEvent) : Prop :=
  match event.body with
  | .runStarted run (some lineage) =>
    ∀ j, j ∈ acc.dueLineages run lineage ↔ j ∈ acc'.dueLineages run lineage
  | .upgrade upgrade => UpgradeAlike acc acc' upgrade
  | _ => True

theorem FactsOf.step (hf : FactsOf journal acc) {event : DispatchEvent}
    (hr : Rising (journal ++ [event])) : FactsOf (journal ++ [event]) (foldDispatch acc event) := by
  have hm : event ∈ journal ++ [event] := List.mem_append_right _ List.mem_cons_self
  have hf' := hf.mono [event]
  unfold foldDispatch
  cases hbody : event.body with
  | runStarted run lineage =>
    cases lineage with
    | none => exact hf'
    | some lineage => exact ⟨hf'.runs, hf'.holds⟩
  | tickStarted run => exact ⟨hf'.runs, hf'.holds⟩
  | rolledBack payload => exact ((SameUpgrade.refl acc).noteRollback hf' hr hm hbody).2
  | rollbackHoldCleared payload => exact hf'.noteCleared payload
  | upgrade upgrade => exact hf'.noteUpgrade hr hm hbody
  | other type => exact hf'

/-- **One event leaves the same state exactly when it comes out alike.** -/
theorem SameUpgrade.step_iff (h : SameUpgrade acc acc') (hf : FactsOf journal acc)
    {event : DispatchEvent} (hr : Rising (journal ++ [event])) :
    SameUpgrade (foldDispatch acc event) (foldDispatch acc' event) ↔ StepAlike acc acc' event := by
  have hm : event ∈ journal ++ [event] := List.mem_append_right _ List.mem_cons_self
  have hf' := hf.mono [event]
  unfold foldDispatch StepAlike
  cases hbody : event.body with
  | runStarted run lineage =>
    cases lineage with
    | none => exact iff_of_true h trivial
    | some lineage => exact h.noteStart_iff run lineage
  | tickStarted run => exact iff_of_true { h with authoritativeRun := rfl } trivial
  | rolledBack payload => exact iff_of_true (h.noteRollback hf' hr hm hbody).1 trivial
  | rollbackHoldCleared payload => exact iff_of_true (h.noteCleared payload) trivial
  | upgrade upgrade => exact h.noteUpgrade_iff hf' hr hm hbody
  | other type => exact iff_of_true h trivial

end

/-! ## 4. The rest of the journal -/

/-- Along the events, every one comes out alike. -/
def UpgradesAlike : DispatchUpgradeState → DispatchUpgradeState → List DispatchEvent → Prop
  | _, _, [] => True
  | acc, acc', event :: rest =>
    StepAlike acc acc' event ∧ UpgradesAlike (foldDispatch acc event) (foldDispatch acc' event) rest

theorem Rising.first {journal rest : List DispatchEvent} {event : DispatchEvent}
    (h : Rising (journal ++ event :: rest)) :
    Rising (journal ++ [event]) ∧ Rising ((journal ++ [event]) ++ rest) := by
  rw [List.append_cons] at h
  exact ⟨(List.pairwise_append.mp h).1, h⟩

theorem FactsOf.reduceDispatch : ∀ (rest : List DispatchEvent) {journal : List DispatchEvent}
    {acc : DispatchUpgradeState}, FactsOf journal acc → Rising (journal ++ rest) →
      FactsOf (journal ++ rest) (reduceDispatch acc rest)
  | [], journal, acc, hf, _ => by
    rw [List.append_nil]
    exact hf
  | event :: rest, journal, acc, hf, hr => by
    obtain ⟨hone, hrest⟩ := hr.first
    rw [List.append_cons]
    exact FactsOf.reduceDispatch rest (hf.step hone) hrest

theorem SameUpgrade.reduceDispatch_iff : ∀ (rest : List DispatchEvent)
    {journal : List DispatchEvent} {acc acc' : DispatchUpgradeState}, SameUpgrade acc acc' →
      FactsOf journal acc → Rising (journal ++ rest) →
      ((∀ part, part <+: rest → SameUpgrade (reduceDispatch acc part) (reduceDispatch acc' part)) ↔
        UpgradesAlike acc acc' rest)
  | [], journal, acc, acc', h, _, _ => by
    refine iff_of_true (fun part hp => ?_) trivial
    rw [List.prefix_nil.mp hp]
    exact h
  | event :: rest, journal, acc, acc', h, hf, hr => by
    obtain ⟨hone, hrest⟩ := hr.first
    constructor
    · intro hall
      have hnext := hall [event] (List.cons_prefix_cons.mpr ⟨rfl, List.nil_prefix⟩)
      refine ⟨(h.step_iff hf hone).mp hnext, ?_⟩
      refine (SameUpgrade.reduceDispatch_iff rest hnext (hf.step hone) hrest).mp fun part hp => ?_
      exact hall (event :: part) (List.cons_prefix_cons.mpr ⟨rfl, hp⟩)
    · rintro ⟨hstep, htail⟩ part hp
      rcases List.prefix_cons_iff.mp hp with rfl | ⟨tail, rfl, ht⟩
      · exact h
      · have hnext := (h.step_iff hf hone).mpr hstep
        exact (SameUpgrade.reduceDispatch_iff rest hnext (hf.step hone) hrest).mpr htail tail ht

theorem factsOf_initial : FactsOf [] {} :=
  ⟨fun _ _ h => absurd h nofun, fun _ _ h => absurd h nofun⟩

theorem OwnName.of_same {acc acc' : DispatchUpgradeState} (h : SameUpgrade acc acc')
    {event : DispatchEvent} (hname : OwnName acc event) : OwnName acc' event := by
  unfold OwnName at hname ⊢
  cases hbody : event.body with
  | rollbackHoldCleared payload =>
    rw [hbody] at hname
    dsimp only at hname ⊢
    rw [← h.holds payload.lineage]
    exact hname
  | runStarted run lineage =>
    rw [hbody] at hname
    cases lineage with
    | none => trivial
    | some lineage => exact hname
  | _ =>
    rw [hbody] at hname
    exact hname

/-- The same keys are there on both sides, so neither finds an inherited one. -/
theorem OwnNames.of_same : ∀ (rest : List DispatchEvent) {journal : List DispatchEvent}
    {acc acc' : DispatchUpgradeState}, SameUpgrade acc acc' → FactsOf journal acc →
      Rising (journal ++ rest) → UpgradesAlike acc acc' rest → OwnNames acc rest →
      OwnNames acc' rest
  | [], _, _, _, _, _, _, _, _ => trivial
  | event :: rest, journal, acc, acc', h, hf, hr, ha, hnames => by
    obtain ⟨hone, hrest⟩ := hr.first
    obtain ⟨hstep, htail⟩ := ha
    have hnext := (h.step_iff hf hone).mpr hstep
    exact ⟨hnames.1.of_same h,
      OwnNames.of_same rest hnext (hf.step hone) hrest htail hnames.2⟩

/-- **Where no eviction of lineages and no comparison of runtimes comes out differently on the way,
the rest of a journal folds on from a reordered state to the same state.**  Where one does, the
states differ after a part of the rest. -/
theorem sameUpgrade_reordered {before rest : List DispatchEvent}
    (hr : Rising (before ++ rest)) (hnames : OwnNames {} (before ++ rest))
    {acc' : DispatchUpgradeState} (h : SameUpgrade (reduceDispatch {} before) acc') :
    (UpgradesAlike (reduceDispatch {} before) acc' rest →
      ∃ result result', reduceProcess {} (before ++ rest) = .ok result ∧
        reduceProcess { acc := acc' } rest = .ok result' ∧ SameUpgrade result.acc result'.acc) ∧
      (¬UpgradesAlike (reduceDispatch {} before) acc' rest →
        ∃ part, part <+: rest ∧
          ¬SameUpgrade (reduceDispatch {} (before ++ part)) (reduceDispatch acc' part)) := by
  have hf : FactsOf before (reduceDispatch {} before) :=
    FactsOf.reduceDispatch before factsOf_initial (List.pairwise_append.mp hr).1
  have happend : ∀ part, reduceDispatch {} (before ++ part)
      = reduceDispatch (reduceDispatch {} before) part := by
    intro part
    unfold reduceDispatch
    rw [List.foldl_append]
  have hiff := h.reduceDispatch_iff rest hf hr
  have hclean : DispatchProcess.Clean {} := ⟨rfl, rfl⟩
  have hclean' : DispatchProcess.Clean { acc := acc' } := ⟨rfl, rfl⟩
  constructor
  · intro ha
    have hsame := hiff.mpr ha rest (List.prefix_refl rest)
    obtain ⟨result, hresult, -, hacc⟩ := reduceProcess_own _ hclean hnames
    obtain ⟨result', hresult', -, hacc'⟩ :=
      reduceProcess_own rest hclean'
        (OwnNames.of_same rest h hf hr ha (OwnNames.append_iff.mp hnames).2)
    refine ⟨result, result', hresult, hresult', ?_⟩
    rw [hacc, hacc', happend]
    exact hsame
  · intro hnot
    rw [← hiff] at hnot
    push Not at hnot
    obtain ⟨part, hp, hdiffer⟩ := hnot
    refine ⟨part, hp, ?_⟩
    rw [happend]
    exact hdiffer

/-! ## 5. What a `jsonb` column does -/

/-- A `jsonb` column orders properties by the length of their names. -/
def WrittenRuntime.stored (runtime : WrittenRuntime) : WrittenRuntime :=
  { runtime with
    keyOrder := ⟨[.commit, .source, .version], by decide⟩
    sourceOrder := ⟨[.kind, .location], by decide⟩ }

def UpgradeIdentity.stored (payload : UpgradeIdentity) : UpgradeIdentity :=
  { payload with fromRuntime := payload.fromRuntime.stored }

def Handoff.stored (payload : Handoff) : Handoff :=
  { payload with
    toUpgradeIdentity := payload.toUpgradeIdentity.stored
    toRuntime := payload.toRuntime.stored }

def UpgradeRun.stored (run : UpgradeRun) : UpgradeRun :=
  { run with
    detected := run.detected.map (·.mapPayload UpgradeIdentity.stored)
    failure := run.failure.map (·.mapPayload fun payload =>
      { payload with toUpgradeIdentity := payload.toUpgradeIdentity.stored })
    prepared := run.prepared.map (·.mapPayload Handoff.stored)
    request := run.request.map (·.mapPayload fun payload =>
      { payload with toHandoff := payload.toHandoff.stored })
    handoff := run.handoff.map (·.mapPayload fun payload =>
      { payload with toHandoff := payload.toHandoff.stored })
    released := run.released.map (·.mapPayload Handoff.stored)
    takeover := run.takeover.map (·.mapPayload fun payload =>
      { payload with toHandoff := payload.toHandoff.stored })
    completed := run.completed.map (·.mapPayload fun payload =>
      { payload with toHandoff := payload.toHandoff.stored }) }

theorem sameRun_stored (run : UpgradeRun) : SameRun run run.stored := by
  refine ⟨?_, SameEntries.refl _⟩
  unfold UpgradeRun.stored UpgradeRun.bare
  simp only [Option.map_map]
  rfl

/-- The runtimes are written in the order of the column. -/
def runsStored (acc : DispatchUpgradeState) : DispatchUpgradeState :=
  { acc with runs := acc.runs.mapValues fun _ run => run.stored }

theorem sameUpgrade_runsStored (acc : DispatchUpgradeState) : SameUpgrade acc (runsStored acc) := by
  refine { SameUpgrade.refl acc with runs := fun id => ?_ }
  unfold runsStored
  dsimp only
  rw [get?_mapValues]
  cases acc.runs.get? id with
  | none => exact .none
  | some run => exact .some (sameRun_stored run)

/-- The lineages are listed last first. -/
def lineagesReversed (acc : DispatchUpgradeState) : DispatchUpgradeState :=
  { acc with lineages := acc.lineages.reverse }

theorem sameUpgrade_lineagesReversed (acc : DispatchUpgradeState) :
    SameUpgrade acc (lineagesReversed acc) :=
  { SameUpgrade.refl acc with lineages := sameEntries_reverse _ }

/-- A start of each run, the first with seq 1. -/
def startedRuns (runs : List String) : List DispatchEvent :=
  (runs.zipIdx 1).map fun entry => ⟨entry.2, .runStarted entry.1 (some "dispatcher")⟩

/-- A journal that does not read the runtimes again. -/
theorem sameUpgrade_reordered_ticked :
    ∃ result result',
      reduceProcess {} ([preparedEvent] ++ [⟨2, .tickStarted "first"⟩]) = .ok result ∧
        reduceProcess { acc := runsStored (reduceDispatch {} [preparedEvent]) }
          [⟨2, .tickStarted "first"⟩] = .ok result' ∧
        SameUpgrade result.acc result'.acc := by
  have hr : Rising ([preparedEvent] ++ [⟨2, .tickStarted "first"⟩]) := by
    unfold Rising
    decide
  have hfirst : "first" ∉ plainNames := by decide
  exact (sameUpgrade_reordered hr ⟨hfirst, trivial, trivial⟩ (sameUpgrade_runsStored _)).1
    ⟨trivial, trivial⟩

theorem requested_eq_of_rel {run run' : Option UpgradeRun} (h : Option.Rel SameRun run run') :
    run.map (·.request.isSome) = run'.map (·.request.isSome) := by
  cases h with
  | none => rfl
  | some hr =>
    have hrequest := congrArg (fun run => run.request.isSome) hr.bare
    exact congrArg some ((Option.isSome_map).symm.trans (hrequest.trans Option.isSome_map))

/-- A start more than the window holds drops another run, and a request is not taken for the
handoff prepared. -/
theorem not_sameUpgrade_stored :
    (∃ acc, acc = reduceDispatch {}
          (startedRuns ["q", "p", "o", "n", "m", "l", "k", "j", "i", "h", "g", "f", "e", "d", "c",
            "b"]) ∧
        SameUpgrade acc (lineagesReversed acc) ∧
        ¬SameUpgrade (reduceDispatch acc [⟨17, .runStarted "a" (some "dispatcher")⟩])
          (reduceDispatch (lineagesReversed acc) [⟨17, .runStarted "a" (some "dispatcher")⟩])) ∧
      ∃ acc, acc = reduceDispatch {} [preparedEvent] ∧ SameUpgrade acc (runsStored acc) ∧
        ¬SameUpgrade (reduceDispatch acc [yieldEvent])
          (reduceDispatch (runsStored acc) [yieldEvent]) := by
  refine ⟨⟨_, rfl, sameUpgrade_lineagesReversed _, fun h => ?_⟩,
    ⟨_, rfl, sameUpgrade_runsStored _, fun h => ?_⟩⟩
  · exact absurd (h.lineages "q") (by decide +kernel)
  · exact absurd (requested_eq_of_rel (h.runs "first")) (by decide +kernel)

end Autobuild
