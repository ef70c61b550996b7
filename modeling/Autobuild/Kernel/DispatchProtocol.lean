/-
# The upgrade protocol

* `UpgradeRunKept` is the invariant of a run: what its completion, its counters and its release
  rest on.
* `EventKept` says what one event may evict, and what it takes a takeover from.
* A build settled once is settled again only after another handoff of its run
  (`hands_of_settles`).
* `dispatchUpgrade_protocol`: this is what the fold on plain objects does, where a journal names no
  inherited name.  A run called `__proto__` makes it evict settled runs
  (`not_dispatchUpgrade_protocol`).
-/
import Autobuild.Kernel.DispatchRetention
import Autobuild.Kernel.DispatchInherited

namespace Autobuild

open ObjectMap

/-! ## 1. One run -/

/-- The builds a handoff captures, each once. -/
def DispatchHandoffStarted.captured (payload : DispatchHandoffStarted) : List String :=
  JsText.distinct ((payload.builds.getD []).map (·.slug))

structure UpgradeRunKept (run : UpgradeRun) : Prop where
  completed : run.completed.isSome = true → run.handoff.isSome = true ∧ run.outstanding.size = 0
  counted : ∀ fact, run.handoff = some fact →
    run.drained + run.suspended + run.outstanding.size ≤ fact.payload.captured.length
  unhanded : run.handoff = none →
    run.drained = 0 ∧ run.suspended = 0 ∧ run.outstanding.size = 0
  captured : ∀ slug instanceId, run.outstanding.get? slug = some instanceId →
    ∃ fact, run.handoff = some fact ∧ ⟨slug, instanceId⟩ ∈ fact.payload.builds.getD []
  released : ∀ fact, run.released = some fact →
    ∃ handoff, run.handoff = some handoff ∧ handoff.payload.toHandoff.same fact.payload = true

theorem upgradeRunKept_initial : UpgradeRunKept {} where
  completed := fun h => absurd h Bool.false_ne_true
  counted := fun _ h => absurd h (Option.some_ne_none _).symm
  unhanded := fun _ => ⟨rfl, rfl, rfl⟩
  captured := fun _ _ h => absurd h (Option.some_ne_none _).symm
  released := fun _ h => absurd h (Option.some_ne_none _).symm

/-- `Object.fromEntries` holds the captured builds. -/
theorem mem_of_get?_foldl_set {slug instanceId : String} :
    ∀ (builds : List ExecutingBuild) (outstanding : ObjectMap String String),
      (builds.foldl (fun outstanding build => outstanding.set build.slug build.instanceId)
        outstanding).get? slug = some instanceId →
      ⟨slug, instanceId⟩ ∈ builds ∨ outstanding.get? slug = some instanceId
  | [], _, h => .inr h
  | build :: rest, outstanding, h => by
    rcases mem_of_get?_foldl_set rest _ h with hm | hget
    · exact .inl (List.mem_cons_of_mem _ hm)
    · rw [get?_set] at hget
      split at hget
      · rename_i hslug
        rw [hslug, ← Option.some.inj hget]
        exact .inl List.mem_cons_self
      · exact .inr hget

theorem size_captured_le (builds : List ExecutingBuild) :
    (builds.foldl (fun outstanding build => outstanding.set build.slug build.instanceId)
      (∅ : ObjectMap String String)).size ≤ (JsText.distinct (builds.map (·.slug))).length := by
  rw [size_eq_length_keys]
  refine (List.subperm_of_subset (ObjectMap.nodup _) fun slug hm => ?_).length_le
  obtain ⟨instanceId, hget⟩ := Option.isSome_iff_exists.mp (isSome_get?.mpr hm)
  rcases mem_of_get?_foldl_set builds _ hget with hbuild | hempty
  · exact JsText.mem_distinct.mpr (List.mem_map_of_mem hbuild)
  · exact absurd hempty nofun

theorem or_cases {α : Type} {fact other next : Option α} (h : fact.or next = other) :
    fact = other ∨ (fact = none ∧ next = other) := by
  cases fact with
  | none => exact .inr ⟨rfl, h⟩
  | some fact => exact .inl h

namespace UpgradeRunKept

variable {run : UpgradeRun} {event : UpgradeEvent} {seq : Nat}

/-- A change of the facts of no handoff keeps a run. -/
theorem of_eq {next : UpgradeRun} (h : UpgradeRunKept run) (hhandoff : next.handoff = run.handoff)
    (hcompleted : next.completed = run.completed) (hreleased : next.released = run.released)
    (hdrained : next.drained = run.drained) (hsuspended : next.suspended = run.suspended)
    (houtstanding : next.outstanding = run.outstanding) : UpgradeRunKept next where
  completed := by
    rw [hcompleted, hhandoff, houtstanding]
    exact h.completed
  counted := by
    rw [hhandoff, hdrained, hsuspended, houtstanding]
    exact h.counted
  unhanded := by
    rw [hhandoff, hdrained, hsuspended, houtstanding]
    exact h.unhanded
  captured := by
    rw [hhandoff, houtstanding]
    exact h.captured
  released := by
    rw [hhandoff, hreleased]
    exact h.released

theorem handed (h : UpgradeRunKept run) {payload : DispatchHandoffStarted}
    (ha : run.accepts (.handoffStarted payload) = true) :
    UpgradeRunKept (run.accept seq (.handoffStarted payload)) := by
  have hnone : run.handoff = none := by
    have hadmits := (Bool.and_eq_true_iff.mp ha).2
    unfold UpgradeRun.admits at hadmits
    simp only [Bool.and_eq_true, Option.isNone_iff_eq_none] at hadmits
    exact hadmits.1.1
  obtain ⟨hdrained, hsuspended, -⟩ := h.unhanded hnone
  refine ⟨fun hc => ?_, fun fact hf => ?_, nofun, fun slug instanceId hget => ?_,
    fun fact hf => ?_⟩
  · have hh := (h.completed hc).1
    rw [hnone] at hh
    exact absurd hh Bool.false_ne_true
  · have hfact : fact = ⟨payload, seq⟩ := (Option.some.inj hf).symm
    have hsize := size_captured_le (payload.builds.getD [])
    show run.drained + run.suspended + _ ≤ _
    rw [hdrained, hsuspended, hfact, Nat.zero_add]
    exact hsize
  · rcases mem_of_get?_foldl_set _ _ hget with hm | hempty
    · exact ⟨⟨payload, seq⟩, rfl, hm⟩
    · exact absurd hempty nofun
  · obtain ⟨handoff, hh, -⟩ := h.released fact hf
    rw [hnone] at hh
    exact absurd hh nofun

theorem settled (h : UpgradeRunKept run) {payload : DrainSettled}
    (ha : run.accepts (.drainSettled payload) = true) :
    UpgradeRunKept (run.accept seq (.drainSettled payload)) := by
  have hadmits := (Bool.and_eq_true_iff.mp ha).2
  have hget : run.outstanding.get? payload.slug = some payload.instanceId :=
    of_decide_eq_true (Bool.and_eq_true_iff.mp hadmits).2
  have hsize := size_erase (isSome_get?.mp (Option.isSome_of_eq_some hget))
  refine ⟨fun hc => ?_, fun fact hf => ?_, fun hnone => ?_, fun slug instanceId hs => ?_,
    h.released⟩
  · have hzero := (h.completed hc).2
    omega
  · have hcounted := h.counted fact hf
    have hone : (if payload.outcome = .drained then 1 else 0)
        + (if payload.outcome = .suspended then 1 else 0) ≤ 1 := by
      cases payload.outcome <;> decide
    show (run.drained + if payload.outcome = DrainOutcome.drained then 1 else 0)
      + (run.suspended + if payload.outcome = DrainOutcome.suspended then 1 else 0)
      + (run.outstanding.erase payload.slug).size ≤ _
    omega
  · obtain ⟨fact, hf, -⟩ := h.captured _ _ hget
    have hnone' : run.handoff = none := hnone
    rw [hnone'] at hf
    exact absurd hf nofun
  · have hs' : (run.outstanding.erase payload.slug).get? slug = some instanceId := hs
    rw [get?_erase] at hs'
    split at hs'
    · exact absurd hs' nofun
    · exact h.captured slug instanceId hs'

theorem accept (h : UpgradeRunKept run) (ha : run.accepts event = true) :
    UpgradeRunKept (run.accept seq event) := by
  cases event with
  | targetResolved payload => exact h.of_eq rfl rfl rfl rfl rfl rfl
  | detected payload => exact h.of_eq rfl rfl rfl rfl rfl rfl
  | failed payload => exact h.of_eq rfl rfl rfl rfl rfl rfl
  | targetPrepared payload => exact h.of_eq rfl rfl rfl rfl rfl rfl
  | yieldRequested payload => exact h.of_eq rfl rfl rfl rfl rfl rfl
  | handoffStarted payload => exact h.handed ha
  | terminalReleased payload =>
    refine { h with released := fun fact hf => ?_ }
    rcases or_cases hf with hold | ⟨-, hnew⟩
    · exact h.released fact hold
    · have hcontinues := (Bool.and_eq_true_iff.mp ha).1
      obtain ⟨handoff, hh, hsame⟩ := (Option.any_eq_true _ _).mp hcontinues
      refine ⟨handoff, hh, ?_⟩
      rw [← Option.some.inj hnew]
      exact hsame
  | takeover payload => exact h.of_eq rfl rfl rfl rfl rfl rfl
  | drainDeadline payload => exact h.of_eq rfl rfl rfl rfl rfl rfl
  | drainSettled payload => exact h.settled ha
  | handoffCompleted payload =>
    refine { h with completed := fun _ => ?_ }
    obtain ⟨hcontinues, hadmits⟩ := Bool.and_eq_true_iff.mp ha
    obtain ⟨handoff, hh, -⟩ := (Option.any_eq_true _ _).mp hcontinues
    exact ⟨Option.isSome_of_eq_some hh, of_decide_eq_true (Bool.and_eq_true_iff.mp hadmits).1⟩

theorem note (h : UpgradeRunKept run) (seq : Nat) (event : UpgradeEvent) :
    UpgradeRunKept (run.note seq event) := by
  unfold UpgradeRun.note
  split
  · rename_i ha
    exact h.accept ha
  · exact h

end UpgradeRunKept

/-! ## 2. One event -/

section

variable {acc : DispatchUpgradeState} {event : DispatchEvent} {id : String}

theorem get?_retainRuns {touched : String} {run : UpgradeRun}
    (h : (acc.retainRuns touched).runs.get? id = some run) : acc.runs.get? id = some run := by
  have hiterate : ∀ (n : Nat) (acc : DispatchUpgradeState),
      ((·.evictRun touched)^[n] acc).runs.get? id = some run → acc.runs.get? id = some run := by
    intro n
    induction n with
    | zero => exact fun _ h => h
    | succ n ih =>
      intro acc h
      have hstep := ih (acc.evictRun touched) h
      unfold DispatchUpgradeState.evictRun at hstep
      split at hstep
      · rw [get?_erase] at hstep
        split at hstep
        · exact absurd hstep nofun
        · exact hstep
      · exact hstep
  exact hiterate _ acc h

theorem runs_iterate_evictHold (current : Option String) (lineage : String) (n : Nat) :
    ∀ acc : DispatchUpgradeState, ((·.evictHold current lineage)^[n] acc).runs = acc.runs := by
  induction n with
  | zero => exact fun _ => rfl
  | succ n ih =>
    intro acc
    refine (ih (acc.evictHold current lineage)).trans ?_
    unfold DispatchUpgradeState.evictHold
    split <;> rfl

/-- Only the events of a run touch runs. -/
theorem runs_foldDispatch (h : ∀ upgrade, event.body ≠ .upgrade upgrade) :
    (foldDispatch acc event).runs = acc.runs := by
  unfold foldDispatch
  cases hbody : event.body with
  | runStarted run lineage => cases lineage <;> rfl
  | tickStarted run => rfl
  | rolledBack payload =>
    dsimp only
    unfold DispatchUpgradeState.noteRollback
    split
    · rfl
    · exact runs_iterate_evictHold _ _ _ _
  | rollbackHoldCleared payload =>
    dsimp only
    unfold DispatchUpgradeState.noteCleared
    split <;> rfl
  | upgrade upgrade => exact absurd hbody (h upgrade)
  | other type => rfl

/-- A run in the state was there before, or the event was noted on it. -/
theorem get?_foldDispatch {run : UpgradeRun}
    (h : (foldDispatch acc event).runs.get? id = some run) :
    acc.runs.get? id = some run ∨ ∃ upgrade, event.body = .upgrade upgrade ∧ upgrade.run = id ∧
      run = (acc.runOf id).note event.seq upgrade := by
  cases hbody : event.body with
  | upgrade upgrade =>
    have hfold : foldDispatch acc event = (acc.noted event.seq upgrade).retainRuns upgrade.run := by
      unfold foldDispatch
      rw [hbody]
      rfl
    rw [hfold] at h
    have hset := get?_retainRuns h
    unfold DispatchUpgradeState.noted at hset
    dsimp only at hset
    rw [get?_set] at hset
    split at hset
    · rename_i hid
      exact .inr ⟨upgrade, rfl, hid.symm, by rw [hid]; exact (Option.some.inj hset).symm⟩
    · exact .inl hset
  | _ =>
    rw [runs_foldDispatch fun upgrade => by rw [hbody]; exact nofun] at h
    exact .inl h

/-- The same for the run an event names, which may be made on first sight. -/
theorem runOf_foldDispatch (acc : DispatchUpgradeState) (event : DispatchEvent) (id : String) :
    (foldDispatch acc event).runOf id = {} ∨ (foldDispatch acc event).runOf id = acc.runOf id ∨
      ∃ upgrade, event.body = .upgrade upgrade ∧ upgrade.run = id ∧
        (foldDispatch acc event).runOf id = (acc.runOf id).note event.seq upgrade := by
  unfold DispatchUpgradeState.runOf
  cases hget : (foldDispatch acc event).runs.get? id with
  | none => exact .inl rfl
  | some run =>
    obtain hold | ⟨upgrade, hbody, hid, hrun⟩ := get?_foldDispatch hget
    · rw [hold]
      exact .inr (.inl rfl)
    · exact .inr (.inr ⟨upgrade, hbody, hid, hrun⟩)

def UpgradeRunsKept (acc : DispatchUpgradeState) : Prop :=
  ∀ id run, acc.runs.get? id = some run → UpgradeRunKept run

theorem UpgradeRunsKept.runOf (h : UpgradeRunsKept acc) (id : String) :
    UpgradeRunKept (acc.runOf id) := by
  unfold DispatchUpgradeState.runOf
  cases hget : acc.runs.get? id with
  | none => exact upgradeRunKept_initial
  | some run => exact h id run hget

theorem UpgradeRunsKept.foldDispatch (h : UpgradeRunsKept acc) (event : DispatchEvent) :
    UpgradeRunsKept (foldDispatch acc event) := by
  intro id run hget
  obtain hold | ⟨upgrade, -, -, rfl⟩ := get?_foldDispatch hget
  · exact h id run hold
  · exact (h.runOf id).note event.seq upgrade

/-- `event` is a takeover that the request and the release of run `id` allow. -/
def TakesOver (acc : DispatchUpgradeState) (event : DispatchEvent) (id : String)
    (fact : WithSeq Takeover) : Prop :=
  event.body = .upgrade (.takeover fact.payload) ∧ event.seq = fact.seq ∧ fact.payload.run = id ∧
    (∃ release, (acc.runOf id).released = some release ∧
      release.payload.same fact.payload.toHandoff = true) ∧
    ∃ request, (acc.runOf id).request = some request ∧
      request.payload.successor = fact.payload.successor

/-- What one event may do to the state. -/
structure EventKept (acc : DispatchUpgradeState) (event : DispatchEvent) : Prop where
  evicted : ∀ upgrade, event.body = .upgrade upgrade → ∀ id run,
    (acc.noted event.seq upgrade).runs.get? id = some run →
    (foldDispatch acc event).runs.get? id = none →
    Evicted (acc.noted event.seq upgrade) upgrade.run id run
  runs : (∀ upgrade, event.body ≠ .upgrade upgrade) → (foldDispatch acc event).runs = acc.runs
  lineages : ∀ run lineage, event.body = .runStarted run (some lineage) → ∀ id,
    acc.authoritativeRun = some id ∨ id = run →
    (foldDispatch acc event).lineages.get? id = (acc.startedLineages run lineage).get? id
  takeover : ∀ id run fact, (foldDispatch acc event).runs.get? id = some run →
    run.takeover = some fact → (acc.runOf id).takeover ≠ some fact → TakesOver acc event id fact

theorem takeover_note {run : UpgradeRun} {seq : Nat} {upgrade : UpgradeEvent}
    {fact : WithSeq Takeover} (h : (run.note seq upgrade).takeover = some fact)
    (hnew : run.takeover ≠ some fact) :
    upgrade = .takeover fact.payload ∧ seq = fact.seq ∧ run.accepts upgrade = true := by
  unfold UpgradeRun.note at h
  split at h
  · rename_i ha
    cases upgrade with
    | takeover payload =>
      rcases or_cases h with hold | ⟨-, hfact⟩
      · exact absurd hold hnew
      · rw [← Option.some.inj hfact]
        exact ⟨rfl, rfl, ha⟩
    | _ => exact absurd h hnew
  · exact absurd h hnew

theorem eventKept (h : Bounded acc) (event : DispatchEvent) : EventKept acc event where
  evicted := by
    intro upgrade hbody id run hrun hgone
    have hfold : foldDispatch acc event = acc.noteUpgrade event.seq upgrade := by
      unfold foldDispatch
      rw [hbody]
    rw [hfold] at hgone
    exact evicted_of_noteUpgrade h hrun hgone
  runs := runs_foldDispatch
  lineages := by
    intro run lineage hbody id hid
    have hfold : foldDispatch acc event = acc.noteStart run (some lineage) := by
      unfold foldDispatch
      rw [hbody]
    rw [hfold]
    exact noteStart_keeps acc hid
  takeover := by
    intro id run fact hget htakeover hnew
    obtain hold | ⟨upgrade, hbody, hid, rfl⟩ := get?_foldDispatch hget
    · refine absurd htakeover fun he => hnew ?_
      unfold DispatchUpgradeState.runOf
      rw [hold]
      exact he
    · obtain ⟨rfl, hseq, ha⟩ := takeover_note htakeover hnew
      obtain ⟨hcontinues, hadmits⟩ := Bool.and_eq_true_iff.mp ha
      obtain ⟨release, hrelease, hsame⟩ := (Option.any_eq_true _ _).mp hcontinues
      obtain ⟨request, hrequest, hsuccessor⟩ := (Option.any_eq_true _ _).mp hadmits
      exact ⟨hbody, hseq, hid, ⟨release, hrelease, hsame⟩, request, hrequest,
        of_decide_eq_true hsuccessor⟩

/-! ## 3. Settled builds -/

/-- The event settles build `slug` of the handoff of run `id`. -/
def Settles (acc : DispatchUpgradeState) (event : DispatchEvent) (id slug : String) : Prop :=
  ∃ payload : DrainSettled, event.body = .upgrade (.drainSettled payload) ∧ payload.run = id ∧
    payload.slug = slug ∧ (acc.runOf id).accepts (.drainSettled payload) = true

/-- The event is the handoff of run `id`. -/
def Hands (acc : DispatchUpgradeState) (event : DispatchEvent) (id : String) : Prop :=
  ∃ payload : DispatchHandoffStarted, event.body = .upgrade (.handoffStarted payload) ∧
    payload.run = id ∧ (acc.runOf id).accepts (.handoffStarted payload) = true

theorem outstanding_of_settles {slug : String} (h : Settles acc event id slug) :
    ((acc.runOf id).outstanding.get? slug).isSome = true := by
  obtain ⟨payload, -, -, rfl, ha⟩ := h
  have hadmits := (Bool.and_eq_true_iff.mp ha).2
  exact Option.isSome_of_eq_some (of_decide_eq_true (Bool.and_eq_true_iff.mp hadmits).2)

theorem captured_of_settles (h : UpgradeRunsKept acc) {slug : String}
    (hs : Settles acc event id slug) :
    ∃ fact, (acc.runOf id).handoff = some fact ∧ slug ∈ fact.payload.captured := by
  obtain ⟨instanceId, hget⟩ := Option.isSome_iff_exists.mp (outstanding_of_settles hs)
  obtain ⟨fact, hf, hm⟩ := (h.runOf id).captured slug instanceId hget
  exact ⟨fact, hf, JsText.mem_distinct.mpr (List.mem_map.mpr ⟨_, hm, rfl⟩)⟩

/-- A build that is not outstanding becomes so by a handoff only. -/
theorem hands_of_outstanding {run : UpgradeRun} {seq : Nat} {upgrade : UpgradeEvent} {slug : String}
    (h : run.outstanding.get? slug = none)
    (hnext : (run.note seq upgrade).outstanding.get? slug ≠ none) :
    ∃ payload, upgrade = .handoffStarted payload ∧ run.accepts upgrade = true := by
  unfold UpgradeRun.note at hnext
  split at hnext
  · rename_i ha
    cases upgrade with
    | handoffStarted payload => exact ⟨payload, rfl, ha⟩
    | drainSettled payload =>
      refine absurd ?_ hnext
      show (run.outstanding.erase payload.slug).get? slug = none
      rw [get?_erase, h, ite_self]
    | _ => exact absurd h hnext
  · exact absurd h hnext

theorem runOf_noteUpgrade (acc : DispatchUpgradeState) (seq : Nat) (upgrade : UpgradeEvent) :
    (acc.noteUpgrade seq upgrade).runOf upgrade.run = (acc.runOf upgrade.run).note seq upgrade := by
  have hget : (acc.noteUpgrade seq upgrade).runs.get? upgrade.run
      = some ((acc.runOf upgrade.run).note seq upgrade) :=
    (iterate_evictRun upgrade.run _ (acc.noted seq upgrade)).1.trans (get?_set_self _ _ _)
  exact congrArg (Option.getD · {}) hget

theorem settled_gone {slug : String} (h : Settles acc event id slug) :
    ((foldDispatch acc event).runOf id).outstanding.get? slug = none := by
  obtain ⟨payload, hbody, rfl, rfl, ha⟩ := h
  have hfold : foldDispatch acc event = acc.noteUpgrade event.seq (.drainSettled payload) := by
    unfold foldDispatch
    rw [hbody]
  rw [hfold]
  have hnote : (acc.runOf payload.run).note event.seq (.drainSettled payload)
      = (acc.runOf payload.run).accept event.seq (.drainSettled payload) := if_pos ha
  have hrun := (runOf_noteUpgrade acc event.seq (.drainSettled payload)).trans hnote
  refine (congrArg (fun run => run.outstanding.get? payload.slug) hrun).trans ?_
  exact (get?_erase _ _ _).trans (if_pos rfl)

end

/-- Between two settlements of a build lies a handoff of its run. -/
theorem hands_of_settles {id slug : String} {settled : DispatchEvent} :
    ∀ (between : List DispatchEvent) (acc : DispatchUpgradeState),
      (acc.runOf id).outstanding.get? slug = none →
      Settles (reduceDispatch acc between) settled id slug →
      ∃ part handed more, between = part ++ handed :: more ∧
        Hands (reduceDispatch acc part) handed id
  | [], acc, hgone, hs => by
    have hsome := outstanding_of_settles hs
    have hgone' : ((reduceDispatch acc []).runOf id).outstanding.get? slug = none := hgone
    rw [hgone'] at hsome
    exact absurd hsome Bool.false_ne_true
  | event :: rest, acc, hgone, hs => by
    by_cases hnext : ((foldDispatch acc event).runOf id).outstanding.get? slug = none
    · obtain ⟨part, handed, more, rfl, hh⟩ := hands_of_settles rest _ hnext hs
      exact ⟨event :: part, handed, more, rfl, hh⟩
    · obtain hrun | hrun | ⟨upgrade, hbody, hid, hrun⟩ := runOf_foldDispatch acc event id
      · rw [hrun] at hnext
        exact absurd rfl hnext
      · rw [hrun] at hnext
        exact absurd hgone hnext
      · rw [hrun] at hnext
        obtain ⟨payload, rfl, ha⟩ := hands_of_outstanding hgone hnext
        exact ⟨[], event, rest, rfl, payload, hbody, hid, ha⟩

/-! ## 4. Journals -/

theorem reduceDispatch_kept :
    ∀ (journal : List DispatchEvent) {acc : DispatchUpgradeState}, Bounded acc →
      UpgradeRunsKept acc →
      Bounded (reduceDispatch acc journal) ∧ UpgradeRunsKept (reduceDispatch acc journal)
  | [], _, hb, hr => ⟨hb, hr⟩
  | event :: rest, _, hb, hr =>
    reduceDispatch_kept rest (hb.foldDispatch event) (hr.foldDispatch event)

theorem reduceDispatch_append (journal : List DispatchEvent) (settled : DispatchEvent)
    (between : List DispatchEvent) :
    reduceDispatch {} (journal ++ settled :: between)
      = reduceDispatch (foldDispatch (reduceDispatch {} journal) settled) between := by
  unfold reduceDispatch
  rw [List.foldl_append, List.foldl_cons]

/-- **The state of every journal that names no inherited name is bounded and its runs follow the
protocol**, and so does what the next event does to it. -/
theorem dispatchUpgrade_protocol (journal : List DispatchEvent) (hnames : OwnNames {} journal) :
    ∃ process, reduceProcess {} journal = .ok process ∧
      process.acc = reduceDispatch {} journal ∧
      Bounded process.acc ∧
      (∀ id run, process.acc.runs.get? id = some run → UpgradeRunKept run) ∧
      (∀ event, OwnName process.acc event →
        (∃ next, stepProcess process event = .ok next ∧
          next.acc = foldDispatch process.acc event) ∧
        EventKept process.acc event) ∧
      ∀ settled id slug, Settles process.acc settled id slug →
        (∃ fact, (process.acc.runOf id).handoff = some fact ∧ slug ∈ fact.payload.captured) ∧
        ∀ between again, OwnNames {} (journal ++ settled :: between) →
          Settles (reduceDispatch {} (journal ++ settled :: between)) again id slug →
          ∃ part handed more, between = part ++ handed :: more ∧
            Hands (reduceDispatch {} (journal ++ settled :: part)) handed id := by
  have hempty : DispatchProcess.Clean {} := ⟨rfl, rfl⟩
  obtain ⟨process, hprocess, hclean, hacc⟩ := reduceProcess_own journal hempty hnames
  obtain ⟨hbounded, hruns⟩ : Bounded (reduceDispatch {} journal) ∧
      UpgradeRunsKept (reduceDispatch {} journal) :=
    reduceDispatch_kept journal ⟨by decide, by decide, by decide, by decide⟩
      fun _ _ h => absurd h nofun
  rw [← hacc] at hbounded hruns
  refine ⟨process, hprocess, hacc, hbounded, hruns, fun event hname =>
    ⟨?_, eventKept hbounded event⟩,
    fun settled id slug hs => ⟨captured_of_settles hruns hs, fun between again _ hagain => ?_⟩⟩
  · obtain ⟨next, hstep, -, hnext⟩ := DispatchProcess.step_own hclean hname
    exact ⟨next, hstep, hnext⟩
  · rw [reduceDispatch_append, ← hacc] at hagain
    obtain ⟨part, handed, more, hbetween, hh⟩ :=
      hands_of_settles between _ (settled_gone hs) hagain
    refine ⟨part, handed, more, hbetween, ?_⟩
    rw [reduceDispatch_append, ← hacc]
    exact hh

/-- A handoff of a captured build, up to its completion. -/
def handedJournal : List DispatchEvent :=
  [preparedEvent, yieldEvent,
   ⟨3, .upgrade (.handoffStarted
     { sampleHandoff with
       successor := some "second", mode := some .drain, deadline := none
       builds := some [⟨"build", "instance"⟩] })⟩,
   ⟨4, .upgrade (.terminalReleased sampleHandoff)⟩,
   ⟨5, .upgrade (.takeover { sampleHandoff with successor := "second" })⟩,
   ⟨6, .upgrade (.drainSettled
     { sampleHandoff with slug := "build", instanceId := "instance", outcome := .drained })⟩,
   ⟨7, .upgrade (.handoffCompleted { sampleHandoff with successor := "second" })⟩]

/-- The authority moved to the successor, the build is settled and the run is completed. -/
theorem dispatchUpgrade_protocol_handed :
    ∃ process, reduceProcess {} handedJournal = .ok process ∧
      process.acc.authoritativeRun = some "second" ∧
      (process.acc.runOf "first").completed.isSome = true ∧
      UpgradeRunKept (process.acc.runOf "first") ∧ Bounded process.acc := by
  have hfirst : "first" ∉ plainNames := by decide
  have hnames : OwnNames {} handedJournal :=
    ⟨hfirst, hfirst, hfirst, hfirst, hfirst, hfirst, hfirst, trivial⟩
  obtain ⟨process, hprocess, hacc, hbounded, hruns, -⟩ :=
    dispatchUpgrade_protocol handedJournal hnames
  refine ⟨process, hprocess, ?_, ?_, UpgradeRunsKept.runOf hruns "first", hbounded⟩
  · rw [hacc]
    decide +kernel
  · rw [hacc]
    decide +kernel

def failedEvent (seq : Nat) (run : String) : DispatchEvent :=
  ⟨seq, .upgrade (.failed { sampleHandoff with run := run, reason := "no target" })⟩

/-- Run `a` fails, then one called `__proto__`; fifteen more are detected. -/
def failedJournal : List DispatchEvent :=
  [failedEvent 1 "a", failedEvent 2 "__proto__"] ++
    (["b", "c", "d", "e", "f", "g", "h", "i", "j", "k", "l", "m", "n", "o", "p"].zipIdx 3).map
      fun entry => ⟨entry.2, .upgrade (.detected
        { sampleHandoff.toUpgradeIdentity with run := entry.1 })⟩

/-- The one settled run goes when the next run is detected: all the others read as settled by the
later failure of `__proto__`. -/
theorem not_dispatchUpgrade_protocol :
    ∃ process next, reduceProcess {} failedJournal = .ok process ∧
      stepProcess process
        ⟨18, .upgrade (.detected { sampleHandoff.toUpgradeIdentity with run := "q" })⟩ = .ok next ∧
      (process.acc.runs.entries.filter fun entry => decide (entry.2.settledSeq ≥ 0)).map
        Prod.fst = ["a"] ∧
      process.acc.runs.size = upgradeHistoryLimit ∧
      (next.acc.runs.get? "a").isNone = true := by
  refine ⟨_, _, rfl, rfl, ?_, ?_, ?_⟩ <;> decide +kernel

end Autobuild
