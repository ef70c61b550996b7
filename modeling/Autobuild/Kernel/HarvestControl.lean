/-
# Harvest recovery control

`decideHarvestControl` and the reducer check a recovery apart from each other.  `RecoveryBooks`
is what the reducer keeps of a run's recovery; from it every event a decision authorizes is
accepted (`harvest_control`).
-/
import Autobuild.Kernel.HarvestClaims
import Autobuild.Kernel.HarvestRuns

namespace Autobuild

open ObjectMap Checked

/-! ## 1. The books of a recovery -/

structure RecoveryBooks (run : HarvestRunState) : Prop where
  failure : run.status = .failed → run.failure.isSome = true
  limits : ∀ first ∈ run.recoveryRequests.head?, ∀ request ∈ run.recoveryRequests,
    request.limit = first.limit
  bounded : ∀ first ∈ run.recoveryRequests.head?, run.recoveryRequests.length ≤ first.limit

theorem RecoveryBooks.of_eq {before after : HarvestRunState} (h : RecoveryBooks before)
    (hfailure : after.status = .failed → after.failure.isSome = true)
    (hrequests : after.recoveryRequests = before.recoveryRequests) : RecoveryBooks after := by
  refine ⟨hfailure, ?_, ?_⟩
  · rw [hrequests]
    exact h.limits
  · rw [hrequests]
    exact h.bounded

/-- The next request keeps the books. -/
theorem RecoveryBooks.requested {run : HarvestRunState} (h : RecoveryBooks run)
    {request : HarvestRecoveryRequest}
    (hattempt : request.attempt = run.recoveryRequests.length + 1)
    (happlied : ∀ first ∈ run.recoveryRequests.head?, request.limit = first.limit)
    (hlimit : request.attempt ≤ request.limit) :
    RecoveryBooks { run with recoveryRequests := run.recoveryRequests ++ [request] } := by
  cases hr : run.recoveryRequests with
  | nil =>
    rw [hr, List.length_nil] at hattempt
    refine ⟨h.failure, fun first hf other ho => ?_, fun first hf => ?_⟩
    · have hf : some request = some first := hf
      rw [List.mem_singleton.mp ho, Option.some.inj hf]
    · have hf : some request = some first := hf
      rw [← Option.some.inj hf]
      show 1 ≤ request.limit
      omega
  | cons head rest =>
    have hhead : head ∈ run.recoveryRequests.head? := by
      rw [hr]
      rfl
    have hlimits := h.limits head hhead
    have hsame := happlied head hhead
    rw [hr] at hlimits hattempt
    refine ⟨h.failure, fun first hf other ho => ?_, fun first hf => ?_⟩
    · have hf : some head = some first := hf
      rw [← Option.some.inj hf]
      rcases List.mem_append.mp ho with ho | ho
      · exact hlimits other ho
      · rw [List.mem_singleton.mp ho]
        exact hsame
    · have hf : some head = some first := hf
      rw [← Option.some.inj hf, ← hsame]
      show (head :: rest ++ [request]).length ≤ request.limit
      rw [List.length_append, List.length_singleton, ← hattempt]
      exact hlimit

theorem RunStep.books {seq : Nat} {before after : HarvestRunState} (h : RunStep seq before after)
    (hb : RecoveryBooks before) : RecoveryBooks after := by
  cases h with
  | workflow h =>
    refine hb.of_eq ?_ ?_
    · show after.custody.status = .failed → after.custody.failure.isSome = true
      rw [h]
      exact hb.failure
    · show after.custody.recoveryRequests = before.custody.recoveryRequests
      rw [h]
  | requested request hstatus hexhaustion hack hattempt happlied hlimit =>
    exact hb.requested hattempt happlied hlimit
  | reserved reservation => exact hb.of_eq hb.failure rfl
  | filed payload =>
    unfold fileProposal
    split
    · exact hb
    · exact hb.of_eq hb.failure rfl
  | escalated escalation ts =>
    unfold escalateRun
    split
    · exact hb
    · exact hb.of_eq nofun rfl
  | failed payload =>
    unfold failRun
    split
    · exact hb
    · exact hb.of_eq (fun _ => rfl) rfl

theorem resumeRun_books (human : Bool) (seq ts : Nat) {run : HarvestRunState}
    (hb : RecoveryBooks run) : RecoveryBooks (resumeRun human seq ts run) := by
  unfold resumeRun
  split
  · split
    · exact hb.of_eq hb.failure rfl
    · exact hb
  · split
    · exact hb
    · split
      · refine ⟨nofun, fun first hf request hr => ?_, fun first hf => ?_⟩
        · cases hh : run.recoveryRequests with
          | nil =>
            have hr : request ∈ updateLast unacknowledged (acknowledgeRequest seq ts)
              run.recoveryRequests := hr
            rw [hh] at hr
            exact absurd hr List.not_mem_nil
          | cons head rest =>
            have hhead : run.recoveryRequests.head? = some head := by
              rw [hh]
              rfl
            obtain ⟨other, ho, hlimit⟩ := head?_updateLast (p := unacknowledged)
              (f := acknowledgeRequest seq ts)
              (q := fun first request => request.limit = first.limit) (fun _ => rfl)
              (fun _ => rfl) hhead
            rw [Option.some.inj ((show _ = some first from hf).symm.trans ho), hlimit]
            exact forall_updateLast (f := acknowledgeRequest seq ts)
              (q := fun request => request.limit = head.limit)
              (fun _ hq => hq) (hb.limits head hhead) request hr
        · show (updateLast unacknowledged (acknowledgeRequest seq ts)
            run.recoveryRequests).length ≤ first.limit
          rw [length_updateLast]
          cases hh : run.recoveryRequests.head? with
          | none =>
            rw [List.head?_eq_none_iff.mp hh]
            exact Nat.zero_le _
          | some head =>
            obtain ⟨other, ho, hlimit⟩ := head?_updateLast (p := unacknowledged)
              (f := acknowledgeRequest seq ts)
              (q := fun first request => request.limit = first.limit) (fun _ => rfl)
              (fun _ => rfl) hh
            rw [Option.some.inj ((show _ = some first from hf).symm.trans ho), hlimit]
            exact hb.bounded head hh
      · exact hb

/-- **Every run of an accepted journal has its books in order.** -/
theorem recoveryBooks {events : List RepositoryEvent} {acc : HarvestAcc}
    (h : foldHarvest events = .ok acc) {id : String} {run : HarvestRunState}
    (hrun : acc.run? id = some run) : RecoveryBooks run := by
  refine forall_runs (P := RecoveryBooks) ?_ ?_ ?_ ?_ ?_ h id run hrun
  · intro payload seq ts
    exact ⟨nofun, nofun, nofun⟩
  · exact fun seq before after hs hb => hs.books hb
  · exact fun human seq ts run hb => resumeRun_books human seq ts hb
  · exact fun run dispositions report seq ts hstatus hb => hb.of_eq nofun rfl
  · exact fun run payload seq ts hcheck hb => hb.of_eq hb.failure rfl

/-! ## 2. What the reducer accepts -/

/-- The descriptors name released occurrences, each once, under keys of their own. -/
structure DescribesReleased (payload : HarvestRecoveryExhausted) : Prop where
  keys : (payload.pendingProposals.map (·.proposalKey)).Nodup
  once : (payload.pendingProposals.flatMap fun proposal =>
    proposal.observations.map occurrenceKey).Nodup
  released : ∀ proposal ∈ payload.pendingProposals, ∀ o ∈ proposal.observations,
    occurrenceKey o ∈ payload.releasedObservations.map occurrenceKey

theorem foldlM_describeProposal {run : String} {released : List String} :
    ∀ {proposals : List HarvestPendingProposal} {keys described : List String},
      (proposals.map (·.proposalKey)).Nodup →
      (∀ proposal ∈ proposals, proposal.proposalKey ∉ keys) →
      (proposals.flatMap fun proposal => proposal.observations.map occurrenceKey).Nodup →
      (∀ proposal ∈ proposals, ∀ o ∈ proposal.observations,
        occurrenceKey o ∈ released ∧ occurrenceKey o ∉ described) →
      ∃ next, proposals.foldlM (describeProposal run released) (keys, described) = .ok next
  | [], keys, described, _, _, _, _ => ⟨(keys, described), rfl⟩
  | proposal :: proposals, keys, described, hkeys, hfresh, honce, hreleased => by
    rw [List.map_cons, List.nodup_cons] at hkeys
    rw [List.flatMap_cons, List.nodup_append] at honce
    obtain ⟨hnew, hkeys⟩ := hkeys
    obtain ⟨hfirst, hrest, hdisjoint⟩ := honce
    have hloop : (proposal.observations.map occurrenceKey).foldlM
        (describeOccurrence run proposal.proposalKey released) described
          = .ok (described ++ proposal.observations.map occurrenceKey) := by
      refine foldlM_takeNew.mpr ⟨hfirst, fun key hk => ?_, rfl⟩
      obtain ⟨o, ho, rfl⟩ := List.mem_map.mp hk
      exact hreleased proposal List.mem_cons_self o ho
    have hone : describeProposal run released (keys, described) proposal
        = .ok (keys ++ [proposal.proposalKey],
          described ++ proposal.observations.map occurrenceKey) := by
      unfold describeProposal
      rw [if_neg (hfresh proposal List.mem_cons_self), hloop]
      rfl
    rw [List.foldlM_cons, hone]
    refine foldlM_describeProposal hkeys (fun other ho => ?_) hrest fun other ho o hm => ?_
    · intro hk
      rcases List.mem_append.mp hk with hk | hk
      · exact hfresh other (List.mem_cons_of_mem _ ho) hk
      · rw [List.mem_singleton] at hk
        exact hnew (hk ▸ List.mem_map_of_mem ho)
    · obtain ⟨hin, hout⟩ := hreleased other (List.mem_cons_of_mem _ ho) o hm
      refine ⟨hin, fun hk => ?_⟩
      rcases List.mem_append.mp hk with hk | hk
      · exact hout hk
      · exact hdisjoint _ hk _
          (List.mem_flatMap.mpr ⟨other, ho, List.mem_map_of_mem hm⟩) rfl

/-- An exact partition passes its checks. -/
theorem checkPartition_ok {run : HarvestRunState} {payload : HarvestRecoveryExhausted}
    (h : ExactPartition run payload) (hpending : DescribesReleased payload) :
    checkPartition run payload = .ok () := by
  obtain ⟨hcommitted, hreleased, hdisjoint, hsnapshot⟩ := h
  have hin : ∀ key, key ∈ JsText.distinct (run.observations.map occurrenceKey) ↔
      key ∈ payload.committedDispositions.map (occurrenceKey ·.occurrence) ∨
        key ∈ payload.releasedObservations.map occurrenceKey := by
    intro key
    rw [JsText.mem_distinct, hsnapshot]
  have hfirst : (payload.committedDispositions.map (occurrenceKey ·.occurrence)).foldlM
      (partitionOne run.run "committed" (JsText.distinct (run.observations.map occurrenceKey))) []
        = .ok (payload.committedDispositions.map (occurrenceKey ·.occurrence)) :=
    foldlM_takeNew.mpr ⟨hcommitted,
      fun key hk => ⟨(hin key).mpr (Or.inl hk), List.not_mem_nil⟩, (List.nil_append _).symm⟩
  have hsecond : (payload.releasedObservations.map occurrenceKey).foldlM
      (partitionOne run.run "released" (JsText.distinct (run.observations.map occurrenceKey)))
        (payload.committedDispositions.map (occurrenceKey ·.occurrence))
        = .ok (payload.committedDispositions.map (occurrenceKey ·.occurrence)
          ++ payload.releasedObservations.map occurrenceKey) :=
    foldlM_takeNew.mpr ⟨hreleased,
      fun key hk => ⟨(hin key).mpr (Or.inr hk), hdisjoint key hk⟩, rfl⟩
  have hnodup : (payload.committedDispositions.map (occurrenceKey ·.occurrence)
      ++ payload.releasedObservations.map occurrenceKey).Nodup := by
    refine List.nodup_append.mpr ⟨hcommitted, hreleased, fun a ha b hb he => ?_⟩
    exact hdisjoint b hb (he ▸ ha)
  have hlength : (payload.committedDispositions.map (occurrenceKey ·.occurrence)
      ++ payload.releasedObservations.map occurrenceKey).length
        = (JsText.distinct (run.observations.map occurrenceKey)).length := by
    refine List.Perm.length_eq ((List.perm_ext_iff_of_nodup hnodup
      (JsText.distinct_nodup _)).mpr fun key => ?_)
    rw [hin, List.mem_append]
  obtain ⟨described, hdescribed⟩ := @foldlM_describeProposal run.run
    (payload.releasedObservations.map occurrenceKey) payload.pendingProposals [] []
    hpending.keys (fun _ _ => List.not_mem_nil) hpending.once
    fun proposal hp o ho => ⟨hpending.released proposal hp o ho, List.not_mem_nil⟩
  unfold checkPartition
  dsimp only
  rw [hfirst, ok_bind, hsecond, ok_bind, if_neg (not_not.mpr hlength), hdescribed]
  rfl

/-- Claims of the run can be released. -/
theorem exists_foldlM_releaseClaim {run : String} :
    ∀ {keys : List String} {claimed : JsMap String HarvestClaim}, keys.Nodup →
      (∀ key ∈ keys, (claimed.get? ⟨key⟩).map (·.run) = some run) →
        ∃ next, keys.foldlM (releaseClaim run) claimed = .ok next
  | [], claimed, _, _ => ⟨claimed, rfl⟩
  | key :: keys, claimed, hnodup, howned => by
    obtain ⟨hnot, hnodup⟩ := List.nodup_cons.mp hnodup
    have hone : releaseClaim run claimed key = .ok (claimed.erase ⟨key⟩) := by
      unfold releaseClaim
      dsimp only
      rw [if_neg (not_not.mpr (howned key List.mem_cons_self))]
    rw [List.foldlM_cons, hone]
    refine exists_foldlM_releaseClaim hnodup fun other ho => ?_
    rw [get?_erase, if_neg]
    · exact howned other (List.mem_cons_of_mem _ ho)
    · intro he
      exact hnot (MapKey.mk.inj he ▸ ho)

/-! ## 3. What a decision authorizes -/

/-- The event a kernel appends on a decision.  An exhaustion carries the boundary the run stopped
at and a partition of its snapshot. -/
inductive Authorizes (state : HarvestState) : HarvestControlDecision → HarvestEvent → Prop where
  | pause : Authorizes state (.acknowledge .pause) .paused
  | resume : Authorizes state (.acknowledge .resume) .resumed
  | requestRecovery (run : String) (attempt limit : Nat) :
      Authorizes state (.requestRecovery run attempt limit) (.recoveryRequested run attempt limit)
  | exhaustRecovery (run : HarvestRunState) (hrun : run ∈ state.runs)
      (payload : HarvestRecoveryExhausted) (hname : payload.run = run.run)
      (hstopped : run.failure.map (·.stopped) = some payload.stopped)
      (hpartition : ExactPartition run payload) (hpending : DescribesReleased payload) :
      Authorizes state (.exhaustRecovery run.run payload.attempts payload.limit)
        (.recoveryExhausted payload)

/-- The rule for the oldest parked run decided. -/
theorem recoverOldest_of_decide {state : HarvestState} {limit : Nat}
    {decision : HarvestControlDecision} (h : decideHarvestControl state limit = .ok decision)
    (hack : ∀ command, decision ≠ .acknowledge command) (hpark : decision ≠ .park) :
    recoverOldest limit (parkedHarvestRuns state) = decision ∧
      ∀ run ∈ parkedHarvestRuns state, run.recoveryRequests.any unacknowledged = false := by
  unfold decideHarvestControl at h
  split_ifs at h with hlimit hpaused hresume hpause hresume' hattention hany
  · exact absurd (Except.ok.inj h).symm (hack .resume)
  · exact absurd (Except.ok.inj h).symm hpark
  · exact absurd (Except.ok.inj h).symm (hack .pause)
  · exact absurd (Except.ok.inj h).symm (hack .resume)
  · exact absurd (Except.ok.inj h).symm hpark
  · exact absurd (Except.ok.inj h).symm (hack .resume)
  · refine ⟨Except.ok.inj h, fun run hrun => ?_⟩
    refine Bool.eq_false_of_not_eq_true fun hu => hany ?_
    exact List.any_eq_true.mpr ⟨run, hrun, hu⟩

/-- The oldest parked run, and how its attempts compare with its limit. -/
theorem recoverOldest_cases {limit : Nat} {runs : List HarvestRunState}
    {decision : HarvestControlDecision} (h : recoverOldest limit runs = decision) :
    decision = .proceed ∨ ∃ run ∈ runs,
      (decision = .requestRecovery run.run (run.recoveryRequests.length + 1)
          ((run.recoveryRequests.head?.map (·.limit)).getD limit) ∧
        run.recoveryRequests.length < (run.recoveryRequests.head?.map (·.limit)).getD limit) ∨
      (decision = .exhaustRecovery run.run run.recoveryRequests.length
          ((run.recoveryRequests.head?.map (·.limit)).getD limit) ∧
        (run.recoveryRequests.head?.map (·.limit)).getD limit ≤ run.recoveryRequests.length) := by
  unfold recoverOldest at h
  split at h
  · exact Or.inl h.symm
  · rename_i run rest
    dsimp only at h
    refine Or.inr ⟨run, List.mem_cons_self, ?_⟩
    split at h
    · rename_i hlt
      exact Or.inl ⟨h.symm, hlt⟩
    · rename_i hlt
      exact Or.inr ⟨h.symm, Nat.le_of_not_lt hlt⟩

section

variable {events : List RepositoryEvent} {acc : HarvestAcc}

theorem mem_parked (hnamed : acc.Named) {run : HarvestRunState}
    (h : run ∈ parkedHarvestRuns (finishHarvest acc)) :
    acc.run? run.run = some run ∧ run.status = .failed ∧ run.recoveryExhaustion = none := by
  obtain ⟨hm, hp⟩ := List.mem_filter.mp h
  unfold isOrdinaryParkedRun at hp
  rw [Bool.and_eq_true] at hp
  exact ⟨(mem_runs hnamed).mp hm, of_decide_eq_true hp.1, Option.isNone_iff_eq_none.mp hp.2⟩

/-- A decided request is accepted. -/
theorem recoveryRequested_ok {run : HarvestRunState} {limit : Nat}
    (hstatus : run.status = .failed) (hnone : run.recoveryExhaustion = none)
    (hack : run.recoveryRequests.any unacknowledged = false)
    (hlt : run.recoveryRequests.length < (run.recoveryRequests.head?.map (·.limit)).getD limit)
    (seq ts : Nat) :
    ∃ next, foldRecoveryRequested (acc.noted seq) run (run.recoveryRequests.length + 1)
      ((run.recoveryRequests.head?.map (·.limit)).getD limit) seq ts = .ok next := by
  have happlied : ¬(run.recoveryRequests.head?.map (·.limit) ≠ none ∧
      some ((run.recoveryRequests.head?.map (·.limit)).getD limit)
        ≠ run.recoveryRequests.head?.map (·.limit)) := by
    cases run.recoveryRequests.head? with
    | none => exact fun h => h.1 rfl
    | some first => exact fun h => h.2 rfl
  have hordinary : ¬(run.status ≠ .failed ∨ run.recoveryExhaustion.isSome = true) := by
    rw [hnone]
    exact fun h => h.elim (fun hn => hn hstatus) nofun
  unfold foldRecoveryRequested
  dsimp only
  rw [if_neg hordinary, hack, if_neg Bool.false_ne_true, if_neg (not_not.mpr rfl),
    if_neg happlied, if_neg (Nat.not_lt.mpr hlt)]
  exact ⟨_, rfl⟩

/-- A decided exhaustion with an exact partition is accepted. -/
theorem recoveryExhausted_ok (hacc : foldHarvest events = .ok acc) {run : HarvestRunState}
    {payload : HarvestRecoveryExhausted} {limit : Nat} (hpositive : 0 < limit)
    (hrun : acc.run? run.run = some run) (hstatus : run.status = .failed)
    (hnone : run.recoveryExhaustion = none)
    (hack : run.recoveryRequests.any unacknowledged = false)
    (hattempts : payload.attempts = run.recoveryRequests.length)
    (hlimit : payload.limit = (run.recoveryRequests.head?.map (·.limit)).getD limit)
    (hle : (run.recoveryRequests.head?.map (·.limit)).getD limit ≤ run.recoveryRequests.length)
    (hstopped : run.failure.map (·.stopped) = some payload.stopped)
    (hpartition : ExactPartition run payload) (hpending : DescribesReleased payload)
    (seq ts : Nat) :
    ∃ next, foldRecoveryExhausted (acc.noted seq) run payload seq ts = .ok next := by
  have hcustody := harvestCustody_foldHarvest hacc
  have hbooks := recoveryBooks hacc hrun
  have hcounted : payload.attempts = payload.limit ∧
      ∀ request ∈ run.recoveryRequests, request.limit = payload.limit := by
    cases hh : run.recoveryRequests.head? with
    | none =>
      rw [hh] at hle
      rw [List.head?_eq_none_iff.mp hh] at hle
      exact absurd hle (Nat.not_le.mpr hpositive)
    | some first =>
      rw [hh] at hle hlimit
      have hle : first.limit ≤ run.recoveryRequests.length := hle
      have hlimit : payload.limit = first.limit := hlimit
      have hbounded := hbooks.bounded first hh
      exact ⟨by omega, fun request hr => (hbooks.limits first hh request hr).trans hlimit.symm⟩
  have hcheck : checkExhaustion run payload seq = .ok () := by
    have hfailed : ¬(run.status ≠ .failed ∨ run.failure.isNone = true) := by
      refine fun h => h.elim (fun hn => hn hstatus) fun hn => ?_
      have hsome := hbooks.failure hstatus
      rw [Option.isNone_iff_eq_none.mp hn] at hsome
      exact absurd hsome nofun
    have hbudget : ¬(payload.attempts ≠ run.recoveryRequests.length ∨
        payload.attempts ≠ payload.limit ∨
        run.recoveryRequests.any (fun request => request.limit ≠ payload.limit) = true) := by
      rintro (h | h | h)
      · exact h hattempts
      · exact h hcounted.1
      · obtain ⟨request, hr, hn⟩ := List.any_eq_true.mp h
        exact of_decide_eq_true hn (hcounted.2 request hr)
    unfold checkExhaustion
    rw [hnone, if_neg (show ¬Option.isSome none = true from nofun), if_neg hfailed,
      if_neg (not_not.mpr hstopped), if_neg hbudget, hack, if_neg Bool.false_ne_true]
  have howned : ∀ key ∈ payload.releasedObservations.map occurrenceKey,
      (acc.claimed.get? ⟨key⟩).map (·.run) = some run.run := by
    intro key hk
    obtain ⟨o, ho, rfl⟩ := List.mem_map.mp ((hpartition.snapshot key).mpr (Or.inr hk))
    have hheld : o ∈ run.held := by
      unfold HarvestRunState.held
      rw [hnone]
      exact ho
    have hclaim : acc.claimed.get? ⟨occurrenceKey o⟩ = some ⟨o, run.run⟩ :=
      (hcustody.claims run.run o).mpr ⟨run, hrun, hheld⟩
    rw [hclaim]
    rfl
  obtain ⟨claimed, hclaimed⟩ := exists_foldlM_releaseClaim hpartition.released howned
  have hclaimed : (payload.releasedObservations.map occurrenceKey).foldlM (releaseClaim run.run)
      (acc.noted seq).claimed = .ok claimed := hclaimed
  unfold foldRecoveryExhausted
  rw [hcheck, ok_bind, checkPartition_ok hpartition hpending, ok_bind, hclaimed]
  exact ⟨_, rfl⟩

/-- A fact of a known run is accepted where its reduction is. -/
theorem foldHarvest_snoc_ok (hacc : foldHarvest events = .ok acc) {fact : HarvestEvent}
    {actor : Actor} {seq ts : Nat}
    (h : ∃ next, foldHarvestFact (acc.noted seq) fact actor seq ts = .ok next) :
    ∃ next, reduceHarvest (events ++ [{ actor, body := .harvest fact, seq, ts }]) = .ok next := by
  obtain ⟨next, hn⟩ := h
  exact ⟨_, reduceHarvest_eq_ok.mpr ⟨next, foldHarvest_snoc.mpr ⟨acc, hacc, hn⟩, rfl⟩⟩

end

/-- **Recovery control authorizes nothing the reducer refuses**, for every accepted journal and
positive limit.  Along the journal the recoveries of a run stay within the limit its first
request applied, and an exhausted run stays failed. -/
theorem harvest_control {events : List RepositoryEvent} {state : HarvestState}
    (h : reduceHarvest events = .ok state) :
    (∀ limit decision fact, 0 < limit → decideHarvestControl state limit = .ok decision →
      Authorizes state decision fact → ∀ actor seq ts, ∃ next,
        reduceHarvest (events ++ [{ actor, body := .harvest fact, seq, ts }]) = .ok next) ∧
    ∀ before after start, events = before ++ after → reduceHarvest before = .ok start →
      ∀ run ∈ start.runs, (∃ last ∈ state.runs, last.run = run.run) ∧
        ∀ last ∈ state.runs, last.run = run.run →
          (∀ first ∈ run.recoveryRequests.head?, last.recoveryRequests.length ≤ first.limit) ∧
          (run.recoveryExhaustion.isSome = true → last.status = .failed) := by
  obtain ⟨acc, hacc, rfl⟩ := reduceHarvest_eq_ok.mp h
  have hcustody := harvestCustody_foldHarvest hacc
  constructor
  · intro limit decision fact hpositive hdecided hauthorized actor seq ts
    refine foldHarvest_snoc_ok hacc ?_
    cases hauthorized with
    | pause => exact ⟨_, rfl⟩
    | resume => exact ⟨_, rfl⟩
    | requestRecovery id attempt applied =>
      obtain ⟨hrule, hack⟩ := recoverOldest_of_decide hdecided nofun nofun
      rcases recoverOldest_cases hrule with hp | ⟨run, hm, ⟨hd, hlt⟩ | ⟨hd, -⟩⟩
      · exact absurd hp nofun
      · cases hd
        obtain ⟨hrun, hstatus, hnone⟩ := mem_parked hcustody.named hm
        have hrequire : requireRun (acc.noted seq) run.run (.recoveryRequested run.run
            (run.recoveryRequests.length + 1)
            ((run.recoveryRequests.head?.map (·.limit)).getD limit)) seq = .ok run :=
          requireRun_ok hrun
        obtain ⟨next, hn⟩ :=
          @recoveryRequested_ok acc run limit hstatus hnone (hack run hm) hlt seq ts
        refine ⟨next, ?_⟩
        unfold foldHarvestFact
        dsimp only
        rw [hrequire]
        exact hn
      · exact absurd hd nofun
    | exhaustRecovery run hmem payload hname hstopped hpartition hpending =>
      obtain ⟨hrule, hack⟩ := recoverOldest_of_decide hdecided nofun nofun
      rcases recoverOldest_cases hrule with hp | ⟨other, hm, ⟨hd, -⟩ | ⟨hd, hle⟩⟩
      · exact absurd hp nofun
      · exact absurd hd nofun
      · injection hd with hid hattempts hlimit
        obtain ⟨hrun, hstatus, hnone⟩ := mem_parked hcustody.named hm
        have hsame : run = other := by
          have hr := (mem_runs hcustody.named).mp hmem
          rw [hid, hrun] at hr
          exact (Option.some.inj hr).symm
        rw [← hsame] at hrun hstatus hnone hattempts hlimit hle hm
        have hrequire : requireRun (acc.noted seq) payload.run (.recoveryExhausted payload) seq
            = .ok run := by
          rw [hname]
          exact requireRun_ok hrun
        obtain ⟨next, hn⟩ := recoveryExhausted_ok hacc hpositive hrun hstatus hnone (hack run hm)
          hattempts hlimit hle hstopped hpartition hpending seq ts
        refine ⟨next, ?_⟩
        unfold foldHarvestFact
        dsimp only
        rw [hrequire]
        exact hn
  · rintro before after start rfl hstart run hrun
    obtain ⟨first, hfirst, rfl⟩ := reduceHarvest_eq_ok.mp hstart
    have hrun := (mem_runs (harvestCustody_foldHarvest hfirst).named).mp hrun
    obtain ⟨last, hlast, hgrows⟩ := run_grows hfirst hrun hacc
    have hname := hgrows.run
    refine ⟨⟨last, (mem_runs hcustody.named).mpr (by rw [hname]; exact hlast), hname⟩,
      fun other ho hsame => ?_⟩
    have hother := (mem_runs hcustody.named).mp ho
    rw [hsame, hlast] at hother
    rw [← Option.some.inj hother]
    constructor
    · intro request hr
      obtain ⟨head, hh, hlimit⟩ := hgrows.limit request hr
      rw [← hlimit]
      exact (recoveryBooks hacc hlast).bounded head hh
    · exact fun hs => hcustody.parked _ last hlast (hgrows.exhausted hs)

/-- What the kernel reads of a run to record an exhaustion, and the limit of its requests. -/
structure HarvestRunView where
  run : String
  observations : List OccurrenceKey
  stopped : Option HarvestBoundary
  limit : Option Nat
  deriving DecidableEq

def HarvestRunState.view (run : HarvestRunState) : HarvestRunView :=
  ⟨run.run, run.observations, run.failure.map (·.stopped),
    run.recoveryRequests.head?.map (·.limit)⟩

def controlView (limit : Nat) (state : HarvestState) :
    Option HarvestControlDecision × List HarvestRunView :=
  ((decideHarvestControl state limit).toOption, state.runs.map (·.view))

theorem exists_controlView {events : List RepositoryEvent} {limit : Nat}
    {decision : HarvestControlDecision} {runs : List HarvestRunView}
    (h : (reduceHarvest events).toOption.map (controlView limit) = some (some decision, runs)) :
    ∃ state, reduceHarvest events = .ok state ∧ decideHarvestControl state limit = .ok decision ∧
      ∀ view ∈ runs, ∃ run ∈ state.runs, run.view = view := by
  cases hr : reduceHarvest events with
  | error message =>
    rw [hr] at h
    exact absurd h nofun
  | ok state =>
    rw [hr] at h
    obtain ⟨hd, hv⟩ := Prod.mk.inj (Option.some.inj h)
    refine ⟨state, rfl, ?_, fun view hm => ?_⟩
    · cases hdecide : decideHarvestControl state limit with
      | error message =>
        rw [hdecide] at hd
        exact absurd hd nofun
      | ok decided =>
        rw [hdecide] at hd
        exact congrArg Except.ok (Option.some.inj hd)
    · rw [← hv] at hm
      obtain ⟨run, hrun, hview⟩ := List.mem_map.mp hm
      exact ⟨run, hrun, hview⟩

/-- The first run after its only recovery. -/
def firstView : HarvestRunView :=
  ⟨"first", [⟨"build", 1⟩, ⟨"build", 2⟩], some stoppedFiling, some 1⟩

/-- The limit applied was 1, whatever is configured now. -/
theorem harvest_control_exhaustedJournal :
    ∃ state, reduceHarvest (exhaustedJournal.take 5) = .ok state ∧
      (∃ next, reduceHarvest (exhaustedJournal.take 5
        ++ [harvestEvent 6 (.recoveryExhausted partialFiling)]) = .ok next) ∧
      ∀ last ∈ state.runs, last.run = "first" → last.recoveryRequests.length ≤ 1 := by
  obtain ⟨state, hs, hdecide, hruns⟩ := @exists_controlView (exhaustedJournal.take 5) 3
    (.exhaustRecovery "first" 1 1) [firstView] (by decide +kernel)
  obtain ⟨run, hrun, hview⟩ := hruns firstView List.mem_cons_self
  obtain ⟨start, hstart, -, hstarts⟩ := @exists_controlView (exhaustedJournal.take 3) 3
    (.acknowledge .resume) [firstView] (by decide +kernel)
  obtain ⟨first, hfirst, hfirstView⟩ := hstarts firstView List.mem_cons_self
  obtain ⟨haccepted, hbounded⟩ := harvest_control hs
  have hname : run.run = "first" := congrArg HarvestRunView.run hview
  have hpartition : ExactPartition run partialFiling := by
    refine ⟨by decide, by decide, by decide, fun key => ?_⟩
    rw [show run.observations = _ from congrArg HarvestRunView.observations hview]
    simp [partialFiling, firstView]
  have hpending : DescribesReleased partialFiling := ⟨by decide, by decide, by decide⟩
  have hauthorized := Authorizes.exhaustRecovery run hrun partialFiling hname.symm
    (congrArg HarvestRunView.stopped hview) hpartition hpending
  rw [hname] at hauthorized
  refine ⟨state, hs, haccepted 3 _ _ (by decide) hdecide hauthorized .dispatcher 6 0,
    fun last hl hn => ?_⟩
  have hlimit : first.recoveryRequests.head?.map (·.limit) = some 1 :=
    congrArg HarvestRunView.limit hfirstView
  have hfirstName : first.run = "first" := congrArg HarvestRunView.run hfirstView
  obtain ⟨request, hr, hl1⟩ := Option.map_eq_some_iff.mp hlimit
  have hle := ((hbounded (exhaustedJournal.take 3) ((exhaustedJournal.take 5).drop 3) start rfl
    hstart first hfirst).2 last hl (hn.trans hfirstName.symm)).1 request hr
  rw [hl1] at hle
  exact hle

end Autobuild
