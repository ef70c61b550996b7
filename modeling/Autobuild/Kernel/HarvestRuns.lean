/-
# A run along the journal

* `RunGrows` is how a run may change as the journal grows: its reservations are appended, the
  limit its first recovery request applied stands, and an exhaustion is for good.
* `forall_runs` is the induction over a journal for what holds of every single run.
-/
import Autobuild.Kernel.HarvestCustody

namespace Autobuild

open ObjectMap Checked

/-! ## 1. Growth -/

/-- What later events make of a run; `seqs` are those of the reservations they may add. -/
structure RunGrows (seqs : Nat → Prop) (before after : HarvestRunState) : Prop where
  run : after.run = before.run
  reservations : ∃ added, after.reservations = before.reservations ++ added ∧
    ∀ reservation ∈ added, seqs reservation.seq
  limit : ∀ first ∈ before.recoveryRequests.head?, ∃ request ∈ after.recoveryRequests.head?,
    request.limit = first.limit
  exhausted : before.recoveryExhaustion.isSome = true → after.recoveryExhaustion.isSome = true

theorem RunGrows.of_eq {seqs : Nat → Prop} {before after : HarvestRunState}
    (hrun : after.run = before.run) (hreservations : after.reservations = before.reservations)
    (hrequests : after.recoveryRequests = before.recoveryRequests)
    (hexhausted : before.recoveryExhaustion.isSome = true →
      after.recoveryExhaustion.isSome = true) : RunGrows seqs before after := by
  refine ⟨hrun, ⟨[], by rw [hreservations, List.append_nil], fun _ h => absurd h List.not_mem_nil⟩,
    fun first hf => ?_, hexhausted⟩
  rw [hrequests]
  exact ⟨first, hf, rfl⟩

theorem RunGrows.refl (seqs : Nat → Prop) (run : HarvestRunState) : RunGrows seqs run run :=
  .of_eq rfl rfl rfl id

theorem RunGrows.trans {seqs : Nat → Prop} {first second third : HarvestRunState}
    (h : RunGrows seqs first second) (h' : RunGrows seqs second third) :
    RunGrows seqs first third := by
  obtain ⟨added, ha, hs⟩ := h.reservations
  obtain ⟨added', ha', hs'⟩ := h'.reservations
  refine ⟨h'.run.trans h.run, ⟨added ++ added', ?_, fun reservation hr => ?_⟩, fun request hr => ?_,
    fun he => h'.exhausted (h.exhausted he)⟩
  · rw [ha', ha, List.append_assoc]
  · exact (List.mem_append.mp hr).elim (hs reservation) (hs' reservation)
  · obtain ⟨middle, hm, hlimit⟩ := h.limit request hr
    obtain ⟨last, hl, hlimit'⟩ := h'.limit middle hm
    exact ⟨last, hl, hlimit'.trans hlimit⟩

theorem RunGrows.mono {seqs seqs' : Nat → Prop} {before after : HarvestRunState}
    (h : RunGrows seqs before after) (hs : ∀ seq, seqs seq → seqs' seq) :
    RunGrows seqs' before after := by
  obtain ⟨added, ha, hseqs⟩ := h.reservations
  exact ⟨h.run, ⟨added, ha, fun reservation hr => hs _ (hseqs reservation hr)⟩, h.limit,
    h.exhausted⟩

theorem RunStep.grows {seq : Nat} {before after : HarvestRunState}
    (h : RunStep seq before after) : RunGrows (· = seq) before after := by
  cases h with
  | workflow h =>
    refine .of_eq (run_of_custody h) ?_ ?_ fun he => ?_
    · show after.custody.reservations = before.custody.reservations
      rw [h]
    · show after.custody.recoveryRequests = before.custody.recoveryRequests
      rw [h]
    · show after.custody.recoveryExhaustion.isSome = true
      rw [h]
      exact he
  | requested request =>
    refine ⟨rfl, ⟨[], (List.append_nil _).symm, fun _ h => absurd h List.not_mem_nil⟩,
      fun first hf => ?_, id⟩
    have hhead : before.recoveryRequests.head? = some first := hf
    refine ⟨first, ?_, rfl⟩
    show (before.recoveryRequests ++ [request]).head? = some first
    rw [List.head?_append, hhead]
    rfl
  | reserved reservation hseq hkey =>
    refine ⟨rfl, ⟨[reservation], rfl, fun other ho => ?_⟩, fun first hf => ⟨first, hf, rfl⟩, id⟩
    rw [List.mem_singleton.mp ho]
    exact hseq
  | filed payload =>
    unfold fileProposal
    split
    · exact .refl _ _
    · exact .of_eq rfl rfl rfl id
  | escalated escalation ts =>
    unfold escalateRun
    split
    · exact .refl _ _
    · exact .of_eq rfl rfl rfl id
  | failed payload =>
    unfold failRun
    split
    · exact .refl _ _
    · exact .of_eq rfl rfl rfl id

/-- The first element keeps what the change keeps. -/
theorem head?_updateLast {α : Type} {p : α → Bool} {f : α → α} {q : α → α → Prop}
    (hrefl : ∀ x, q x x) (hf : ∀ x, q x (f x)) :
    ∀ {xs : List α} {x : α}, xs.head? = some x → ∃ y, (updateLast p f xs).head? = some y ∧ q x y
  | [], _, h => absurd h nofun
  | z :: zs, x, h => by
    rw [← Option.some.inj h]
    unfold updateLast
    split_ifs
    · exact ⟨z, rfl, hrefl z⟩
    · exact ⟨f z, rfl, hf z⟩
    · exact ⟨z, rfl, hrefl z⟩

theorem length_updateLast {α : Type} (p : α → Bool) (f : α → α) :
    ∀ xs : List α, (updateLast p f xs).length = xs.length
  | [] => rfl
  | x :: xs => by
    unfold updateLast
    split_ifs
    · rw [List.length_cons, length_updateLast p f xs, List.length_cons]
    · rfl
    · rfl

/-- What every element has, and the change keeps, every element has. -/
theorem forall_updateLast {α : Type} {p : α → Bool} {f : α → α} {q : α → Prop}
    (hf : ∀ x, q x → q (f x)) :
    ∀ {xs : List α}, (∀ x ∈ xs, q x) → ∀ x ∈ updateLast p f xs, q x
  | [], h => h
  | z :: zs, h => by
    obtain ⟨hz, hzs⟩ := List.forall_mem_cons.mp h
    unfold updateLast
    split_ifs
    · exact List.forall_mem_cons.mpr ⟨hz, forall_updateLast hf hzs⟩
    · exact List.forall_mem_cons.mpr ⟨hf z hz, hzs⟩
    · exact h

theorem resumeRun_grows (human : Bool) (seq ts : Nat) (seqs : Nat → Prop)
    (run : HarvestRunState) : RunGrows seqs run (resumeRun human seq ts run) := by
  unfold resumeRun
  split
  · split
    · exact .of_eq rfl rfl rfl fun _ => rfl
    · exact .refl _ _
  · rename_i hnone
    split
    · exact .refl _ _
    · split
      · refine ⟨rfl, ⟨[], (List.append_nil _).symm, fun _ h => absurd h List.not_mem_nil⟩,
          fun first hf => ?_, id⟩
        exact head?_updateLast (f := acknowledgeRequest seq ts)
          (q := fun first request => request.limit = first.limit) (fun _ => rfl) (fun _ => rfl) hf
      · exact .refl _ _

/-! ## 2. Along a journal -/

section

variable {acc next : HarvestAcc} {event : RepositoryEvent}

/-- An accepted event lets every run grow. -/
theorem HarvestMove.grows (h : HarvestMove acc event next) {id : String}
    {run : HarvestRunState} (hrun : acc.run? id = some run) :
    ∃ after, next.run? id = some after ∧ RunGrows (· = event.seq) run after := by
  have hset : ∀ {name : String} {other after : HarvestRunState}, acc.run? name = some other →
      RunGrows (· = event.seq) other after → next.runs = acc.runs.set ⟨name⟩ after →
      ∃ after, next.run? id = some after ∧ RunGrows (· = event.seq) run after := by
    intro name other after ho hgrows hruns
    rw [run?_of_set hruns]
    by_cases he : id = name
    · rw [he, ho] at hrun
      rw [if_pos he]
      exact ⟨after, rfl, Option.some.inj hrun ▸ hgrows⟩
    · rw [if_neg he]
      exact ⟨run, hrun, .refl _ run⟩
  cases h with
  | quiet hbody hruns hclaimed hledger =>
    refine ⟨run, ?_, .refl _ run⟩
    unfold HarvestAcc.run?
    rw [hruns]
    exact hrun
  | resumed hbody human hruns hclaimed hledger =>
    refine ⟨_, ?_, resumeRun_grows human event.seq event.ts _ run⟩
    rw [run?_of_mapValues hruns, hrun]
    rfl
  | changed hbody other after ho hstep hruns hclaimed hledger => exact hset ho hstep.grows hruns
  | completed hbody other dispositions report ho hstatus hruns hclaimed hledger =>
    refine hset ho ?_ hruns
    exact .of_eq rfl rfl rfl fun hs => hs
  | exhausted other payload hbody hname ho hcheck hpartition hruns hclaimed hledger =>
    refine hset ho ?_ hruns
    exact .of_eq rfl rfl rfl fun _ => rfl
  | started payload hbody hfresh hruns hclaimed hledger =>
    refine ⟨run, ?_, .refl _ run⟩
    rw [run?_of_set hruns, if_neg]
    · exact hrun
    · intro he
      rw [he, hfresh] at hrun
      exact absurd hrun nofun

end

/-- **A run of a prefix grows along the rest**, and its new reservations are of the rest. -/
theorem run_grows {before : List RepositoryEvent} {start : HarvestAcc}
    (hstart : foldHarvest before = .ok start) {id : String} {run : HarvestRunState}
    (hrun : start.run? id = some run) {after : List RepositoryEvent} :
    ∀ {acc : HarvestAcc}, foldHarvest (before ++ after) = .ok acc →
      ∃ last, acc.run? id = some last ∧
        RunGrows (fun seq => ∃ event ∈ after, event.seq = seq) run last := by
  induction after using List.reverseRecOn with
  | nil =>
    intro acc h
    rw [List.append_nil, hstart] at h
    rw [← Except.ok.inj h]
    exact ⟨run, hrun, .refl _ run⟩
  | append_singleton after event ih =>
    intro next h
    rw [← List.append_assoc] at h
    obtain ⟨acc, hacc, hn⟩ := foldHarvest_snoc.mp h
    obtain ⟨middle, hmiddle, hgrows⟩ := ih hacc
    obtain ⟨last, hlast, hstep⟩ := (foldHarvestEvent_move' hacc hn).grows hmiddle
    refine ⟨last, hlast, ?_⟩
    refine (hgrows.mono fun seq hs => ?_).trans (hstep.mono fun seq hs => ?_)
    · obtain ⟨e, he, hseq⟩ := hs
      exact ⟨e, List.mem_append_left _ he, hseq⟩
    · exact ⟨event, by simp, hs.symm⟩

/-- **What every run has.**  It holds of a started run, and no event takes it from a run. -/
theorem forall_runs {P : HarvestRunState → Prop}
    (hstarted : ∀ payload seq ts, P (startedRun payload seq ts))
    (hstep : ∀ seq before after, RunStep seq before after → P before → P after)
    (hresumed : ∀ human seq ts run, P run → P (resumeRun human seq ts run))
    (hcompleted : ∀ (run : HarvestRunState) dispositions report seq ts, run.status = .running →
      P run → P { run with
        status := .completed
        dispositions
        report := some report
        terminalSeq := some seq
        terminalAt := some ts })
    (hexhausted : ∀ run payload seq ts, checkExhaustion run payload seq = .ok () →
      P run → P (exhaustRun run payload seq ts))
    {events : List RepositoryEvent} :
    ∀ {acc : HarvestAcc}, foldHarvest events = .ok acc →
      ∀ id run, acc.run? id = some run → P run := by
  induction events using List.reverseRecOn with
  | nil =>
    intro acc h id run hrun
    rw [← Except.ok.inj h] at hrun
    exact absurd hrun nofun
  | append_singleton events event ih =>
    intro next h
    obtain ⟨acc, hacc, hn⟩ := foldHarvest_snoc.mp h
    have hall := ih hacc
    have hset : ∀ {name : String} {after : HarvestRunState}, P after →
        next.runs = acc.runs.set ⟨name⟩ after → ∀ id run, next.run? id = some run → P run := by
      intro name after hp hruns id run hrun
      rw [run?_of_set hruns] at hrun
      split at hrun
      · rw [← Option.some.inj hrun]
        exact hp
      · exact hall id run hrun
    cases foldHarvestEvent_move' hacc hn with
    | quiet hbody hruns hclaimed hledger =>
      intro id run hrun
      refine hall id run ?_
      unfold HarvestAcc.run? at hrun ⊢
      rw [hruns] at hrun
      exact hrun
    | resumed hbody human hruns hclaimed hledger =>
      intro id after hafter
      rw [run?_of_mapValues hruns] at hafter
      obtain ⟨run, hrun, rfl⟩ := Option.map_eq_some_iff.mp hafter
      exact hresumed _ _ _ run (hall id run hrun)
    | changed hbody run after hrun hs hruns hclaimed hledger =>
      exact hset (hstep _ run after hs (hall _ run hrun)) hruns
    | completed hbody run dispositions report hrun hstatus hruns hclaimed hledger =>
      exact hset (hcompleted run _ _ _ _ hstatus (hall _ run hrun)) hruns
    | exhausted run payload hbody hname hrun hcheck hpartition hruns hclaimed hledger =>
      exact hset (hexhausted run payload _ _ hcheck (hall _ run hrun)) hruns
    | started payload hbody hfresh hruns hclaimed hledger =>
      exact hset (hstarted payload _ _) hruns

end Autobuild
