/-
# The gate of the dispatch budget

* The reducer counts what the log says (`mem_openIds_iff`, `aborted_iff`, `failuresSince_failures`).
* `BudgetCallKept` is what a call knows at each of its stages, `GateKept` the invariant.
-/
import Autobuild.Processes.DispatchFailureBudget

namespace Autobuild

/-! ## 1. The reducer counts what the log says -/

section

variable {log : List AbEvent} {event : AbEvent} {id : String}

/-- An escalation of the log stays open unless the new event answers it. -/
theorem limitOpenAt_snoc {index : Nat} (hlt : index < log.length) :
    LimitOpenAt (log ++ [event]) index id ↔ LimitOpenAt log index id ∧ ¬event.answers id := by
  unfold LimitOpenAt
  rw [List.getElem?_append_left hlt, List.drop_append_of_le_length hlt, and_assoc]
  refine and_congr_right fun _ => ?_
  simp only [List.mem_append, List.mem_singleton, or_imp, forall_and, forall_eq]

/-- Open is what the new event raises, or what was open and it does not answer. -/
theorem limitOpen_snoc :
    LimitOpen (log ++ [event]) id ↔
      event.limitRaised? = some id ∨ (LimitOpen log id ∧ ¬event.answers id) := by
  constructor
  · rintro ⟨index, hopen⟩
    by_cases hlt : index < log.length
    · obtain ⟨hlog, hanswer⟩ := (limitOpenAt_snoc hlt).mp hopen
      exact .inr ⟨⟨index, hlog⟩, hanswer⟩
    · obtain ⟨⟨raised, hget, hraised⟩, -⟩ := hopen
      rw [List.getElem?_append_right (Nat.not_lt.mp hlt)] at hget
      have hm := List.mem_of_getElem? hget
      rw [List.mem_singleton.mp hm] at hraised
      exact .inl hraised
  · rintro (hraised | ⟨⟨index, hopen⟩, hanswer⟩)
    · refine ⟨log.length, ⟨event, ?_, hraised⟩, fun later hm => ?_⟩
      · rw [List.getElem?_concat_length]
      · rw [List.drop_of_length_le (by simp)] at hm
        exact absurd hm List.not_mem_nil
    · have hlt : index < log.length := by
        obtain ⟨⟨raised, hget, -⟩, -⟩ := hopen
        exact (List.getElem?_eq_some_iff.mp hget).1
      exact ⟨index, (limitOpenAt_snoc hlt).mpr ⟨hopen, hanswer⟩⟩

theorem limitOpen_nil : ¬LimitOpen [] id := by
  rintro ⟨index, ⟨event, hget, -⟩, -⟩
  exact absurd hget nofun

/-- An abort counts if its escalation is open when it is given. -/
theorem limitAborted_snoc :
    LimitAborted (log ++ [event]) ↔ LimitAborted log ∨
      ∃ payload, event.body = .escalationAnswered payload ∧ payload.resolution = .abort ∧
        LimitOpen log payload.id := by
  constructor
  · rintro ⟨index, payload, hget, habort, hopen⟩
    by_cases hlt : index < log.length
    · rw [List.getElem?_append_left hlt] at hget
      rw [List.take_append_of_le_length hlt.le] at hopen
      exact .inl ⟨index, payload, hget, habort, hopen⟩
    · obtain ⟨answer, hanswer, hbody⟩ := Option.map_eq_some_iff.mp hget
      have hindex := (List.getElem?_eq_some_iff.mp hanswer).1
      rw [List.length_append, List.length_singleton] at hindex
      obtain rfl : index = log.length := by omega
      rw [List.getElem?_concat_length] at hanswer
      rw [List.take_left] at hopen
      rw [← Option.some.inj hanswer] at hbody
      exact .inr ⟨payload, hbody, habort, hopen⟩
  · rintro (⟨index, payload, hget, habort, hopen⟩ | ⟨payload, hbody, habort, hopen⟩)
    · obtain ⟨answer, hanswer, -⟩ := Option.map_eq_some_iff.mp hget
      have hlt := (List.getElem?_eq_some_iff.mp hanswer).1
      refine ⟨index, payload, ?_, habort, ?_⟩
      · rw [List.getElem?_append_left hlt]
        exact hget
      · rw [List.take_append_of_le_length hlt.le]
        exact hopen
    · refine ⟨log.length, payload, ?_, habort, ?_⟩
      · rw [List.getElem?_concat_length]
        exact congrArg some hbody
      · rw [List.take_left]
        exact hopen

theorem budgetAcc_snoc (owns : Bool) (log : List AbEvent) (event : AbEvent) :
    budgetAcc owns (log ++ [event]) = foldDispatchBudget owns (budgetAcc owns log) event := by
  unfold budgetAcc
  rw [List.foldl_append, List.foldl_cons, List.foldl_nil]

def EventBody.answer? : EventBody → Option EscalationAnswered
  | .escalationAnswered payload => some payload
  | _ => none

theorem EventBody.ne_escalationAnswered {body : EventBody} (h : body.answer? = none)
    (payload : EscalationAnswered) : body ≠ .escalationAnswered payload := by
  rintro rfl
  exact absurd h (Option.some_ne_none payload)

/-- One event moves the open ids as it moves the open escalations. -/
theorem mem_openIds_foldDispatchBudget {owns : Bool} {acc : DispatchBudgetAccumulator} :
    id ∈ (foldDispatchBudget owns acc event).openIds ↔
      event.limitRaised? = some id ∨ (id ∈ acc.openIds ∧ ¬event.answers id) := by
  have hother : event.limitRaised? = none → event.body.answer? = none →
      (id ∈ acc.openIds ↔ event.limitRaised? = some id
        ∨ (id ∈ acc.openIds ∧ ¬event.answers id)) := by
    intro hraised hbody
    have hanswer : ¬event.answers id := fun ⟨payload, hb, _⟩ =>
      EventBody.ne_escalationAnswered hbody payload hb
    rw [hraised]
    exact ⟨fun hm => .inr ⟨hm, hanswer⟩, fun h => h.elim nofun fun hm => hm.1⟩
  unfold foldDispatchBudget
  cases hbody : event.body with
  | escalationRaised payload =>
    have hanswer : ¬event.answers id := by
      rintro ⟨answer, hb, -⟩
      rw [hbody] at hb
      exact absurd hb nofun
    have hraised : event.limitRaised? = if payload.source = .policy ∧
        payload.policyCause = some .dispatchFailureLimit then some payload.id else none := by
      unfold AbEvent.limitRaised?
      rw [hbody]
    rw [hraised]
    dsimp only
    split
    · split
      · rename_i hmem
        simp only [Option.some.injEq, hanswer, not_false_eq_true, and_true]
        exact ⟨.inr, fun h => h.elim (fun he => he ▸ hmem) fun hm => hm⟩
      · simp only [List.mem_append, List.mem_singleton, Option.some.injEq, hanswer,
          not_false_eq_true, and_true]
        rw [or_comm, eq_comm]
    · simp [hanswer]
  | escalationAnswered payload =>
    have hraised : event.limitRaised? = none := by
      unfold AbEvent.limitRaised?
      rw [hbody]
    have hanswers : event.answers id ↔ payload.id = id := by
      unfold AbEvent.answers
      rw [hbody]
      simp
    rw [hraised, hanswers]
    dsimp only
    split
    · have hfilter : id ∈ acc.openIds.filter (fun id => id ≠ payload.id) ↔
          none = some id ∨ (id ∈ acc.openIds ∧ ¬payload.id = id) := by
        rw [List.mem_filter, decide_eq_true_eq]
        constructor
        · rintro ⟨hm, hne⟩
          exact .inr ⟨hm, fun he => hne he.symm⟩
        · rintro (h | ⟨hm, hne⟩)
          · exact absurd h nofun
          · exact ⟨hm, fun he => hne he.symm⟩
      split
      · exact hfilter
      · exact hfilter
    · rename_i hnot
      refine ⟨fun hm => .inr ⟨hm, fun he => hnot (he ▸ hm)⟩, fun h => ?_⟩
      rcases h with h | ⟨hm, -⟩
      · exact absurd h nofun
      · exact hm
  | runner runner =>
    cases runner <;>
      exact hother (by rw [AbEvent.limitRaised?, hbody]) (by rw [hbody]; rfl)
  | dispatchFailed payload =>
    dsimp only
    split <;> exact hother (by rw [AbEvent.limitRaised?, hbody]) (by rw [hbody]; rfl)
  | _ => exact hother (by rw [AbEvent.limitRaised?, hbody]) (by rw [hbody]; rfl)

/-- **The reducer keeps the open escalations** of the limit. -/
theorem mem_openIds_iff (owns : Bool) (log : List AbEvent) (id : String) :
    id ∈ (budgetAcc owns log).openIds ↔ LimitOpen log id := by
  induction log using List.reverseRecOn with
  | nil => exact iff_of_false List.not_mem_nil limitOpen_nil
  | append_singleton log event ih =>
    rw [budgetAcc_snoc, mem_openIds_foldDispatchBudget, limitOpen_snoc, ih]

/-- The flag is set by the abort of an open escalation and never taken back. -/
theorem aborted_foldDispatchBudget {owns : Bool} {acc : DispatchBudgetAccumulator} :
    (foldDispatchBudget owns acc event).aborted = true ↔ acc.aborted = true ∨
      ∃ payload, event.body = .escalationAnswered payload ∧ payload.resolution = .abort ∧
        payload.id ∈ acc.openIds := by
  have hother : ∀ body : EventBody, body.answer? = none →
      (acc.aborted = true ↔ acc.aborted = true ∨
        ∃ payload, body = .escalationAnswered payload ∧ payload.resolution = .abort ∧
          payload.id ∈ acc.openIds) := fun body hbody =>
    ⟨.inl, fun h => h.elim (fun ha => ha) fun ⟨payload, hb, _⟩ =>
      absurd hb (EventBody.ne_escalationAnswered hbody payload)⟩
  unfold foldDispatchBudget
  cases event.body with
  | escalationRaised payload =>
    dsimp only
    split
    · split <;> exact hother _ rfl
    · exact hother _ rfl
  | escalationAnswered payload =>
    dsimp only
    split
    · rename_i hmem
      split
      · rename_i hne
        refine ⟨.inl, fun h => h.elim (fun ha => ha) fun ⟨other, hb, habort, _⟩ => ?_⟩
        rw [EventBody.escalationAnswered.inj hb] at hne
        exact absurd habort hne
      · rename_i hne
        exact iff_of_true rfl (.inr ⟨payload, rfl, not_not.mp hne, hmem⟩)
    · rename_i hnot
      refine ⟨.inl, fun h => h.elim (fun ha => ha) fun ⟨other, hb, _, hmem⟩ => ?_⟩
      rw [EventBody.escalationAnswered.inj hb] at hnot
      exact absurd hmem hnot
  | runner runner => cases runner <;> exact hother _ rfl
  | dispatchFailed payload =>
    dsimp only
    split <;> exact hother _ rfl
  | _ => exact hother _ rfl

theorem limitAborted_nil : ¬LimitAborted [] := by
  rintro ⟨index, payload, hget, -⟩
  exact absurd hget nofun

/-- **The reducer keeps the abort.** -/
theorem aborted_iff (owns : Bool) (log : List AbEvent) :
    (budgetAcc owns log).aborted = true ↔ LimitAborted log := by
  induction log using List.reverseRecOn with
  | nil => exact iff_of_false Bool.false_ne_true limitAborted_nil
  | append_singleton log event ih =>
    rw [budgetAcc_snoc, aborted_foldDispatchBudget, limitAborted_snoc, ih]
    simp only [mem_openIds_iff]

/-- A start of the count empties it, and every other event counts by itself. -/
theorem failures_foldDispatchBudget (owns : Bool) (acc : DispatchBudgetAccumulator)
    (event : AbEvent) :
    ((event.body = .runner .attached ∨ ∃ payload, event.body = .escalationAnswered payload ∧
        payload.resolution ≠ .abort ∧ payload.id ∈ acc.openIds) ∧
      (foldDispatchBudget owns acc event).failures = []) ∨
    (¬(event.body = .runner .attached ∨ ∃ payload, event.body = .escalationAnswered payload ∧
        payload.resolution ≠ .abort ∧ payload.id ∈ acc.openIds) ∧
      (foldDispatchBudget owns acc event).failures.length
        = acc.failures.length + if event.failsDispatch owns then 1 else 0) := by
  unfold foldDispatchBudget AbEvent.failsDispatch
  cases hbody : event.body with
  | escalationRaised payload =>
    refine .inr ⟨by simp, ?_⟩
    dsimp only
    split
    · split <;> rfl
    · rfl
  | escalationAnswered payload =>
    dsimp only
    split
    · rename_i hmem
      split
      · rename_i hne
        exact .inl ⟨.inr ⟨payload, rfl, hne, hmem⟩, rfl⟩
      · rename_i hne
        refine .inr ⟨?_, rfl⟩
        rintro (h | ⟨other, hb, hother, -⟩)
        · exact absurd h nofun
        · rw [EventBody.escalationAnswered.inj hb] at hne
          exact hne hother
    · rename_i hnot
      refine .inr ⟨?_, rfl⟩
      rintro (h | ⟨other, hb, -, hmem⟩)
      · exact absurd h nofun
      · rw [EventBody.escalationAnswered.inj hb] at hnot
        exact hnot hmem
  | runner runner =>
    cases runner with
    | attached => exact .inl ⟨.inl rfl, rfl⟩
    | _ => exact .inr ⟨by simp, rfl⟩
  | dispatchFailed payload =>
    refine .inr ⟨by simp, ?_⟩
    dsimp only
    cases owns with
    | false => simp
    | true =>
      by_cases hstage : payload.stage = "workspace" <;> simp [hstage]
  | _ => exact .inr ⟨by simp, rfl⟩

/-- An event that starts a budget leaves no failure to count. -/
theorem failuresSince_of_starts {owns : Bool} (h : StartsBudget log event) :
    FailuresSince owns (log ++ [event]) 0 :=
  ⟨log ++ [event], [], (List.append_nil _).symm, fun part other rest he => by simp at he, rfl,
    .inr ⟨log, event, rfl, h⟩⟩

/-- Any other event adds itself, if it is a failure. -/
theorem failuresSince_of_not_starts {owns : Bool} {count : Nat} (hn : ¬StartsBudget log event)
    (h : FailuresSince owns log count) :
    FailuresSince owns (log ++ [event]) (count + if event.failsDispatch owns then 1 else 0) := by
  obtain ⟨before, since, rfl, hquiet, hcount, hstart⟩ := h
  refine ⟨before, since ++ [event], (List.append_assoc _ _ _), ?_, ?_, hstart⟩
  · intro part other rest he
    rcases List.eq_nil_or_concat rest with rfl | ⟨front, last, rfl⟩
    · obtain ⟨rfl, hlast⟩ := List.append_inj' he rfl
      rw [← List.head_eq_of_cons_eq hlast]
      exact hn
    · rw [List.concat_eq_append, ← List.cons_append, ← List.append_assoc] at he
      obtain ⟨rfl, -⟩ := List.append_inj' he rfl
      exact hquiet part other front rfl
  · rw [List.filter_append, List.length_append, hcount]
    by_cases hf : event.failsDispatch owns = true <;> simp [hf]

/-- **The reducer counts the failures since the count last started.** -/
theorem failuresSince_failures (owns : Bool) (log : List AbEvent) :
    FailuresSince owns log (budgetAcc owns log).failures.length := by
  induction log using List.reverseRecOn with
  | nil => exact ⟨[], [], rfl, fun part other rest he => by simp at he, rfl, .inl rfl⟩
  | append_singleton log event ih =>
    rw [budgetAcc_snoc]
    have hcases := failures_foldDispatchBudget owns (budgetAcc owns log) event
    simp only [mem_openIds_iff] at hcases
    rcases hcases with ⟨hstart, hnil⟩ | ⟨hnot, hlength⟩
    · rw [hnil]
      exact failuresSince_of_starts hstart
    · rw [hlength]
      exact failuresSince_of_not_starts hnot ih

end

/-! ## 2. What a call makes of a budget -/

section

variable {limit : DispatchLimit} {log : List AbEvent}

/-- What a call that is told to proceed may rely on. -/
def MayProceed (limit : DispatchLimit) (log : List AbEvent) : Prop :=
  (∀ id, ¬LimitOpen log id) ∧ ¬LimitAborted log ∧
    ∃ count, count < limit.maxAttempts ∧
      FailuresSince limit.infrastructureOwnsWorkspace log count

/-- What a raise rests on. -/
def MayRaise (limit : DispatchLimit) (log : List AbEvent) : Prop :=
  (∀ id, ¬LimitOpen log id) ∧
    ∃ count, limit.maxAttempts ≤ count ∧
      FailuresSince limit.infrastructureOwnsWorkspace log count

/-- What is not parked is neither open nor aborted in the log. -/
theorem not_parked {owns : Bool} (h : (dispatchFailureBudget owns log).parked = false) :
    (∀ id, ¬LimitOpen log id) ∧ ¬LimitAborted log := by
  unfold dispatchFailureBudget finishDispatchBudget at h
  obtain ⟨haborted, hopen⟩ := Bool.or_eq_false_iff.mp h
  have hnil : (budgetAcc owns log).openIds = [] :=
    List.eq_nil_of_length_eq_zero (Nat.eq_zero_of_not_pos (of_decide_eq_false hopen))
  refine ⟨fun id hid => ?_, fun hab => ?_⟩
  · rw [← mem_openIds_iff owns, hnil] at hid
    exact List.not_mem_nil hid
  · rw [← aborted_iff owns, haborted] at hab
    exact Bool.false_ne_true hab

/-- A caller proceeds only on a log that leaves it room. -/
theorem mayProceed_of_decide
    (h : limit.decide (dispatchFailureBudget limit.infrastructureOwnsWorkspace log) = .proceed) :
    MayProceed limit log := by
  unfold DispatchLimit.decide at h
  split at h
  · exact absurd h nofun
  · rename_i hparked
    obtain ⟨hopen, haborted⟩ := not_parked (Bool.eq_false_iff.mpr hparked)
    refine ⟨hopen, haborted, _, ?_, failuresSince_failures _ log⟩
    split at h
    · rename_i hlatest
      rw [List.getLast?_eq_none_iff.mp hlatest]
      exact limit.positive
    · split at h
      · assumption
      · exact absurd h nofun

/-- A caller raises only on a log that has used the budget up. -/
theorem mayRaise_of_decide {failure : DispatchFailed}
    (h : limit.decide (dispatchFailureBudget limit.infrastructureOwnsWorkspace log)
      = .raise failure) : MayRaise limit log := by
  unfold DispatchLimit.decide at h
  split at h
  · exact absurd h nofun
  · rename_i hparked
    refine ⟨(not_parked (Bool.eq_false_iff.mpr hparked)).1, _, ?_, failuresSince_failures _ log⟩
    split at h
    · exact absurd h nofun
    · split at h
      · exact absurd h nofun
      · rename_i hcount
        exact Nat.not_lt.mp hcount

end

/-! ## 3. Runs -/

/-- What is true of a call at its stage. -/
def BudgetCallKept (log : List AbEvent) (call : BudgetCall) : Prop :=
  match call.stage with
  | .read budget cursor => cursor ≤ log.length ∧
    budget = dispatchFailureBudget call.limit.infrastructureOwnsWorkspace (log.take cursor)
  | .proceeds cursor => cursor ≤ log.length ∧ MayProceed call.limit (log.take cursor)
  | .raised cursor => cursor < log.length ∧ MayRaise call.limit (log.take cursor)
  | _ => True

structure GateKept (system : BudgetSystem) : Prop where
  calls : ∀ call ∈ system.calls, BudgetCallKept system.log call
  raises : ∀ (index : Nat) (event : AbEvent), system.log[index]? = some event →
    event.limitRaised?.isSome = true → ∃ call ∈ system.calls, call.stage = .raised index

/-- Others' events do not change what a call knows of the log it read. -/
theorem BudgetCallKept.append {log : List AbEvent} {call : BudgetCall} (h : BudgetCallKept log call)
    (event : AbEvent) : BudgetCallKept (log ++ [event]) call := by
  unfold BudgetCallKept at h ⊢
  have hlength : (log ++ [event]).length = log.length + 1 := by simp
  cases hstage : call.stage with
  | read budget cursor =>
    rw [hstage] at h
    obtain ⟨hle, hbudget⟩ := h
    dsimp only
    rw [List.take_append_of_le_length hle]
    exact ⟨by omega, hbudget⟩
  | proceeds cursor =>
    rw [hstage] at h
    obtain ⟨hle, hproceed⟩ := h
    dsimp only
    rw [List.take_append_of_le_length hle]
    exact ⟨by omega, hproceed⟩
  | raised cursor =>
    rw [hstage] at h
    obtain ⟨hlt, hraise⟩ := h
    dsimp only
    rw [List.take_append_of_le_length hlt.le]
    exact ⟨by omega, hraise⟩
  | _ => trivial

section Stages

variable {calls : List BudgetCall} {index : Nat} {limit : DispatchLimit} {old stage : BudgetStage}
  {call : BudgetCall}

/-- A changed stage leaves the other calls as they are. -/
theorem mem_modify_stage (hget : calls[index]? = some ⟨limit, old⟩)
    (hm : call ∈ calls.modify index fun call => { call with stage := stage }) :
    call ∈ calls ∨ call = ⟨limit, stage⟩ := by
  obtain ⟨other, hother⟩ := List.mem_iff_getElem?.mp hm
  by_cases he : index = other
  · rw [← he, List.getElem?_modify_eq, hget] at hother
    exact .inr (Option.some.inj hother).symm
  · rw [List.getElem?_modify_ne _ _ he] at hother
    exact .inl (List.mem_of_getElem? hother)

/-- A call that moves on is not one of the others. -/
theorem mem_modify_of_ne (hget : calls[index]? = some ⟨limit, old⟩) (hm : call ∈ calls)
    (hne : call ≠ ⟨limit, old⟩) :
    call ∈ calls.modify index fun call => { call with stage := stage } := by
  obtain ⟨other, hother⟩ := List.mem_iff_getElem?.mp hm
  have he : index ≠ other := by
    rintro rfl
    rw [hget] at hother
    exact hne (Option.some.inj hother).symm
  refine List.mem_iff_getElem?.mpr ⟨other, ?_⟩
  rw [List.getElem?_modify_ne _ _ he]
  exact hother

theorem modified_mem (hget : calls[index]? = some ⟨limit, old⟩) :
    (⟨limit, stage⟩ : BudgetCall) ∈ calls.modify index fun call =>
      { call with stage := stage } := by
  refine List.mem_iff_getElem?.mpr ⟨index, ?_⟩
  rw [List.getElem?_modify_eq, hget]
  rfl

end Stages

/-- A call that reads or returns changes its own stage only. -/
theorem GateKept.setStage {system : BudgetSystem} (h : GateKept system) {index : Nat}
    {limit : DispatchLimit} {old stage : BudgetStage}
    (hget : system.calls[index]? = some ⟨limit, old⟩) (hold : ∀ cursor, old ≠ .raised cursor)
    (hcall : BudgetCallKept system.log ⟨limit, stage⟩) :
      GateKept (system.setStage index stage) := by
  refine ⟨fun call hm => ?_, fun other event hevent hraised => ?_⟩
  · rcases mem_modify_stage hget hm with hold | rfl
    · exact h.calls call hold
    · exact hcall
  · obtain ⟨call, hm, hstage⟩ := h.raises other event hevent hraised
    refine ⟨call, mem_modify_of_ne hget hm ?_, hstage⟩
    rintro rfl
    exact hold other hstage

/-- An event keeps the gate if a limit it raises is one that a call may raise. -/
theorem GateKept.append {system : BudgetSystem} (h : GateKept system) {event : AbEvent}
    (hraised : event.limitRaised?.isSome = true →
      ∃ call ∈ system.calls, call.stage = .raised system.log.length) :
    GateKept { system with log := system.log ++ [event] } := by
  refine ⟨fun call hm => (h.calls call hm).append event, fun index other hget hother => ?_⟩
  by_cases hlt : index < system.log.length
  · rw [List.getElem?_append_left hlt] at hget
    exact h.raises index other hget hother
  · have hindex := (List.getElem?_eq_some_iff.mp hget).1
    rw [List.length_append, List.length_singleton] at hindex
    obtain rfl : index = system.log.length := by omega
    rw [List.getElem?_concat_length] at hget
    rw [← Option.some.inj hget] at hother
    exact hraised hother

/-- A call reads the log as it stands. -/
theorem GateKept.readBudget {system : BudgetSystem} (h : GateKept system) (index : Nat) :
    GateKept (system.readBudget index) := by
  unfold BudgetSystem.readBudget
  split
  · rename_i limit hget
    refine h.setStage hget nofun ⟨Nat.le_refl _, ?_⟩
    rw [List.take_length]
  · exact h

/-- A call appends only if the log is the one it read. -/
theorem GateKept.act {system : BudgetSystem} (h : GateKept system) (index ts : Nat) (id : String) :
    GateKept (system.act index ts id) := by
  unfold BudgetSystem.act
  split
  · rename_i limit budget cursor hget
    obtain ⟨hle, hbudget⟩ := h.calls _ (List.mem_of_getElem? hget)
    split
    · exact h.setStage hget nofun trivial
    · rename_i hproceed
      rw [hbudget] at hproceed
      exact h.setStage hget nofun ⟨hle, mayProceed_of_decide hproceed⟩
    · rename_i failure hraise
      rw [hbudget] at hraise
      have hmay := mayRaise_of_decide hraise
      split
      · rename_i hcursor
        -- the escalation is appended with the stage that names it
        have hcall : BudgetCallKept (system.log ++ [limit.raisedEvent (cursor + 1) ts id failure])
            ⟨limit, .raised cursor⟩ := by
          refine ⟨by simp [hcursor], ?_⟩
          rw [List.take_append_of_le_length hle]
          exact hmay
        refine ⟨fun call hm => ?_, fun other event hevent hraised => ?_⟩
        · rcases mem_modify_stage hget hm with hold | rfl
          · exact (h.calls call hold).append _
          · exact hcall
        · by_cases hlt : other < system.log.length
          · have hget' : system.log[other]? = some event := by
              rw [← hevent]
              exact (List.getElem?_append_left hlt).symm
            obtain ⟨call, hm, hstage⟩ := h.raises other event hget' hraised
            refine ⟨call, mem_modify_of_ne hget hm ?_, hstage⟩
            rintro rfl
            exact absurd hstage nofun
          · have hindex : other < (system.log ++ [limit.raisedEvent (cursor + 1) ts id
                failure]).length := (List.getElem?_eq_some_iff.mp hevent).1
            rw [List.length_append, List.length_singleton] at hindex
            refine ⟨_, modified_mem hget, ?_⟩
            show BudgetStage.raised cursor = .raised other
            congr 1
            omega
      · exact h.setStage hget nofun trivial
  · exact h

theorem GateKept.step {system : BudgetSystem} (h : GateKept system) (move : BudgetMove) :
    GateKept (stepBudget system move) := by
  cases move with
  | outside event other =>
    refine h.append fun hraised => ?_
    rw [other] at hraised
    exact absurd hraised Bool.false_ne_true
  | call limit =>
    refine ⟨fun call hm => ?_, fun index event hget hraised => ?_⟩
    · rcases List.mem_append.mp hm with hold | hnew
      · exact h.calls call hold
      · rw [List.mem_singleton.mp hnew]
        trivial
    · obtain ⟨call, hm, hstage⟩ := h.raises index event hget hraised
      exact ⟨call, List.mem_append_left _ hm, hstage⟩
  | read index => exact h.readBudget index
  | act index ts id => exact h.act index ts id

theorem gateKept_runBudget (moves : List BudgetMove) : GateKept (runBudget moves) := by
  induction moves using List.reverseRecOn with
  | nil => exact ⟨nofun, fun index event hget => absurd hget nofun⟩
  | append_singleton moves move ih =>
    have hrun : runBudget (moves ++ [move]) = stepBudget (runBudget moves) move := by
      unfold runBudget
      rw [List.foldl_append, List.foldl_cons, List.foldl_nil]
    rw [hrun]
    exact ih.step move

/-- An open raise is still open before every later event. -/
theorem LimitOpenAt.take {log : List AbEvent} {index : Nat} {id : String}
    (h : LimitOpenAt log index id) {later : Nat} (hlt : index < later) :
    LimitOpenAt (log.take later) index id := by
  obtain ⟨⟨event, hget, hraised⟩, hanswer⟩ := h
  refine ⟨⟨event, ?_, hraised⟩, fun other hm => hanswer other ?_⟩
  · rw [List.getElem?_take_of_lt hlt]
    exact hget
  · rw [List.drop_take] at hm
    exact List.mem_of_mem_take hm

/-- A limit is not raised while an earlier one is open. -/
theorem GateKept.not_open_before {system : BudgetSystem} (h : GateKept system) {index later : Nat}
    {id id' : String} (hopen : LimitOpenAt system.log index id)
    (hlater : LimitOpenAt system.log later id') : ¬index < later := by
  intro hlt
  obtain ⟨⟨event, hget, hraised⟩, -⟩ := hlater
  obtain ⟨call, hm, hstage⟩ := h.raises later event hget (Option.isSome_of_eq_some hraised)
  have hcall := h.calls call hm
  unfold BudgetCallKept at hcall
  rw [hstage] at hcall
  exact hcall.2.1 id ⟨index, hopen.take hlt⟩

/-- **The budget is a gate.**  One limit is open at most, a limit is raised by a call whose limit is
reached, and a call goes on only where none is open or aborted and its limit is not reached. -/
theorem dispatchBudget_gate (moves : List BudgetMove) :
    (∀ index id later id', LimitOpenAt (runBudget moves).log index id →
      LimitOpenAt (runBudget moves).log later id' → index = later) ∧
    (∀ (index : Nat) (event : AbEvent), (runBudget moves).log[index]? = some event →
      event.limitRaised?.isSome = true → ∃ call ∈ (runBudget moves).calls,
        call.stage = .raised index ∧ MayRaise call.limit ((runBudget moves).log.take index)) ∧
    ∀ call ∈ (runBudget moves).calls, ∀ cursor, call.stage = .proceeds cursor →
      cursor ≤ (runBudget moves).log.length ∧
        MayProceed call.limit ((runBudget moves).log.take cursor) := by
  have hkept := gateKept_runBudget moves
  refine ⟨fun index id later id' hopen hlater => ?_, fun index event hget hraised => ?_,
    fun call hm cursor hstage => ?_⟩
  · exact Nat.le_antisymm (Nat.not_lt.mp (hkept.not_open_before hlater hopen))
      (Nat.not_lt.mp (hkept.not_open_before hopen hlater))
  · obtain ⟨call, hm, hstage⟩ := hkept.raises index event hget hraised
    have hcall := hkept.calls call hm
    unfold BudgetCallKept at hcall
    rw [hstage] at hcall
    exact ⟨call, hm, hstage, hcall.2⟩
  · have hcall := hkept.calls call hm
    unfold BudgetCallKept at hcall
    rw [hstage] at hcall
    exact hcall

end Autobuild
