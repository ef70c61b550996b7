/-
# The ledger of a leaf's restack

Facts of one restack after another arrive in one log, some late and some for an id that was
retired.  What the state holds of the restack in flight is a `LeafTransaction`, and six kinds of
event reach it (`transaction_advance`).

* `Belongs`: a replay and an intent are of the restack in flight, under the id it has.
* `Attempted`: the reconcile attempt is the last one that named the restack since it was prepared,
  by the id it had then.
* A parent that is accepted leaves nothing of the target: what the state holds of one was all
  written since (`Onward`).
-/
import Mathlib.Data.List.Induction
import Autobuild.Kernel.LeafRestackState

namespace Autobuild

/-! ## 1. The restack in flight -/

structure LeafTransaction where
  active : Option LeafRestack
  replay : Option RestackReplayed
  intent : Option LeafRestackAt
  reconcileAttempt : Option Nat

def LeafRestackState.transaction (state : LeafRestackState) : LeafTransaction :=
  ⟨state.active, state.replay, state.intent, state.reconcileAttempt⟩

namespace LeafTransaction

def activeId (t : LeafTransaction) : Option String := t.active.map (·.id)

def advance (t : LeafTransaction) : EventBody → LeafTransaction
  | .publication (.candidateRetired payload) =>
    if payload.operation = .restack ∧ t.activeId = some payload.id then
      { t with
        active := t.active.map ({ · with id := payload.replacementId }), replay := none
        intent := none }
    else t
  | .restack (.prepared payload) => ⟨some payload, none, none, none⟩
  | .restack (.replayed payload) =>
    if t.activeId = some payload.id then { t with replay := some payload } else t
  | .restack (.publishIntended payload) =>
    if t.activeId = some payload.id then { t with intent := some payload } else t
  | .reconcile (.started payload) =>
    if t.active.isSome = true ∧ t.activeId = payload.restackId then
      { t with reconcileAttempt := some payload.attempt }
    else t
  | .restack (.completed payload) =>
    if t.activeId = some payload.id then { t with active := none, replay := none, intent := none }
    else t
  | _ => t

end LeafTransaction

theorem transaction_noteActivity (state : LeafRestackState) (event : AbEvent) :
    (noteActivity state event).transaction = state.transaction := by
  rw [noteActivity]
  split <;> rfl

theorem transaction_finishPostStep (state : LeafRestackState) (seq : Nat)
    (payload : FinalizeStepCompleted) :
    (state.finishPostStep seq payload).transaction = state.transaction := by
  rw [LeafRestackState.finishPostStep]
  split
  · rfl
  · split
    · split <;> rfl
    · rfl

theorem transaction_startReconcile (state : LeafRestackState) (payload : ReconcileStarted) :
    (state.startReconcile payload).transaction =
      state.transaction.advance (.reconcile (.started payload)) := by
  rw [LeafRestackState.startReconcile, LeafTransaction.advance]
  split
  · rename_i active hactive
    have hid : state.transaction.activeId = some active.id := by
      simp [LeafTransaction.activeId, LeafRestackState.transaction, hactive]
    have hsome : state.transaction.active.isSome = true := by
      simp [LeafRestackState.transaction, hactive]
    by_cases h : payload.restackId = some active.id
    · rw [if_pos h, if_pos ⟨hsome, hid.trans h.symm⟩]
      rfl
    · rw [if_neg h, if_neg fun hnamed => h (hnamed.2.symm.trans hid)]
      rfl
  · rename_i hactive
    have hnone : ¬state.transaction.active.isSome = true := by
      simp [LeafRestackState.transaction, hactive]
    rw [if_neg fun hnamed => hnone hnamed.1]
    rfl

theorem transaction_advanceBody (state : LeafRestackState) (seq : Nat) (body : EventBody) :
    (advanceLeafRestackBody state seq body).transaction = state.transaction.advance body := by
  unfold advanceLeafRestackBody
  split <;> try rfl
  · exact transaction_finishPostStep state seq _
  · simp only [LeafRestackState.retireCandidate]
    exact apply_ite _ _ _ _
  · simp only [LeafTransaction.advance, @eq_comm _ (some _)]
    exact apply_ite _ _ _ _
  · simp only [LeafTransaction.advance, @eq_comm _ (some _)]
    exact apply_ite _ _ _ _
  · exact transaction_startReconcile state _
  · simp only [LeafRestackState.complete]
    exact apply_ite _ _ _ _
  · -- No other event reaches the transaction.
    unfold LeafTransaction.advance
    split <;> simp_all

theorem transaction_advance (state : LeafRestackState) (event : AbEvent) :
    (advanceLeafRestackEvent state event).transaction = state.transaction.advance event.body := by
  rw [advanceLeafRestackEvent, transaction_advanceBody, transaction_noteActivity]

namespace LeafTransaction

/-! ## 2. What belongs to the restack in flight -/

structure Belongs (t : LeafTransaction) : Prop where
  replay : ∀ replay, t.replay = some replay → t.activeId = some replay.id
  intent : ∀ intent, t.intent = some intent → t.activeId = some intent.id

theorem Belongs.advance {t : LeafTransaction} (h : t.Belongs) (body : EventBody) :
    (t.advance body).Belongs := by
  unfold LeafTransaction.advance
  split
  · split
    · constructor <;> intro _ hnone <;> exact nomatch hnone
    · exact h
  · constructor <;> intro _ hnone <;> exact nomatch hnone
  · split
    · rename_i hid
      refine ⟨?_, h.intent⟩
      rintro _ ⟨⟩
      exact hid
    · exact h
  · split
    · rename_i hid
      refine ⟨h.replay, ?_⟩
      rintro _ ⟨⟩
      exact hid
    · exact h
  · split
    · exact ⟨h.replay, h.intent⟩
    · exact h
  · split
    · constructor <;> intro _ hnone <;> exact nomatch hnone
    · exact h
  · exact h

/-- The restack an event names. -/
def named? : EventBody → Option String
  | .restack (.replayed payload) => some payload.id
  | .restack (.publishIntended payload) => some payload.id
  | .restack (.completed payload) => some payload.id
  | .reconcile (.started payload) => payload.restackId
  | .publication (.candidateRetired payload) => some payload.id
  | _ => none

def IsPreparation (body : EventBody) : Prop := ∃ payload, body = .restack (.prepared payload)

/-- An event that prepares nothing and does not name the restack in flight changes nothing. -/
theorem advance_of_other {t : LeafTransaction} {body : EventBody} (hprep : ¬IsPreparation body)
    (hother : ∀ active, t.active = some active → named? body ≠ some active.id) :
    t.advance body = t := by
  have hid : ∀ id, named? body = some id → t.activeId ≠ some id := by
    intro id hname hactive
    obtain ⟨active, hsome, rfl⟩ := Option.map_eq_some_iff.mp hactive
    exact hother active hsome hname
  unfold advance
  split
  · exact if_neg fun h => hid _ rfl h.2
  · exact absurd ⟨_, rfl⟩ hprep
  · exact if_neg (hid _ rfl)
  · exact if_neg (hid _ rfl)
  · refine if_neg ?_
    rintro ⟨hsome, hactive⟩
    obtain ⟨active, hactive'⟩ := Option.isSome_iff_exists.mp hsome
    refine hother active hactive' ?_
    rw [activeId, hactive'] at hactive
    exact hactive.symm
  · exact if_neg (hid _ rfl)
  · rfl

/-! ## 3. The reconcile attempt -/

/-- What the restack `id` is called after an event. -/
def renamed (id : String) : EventBody → String
  | .publication (.candidateRetired payload) =>
    if payload.operation = .restack ∧ payload.id = id then payload.replacementId else id
  | _ => id

/-- What it is called after a log. -/
def nameAfter (id : String) (events : List AbEvent) : String :=
  events.foldl (fun name event => renamed name event.body) id

/-- The attempt of a reconcile that names `id`. -/
def attempt? (id : String) : EventBody → Option Nat
  | .reconcile (.started payload) =>
    if payload.restackId = some id then some payload.attempt else none
  | _ => none

/-- The attempts of a log that name a restack by the id it has then, in their order. -/
def attempts (id : String) : List AbEvent → List Nat
  | [] => []
  | event :: rest => (attempt? id event.body).toList ++ attempts (renamed id event.body) rest

theorem attempts_append (id : String) (xs ys : List AbEvent) :
    attempts id (xs ++ ys) = attempts id xs ++ attempts (nameAfter id xs) ys := by
  induction xs generalizing id with
  | nil => rfl
  | cons event rest ih =>
    rw [List.cons_append, attempts, attempts, ih, List.append_assoc]
    rfl

/-- `after` is what follows the last preparation of a log. -/
def PreparedLast (log : List AbEvent) (prepared : LeafRestack) (after : List AbEvent) : Prop :=
  ∃ before event, log = before ++ event :: after ∧ event.body = .restack (.prepared prepared) ∧
    ∀ later ∈ after, ¬IsPreparation later.body

/-- The restack in flight is the one prepared last, under the name it has now, and the attempt is
the last that named it since. -/
def Attempted (log : List AbEvent) (t : LeafTransaction) : Prop :=
  ∀ active, t.active = some active → ∃ prepared after, PreparedLast log prepared after ∧
    active = { prepared with id := nameAfter prepared.id after } ∧
    t.reconcileAttempt = (attempts prepared.id after).getLast?

theorem renamed_of_other {id : String} {body : EventBody} (h : named? body ≠ some id) :
    renamed id body = id := by
  unfold renamed
  split
  · exact if_neg fun hretired => h (congrArg some hretired.2)
  · rfl

theorem attempt?_of_other {id : String} {body : EventBody} (h : named? body ≠ some id) :
    attempt? id body = none := by
  unfold attempt?
  split
  · exact if_neg h
  · rfl

/-- What an event that names the restack in flight leaves of it. -/
theorem advance_named {t : LeafTransaction} {body : EventBody} {was active : LeafRestack}
    (hwas : t.active = some was) (hname : named? body = some was.id)
    (h : (t.advance body).active = some active) :
    active = { was with id := renamed was.id body } ∧
      (t.advance body).reconcileAttempt = (attempt? was.id body).or t.reconcileAttempt := by
  have hid : t.activeId = some was.id := by rw [activeId, hwas]; rfl
  unfold named? at hname
  split at hname
  · rename_i payload
    obtain rfl : was = active := by
      simp only [advance, hid, hname, if_true] at h
      exact Option.some.inj (hwas.symm.trans h)
    simp [advance, renamed, attempt?, hid, hname]
  · rename_i payload
    obtain rfl : was = active := by
      simp only [advance, hid, hname, if_true] at h
      exact Option.some.inj (hwas.symm.trans h)
    simp [advance, renamed, attempt?, hid, hname]
  · simp [advance, hid, hname] at h
  · rename_i payload
    obtain rfl : was = active := by
      simp only [advance, hid, hname, hwas, Option.isSome_some, and_self, if_true] at h
      exact Option.some.inj h
    simp [advance, renamed, attempt?, hid, hname, hwas]
  · rename_i payload
    obtain hname := Option.some.inj hname
    by_cases hop : payload.operation = .restack
    · simp only [advance, hid, hname, hop, hwas, and_self, if_true, Option.map_some] at h
      obtain rfl := Option.some.inj h
      simp [advance, renamed, attempt?, hid, hname, hop]
    · simp only [advance, hop, false_and, if_false] at h
      obtain rfl := Option.some.inj (hwas.symm.trans h)
      simp [advance, renamed, attempt?, hop]
  · exact nomatch hname

theorem advance_active {t : LeafTransaction} {body : EventBody} {active : LeafRestack}
    (hprep : ¬IsPreparation body) (h : (t.advance body).active = some active) :
    ∃ was, t.active = some was ∧ active = { was with id := renamed was.id body } ∧
      (t.advance body).reconcileAttempt = (attempt? was.id body).or t.reconcileAttempt := by
  cases hwas : t.active with
  | none =>
    -- Without a restack in flight, only a preparation gives one.
    have hsame : t.advance body = t := advance_of_other hprep fun _ hsome =>
      nomatch hwas.symm.trans hsome
    rw [hsame, hwas] at h
    exact nomatch h
  | some was =>
    refine ⟨was, rfl, ?_⟩
    by_cases hname : named? body = some was.id
    · exact advance_named hwas hname h
    · have hsame : t.advance body = t := advance_of_other hprep fun other hsome => by
        obtain rfl := Option.some.inj (hwas.symm.trans hsome)
        exact hname
      rw [hsame] at h ⊢
      obtain rfl := Option.some.inj (hwas.symm.trans h)
      rw [renamed_of_other hname, attempt?_of_other hname]
      exact ⟨rfl, rfl⟩

theorem Attempted.step {log : List AbEvent} {t : LeafTransaction} (h : Attempted log t)
    (event : AbEvent) : Attempted (log ++ [event]) (t.advance event.body) := by
  intro active hactive
  by_cases hprep : IsPreparation event.body
  · obtain ⟨payload, hbody⟩ := hprep
    rw [hbody] at hactive ⊢
    obtain rfl := Option.some.inj hactive
    refine ⟨payload, [], ⟨log, event, rfl, hbody, ?_⟩, rfl, rfl⟩
    intro later hlater
    exact absurd hlater List.not_mem_nil
  · obtain ⟨was, hwas, rfl, hattempt⟩ := advance_active hprep hactive
    obtain ⟨prepared, after, ⟨before, prep, rfl, hbody, hnone⟩, hname, hlast⟩ := h was hwas
    refine ⟨prepared, after ++ [event], ⟨before, prep, by simp, hbody, ?_⟩, ?_, ?_⟩
    · intro later hlater
      rcases List.mem_append.mp hlater with hmem | hmem
      · exact hnone later hmem
      · rw [List.mem_singleton.mp hmem]
        exact hprep
    · rw [nameAfter, List.foldl_append, hname]
      rfl
    · rw [hattempt, hlast, attempts_append, attempts, attempts, hname]
      cases attempt? (nameAfter prepared.id after) event.body <;> simp

end LeafTransaction

theorem advanceLeafRestack_concat (state : LeafRestackState) (log : List AbEvent)
    (event : AbEvent) :
    advanceLeafRestack state (log ++ [event]) =
      advanceLeafRestackEvent (advanceLeafRestack state log) event := by
  rw [advanceLeafRestack, List.foldl_append]
  rfl

theorem belongs_advanceLeafRestack (log : List AbEvent) :
    (advanceLeafRestack {} log).transaction.Belongs := by
  induction log using List.reverseRecOn with
  | nil => constructor <;> intro _ hnone <;> exact nomatch hnone
  | append_singleton log event ih =>
    rw [advanceLeafRestack_concat, transaction_advance]
    exact ih.advance event.body

theorem attempted_advanceLeafRestack (log : List AbEvent) :
    LeafTransaction.Attempted log (advanceLeafRestack {} log).transaction := by
  induction log using List.reverseRecOn with
  | nil => intro _ hnone; exact nomatch hnone
  | append_singleton log event ih =>
    rw [advanceLeafRestack_concat, transaction_advance]
    exact ih.step event

/-! ## 4. The target -/

/-- What the state holds of the move of the target, with its lineage, and of its rejection. -/
def LeafRestackState.onward (state : LeafRestackState) :
    Option (WithSeq TargetMoved) × Option TargetRewritten :=
  (state.target, state.targetRewrite)

theorem onward_noteActivity (state : LeafRestackState) (event : AbEvent) :
    (noteActivity state event).onward = state.onward := by
  rw [noteActivity]
  split <;> rfl

theorem onward_finishPostStep (state : LeafRestackState) (seq : Nat)
    (payload : FinalizeStepCompleted) :
    (state.finishPostStep seq payload).onward = state.onward := by
  rw [LeafRestackState.finishPostStep]
  split
  · rfl
  · split
    · split <;> rfl
    · rfl

theorem onward_retireCandidate (state : LeafRestackState)
    (payload : PublicationCandidateRetired) :
    (state.retireCandidate payload).onward = state.onward := by
  rw [LeafRestackState.retireCandidate]
  split <;> rfl

theorem onward_startReconcile (state : LeafRestackState) (payload : ReconcileStarted) :
    (state.startReconcile payload).onward = state.onward := by
  rw [LeafRestackState.startReconcile]
  split
  · split <;> rfl
  · rfl

theorem onward_complete (state : LeafRestackState) (seq : Nat) (payload : LeafRestackAt) :
    (state.complete seq payload).onward = state.onward := by
  rw [LeafRestackState.complete]
  split <;> rfl

/-- The move, its lineage and its rejection after an event. -/
def advanceOnward (onward : Option (WithSeq TargetMoved) × Option TargetRewritten) (seq : Nat) :
    EventBody → Option (WithSeq TargetMoved) × Option TargetRewritten
  | .node (.parentAccepted _) => (none, none)
  | .target (.rewritten payload) => (onward.1, some payload)
  | .target (.rewriteCleared payload) =>
    (({ target := onward.1 : LeafRestackState }.clearRewrite payload).target, none)
  | .target (.moved payload) => (some ⟨payload, seq⟩, none)
  | _ => onward

theorem onward_advanceBody (state : LeafRestackState) (seq : Nat) (body : EventBody) :
    (advanceLeafRestackBody state seq body).onward = advanceOnward state.onward seq body := by
  unfold advanceLeafRestackBody
  split <;> try rfl
  · exact onward_finishPostStep state seq _
  · exact onward_retireCandidate state _
  · split <;> rfl
  · split <;> rfl
  · exact onward_startReconcile state _
  · exact onward_complete state seq _
  · -- No other event reaches the target.
    unfold advanceOnward
    split <;> simp_all

theorem onward_advanceEvent (state : LeafRestackState) (event : AbEvent) :
    (advanceLeafRestackEvent state event).onward =
      advanceOnward state.onward event.seq event.body := by
  rw [advanceLeafRestackEvent, onward_advanceBody, onward_noteActivity]

theorem onward_advance_congr {state state' : LeafRestackState} (h : state.onward = state'.onward)
    (events : List AbEvent) :
    (advanceLeafRestack state events).onward = (advanceLeafRestack state' events).onward := by
  induction events generalizing state state' with
  | nil => exact h
  | cons event rest ih =>
    refine ih ?_
    rw [onward_advanceEvent, onward_advanceEvent, h]

/-- What stands of a target after a parent was accepted is what the events since alone give. -/
theorem onward_of_parentAccepted (before after : List AbEvent) {accepted : AbEvent}
    {payload : ParentChange} (h : accepted.body = .node (.parentAccepted payload)) :
    (advanceLeafRestack {} (before ++ accepted :: after)).onward =
      (advanceLeafRestack {} after).onward := by
  rw [advanceLeafRestack, List.foldl_append, List.foldl_cons]
  refine onward_advance_congr ?_ after
  rw [onward_advanceEvent, h]
  rfl

/-! ## 5. The whole ledger -/

/-- After every log. -/
theorem leaf_restack_ledger (log : List AbEvent) :
    let state := advanceLeafRestack {} log
    (∀ replay, state.replay = some replay →
      ∃ active, state.active = some active ∧ replay.id = active.id) ∧
    (∀ intent, state.intent = some intent →
      ∃ active, state.active = some active ∧ intent.id = active.id) ∧
    (∀ active, state.active = some active → ∃ prepared after,
      LeafTransaction.PreparedLast log prepared after ∧
      active = { prepared with id := LeafTransaction.nameAfter prepared.id after } ∧
      state.reconcileAttempt = (LeafTransaction.attempts prepared.id after).getLast?) ∧
    (∀ event : AbEvent, ¬LeafTransaction.IsPreparation event.body →
      (∀ active, state.active = some active →
        LeafTransaction.named? event.body ≠ some active.id) →
      (advanceLeafRestack {} (log ++ [event])).transaction = state.transaction) ∧
    ∀ before accepted after payload, log = before ++ accepted :: after →
      accepted.body = .node (.parentAccepted payload) →
      state.target = (advanceLeafRestack {} after).target ∧
        state.targetRewrite = (advanceLeafRestack {} after).targetRewrite := by
  have hbelongs := belongs_advanceLeafRestack log
  refine ⟨?_, ?_, attempted_advanceLeafRestack log, ?_, ?_⟩
  · intro replay hreplay
    obtain ⟨active, hactive, hid⟩ := Option.map_eq_some_iff.mp (hbelongs.replay replay hreplay)
    exact ⟨active, hactive, hid.symm⟩
  · intro intent hintent
    obtain ⟨active, hactive, hid⟩ := Option.map_eq_some_iff.mp (hbelongs.intent intent hintent)
    exact ⟨active, hactive, hid.symm⟩
  · intro event hprep hother
    rw [advanceLeafRestack_concat, transaction_advance]
    exact LeafTransaction.advance_of_other hprep hother
  · rintro before accepted after payload rfl hbody
    have honward := onward_of_parentAccepted before after hbody
    exact ⟨congrArg Prod.fst honward, congrArg Prod.snd honward⟩

end Autobuild
