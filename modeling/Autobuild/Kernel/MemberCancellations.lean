/-
# Which verify members are cancelled

The outcome of a member and its cancellation exclude each other: the first of the two that the
log holds stands.

* `TakesEffect`: a `verify.cancelled` that no completion of its member precedes.
* `CancellationsOf`: the verify stage keeps exactly the cancellations that take effect, an
  invariant of `advanceVerifyStage` over logs in order (`cancellationsOf_foldl`).
* `kept_iff`: a completion counts for the engine unless its member was cancelled before it.
-/
import Autobuild.Kernel.VerifyStageState
import Mathlib.Data.List.Induction
import Mathlib.Data.List.Pairwise

namespace Autobuild

open ObjectMap

/-! ## 1. Completions and cancellations of a log -/

/-- The member a completion is of. -/
def memberCompleted? : EventBody → Option MemberKey
  | .verify (.completed payload) => some (verifyMemberKey payload.step payload.attempt)
  | _ => none

/-- The member a cancellation is of. -/
def memberCancelled? : EventBody → Option MemberKey
  | .verify (.cancelled payload) => some (verifyMemberKey payload.step payload.attempt)
  | _ => none

/-- The log cancels the member at a seq, before any outcome of it.  A seq of zero reads as no
outcome. -/
def TakesEffect (events : List AbEvent) (key : MemberKey) (seq : Nat) : Prop :=
  (∃ event ∈ events, event.seq = seq ∧ memberCancelled? event.body = some key) ∧
    ∀ event ∈ events, memberCompleted? event.body = some key → event.seq < seq → event.seq = 0

/-- The member was cancelled before the seq. -/
def CancelledBefore (events : List AbEvent) (key : MemberKey) (seq : Nat) : Prop :=
  ∃ at' < seq, TakesEffect events key at'

/-- The member has an outcome that counts. -/
def Completes (events : List AbEvent) (key : MemberKey) : Prop :=
  ∃ event ∈ events, memberCompleted? event.body = some key ∧ event.seq ≠ 0

/-! ## 2. What the verify stage keeps -/

/-- The cancellations of a stage are those of the log. -/
structure CancellationsOf (events : List AbEvent) (stage : VerifyStageState) : Prop where
  outcome : ∀ key, stage.hasOutcome key = true → Completes events key
  completed : ∀ key, stage.hasCancellation key = false → Completes events key →
    stage.hasOutcome key = true
  effective : ∀ key cancellation, stage.cancellations.get? key = some cancellation →
    TakesEffect events key cancellation.seq
  cancelled : ∀ key seq, TakesEffect events key seq → stage.hasCancellation key = true

theorem cancellationsOf_nil : CancellationsOf [] initialVerifyStageState where
  outcome _ h := absurd h nofun
  completed _ _ h := by
    obtain ⟨event, he, -⟩ := h
    exact absurd he List.not_mem_nil
  effective _ _ h := absurd h nofun
  cancelled _ _ h := by
    obtain ⟨⟨event, he, -⟩, -⟩ := h
    exact absurd he List.not_mem_nil

section Snoc

variable {events : List AbEvent} {event : AbEvent} {key : MemberKey} {seq : Nat}

theorem completes_snoc :
    Completes (events ++ [event]) key ↔
      Completes events key ∨ (memberCompleted? event.body = some key ∧ event.seq ≠ 0) := by
  unfold Completes
  simp [or_and_right, exists_or]

/-- A later event changes nothing about an earlier cancellation. -/
theorem takesEffect_snoc_of_lt (h : seq < event.seq) :
    TakesEffect (events ++ [event]) key seq ↔ TakesEffect events key seq := by
  unfold TakesEffect
  constructor
  · intro ⟨⟨e, he, hs, hk⟩, hc⟩
    rcases List.mem_append.mp he with he | he
    · exact ⟨⟨e, he, hs, hk⟩, fun e' he' => hc e' (List.mem_append_left _ he')⟩
    · rw [List.mem_singleton.mp he] at hs
      omega
  · intro ⟨⟨e, he, hs, hk⟩, hc⟩
    refine ⟨⟨e, List.mem_append_left _ he, hs, hk⟩, fun e' he' hk' hlt => ?_⟩
    rcases List.mem_append.mp he' with he' | he'
    · exact hc e' he' hk' hlt
    · rw [List.mem_singleton.mp he'] at hlt
      omega

/-- The last event cancels its member unless the member has an outcome. -/
theorem takesEffect_snoc_self (hlast : ∀ e ∈ events, e.seq < event.seq) :
    TakesEffect (events ++ [event]) key event.seq ↔
      memberCancelled? event.body = some key ∧ ¬Completes events key := by
  constructor
  · intro ⟨⟨e, he, hs, hk⟩, hc⟩
    rcases List.mem_append.mp he with he | he
    · exact absurd hs (hlast e he).ne
    · rw [List.mem_singleton.mp he] at hk
      refine ⟨hk, fun hcomp => ?_⟩
      obtain ⟨e', he', hk', hne⟩ := hcomp
      exact hne (hc e' (List.mem_append_left _ he') hk' (hlast e' he'))
  · intro ⟨hk, hn⟩
    refine ⟨⟨event, by simp, rfl, hk⟩, fun e he hk' hlt => ?_⟩
    rcases List.mem_append.mp he with he | he
    · by_contra hne
      exact hn ⟨e, he, hk', hne⟩
    · rw [List.mem_singleton.mp he] at hlt
      exact absurd hlt (lt_irrefl _)

theorem TakesEffect.exists_seq (h : TakesEffect events key seq) : ∃ e ∈ events, e.seq = seq := by
  obtain ⟨⟨e, he, hs, -⟩, -⟩ := h
  exact ⟨e, he, hs⟩

end Snoc

/-! ## 3. One event -/

/-- An event is a completion, a cancellation, or leaves both maps alone. -/
theorem advanceVerifyStage_members (stage : VerifyStageState) (event : AbEvent) :
    (∃ payload, event.body = .verify (.completed payload) ∧
      advanceVerifyStage stage event = completeVerifyMember stage payload event.seq) ∨
    (∃ payload, event.body = .verify (.cancelled payload) ∧
      advanceVerifyStage stage event = cancelVerifyMember stage payload event.seq) ∨
    (memberCompleted? event.body = none ∧ memberCancelled? event.body = none ∧
      (advanceVerifyStage stage event).outcomes = stage.outcomes ∧
      (advanceVerifyStage stage event).cancellations = stage.cancellations) := by
  obtain ⟨seq, ts, actor, body⟩ := event
  cases body with
  | verify body =>
    cases body with
    | completed payload => exact Or.inl ⟨payload, rfl, rfl⟩
    | cancelled payload => exact Or.inr (Or.inl ⟨payload, rfl, rfl⟩)
    | _ => exact Or.inr (Or.inr ⟨rfl, rfl, rfl, rfl⟩)
  | session body =>
    refine Or.inr (Or.inr ?_)
    cases body with
    | started payload =>
      unfold advanceVerifyStage ownVerifyMember
      dsimp only
      split
      · split <;> exact ⟨rfl, rfl, rfl, rfl⟩
      · exact ⟨rfl, rfl, rfl, rfl⟩
    | _ => exact ⟨rfl, rfl, rfl, rfl⟩
  | implement body =>
    refine Or.inr (Or.inr ?_)
    cases body with
    | started payload =>
      unfold advanceVerifyStage attributeImplementation
      dsimp only
      split
      · exact ⟨rfl, rfl, rfl, rfl⟩
      · split <;> exact ⟨rfl, rfl, rfl, rfl⟩
    | completed payload => exact ⟨rfl, rfl, rfl, rfl⟩
  | codeReview body =>
    refine Or.inr (Or.inr ?_)
    cases body with
    | started round => exact ⟨rfl, rfl, rfl, rfl⟩
    | verdict payload =>
      unfold advanceVerifyStage
      dsimp only
      split <;> exact ⟨rfl, rfl, rfl, rfl⟩
  | spec body => cases body <;> exact Or.inr (Or.inr ⟨rfl, rfl, rfl, rfl⟩)
  | reconcile body => cases body <;> exact Or.inr (Or.inr ⟨rfl, rfl, rfl, rfl⟩)
  | integration body => cases body <;> exact Or.inr (Or.inr ⟨rfl, rfl, rfl, rfl⟩)
  | execution body => cases body <;> exact Or.inr (Or.inr ⟨rfl, rfl, rfl, rfl⟩)
  | _ => exact Or.inr (Or.inr ⟨rfl, rfl, rfl, rfl⟩)

theorem hasOutcome_set {stage : VerifyStageState} {key other : MemberKey} {seq : Nat} :
    { stage with outcomes := stage.outcomes.set key seq }.hasOutcome other
      = if other = key then decide (seq ≠ 0) else stage.hasOutcome other := by
  unfold VerifyStageState.hasOutcome
  dsimp only
  rw [get?_set]
  by_cases h : other = key
  · rw [if_pos h, if_pos h]
  · rw [if_neg h, if_neg h]

namespace CancellationsOf

variable {events : List AbEvent} {stage : VerifyStageState} {event : AbEvent}

/-- Effects of the log before the event, and of the event. -/
theorem takesEffect_cases (hlast : ∀ e ∈ events, e.seq < event.seq) {key : MemberKey} {seq : Nat}
    (h : TakesEffect (events ++ [event]) key seq) :
    TakesEffect events key seq ∨
      (seq = event.seq ∧ memberCancelled? event.body = some key ∧ ¬Completes events key) := by
  obtain ⟨e, he, hs⟩ := h.exists_seq
  rcases List.mem_append.mp he with he | he
  · left
    exact (takesEffect_snoc_of_lt (hs ▸ hlast e he)).mp h
  · right
    rw [List.mem_singleton.mp he] at hs
    rw [← hs] at h ⊢
    exact ⟨rfl, (takesEffect_snoc_self hlast).mp h⟩

theorem lt_of_takesEffect (hlast : ∀ e ∈ events, e.seq < event.seq) {key : MemberKey} {seq : Nat}
    (h : TakesEffect events key seq) : seq < event.seq := by
  obtain ⟨e, he, hs⟩ := h.exists_seq
  exact hs ▸ hlast e he

theorem complete (h : CancellationsOf events stage) (hlast : ∀ e ∈ events, e.seq < event.seq)
    {payload : VerifyCompleted} (hb : event.body = .verify (.completed payload)) :
    CancellationsOf (events ++ [event]) (completeVerifyMember stage payload event.seq) := by
  have hk : memberCompleted? event.body = some (verifyMemberKey payload.step payload.attempt) := by
    rw [hb]
    rfl
  have hx : memberCancelled? event.body = none := by
    rw [hb]
    rfl
  have hold : ∀ key seq, TakesEffect (events ++ [event]) key seq → TakesEffect events key seq := by
    intro key seq ht
    rcases takesEffect_cases hlast ht with ht | ⟨-, ht, -⟩
    · exact ht
    · rw [hx] at ht
      exact absurd ht nofun
  unfold completeVerifyMember
  dsimp only
  rw [normalizeVerifyCompletion_step, normalizeVerifyCompletion_attempt]
  by_cases hc : stage.hasCancellation (verifyMemberKey payload.step payload.attempt) = true
  · rw [if_pos hc]
    refine ⟨fun key ho => completes_snoc.mpr (Or.inl (h.outcome key ho)), ?_, ?_, ?_⟩
    · intro key hn ho
      rcases completes_snoc.mp ho with ho | ⟨ho, -⟩
      · exact h.completed key hn ho
      · rw [hk] at ho
        rw [← Option.some.inj ho, hc] at hn
        exact absurd hn nofun
    · intro key cancellation hg
      have ht := h.effective key cancellation hg
      exact (takesEffect_snoc_of_lt (lt_of_takesEffect hlast ht)).mpr ht
    · exact fun key seq ht => h.cancelled key seq (hold key seq ht)
  · rw [if_neg hc]
    refine ⟨?_, ?_, ?_, fun key seq ht => h.cancelled key seq (hold key seq ht)⟩
    · intro key ho
      rw [hasOutcome_set] at ho
      by_cases he : key = verifyMemberKey payload.step payload.attempt
      · rw [if_pos he] at ho
        exact completes_snoc.mpr (Or.inr ⟨he ▸ hk, of_decide_eq_true ho⟩)
      · rw [if_neg he] at ho
        exact completes_snoc.mpr (Or.inl (h.outcome key ho))
    · intro key hn ho
      rw [hasOutcome_set]
      by_cases he : key = verifyMemberKey payload.step payload.attempt
      · rw [if_pos he]
        rcases completes_snoc.mp ho with ho | ⟨-, hne⟩
        · obtain ⟨e, hm, -, hne⟩ := ho
          have hlt := hlast e hm
          exact decide_eq_true (by omega)
        · exact decide_eq_true hne
      · rw [if_neg he]
        rcases completes_snoc.mp ho with ho | ⟨ho, -⟩
        · exact h.completed key hn ho
        · rw [hk] at ho
          exact absurd (Option.some.inj ho).symm he
    · intro key cancellation hg
      have ht := h.effective key cancellation hg
      exact (takesEffect_snoc_of_lt (lt_of_takesEffect hlast ht)).mpr ht

theorem cancel (h : CancellationsOf events stage) (hlast : ∀ e ∈ events, e.seq < event.seq)
    {payload : VerifyCancelled} (hb : event.body = .verify (.cancelled payload)) :
    CancellationsOf (events ++ [event]) (cancelVerifyMember stage payload event.seq) := by
  have hk : memberCompleted? event.body = none := by
    rw [hb]
    rfl
  have hx : memberCancelled? event.body
      = some (verifyMemberKey payload.step payload.attempt) := by
    rw [hb]
    rfl
  have hcomp : ∀ key, Completes (events ++ [event]) key → Completes events key := by
    intro key ho
    rcases completes_snoc.mp ho with ho | ⟨ho, -⟩
    · exact ho
    · rw [hk] at ho
      exact absurd ho nofun
  have hkeep : ∀ key seq, TakesEffect events key seq → TakesEffect (events ++ [event]) key seq :=
    fun key seq ht => (takesEffect_snoc_of_lt (lt_of_takesEffect hlast ht)).mpr ht
  unfold cancelVerifyMember
  dsimp only
  split
  · rename_i hopen
    simp only [Bool.and_eq_true, Bool.not_eq_true'] at hopen
    obtain ⟨hno, hnc⟩ := hopen
    refine ⟨fun key ho => completes_snoc.mpr (Or.inl (h.outcome key ho)), ?_, ?_, ?_⟩
    · intro key hn ho
      refine h.completed key ?_ (hcomp key ho)
      unfold VerifyStageState.hasCancellation at hn ⊢
      dsimp only at hn
      rw [get?_set] at hn
      split at hn
      · exact absurd hn nofun
      · exact hn
    · intro key cancellation hg
      dsimp only at hg
      rw [get?_set] at hg
      split at hg
      · rename_i he
        rw [← Option.some.inj hg]
        refine (takesEffect_snoc_self hlast).mpr ⟨he ▸ hx, fun hc => ?_⟩
        rw [he] at hc
        rw [h.completed _ hnc hc] at hno
        exact absurd hno nofun
      · exact hkeep key _ (h.effective key cancellation hg)
    · intro key seq ht
      unfold VerifyStageState.hasCancellation
      dsimp only
      rw [get?_set]
      split
      · rfl
      · rename_i he
        rcases takesEffect_cases hlast ht with ht | ⟨-, ht, -⟩
        · exact h.cancelled key seq ht
        · rw [hx] at ht
          exact absurd (Option.some.inj ht).symm he
  · rename_i hclosed
    refine ⟨fun key ho => completes_snoc.mpr (Or.inl (h.outcome key ho)),
      fun key hn ho => h.completed key hn (hcomp key ho),
      fun key cancellation hg => hkeep key _ (h.effective key cancellation hg), ?_⟩
    intro key seq ht
    rcases takesEffect_cases hlast ht with ht | ⟨-, ht, hnc⟩
    · exact h.cancelled key seq ht
    · rw [hx] at ht
      rw [← Option.some.inj ht] at hnc ⊢
      by_contra hn
      refine hclosed ?_
      simp only [Bool.and_eq_true, Bool.not_eq_true']
      refine ⟨?_, by simpa using hn⟩
      by_contra ho
      exact hnc (h.outcome _ (by simpa using ho))

/-- **One event keeps the invariant.** -/
theorem advance (h : CancellationsOf events stage) (hlast : ∀ e ∈ events, e.seq < event.seq) :
    CancellationsOf (events ++ [event]) (advanceVerifyStage stage event) := by
  rcases advanceVerifyStage_members stage event with ⟨payload, hb, he⟩ | ⟨payload, hb, he⟩ |
    ⟨hk, hx, ho, hc⟩
  · rw [he]
    exact h.complete hlast hb
  · rw [he]
    exact h.cancel hlast hb
  · have hout : ∀ key, (advanceVerifyStage stage event).hasOutcome key = stage.hasOutcome key := by
      intro key
      unfold VerifyStageState.hasOutcome
      rw [ho]
    have hcan : ∀ key, (advanceVerifyStage stage event).hasCancellation key
        = stage.hasCancellation key := by
      intro key
      unfold VerifyStageState.hasCancellation
      rw [hc]
    have hcomp : ∀ key, Completes (events ++ [event]) key ↔ Completes events key := by
      intro key
      rw [completes_snoc, hk]
      simp
    refine ⟨fun key hh => ?_, fun key hn hh => ?_, fun key cancellation hg => ?_,
      fun key seq ht => ?_⟩
    · rw [hout] at hh
      exact (hcomp key).mpr (h.outcome key hh)
    · rw [hcan] at hn
      rw [hout]
      exact h.completed key hn ((hcomp key).mp hh)
    · rw [hc] at hg
      have ht := h.effective key cancellation hg
      exact (takesEffect_snoc_of_lt (lt_of_takesEffect hlast ht)).mpr ht
    · rw [hcan]
      rcases takesEffect_cases hlast ht with ht | ⟨-, ht, -⟩
      · exact h.cancelled key seq ht
      · rw [hx] at ht
        exact absurd ht nofun

end CancellationsOf

/-- **The stage of a log keeps exactly the cancellations that take effect.** -/
theorem cancellationsOf_foldl {events : List AbEvent}
    (hp : events.Pairwise (fun a b => a.seq < b.seq)) :
    CancellationsOf events (events.foldl advanceVerifyStage initialVerifyStageState) := by
  induction events using List.reverseRecOn with
  | nil => exact cancellationsOf_nil
  | append_singleton events event ih =>
    obtain ⟨hp, -, hlast⟩ := List.pairwise_append.mp hp
    rw [List.foldl_append, List.foldl_cons, List.foldl_nil]
    exact (ih hp).advance fun e he => hlast e he event List.mem_cons_self

/-! ## 4. Completions that count -/

/-- The seq identifies an event of a log. -/
theorem eq_of_seq {events : List AbEvent} (hp : events.Pairwise (fun a b => a.seq < b.seq))
    {a b : AbEvent} (ha : a ∈ events) (hb : b ∈ events) (h : a.seq = b.seq) : a = b := by
  by_contra hne
  have hsymm : Std.Symm (fun a b : AbEvent => a.seq ≠ b.seq) := ⟨fun _ _ h => h.symm⟩
  exact (hp.imp fun hlt => hlt.ne).forall ha hb hne h

/-- The test of the engine: no cancellation, or one after the completion. -/
def VerifyStageState.keeps (stage : VerifyStageState) (key : MemberKey) (seq : Nat) : Bool :=
  match stage.cancellations.get? key with
  | none => true
  | some cancellation => decide (seq < cancellation.seq)

/-- **A completion is kept unless its member was cancelled before it.** -/
theorem kept_iff {events : List AbEvent} {stage : VerifyStageState}
    (hp : events.Pairwise (fun a b => a.seq < b.seq)) (h : CancellationsOf events stage)
    {event : AbEvent} (he : event ∈ events) {key : MemberKey}
    (hk : memberCompleted? event.body = some key) :
    stage.keeps key event.seq = true ↔ ¬CancelledBefore events key event.seq := by
  unfold VerifyStageState.keeps
  cases hg : stage.cancellations.get? key with
  | none =>
    refine ⟨fun _ hc => ?_, fun _ => rfl⟩
    obtain ⟨seq, -, ht⟩ := hc
    have hc := h.cancelled key seq ht
    unfold VerifyStageState.hasCancellation at hc
    rw [hg] at hc
    exact absurd hc nofun
  | some cancellation =>
    have ht := h.effective key cancellation hg
    simp only [decide_eq_true_iff]
    constructor
    · intro hlt hc
      obtain ⟨seq, hs, -⟩ := hc
      have hz := ht.2 event he hk hlt
      omega
    · intro hn
      rcases Nat.lt_trichotomy event.seq cancellation.seq with hlt | heq | hgt
      · exact hlt
      · obtain ⟨⟨e, hm, hs, hx⟩, -⟩ := ht
        have hsame : e = event :=
          eq_of_seq hp hm he (hs.trans heq.symm)
        rw [hsame] at hx
        unfold memberCompleted? at hk
        unfold memberCancelled? at hx
        split at hx
        · rename_i hb
          rw [hb] at hk
          exact absurd hk nofun
        · exact absurd hx nofun
      · exact absurd ⟨cancellation.seq, hgt, ht⟩ hn

end Autobuild
