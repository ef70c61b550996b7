/-
# The reducer and the order of keys

Two accumulators that are the same up to the order of their keys are folded side by side.  An
event keeps them so (`foldEvent_sameAcc`), with one exception: `session.resumed` compares
serialized handles.  What the end of a batch derives follows the order of the members.

* `UnevenMarks.after` says of which sessions the exception leaves another mark: `resumed` is read
  nowhere in the fold.
* An event family that touches no dictionary and no handle commutes with exchanging them
  (`SameAcc.of_withKeyed`).
* An operation by key respects `SameEntries`; an operation on sessions respects `canonical`.
-/
import Autobuild.Kernel.KeyOrder
import Autobuild.Kernel.ReducerBatches

namespace Autobuild

open ObjectMap Checked

variable {acc acc' : BuildAcc} {uneven : UnevenMarks}

/-! ## 1. Families that touch no key order -/

/-- A step that passes the keyed parts through keeps two accumulators alike. -/
theorem SameAcc.of_withKeyed (F : BuildAcc → BuildAcc)
    (hF : ∀ acc k, F (acc.withKeyed k) = (F acc).withKeyed k) {acc acc' : BuildAcc}
    (h : SameAcc uneven acc acc') : SameAcc uneven (F acc) (F acc') := by
  obtain ⟨he, hk⟩ := h
  have hself : (F acc).keyed = acc.keyed := by
    have := hF acc acc.keyed
    rw [withKeyed_keyed] at this
    rw [this, keyed_withKeyed]
  have hother : F acc' = (F acc).withKeyed acc'.keyed := by
    rw [← hF, ← he]
  rw [hother]
  exact ⟨rfl, by rw [hself]; exact hk⟩

section Pure

variable (acc : BuildAcc) (k : KeyedParts)

theorem foldBuildEvent_withKeyed (seq : Nat) (actor : Actor) (body : BuildEvent) :
    foldBuildEvent (acc.withKeyed k) seq actor body
      = (foldBuildEvent acc seq actor body).withKeyed k := by
  cases body <;> rfl

/-- Node events neither read nor write the keyed parts. -/
theorem foldNodeEvent_withKeyed (seq ts : Nat) (body : NodeEvent) :
    foldNodeEvent (acc.withKeyed k) seq ts body
      = (foldNodeEvent acc seq ts body).withKeyed k := by
  cases body with
  | parentAccepted payload =>
    unfold foldNodeEvent acceptNodeParent
    have h : (acc.withKeyed k).kind = acc.kind := rfl
    dsimp only
    rw [h]
    split <;> rfl
  | _ => rfl

theorem downgradeIssueLink_withKeyed (seq issue : Nat) (reason : String) :
    downgradeIssueLink (acc.withKeyed k) seq issue reason
      = (downgradeIssueLink acc seq issue reason).withKeyed k := by
  unfold downgradeIssueLink
  have h : (acc.withKeyed k).issueLinksSealedSeq = acc.issueLinksSealedSeq := rfl
  rw [h]
  split <;> rfl

theorem foldEscalationAnswered_withKeyed (seq : Nat) (actor : Actor)
    (payload : EscalationAnswered) :
    foldEscalationAnswered (acc.withKeyed k) seq actor payload
      = (foldEscalationAnswered acc seq actor payload).withKeyed k := by
  unfold foldEscalationAnswered
  have h : (acc.withKeyed k).openEscalations = acc.openEscalations := rfl
  rw [h]
  split <;> rfl

theorem rewriteCommits_withKeyed (base head : String) :
    rewriteCommits (acc.withKeyed k) base head = (rewriteCommits acc base head).withKeyed k := by
  unfold rewriteCommits
  have hk : (acc.withKeyed k).kind = acc.kind := rfl
  have hi : (acc.withKeyed k).implement = acc.implement := rfl
  rw [hk, hi]
  split <;> rfl

theorem foldRestackEvent_withKeyed (body : RestackEvent) :
    foldRestackEvent (acc.withKeyed k) body = (foldRestackEvent acc body).withKeyed k := by
  cases body with
  | rewritten payload =>
    unfold foldRestackEvent
    dsimp only
    rw [rewriteCommits_withKeyed]
    rfl
  | completed payload =>
    unfold foldRestackEvent
    dsimp only
    rw [rewriteCommits_withKeyed]
    rfl
  | _ => rfl

theorem foldReconcileCompleted_withKeyed (seq : Nat) (payload : ReconcileCompleted) :
    foldReconcileCompleted (acc.withKeyed k) seq payload
      = (foldReconcileCompleted acc seq payload).withKeyed k := by
  cases payload with
  | merge mergeCommit artifact => rfl
  | rewrite headSha rewriteId artifact =>
    have hk : (acc.withKeyed k).kind = acc.kind := rfl
    unfold foldReconcileCompleted
    dsimp only
    rw [hk]
    split <;> rfl

theorem foldReconcileEvent_withKeyed (seq : Nat) (body : ReconcileEvent) :
    foldReconcileEvent (acc.withKeyed k) seq body
      = (foldReconcileEvent acc seq body).withKeyed k := by
  cases body with
  | completed payload => exact foldReconcileCompleted_withKeyed acc k seq payload
  | rewritten payload =>
    unfold foldReconcileEvent
    dsimp only
    rw [rewriteCommits_withKeyed]
    rfl
  | _ => rfl

theorem foldCodeReviewEvent_withKeyed (seq : Nat) (body : ReviewEvent) :
    foldCodeReviewEvent (acc.withKeyed k) seq body
      = (foldCodeReviewEvent acc seq body).withKeyed k := by
  cases body with
  | started round => rfl
  | verdict payload =>
    unfold foldCodeReviewEvent
    dsimp only
    split <;> rfl

theorem foldJanitor_withKeyed (body : EventBody) :
    foldJanitor (acc.withKeyed k) body = (foldJanitor acc body).withKeyed k := by
  cases body with
  | build body => cases body <;> rfl
  | _ => rfl

theorem foldTargetRewrite_withKeyed (event : AbEvent) :
    foldTargetRewrite (acc.withKeyed k) event = (foldTargetRewrite acc event).withKeyed k := by
  obtain ⟨seq, ts, actor, body⟩ := event
  cases body with
  | target body => cases body <;> rfl
  | node body => cases body <;> rfl
  | _ => rfl

theorem foldIntegration_withKeyed (event : AbEvent) :
    foldIntegration (acc.withKeyed k) event = (foldIntegration acc event).withKeyed k := by
  obtain ⟨seq, ts, actor, body⟩ := event
  cases body <;> rfl

end Pure

/-! ## 2. What reads the verify stage by key -/

/-- Lookups do not see the order of the keys. -/
theorem SameAcc.hasCancellation (h : SameAcc uneven acc acc') (key : MemberKey) :
    acc.verifyStage.hasCancellation key = acc'.verifyStage.hasCancellation key := by
  unfold VerifyStageState.hasCancellation
  exact congrArg Option.isSome (h.2.cancellations key)

/-- The cancelled owner is found through two lookups. -/
theorem SameAcc.ownedCancellation (h : SameAcc uneven acc acc')
    (session : Option String) :
    ownedCancellation acc.verifyStage session = ownedCancellation acc'.verifyStage session := by
  unfold Autobuild.ownedCancellation
  have ho : acc.verifyStage.owners.get? = acc'.verifyStage.owners.get? := funext h.2.owners
  have hc : acc.verifyStage.cancellations.get? = acc'.verifyStage.cancellations.get? :=
    funext h.2.cancellations
  rw [ho, hc]

/-- The second accumulator is the first with other keyed parts. -/
theorem SameAcc.exists_keyed (h : SameAcc uneven acc acc') :
    ∃ k, acc' = acc.withKeyed k ∧ SameParts uneven acc.keyed k :=
  ⟨acc'.keyed, h.1, h.2⟩

theorem SameAcc.foldVerifyCompleted (h : SameAcc uneven acc acc') (seq : Nat)
    (payload : VerifyCompleted) :
    SameAcc uneven (foldVerifyCompleted acc seq payload)
      (foldVerifyCompleted acc' seq payload) := by
  unfold Autobuild.foldVerifyCompleted
  dsimp only
  rw [h.hasCancellation]
  obtain ⟨k, rfl, hk⟩ := h.exists_keyed
  split
  · exact ⟨rfl, hk⟩
  · exact ⟨rfl, hk⟩

theorem SameAcc.foldVerifyCancelled (h : SameAcc uneven acc acc') (seq : Nat)
    (payload : VerifyCancelled) :
    SameAcc uneven (foldVerifyCancelled acc seq payload)
      (foldVerifyCancelled acc' seq payload) := by
  have hc : acc.verifyStage.cancellations.get? (verifyMemberKey payload.step payload.attempt)
      = acc'.verifyStage.cancellations.get? (verifyMemberKey payload.step payload.attempt) :=
    h.2.cancellations _
  unfold Autobuild.foldVerifyCancelled
  dsimp only
  rw [hc]
  obtain ⟨k, rfl, hk⟩ := h.exists_keyed
  split
  · exact ⟨rfl, hk⟩
  · exact ⟨rfl, hk⟩

theorem SameAcc.foldVerifyEvent (h : SameAcc uneven acc acc') (seq : Nat)
    (body : VerifyEvent) :
    SameAcc uneven (foldVerifyEvent acc seq body) (foldVerifyEvent acc' seq body) := by
  cases body with
  | completed payload => exact h.foldVerifyCompleted seq payload
  | cancelled payload => exact h.foldVerifyCancelled seq payload
  | _ =>
    obtain ⟨k, rfl, hk⟩ := h.exists_keyed
    exact ⟨rfl, hk⟩

theorem SameAcc.foldEscalationRaised (h : SameAcc uneven acc acc') (seq : Nat)
    (actor : Actor) (payload : EscalationRaised) :
    SameAcc uneven (foldEscalationRaised acc seq actor payload)
      (foldEscalationRaised acc' seq actor payload) := by
  unfold Autobuild.foldEscalationRaised
  dsimp only
  rw [h.ownedCancellation]
  obtain ⟨k, rfl, hk⟩ := h.exists_keyed
  split
  · exact ⟨rfl, hk⟩
  · exact ⟨rfl, hk⟩

/-- Which escalation is swept depends on lookups only. -/
theorem SameAcc.supersedeOne (h : SameAcc uneven acc acc')
    (escalation : AnyEscalation) :
    SameAcc uneven (supersedeOne acc escalation) (supersedeOne acc' escalation) := by
  unfold Autobuild.supersedeOne
  rw [h.ownedCancellation]
  obtain ⟨k, rfl, hk⟩ := h.exists_keyed
  split
  · exact ⟨rfl, hk⟩
  · dsimp only
    by_cases hs : acc.verifyStage.superseded.any
        (fun e => e.1.base.id = escalation.base.id) = true
    · have hs' : (acc.withKeyed k).verifyStage.superseded.any
          (fun e => e.1.base.id = escalation.base.id) = true := hs
      rw [if_pos hs, if_pos hs']
      exact ⟨rfl, hk⟩
    · have hs' : ¬(acc.withKeyed k).verifyStage.superseded.any
          (fun e => e.1.base.id = escalation.base.id) = true := hs
      rw [if_neg hs, if_neg hs']
      exact ⟨rfl, hk⟩

theorem SameAcc.foldl_supersedeOne : ∀ (escalations : List AnyEscalation) {acc acc' : BuildAcc},
    SameAcc uneven acc acc' →
      SameAcc uneven (escalations.foldl Autobuild.supersedeOne acc)
        (escalations.foldl Autobuild.supersedeOne acc')
  | [], _, _, h => h
  | escalation :: rest, _, _, h => foldl_supersedeOne rest (h.supersedeOne escalation)

theorem SameAcc.foldSuperseded (h : SameAcc uneven acc acc') (body : EventBody) :
    SameAcc uneven (foldSuperseded acc body) (foldSuperseded acc' body) := by
  have ho : acc'.openEscalations = acc.openEscalations := by rw [h.1]; rfl
  have ha : acc'.answeredEscalations = acc.answeredEscalations := by rw [h.1]; rfl
  unfold Autobuild.foldSuperseded
  rw [ho, ha]
  split
  · exact foldl_supersedeOne _ h
  · exact h

/-! ## 3. The verify stage -/

theorem SameAcc.hasOutcome (h : SameAcc uneven acc acc') (key : MemberKey) :
    acc.verifyStage.hasOutcome key = acc'.verifyStage.hasOutcome key := by
  unfold VerifyStageState.hasOutcome
  rw [show acc.verifyStage.outcomes.get? key = acc'.verifyStage.outcomes.get? key from
    h.2.outcomes key]

/-- The state of a member depends on what the dictionaries hold, not on their order. -/
theorem SameAcc.isRunning (h : SameAcc uneven acc acc') (cycle : Nat) :
    acc.verifyStage.isRunning cycle = acc'.verifyStage.isRunning cycle := by
  funext key member
  unfold VerifyStageState.isRunning
  rw [h.hasCancellation, h.hasOutcome]

/-- Whether some other member runs does not depend on the order of the members. -/
theorem SameAcc.othersRun (h : SameAcc uneven acc acc') (key : MemberKey) :
    acc.verifyStage.members.entries.any (fun entry =>
        decide (entry.1 ≠ key) && acc.verifyStage.isRunning acc.verifyStage.cycle entry.1 entry.2)
      = acc'.verifyStage.members.entries.any (fun entry =>
          decide (entry.1 ≠ key)
            && acc'.verifyStage.isRunning acc'.verifyStage.cycle entry.1 entry.2) := by
  have hc : acc'.verifyStage.cycle = acc.verifyStage.cycle := by rw [h.1]; rfl
  rw [hc, h.isRunning]
  exact (sameEntries_iff_perm.mp h.2.members).any_eq

/-- Whether another member runs is asked of all of them, in any order. -/
theorem SameAcc.startMember (h : SameAcc uneven acc acc') (payload : VerifyStarted)
    (seq : Nat) :
    SameAcc uneven { acc with verifyStage := startVerifyMember acc.verifyStage payload seq }
      { acc' with verifyStage := startVerifyMember acc'.verifyStage payload seq } := by
  have hr := h.othersRun (verifyMemberKey payload.step payload.attempt)
  unfold startVerifyMember
  dsimp only
  rw [hr]
  obtain ⟨k, rfl, hk⟩ := h.exists_keyed
  exact ⟨rfl, { hk with members := hk.members.set _ _ }⟩

theorem SameAcc.ownMember (h : SameAcc uneven acc acc') (payload : SessionStarted) :
    SameAcc uneven { acc with verifyStage := ownVerifyMember acc.verifyStage payload }
      { acc' with verifyStage := ownVerifyMember acc'.verifyStage payload } := by
  unfold ownVerifyMember
  split
  · rename_i step round _ _
    have hm : acc.verifyStage.members.has (verifyMemberKey step round)
        = acc'.verifyStage.members.has (verifyMemberKey step round) := h.2.members.has_eq _
    dsimp only
    rw [hm]
    obtain ⟨k, rfl, hk⟩ := h.exists_keyed
    split
    · exact ⟨rfl, { hk with owners := hk.owners.set _ _ }⟩
    · exact ⟨rfl, hk⟩
  · exact h

/-- An outcome is entered unless the member is cancelled: one lookup. -/
theorem SameAcc.completeMember (h : SameAcc uneven acc acc')
    (payload : VerifyCompleted) (seq : Nat) :
    SameAcc uneven { acc with verifyStage := completeVerifyMember acc.verifyStage payload seq }
      { acc' with verifyStage := completeVerifyMember acc'.verifyStage payload seq } := by
  unfold completeVerifyMember
  dsimp only
  rw [h.hasCancellation]
  obtain ⟨k, rfl, hk⟩ := h.exists_keyed
  split
  · exact ⟨rfl, hk⟩
  · exact ⟨rfl, { hk with outcomes := hk.outcomes.set _ _ }⟩

/-- A cancellation is entered unless the member is settled: two lookups. -/
theorem SameAcc.cancelMember (h : SameAcc uneven acc acc')
    (payload : VerifyCancelled) (seq : Nat) :
    SameAcc uneven { acc with verifyStage := cancelVerifyMember acc.verifyStage payload seq }
      { acc' with verifyStage := cancelVerifyMember acc'.verifyStage payload seq } := by
  unfold cancelVerifyMember
  dsimp only
  rw [h.hasCancellation, h.hasOutcome]
  obtain ⟨k, rfl, hk⟩ := h.exists_keyed
  split
  · exact ⟨rfl, { hk with cancellations := hk.cancellations.set _ _ }⟩
  · exact ⟨rfl, hk⟩

theorem SameAcc.attributeImplementation (h : SameAcc uneven acc acc')
    (payload : ImplementStarted) (seq : Nat) :
    SameAcc uneven
      { acc with verifyStage := attributeImplementation acc.verifyStage payload seq }
      { acc' with verifyStage := attributeImplementation acc'.verifyStage payload seq } := by
  unfold Autobuild.attributeImplementation
  obtain ⟨k, rfl, hk⟩ := h.exists_keyed
  cases payload.verifyStageFailure with
  | none => exact ⟨rfl, hk⟩
  | some failure =>
    dsimp only
    have hs : (acc.withKeyed k).verifyStage.failures = acc.verifyStage.failures := rfl
    have hc : (acc.withKeyed k).verifyStage.cycle = acc.verifyStage.cycle := rfl
    rw [hs, hc]
    split
    · exact ⟨rfl, { hk with implementations := hk.implementations.set _ _ }⟩
    · exact ⟨rfl, hk⟩

theorem SameAcc.advanceVerifyStage (h : SameAcc uneven acc acc')
    (event : AbEvent) :
    SameAcc uneven { acc with verifyStage := advanceVerifyStage acc.verifyStage event }
      { acc' with verifyStage := advanceVerifyStage acc'.verifyStage event } := by
  obtain ⟨seq, ts, actor, body⟩ := event
  obtain ⟨k, rfl, hk⟩ := h.exists_keyed
  cases body with
  | verify body =>
    cases body with
    | started payload => exact h.startMember payload seq
    | completed payload => exact h.completeMember payload seq
    | cancelled payload => exact h.cancelMember payload seq
    | _ => exact ⟨rfl, hk⟩
  | session body =>
    cases body with
    | started payload => exact h.ownMember payload
    | _ => exact ⟨rfl, hk⟩
  | implement body =>
    cases body with
    | started payload => exact h.attributeImplementation payload seq
    | completed payload => exact ⟨rfl, hk⟩
  | codeReview body =>
    cases body with
    | started round => exact ⟨rfl, hk⟩
    | verdict payload =>
      unfold Autobuild.advanceVerifyStage
      dsimp only
      split <;> exact ⟨rfl, hk⟩
  | spec body => cases body <;> exact ⟨rfl, hk⟩
  | reconcile body => cases body <;> exact ⟨rfl, hk⟩
  | integration body => cases body <;> exact ⟨rfl, hk⟩
  | execution body => cases body <;> exact ⟨rfl, hk⟩
  | _ => exact ⟨rfl, hk⟩

/-! ## 4. Sessions -/

/-- Only whether its own name is among them matters to a session. -/
theorem flipped_congr {names names' : List String} {opened : OpenSession}
    (h : opened.session ∈ names ↔ opened.session ∈ names') :
    opened.flipped names = opened.flipped names' := if_congr h rfl rfl

theorem session_canonical (opened : OpenSession) : opened.canonical.session = opened.session := rfl

/-- A flipped mark does not rename the session. -/
theorem session_flipped (names : List String) (opened : OpenSession) :
    (opened.flipped names).canonical.session = opened.session := by
  unfold OpenSession.flipped
  split <;> rfl

theorem flipped_of_mem {names : List String} {opened : OpenSession}
    (h : opened.session ∈ names) :
      opened.flipped names = { opened with resumed := !opened.resumed } :=
  if_pos h

theorem flipped_of_not_mem {names : List String} {opened : OpenSession}
    (h : opened.session ∉ names) : opened.flipped names = opened := if_neg h

/-- The names but one. -/
def namesBut (session : String) (names : List String) : List String :=
  names.filter (· ≠ session)

theorem mem_namesBut {session name : String} {names : List String} (h : name ≠ session) :
    name ∈ namesBut session names ↔ name ∈ names := by
  rw [namesBut, List.mem_filter, decide_eq_true h]
  exact and_iff_left rfl

theorem not_mem_namesBut (session : String) (names : List String) :
    session ∉ namesBut session names := fun h =>
  of_decide_eq_true (List.mem_filter.mp h).2 rfl

/-- The session left out of the names stands as it is. -/
theorem flipped_namesBut {session : String} {names : List String} {opened : OpenSession}
    (h : opened.session = session) : opened.flipped (namesBut session names) = opened :=
  flipped_of_not_mem (h ▸ not_mem_namesBut opened.session names)

/-- A session is dropped, or starts with a mark of its own. -/
def UnevenMarks.drop (uneven : UnevenMarks) (session : String) : UnevenMarks where
  opened := namesBut session uneven.opened
  suspended := namesBut session uneven.suspended

/-- Sessions that are the same up to key order differ in their handle and continuation, and in
their mark where they are uneven. -/
theorem canonical_eq {names : List String} {o o' : OpenSession}
    (h : o'.canonical = (o.flipped names).canonical) :
    ∃ handle continuation,
      o' = { o with
        nativeHandle := handle, continuation := continuation
        resumed := (o.flipped names).resumed } ∧
      o.nativeHandle.map (·.canonical) = handle.map (·.canonical) ∧
      o.continuation.map (·.canonical) = continuation.map (·.canonical) := by
  have hf : ∃ resumed, o.flipped names = { o with resumed := resumed } := by
    unfold OpenSession.flipped
    split
    · exact ⟨_, rfl⟩
    · exact ⟨o.resumed, rfl⟩
  obtain ⟨resumed, hf⟩ := hf
  rw [hf] at h ⊢
  have hn := congrArg OpenSession.nativeHandle h
  have hc := congrArg OpenSession.continuation h
  refine ⟨o'.nativeHandle, o'.continuation, ?_, hn.symm, hc.symm⟩
  cases o
  cases o'
  simp only [OpenSession.canonical, OpenSession.mk.injEq] at h ⊢
  simp only [h, and_self]

namespace SameSessions

variable {names names' : List String} {xs ys : List OpenSession} {o o' : OpenSession}

theorem map_session (h : SameSessions names xs ys) :
    ys.map OpenSession.session = xs.map OpenSession.session := by
  have hm := congrArg (List.map OpenSession.session) h
  rw [List.map_map, List.map_map] at hm
  exact hm.trans (List.map_congr_left fun opened _ => session_flipped names opened)

/-- The session of a name: in neither, or in both the same but for an uneven mark. -/
theorem find (h : SameSessions names xs ys) (session : String) :
    (Keyed.find? OpenSession.session session xs = none ∧
        Keyed.find? OpenSession.session session ys = none) ∨
      ∃ o o', Keyed.find? OpenSession.session session xs = some o ∧
        Keyed.find? OpenSession.session session ys = some o' ∧
        o'.canonical = (o.flipped names).canonical := by
  have hm := congrArg (Keyed.find? OpenSession.session session) h
  rw [← Keyed.map_find? session_canonical, ← Keyed.map_find? (session_flipped names)] at hm
  cases hx : Keyed.find? OpenSession.session session xs with
  | none =>
    rw [hx] at hm
    exact .inl ⟨rfl, Option.map_eq_none_iff.mp hm⟩
  | some o =>
    rw [hx] at hm
    obtain ⟨o', hy, ho⟩ := Option.map_eq_some_iff.mp hm
    exact .inr ⟨o, o', rfl, hy, ho⟩

/-- A session put on both sides: the others keep their marks. -/
theorem put (h : SameSessions names xs ys)
    (hnames : ∀ name, name ≠ o.session → (name ∈ names' ↔ name ∈ names))
    (ho : o'.canonical = (o.flipped names').canonical) :
    SameSessions names' (Keyed.put OpenSession.session o xs)
      (Keyed.put OpenSession.session o' ys) := by
  unfold SameSessions
  rw [Keyed.map_put session_canonical, Keyed.map_put (session_flipped names'), ho, h]
  refine Keyed.put_map_congr (session_flipped names) (session_flipped names') _ fun y _ hne => ?_
  rw [session_flipped] at hne
  rw [flipped_congr (hnames y.session hne)]

/-- A session erased on both sides: the others keep their marks. -/
theorem erase (h : SameSessions names xs ys) {session : String}
    (hnames : ∀ name, name ≠ session → (name ∈ names' ↔ name ∈ names)) :
    SameSessions names' (Keyed.erase OpenSession.session session xs)
      (Keyed.erase OpenSession.session session ys) := by
  unfold SameSessions
  rw [Keyed.map_erase session_canonical, h, ← Keyed.map_erase (session_flipped names)]
  refine List.map_congr_left fun y hy => ?_
  have hne : y.session ≠ session := of_decide_eq_true (List.mem_filter.mp hy).2
  rw [flipped_congr (hnames y.session hne)]

/-- A name that no session has is of no account. -/
theorem of_names (h : SameSessions names xs ys)
    (hnames : ∀ opened ∈ xs, opened.session ∈ names' ↔ opened.session ∈ names) :
    SameSessions names' xs ys := by
  refine Eq.trans h (List.map_congr_left fun opened hm => ?_)
  rw [flipped_congr (hnames opened hm)]

/-- Nothing is uneven exactly where no session of a list is. -/
theorem eq_iff (h : SameSessions names xs ys) :
    SameSessions [] xs ys ↔ ∀ opened ∈ xs, opened.session ∉ names := by
  unfold SameSessions at h ⊢
  rw [h, List.map_inj_left]
  refine forall₂_congr fun opened _ => ?_
  rw [flipped_nil]
  constructor
  · intro heq hmem
    rw [flipped_of_mem hmem] at heq
    have hmark : (!opened.resumed) = opened.resumed := congrArg OpenSession.resumed heq
    exact Bool.not_ne_self _ hmark
  · intro hnot
    rw [flipped_of_not_mem hnot]

end SameSessions

theorem SameAcc.distinct' (h : SameAcc uneven acc acc') :
    (acc'.openSessions.map OpenSession.session).Nodup :=
  h.2.openSessions.map_session.symm ▸ h.2.distinct

/-- Both sides have the session open or neither has, alike up to its mark. -/
theorem SameAcc.findSession (h : SameAcc uneven acc acc') (session : String) :
    (openSession? acc session = none ∧ openSession? acc' session = none) ∨
      ∃ opened opened', openSession? acc session = some opened ∧
        openSession? acc' session = some opened' ∧
        opened'.canonical = (opened.flipped uneven.opened).canonical :=
  h.2.openSessions.find session

/-- The marks that differ are those of before, but for the session put. -/
theorem SameAcc.putSession {opened : List String} (h : SameAcc uneven acc acc')
    {o o' : OpenSession}
    (hnames : ∀ name, name ≠ o.session → (name ∈ opened ↔ name ∈ uneven.opened))
    (ho : o'.canonical = (o.flipped opened).canonical) :
    SameAcc { uneven with opened := opened } (putSession acc o) (putSession acc' o') := by
  obtain ⟨k, rfl, hk⟩ := h.exists_keyed
  exact ⟨rfl, { hk with
    openSessions := hk.openSessions.put hnames ho
    distinct := Keyed.nodup_put hk.distinct }⟩

/-- The mark of a session that is put stays as it is. -/
theorem SameAcc.putSame (h : SameAcc uneven acc acc') {o o' : OpenSession}
    (ho : o'.canonical = (o.flipped uneven.opened).canonical) :
    SameAcc uneven (Autobuild.putSession acc o) (Autobuild.putSession acc' o') :=
  h.putSession (fun _ _ => Iff.rfl) ho

/-- A session is put with the same mark on both sides. -/
theorem SameAcc.putAlike (h : SameAcc uneven acc acc') {session : String} {o o' : OpenSession}
    (hname : o.session = session) (ho : o'.canonical = o.canonical) :
    SameAcc { uneven with opened := namesBut session uneven.opened }
      (Autobuild.putSession acc o) (Autobuild.putSession acc' o') := by
  refine h.putSession (fun _ hne => mem_namesBut (hname ▸ hne)) ?_
  rw [flipped_namesBut hname, ho]

/-- A session is put with another mark on each side. -/
theorem SameAcc.putUneven (h : SameAcc uneven acc acc') {session : String} {o o' : OpenSession}
    (hname : o.session = session)
    (ho : o'.canonical = ({ o with resumed := !o.resumed } : OpenSession).canonical) :
    SameAcc { uneven with opened := session :: uneven.opened }
      (Autobuild.putSession acc o) (Autobuild.putSession acc' o') := by
  refine h.putSession (fun _ hne => List.mem_cons.trans (or_iff_right (hname ▸ hne))) ?_
  rw [flipped_of_mem (List.mem_cons.mpr (.inl hname)), ho]

/-- A session that is gone has no mark to differ in. -/
theorem SameAcc.dropSession (h : SameAcc uneven acc acc') (session : String) :
    SameAcc (uneven.drop session) (dropSession acc session) (dropSession acc' session) := by
  obtain ⟨k, rfl, hk⟩ := h.exists_keyed
  exact ⟨rfl, { hk with
    suspendedSessions := hk.suspendedSessions.erase fun _ => mem_namesBut
    openSessions := hk.openSessions.erase fun _ => mem_namesBut
    distinct := Keyed.nodup_erase hk.distinct }⟩

theorem SameAcc.updateTotals (h : SameAcc uneven acc acc') (root : String)
    (f : LogicalSessionTotals → LogicalSessionTotals) :
    SameAcc uneven (updateTotals acc root f) (updateTotals acc' root f) := by
  have ht : acc.sessionTotals.get? root = acc'.sessionTotals.get? root :=
    h.2.sessionTotals root
  unfold Autobuild.updateTotals
  rw [ht]
  obtain ⟨k, rfl, hk⟩ := h.exists_keyed
  exact ⟨rfl, { hk with sessionTotals := hk.sessionTotals.set _ _ }⟩

/-- A handle is recorded as it came, on both sides. -/
theorem SameAcc.recordHandle (h : SameAcc uneven acc acc') (session : String)
    (handle : NativeSessionHandle) :
    SameAcc uneven { acc with nativeHandles := acc.nativeHandles.set session handle }
      { acc' with nativeHandles := acc'.nativeHandles.set session handle } := by
  obtain ⟨k, rfl, hk⟩ := h.exists_keyed
  refine ⟨rfl, { hk with nativeHandles := ?_ }⟩
  intro key
  have hn := hk.nativeHandles key
  rw [get?_mapValues, get?_mapValues] at hn ⊢
  show ((acc.nativeHandles.set session handle).get? key).map _
    = ((k.nativeHandles.set session handle).get? key).map _
  rw [get?_set, get?_set]
  split
  · rfl
  · exact hn

/-- What a continuation drops. -/
def UnevenMarks.continued (uneven : UnevenMarks) : Option SessionContinuation → UnevenMarks
  | none => uneven
  | some continuation => uneven.drop continuation.predecessor

/-- A continuation takes the handle it names and drops its predecessor. -/
theorem SameAcc.continueSession (h : SameAcc uneven acc acc') (session : String)
    (continuation : Option SessionContinuation) :
    SameAcc (uneven.continued continuation) (continueSession acc session continuation)
      (continueSession acc' session continuation) := by
  cases continuation with
  | none => exact h
  | some continuation => exact (h.recordHandle session _).dropSession _

/-- A session that starts is marked alike on both sides. -/
theorem SameAcc.foldSessionStarted (h : SameAcc uneven acc acc') (seq ts : Nat)
    (payload : SessionStarted) :
    SameAcc
      { uneven.continued payload.continuation with
        opened := namesBut payload.session (uneven.continued payload.continuation).opened }
      (foldSessionStarted acc seq ts payload) (foldSessionStarted acc' seq ts payload) :=
  ((h.updateTotals _ _).continueSession _ _).putAlike rfl rfl

theorem SameAcc.foldHandleRecorded (h : SameAcc uneven acc acc')
    (payload : SessionHandleRecorded) :
    SameAcc uneven (foldHandleRecorded acc payload) (foldHandleRecorded acc' payload) := by
  unfold Autobuild.foldHandleRecorded
  rcases h.findSession payload.session with ⟨ho, ho'⟩ | ⟨opened, opened', ho, ho', hc⟩
  · rw [ho, ho']
    exact h
  · rw [ho, ho']
    obtain ⟨handle, continuation, rfl, hn, hcont⟩ := canonical_eq hc
    have hnone : opened.nativeHandle = none ↔ handle = none := by
      rw [← Option.map_eq_none_iff, hn, Option.map_eq_none_iff]
    dsimp only
    by_cases hcond : opened.phase = payload.phase ∧ opened.round = payload.round
        ∧ opened.nativeHandle = none
    · rw [if_pos hcond, if_pos ⟨hcond.1, hcond.2.1, hnone.mp hcond.2.2⟩]
      refine (h.recordHandle payload.session payload.handle).putSame ?_
      unfold OpenSession.flipped OpenSession.canonical
      dsimp only
      split <;> rw [hcont]
    · rw [if_neg hcond, if_neg fun he => hcond ⟨he.1, he.2.1, hnone.mpr he.2.2⟩]
      exact h

/-- The root is no handle. -/
theorem root_eq_of_canonical_eq {names : List String} {o o' : OpenSession}
    (h : o'.canonical = (o.flipped names).canonical) : o.root = o'.root := by
  have hr (o : OpenSession) : o.canonical.root = o.root := by
    unfold OpenSession.root OpenSession.canonical
    cases o.continuation <;> rfl
  have hf : (o.flipped names).root = o.root := by
    unfold OpenSession.flipped
    split <;> rfl
  rw [← hr o', h, hr, hf]

/-- `session.suspended` is of the session that is open. -/
def suspends (acc : BuildAcc) (payload : SessionSuspended) : Bool :=
  match openSession? acc payload.session with
  | none => false
  | some opened =>
    decide (opened.phase = payload.phase ∧ opened.round = payload.round
      ∧ completedSince acc.lastCompletedPhase opened = false)

/-- A session is suspended with the mark it has. -/
def UnevenMarks.suspend (uneven : UnevenMarks) (session : String) : UnevenMarks where
  opened := namesBut session uneven.opened
  suspended :=
    if session ∈ uneven.opened then session :: uneven.suspended
    else namesBut session uneven.suspended

theorem UnevenMarks.mem_suspend {uneven : UnevenMarks} {session name : String}
    (h : name ≠ session) : name ∈ (uneven.suspend session).suspended ↔ name ∈ uneven.suspended := by
  unfold UnevenMarks.suspend
  split
  · exact List.mem_cons.trans (or_iff_right h)
  · exact mem_namesBut h

theorem UnevenMarks.mem_suspend_self (uneven : UnevenMarks) (session : String) :
    session ∈ (uneven.suspend session).suspended ↔ session ∈ uneven.opened := by
  unfold UnevenMarks.suspend
  split
  next h => exact iff_of_true List.mem_cons_self h
  next h => exact iff_of_false (not_mem_namesBut _ _) h

/-- A suspension takes the mark of the session along. -/
theorem SameAcc.foldSessionSuspended (h : SameAcc uneven acc acc') (payload : SessionSuspended) :
    SameAcc (if suspends acc payload then uneven.suspend payload.session else uneven)
      (foldSessionSuspended acc payload) (foldSessionSuspended acc' payload) := by
  have hl : acc'.lastCompletedPhase = acc.lastCompletedPhase := by rw [h.1]; rfl
  unfold Autobuild.foldSessionSuspended suspends
  rw [hl]
  rcases h.findSession payload.session with ⟨ho, ho'⟩ | ⟨opened, opened', ho, ho', hc⟩
  · rw [ho, ho']
    exact h
  · rw [ho, ho']
    have hroot := root_eq_of_canonical_eq hc
    have hname : opened.session = payload.session := Keyed.key_of_find? ho
    obtain ⟨handle, continuation, rfl, hn, hcont⟩ := canonical_eq hc
    dsimp only
    rw [← hroot]
    by_cases hcond : opened.phase = payload.phase ∧ opened.round = payload.round
        ∧ completedSince acc.lastCompletedPhase opened = false
    · rw [if_pos (decide_eq_true hcond), if_pos hcond]
      refine (congrArg _ (if_pos hcond)).mpr ?_
      obtain ⟨k, he, hk⟩ := (h.updateTotals opened.root
        (addStretch payload.activeMs payload.transcript payload.usage)).exists_keyed
      rw [he, ← hname]
      refine ⟨rfl, { hk with
        suspendedSessions := hk.suspendedSessions.put (fun _ => UnevenMarks.mem_suspend) ?_
        openSessions := hk.openSessions.erase fun _ => mem_namesBut
        distinct := Keyed.nodup_erase hk.distinct }⟩
      have hmem : (suspendedSession opened payload).session
          ∈ (uneven.suspend opened.session).suspended ↔ opened.session ∈ uneven.opened :=
        UnevenMarks.mem_suspend_self uneven opened.session
      have hhandle : (payload.handle.or handle).map (·.canonical)
          = (payload.handle.or opened.nativeHandle).map (·.canonical) := by
        rw [Option.map_or, Option.map_or, hn]
      by_cases hu : opened.session ∈ uneven.opened
      · rw [flipped_of_mem (hmem.mpr hu), flipped_of_mem hu]
        unfold suspendedSession OpenSession.canonical
        dsimp only
        rw [hcont, hhandle]
      · rw [flipped_of_not_mem fun hm => hu (hmem.mp hm), flipped_of_not_mem hu]
        unfold suspendedSession OpenSession.canonical
        dsimp only
        rw [hcont, hhandle]
    · rw [if_neg (fun hd => hcond (of_decide_eq_true hd)), if_neg hcond]
      refine (congrArg _ (if_neg hcond)).mpr h

/-- What a fallback leaves of the marks. -/
def UnevenMarks.fallback (uneven : UnevenMarks) (payload : SessionResumeFallback) : UnevenMarks :=
  if payload.stale then uneven else uneven.drop payload.session

/-- A fallback sets the mark of an open session and forgets a suspended one. -/
theorem SameAcc.foldResumeFallback (h : SameAcc uneven acc acc')
    (payload : SessionResumeFallback) :
    SameAcc (uneven.fallback payload) (foldResumeFallback acc payload)
      (foldResumeFallback acc' payload) := by
  unfold Autobuild.foldResumeFallback UnevenMarks.fallback
  by_cases hs : payload.stale = true
  · rw [if_pos hs, if_pos hs, if_pos hs]
    exact h
  · rw [if_neg hs, if_neg hs, if_neg hs]
    dsimp only
    have he : SameAcc { uneven with suspended := namesBut payload.session uneven.suspended }
        { acc with
          suspendedSessions :=
            Keyed.erase OpenSession.session payload.session acc.suspendedSessions }
        { acc' with
          suspendedSessions :=
            Keyed.erase OpenSession.session payload.session acc'.suspendedSessions } := by
      obtain ⟨k, rfl, hk⟩ := h.exists_keyed
      exact ⟨rfl, { hk with
        suspendedSessions := hk.suspendedSessions.erase fun _ => mem_namesBut }⟩
    rcases he.findSession payload.session with ⟨ho, ho'⟩ | ⟨opened, opened', ho, ho', hc⟩
    · rw [ho, ho']
      -- no session of the name is open, so its mark is of no account
      obtain ⟨k, hk', hk⟩ := he.exists_keyed
      refine ⟨he.1, { he.2 with openSessions := ?_ }⟩
      refine he.2.openSessions.of_names fun opened hm => ?_
      have hne : opened.session ≠ payload.session := fun heq =>
        absurd (List.find?_eq_none.mp ho opened hm) (fun hn => hn (decide_eq_true heq))
      exact mem_namesBut hne
    · rw [ho, ho']
      have hname : opened.session = payload.session := Keyed.key_of_find? ho
      obtain ⟨handle, continuation, rfl, hn, hcont⟩ := canonical_eq hc
      refine he.putAlike hname ?_
      unfold OpenSession.canonical
      dsimp only
      rw [hcont]

theorem SameAcc.foldSessionEnded (h : SameAcc uneven acc acc') (ts : Nat)
    (payload : SessionEnded) :
    SameAcc (uneven.drop payload.session) (foldSessionEnded acc ts payload)
      (foldSessionEnded acc' ts payload) := by
  unfold Autobuild.foldSessionEnded
  rcases h.findSession payload.session with ⟨ho, ho'⟩ | ⟨opened, opened', ho, ho', hc⟩
  · rw [ho, ho']
    exact h.dropSession _
  · rw [ho, ho']
    have hroot := root_eq_of_canonical_eq hc
    obtain ⟨handle, continuation, rfl, hn, hcont⟩ := canonical_eq hc
    cases payload with
    | ended session activeMs transcript usage =>
      dsimp only
      rw [← hroot]
      exact (h.updateTotals _ _).dropSession _
    | reclaimed session instanceId resumedFromSeq => exact h.dropSession _

/-- The test a `session.resumed` makes: the named session is open and confirms it. -/
def resumes (acc : BuildAcc) (payload : SessionResumed) : Bool :=
  match openSession? acc payload.session with
  | none => false
  | some opened => confirmsResume opened payload

/-- The named session is open and already resumed. -/
def resumedAlready (acc : BuildAcc) (payload : SessionResumed) : Bool :=
  ((openSession? acc payload.session).map (·.resumed)).getD false

/-- The resumption leaves the named session marked alike. -/
def MarksAlike (acc acc' : BuildAcc) (payload : SessionResumed) : Prop :=
  (resumedAlready acc payload || resumes acc payload)
    = (resumedAlready acc' payload || resumes acc' payload)

instance (acc acc' : BuildAcc) (payload : SessionResumed) :
    Decidable (MarksAlike acc acc' payload) :=
  inferInstanceAs (Decidable (_ = _))

/-- A resumption writes the mark, be it confirmed or not. -/
theorem foldSessionResumed_eq (hd : (acc.openSessions.map OpenSession.session).Nodup)
    {payload : SessionResumed} {opened : OpenSession}
    (ho : openSession? acc payload.session = some opened) :
    foldSessionResumed acc payload
      = putSession acc
          { opened with resumed := resumedAlready acc payload || resumes acc payload } := by
  unfold foldSessionResumed resumedAlready resumes
  rw [ho]
  dsimp only [Option.map_some, Option.getD_some]
  by_cases hc : confirmsResume opened payload = true
  · rw [if_pos hc, hc, Bool.or_true]
  · rw [if_neg hc, Bool.eq_false_iff.mpr hc, Bool.or_false]
    unfold putSession
    rw [Keyed.put_of_mem hd (Keyed.mem_of_find? ho)]

def UnevenMarks.resume (uneven : UnevenMarks) (acc acc' : BuildAcc) (payload : SessionResumed) :
    UnevenMarks :=
  { uneven with
    opened :=
      if MarksAlike acc acc' payload then namesBut payload.session uneven.opened
      else payload.session :: uneven.opened }

/-- **A resumption leaves the named session uneven exactly where the two sides mark it
differently.** -/
theorem SameAcc.foldSessionResumed (h : SameAcc uneven acc acc') (payload : SessionResumed) :
    SameAcc (uneven.resume acc acc' payload) (foldSessionResumed acc payload)
      (foldSessionResumed acc' payload) := by
  rcases h.findSession payload.session with ⟨ho, ho'⟩ | ⟨opened, opened', ho, ho', hc⟩
  · have hf : ∀ {acc : BuildAcc}, openSession? acc payload.session = none →
        Autobuild.foldSessionResumed acc payload = acc := by
      intro acc ho
      unfold Autobuild.foldSessionResumed
      rw [ho]
    rw [hf ho, hf ho']
    refine ⟨h.1, { h.2 with openSessions := h.2.openSessions.of_names fun opened hm => ?_ }⟩
    have hne : opened.session ≠ payload.session := fun heq =>
      absurd (List.find?_eq_none.mp ho opened hm) (fun hn => hn (decide_eq_true heq))
    unfold UnevenMarks.resume
    dsimp only
    split
    · exact mem_namesBut hne
    · exact List.mem_cons.trans (or_iff_right hne)
  · rw [foldSessionResumed_eq h.2.distinct ho, foldSessionResumed_eq h.distinct' ho']
    have hname : opened.session = payload.session := Keyed.key_of_find? ho
    obtain ⟨handle, continuation, rfl, hn, hcont⟩ := canonical_eq hc
    by_cases hm : MarksAlike acc acc' payload
    · have hu : uneven.resume acc acc' payload
          = { uneven with opened := namesBut payload.session uneven.opened } := by
        unfold UnevenMarks.resume
        rw [if_pos hm]
      rw [hu]
      refine h.putAlike hname ?_
      rw [show (resumedAlready acc' payload || resumes acc' payload) = _ from hm.symm]
      unfold OpenSession.canonical
      dsimp only
      rw [hn, hcont]
    · have hu : uneven.resume acc acc' payload
          = { uneven with opened := payload.session :: uneven.opened } := by
        unfold UnevenMarks.resume
        rw [if_neg hm]
      rw [hu]
      refine h.putUneven hname ?_
      have hmark : (resumedAlready acc' payload || resumes acc' payload)
          = !(resumedAlready acc payload || resumes acc payload) :=
        Bool.eq_not_of_ne (Ne.symm hm)
      rw [hmark]
      unfold OpenSession.canonical
      dsimp only
      rw [hn, hcont]

/-- The uneven marks after an event, by what it finds before it. -/
def UnevenMarks.after (uneven : UnevenMarks) (acc acc' : BuildAcc) : EventBody → UnevenMarks
  | .session (.started payload) =>
    { uneven.continued payload.continuation with
      opened := namesBut payload.session (uneven.continued payload.continuation).opened }
  | .session (.suspended payload) =>
    if suspends acc payload then uneven.suspend payload.session else uneven
  | .session (.resumeFallback payload) => uneven.fallback payload
  | .session (.resumed payload) => uneven.resume acc acc' payload
  | .session (.ended payload) => uneven.drop payload.session
  | _ => uneven

/-- **One step**: what differs after a session event is what `after` says. -/
theorem SameAcc.foldSessionEvent (h : SameAcc uneven acc acc') (seq ts : Nat)
    (body : SessionEvent) :
    SameAcc (uneven.after acc acc' (.session body)) (foldSessionEvent acc seq ts body)
      (foldSessionEvent acc' seq ts body) := by
  cases body with
  | started payload => exact h.foldSessionStarted seq ts payload
  | nativeHandleRecorded payload => exact h.foldHandleRecorded payload
  | suspended payload => exact h.foldSessionSuspended payload
  | resumeFallback payload => exact h.foldResumeFallback payload
  | resumed payload => exact h.foldSessionResumed payload
  | ended payload => exact h.foldSessionEnded ts payload
  | buildReadFailed payload => exact h
  | buildReadRecovered payload => exact h

/-! ## 5. The node ledger -/

theorem SameOptional.getD {κ ν : Type} [DecidableEq κ] {m m' : Option (ObjectMap κ ν)}
    (h : SameOptional m m') : SameEntries (m.getD ∅) (m'.getD ∅) := by
  cases h with
  | none => exact SameEntries.refl _
  | some h => exact h

theorem SameOptional.map {κ ν : Type} [DecidableEq κ] {m m' : Option (ObjectMap κ ν)}
    (h : SameOptional m m') {f : ObjectMap κ ν → ObjectMap κ ν}
    (hf : ∀ a b, SameEntries a b → SameEntries (f a) (f b)) :
    SameOptional (m.map f) (m'.map f) := by
  cases h with
  | none => exact Option.Rel.none
  | some h => exact Option.Rel.some (hf _ _ h)

namespace NodeRestackState

/-- A boundary is set by its head on both sides. -/
theorem sameLedger_setBoundary {state : NodeRestackState} {m : LedgerMaps}
    (hm : SameMaps state.maps m) (head base : String) :
    SameMaps (state.setBoundary head base).maps ((state.withMaps m).setBoundary head base).maps :=
  { hm with
    contributionBoundaries := Option.Rel.some (hm.contributionBoundaries.getD.set _ _) }

section WithMaps

variable (state : NodeRestackState) (m : LedgerMaps)

theorem reserveWriter_withMaps (seq : Nat) (payload : NodeWriterReserved)
    (hm : SameMaps state.maps m) :
    Related SameLedger (state.reserveWriter seq payload)
      ((state.withMaps m).reserveWriter seq payload) := by
  unfold reserveWriter
  have ha : (state.withMaps m).active = state.active := rfl
  rw [ha]
  split
  · rfl
  · exact ⟨rfl, sameLedger_setBoundary hm _ _⟩

theorem prepareItem_withMaps (payload : NodeItemPrepared) :
    (state.withMaps m).prepareItem payload
      = (state.prepareItem payload).map (·.withMaps m) := by
  unfold prepareItem
  have ha : (state.withMaps m).active = state.active := rfl
  have hi : (state.withMaps m).items = state.items := rfl
  rw [ha, hi]
  cases state.active with
  | none => rfl
  | some active =>
    dsimp only
    split
    · rfl
    · split
      · rfl
      · split <;> rfl

theorem conflictItem_withMaps (payload : NodeItemConflicted) :
    (state.withMaps m).conflictItem payload
      = (state.conflictItem payload).map (·.withMaps m) := by
  unfold conflictItem
  have hp : (state.withMaps m).prepared = state.prepared := rfl
  rw [hp]
  cases state.prepared with
  | none => rfl
  | some prepared =>
    dsimp only
    split <;> rfl

theorem replayItem_withMaps (payload : NodeItemReplayed) :
    (state.withMaps m).replayItem payload
      = (state.replayItem payload).map (·.withMaps m) := by
  unfold replayItem
  have ha : (state.withMaps m).active = state.active := rfl
  have hi : (state.withMaps m).items = state.items := rfl
  have hp : (state.withMaps m).prepared = state.prepared := rfl
  rw [ha, hi, hp]
  cases state.active with
  | none => rfl
  | some active =>
    dsimp only
    split
    · rfl
    · cases state.prepared with
      | none => rfl
      | some prepared =>
        dsimp only
        split
        · rfl
        · split <;> rfl

theorem intendPublish_withMaps (payload : NodePublishIntended) :
    (state.withMaps m).intendPublish payload
      = (state.intendPublish payload).map (·.withMaps m) := by
  unfold intendPublish
  have ha : (state.withMaps m).active = state.active := rfl
  have hi : (state.withMaps m).items = state.items := rfl
  have hp : (state.withMaps m).prepared = state.prepared := rfl
  rw [ha, hi, hp]
  cases state.active with
  | none => rfl
  | some active =>
    dsimp only
    split
    · rfl
    · split <;> rfl

end WithMaps

/-- A computation that leaves the dictionaries alone keeps ledgers the same. -/
theorem related_of_withMaps (F : NodeRestackState → Except String NodeRestackState)
    {state : NodeRestackState} (hF : ∀ m, F (state.withMaps m) = (F state).map (·.withMaps m))
    {m : LedgerMaps} (hm : SameMaps state.maps m) :
    Related SameLedger (F state) (F (state.withMaps m)) := by
  rw [hF]
  cases hr : F state with
  | error message => rfl
  | ok next =>
    have hself : next.maps = state.maps := by
      have hs := hF state.maps
      rw [show state.withMaps state.maps = state from rfl, hr] at hs
      have hi : next = next.withMaps state.maps := Except.ok.inj hs
      rw [hi]
      rfl
    exact ⟨rfl, by rw [hself]; exact hm⟩

/-- An identity is followed through the aliases by lookups. -/
theorem droppedIdentity_congr {aliases aliases' : ObjectMap String String}
    (h : SameEntries aliases aliases') (change : WriterChange) :
    droppedIdentity aliases change = droppedIdentity aliases' change := by
  unfold droppedIdentity
  rw [h]

/-- The aliases a replay notes are read and written by key. -/
theorem foldl_noteItem_same (changes : List WriterChange) :
    ∀ (items : List NodeItemReplayed) (names : List String)
      {aliases aliases' : ObjectMap String String}, SameEntries aliases aliases' →
      (items.foldl (noteItem changes) (names, aliases)).1
          = (items.foldl (noteItem changes) (names, aliases')).1 ∧
        SameEntries (items.foldl (noteItem changes) (names, aliases)).2
          (items.foldl (noteItem changes) (names, aliases')).2
  | [], _, _, _, h => ⟨rfl, h⟩
  | item :: rest, names, aliases, aliases', h => by
    rw [List.foldl_cons, List.foldl_cons]
    unfold noteItem
    cases changes[item.index]? with
    | none => exact foldl_noteItem_same changes rest names h
    | some change =>
      dsimp only
      by_cases hd : item.dropped = true
      · rw [if_pos hd, if_pos hd, droppedIdentity_congr h]
        exact foldl_noteItem_same changes rest _ h
      · rw [if_neg hd, if_neg hd]
        by_cases hb : change.build.isNone = true
        · rw [if_pos hb, if_pos hb, h change.sha]
          exact foldl_noteItem_same changes rest names (h.set _ _)
        · rw [if_neg hb, if_neg hb]
          exact foldl_noteItem_same changes rest names h

/-- What a confirmed rewrite of a restack notes. -/
theorem confirmRewrite_same {state : NodeRestackState} {m : LedgerMaps}
    (hm : SameMaps state.maps m) (payload : NodeRewritten) :
    Related SameLedger (state.confirmRewrite payload)
      ((state.withMaps m).confirmRewrite payload) := by
  unfold confirmRewrite
  have hi : (state.withMaps m).intent = state.intent := rfl
  have ha : (state.withMaps m).active = state.active := rfl
  rw [hi, ha]
  cases state.intent with
  | none => rfl
  | some intent =>
    cases state.active with
    | none => rfl
    | some active =>
      dsimp only
      by_cases hb : payload.id ≠ intent.id ∨ payload.head ≠ intent.head
          ∨ payload.previous ≠ active.expected
      · rw [if_pos hb, if_pos hb]
        rfl
      · rw [if_neg hb, if_neg hb]
        cases active.operation with
        | landing => exact ⟨rfl, sameLedger_setBoundary hm _ _⟩
        | restack =>
          have hn := foldl_noteItem_same active.changes state.items
            (state.droppedIdentities.getD []) hm.foreignAliases.getD
          have hmaps := sameLedger_setBoundary hm payload.head active.parent
          refine ⟨?_, { hmaps with foreignAliases := Option.Rel.some hn.2 }⟩
          have hd := congrArg (fun names => some (JsText.sortedSet id names)) hn.1
          exact congrArg (fun dropped : Option (List String) =>
            { ((state.withMaps m).setBoundary payload.head active.parent) with
              foreignAliases := some (state.items.foldl (noteItem active.changes)
                (state.droppedIdentities.getD [], m.foreignAliases.getD ∅)).2
              droppedIdentities := dropped
              rewritten := some payload }) hd.symm

theorem foldl_erase_same : ∀ (ids : List String) {a b : ObjectMap String NodeRestackRequested},
    SameEntries a b →
      SameEntries (ids.foldl (fun map id => map.erase id) a)
        (ids.foldl (fun map id => map.erase id) b)
  | [], _, _, h => h
  | id :: rest, _, _, h => foldl_erase_same rest (h.erase id)

/-- Writers are erased one by one, which keeps maps of the same entries alike. -/
theorem settleWriter_same {state : NodeRestackState} {m : LedgerMaps}
    (hm : SameMaps state.maps m) (payload : NodeWriterSettled) :
    Related SameLedger (state.settleWriter payload)
      ((state.withMaps m).settleWriter payload) := by
  unfold settleWriter
  have ha : (state.withMaps m).active = state.active := rfl
  have hr : (state.withMaps m).rewritten = state.rewritten := rfl
  rw [ha, hr]
  cases state.active with
  | none => rfl
  | some active =>
    dsimp only
    split
    · rfl
    · split
      · split
        · rfl
        · split
          · refine ⟨rfl, { hm with requests := ?_ }⟩
            exact hm.requests.map fun a b h => foldl_erase_same _ h
          · exact ⟨rfl, hm⟩
      · exact ⟨rfl, hm⟩

theorem noteInventory_same {state : NodeRestackState} {m : LedgerMaps}
    (hm : SameMaps state.maps m) (payload : NodeInventory) :
    SameLedger (state.noteInventory payload) ((state.withMaps m).noteInventory payload) := by
  unfold noteInventory
  have hc : (state.withMaps m).contributionBase = state.contributionBase := rfl
  rw [hc]
  cases state.contributionBase with
  | none => exact ⟨rfl, hm⟩
  | some contributionBase => exact ⟨rfl, sameLedger_setBoundary hm _ _⟩

/-- The ledger accepts an event on both sides or on neither. -/
theorem sameLedger_advance {state state' : NodeRestackState} (h : SameLedger state state')
    (seq : Nat) (body : EventBody) :
    Related SameLedger (advanceNodeRestackEvent state seq body)
      (advanceNodeRestackEvent state' seq body) := by
  obtain ⟨he, hm⟩ := h
  rw [he]
  cases body with
  | node body =>
    cases body with
    | restackRequested payload =>
      exact ⟨rfl, { hm with requests := Option.Rel.some (hm.requests.getD.set _ _) }⟩
    | restackSatisfied id =>
      exact ⟨rfl, { hm with requests := hm.requests.map fun _ _ h => h.erase _ }⟩
    | opened sha => exact ⟨rfl, sameLedger_setBoundary hm _ _⟩
    | writerReserved payload => exact reserveWriter_withMaps state _ seq payload hm
    | itemPrepared payload =>
      exact related_of_withMaps (·.prepareItem payload)
        (fun m => prepareItem_withMaps state m payload) hm
    | itemConflicted payload =>
      exact related_of_withMaps (·.conflictItem payload)
        (fun m => conflictItem_withMaps state m payload) hm
    | itemReplayed payload =>
      exact related_of_withMaps (·.replayItem payload)
        (fun m => replayItem_withMaps state m payload) hm
    | publishIntended payload =>
      exact related_of_withMaps (·.intendPublish payload)
        (fun m => intendPublish_withMaps state m payload) hm
    | rewritten payload => exact confirmRewrite_same hm payload
    | writerSettled payload => exact settleWriter_same hm payload
    | inventory payload => exact noteInventory_same hm payload
    | _ => exact ⟨rfl, hm⟩
  | target body => cases body <;> exact ⟨rfl, hm⟩
  | _ => exact ⟨rfl, hm⟩

end NodeRestackState

/-! ## 6. One event -/

theorem SameAcc.foldPhaseEvent (h : SameAcc uneven acc acc') (seq : Nat)
    (body : PhaseEvent) :
    SameAcc uneven (foldPhaseEvent acc seq body) (foldPhaseEvent acc' seq body) := by
  cases body with
  | deferred payload => exact h
  | deferralEscalated payload =>
    obtain ⟨k, rfl, hk⟩ := h.exists_keyed
    exact ⟨rfl, hk⟩
  | failed payload =>
    have hf : acc.failures.get? payload.phase = acc'.failures.get? payload.phase :=
      h.2.failures payload.phase
    unfold Autobuild.foldPhaseEvent
    dsimp only
    rw [hf]
    obtain ⟨k, rfl, hk⟩ := h.exists_keyed
    exact ⟨rfl, { hk with failures := hk.failures.set _ _ }⟩

/-- Of the families only the session events move the marks. -/
theorem SameAcc.foldFacts (h : SameAcc uneven acc acc') (event : AbEvent) :
    SameAcc (uneven.after acc acc' event.body) (foldFacts acc event) (foldFacts acc' event) := by
  obtain ⟨seq, ts, actor, body⟩ := event
  obtain ⟨k, he, hk⟩ := h.exists_keyed
  cases body with
  | build body =>
    exact h.of_withKeyed (foldBuildEvent · seq actor body)
      fun acc k => foldBuildEvent_withKeyed acc k seq actor body
  | node body =>
    exact h.of_withKeyed (foldNodeEvent · seq ts body)
      fun acc k => foldNodeEvent_withKeyed acc k seq ts body
  | session body => exact h.foldSessionEvent seq ts body
  | codeReview body =>
    exact h.of_withKeyed (foldCodeReviewEvent · seq body)
      fun acc k => foldCodeReviewEvent_withKeyed acc k seq body
  | verify body => exact h.foldVerifyEvent seq body
  | restack body =>
    exact h.of_withKeyed (foldRestackEvent · body)
      fun acc k => foldRestackEvent_withKeyed acc k body
  | reconcile body =>
    exact h.of_withKeyed (foldReconcileEvent · seq body)
      fun acc k => foldReconcileEvent_withKeyed acc k seq body
  | issueLinkDowngraded issue reason =>
    exact h.of_withKeyed (downgradeIssueLink · seq issue reason)
      fun acc k => downgradeIssueLink_withKeyed acc k seq issue reason
  | escalationRaised payload => exact h.foldEscalationRaised seq actor payload
  | escalationAnswered payload =>
    exact h.of_withKeyed (foldEscalationAnswered · seq actor payload)
      fun acc k => foldEscalationAnswered_withKeyed acc k seq actor payload
  | phase body => exact h.foldPhaseEvent seq body
  | publication body =>
    subst he
    cases body with
    | requested operation => cases operation <;> exact ⟨rfl, hk⟩
    | _ => exact ⟨rfl, hk⟩
  | integration body => subst he; cases body <;> exact ⟨rfl, hk⟩
  | pr body => subst he; cases body <;> exact ⟨rfl, hk⟩
  | runner body => subst he; cases body <;> exact ⟨rfl, hk⟩
  | execution body => subst he; cases body <;> exact ⟨rfl, hk⟩
  | infrastructure body => subst he; cases body <;> exact ⟨rfl, hk⟩
  | spec body => subst he; cases body <;> exact ⟨rfl, hk⟩
  | plan body => subst he; cases body <;> exact ⟨rfl, hk⟩
  | planReview body => subst he; cases body <;> exact ⟨rfl, hk⟩
  | implement body => subst he; cases body <;> exact ⟨rfl, hk⟩
  | finalize body => subst he; cases body <;> exact ⟨rfl, hk⟩
  | plain body => subst he; cases body <;> exact ⟨rfl, hk⟩
  | _ => subst he; exact ⟨rfl, hk⟩

theorem SameAcc.foldProjection (h : SameAcc uneven acc acc') (event : AbEvent) :
    SameAcc (uneven.after acc acc' event.body) (foldProjection acc event)
      (foldProjection acc' event) := by
  have hf := ((h.advanceVerifyStage event).foldSuperseded event.body).foldFacts event
  have hafter : uneven.after
      (Autobuild.foldSuperseded
        { acc with verifyStage := Autobuild.advanceVerifyStage acc.verifyStage event } event.body)
      (Autobuild.foldSuperseded
        { acc' with verifyStage := Autobuild.advanceVerifyStage acc'.verifyStage event }
        event.body) event.body = uneven.after acc acc' event.body := by
    cases event.body <;> rfl
  rw [hafter] at hf
  obtain ⟨k, he, hk⟩ := hf.exists_keyed
  unfold Autobuild.foldProjection
  dsimp only
  rw [he]
  exact ⟨rfl, { hk with lastEvent := rfl }⟩

theorem SameAcc.foldActivity (h : SameAcc uneven acc acc') (event : AbEvent) :
    SameAcc uneven (foldActivity acc event) (foldActivity acc' event) := by
  have hp : SameAcc uneven
      { acc with
        pollingActivity := some (advancePollingActivity (acc.pollingActivity.getD ∅) event) }
      { acc' with
        pollingActivity := some (advancePollingActivity (acc'.pollingActivity.getD ∅) event) } := by
    obtain ⟨k, rfl, hk⟩ := h.exists_keyed
    refine ⟨rfl, { hk with pollingActivity := Option.Rel.some ?_ }⟩
    unfold advancePollingActivity
    split
    · exact hk.pollingActivity.getD
    · exact hk.pollingActivity.getD.set _ _
  have hj := hp.of_withKeyed (foldJanitor · event.body)
    fun acc k => foldJanitor_withKeyed acc k event.body
  have ht := hj.of_withKeyed (foldTargetRewrite · event)
    fun acc k => foldTargetRewrite_withKeyed acc k event
  have hl := ht.of_withKeyed
    (fun acc => { acc with landing := advanceLanding acc.landing event }) fun _ _ => rfl
  exact hl.of_withKeyed (foldIntegration · event)
    fun acc k => foldIntegration_withKeyed acc k event

theorem sameLedger_getD {ledger ledger' : Option NodeRestackState}
    (h : Option.Rel SameLedger ledger ledger') :
    SameLedger (ledger.getD {}) (ledger'.getD {}) := by
  cases h with
  | none => exact ⟨rfl, SameMaps.refl _⟩
  | some h => exact h

/-- An event reaches both ledgers or neither. -/
theorem SameAcc.nodeRestackAfter (h : SameAcc uneven acc acc')
    (event : AbEvent) :
    Related (Option.Rel SameLedger) (nodeRestackAfter acc.kind acc.nodeRestack event)
      (nodeRestackAfter acc'.kind acc'.nodeRestack event) := by
  have hkind : acc'.kind = acc.kind := by rw [h.1]; rfl
  unfold Autobuild.nodeRestackAfter
  rw [hkind]
  split
  · have hl : SameLedger (acc.nodeRestack.getD {}) (acc'.nodeRestack.getD {}) :=
      sameLedger_getD h.2.nodeRestack
    refine Related.bind (Related.foldlM (fun e _ _ _ hs => ?_) hl) fun _ _ hs => ?_
    · exact NodeRestackState.sameLedger_advance hs e.seq e.body
    · exact Option.Rel.some hs
  · exact h.2.nodeRestack

/-- **An event keeps accumulators the same up to key order and the marks it leaves uneven.** -/
theorem SameAcc.foldEvent (h : SameAcc uneven acc acc') (event : AbEvent) :
    Related (SameAcc (uneven.after acc acc' event.body)) (foldEvent acc event)
      (foldEvent acc' event) := by
  have ha := h.foldActivity event
  unfold Autobuild.foldEvent
  refine (ha.nodeRestackAfter event).bind fun ledger ledger' hl => ?_
  have hledgered : SameAcc uneven { Autobuild.foldActivity acc event with nodeRestack := ledger }
      { Autobuild.foldActivity acc' event with nodeRestack := ledger' } := by
    obtain ⟨k, he, hk⟩ := ha.exists_keyed
    rw [he]
    exact ⟨rfl, { hk with nodeRestack := hl }⟩
  have hp := hledgered.foldProjection event
  obtain ⟨seq, ts, actor, body⟩ := event
  cases body <;> exact hp

/-! ## 7. Draining executions -/

theorem SameAcc.updateDrain (h : SameAcc uneven acc acc') (instanceId : String)
    (f : DrainExecution → DrainExecution) :
    SameAcc uneven (updateDrain acc instanceId f) (updateDrain acc' instanceId f) := by
  have hd : acc.drainingExecutions.get? instanceId = acc'.drainingExecutions.get? instanceId :=
    h.2.drainingExecutions instanceId
  unfold Autobuild.updateDrain
  rw [hd]
  obtain ⟨k, rfl, hk⟩ := h.exists_keyed
  split
  · exact ⟨rfl, { hk with drainingExecutions := hk.drainingExecutions.set _ _ }⟩
  · exact ⟨rfl, hk⟩

/-- An authorization is for one instance, found by lookup. -/
theorem SameAcc.authorizeDrain (h : SameAcc uneven acc acc')
    (payload : ExecutionDrainAuthorized) :
    SameAcc uneven (authorizeDrain acc payload) (authorizeDrain acc' payload) := by
  have hd : acc.drainingExecutions.get? payload.instanceId
      = acc'.drainingExecutions.get? payload.instanceId := h.2.drainingExecutions _
  have he : acc.endedExecutionInstances.has payload.instanceId
      = acc'.endedExecutionInstances.has payload.instanceId :=
    h.2.endedExecutionInstances.has_eq _
  unfold Autobuild.authorizeDrain
  dsimp only
  rw [hd, he]
  obtain ⟨k, rfl, hk⟩ := h.exists_keyed
  split
  · exact ⟨rfl, hk⟩
  · exact ⟨rfl, { hk with drainingExecutions := hk.drainingExecutions.set _ _ }⟩

theorem SameAcc.foldDraining (h : SameAcc uneven acc acc') (event : AbEvent) :
    SameAcc uneven (foldDraining acc event) (foldDraining acc' event) := by
  obtain ⟨seq, ts, actor, body⟩ := event
  cases body with
  | build body =>
    obtain ⟨k, rfl, hk⟩ := h.exists_keyed
    cases body <;> exact ⟨rfl, hk⟩
  | execution body =>
    cases body with
    | drainAuthorized payload => exact h.authorizeDrain payload
    | relaunchRequested payload => exact h.updateDrain _ _
    | drainSettled correlation instanceId => exact h.updateDrain _ _
    | ended instanceId =>
      refine SameAcc.updateDrain ?_ _ _
      obtain ⟨k, rfl, hk⟩ := h.exists_keyed
      exact ⟨rfl, { hk with endedExecutionInstances := hk.endedExecutionInstances.set _ _ }⟩
    | started payload => exact h
  | session body =>
    cases body with
    | suspended payload =>
      unfold Autobuild.foldDraining
      dsimp only
      split
      · obtain ⟨k, rfl, hk⟩ := h.exists_keyed
        exact ⟨rfl, { hk with drainingExecutions := hk.drainingExecutions.mapValues _ }⟩
      · exact h
    | _ => exact h
  | _ => exact h

theorem updateDrain_sessions (acc : BuildAcc) (instanceId : String)
    (f : DrainExecution → DrainExecution) :
    (updateDrain acc instanceId f).openSessions = acc.openSessions ∧
      (updateDrain acc instanceId f).lastCompletedPhase = acc.lastCompletedPhase := by
  unfold updateDrain
  split <;> exact ⟨rfl, rfl⟩

/-- Draining opens and closes no session and completes no phase. -/
theorem foldDraining_sessions (acc : BuildAcc) (event : AbEvent) :
    (foldDraining acc event).openSessions = acc.openSessions ∧
      (foldDraining acc event).lastCompletedPhase = acc.lastCompletedPhase := by
  obtain ⟨seq, ts, actor, body⟩ := event
  cases body with
  | build body => cases body <;> exact ⟨rfl, rfl⟩
  | execution body =>
    cases body with
    | drainAuthorized payload =>
      unfold foldDraining authorizeDrain
      dsimp only
      split <;> exact ⟨rfl, rfl⟩
    | relaunchRequested payload => exact updateDrain_sessions _ _ _
    | drainSettled correlation instanceId => exact updateDrain_sessions _ _ _
    | ended instanceId => exact updateDrain_sessions _ _ _
    | started payload => exact ⟨rfl, rfl⟩
  | session body =>
    cases body with
    | suspended payload =>
      unfold foldDraining
      dsimp only
      split <;> exact ⟨rfl, rfl⟩
    | _ => exact ⟨rfl, rfl⟩
  | _ => exact ⟨rfl, rfl⟩

/-- The marks go by the open sessions and the last completed phase. -/
theorem UnevenMarks.after_congr (uneven : UnevenMarks) {next next' : BuildAcc}
    (h : next.openSessions = acc.openSessions ∧ next.lastCompletedPhase = acc.lastCompletedPhase)
    (h' : next'.openSessions = acc'.openSessions) (body : EventBody) :
    uneven.after next next' body = uneven.after acc acc' body := by
  have ho {acc next : BuildAcc} (h : next.openSessions = acc.openSessions)
      (payload : SessionResumed) :
      (resumedAlready next payload || resumes next payload)
        = (resumedAlready acc payload || resumes acc payload) := by
    unfold resumedAlready resumes openSession?
    rw [h]
  cases body with
  | session body =>
    cases body with
    | suspended payload =>
      have hs : suspends next payload = suspends acc payload := by
        unfold suspends openSession?
        rw [h.1, h.2]
      unfold after
      dsimp only
      rw [hs]
    | resumed payload =>
      have hm : MarksAlike next next' payload ↔ MarksAlike acc acc' payload := by
        unfold MarksAlike
        rw [ho h.1, ho h']
      unfold after resume
      exact congrArg (fun opened => { uneven with opened := opened }) (if_congr hm rfl rfl)
    | _ => rfl
  | _ => rfl

/-- The uneven marks after a stored event. -/
def UnevenMarks.afterStored (uneven : UnevenMarks) (acc acc' : BuildAcc) :
    StoredEvent → UnevenMarks
  | .known event => uneven.after acc acc' event.body
  | .unknown _ _ _ => uneven

/-- What a batch of one known event does. -/
theorem foldEvents_known (acc : BuildAcc) (event : AbEvent) :
    foldEvents acc [.known event]
      = foldEvent
          (foldDraining
            { acc with compatibility := advanceCompatibility acc.compatibility [.known event] }
            event)
          event := by
  unfold foldEvents
  show List.foldlM foldEvent _ [event] = _
  rw [List.foldlM_cons]
  exact bind_pure _

/-- **One stored event.** -/
theorem SameAcc.foldEvents_singleton (h : SameAcc uneven acc acc') (stored : StoredEvent) :
    Related (SameAcc (uneven.afterStored acc acc' stored)) (foldEvents acc [stored])
      (foldEvents acc' [stored]) := by
  have hc : SameAcc uneven
      { acc with compatibility := advanceCompatibility acc.compatibility [stored] }
      { acc' with compatibility := advanceCompatibility acc'.compatibility [stored] } := by
    obtain ⟨k, rfl, hk⟩ := h.exists_keyed
    exact ⟨rfl, hk⟩
  cases stored with
  | unknown seq type compatibility => exact hc
  | known event =>
    rw [foldEvents_known, foldEvents_known]
    have hf := (hc.foldDraining event).foldEvent event
    have hafter : uneven.after
        { acc with compatibility := advanceCompatibility acc.compatibility [.known event] }
        { acc' with compatibility := advanceCompatibility acc'.compatibility [.known event] }
        event.body = uneven.after acc acc' event.body :=
      uneven.after_congr ⟨rfl, rfl⟩ rfl event.body
    rw [uneven.after_congr (foldDraining_sessions _ event) (foldDraining_sessions _ event).1,
      hafter] at hf
    exact hf

end Autobuild
