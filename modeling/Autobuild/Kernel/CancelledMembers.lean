/-
# What a cancellation of a verify member leaves

The rule is enforced in three places: the verify stage refuses the later of an outcome and a
cancellation, the reducer drops late completions and sweeps the escalations of the member's
sessions, and the engine filters completions by seq.

* `Roster` is the part of the docket that the rule is about, and `Roster.note` what an event does
  to it (`foldEvent_roster`).
* `RosterKept` is the invariant of a log: the results are the completions the engine keeps, and an
  escalation that is left though its session's member is cancelled was raised, and its member
  cancelled, before the session was recorded to own it (`RosterKept.late`).
* The sweep works by id, so an id that is raised twice can shield an escalation
  (`not_cancellation_final`); `RaisedOnce` excludes that.
-/
import Autobuild.Kernel.Docket
import Autobuild.Kernel.MemberCancellations
import Autobuild.Kernel.PauseProtocol

namespace Autobuild

open Checked ObjectMap

/-! ## 1. The roster -/

/-- Escalations, results and aborts of a build, with what decides on a sweep. -/
structure Roster where
  owners : ObjectMap String MemberKey
  outcomes : ObjectMap MemberKey Nat
  cancellations : ObjectMap MemberKey VerifyCancellation
  results : List VerifyResult
  opened : List OpenEscalation
  answered : List AnsweredEscalation
  abort : List PendingCommand

def Docket.roster (docket : Docket) : Roster where
  owners := docket.stage.owners
  outcomes := docket.stage.outcomes
  cancellations := docket.stage.cancellations
  results := docket.results
  opened := docket.openEscalations
  answered := docket.answeredEscalations
  abort := docket.pending.abort

namespace Roster

/-- The cancellation of the member that owns the session. -/
def cancelledOwner (roster : Roster) (session : Option String) : Option VerifyCancellation :=
  (session.bind roster.owners.get?).bind roster.cancellations.get?

/-- The escalations of the roster, answered or not. -/
def all (roster : Roster) : List OpenEscalation :=
  roster.opened ++ roster.answered.map (·.toOpenEscalation)

def snapshot (roster : Roster) : List AnyEscalation :=
  roster.opened.map .opened ++ roster.answered.map .answered

def supersede (roster : Roster) (escalation : AnyEscalation) : Roster :=
  match roster.cancelledOwner escalation.base.session with
  | none => roster
  | some _ =>
    { roster with
      opened := Keyed.erase OpenEscalation.id escalation.base.id roster.opened
      answered := spliceFirst (fun e => e.id = escalation.base.id) roster.answered
      abort := (withdrawAbort { abort := roster.abort } escalation).abort }

def complete (roster : Roster) (seq : Nat) (payload : VerifyCompleted) : Roster :=
  let result := normalizeVerifyCompletion payload
  if (roster.cancellations.get? (verifyMemberKey result.step result.attempt)).isSome then roster
  else { roster with results := roster.results ++ [⟨result, seq⟩] }

def raise (roster : Roster) (escalation : OpenEscalation) : Roster :=
  match roster.cancelledOwner escalation.session with
  | some _ => roster
  | none => { roster with opened := Keyed.put OpenEscalation.id escalation roster.opened }

def answer (roster : Roster) (seq : Nat) (actor : Actor) (payload : EscalationAnswered) : Roster :=
  match Keyed.find? OpenEscalation.id payload.id roster.opened with
  | none => roster
  | some opened =>
    { roster with
      opened := Keyed.erase OpenEscalation.id payload.id roster.opened
      answered := roster.answered ++ [answeredEscalation opened seq payload]
      abort := if payload.resolution = .abort then
          roster.abort ++ [⟨.abort, seq, some payload.answer, actor⟩]
        else roster.abort }

/-- What an event does to the roster, once the stage has moved on. -/
def note (roster : Roster) (event : AbEvent) : Roster :=
  match event.body with
  | .verify (.cancelled _) => roster.snapshot.foldl supersede roster
  | .verify (.completed payload) => roster.complete event.seq payload
  | .escalationRaised payload => roster.raise (raisedEscalation event.seq event.actor payload)
  | .phase (.deferralEscalated payload) => roster.raise (deferralEscalation event.seq payload)
  | .escalationAnswered payload => roster.answer event.seq event.actor payload
  | .build (.abortRequested reason) =>
    { roster with abort := roster.abort ++ [⟨.abort, event.seq, reason, event.actor⟩] }
  | .build .aborted => { roster with abort := [] }
  | _ => roster

end Roster

/-- The reducer sweeps an escalation as the roster does. -/
theorem supersedeOne_roster (acc : BuildAcc) (escalation : AnyEscalation) :
    (supersedeOne acc escalation).docket.roster = acc.docket.roster.supersede escalation := by
  have howner : acc.docket.roster.cancelledOwner escalation.base.session
      = ownedCancellation acc.verifyStage escalation.base.session := rfl
  unfold supersedeOne Roster.supersede
  rw [howner]
  cases ownedCancellation acc.verifyStage escalation.base.session with
  | none => rfl
  | some cancellation =>
    have habort : (withdrawAbort acc.pending escalation).abort
        = (withdrawAbort { abort := acc.pending.abort } escalation).abort := by
      unfold withdrawAbort
      split
      · split <;> rfl
      · rfl
    unfold Docket.roster BuildAcc.docket
    dsimp only
    rw [habort]
    split <;> rfl

theorem foldl_supersedeOne_roster : ∀ (escalations : List AnyEscalation) (acc : BuildAcc),
    (escalations.foldl supersedeOne acc).docket.roster
      = escalations.foldl Roster.supersede acc.docket.roster
  | [], _ => rfl
  | escalation :: rest, acc => by
    rw [List.foldl_cons, foldl_supersedeOne_roster rest, supersedeOne_roster, List.foldl_cons]

/-- An event other than a cancellation moves the roster by its own rule. -/
theorem foldFacts_roster (acc : BuildAcc) {event : AbEvent}
    (hc : ∀ payload, event.body ≠ .verify (.cancelled payload)) :
    (foldFacts acc event).docket.roster = acc.docket.roster.note event := by
  by_cases hd : onDocket event.body = true
  · obtain ⟨seq, ts, actor, body⟩ := event
    dsimp only at hd
    unfold onDocket at hd
    split at hd
    · rfl
    · rfl
    · rfl
    · rfl
    · rfl
    · rfl
    · rfl
    · rename_i payload
      unfold foldFacts foldVerifyEvent foldVerifyCompleted Roster.note Roster.complete
      have hcancelled : acc.verifyStage.hasCancellation (verifyMemberKey
          (normalizeVerifyCompletion payload).step (normalizeVerifyCompletion payload).attempt)
          = (acc.docket.roster.cancellations.get? (verifyMemberKey
          (normalizeVerifyCompletion payload).step
          (normalizeVerifyCompletion payload).attempt)).isSome := rfl
      dsimp only
      rw [hcancelled]
      split <;> rfl
    · rename_i payload
      have howner : ownedCancellation acc.verifyStage (raisedEscalation seq actor payload).session
          = acc.docket.roster.cancelledOwner (raisedEscalation seq actor payload).session := rfl
      unfold foldFacts foldEscalationRaised Roster.note Roster.raise
      dsimp only
      rw [howner]
      cases acc.docket.roster.cancelledOwner (raisedEscalation seq actor payload).session <;> rfl
    · rename_i payload
      have hfind : Keyed.find? OpenEscalation.id payload.id acc.openEscalations
          = Keyed.find? OpenEscalation.id payload.id acc.docket.roster.opened := rfl
      unfold foldFacts foldEscalationAnswered Roster.note Roster.answer
      dsimp only
      rw [hfind]
      cases Keyed.find? OpenEscalation.id payload.id acc.docket.roster.opened with
      | none => rfl
      | some opened =>
        unfold Docket.roster BuildAcc.docket
        dsimp only
        split <;> rfl
    · rfl
    · exact absurd hd Bool.false_ne_true
  · have hd := Bool.eq_false_of_not_eq_true hd
    rw [foldFacts_docket acc hd]
    unfold Roster.note
    split
    · rename_i payload hb
      exact absurd hb (hc payload)
    -- what else a roster takes in is on the docket
    all_goals first
      | rename_i hb
        rw [hb] at hd
        exact absurd hd.symm Bool.false_ne_true
      | rfl

/-- **What an event does to the roster.** -/
theorem foldEvent_roster {acc next : BuildAcc} {event : AbEvent}
    (h : foldEvent acc event = .ok next) :
    next.docket.roster
      = { acc.docket with
          stage := advanceVerifyStage acc.verifyStage event }.roster.note event := by
  obtain ⟨staged, hs, hn⟩ := foldEvent_docket h
  rw [hn, ← hs]
  by_cases hc : ∃ payload, event.body = .verify (.cancelled payload)
  · obtain ⟨payload, hb⟩ := hc
    have hfacts : (foldFacts (foldSuperseded staged event.body) event).docket
        = (foldSuperseded staged event.body).docket := by
      refine foldFacts_docket _ ?_
      rw [hb]
      rfl
    rw [hfacts]
    unfold foldSuperseded Roster.note
    rw [hb]
    exact foldl_supersedeOne_roster _ staged
  · have hc : ∀ payload, event.body ≠ .verify (.cancelled payload) := fun payload hb =>
      hc ⟨payload, hb⟩
    rw [foldSuperseded_of_not_cancelled staged hc]
    exact foldFacts_roster staged hc

/-! ## 2. Ids -/

section Lists

variable {α : Type} {p : α → Bool}

/-- What is left keeps its order. -/
theorem spliceFirst_sublist (xs : List α) : (spliceFirst p xs).Sublist xs := by
  induction xs with
  | nil => exact List.Sublist.refl _
  | cons x xs ih =>
    unfold spliceFirst
    split
    · exact List.sublist_cons_self x xs
    · exact ih.cons_cons x

/-- What does not match is left. -/
theorem mem_spliceFirst {x : α} (h : p x = false) : ∀ {xs : List α}, x ∈ xs →
    x ∈ spliceFirst p xs
  | y :: ys, hx => by
    unfold spliceFirst
    rcases List.mem_cons.mp hx with rfl | hx
    · rw [h, if_neg Bool.false_ne_true]
      exact List.mem_cons_self
    · split
      · exact hx
      · exact List.mem_cons_of_mem y (mem_spliceFirst h hx)

/-- The first one is the only one. -/
theorem not_mem_spliceFirst {x : α} (hp : p x = true) : ∀ {xs : List α}, xs.countP p ≤ 1 →
    x ∉ spliceFirst p xs
  | [], _, hx => absurd hx List.not_mem_nil
  | y :: ys, hc, hx => by
    unfold spliceFirst at hx
    split at hx
    · rename_i hy
      rw [List.countP_cons_of_pos hy] at hc
      have hpos := List.countP_pos_iff.mpr ⟨x, hx, hp⟩
      omega
    · rename_i hy
      rw [List.countP_cons_of_neg hy] at hc
      rcases List.mem_cons.mp hx with rfl | hx
      · exact hy hp
      · exact not_mem_spliceFirst hp hc hx

/-- Of what is there at most once, two finds are one. -/
theorem eq_of_countP_le_one : ∀ {xs : List α}, xs.countP p ≤ 1 → ∀ {x y : α}, x ∈ xs → y ∈ xs →
    p x = true → p y = true → x = y
  | [], _, _, _, hx, _, _, _ => absurd hx List.not_mem_nil
  | z :: zs, hc, x, y, hx, hy, hpx, hpy => by
    by_cases hz : p z = true
    · rw [List.countP_cons_of_pos hz] at hc
      have hnone : ∀ w ∈ zs, p w ≠ true := fun w hw hpw => by
        have hpos := List.countP_pos_iff.mpr ⟨w, hw, hpw⟩
        omega
      rcases List.mem_cons.mp hx with rfl | hx
      · rcases List.mem_cons.mp hy with rfl | hy
        · rfl
        · exact absurd hpy (hnone y hy)
      · exact absurd hpx (hnone x hx)
    · rw [List.countP_cons_of_neg hz] at hc
      rcases List.mem_cons.mp hx with rfl | hx
      · exact absurd hpx hz
      · rcases List.mem_cons.mp hy with rfl | hy
        · exact absurd hpy hz
        · exact eq_of_countP_le_one hc hx hy hpx hpy

end Lists

/-- Whether an escalation has the id. -/
def OpenEscalation.named (id : String) (escalation : OpenEscalation) : Bool :=
  decide (escalation.id = id)

theorem mem_put {escalation other : OpenEscalation} {xs : List OpenEscalation}
    (h : other ∈ Keyed.put OpenEscalation.id escalation xs) : other ∈ xs ∨ other = escalation := by
  unfold Keyed.put at h
  split at h
  · obtain ⟨x, hx, he⟩ := List.mem_map.mp h
    split at he
    · exact Or.inr he.symm
    · exact Or.inl (he ▸ hx)
  · rcases List.mem_append.mp h with h | h
    · exact Or.inl h
    · exact Or.inr (List.mem_singleton.mp h)

/-- Putting an escalation replaces the one of its name. -/
theorem countP_put (id : String) (escalation : OpenEscalation) (xs : List OpenEscalation) :
    (Keyed.put OpenEscalation.id escalation xs).countP (OpenEscalation.named id)
      ≤ xs.countP (OpenEscalation.named id) + (if escalation.id = id then 1 else 0) := by
  unfold Keyed.put
  split
  · have hsame : OpenEscalation.named id ∘ (fun other : OpenEscalation =>
        if other.id = escalation.id then escalation else other) = OpenEscalation.named id := by
      funext other
      show decide ((if other.id = escalation.id then escalation else other).id = id)
        = decide (other.id = id)
      split
      · rename_i he
        rw [he]
      · rfl
    rw [List.countP_map, hsame]
    exact Nat.le_add_right _ _
  · rw [List.countP_append, List.countP_singleton]
    unfold OpenEscalation.named
    split <;> simp_all

namespace Roster

variable {roster : Roster}

@[simp] theorem cancelledOwner_supersede (escalation : AnyEscalation) :
    (roster.supersede escalation).cancelledOwner = roster.cancelledOwner := by
  unfold supersede
  split <;> rfl

/-- A sweep raises nothing. -/
theorem supersede_sublist (roster : Roster) (escalation : AnyEscalation) :
    (roster.supersede escalation).all.Sublist roster.all := by
  unfold supersede
  split
  · exact List.Sublist.refl _
  · unfold all Keyed.erase
    exact List.filter_sublist.append ((spliceFirst_sublist roster.answered).map _)

theorem supersede_abort {escalation : AnyEscalation} {command : PendingCommand}
    (h : command ∈ (roster.supersede escalation).abort) : command ∈ roster.abort := by
  unfold supersede at h
  split at h
  · exact h
  · unfold withdrawAbort at h
    split at h
    · split at h
      · exact List.mem_of_mem_filter h
      · exact h
    · exact h

/-- A swept id is gone, where it was there once. -/
theorem not_mem_supersede {escalation : AnyEscalation} {cancellation : VerifyCancellation}
    (h : roster.cancelledOwner escalation.base.session = some cancellation)
    (hcount : roster.all.countP (OpenEscalation.named escalation.base.id) ≤ 1)
    {other : OpenEscalation} (ho : other ∈ (roster.supersede escalation).all) :
    other.id ≠ escalation.base.id := by
  intro hid
  unfold supersede at ho
  rw [h] at ho
  unfold all at ho hcount
  rw [List.countP_append, List.countP_map] at hcount
  rcases List.mem_append.mp ho with ho | ho
  · unfold Keyed.erase at ho
    exact (of_decide_eq_true (List.mem_filter.mp ho).2) hid
  · obtain ⟨answered, ha, rfl⟩ := List.mem_map.mp ho
    have hone : roster.answered.countP (fun e => e.id = escalation.base.id) ≤ 1 :=
      le_trans (Nat.le_add_left _ _) hcount
    exact not_mem_spliceFirst (p := fun e : AnsweredEscalation => e.id = escalation.base.id)
      (decide_eq_true hid) hone ha

/-- **The sweep**: nothing it finds cancelled is left, where its id was there once. -/
theorem sweep_kept : ∀ {escalations : List AnyEscalation} {roster : Roster},
    (escalations.foldl supersede roster).all.Sublist roster.all ∧
      (escalations.foldl supersede roster).cancelledOwner = roster.cancelledOwner ∧
      ∀ escalation ∈ escalations, (roster.cancelledOwner escalation.base.session).isSome = true →
        roster.all.countP (OpenEscalation.named escalation.base.id) ≤ 1 →
        ∀ other ∈ (escalations.foldl supersede roster).all, other.id ≠ escalation.base.id
  | [], roster => ⟨List.Sublist.refl _, rfl, fun _ h => absurd h List.not_mem_nil⟩
  | first :: rest, roster => by
    obtain ⟨hsub, howner, hgone⟩ := @sweep_kept rest (roster.supersede first)
    have hfirst := supersede_sublist roster first
    rw [List.foldl_cons]
    refine ⟨hsub.trans hfirst, howner.trans (cancelledOwner_supersede first),
      fun escalation he hcancelled hcount other ho => ?_⟩
    rcases List.mem_cons.mp he with rfl | he
    · obtain ⟨cancellation, hc⟩ := Option.isSome_iff_exists.mp hcancelled
      exact not_mem_supersede hc hcount (hsub.subset ho)
    · refine hgone escalation he ?_ (hfirst.countP_le.trans hcount) other ho
      rw [cancelledOwner_supersede]
      exact hcancelled

/-- An abort that an answer asked for leaves with the answer, where its id was there once. -/
theorem sweep_abort {roster : Roster} {answered : AnsweredEscalation} {command : PendingCommand}
    (ha : answered ∈ roster.answered) (hseq : command.seq = answered.answeredSeq)
    (hresolution : answered.resolution = .abort)
    (hcount : roster.all.countP (OpenEscalation.named answered.id) ≤ 1) :
    ∀ {escalations : List AnyEscalation} {current : Roster},
      (∀ escalation ∈ escalations, escalation ∈ roster.snapshot) →
      (command ∈ current.abort → answered ∈ current.answered) →
      command ∈ (escalations.foldl supersede current).abort →
        answered ∈ (escalations.foldl supersede current).answered
  | [], _, _, h => h
  | first :: rest, current, hsnapshot, h => by
    rw [List.foldl_cons]
    refine sweep_abort ha hseq hresolution hcount
      (fun escalation he => hsnapshot escalation (List.mem_cons_of_mem _ he)) ?_
    intro hcommand
    have hold := h (supersede_abort hcommand)
    unfold supersede at hcommand ⊢
    split at hcommand
    · exact hold
    · rename_i cancellation hcancelled
      by_cases hid : answered.id = first.base.id
      · -- the one escalation of the id is the answered one, and takes the abort with it
        exfalso
        have hfirst := hsnapshot first List.mem_cons_self
        unfold all at hcount
        rw [List.countP_append, List.countP_map] at hcount
        rcases List.mem_append.mp hfirst with hfirst | hfirst
        · obtain ⟨opened, ho, rfl⟩ := List.mem_map.mp hfirst
          have hopen : 0 < roster.opened.countP (OpenEscalation.named answered.id) :=
            List.countP_pos_iff.mpr ⟨opened, ho, decide_eq_true hid.symm⟩
          have hanswered : 0 < roster.answered.countP
              (OpenEscalation.named answered.id ∘
                fun other : AnsweredEscalation => other.toOpenEscalation) :=
            List.countP_pos_iff.mpr ⟨answered, ha, decide_eq_true rfl⟩
          omega
        · obtain ⟨other, ho, rfl⟩ := List.mem_map.mp hfirst
          have hsame : other = answered :=
            eq_of_countP_le_one (le_trans (Nat.le_add_left _ _) hcount) ho ha
              (decide_eq_true hid.symm) (decide_eq_true rfl)
          rw [hsame] at hcommand
          unfold withdrawAbort at hcommand
          dsimp only at hcommand
          rw [if_pos hresolution] at hcommand
          exact (of_decide_eq_true (List.mem_filter.mp hcommand).2) hseq
      · exact mem_spliceFirst (p := fun e : AnsweredEscalation => e.id = first.base.id)
          (decide_eq_false hid) hold

/-- The maps of the stage. -/
def maps (roster : Roster) :
    ObjectMap String MemberKey × ObjectMap MemberKey Nat × ObjectMap MemberKey VerifyCancellation :=
  (roster.owners, roster.outcomes, roster.cancellations)

/-- A sweep touches none of the maps that decide on it. -/
theorem supersede_maps (escalation : AnyEscalation) :
    (roster.supersede escalation).maps = roster.maps := by
  unfold supersede
  split <;> rfl

theorem sweep_maps : ∀ (escalations : List AnyEscalation) (roster : Roster),
    (escalations.foldl supersede roster).maps = roster.maps
  | [], _ => rfl
  | escalation :: rest, roster => by
    rw [List.foldl_cons, sweep_maps rest, supersede_maps]

theorem raise_maps (escalation : OpenEscalation) :
    (roster.raise escalation).maps = roster.maps := by
  unfold raise
  split <;> rfl

/-- Of the events the roster takes in, none moves the maps. -/
theorem note_maps (event : AbEvent) : (roster.note event).maps = roster.maps := by
  unfold note
  split
  · exact sweep_maps roster.snapshot roster
  · unfold complete
    dsimp only
    split <;> rfl
  · exact raise_maps _
  · exact raise_maps _
  · unfold answer
    split <;> rfl
  · rfl
  · rfl
  · rfl

theorem cancelledOwner_eq (roster other : Roster) (h : roster.maps = other.maps) :
    roster.cancelledOwner = other.cancelledOwner := by
  have howners : roster.owners = other.owners := congrArg Prod.fst h
  have hcancellations : roster.cancellations = other.cancellations :=
    congrArg (fun maps => maps.2.2) h
  unfold cancelledOwner
  rw [howners, hcancellations]

end Roster

/-! ## 3. Raises and sessions of a log -/

/-- The event raises an escalation of the id. -/
def raises (id : String) (event : AbEvent) : Bool :=
  match event.body with
  | .escalationRaised payload => decide (payload.id = id)
  | .phase (.deferralEscalated payload) => decide (payload.id = id)
  | _ => false

/-- The log raises the id once at most. -/
def RaisedOnce (events : List AbEvent) (id : String) : Prop := events.countP (raises id) ≤ 1

/-- The escalation the event raises. -/
def raisedBy? (event : AbEvent) : Option OpenEscalation :=
  match event.body with
  | .escalationRaised payload => some (raisedEscalation event.seq event.actor payload)
  | .phase (.deferralEscalated payload) => some (deferralEscalation event.seq payload)
  | _ => none

theorem raises_eq (id : String) (event : AbEvent) :
    raises id event = (raisedBy? event).any (OpenEscalation.named id) := by
  unfold raises raisedBy?
  split <;> rfl

theorem seq_of_raisedBy? {event : AbEvent} {escalation : OpenEscalation}
    (h : raisedBy? event = some escalation) : escalation.seq = event.seq := by
  unfold raisedBy? at h
  split at h <;> cases h <;> rfl

/-- The event records a start of the session. -/
def StartsSession (session : Option String) (event : AbEvent) : Prop :=
  ∃ payload, event.body = .session (.started payload) ∧ session = some payload.session

/-- What is raised once in a log is raised at most once before. -/
theorem RaisedOnce.of_snoc {events : List AbEvent} {event : AbEvent} {id : String}
    (h : RaisedOnce (events ++ [event]) id) : RaisedOnce events id := by
  unfold RaisedOnce at h ⊢
  rw [List.countP_append] at h
  omega

/-- Only a start of the session changes its owner. -/
theorem owners_advance (stage : VerifyStageState) (event : AbEvent) {session : String}
    (h : ¬StartsSession (some session) event) :
    (advanceVerifyStage stage event).owners.get? session = stage.owners.get? session := by
  obtain ⟨seq, ts, actor, body⟩ := event
  cases body with
  | session body =>
    cases body with
    | started payload =>
      have hne : session ≠ payload.session := fun he => h ⟨payload, rfl, by rw [he]⟩
      unfold advanceVerifyStage ownVerifyMember
      dsimp only
      split
      · split
        · exact get?_set_ne _ _ hne
        · rfl
      · rfl
    | _ => rfl
  | verify body =>
    cases body with
    | completed payload =>
      unfold advanceVerifyStage completeVerifyMember
      dsimp only
      split <;> rfl
    | cancelled payload =>
      unfold advanceVerifyStage cancelVerifyMember
      dsimp only
      split <;> rfl
    | _ => rfl
  | implement body =>
    cases body with
    | started payload =>
      unfold advanceVerifyStage attributeImplementation
      dsimp only
      split
      · rfl
      · split <;> rfl
    | completed payload => rfl
  | codeReview body =>
    cases body with
    | started round => rfl
    | verdict payload =>
      unfold advanceVerifyStage
      dsimp only
      split <;> rfl
  | spec body => cases body <;> rfl
  | reconcile body => cases body <;> rfl
  | integration body => cases body <;> rfl
  | execution body => cases body <;> rfl
  | _ => rfl

/-! ## 4. The invariant -/

/-- A completion as the reducer and the engine keep it. -/
def completionOf? (event : AbEvent) : Option VerifyResult :=
  match event.body with
  | .verify (.completed payload) => some ⟨normalizeVerifyCompletion payload, event.seq⟩
  | _ => none

theorem member_of_completionOf? {event : AbEvent} {result : VerifyResult}
    (h : completionOf? event = some result) :
    memberCompleted? event.body = some (verifyMemberKey result.step result.attempt) ∧
      result.seq = event.seq := by
  unfold completionOf? at h
  split at h
  · rename_i payload hb
    rw [hb, ← Option.some.inj h]
    refine ⟨?_, rfl⟩
    show some (verifyMemberKey payload.step payload.attempt) = some (verifyMemberKey
      (normalizeVerifyCompletion payload).step (normalizeVerifyCompletion payload).attempt)
    rw [normalizeVerifyCompletion_step, normalizeVerifyCompletion_attempt]
  · exact absurd h nofun

def keptResults (stage : VerifyStageState) (events : List AbEvent) : List VerifyResult :=
  (events.filterMap completionOf?).filter fun result =>
    stage.keeps (verifyMemberKey result.step result.attempt) result.seq

/-- The event is an answer that asks for an abort. -/
def AnswersAbort (id : String) (event : AbEvent) : Prop :=
  ∃ payload, event.body = .escalationAnswered payload ∧ payload.id = id ∧
    payload.resolution = .abort

/-- What holds of the docket of a log. -/
structure RosterKept (events : List AbEvent) (docket : Docket) : Prop where
  stage : CancellationsOf events docket.stage
  exclusive : ∀ key, docket.stage.hasOutcome key = true →
    docket.stage.hasCancellation key = false
  results : docket.results = keptResults docket.stage events
  raised : ∀ escalation ∈ docket.roster.all, ∃ event ∈ events, raisedBy? event = some escalation
  count : ∀ id, docket.roster.all.countP (OpenEscalation.named id) ≤ events.countP (raises id)
  late : ∀ escalation ∈ docket.roster.all, RaisedOnce events escalation.id →
    ∀ cancellation, docket.roster.cancelledOwner escalation.session = some cancellation →
    ∃ event ∈ events, StartsSession escalation.session event ∧
      escalation.seq < event.seq ∧ cancellation.seq < event.seq
  aborts : ∀ command ∈ docket.roster.abort, ∀ event ∈ events, event.seq = command.seq →
    ∀ id, AnswersAbort id event → RaisedOnce events id →
    ∃ answered ∈ docket.roster.answered, answered.id = id ∧
      answered.answeredSeq = command.seq ∧ answered.resolution = .abort
  past : ∀ command ∈ docket.roster.abort, ∃ event ∈ events, event.seq = command.seq

theorem rosterKept_nil : RosterKept [] initialBuildAcc.docket where
  stage := cancellationsOf_nil
  exclusive _ h := absurd h nofun
  results := rfl
  raised _ h := absurd h List.not_mem_nil
  count _ := le_rfl
  late _ h := absurd h List.not_mem_nil
  aborts _ h := absurd h List.not_mem_nil
  past _ h := absurd h List.not_mem_nil

section Step

variable {events : List AbEvent} {event : AbEvent}

/-- The stage refuses the later of an outcome and a cancellation. -/
theorem exclusive_advance {stage : VerifyStageState}
    (h : ∀ key, stage.hasOutcome key = true → stage.hasCancellation key = false)
    (key : MemberKey) (ho : (advanceVerifyStage stage event).hasOutcome key = true) :
    (advanceVerifyStage stage event).hasCancellation key = false := by
  rcases advanceVerifyStage_members stage event with ⟨payload, -, he⟩ | ⟨payload, -, he⟩ |
    ⟨-, -, houtcomes, hcancellations⟩
  · rw [he] at ho ⊢
    unfold completeVerifyMember at ho ⊢
    dsimp only at ho ⊢
    split
    · rename_i hc
      rw [if_pos hc] at ho
      exact h key ho
    · rename_i hc
      rw [if_neg hc, hasOutcome_set] at ho
      by_cases hk : key = verifyMemberKey (normalizeVerifyCompletion payload).step
          (normalizeVerifyCompletion payload).attempt
      · rw [hk]
        exact Bool.eq_false_of_not_eq_true hc
      · rw [if_neg hk] at ho
        exact h key ho
  · rw [he] at ho ⊢
    unfold cancelVerifyMember at ho ⊢
    dsimp only at ho ⊢
    split
    · rename_i hopen
      rw [if_pos hopen] at ho
      rw [Bool.and_eq_true, Bool.not_eq_true'] at hopen
      have ho : stage.hasOutcome key = true := ho
      unfold VerifyStageState.hasCancellation
      dsimp only
      rw [get?_set]
      split
      · rename_i hk
        rw [hk, hopen.1] at ho
        exact absurd ho nofun
      · exact h key ho
    · rename_i hclosed
      rw [if_neg hclosed] at ho
      exact h key ho
  · unfold VerifyStageState.hasOutcome at ho
    unfold VerifyStageState.hasCancellation
    rw [houtcomes] at ho
    rw [hcancellations]
    exact h key ho

/-- An event decides nothing about completions before it. -/
theorem keeps_advance {stage : VerifyStageState} {key : MemberKey} {seq : Nat}
    (hlt : seq < event.seq) :
    (advanceVerifyStage stage event).keeps key seq = stage.keeps key seq := by
  rcases advanceVerifyStage_members stage event with ⟨payload, -, he⟩ | ⟨payload, -, he⟩ |
    ⟨-, -, -, hcancellations⟩
  · rw [he]
    unfold completeVerifyMember
    dsimp only
    split <;> rfl
  · rw [he]
    unfold cancelVerifyMember
    dsimp only
    split
    · rename_i hopen
      rw [Bool.and_eq_true, Bool.not_eq_true', Bool.not_eq_true'] at hopen
      unfold VerifyStageState.keeps
      dsimp only
      rw [get?_set]
      by_cases hk : key = verifyMemberKey payload.step payload.attempt
      · have hnone : stage.cancellations.get? key = none := by
          rw [hk]
          exact Option.not_isSome_iff_eq_none.mp (Bool.not_eq_true _ ▸ hopen.2)
        rw [if_pos hk, hnone]
        exact decide_eq_true hlt
      · rw [if_neg hk]
    · rfl
  · unfold VerifyStageState.keeps
    rw [hcancellations]

end Step

namespace Roster

variable {roster : Roster} {event : AbEvent}

/-- An escalation of a cancelled owner is not raised. -/
theorem raise_mem {escalation other : OpenEscalation} (h : other ∈ (roster.raise escalation).all) :
    other ∈ roster.all ∨
      (other = escalation ∧ roster.cancelledOwner escalation.session = none) := by
  unfold raise at h
  split at h
  · exact Or.inl h
  · rename_i hnone
    rcases List.mem_append.mp h with h | h
    · rcases mem_put h with h | h
      · exact Or.inl (List.mem_append_left _ h)
      · exact Or.inr ⟨h, hnone⟩
    · exact Or.inl (List.mem_append_right _ h)

theorem raise_countP (id : String) (escalation : OpenEscalation) :
    (roster.raise escalation).all.countP (OpenEscalation.named id)
      ≤ roster.all.countP (OpenEscalation.named id)
        + (if (some escalation).any (OpenEscalation.named id) then 1 else 0) := by
  unfold raise
  split
  · exact Nat.le_add_right _ _
  · have hput := countP_put id escalation roster.opened
    have hnamed : ((some escalation).any (OpenEscalation.named id) = true) = (escalation.id = id) :=
      propext decide_eq_true_iff
    unfold all
    dsimp only
    rw [List.countP_append, List.countP_append]
    simp only [hnamed]
    omega

theorem answer_mem {seq : Nat} {actor : Actor} {payload : EscalationAnswered}
    {other : OpenEscalation} (h : other ∈ (roster.answer seq actor payload).all) :
    other ∈ roster.all := by
  unfold answer at h
  split at h
  · exact h
  · rename_i opened hfind
    rcases List.mem_append.mp h with h | h
    · exact List.mem_append_left _ (List.mem_of_mem_filter h)
    · dsimp only at h
      rw [List.map_append] at h
      rcases List.mem_append.mp h with h | h
      · exact List.mem_append_right _ h
      · rw [List.mem_singleton.mp h]
        exact List.mem_append_left _ (Keyed.mem_of_find? hfind)

theorem answer_countP {seq : Nat} {actor : Actor} {payload : EscalationAnswered} (id : String) :
    (roster.answer seq actor payload).all.countP (OpenEscalation.named id)
      ≤ roster.all.countP (OpenEscalation.named id) := by
  unfold answer
  split
  · exact le_rfl
  · rename_i opened hfind
    have hkey := Keyed.key_of_find? hfind
    have hlast : (answeredEscalation opened seq payload).toOpenEscalation = opened := rfl
    unfold all
    dsimp only
    rw [List.map_append, List.countP_append, List.countP_append, List.countP_append,
      List.map_singleton, hlast, List.countP_singleton]
    by_cases hid : opened.id = id
    · have hgone : (Keyed.erase OpenEscalation.id payload.id roster.opened).countP
          (OpenEscalation.named id) = 0 := by
        refine List.countP_eq_zero.mpr fun other ho hn => ?_
        have hne := of_decide_eq_true (List.mem_filter.mp ho).2
        exact hne ((of_decide_eq_true hn).trans (hid.symm.trans hkey))
      have hwas : 0 < roster.opened.countP (OpenEscalation.named id) :=
        List.countP_pos_iff.mpr ⟨opened, Keyed.mem_of_find? hfind, decide_eq_true hid⟩
      split <;> omega
    · have hle : (Keyed.erase OpenEscalation.id payload.id roster.opened).countP
          (OpenEscalation.named id) ≤ roster.opened.countP (OpenEscalation.named id) :=
        List.Sublist.countP_le List.filter_sublist
      have hn : ¬opened.named id = true := fun hn => hid (of_decide_eq_true hn)
      rw [if_neg hn]
      omega

/-- An escalation of the roster was there, or is raised by a session that nothing cancels. -/
theorem note_mem {other : OpenEscalation} (h : other ∈ (roster.note event).all) :
    other ∈ roster.all ∨
      (raisedBy? event = some other ∧ roster.cancelledOwner other.session = none) := by
  unfold note at h
  split at h
  · exact Or.inl (sweep_kept.1.subset h)
  · unfold complete at h
    dsimp only at h
    split at h <;> exact Or.inl h
  · rename_i payload hb
    rcases raise_mem h with h | ⟨rfl, hnone⟩
    · exact Or.inl h
    · refine Or.inr ⟨?_, hnone⟩
      unfold raisedBy?
      rw [hb]
  · rename_i payload hb
    rcases raise_mem h with h | ⟨rfl, hnone⟩
    · exact Or.inl h
    · refine Or.inr ⟨?_, hnone⟩
      unfold raisedBy?
      rw [hb]
  · exact Or.inl (answer_mem h)
  · exact Or.inl h
  · exact Or.inl h
  · exact Or.inl h

/-- An event adds at most the escalation it raises. -/
theorem note_countP (id : String) :
    (roster.note event).all.countP (OpenEscalation.named id)
      ≤ roster.all.countP (OpenEscalation.named id) + (if raises id event then 1 else 0) := by
  rw [raises_eq]
  unfold note raisedBy?
  split
  · exact sweep_kept.1.countP_le.trans (Nat.le_add_right _ _)
  · unfold complete
    dsimp only
    split <;> exact Nat.le_add_right _ _
  · rename_i payload hb
    rw [hb]
    exact raise_countP id _
  · rename_i payload hb
    rw [hb]
    exact raise_countP id _
  · exact (answer_countP id).trans (Nat.le_add_right _ _)
  · exact Nat.le_add_right _ _
  · exact Nat.le_add_right _ _
  · exact Nat.le_add_right _ _

theorem sweep_abort_subset : ∀ {escalations : List AnyEscalation} {roster : Roster}
    {command : PendingCommand}, command ∈ (escalations.foldl supersede roster).abort →
      command ∈ roster.abort
  | [], _, _, h => h
  | first :: rest, roster, command, h => by
    rw [List.foldl_cons] at h
    exact supersede_abort (sweep_abort_subset h)

/-- A pending abort was pending, or is the event's. -/
theorem note_abort {command : PendingCommand} (h : command ∈ (roster.note event).abort) :
    command ∈ roster.abort ∨ command.seq = event.seq := by
  unfold note at h
  split at h
  · exact Or.inl (sweep_abort_subset h)
  · unfold complete at h
    dsimp only at h
    split at h <;> exact Or.inl h
  · unfold raise at h
    split at h <;> exact Or.inl h
  · unfold raise at h
    split at h <;> exact Or.inl h
  · unfold answer at h
    split at h
    · exact Or.inl h
    · dsimp only at h
      split at h
      · rcases List.mem_append.mp h with h | h
        · exact Or.inl h
        · rw [List.mem_singleton.mp h]
          exact Or.inr rfl
      · exact Or.inl h
  · rcases List.mem_append.mp h with h | h
    · exact Or.inl h
    · rw [List.mem_singleton.mp h]
      exact Or.inr rfl
  · exact absurd h List.not_mem_nil
  · exact Or.inl h

/-- An answered escalation stays but for a sweep. -/
theorem note_answered (h : ∀ payload, event.body ≠ .verify (.cancelled payload))
    {answered : AnsweredEscalation} (ha : answered ∈ roster.answered) :
    answered ∈ (roster.note event).answered := by
  unfold note
  split
  · rename_i payload hb
    exact absurd hb (h payload)
  · unfold complete
    dsimp only
    split <;> exact ha
  · unfold raise
    split <;> exact ha
  · unfold raise
    split <;> exact ha
  · unfold answer
    split
    · exact ha
    · exact List.mem_append_left _ ha
  · exact ha
  · exact ha
  · exact ha

/-- An abort that is pending since an answer comes with the answered escalation. -/
theorem note_answersAbort {id : String} (h : AnswersAbort id event) {command : PendingCommand}
    (hc : command ∈ (roster.note event).abort) :
    command ∈ roster.abort ∨ ∃ answered ∈ (roster.note event).answered, answered.id = id ∧
      answered.answeredSeq = event.seq ∧ answered.resolution = .abort := by
  obtain ⟨payload, hb, hid, hresolution⟩ := h
  unfold note at hc ⊢
  rw [hb] at hc ⊢
  dsimp only at hc ⊢
  unfold answer at hc ⊢
  cases hfind : Keyed.find? OpenEscalation.id payload.id roster.opened with
  | none =>
    rw [hfind] at hc
    exact Or.inl hc
  | some opened =>
    refine Or.inr ⟨answeredEscalation opened event.seq payload,
      List.mem_append_right _ List.mem_cons_self, ?_, rfl, hresolution⟩
    exact (Keyed.key_of_find? hfind).trans hid

/-- The results an event leaves. -/
theorem note_results :
    (roster.note event).results = roster.results ++ ((completionOf? event).filter fun result =>
      (roster.cancellations.get? (verifyMemberKey result.step result.attempt)).isNone).toList := by
  have hsweep : ∀ (escalations : List AnyEscalation) (roster : Roster),
      (escalations.foldl supersede roster).results = roster.results := by
    intro escalations
    induction escalations with
    | nil => exact fun _ => rfl
    | cons first rest ih =>
      intro roster
      rw [List.foldl_cons, ih]
      unfold supersede
      split <;> rfl
  by_cases hcompleted : ∃ payload, event.body = .verify (.completed payload)
  · obtain ⟨payload, hb⟩ := hcompleted
    unfold note completionOf?
    rw [hb]
    dsimp only
    unfold complete
    dsimp only
    rw [Option.filter_some]
    cases roster.cancellations.get? (verifyMemberKey
        (normalizeVerifyCompletion payload).step (normalizeVerifyCompletion payload).attempt) with
    | none => rfl
    | some cancellation => exact (List.append_nil _).symm
  · have hnone : completionOf? event = none := by
      unfold completionOf?
      split
      · rename_i payload hb
        exact absurd ⟨payload, hb⟩ hcompleted
      · rfl
    rw [hnone]
    refine Eq.trans ?_ (List.append_nil _).symm
    unfold note
    split
    · exact hsweep roster.snapshot roster
    · rename_i payload hb
      exact absurd ⟨payload, hb⟩ hcompleted
    · unfold raise
      split <;> rfl
    · unfold raise
      split <;> rfl
    · unfold answer
      split <;> rfl
    · rfl
    · rfl
    · rfl

end Roster

section Kept

variable {events : List AbEvent} {event : AbEvent}

theorem hasCancellation_congr {stage other : VerifyStageState}
    (h : other.cancellations = stage.cancellations) (key : MemberKey) :
    other.hasCancellation key = stage.hasCancellation key := by
  unfold VerifyStageState.hasCancellation
  rw [h]

/-- The results of a longer log. -/
theorem keptResults_snoc {stage next : VerifyStageState} (hstage : CancellationsOf events stage)
    (hlast : ∀ e ∈ events, e.seq < event.seq)
    (hnext : next.cancellations = (advanceVerifyStage stage event).cancellations) :
    keptResults next (events ++ [event])
      = keptResults stage events ++ ((completionOf? event).filter fun result =>
        (next.cancellations.get? (verifyMemberKey result.step result.attempt)).isNone).toList := by
  have hkeeps : ∀ key seq, next.keeps key seq = (advanceVerifyStage stage event).keeps key seq := by
    intro key seq
    unfold VerifyStageState.keeps
    rw [hnext]
  unfold keptResults
  rw [List.filterMap_append, List.filter_append]
  congr 1
  · refine List.filter_congr fun result hr => ?_
    obtain ⟨earlier, he, hc⟩ := List.mem_filterMap.mp hr
    have hseq : result.seq = earlier.seq := (member_of_completionOf? hc).2
    rw [hkeeps, keeps_advance (hseq ▸ hlast earlier he)]
  · cases hc : completionOf? event with
    | none =>
      rw [List.filterMap_cons_none hc]
      rfl
    | some result =>
      have hseq : result.seq = event.seq := (member_of_completionOf? hc).2
      have hsame : (advanceVerifyStage stage event).cancellations = stage.cancellations := by
        unfold completionOf? at hc
        split at hc
        · rename_i payload hb
          unfold advanceVerifyStage completeVerifyMember
          rw [hb]
          dsimp only
          split <;> rfl
        · exact absurd hc nofun
      rw [List.filterMap_cons_some hc, List.filterMap_nil, Option.filter_some]
      -- a cancellation of the member is of an earlier event
      have hkeep : next.keeps (verifyMemberKey result.step result.attempt) result.seq
          = (next.cancellations.get? (verifyMemberKey result.step result.attempt)).isNone := by
        unfold VerifyStageState.keeps
        cases hget : next.cancellations.get? (verifyMemberKey result.step result.attempt) with
        | none => rfl
        | some cancellation =>
          rw [hnext, hsame] at hget
          have hlt := CancellationsOf.lt_of_takesEffect hlast (hstage.effective _ _ hget)
          exact decide_eq_false (by omega)
      rw [List.filter_cons, List.filter_nil, hkeep]
      cases (next.cancellations.get? (verifyMemberKey result.step result.attempt)).isNone <;> rfl

/-- The roster once the stage has read an event. -/
def Docket.advanced (docket : Docket) (event : AbEvent) : Roster :=
  { docket with stage := advanceVerifyStage docket.stage event }.roster

section Note

variable {docket : Docket} (h : RosterKept events docket)
include h

/-- The sweep of a cancelled member leaves no escalation of it that was raised once. -/
theorem RosterKept.not_cancelledOwner_of_sweep {payload : VerifyCancelled}
    (hb : event.body = .verify (.cancelled payload)) {escalation : OpenEscalation}
    (hold : escalation ∈ docket.roster.all)
    (he : escalation ∈ ((docket.advanced event).note event).all)
    (honce : RaisedOnce (events ++ [event]) escalation.id) :
    (docket.advanced event).cancelledOwner escalation.session = none := by
  cases hc : (docket.advanced event).cancelledOwner escalation.session with
  | none => rfl
  | some cancellation =>
    exfalso
    unfold Roster.note at he
    rw [hb] at he
    have hmem : ∃ any ∈ (docket.advanced event).snapshot, any.base = escalation := by
      rcases List.mem_append.mp hold with hm | hm
      · exact ⟨.opened escalation, List.mem_append_left _ (List.mem_map_of_mem hm), rfl⟩
      · obtain ⟨answered, ha, rfl⟩ := List.mem_map.mp hm
        exact ⟨.answered answered, List.mem_append_right _ (List.mem_map_of_mem ha), rfl⟩
    obtain ⟨any, hm, rfl⟩ := hmem
    have hcount : (docket.advanced event).all.countP (OpenEscalation.named any.base.id) ≤ 1 :=
      (h.count _).trans honce.of_snoc
    exact Roster.sweep_kept.2.2 any hm (by rw [hc]; rfl) hcount any.base he rfl

variable (hlast : ∀ e ∈ events, e.seq < event.seq)
include hlast

/-- What stands was raised by an earlier event. -/
theorem RosterKept.raised_lt {escalation : OpenEscalation}
    (he : escalation ∈ docket.roster.all) : escalation.seq < event.seq := by
  obtain ⟨earlier, hm, hr⟩ := h.raised escalation he
  rw [seq_of_raisedBy? hr]
  exact hlast earlier hm

/-- An escalation of a cancelled member was there before the session owned the member. -/
theorem RosterKept.late_note {escalation : OpenEscalation}
    (he : escalation ∈ ((docket.advanced event).note event).all)
    (honce : RaisedOnce (events ++ [event]) escalation.id) {cancellation : VerifyCancellation}
    (hc : (docket.advanced event).cancelledOwner escalation.session = some cancellation) :
    ∃ start ∈ events ++ [event], StartsSession escalation.session start ∧
      escalation.seq < start.seq ∧ cancellation.seq < start.seq := by
  rcases Roster.note_mem he with hold | ⟨-, hnone⟩
  · have hold : escalation ∈ docket.roster.all := hold
    by_cases hcancelled : ∃ payload, event.body = .verify (.cancelled payload)
    · obtain ⟨payload, hb⟩ := hcancelled
      rw [h.not_cancelledOwner_of_sweep hb hold he honce] at hc
      cases hc
    · have hsame : (docket.advanced event).cancellations = docket.roster.cancellations := by
        show (advanceVerifyStage docket.stage event).cancellations = _
        rcases advanceVerifyStage_members docket.stage event with ⟨payload, -, hs⟩ |
          ⟨payload, hb, -⟩ | ⟨-, -, -, hs⟩
        · rw [hs]
          unfold completeVerifyMember
          dsimp only
          split <;> rfl
        · exact absurd ⟨payload, hb⟩ hcancelled
        · exact hs
      by_cases hstarts : StartsSession escalation.session event
      · refine ⟨event, List.mem_append_right _ List.mem_cons_self, hstarts,
          h.raised_lt hlast hold, ?_⟩
        unfold Roster.cancelledOwner at hc
        obtain ⟨key, -, hg⟩ := Option.bind_eq_some_iff.mp hc
        rw [hsame] at hg
        exact CancellationsOf.lt_of_takesEffect hlast (h.stage.effective key cancellation hg)
      · have hwas : docket.roster.cancelledOwner escalation.session = some cancellation := by
          rw [← hc]
          unfold Roster.cancelledOwner
          rw [hsame]
          cases hs : escalation.session with
          | none => rfl
          | some session =>
            rw [hs] at hstarts
            have howners := owners_advance docket.stage event hstarts
            show (docket.stage.owners.get? session).bind _
              = ((advanceVerifyStage docket.stage event).owners.get? session).bind _
            rw [howners]
        obtain ⟨start, hm, hrest⟩ := h.late escalation hold honce.of_snoc cancellation hwas
        exact ⟨start, List.mem_append_left _ hm, hrest⟩
  · rw [hnone] at hc
    cases hc

/-- A pending abort keeps the answer it came from. -/
theorem RosterKept.aborts_note {command : PendingCommand}
    (hc : command ∈ ((docket.advanced event).note event).abort) {answer : AbEvent}
    (ha : answer ∈ events ++ [event]) (hseq : answer.seq = command.seq) {id : String}
    (hanswers : AnswersAbort id answer) (honce : RaisedOnce (events ++ [event]) id) :
    ∃ answered ∈ ((docket.advanced event).note event).answered, answered.id = id ∧
      answered.answeredSeq = command.seq ∧ answered.resolution = .abort := by
  by_cases hnew : command.seq = event.seq
  · have hsame : answer = event := by
      rcases List.mem_append.mp ha with ha | ha
      · have hlt := hlast answer ha
        omega
      · exact List.mem_singleton.mp ha
    rw [hsame] at hanswers
    rcases Roster.note_answersAbort hanswers hc with hold | ⟨answered, hm, hid, hs, hr⟩
    · obtain ⟨earlier, hm, hs⟩ := h.past command hold
      have hlt := hlast earlier hm
      omega
    · exact ⟨answered, hm, hid, hs.trans hnew.symm, hr⟩
  · have hold : command ∈ docket.roster.abort := by
      rcases Roster.note_abort hc with hold | hs
      · exact hold
      · exact absurd hs hnew
    have hbefore : answer ∈ events := by
      rcases List.mem_append.mp ha with ha | ha
      · exact ha
      · rw [List.mem_singleton.mp ha] at hseq
        exact absurd hseq.symm hnew
    obtain ⟨answered, hm, hid, hs, hr⟩ :=
      h.aborts command hold answer hbefore hseq id hanswers honce.of_snoc
    have hm : answered ∈ (docket.advanced event).answered := hm
    refine ⟨answered, ?_, hid, hs, hr⟩
    by_cases hcancelled : ∃ payload, event.body = .verify (.cancelled payload)
    · obtain ⟨payload, hb⟩ := hcancelled
      unfold Roster.note at hc ⊢
      rw [hb] at hc ⊢
      refine Roster.sweep_abort hm hs.symm hr ?_ (fun _ hx => hx) (fun _ => hm) hc
      rw [hid]
      exact (h.count id).trans honce.of_snoc
    · exact Roster.note_answered (fun payload hb => hcancelled ⟨payload, hb⟩) hm

end Note

/-- **One event keeps the roster.** -/
theorem RosterKept.foldEvent {acc next : BuildAcc} (h : RosterKept events acc.docket)
    (hlast : ∀ e ∈ events, e.seq < event.seq) (hf : foldEvent acc event = .ok next) :
    RosterKept (events ++ [event]) next.docket := by
  have hroster : next.docket.roster = (acc.docket.advanced event).note event :=
    foldEvent_roster hf
  have hadvanced : CancellationsOf (events ++ [event]) (advanceVerifyStage acc.verifyStage event) :=
    h.stage.advance hlast
  have hmaps : next.docket.roster.maps = (acc.docket.advanced event).maps := by
    rw [hroster, Roster.note_maps]
  have howner : next.docket.roster.cancelledOwner = (acc.docket.advanced event).cancelledOwner :=
    Roster.cancelledOwner_eq _ _ hmaps
  have houtcomes : next.docket.stage.outcomes
      = (advanceVerifyStage acc.verifyStage event).outcomes :=
    congrArg (fun maps => maps.2.1) hmaps
  have hcancellations : next.docket.stage.cancellations
      = (advanceVerifyStage acc.verifyStage event).cancellations :=
    congrArg (fun maps => maps.2.2) hmaps
  have hhas : ∀ key, next.docket.stage.hasOutcome key
      = (advanceVerifyStage acc.verifyStage event).hasOutcome key := by
    intro key
    unfold VerifyStageState.hasOutcome
    rw [houtcomes]
  have hcan := hasCancellation_congr hcancellations
  have hstage : CancellationsOf (events ++ [event]) next.docket.stage := by
    refine ⟨fun key ho => hadvanced.outcome key (hhas key ▸ ho),
      fun key hn hc => hhas key ▸ hadvanced.completed key (hcan key ▸ hn) hc,
      fun key cancellation hg => hadvanced.effective key cancellation (hcancellations ▸ hg),
      fun key seq ht => hcan key ▸ hadvanced.cancelled key seq ht⟩
  refine ⟨hstage, fun key ho => ?_, ?_, fun escalation he => ?_, fun id => ?_,
    fun escalation he honce cancellation hc => ?_,
    fun command hc answer ha hseq id hanswers honce => ?_, fun command hc => ?_⟩
  · rw [hcan]
    exact exclusive_advance h.exclusive key (hhas key ▸ ho)
  · have hresults : next.docket.results = next.docket.roster.results := rfl
    have hbase : (acc.docket.advanced event).results = acc.docket.results := rfl
    have hbaseCancellations : (acc.docket.advanced event).cancellations
        = next.docket.stage.cancellations := hcancellations.symm
    rw [hresults, hroster, Roster.note_results, hbase, h.results, hbaseCancellations,
      keptResults_snoc h.stage hlast hcancellations]
  · rw [hroster] at he
    rcases Roster.note_mem he with he | ⟨he, -⟩
    · obtain ⟨earlier, hm, hr⟩ := h.raised escalation he
      exact ⟨earlier, List.mem_append_left _ hm, hr⟩
    · exact ⟨event, List.mem_append_right _ List.mem_cons_self, he⟩
  · rw [hroster, List.countP_append, List.countP_singleton]
    have hnote : ((acc.docket.advanced event).note event).all.countP (OpenEscalation.named id)
        ≤ acc.docket.roster.all.countP (OpenEscalation.named id)
          + (if raises id event then 1 else 0) :=
      Roster.note_countP id
    have hcount := h.count id
    omega
  · rw [howner] at hc
    rw [hroster] at he
    exact h.late_note hlast he honce hc
  · rw [hroster] at hc ⊢
    exact h.aborts_note hlast hc ha hseq hanswers honce
  · rw [hroster] at hc
    rcases Roster.note_abort hc with hold | hs
    · obtain ⟨earlier, hm, hs⟩ := h.past command hold
      exact ⟨earlier, List.mem_append_left _ hm, hs⟩
    · exact ⟨event, List.mem_append_right _ List.mem_cons_self, hs.symm⟩

end Kept

/-! ## 5. The reducer and the engine -/

theorem completions_candidatesOf (event : AbEvent) :
    (candidatesOf event.seq event.body).filterMap (·.completion?)
      = (completionOf? event).toList := by
  obtain ⟨seq, ts, actor, body⟩ := event
  cases body with
  | plan body => cases body <;> rfl
  | planReview body => cases body <;> rfl
  | implement body => cases body <;> rfl
  | codeReview body => cases body <;> rfl
  | verify body => cases body <;> rfl
  | finalize body => cases body <;> rfl
  | reconcile body => cases body <;> rfl
  | _ => rfl

/-- The completions of the index are those of the log after the restart boundary. -/
theorem verifyCompleted_eq (events : List AbEvent) :
    (indexLog events).verifyCompleted = (events.filterMap completionOf?).filter
      fun result => (indexLog events).restartSeq < result.seq := by
  have hrestart : (indexLog events).restartSeq = lastRevised events :=
    (candidates_foldLogIndex events).2
  rw [(indexLog_fields events).1, hrestart]
  unfold fresh candidatesSince candidatesOfLog
  generalize lastRevised events = boundary
  clear hrestart
  induction events with
  | nil => rfl
  | cons event rest ih =>
    rw [List.flatMap_cons, List.filter_append, List.filterMap_append, ih]
    have hone : ((candidatesOf event.seq event.body).filter fun c => boundary < c.seq).filterMap
        (·.completion?)
          = ((completionOf? event).filter fun result => boundary < result.seq).toList := by
      have hcompletions : (candidatesOf event.seq event.body).filterMap (·.completion?)
          = (completionOf? event).toList := completions_candidatesOf event
      have hseq : ∀ result, completionOf? event = some result → result.seq = event.seq :=
        fun result hr => (member_of_completionOf? hr).2
      by_cases hlt : boundary < event.seq
      · have hself : (candidatesOf event.seq event.body).filter (fun c => boundary < c.seq)
            = candidatesOf event.seq event.body := by
          refine List.filter_eq_self.mpr fun c hc => ?_
          rw [seq_of_mem_candidatesOf hc]
          exact decide_eq_true hlt
        rw [hself, hcompletions]
        cases hc : completionOf? event with
        | none => rfl
        | some result =>
          rw [Option.filter_some, if_pos (decide_eq_true (hseq result hc ▸ hlt))]
      · have hnil : (candidatesOf event.seq event.body).filter (fun c => boundary < c.seq)
            = [] := by
          refine List.filter_eq_nil_iff.mpr fun c hc => ?_
          rw [seq_of_mem_candidatesOf hc]
          exact fun hn => hlt (of_decide_eq_true hn)
        rw [hnil]
        cases hc : completionOf? event with
        | none => rfl
        | some result =>
          rw [Option.filter_some, if_neg fun hn => hlt (hseq result hc ▸ of_decide_eq_true hn)]
          rfl
    rw [hone]
    cases hc : completionOf? event with
    | none =>
      rw [List.filterMap_cons_none hc]
      rfl
    | some result =>
      rw [List.filterMap_cons_some hc, List.filter_cons, Option.filter_some]
      split <;> rfl

/-- The roster of a reduced log. -/
theorem rosterKept_reduceBuild {events : List StoredEvent}
    (hp : events.Pairwise (fun a b => a.seq < b.seq)) {state : BuildState}
    (h : reduceBuild events = .ok state) :
    ∃ next : BuildAcc, RosterKept (projectEvents events) next.docket ∧
      state.verifyStage = next.verifyStage ∧ state.verify.results = next.verify.results ∧
      state.openEscalations = next.openEscalations ∧
      state.answeredEscalations = next.answeredEscalations ∧
      ∀ command ∈ state.pendingCommands, command.command = .abort →
        command ∈ next.pending.abort := by
  obtain ⟨acc, next, hacc, hfold, hstage, hresults, hopen, hanswered, -, hpending⟩ :=
    reduceBuild_docket h
  have hkinds : next.docket.control.Kinds := by
    rw [foldlM_foldEvent_control hfold, hacc]
    refine List.reverseRecOn (projectEvents events) ?_ fun events event ih => ?_
    · exact ⟨fun _ hc => absurd hc List.not_mem_nil, fun _ hc => absurd hc List.not_mem_nil⟩
    · rw [List.foldl_append, List.foldl_cons, List.foldl_nil]
      exact ih.note event
  refine ⟨next, docket_induction rosterKept_nil
    (fun events event acc next hlast hkept hf => hkept.foldEvent hlast hf)
    (projectEvents_pairwise hp) hacc hfold, hstage, hresults, hopen, hanswered,
    fun command hc habort => ?_⟩
  rw [hpending, List.mem_insertionSort] at hc
  rcases List.mem_append.mp hc with hc | hc
  · rcases List.mem_append.mp hc with hc | hc
    · rw [hkinds.1 command hc] at habort
      exact absurd habort nofun
    · rw [hkinds.2 command hc] at habort
      exact absurd habort nofun
  · exact hc

/-- Nothing is left of an escalation: not open, not answered, and no abort of its answer. -/
structure Gone (log : List AbEvent) (state : BuildState) (id : String) : Prop where
  opened : ∀ escalation ∈ state.openEscalations, escalation.id ≠ id
  answered : ∀ escalation ∈ state.answeredEscalations, escalation.id ≠ id
  aborts : ∀ command ∈ state.pendingCommands, command.command = .abort →
    ∀ answer ∈ log, answer.seq = command.seq → ¬AnswersAbort id answer

/-- **The cancellation of a verify member is final**: it excludes an outcome, no later completion
of the member is a result, the results after the restart boundary are the engine's completions,
and an escalation of its id alone is gone when its session, recorded to own the member before the
raise or before the cancellation, belongs to the member. -/
theorem cancellation_final {events : List StoredEvent}
    (hp : events.Pairwise (fun a b => a.seq < b.seq)) {state : BuildState}
    (h : reduceBuild events = .ok state) :
    (∀ key, state.verifyStage.hasOutcome key = true →
        state.verifyStage.hasCancellation key = false) ∧
      (∀ result ∈ state.verify.results, ¬CancelledBefore (projectEvents events)
        (verifyMemberKey result.step result.attempt) result.seq) ∧
      (state.verify.results.filter fun result =>
          (indexLog (projectEvents events)).restartSeq < result.seq)
        = (effectiveCompletions state.engineFacts
            (indexLog (projectEvents events))).verifyCompleted ∧
      ∀ raised ∈ projectEvents events, ∀ payload role session key cancellation,
        raised.body = .escalationRaised payload → raised.actor = .agent role session →
        state.verifyStage.owners.get? session = some key →
        state.verifyStage.cancellations.get? key = some cancellation →
        RaisedOnce (projectEvents events) payload.id →
        (∀ start ∈ projectEvents events, StartsSession (some session) start →
          start.seq ≤ raised.seq ∨ start.seq ≤ cancellation.seq) →
        Gone (projectEvents events) state payload.id := by
  obtain ⟨next, hkept, hstage, hresults, hopen, hanswered, habort⟩ := rosterKept_reduceBuild hp h
  have hlog := projectEvents_pairwise hp
  generalize projectEvents events = log at hkept hlog ⊢
  refine ⟨fun key ho => ?_, fun result hr => ?_, ?_, ?_⟩
  · rw [hstage] at ho ⊢
    exact hkept.exclusive key ho
  · rw [hresults] at hr
    have hr : result ∈ keptResults next.docket.stage log := hkept.results ▸ hr
    obtain ⟨hr, hkeep⟩ := List.mem_filter.mp hr
    obtain ⟨event, he, hc⟩ := List.mem_filterMap.mp hr
    obtain ⟨hkey, hseq⟩ := member_of_completionOf? hc
    rw [hseq] at hkeep ⊢
    exact (kept_iff hlog hkept.stage he hkey).mp hkeep
  · have hmine : state.verify.results = keptResults next.docket.stage log :=
      hresults.trans hkept.results
    have heffective : (effectiveCompletions state.engineFacts (indexLog log)).verifyCompleted
        = (indexLog log).verifyCompleted.filter fun result =>
          next.docket.stage.keeps (verifyMemberKey result.step result.attempt) result.seq := by
      unfold effectiveCompletions BuildState.engineFacts
      rw [hstage]
      rfl
    rw [hmine, heffective, verifyCompleted_eq]
    unfold keptResults
    rw [List.filter_filter, List.filter_filter]
    refine List.filter_congr fun result _ => ?_
    rw [Bool.and_comm]
  · intro raised hraised payload role session key cancellation hb hactor howner hcancelled honce
      hstarts
    have hgone : ∀ escalation ∈ next.docket.roster.all, escalation.id ≠ payload.id := by
      intro escalation he hid
      obtain ⟨event, hm, hr⟩ := hkept.raised escalation he
      have hsame : event = raised := by
        refine eq_of_countP_le_one honce hm hraised ?_ ?_
        · rw [raises_eq, hr]
          exact decide_eq_true hid
        · unfold raises
          rw [hb]
          exact decide_eq_true rfl
      rw [hsame] at hr
      unfold raisedBy? at hr
      rw [hb] at hr
      have hescalation : raisedEscalation raised.seq raised.actor payload = escalation :=
        Option.some.inj hr
      have hsession : escalation.session = some session := by
        rw [← hescalation]
        unfold raisedEscalation
        rw [hactor]
      have hseq : escalation.seq = raised.seq := by
        rw [← hescalation]
        rfl
      have hc : next.docket.roster.cancelledOwner escalation.session = some cancellation := by
        unfold Roster.cancelledOwner
        rw [hsession]
        show (next.verifyStage.owners.get? session).bind next.verifyStage.cancellations.get? = _
        rw [← hstage, howner]
        exact hcancelled
      obtain ⟨start, hm, hs, hafter, hlater⟩ :=
        hkept.late escalation he (hid ▸ honce) cancellation hc
      rw [hsession] at hs
      rcases hstarts start hm hs with hle | hle <;> omega
    refine ⟨fun escalation he => ?_, fun escalation he => ?_, fun command hc hk answer ha hseq hx =>
      ?_⟩
    · rw [hopen] at he
      exact hgone escalation (List.mem_append_left _ he)
    · rw [hanswered] at he
      exact hgone escalation.toOpenEscalation
        (List.mem_append_right _ (List.mem_map_of_mem he))
    · obtain ⟨answered, hm, hid, -, -⟩ :=
        hkept.aborts command (habort command hc hk) answer ha hseq payload.id hx honce
      exact hgone answered.toOpenEscalation
        (List.mem_append_right _ (List.mem_map_of_mem hm)) hid

def memberEvent (seq : Nat) (body : EventBody) : StoredEvent := .known (kernelEvent seq body)

/-- The session starts on the first attempt of a step. -/
def ownedBy (seq : Nat) (session step : String) : StoredEvent :=
  memberEvent seq (.session (.started ⟨none, none, session, "verify", "r", none, none, none,
    .verify step, some 1, none, none⟩))

def startedMember (seq : Nat) (step : String) : StoredEvent :=
  memberEvent seq (.verify (.started ⟨none, none, none, step, 1, none⟩))

def cancelledMember (seq : Nat) (step : String) : StoredEvent :=
  memberEvent seq (.verify (.cancelled ⟨none, none, none, step, 1, step⟩))

def raisedIn (seq : Nat) (session : String) : StoredEvent :=
  .known ⟨seq, 0, .agent "verify" session,
    .escalationRaised ⟨"e", .setup, none, .agent, none, "?", none⟩⟩

def answeredAbort (seq : Nat) : StoredEvent :=
  memberEvent seq (.escalationAnswered ⟨"e", "stop", .abort, none, none, none⟩)

/-- Raised and answered before the cancellation. -/
def sweptLog : List StoredEvent :=
  [startedMember 1 "unit", ownedBy 2 "s" "unit", raisedIn 3 "s", answeredAbort 4,
    cancelledMember 5 "unit"]

/-- The session is recorded to own the member after the raise and the cancellation. -/
def lateOwnerLog : List StoredEvent :=
  [startedMember 1 "unit", raisedIn 2 "s", cancelledMember 3 "unit", ownedBy 4 "s" "unit"]

/-- Two sessions raise one id, and the member of the second one is cancelled. -/
def reusedIdLog : List StoredEvent :=
  [startedMember 1 "lint", startedMember 2 "unit", ownedBy 3 "t" "lint", ownedBy 4 "s" "unit",
    raisedIn 5 "t", answeredAbort 6, raisedIn 7 "s", answeredAbort 8, cancelledMember 9 "unit"]

theorem exists_of_isSome {events : List StoredEvent}
    (h : (reduceBuild events).toOption.isSome = true) : ∃ state,
      reduceBuild events = .ok state := by
  cases hs : reduceBuild events with
  | error message =>
    rw [hs] at h
    exact absurd h nofun
  | ok state => exact ⟨state, rfl⟩

theorem cancellation_final_sweptLog :
    ∃ state, reduceBuild sweptLog = .ok state ∧
      (∀ key, state.verifyStage.hasOutcome key = true →
        state.verifyStage.hasCancellation key = false) ∧
      (∀ result ∈ state.verify.results, ¬CancelledBefore (projectEvents sweptLog)
        (verifyMemberKey result.step result.attempt) result.seq) ∧
      (state.verify.results.filter fun result =>
          (indexLog (projectEvents sweptLog)).restartSeq < result.seq)
        = (effectiveCompletions state.engineFacts
            (indexLog (projectEvents sweptLog))).verifyCompleted ∧
      ∀ raised ∈ projectEvents sweptLog, ∀ payload role session key cancellation,
        raised.body = .escalationRaised payload → raised.actor = .agent role session →
        state.verifyStage.owners.get? session = some key →
        state.verifyStage.cancellations.get? key = some cancellation →
        RaisedOnce (projectEvents sweptLog) payload.id →
        (∀ start ∈ projectEvents sweptLog, StartsSession (some session) start →
          start.seq ≤ raised.seq ∨ start.seq ≤ cancellation.seq) →
        Gone (projectEvents sweptLog) state payload.id := by
  obtain ⟨state, hs⟩ := exists_of_isSome
    (show (reduceBuild sweptLog).toOption.isSome = true by decide +kernel)
  exact ⟨state, hs, cancellation_final (by decide +kernel) hs⟩

/-- What a state shows of a session and of the seqs of the escalations that are left. -/
structure LeftView where
  cancelled : Bool
  opened : List Nat
  answered : List Nat
  deriving DecidableEq

def leftView (session : String) (state : BuildState) : LeftView where
  cancelled := ((state.verifyStage.owners.get? session).bind
    state.verifyStage.cancellations.get?).isSome
  opened := state.openEscalations.map (·.seq)
  answered := state.answeredEscalations.map (·.seq)

/-- No escalation that a session of a cancelled member raised is open or answered. -/
def Swept (events : List StoredEvent) : Prop :=
  ∀ state, reduceBuild events = .ok state → ∀ raised ∈ projectEvents events,
    ∀ payload role session, raised.body = .escalationRaised payload →
    raised.actor = .agent role session → (leftView session state).cancelled = true →
    raised.seq ∉ (leftView session state).opened ∧ raised.seq ∉ (leftView session state).answered

theorem exists_leftView {events : List StoredEvent} {session : String} {view : LeftView}
    (h : (reduceBuild events).toOption.map (leftView session) = some view) :
    ∃ state, reduceBuild events = .ok state ∧ leftView session state = view := by
  cases hs : reduceBuild events with
  | error message =>
    rw [hs] at h
    exact absurd h nofun
  | ok state =>
    rw [hs] at h
    exact ⟨state, rfl, Option.some.inj h⟩

/-- **An owner that is recorded late, and an id that is used twice**, leave an escalation of a
cancelled member. -/
theorem not_cancellation_final : ¬Swept lateOwnerLog ∧ ¬Swept reusedIdLog := by
  constructor
  · intro h
    obtain ⟨state, hs, hv⟩ : ∃ state, reduceBuild lateOwnerLog = .ok state ∧
        leftView "s" state = ⟨true, [2], []⟩ := exists_leftView (by decide +kernel)
    have hleft := h state hs ⟨2, 0, .agent "verify" "s",
      .escalationRaised ⟨"e", .setup, none, .agent, none, "?", none⟩⟩
      (List.mem_cons_of_mem _ List.mem_cons_self) _ _ _ rfl rfl (by rw [hv])
    rw [hv] at hleft
    exact hleft.1 List.mem_cons_self
  · intro h
    obtain ⟨state, hs, hv⟩ : ∃ state, reduceBuild reusedIdLog = .ok state ∧
        leftView "s" state = ⟨true, [], [7]⟩ := exists_leftView (by decide +kernel)
    have hmem : (⟨7, 0, .agent "verify" "s",
        .escalationRaised ⟨"e", .setup, none, .agent, none, "?", none⟩⟩ : AbEvent)
          ∈ projectEvents reusedIdLog := by
      show _ ∈ [_, _, _, _, _, _, _, _, _]
      simp
    have hleft := h state hs _ hmem _ _ _ rfl rfl (by rw [hv])
    rw [hv] at hleft
    exact hleft.2 List.mem_cons_self

end Autobuild
