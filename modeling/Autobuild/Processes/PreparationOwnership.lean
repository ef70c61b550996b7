/-
# Ownership over a run

What the dispatcher holds in memory, and what the journal holds, agree with what happened.

* `AttemptHolds`: an attempt, in memory or in the journal, claims no more than happened, and knows
  the slug that was selected for it.
* `TraceHolds`: the attempts of the journal hold, and every entry so far is permitted.
* `ControlHolds`: what a stage of the dispatcher has established.
* `preparation_ownership`: all of it is kept.
-/
import Autobuild.Processes.PreparationRuns

namespace Autobuild

open PreparationTrace

/-! ## 1. Traces that grow -/

section Growth

variable {trace : PreparationTrace} {entry : PreparationEntry} {attempt slug : String}

theorem mem_journal {event : PreparationEvent} :
    event ∈ trace.journal ↔ .recorded event ∈ trace := by
  unfold journal
  rw [List.mem_filterMap]
  constructor
  · rintro ⟨entry, hmem, hevent⟩
    cases entry <;> cases hevent
    exact hmem
  · exact fun hmem => ⟨_, hmem, rfl⟩

theorem journal_record (event : PreparationEvent) :
    journal (trace ++ [.recorded event]) = trace.journal ++ [event] :=
  List.filterMap_append

theorem journal_quiet (h : entry.event? = none) : journal (trace ++ [entry]) = trace.journal := by
  unfold journal
  rw [List.filterMap_append, List.filterMap_cons_none h, List.filterMap_nil, List.append_nil]

theorem build_snoc (h : trace.build slug = none) :
    PreparationTrace.build (trace ++ [entry]) slug = entry.build? slug := by
  unfold PreparationTrace.build at *
  rw [List.findSome?_append, h]
  cases hb : entry.build? slug <;> simp [hb]

/-- A build stays what it is. -/
theorem build_kept {build : OwnedBuild} (h : trace.build slug = some build) :
    PreparationTrace.build (trace ++ [entry]) slug = some build := by
  unfold PreparationTrace.build at *
  rw [List.findSome?_append, h]
  rfl

theorem lastBuildRead_quiet (h : entry.buildRead? attempt = none) :
    lastBuildRead (trace ++ [entry]) attempt = trace.lastBuildRead attempt := by
  unfold lastBuildRead
  rw [List.filterMap_append, List.filterMap_cons_none h, List.filterMap_nil, List.append_nil]

theorem lastBuildRead_read (build : Option OwnedBuild) :
    lastBuildRead (trace ++ [.readBuild attempt slug build]) attempt = some (slug, build) := by
  have hread : (PreparationEntry.readBuild attempt slug build).buildRead? attempt
      = some (slug, build) := if_pos rfl
  unfold lastBuildRead
  rw [List.filterMap_append, List.filterMap_cons_some hread, List.filterMap_nil,
    List.getLast?_append, List.getLast?_singleton]
  rfl

theorem lastTicketRead_read (ref : TicketRef) (state : Option (Option String)) :
    lastTicketRead (trace ++ [.readTicket attempt ref state]) attempt = some (ref, state) := by
  have hread : (PreparationEntry.readTicket attempt ref state).ticketRead? attempt
      = some (ref, state) := if_pos rfl
  unfold lastTicketRead
  rw [List.filterMap_append, List.filterMap_cons_some hread, List.filterMap_nil,
    List.getLast?_append, List.getLast?_singleton]
  rfl

theorem lastTicketRead_quiet (h : entry.ticketRead? attempt = none) :
    lastTicketRead (trace ++ [entry]) attempt = trace.lastTicketRead attempt := by
  unfold lastTicketRead
  rw [List.filterMap_append, List.filterMap_cons_none h, List.filterMap_nil, List.append_nil]

theorem mem_snoc (h : entry ∈ trace) (other : PreparationEntry) : entry ∈ trace ++ [other] :=
  List.mem_append_left _ h

theorem mem_of_mem_snoc {other : PreparationEntry} (h : entry ∈ trace ++ [other])
    (hne : entry ≠ other) : entry ∈ trace := by
  rcases List.mem_append.mp h with h | h
  · exact h
  · exact absurd (List.mem_singleton.mp h) hne

theorem NotCreated.snoc (h : trace.NotCreated attempt)
    (hne : ∀ slug build, entry ≠ .created attempt slug build) :
    NotCreated (trace ++ [entry]) attempt :=
  fun slug build hmem => h slug build (mem_of_mem_snoc hmem (hne slug build).symm)

theorem NotHandedBack.snoc (h : trace.NotHandedBack attempt) (hne : ¬ entry.HandsBack attempt) :
    NotHandedBack (trace ++ [entry]) attempt := by
  intro other hmem
  rcases List.mem_append.mp hmem with hmem | hmem
  · exact h other hmem
  · rwa [List.mem_singleton.mp hmem]

end Growth

/-! ## 2. What an attempt knows -/

/-- An attempt, in memory or in the journal. -/
structure AttemptHolds (trace : PreparationTrace) (attempt : TicketPreparation) : Prop where
  intended : .recorded ⟨attempt.attempt, .intended attempt.ticket attempt.readyState
    attempt.claimedState⟩ ∈ trace
  claimed : attempt.claimed = true → .claimConfirmed attempt.attempt ∈ trace
  slug : ∀ slug, trace.Selected attempt.attempt slug → attempt.slug = some slug
  selected : ∀ slug, attempt.slug = some slug →
    .selected attempt.attempt slug ∈ trace ∧ slug ≠ ""

/-- An event says no more than happened. -/
def Justified (trace : PreparationTrace) (event : PreparationEvent) : Prop :=
  match event.body with
  | .intended _ _ _ => ∀ other ∈ trace.journal, other.attempt ≠ event.attempt
  | .claimed => .claimConfirmed event.attempt ∈ trace
  | .creationSelected slug => (∀ other, ¬ trace.Selected event.attempt other) ∧
      .selected event.attempt slug ∈ trace ∧ slug ≠ ""
  | .failed _ claimed _ _ => claimed = true → .claimConfirmed event.attempt ∈ trace
  | .recoveryFailed claimed _ _ _ _ =>
    claimed = some true → .claimConfirmed event.attempt ∈ trace
  | _ => True

structure TraceHolds (intake : Intake) (trace : PreparationTrace) : Prop where
  permitted : ∀ before entry after, trace = before ++ entry :: after →
    Permitted intake before entry
  held : ∀ attempt held, unresolved trace.journal attempt = some held →
    held.attempt = attempt ∧ AttemptHolds trace held
  created : ∀ attempt slug build, .created attempt slug build ∈ trace →
    trace.Selected attempt slug ∧ ∃ build, trace.build slug = some build

section Attempts

variable {intake : Intake} {trace : PreparationTrace} {entry : PreparationEntry}
  {attempt : TicketPreparation}

theorem AttemptHolds.snoc (h : AttemptHolds trace attempt)
    (hne : ∀ slug, entry ≠ .recorded ⟨attempt.attempt, .creationSelected slug⟩) :
    AttemptHolds (trace ++ [entry]) attempt where
  intended := mem_snoc h.intended _
  claimed hc := mem_snoc (h.claimed hc) _
  slug slug hs := h.slug slug (mem_of_mem_snoc hs (hne slug).symm)
  selected slug hs := ⟨mem_snoc (h.selected slug hs).1 _, (h.selected slug hs).2⟩

/-- **What an event makes of an attempt holds.** -/
theorem AttemptHolds.note {event : PreparationEvent} {held : Option TicketPreparation}
    {noted : TicketPreparation}
    (h : ∀ attempt, held = some attempt →
      attempt.attempt = event.attempt ∧ AttemptHolds trace attempt)
    (hjustified : Justified trace event) (hnoted : noteAttempt held event = some noted) :
    noted.attempt = event.attempt ∧ AttemptHolds (trace ++ [.recorded event]) noted := by
  obtain ⟨named, body⟩ := event
  cases body with
  | intended ticket readyState claimedState =>
    cases hnoted
    refine ⟨rfl, List.mem_append_right _ (List.mem_singleton_self _), fun hc => (by cases hc),
      fun slug hselected => ?_, fun slug hslug => (by cases hslug)⟩
    have hmem : .recorded ⟨named, .creationSelected slug⟩ ∈ trace :=
      mem_of_mem_snoc hselected fun he => (by cases he)
    exact absurd rfl (hjustified ⟨named, .creationSelected slug⟩ (mem_journal.mpr hmem))
  | resolved outcome reason => cases hnoted
  | claimed =>
    obtain ⟨attempt, hheld, rfl⟩ := Option.map_eq_some_iff.mp hnoted
    obtain ⟨rfl, hattempt⟩ := h attempt hheld
    have hkept : AttemptHolds (trace ++ [.recorded ⟨attempt.attempt, .claimed⟩]) attempt :=
      hattempt.snoc fun slug he => (by cases he)
    exact ⟨rfl, { hkept with claimed := fun _ => mem_snoc hjustified _ }⟩
  | creationSelected slug =>
    obtain ⟨attempt, hheld, rfl⟩ := Option.map_eq_some_iff.mp hnoted
    obtain ⟨rfl, hattempt⟩ := h attempt hheld
    obtain ⟨hnone, hselected, hne⟩ := hjustified
    refine ⟨rfl, mem_snoc hattempt.intended _, fun hc => mem_snoc (hattempt.claimed hc) _,
      fun other hother => ?_, fun other hother => ?_⟩
    · rcases List.mem_append.mp hother with hother | hother
      · exact absurd hother (hnone other)
      · cases List.mem_singleton.mp hother
        rfl
    · cases hother
      exact ⟨mem_snoc hselected _, hne⟩
  | handbackSelected state =>
    obtain ⟨attempt, hheld, rfl⟩ := Option.map_eq_some_iff.mp hnoted
    obtain ⟨rfl, hattempt⟩ := h attempt hheld
    have hkept : AttemptHolds
        (trace ++ [.recorded ⟨attempt.attempt, .handbackSelected state⟩]) attempt :=
      hattempt.snoc fun slug he => (by cases he)
    exact ⟨rfl, { hkept with }⟩
  | failed stage claimed handback error =>
    obtain ⟨attempt, hheld, rfl⟩ := Option.map_eq_some_iff.mp hnoted
    obtain ⟨rfl, hattempt⟩ := h attempt hheld
    have hkept : AttemptHolds
        (trace ++ [.recorded ⟨attempt.attempt, .failed stage claimed handback error⟩]) attempt :=
      hattempt.snoc fun slug he => (by cases he)
    exact ⟨rfl, { hkept with claimed := fun hc => mem_snoc (hjustified hc) _ }⟩
  | recoveryFailed claimed handback preparationError error retryAt =>
    obtain ⟨attempt, hheld, rfl⟩ := Option.map_eq_some_iff.mp hnoted
    obtain ⟨rfl, hattempt⟩ := h attempt hheld
    have hkept : AttemptHolds (trace ++ [.recorded ⟨attempt.attempt,
        .recoveryFailed claimed handback preparationError error retryAt⟩]) attempt :=
      hattempt.snoc fun slug he => (by cases he)
    refine ⟨rfl, { hkept with claimed := fun hc => ?_ }⟩
    rcases Bool.or_eq_true_iff.mp hc with hc | hc
    · exact hkept.claimed hc
    · refine mem_snoc (hjustified ?_) _
      cases claimed with
      | none => cases hc
      | some claimed => exact congrArg some hc

theorem permitted_snoc
    (h : ∀ before entry after, trace = before ++ entry :: after → Permitted intake before entry)
    (hentry : Permitted intake trace entry) :
    ∀ before other after, trace ++ [entry] = before ++ other :: after →
      Permitted intake before other := by
  intro before other after he
  cases after using List.reverseRecOn with
  | nil =>
    obtain ⟨rfl, hlast⟩ := List.append_inj' he rfl
    cases hlast
    exact hentry
  | append_singleton after last =>
    rw [← List.cons_append, ← List.append_assoc] at he
    obtain ⟨rfl, -⟩ := List.append_inj' he rfl
    exact h before other after rfl

theorem created_kept (h : TraceHolds intake trace)
    (hcreated : ∀ attempt slug build, entry = .created attempt slug build →
      trace.Selected attempt slug ∧ ∃ build, PreparationTrace.build (trace ++ [entry]) slug
        = some build) :
    ∀ attempt slug build, .created attempt slug build ∈ trace ++ [entry] →
      Selected (trace ++ [entry]) attempt slug ∧
        ∃ build, PreparationTrace.build (trace ++ [entry]) slug = some build := by
  intro attempt slug build hmem
  rcases List.mem_append.mp hmem with hmem | hmem
  · obtain ⟨hselected, build, hbuild⟩ := h.created attempt slug build hmem
    exact ⟨mem_snoc hselected _, build, build_kept hbuild⟩
  · obtain ⟨hselected, hbuild⟩ := hcreated attempt slug build (List.mem_singleton.mp hmem).symm
    exact ⟨mem_snoc hselected _, hbuild⟩

/-- An entry that is not an event. -/
theorem TraceHolds.snoc (h : TraceHolds intake trace) (hentry : Permitted intake trace entry)
    (hquiet : entry.event? = none)
    (hcreated : ∀ attempt slug build, entry = .created attempt slug build →
      trace.Selected attempt slug ∧ ∃ build, PreparationTrace.build (trace ++ [entry]) slug
        = some build) :
    TraceHolds intake (trace ++ [entry]) where
  permitted := permitted_snoc h.permitted hentry
  held attempt held hheld := by
    rw [journal_quiet hquiet] at hheld
    obtain ⟨hid, hattempt⟩ := h.held attempt held hheld
    refine ⟨hid, hattempt.snoc fun slug he => ?_⟩
    rw [he] at hquiet
    cases hquiet
  created := created_kept h hcreated

/-- **A justified event keeps the journal true.** -/
theorem TraceHolds.record (h : TraceHolds intake trace) {event : PreparationEvent}
    (hentry : Permitted intake trace (.recorded event)) (hjustified : Justified trace event) :
    TraceHolds intake (trace ++ [.recorded event]) where
  permitted := permitted_snoc h.permitted hentry
  held attempt held hheld := by
    rw [journal_record, unresolved_snoc] at hheld
    split_ifs at hheld with hsame
    · rw [hsame] at hheld ⊢
      exact AttemptHolds.note (fun attempt hattempt => h.held event.attempt attempt hattempt)
        hjustified hheld
    · obtain ⟨rfl, hattempt⟩ := h.held attempt held hheld
      refine ⟨rfl, hattempt.snoc fun slug he => ?_⟩
      cases he
      exact hsame rfl
  created := created_kept h fun _ _ _ he => (by cases he)

/-- An attempt without a slug created nothing. -/
theorem TraceHolds.notCreated_of_slug (h : TraceHolds intake trace)
    (hattempt : AttemptHolds trace attempt) (hslug : attempt.slug = none) :
    trace.NotCreated attempt.attempt := by
  intro slug build hmem
  have hsome := hattempt.slug slug (h.created _ _ _ hmem).1
  rw [hslug] at hsome
  cases hsome

/-- Nor did one whose slug has no build. -/
theorem TraceHolds.notCreated_of_build (h : TraceHolds intake trace)
    (hattempt : AttemptHolds trace attempt) {slug : String} (hslug : attempt.slug = some slug)
    (hbuild : trace.build slug = none) : trace.NotCreated attempt.attempt := by
  intro other build hmem
  obtain ⟨hselected, found, hfound⟩ := h.created _ _ _ hmem
  have hsome := hattempt.slug other hselected
  rw [hslug] at hsome
  cases hsome
  rw [hbuild] at hfound
  cases hfound

end Attempts

/-! ## 3. What a stage has established -/

/-- An attempt may be resolved so. -/
def MayResolve (intake : Intake) (trace : PreparationTrace) (attempt : TicketPreparation) :
    PreparationOutcome → Prop
  | .owned => ∃ slug build, attempt.slug = some slug ∧ trace.build slug = some build ∧
      build.Of intake.repo attempt.ticket
  | .handedBack => trace.NotCreated attempt.attempt
  | .bounced => trace.NotCreated attempt.attempt
  | _ => True

def DispatchStage.Holds (intake : Intake) (trace : PreparationTrace)
    (attempt : TicketPreparation) : DispatchStage → Prop
  | .claim => attempt.slug = none ∧ trace.NotHandedBack attempt.attempt
  | .lostClaim => True
  | .confirm => attempt.slug = none ∧ trace.NotHandedBack attempt.attempt ∧ attempt.claimed = true
  | .prepare => attempt.slug = none ∧ trace.NotHandedBack attempt.attempt
  | .selectHandback => attempt.slug = none
  | .bounce => attempt.slug = none
  | .bounced => attempt.slug = none
  | .select => (∀ slug, ¬ trace.Selected attempt.attempt slug) ∧
      trace.NotHandedBack attempt.attempt
  | .create => (∀ slug, attempt.slug = some slug → trace.Selected attempt.attempt slug) ∧
      trace.NotHandedBack attempt.attempt
  | .own => MayResolve intake trace attempt .owned
  | .failing => True

/-- The readback found no build. -/
def Looked (trace : PreparationTrace) (attempt : TicketPreparation) : Prop :=
  trace.NotCreated attempt.attempt ∧
    ∀ slug, trace.Selected attempt.attempt slug →
      trace.lastBuildRead attempt.attempt = some (slug, none)

def RecoveryStage.Holds (intake : Intake) (trace : PreparationTrace)
    (attempt : TicketPreparation) : RecoveryStage → Prop
  | .start => True
  | .ticket => Looked trace attempt
  | .transition ref => Looked trace attempt ∧ attempt.claimed = true ∧
      ∃ state, trace.lastTicketRead attempt.attempt = some (ref, some (some state)) ∧
        intake.toLowerCase state = intake.toLowerCase attempt.claimedState
  | .settle outcome _ => MayResolve intake trace attempt outcome
  | .failing => True

/-- Every unresolved attempt but this is for another ticket. -/
def ClearBut (intake : Intake) (journal : List PreparationEvent) (own : String)
    (ticket : TicketRef) : Prop :=
  ∀ attempt held, attempt ≠ own → unresolved journal attempt = some held →
    intake.ForOther ticket held

def ControlHolds (intake : Intake) (trace : PreparationTrace) : PreparationControl → Prop
  | .idle => True
  | .scanning ready => ∀ ticket ∈ ready, intake.Clear trace.journal ticket
  | .dispatching stage attempt ready => AttemptHolds trace attempt ∧
      (∀ ticket ∈ ready, ClearBut intake trace.journal attempt.attempt ticket) ∧
      stage.Holds intake trace attempt
  | .recovering stage attempt pending => AttemptHolds trace attempt ∧
      (∀ other ∈ pending, AttemptHolds trace other) ∧ stage.Holds intake trace attempt

structure PreparationHolds (intake : Intake) (system : PreparationSystem) : Prop where
  trace : TraceHolds intake system.trace
  control : ControlHolds intake system.trace system.control

section Stages

variable {intake : Intake} {trace : PreparationTrace} {attempt : TicketPreparation}
  {ready : List TicketRef} {pending : List TicketPreparation}

theorem permitted_resolved (hattempt : AttemptHolds trace attempt) {outcome : PreparationOutcome}
    (h : MayResolve intake trace attempt outcome) (reason : Option (List Nat)) :
    Permitted intake trace (.recorded ⟨attempt.attempt, .resolved outcome reason⟩) := by
  cases outcome with
  | owned =>
    obtain ⟨slug, build, hslug, hbuild, hof⟩ := h
    exact ⟨slug, build, attempt.ticket, attempt.readyState, attempt.claimedState,
      (hattempt.selected slug hslug).1, hattempt.intended, hbuild, hof⟩
  | handedBack => exact h
  | bounced => exact h
  | lostClaim => trivial
  | abandoned => trivial

/-- The append a stage awaits is permitted and justified. -/
theorem DispatchStage.event_ok (htrace : TraceHolds intake trace)
    (hattempt : AttemptHolds trace attempt) {stage : DispatchStage}
    (hstage : stage.Holds intake trace attempt) {body : PreparationBody}
    (hevent : stage.event? attempt = some body) :
    Permitted intake trace (.recorded ⟨attempt.attempt, body⟩) ∧
      Justified trace ⟨attempt.attempt, body⟩ := by
  cases stage with
  | lostClaim =>
    cases hevent
    exact ⟨trivial, trivial⟩
  | confirm =>
    cases hevent
    exact ⟨trivial, hattempt.claimed hstage.2.2⟩
  | selectHandback =>
    obtain ⟨state, -, rfl⟩ := Option.map_eq_some_iff.mp hevent
    exact ⟨trivial, trivial⟩
  | bounced =>
    cases hevent
    exact ⟨htrace.notCreated_of_slug hattempt hstage, trivial⟩
  | select =>
    obtain ⟨slug, hslug, rfl⟩ := Option.map_eq_some_iff.mp hevent
    exact ⟨trivial, hstage.1, hattempt.selected slug hslug⟩
  | own =>
    cases hevent
    have howned : MayResolve intake trace attempt .owned := hstage
    exact ⟨permitted_resolved hattempt howned none, trivial⟩
  | failing =>
    cases hevent
    exact ⟨trivial, hattempt.claimed⟩
  | claim => cases hevent
  | prepare => cases hevent
  | bounce => cases hevent
  | create => cases hevent

/-- An attempt holds over its own event. -/
theorem AttemptHolds.recorded (hattempt : AttemptHolds trace attempt) {body : PreparationBody}
    (hslug : ∀ slug, body = .creationSelected slug → attempt.slug = some slug) :
    AttemptHolds (trace ++ [.recorded ⟨attempt.attempt, body⟩]) attempt where
  intended := mem_snoc hattempt.intended _
  claimed hc := mem_snoc (hattempt.claimed hc) _
  slug slug hs := by
    rcases List.mem_append.mp hs with hs | hs
    · exact hattempt.slug slug hs
    · have he := List.mem_singleton.mp hs
      simp only [PreparationEntry.recorded.injEq, PreparationEvent.mk.injEq, true_and] at he
      exact hslug slug he.symm
  selected slug hs := ⟨mem_snoc (hattempt.selected slug hs).1 _, (hattempt.selected slug hs).2⟩

theorem AttemptHolds.failedAt (hattempt : AttemptHolds trace attempt) (stage error : String) :
    AttemptHolds trace (attempt.failedAt stage error) := { hattempt with }

theorem ClearBut.record {own : String} {ticket : TicketRef}
    (h : ClearBut intake trace.journal own ticket) (body : PreparationBody) :
    ClearBut intake (journal (trace ++ [.recorded ⟨own, body⟩])) own ticket := by
  intro other held hne hheld
  rw [journal_record, unresolved_snoc, if_neg hne] at hheld
  exact h other held hne hheld

/-- Once the attempt is resolved, none is for the tickets that are left. -/
theorem ClearBut.resolved {own : String} {ticket : TicketRef}
    (h : ClearBut intake trace.journal own ticket) (outcome : PreparationOutcome)
    (reason : Option (List Nat)) :
    intake.Clear (journal (trace ++ [.recorded ⟨own, .resolved outcome reason⟩])) ticket := by
  intro other held hheld
  rw [journal_record, unresolved_snoc] at hheld
  split_ifs at hheld with hsame
  · cases hheld
  · exact h other held hsame hheld

theorem nextRecovery_holds {batch : List TicketPreparation}
    (h : ∀ attempt ∈ batch, AttemptHolds trace attempt) :
    ControlHolds intake trace (nextRecovery batch) := by
  cases batch with
  | nil => trivial
  | cons attempt pending =>
    obtain ⟨hattempt, hpending⟩ := List.forall_mem_cons.mp h
    exact ⟨hattempt, hpending, trivial⟩

/-- What a failure leaves. -/
theorem DispatchStage.thrown_holds (hattempt : AttemptHolds trace attempt)
    (hready : ∀ ticket ∈ ready, ClearBut intake trace.journal attempt.attempt ticket)
    (stage : DispatchStage) (name error : String) :
    ControlHolds intake trace (stage.thrown attempt ready name error) := by
  have hfailing : ControlHolds intake trace
      (.dispatching .failing (attempt.failedAt name error) ready) :=
    ⟨hattempt.failedAt name error, hready, trivial⟩
  cases stage with
  | own => trivial
  | failing => exact ⟨hattempt, fun _ ho => absurd ho List.not_mem_nil, trivial⟩
  | _ => exact hfailing

/-- What a confirmed append leaves. -/
theorem DispatchStage.next_holds (hattempt : AttemptHolds trace attempt)
    (hready : ∀ ticket ∈ ready, ClearBut intake trace.journal attempt.attempt ticket)
    {stage : DispatchStage} (hstage : stage.Holds intake trace attempt) {body : PreparationBody}
    (hevent : stage.event? attempt = some body) :
    ControlHolds intake (trace ++ [.recorded ⟨attempt.attempt, body⟩])
      (stage.next attempt ready) := by
  have hrecord := fun ticket ht => (hready ticket ht).record body
  cases stage with
  | lostClaim =>
    cases hevent
    exact fun ticket ht => (hready ticket ht).resolved _ _
  | confirm =>
    cases hevent
    exact ⟨hattempt.recorded fun _ he => (by cases he), hrecord, hstage.1,
      NotHandedBack.snoc hstage.2.1 not_false⟩
  | selectHandback =>
    obtain ⟨state, -, rfl⟩ := Option.map_eq_some_iff.mp hevent
    exact ⟨hattempt.recorded fun _ he => (by cases he), hrecord, hstage⟩
  | bounced =>
    cases hevent
    exact fun ticket ht => (hready ticket ht).resolved _ _
  | select =>
    obtain ⟨slug, hslug, rfl⟩ := Option.map_eq_some_iff.mp hevent
    refine ⟨hattempt.recorded fun other he => ?_, hrecord, fun other ho => ?_,
      NotHandedBack.snoc hstage.2 not_false⟩
    · cases he
      exact hslug
    · rw [hslug] at ho
      cases ho
      exact List.mem_append_right _ (List.mem_singleton_self _)
  | own =>
    cases hevent
    exact fun ticket ht => (hready ticket ht).resolved _ _
  | failing =>
    cases hevent
    exact ⟨hattempt.recorded fun _ he => (by cases he),
      fun _ ho => absurd ho List.not_mem_nil, trivial⟩
  | claim => cases hevent
  | prepare => cases hevent
  | bounce => cases hevent
  | create => cases hevent

/-- An append by another attempt, or one that failed. -/
theorem DispatchStage.lost_holds (hattempt : AttemptHolds trace attempt)
    (hready : ∀ ticket ∈ ready, ClearBut intake trace.journal attempt.attempt ticket)
    {stage : DispatchStage} {body : PreparationBody} (hevent : stage.event? attempt = some body)
    (name error : String) :
    ControlHolds intake (trace ++ [.recorded ⟨attempt.attempt, body⟩])
      (stage.thrown attempt ready name error) := by
  refine stage.thrown_holds (hattempt.recorded fun slug he => ?_)
    (fun ticket ht => (hready ticket ht).record body) name error
  subst he
  cases stage with
  | select =>
    obtain ⟨other, hslug, he⟩ := Option.map_eq_some_iff.mp hevent
    cases he
    exact hslug
  | selectHandback =>
    obtain ⟨other, -, he⟩ := Option.map_eq_some_iff.mp hevent
    cases he
  | _ => cases hevent

/-- Handing back is done by attempts of the journal. -/
theorem TraceHolds.intended_of_handsBack (h : TraceHolds intake trace) {id : String}
    {entry : PreparationEntry} (hmem : entry ∈ trace) (hback : entry.HandsBack id) :
    ∃ event ∈ trace.journal, event.attempt = id := by
  obtain ⟨before, after, hsplit⟩ := List.append_of_mem hmem
  have hpermitted := h.permitted before entry after hsplit
  have hintended : ∀ ticket readyState claimedState,
      .recorded ⟨id, .intended ticket readyState claimedState⟩ ∈ before →
        ∃ event ∈ trace.journal, event.attempt = id := by
    intro ticket readyState claimedState hbefore
    refine ⟨⟨id, .intended ticket readyState claimedState⟩, mem_journal.mpr ?_, rfl⟩
    rw [hsplit]
    exact List.mem_append_left _ hbefore
  cases entry with
  | transition other ref state =>
    obtain rfl : other = id := hback
    obtain ⟨-, -, ⟨ticket, readyState, claimedState, _, hbefore, -⟩, -⟩ := hpermitted
    exact hintended ticket readyState claimedState hbefore
  | bounce other =>
    obtain rfl : other = id := hback
    obtain ⟨⟨ticket, readyState, claimedState, hbefore⟩, -⟩ := hpermitted
    exact hintended ticket readyState claimedState hbefore
  | recorded event =>
    refine ⟨event, mem_journal.mpr hmem, ?_⟩
    obtain ⟨other, body⟩ := event
    cases body with
    | resolved outcome reason =>
      cases outcome with
      | handedBack => exact hback
      | bounced => exact hback
      | _ => exact hback.elim
    | _ => exact hback.elim
  | _ => exact hback.elim

/-- The read of the build decides by what there is. -/
theorem afterBuild_holds (htrace : TraceHolds intake trace) (hattempt : AttemptHolds trace attempt)
    {slug : String} (hslug : attempt.slug = some slug) :
    RecoveryStage.Holds intake
      (trace ++ [.readBuild attempt.attempt slug (trace.build slug)]) attempt
      (attempt.afterBuild intake.repo slug (trace.build slug)) := by
  cases hbuild : trace.build slug with
  | none =>
    refine ⟨NotCreated.snoc (htrace.notCreated_of_build hattempt hslug hbuild)
      fun _ _ he => (by cases he), fun other hother => ?_⟩
    have hselected := hattempt.slug other (mem_of_mem_snoc hother fun he => (by cases he))
    rw [hslug] at hselected
    cases hselected
    exact lastBuildRead_read none
  | some build =>
    unfold TicketPreparation.afterBuild
    dsimp only
    split_ifs with hof
    · exact ⟨slug, build, hslug, build_kept hbuild, hof⟩
    · trivial

/-- The read of the ticket decides by the state it shows. -/
theorem afterTicket_holds (hlooked : Looked trace attempt) (ref : TicketRef)
    (state : Option (Option String)) :
    RecoveryStage.Holds intake (trace ++ [.readTicket attempt.attempt ref state]) attempt
      (attempt.afterTicket intake.toLowerCase ref state) := by
  have hlooked' : Looked (trace ++ [.readTicket attempt.attempt ref state]) attempt := by
    refine ⟨NotCreated.snoc hlooked.1 fun _ _ he => (by cases he), fun slug hslug => ?_⟩
    rw [lastBuildRead_quiet rfl]
    exact hlooked.2 slug (mem_of_mem_snoc hslug fun he => (by cases he))
  cases state with
  | none => trivial
  | some state =>
    cases state with
    | none => trivial
    | some state =>
      unfold TicketPreparation.afterTicket
      dsimp only
      split_ifs with hback hclaimed hstate
      · unfold TicketPreparation.handbackOutcome
        split_ifs
        · exact hlooked'.1
        · exact hlooked'.1
      · trivial
      · trivial
      · exact ⟨hlooked', by simpa using hclaimed, state, lastTicketRead_read ref (some state),
          not_not.mp hstate⟩

theorem MayResolve.snoc {entry : PreparationEntry} {outcome : PreparationOutcome}
    (h : MayResolve intake trace attempt outcome)
    (hne : ∀ slug build, entry ≠ .created attempt.attempt slug build) :
    MayResolve intake (trace ++ [entry]) attempt outcome := by
  cases outcome with
  | owned =>
    obtain ⟨slug, build, hslug, hbuild, hof⟩ := h
    exact ⟨slug, build, hslug, build_kept hbuild, hof⟩
  | handedBack => exact NotCreated.snoc h hne
  | bounced => exact NotCreated.snoc h hne
  | lostClaim => trivial
  | abandoned => trivial

theorem Looked.snoc {entry : PreparationEntry} (h : Looked trace attempt)
    (hcreated : ∀ slug build, entry ≠ .created attempt.attempt slug build)
    (hselected : ∀ slug, entry ≠ .recorded ⟨attempt.attempt, .creationSelected slug⟩)
    (hread : entry.buildRead? attempt.attempt = none) : Looked (trace ++ [entry]) attempt := by
  refine ⟨NotCreated.snoc h.1 hcreated, fun slug hslug => ?_⟩
  rw [lastBuildRead_quiet hread]
  exact h.2 slug (mem_of_mem_snoc hslug (hselected slug).symm)

/-- Builds of others disturb no stage. -/
theorem ControlHolds.foreign {control : PreparationControl} (h : ControlHolds intake trace control)
    (slug : String) (build : OwnedBuild) :
    ControlHolds intake (trace ++ [.foreign slug build]) control := by
  have hattempts : ∀ attempt, AttemptHolds trace attempt →
      AttemptHolds (trace ++ [.foreign slug build]) attempt :=
    fun attempt hattempt => hattempt.snoc fun _ he => (by cases he)
  have hjournal : journal (trace ++ [.foreign slug build]) = trace.journal := journal_quiet rfl
  cases control with
  | idle => trivial
  | scanning ready =>
    intro ticket ht
    rw [hjournal]
    exact h ticket ht
  | dispatching stage attempt ready =>
    obtain ⟨hattempt, hready, hstage⟩ := h
    refine ⟨hattempts attempt hattempt, fun ticket ht => ?_, ?_⟩
    · rw [hjournal]
      exact hready ticket ht
    · cases stage with
      | claim => exact ⟨hstage.1, NotHandedBack.snoc hstage.2 not_false⟩
      | lostClaim => trivial
      | confirm => exact ⟨hstage.1, NotHandedBack.snoc hstage.2.1 not_false, hstage.2.2⟩
      | prepare => exact ⟨hstage.1, NotHandedBack.snoc hstage.2 not_false⟩
      | selectHandback => exact hstage
      | bounce => exact hstage
      | bounced => exact hstage
      | select =>
        exact ⟨fun other hother => hstage.1 other (mem_of_mem_snoc hother fun he => (by cases he)),
          NotHandedBack.snoc hstage.2 not_false⟩
      | create =>
        exact ⟨fun other hother => mem_snoc (hstage.1 other hother) _,
          NotHandedBack.snoc hstage.2 not_false⟩
      | own =>
        have howned : MayResolve intake trace attempt .owned := hstage
        exact howned.snoc fun _ _ he => (by cases he)
      | failing => trivial
  | recovering stage attempt pending =>
    obtain ⟨hattempt, hpending, hstage⟩ := h
    refine ⟨hattempts attempt hattempt, fun other ho => hattempts other (hpending other ho), ?_⟩
    cases stage with
    | start => trivial
    | ticket =>
      exact Looked.snoc hstage (fun _ _ he => (by cases he)) (fun _ he => (by cases he)) rfl
    | transition ref =>
      obtain ⟨hlooked, hclaimed, state, hread, hstate⟩ := hstage
      refine ⟨hlooked.snoc (fun _ _ he => (by cases he)) (fun _ he => (by cases he)) rfl, hclaimed,
        state, ?_, hstate⟩
      rw [lastTicketRead_quiet rfl]
      exact hread
    | settle outcome reason =>
      have hresolve : MayResolve intake trace attempt outcome := hstage
      exact hresolve.snoc fun _ _ he => (by cases he)
    | failing => trivial

end Stages

/-! ## 4. Steps and runs -/

section Steps

variable {intake : Intake} {system system' : PreparationSystem} {attempt : TicketPreparation}
  {ready : List TicketRef} {pending : List TicketPreparation}

/-- The steps of a dispatch, from where the control is. -/
theorem PreparationHolds.dispatching (h : PreparationHolds intake system) {stage : DispatchStage}
    (hcontrol : system.control = .dispatching stage attempt ready) :
    AttemptHolds system.trace attempt ∧
      (∀ ticket ∈ ready, ClearBut intake system.trace.journal attempt.attempt ticket) ∧
      stage.Holds intake system.trace attempt := by
  have hholds := h.control
  rw [hcontrol] at hholds
  exact hholds

theorem PreparationHolds.recovering (h : PreparationHolds intake system) {stage : RecoveryStage}
    (hcontrol : system.control = .recovering stage attempt pending) :
    AttemptHolds system.trace attempt ∧ (∀ other ∈ pending, AttemptHolds system.trace other) ∧
      stage.Holds intake system.trace attempt := by
  have hholds := h.control
  rw [hcontrol] at hholds
  exact hholds

/-- Attempts hold over an event of recovery. -/
theorem AttemptHolds.other {trace : PreparationTrace} (h : AttemptHolds trace attempt) {id : String}
    {body : PreparationBody} (hbody : ∀ slug, body ≠ .creationSelected slug) :
    AttemptHolds (trace ++ [.recorded ⟨id, body⟩]) attempt := by
  refine h.snoc fun slug he => ?_
  simp only [PreparationEntry.recorded.injEq, PreparationEvent.mk.injEq] at he
  exact hbody slug he.2

/-- A new attempt. -/
theorem PreparationHolds.begin (h : PreparationHolds intake system) {ticket : TicketRef}
    (hcontrol : system.control = .scanning (ticket :: ready)) {id : String}
    (hfresh : ∀ event ∈ system.trace.journal, event.attempt ≠ id)
    (readyState claimedState : String) :
    TraceHolds intake
        (system.trace ++ [.recorded ⟨id, .intended ticket readyState claimedState⟩]) ∧
      ControlHolds intake
        (system.trace ++ [.recorded ⟨id, .intended ticket readyState claimedState⟩])
        (.dispatching .claim
          { attempt := id, ticket := ticket, readyState := readyState
            claimedState := claimedState } ready) := by
  have hclear := h.control
  rw [hcontrol] at hclear
  obtain ⟨hticket, hready⟩ := List.forall_mem_cons.mp hclear
  have htrace : TraceHolds intake
      (system.trace ++ [.recorded ⟨id, .intended ticket readyState claimedState⟩]) :=
    h.trace.record hticket hfresh
  refine ⟨htrace, (htrace.held id _ ?_).2, fun other ho => ?_, rfl, ?_⟩
  · rw [journal_record, unresolved_snoc, if_pos rfl]
    rfl
  · refine ClearBut.record (fun held' held _ hheld => ?_) _
    exact hready other ho held' held hheld
  · intro entry hentry hback
    rcases List.mem_append.mp hentry with hentry | hentry
    · obtain ⟨event, hevent, hid⟩ := h.trace.intended_of_handsBack hentry hback
      exact hfresh event hevent hid
    · rw [List.mem_singleton.mp hentry] at hback
      exact hback

/-- A call of a dispatch that records no event. -/
theorem PreparationHolds.called (h : PreparationHolds intake system) {stage : DispatchStage}
    (hcontrol : system.control = .dispatching stage attempt ready) (entry : PreparationEntry)
    (hquiet : entry.event? = none) :
    AttemptHolds (system.trace ++ [entry]) attempt ∧ ∀ ticket ∈ ready,
      ClearBut intake (journal (system.trace ++ [entry])) attempt.attempt ticket := by
  obtain ⟨hattempt, hready, -⟩ := h.dispatching hcontrol
  refine ⟨hattempt.snoc fun _ he => (by subst he; cases hquiet), ?_⟩
  rw [journal_quiet hquiet]
  exact hready

/-- A call of a recovery that records no event. -/
theorem PreparationHolds.asked (h : PreparationHolds intake system) {stage : RecoveryStage}
    (hcontrol : system.control = .recovering stage attempt pending) (entry : PreparationEntry)
    (hquiet : entry.event? = none) :
    AttemptHolds (system.trace ++ [entry]) attempt ∧
      ∀ other ∈ pending, AttemptHolds (system.trace ++ [entry]) other := by
  obtain ⟨hattempt, hpending, -⟩ := h.recovering hcontrol
  have hne : ∀ event, entry ≠ .recorded event := fun _ he => by subst he; cases hquiet
  exact ⟨hattempt.snoc fun _ => hne _, fun other ho => (hpending other ho).snoc fun _ => hne _⟩

/-- A slug is selected. -/
theorem PreparationHolds.name (h : PreparationHolds intake system) {slug : String}
    (hcontrol : system.control = .dispatching .prepare attempt ready) (hne : slug ≠ "") :
    PreparationHolds intake
      { trace := system.trace ++ [.selected attempt.attempt slug]
        control := .dispatching .select { attempt with slug := some slug } ready } := by
  obtain ⟨hattempt, -, hslug, hback⟩ := h.dispatching hcontrol
  obtain ⟨hkept, hready⟩ := h.called hcontrol (.selected attempt.attempt slug) rfl
  have hunselected : ∀ other,
      ¬ Selected (system.trace ++ [.selected attempt.attempt slug]) attempt.attempt other := by
    intro other hother
    have hsome := hattempt.slug other (mem_of_mem_snoc hother fun he => (by cases he))
    rw [hslug] at hsome
    cases hsome
  refine ⟨h.trace.snoc trivial rfl fun _ _ _ he => (by cases he),
    { hkept with
      slug := fun other hother => absurd hother (hunselected other)
      selected := fun other hother => ?_ },
    hready, hunselected, NotHandedBack.snoc hback not_false⟩
  cases hother
  exact ⟨List.mem_append_right _ (List.mem_singleton_self _), hne⟩

/-- A ticket goes back to triage. -/
theorem PreparationHolds.bounce (h : PreparationHolds intake system)
    (hcontrol : system.control = .dispatching .bounce attempt ready) (outcome : CallOutcome)
    (error : String) :
    PreparationHolds intake
      { trace := system.trace ++ [.bounce attempt.attempt]
        control := if outcome.confirmed then .dispatching .bounced attempt ready
          else DispatchStage.bounce.thrown attempt ready "bounce" error } := by
  obtain ⟨hattempt, -, hslug⟩ := h.dispatching hcontrol
  obtain ⟨hkept, hready⟩ := h.called hcontrol (.bounce attempt.attempt) rfl
  refine ⟨h.trace.snoc ⟨⟨_, _, _, hattempt.intended⟩, h.trace.notCreated_of_slug hattempt hslug⟩
    rfl fun _ _ _ he => (by cases he), ?_⟩
  cases outcome with
  | done => exact ⟨hkept, hready, hslug⟩
  | lost => exact DispatchStage.bounce.thrown_holds hkept hready _ _
  | failed => exact DispatchStage.bounce.thrown_holds hkept hready _ _

/-- The build of the selected slug is created. -/
theorem PreparationHolds.create (h : PreparationHolds intake system) {slug : String}
    (hcontrol : system.control = .dispatching .create attempt ready)
    (hslug : attempt.slug = some slug) (hbuild : system.trace.build slug = none)
    (outcome : CallOutcome) (error : String) :
    PreparationHolds intake
      { trace := system.trace ++ [.created attempt.attempt slug (attempt.ownBuild intake.repo)]
        control := if outcome.confirmed then .dispatching .own attempt ready
          else DispatchStage.create.thrown attempt ready "create-build" error } := by
  obtain ⟨-, -, hselected, hback⟩ := h.dispatching hcontrol
  obtain ⟨hkept, hready⟩ := h.called hcontrol
    (.created attempt.attempt slug (attempt.ownBuild intake.repo)) rfl
  have hown : PreparationTrace.build (system.trace ++
      [.created attempt.attempt slug (attempt.ownBuild intake.repo)]) slug
      = some (attempt.ownBuild intake.repo) := by
    rw [build_snoc hbuild]
    exact if_pos rfl
  refine ⟨h.trace.snoc hback rfl fun id other build he => ?_, ?_⟩
  · cases he
    exact ⟨hselected slug hslug, _, hown⟩
  · cases outcome with
    | done => exact ⟨hkept, hready, slug, _, hslug, hown, ⟨rfl, rfl, rfl⟩, rfl, rfl, rfl⟩
    | lost => exact DispatchStage.create.thrown_holds hkept hready _ _
    | failed => exact DispatchStage.create.thrown_holds hkept hready _ _

/-- The ticket is handed back. -/
theorem PreparationHolds.transition (h : PreparationHolds intake system) (ref : TicketRef)
    (hcontrol : system.control = .recovering (.transition ref) attempt pending)
    (outcome : CallOutcome) :
    PreparationHolds intake
      { trace := system.trace ++ [.transition attempt.attempt ref attempt.handbackState]
        control := .recovering
          (if outcome.confirmed then .settle attempt.handbackOutcome none else .failing)
          attempt pending } := by
  obtain ⟨hattempt, -, hlooked, hclaimed, state, hread, hstate⟩ := h.recovering hcontrol
  obtain ⟨hkept, hpending⟩ := h.asked hcontrol
    (.transition attempt.attempt ref attempt.handbackState) rfl
  have hnone : NotCreated (system.trace ++
      [.transition attempt.attempt ref attempt.handbackState]) attempt.attempt :=
    NotCreated.snoc hlooked.1 fun _ _ he => (by cases he)
  have hsettle : MayResolve intake (system.trace ++
      [.transition attempt.attempt ref attempt.handbackState]) attempt
      attempt.handbackOutcome := by
    unfold TicketPreparation.handbackOutcome
    split_ifs
    · exact hnone
    · exact hnone
  refine ⟨h.trace.snoc ⟨hattempt.claimed hclaimed, hlooked.2,
    ⟨_, _, _, state, hattempt.intended, hread, hstate⟩, hlooked.1⟩ rfl
    fun _ _ _ he => (by cases he), hkept, hpending, ?_⟩
  cases outcome with
  | done => exact hsettle
  | lost => trivial
  | failed => trivial

/-- **Every step keeps it.** -/
theorem PreparationHolds.step (h : PreparationHolds intake system)
    (hstep : PreparationStep intake system system') : PreparationHolds intake system' := by
  cases hstep with
  | scan ready _ hclear => exact ⟨h.trace, hclear⟩
  | skip hcontrol =>
    have hclear := h.control
    rw [hcontrol] at hclear
    exact ⟨h.trace, (List.forall_mem_cons.mp hclear).2⟩
  | begin id readyState claimedState outcome hcontrol hfresh =>
    obtain ⟨htrace, hdispatch⟩ := h.begin hcontrol hfresh readyState claimedState
    cases outcome with
    | done => exact ⟨htrace, hdispatch⟩
    | lost => exact ⟨htrace, trivial⟩
    | failed => exact ⟨h.trace, trivial⟩
  | @claim attempt ready hcontrol =>
    obtain ⟨-, -, hslug, hback⟩ := h.dispatching hcontrol
    obtain ⟨hkept, hready⟩ := h.called hcontrol (.claimConfirmed attempt.attempt) rfl
    exact ⟨h.trace.snoc trivial rfl fun _ _ _ he => (by cases he),
      { hkept with claimed := fun _ => List.mem_append_right _ (List.mem_singleton_self _) },
      hready, hslug, NotHandedBack.snoc hback not_false, rfl⟩
  | loseClaim hcontrol =>
    obtain ⟨hattempt, hready, -⟩ := h.dispatching hcontrol
    exact ⟨h.trace, hattempt, hready, trivial⟩
  | nonconforming hcontrol =>
    obtain ⟨hattempt, hready, hslug, -⟩ := h.dispatching hcontrol
    exact ⟨h.trace, { hattempt with }, hready, hslug⟩
  | name slug hcontrol hne _ => exact h.name hcontrol hne
  | bounce outcome error hcontrol => exact h.bounce hcontrol outcome error
  | create outcome error hcontrol hslug hbuild => exact h.create hcontrol hslug hbuild outcome error
  | @throws stage attempt ready name error hcontrol =>
    obtain ⟨hattempt, hready, -⟩ := h.dispatching hcontrol
    exact ⟨h.trace, stage.thrown_holds hattempt hready name error⟩
  | @append stage attempt ready body outcome name error hcontrol hevent =>
    obtain ⟨hattempt, hready, hstage⟩ := h.dispatching hcontrol
    obtain ⟨hpermitted, hjustified⟩ := DispatchStage.event_ok h.trace hattempt hstage hevent
    cases outcome with
    | done =>
      exact ⟨h.trace.record hpermitted hjustified,
        DispatchStage.next_holds hattempt hready hstage hevent⟩
    | lost =>
      exact ⟨h.trace.record hpermitted hjustified,
        DispatchStage.lost_holds hattempt hready hevent name error⟩
    | failed => exact ⟨h.trace, stage.thrown_holds hattempt hready name error⟩
  | recover batch _ hbatch =>
    exact ⟨h.trace, nextRecovery_holds fun attempt ha => (h.trace.held _ _ (hbatch attempt ha)).2⟩
  | @readBuild attempt pending slug hcontrol hslug _ =>
    obtain ⟨hattempt, -, -⟩ := h.recovering hcontrol
    obtain ⟨hkept, hpending⟩ := h.asked hcontrol
      (.readBuild attempt.attempt slug (system.trace.build slug)) rfl
    exact ⟨h.trace.snoc trivial rfl fun _ _ _ he => (by cases he), hkept, hpending,
      afterBuild_holds h.trace hattempt hslug⟩
  | @noSlug attempt pending hcontrol hslug =>
    obtain ⟨hattempt, hpending, -⟩ := h.recovering hcontrol
    have hnone : attempt.slug = none := by
      rcases hslug with hslug | hslug
      · exact hslug
      · exact absurd rfl (hattempt.selected "" hslug).2
    refine ⟨h.trace, hattempt, hpending, h.trace.notCreated_of_slug hattempt hnone,
      fun slug hselected => ?_⟩
    have hsome := hattempt.slug slug hselected
    rw [hnone] at hsome
    cases hsome
  | @readTicket attempt pending ref state hcontrol _ =>
    obtain ⟨-, -, hlooked⟩ := h.recovering hcontrol
    obtain ⟨hkept, hpending⟩ := h.asked hcontrol (.readTicket attempt.attempt ref state) rfl
    exact ⟨h.trace.snoc trivial rfl fun _ _ _ he => (by cases he), hkept, hpending,
      afterTicket_holds hlooked ref state⟩
  | transition outcome hcontrol => exact h.transition _ hcontrol outcome
  | @settle attempt pending resolution reason outcome hcontrol =>
    obtain ⟨hattempt, hpending, hresolve⟩ := h.recovering hcontrol
    generalize reason.map TicketPreparation.recordedReason = recorded
    have htrace : TraceHolds intake
        (system.trace ++ [.recorded ⟨attempt.attempt, .resolved resolution recorded⟩]) :=
      h.trace.record (permitted_resolved hattempt hresolve recorded) trivial
    have hkept : ∀ other, AttemptHolds system.trace other → AttemptHolds
        (system.trace ++ [.recorded ⟨attempt.attempt, .resolved resolution recorded⟩]) other :=
      fun other ho => ho.other fun _ he => (by cases he)
    cases outcome with
    | done => exact ⟨htrace, nextRecovery_holds fun other ho => hkept other (hpending other ho)⟩
    | lost => exact ⟨htrace, hkept attempt hattempt, fun other ho =>
      hkept other (hpending other ho),
        trivial⟩
    | failed => exact ⟨h.trace, hattempt, hpending, trivial⟩
  | recoveryThrows hcontrol =>
    obtain ⟨hattempt, hpending, -⟩ := h.recovering hcontrol
    exact ⟨h.trace, hattempt, hpending, trivial⟩
  | @recordFailure attempt pending outcome error retryAt hcontrol =>
    obtain ⟨hattempt, hpending, -⟩ := h.recovering hcontrol
    have htrace : TraceHolds intake (system.trace ++ [.recorded ⟨attempt.attempt, .recoveryFailed
        (some attempt.claimed) (some attempt.handbackState) attempt.error error retryAt⟩]) :=
      h.trace.record trivial fun hc => hattempt.claimed (Option.some.inj hc)
    have hnext : ControlHolds intake (system.trace ++ [.recorded ⟨attempt.attempt, .recoveryFailed
        (some attempt.claimed) (some attempt.handbackState) attempt.error error retryAt⟩])
        (nextRecovery pending) :=
      nextRecovery_holds fun other ho => (hpending other ho).other fun _ he => (by cases he)
    cases outcome with
    | done => exact ⟨htrace, hnext⟩
    | lost => exact ⟨htrace, hnext⟩
    | failed => exact ⟨h.trace, nextRecovery_holds hpending⟩
  | stop => exact ⟨h.trace, trivial⟩
  | foreign slug build _ =>
    exact ⟨h.trace.snoc trivial rfl fun _ _ _ he => (by cases he), h.control.foreign slug build⟩

end Steps

theorem notCreated_of_handsBack {intake : Intake} {before : PreparationTrace}
    {entry : PreparationEntry} {id : String} (hpermitted : Permitted intake before entry)
    (hback : entry.HandsBack id) : before.NotCreated id := by
  cases entry with
  | transition other ref state =>
    obtain rfl : other = id := hback
    exact hpermitted.2.2.2
  | bounce other =>
    obtain rfl : other = id := hback
    exact hpermitted.2
  | recorded event =>
    obtain ⟨other, body⟩ := event
    cases body with
    | resolved outcome reason =>
      cases outcome with
      | handedBack =>
        obtain rfl : other = id := hback
        exact hpermitted
      | bounced =>
        obtain rfl : other = id := hback
        exact hpermitted
      | _ => exact hback.elim
    | _ => exact hback.elim
  | _ => exact hback.elim

/-- **Prepared tickets have one owner**: in every run a recovery transition is issued only for an
attempt whose claim had confirmed, whose selected slug had no build at the readback and whose
ticket was last read in the claimed state; an attempt is resolved as owned only if its slug has a
build of the repository and ticket; an attempt begins only while no unresolved one is for its
ticket; and no attempt both creates a build and hands its ticket back. -/
theorem preparation_ownership {intake : Intake} {system : PreparationSystem}
    (h : PreparationRun intake system) :
    (∀ before entry after, system.trace = before ++ entry :: after →
      Permitted intake before entry) ∧
      ∀ attempt, system.trace.NotCreated attempt ∨ system.trace.NotHandedBack attempt := by
  have hholds : PreparationHolds intake system := by
    induction h with
    | refl =>
      refine ⟨⟨fun before entry after he => ?_, fun attempt held hheld => ?_,
        fun _ _ _ hmem => absurd hmem List.not_mem_nil⟩, trivial⟩
      · exact absurd he.symm (List.append_ne_nil_of_right_ne_nil _ (List.cons_ne_nil _ _))
      · cases hheld
    | tail _ hstep ih => exact ih.step hstep
  refine ⟨hholds.trace.permitted, fun attempt => ?_⟩
  by_contra hboth
  push Not at hboth
  obtain ⟨hcreated, hbacked⟩ := hboth
  unfold NotCreated at hcreated
  unfold NotHandedBack at hbacked
  push Not at hcreated hbacked
  obtain ⟨slug, build, hcreated⟩ := hcreated
  obtain ⟨entry, hentry, hback⟩ := hbacked
  obtain ⟨before, after, hsplit⟩ := List.append_of_mem hcreated
  have hnotBacked : NotHandedBack before attempt := hholds.trace.permitted _ _ _ hsplit
  rw [hsplit] at hentry
  -- the build comes first, or the ticket was back before it
  rcases List.mem_append.mp hentry with hentry | hentry
  · exact hnotBacked entry hentry hback
  · rcases List.mem_cons.mp hentry with rfl | hentry
    · exact hback
    · obtain ⟨middle, rest, rfl⟩ := List.append_of_mem hentry
      rw [← List.cons_append, ← List.append_assoc] at hsplit
      exact notCreated_of_handsBack (hholds.trace.permitted _ _ _ hsplit) hback slug build
        (List.mem_append_right _ List.mem_cons_self)

/-- A dispatcher dies after a confirmed claim, and the next hands the ticket back. -/
theorem preparation_ownership_handback : ∃ (intake : Intake) (system : PreparationSystem),
    .transition "prep" ⟨"tracker", "1", none, none⟩ "ready" ∈ system.trace ∧
      (∀ before entry after, system.trace = before ++ entry :: after →
        Permitted intake before entry) ∧
      ∀ attempt, system.trace.NotCreated attempt ∨ system.trace.NotHandedBack attempt := by
  let intake : Intake := ⟨"repo", "triage", fun text => text, fun ref _ => some ref⟩
  let ticket : TicketRef := ⟨"tracker", "1", none, none⟩
  let begun : PreparationTrace := [.recorded ⟨"prep", .intended ticket "ready" "doing"⟩]
  let attempt : TicketPreparation :=
    ⟨"prep", ticket, "ready", "doing", true, none, none, none, none, none, none⟩
  let claimed : PreparationTrace :=
    begun ++ [.claimConfirmed "prep"] ++ [.recorded ⟨"prep", .claimed⟩]
  have hscanned : PreparationRun intake { control := .scanning [ticket] } :=
    .single (.scan [ticket] rfl fun _ _ _ _ hheld => (by cases hheld))
  have hbegun : PreparationRun intake
      { trace := begun, control := .dispatching .claim { attempt with claimed := false } [] } :=
    hscanned.tail (.begin "prep" "ready" "doing" .done rfl fun _ hmem =>
      absurd hmem List.not_mem_nil)
  have hclaimed : PreparationRun intake
      { trace := begun ++ [.claimConfirmed "prep"]
        control := .dispatching .confirm attempt [] } :=
    hbegun.tail (@PreparationStep.claim _ _ { attempt with claimed := false } [] rfl)
  have hconfirmed : PreparationRun intake
      { trace := claimed, control := .dispatching .prepare attempt [] } :=
    hclaimed.tail (@PreparationStep.append _ _ .confirm attempt [] .claimed .done "" "" rfl rfl)
  have hdied : PreparationRun intake { trace := claimed, control := .idle } :=
    hconfirmed.tail .stop
  have hrecovering : PreparationRun intake
      { trace := claimed, control := .recovering .start attempt [] } := by
    refine hdied.tail (.recover [attempt] rfl fun other ho => ?_)
    rw [List.mem_singleton.mp ho]
    exact rfl
  have hunselected : PreparationRun intake
      { trace := claimed, control := .recovering .ticket attempt [] } :=
    hrecovering.tail (@PreparationStep.noSlug _ _ attempt [] rfl (.inl rfl))
  have hread : PreparationRun intake
      { trace := claimed ++ [.readTicket "prep" ticket (some (some "doing"))]
        control := .recovering (.transition ticket) attempt [] } :=
    hunselected.tail (@PreparationStep.readTicket _ _ attempt [] ticket (some (some "doing"))
      rfl rfl)
  have hback : PreparationRun intake _ :=
    hread.tail (@PreparationStep.transition _ _ attempt [] ticket .done rfl)
  exact ⟨intake, _, List.mem_append_right _ (List.mem_singleton_self _),
    preparation_ownership hback⟩

end Autobuild
