/-
# Consent to land

Who may land a build is a ledger kept from its log: the policy's decision on the candidate, the
operator's commands, historical auto-merge controls, and the acceptance of a new parent, which
takes back what was agreed for the old one.  Here the ledger is read back from the log.

* `command_iff`, `decision_iff`, `native_iff`: each entry is the latest of its kind that nothing
  since has replaced or withdrawn.
* `landingAuthorized_iff`: when a landing may go ahead, in terms of the events alone; a hold is
  lifted by an explicit request only (`not_authorized_of_hold`).
* `nativeLandingApplied_iff`: the forge's own merge counts as armed for exactly the candidate,
  the decision and the command in force.
-/
import Autobuild.Kernel.Incremental
import Autobuild.Lib.Folds
import Autobuild.Lib.JsonStrings
import Mathlib.Data.List.Induction

namespace Autobuild

open Checked Folds

/-! ## 1. Reading the ledger -/

def landingCandidateId (candidate : LandingCandidate) : String :=
  Json.stringify (.arr [.str candidate.head, .str candidate.parent, .str candidate.cycle])

def sameLandingCandidate (left right : Option LandingCandidate) : Bool :=
  match left, right with
  | some left, some right => decide (landingCandidateId left = landingCandidateId right)
  | _, _ => false

def landingAuthorized (landing : LandingState) : Bool :=
  match landing.command with
  | some command =>
    if command.kind = .hold then false
    else if command.legacy then true
    else landing.decision.isSome
  | none => (landing.decision.map fun decision => decide (decision.payload.mode = .auto)).getD false

def nativeLandingApplied (landing : LandingState) : Bool :=
  match landing.native with
  | none => false
  | some native =>
    native.enabled
      && decide (native.payload.bind (·.decisionSeq) = landing.decision.map (·.seq))
      && decide (native.payload.bind (·.commandSeq) = landing.command.map (·.seq))
      && sameLandingCandidate (native.payload.bind (·.candidate))
        (landing.decision.map (·.payload.candidate))

/-- A candidate is known by its id. -/
theorem landingCandidateId_inj {left right : LandingCandidate}
    (h : landingCandidateId left = landingCandidateId right) : left = right := by
  have hstrings : [left.head, left.parent, left.cycle] = [right.head, right.parent, right.cycle] :=
    Json.stringify_strings_inj h
  simp only [List.cons.injEq, and_true] at hstrings
  obtain ⟨hhead, hparent, hcycle⟩ := hstrings
  cases left
  cases right
  dsimp only at hhead hparent hcycle
  rw [hhead, hparent, hcycle]

theorem sameLandingCandidate_iff {left right : Option LandingCandidate} :
    sameLandingCandidate left right = true ↔ ∃ candidate, left = some candidate ∧
      right = some candidate := by
  cases left with
  | none => exact ⟨fun h => (by cases h), fun ⟨_, h, _⟩ => (by cases h)⟩
  | some left =>
    cases right with
    | none => exact ⟨fun h => (by cases h), fun ⟨_, _, h⟩ => (by cases h)⟩
    | some right =>
      constructor
      · intro h
        rw [landingCandidateId_inj (of_decide_eq_true h)]
        exact ⟨right, rfl, rfl⟩
      · rintro ⟨candidate, hleft, hright⟩
        cases hleft
        cases hright
        exact decide_eq_true rfl

/-! ## 2. The events of the ledger -/

/-- The command an operator gives. -/
def explicitCommand (event : AbEvent) : Option LandingCommand :=
  match event.body with
  | .build .holdRequested => some ⟨.hold, event.seq, none, false⟩
  | .build (.landRequested decisionSeq) => some ⟨.land, event.seq, some decisionSeq, false⟩
  | _ => none

/-- The command a historical control stands for; a default of that time stands for none. -/
def legacyControl (event : AbEvent) : Option LandingCommand :=
  match event.body with
  | .build (.autoMergeRequested payload) =>
    if payload.defaultSeq.isSome then none else some ⟨.land, event.seq, none, true⟩
  | .build (.autoMergeCancelled payload) =>
    if payload.defaultSeq.isSome then none else some ⟨.hold, event.seq, none, true⟩
  | _ => none

def acceptsParent (event : AbEvent) : Bool :=
  match event.body with
  | .node (.parentAccepted _) => true
  | _ => false

def decisionOf (event : AbEvent) : Option (WithSeq LandingDecided) :=
  match event.body with
  | .landing (.decided payload) => some ⟨payload, event.seq⟩
  | _ => none

def nativeOf (event : AbEvent) : Option LandingNative :=
  match event.body with
  | .pr (.autoMergeEnabled _) => some ⟨true, event.seq, none⟩
  | .pr (.autoMergeDisabled _) => some ⟨false, event.seq, none⟩
  | .landing (.nativeApplied payload) => some ⟨payload.enabled, event.seq, some payload⟩
  | _ => none

/-- What one event does to the command. -/
def commandAfter (command : Option LandingCommand) (event : AbEvent) : Option LandingCommand :=
  match explicitCommand event with
  | some explicit => some explicit
  | none =>
    if acceptsParent event then command.filter fun command => command.kind ≠ .land
    else
      match legacyControl event with
      | some legacy => if command.any fun command => !command.legacy then command else some legacy
      | none => command

/-- **What one event does to the ledger.** -/
theorem advanceLanding_entries (state : LandingState) (event : AbEvent) :
    (advanceLanding state event).command = commandAfter state.command event ∧
      (advanceLanding state event).decision
        = (decisionOf event).or (if acceptsParent event then none else state.decision) ∧
      (advanceLanding state event).native
        = (nativeOf event).or (if acceptsParent event then none else state.native) := by
  have hlegacy : ∀ (payload : AutoMergeCommand) (requested : Bool) (seq : Nat),
      (legacyCommand state payload requested seq).command
          = (if payload.defaultSeq.isSome then state.command
            else if state.command.any fun command => !command.legacy then state.command
            else some ⟨if requested then .land else .hold, seq, none, true⟩) ∧
        (legacyCommand state payload requested seq).decision = state.decision ∧
        (legacyCommand state payload requested seq).native = state.native := by
    intro payload requested seq
    unfold legacyCommand
    cases payload.defaultSeq with
    | some default => exact ⟨rfl, rfl, rfl⟩
    | none =>
      cases hcommand : state.command with
      | none => exact ⟨rfl, rfl, rfl⟩
      | some command => cases hold : command.legacy <;> simp [hcommand, hold]
  have hacknowledge : ∀ (state : LandingState) (commandSeq : Nat),
      (if state.isCommand commandSeq then { state with acknowledgedSeq := some commandSeq }
        else state).command = state.command ∧
      (if state.isCommand commandSeq then { state with acknowledgedSeq := some commandSeq }
        else state).decision = state.decision ∧
      (if state.isCommand commandSeq then { state with acknowledgedSeq := some commandSeq }
        else state).native = state.native := by
    intro state commandSeq
    split <;> exact ⟨rfl, rfl, rfl⟩
  obtain ⟨seq, ts, actor, body⟩ := event
  cases body with
  | build body =>
    cases body with
    | autoMergeRequested payload =>
      obtain ⟨hc, hd, hn⟩ := hlegacy payload true seq
      refine ⟨hc.trans ?_, hd, hn⟩
      unfold commandAfter legacyControl explicitCommand acceptsParent
      cases hdefault : payload.defaultSeq <;> simp [hdefault]
    | autoMergeCancelled payload =>
      obtain ⟨hc, hd, hn⟩ := hlegacy payload false seq
      refine ⟨hc.trans ?_, hd, hn⟩
      unfold commandAfter legacyControl explicitCommand acceptsParent
      cases hdefault : payload.defaultSeq <;> simp [hdefault]
    | _ => exact ⟨rfl, rfl, rfl⟩
  | landing body =>
    cases body with
    | commandAcknowledged commandSeq => exact hacknowledge state commandSeq
    | _ => exact ⟨rfl, rfl, rfl⟩
  | node body =>
    cases body with
    | parentAccepted payload =>
      refine ⟨?_, rfl, rfl⟩
      show (revokeConsent state).command = _
      unfold revokeConsent commandAfter explicitCommand acceptsParent
      cases hcommand : state.command with
      | none => simp [hcommand]
      | some command => cases hkind : command.kind <;> simp [hcommand, hkind, Option.filter]
    | _ => exact ⟨rfl, rfl, rfl⟩
  | pr body =>
    cases body with
    | autoMergeDisabled commandSeq =>
      exact hacknowledge { state with native := some ⟨false, seq, none⟩ } commandSeq
    | _ => exact ⟨rfl, rfl, rfl⟩
  | _ => exact ⟨rfl, rfl, rfl⟩

theorem legacy_of_explicitCommand {event : AbEvent} {command : LandingCommand}
    (h : explicitCommand event = some command) :
    command.legacy = false ∧ acceptsParent event = false ∧ legacyControl event = none := by
  unfold explicitCommand at h
  split at h
  · rename_i hb
    cases h
    unfold acceptsParent legacyControl
    rw [hb]
    exact ⟨rfl, rfl, rfl⟩
  · rename_i hb
    cases h
    unfold acceptsParent legacyControl
    rw [hb]
    exact ⟨rfl, rfl, rfl⟩
  · cases h

theorem legacy_of_legacyControl {event : AbEvent} {command : LandingCommand}
    (h : legacyControl event = some command) :
    command.legacy = true ∧ acceptsParent event = false := by
  unfold legacyControl at h
  split at h
  · rename_i hb
    split_ifs at h
    cases h
    unfold acceptsParent
    rw [hb]
    exact ⟨rfl, rfl⟩
  · rename_i hb
    split_ifs at h
    cases h
    unfold acceptsParent
    rw [hb]
    exact ⟨rfl, rfl⟩
  · cases h

/-! ## 3. What is in force -/

section InForce

variable (events : List AbEvent)

/-- The operator's latest command, unless it is a land request and a new parent came since. -/
def ExplicitInForce (command : LandingCommand) : Prop :=
  Latest (fun _ event => explicitCommand event = some command)
    (fun event => explicitCommand event = none ∧
      (command.kind = .land → acceptsParent event = false)) events

/-- The latest historical control, if no operator's command was in force then or came since; a
request, unless a new parent came since. -/
def LegacyInForce (command : LandingCommand) : Prop :=
  Latest (fun before event => legacyControl event = some command ∧
      ∀ explicit, ¬ExplicitInForce before explicit)
    (fun event => explicitCommand event = none ∧ legacyControl event = none ∧
      (command.kind = .land → acceptsParent event = false)) events

def CommandInForce (command : LandingCommand) : Prop :=
  ExplicitInForce events command ∨ LegacyInForce events command

/-- The latest decision, if it was taken for the parent there is now. -/
def DecisionInForce (decision : WithSeq LandingDecided) : Prop :=
  Latest (fun _ event => decisionOf event = some decision)
    (fun event => decisionOf event = none ∧ acceptsParent event = false) events

/-- The latest word on the forge's own merge, if it is on the parent there is now. -/
def NativeInForce (native : LandingNative) : Prop :=
  Latest (fun _ event => nativeOf event = some native)
    (fun event => nativeOf event = none ∧ acceptsParent event = false) events

def landingOf : LandingState := events.foldl advanceLanding {}

variable {events}

theorem landingOf_snoc (event : AbEvent) :
    landingOf (events ++ [event]) = advanceLanding (landingOf events) event := by
  unfold landingOf
  rw [List.foldl_append, List.foldl_cons, List.foldl_nil]

theorem legacy_of_explicit {command : LandingCommand} (h : ExplicitInForce events command) :
    command.legacy = false := by
  obtain ⟨before, event, after, -, hc, -⟩ := h
  exact (legacy_of_explicitCommand hc).1

theorem legacy_of_legacy {command : LandingCommand} (h : LegacyInForce events command) :
    command.legacy = true := by
  obtain ⟨before, event, after, -, ⟨hc, -⟩, -⟩ := h
  exact (legacy_of_legacyControl hc).1

theorem commandInForce_snoc {event : AbEvent} {command : Option LandingCommand}
    (ih : ∀ c, command = some c ↔ CommandInForce events c) (c : LandingCommand) :
    commandAfter command event = some c ↔ CommandInForce (events ++ [event]) c := by
  unfold CommandInForce ExplicitInForce LegacyInForce
  rw [latest_snoc, latest_snoc]
  unfold commandAfter
  cases hexplicit : explicitCommand event with
  | some explicit =>
    obtain ⟨-, -, hlegacy⟩ := legacy_of_explicitCommand hexplicit
    simp [hlegacy]
  | none =>
    cases haccepts : acceptsParent event with
    | true =>
      have hlegacy : legacyControl event = none := by
        cases hl : legacyControl event with
        | none => rfl
        | some legacy =>
          rw [(legacy_of_legacyControl hl).2] at haccepts
          cases haccepts
      have hfilter : (command.filter fun command => command.kind ≠ .land) = some c ↔
          command = some c ∧ c.kind ≠ .land := by
        rw [Option.filter_eq_some_iff]
        simp
      rw [if_pos rfl, hfilter, ih c, hlegacy]
      unfold CommandInForce ExplicitInForce LegacyInForce
      simp only [reduceCtorEq, false_and, false_or, true_and, imp_false, Bool.true_eq_false]
      tauto
    | false =>
      rw [if_neg Bool.false_ne_true]
      cases hlegacy : legacyControl event with
      | none =>
        simp only [reduceCtorEq, false_and, false_or, true_and, implies_true]
        exact ih c
      | some legacy =>
        simp only [reduceCtorEq, false_and, and_false, or_false, false_or, true_and, implies_true,
          Option.some.injEq]
        cases hstands : command.any fun command => !command.legacy with
        | true =>
          have hstanding : ∃ standing, command = some standing ∧ standing.legacy = false := by
            cases command with
            | none => cases hstands
            | some standing => exact ⟨standing, rfl, by simpa using hstands⟩
          obtain ⟨standing, hs, hl⟩ := hstanding
          rw [if_pos rfl]
          have hin : ExplicitInForce events standing := by
            rcases (ih standing).mp hs with h | h
            · exact h
            · rw [legacy_of_legacy h] at hl
              cases hl
          constructor
          · intro hc
            rw [hs] at hc
            cases hc
            exact Or.inl hin
          · rintro (h | ⟨-, hnone⟩)
            · exact (ih c).mpr (Or.inl h)
            · exact absurd hin (hnone standing)
        | false =>
          rw [if_neg Bool.false_ne_true]
          have hnone : ∀ explicit, ¬ExplicitInForce events explicit := by
            intro explicit h
            have hs := (ih explicit).mpr (Or.inl h)
            rw [hs, Option.any_some, legacy_of_explicit h] at hstands
            cases hstands
          constructor
          · intro hc
            exact Or.inr ⟨Option.some.inj hc, hnone⟩
          · rintro (h | ⟨rfl, -⟩)
            · exact absurd h (hnone c)
            · rfl

/-- **The command of the ledger is the one in force.** -/
theorem command_iff (events : List AbEvent) (c : LandingCommand) :
    (landingOf events).command = some c ↔ CommandInForce events c := by
  induction events using List.reverseRecOn generalizing c with
  | nil => exact ⟨fun h => (by cases h), fun h => h.elim (absurd · not_latest_nil)
      (absurd · not_latest_nil)⟩
  | append_singleton events event ih =>
    rw [landingOf_snoc, (advanceLanding_entries (landingOf events) event).1]
    exact commandInForce_snoc ih c

/-- An entry that a new parent clears is the latest of its kind since. -/
theorem entry_iff {β : Type} {entry : LandingState → Option β} {entryOf : AbEvent → Option β}
    (hempty : entry {} = none)
    (hstep : ∀ state event, entry (advanceLanding state event)
      = (entryOf event).or (if acceptsParent event then none else entry state))
    (events : List AbEvent) (value : β) :
    entry (landingOf events) = some value ↔
      Latest (fun _ event => entryOf event = some value)
        (fun event => entryOf event = none ∧ acceptsParent event = false) events := by
  induction events using List.reverseRecOn with
  | nil =>
    refine ⟨fun h => ?_, fun h => absurd h not_latest_nil⟩
    rw [show landingOf [] = {} from rfl, hempty] at h
    cases h
  | append_singleton events event ih =>
    rw [landingOf_snoc, hstep, latest_snoc]
    cases hentry : entryOf event with
    | some other => simp
    | none =>
      cases haccepts : acceptsParent event with
      | true => simp
      | false => simpa using ih

theorem decision_iff (events : List AbEvent) (decision : WithSeq LandingDecided) :
    (landingOf events).decision = some decision ↔ DecisionInForce events decision :=
  entry_iff rfl (fun state event => (advanceLanding_entries state event).2.1) events decision

theorem native_iff (events : List AbEvent) (native : LandingNative) :
    (landingOf events).native = some native ↔ NativeInForce events native :=
  entry_iff rfl (fun state event => (advanceLanding_entries state event).2.2) events native

/-! ## 4. When a landing may go ahead -/

/-- No hold is in force, and there is a historical request, or a decision for the parent there
is now and either an operator's request or a policy that needs none. -/
structure Consented (events : List AbEvent) : Prop where
  noHold : ∀ command, CommandInForce events command → command.kind = .land
  agreed : (∃ command, LegacyInForce events command) ∨
    ∃ decision, DecisionInForce events decision ∧
      ((∃ command, CommandInForce events command) ∨ decision.payload.mode = .auto)

/-- **A landing is authorized exactly when the log consents to it.** -/
theorem landingAuthorized_iff (events : List AbEvent) :
    landingAuthorized (landingOf events) = true ↔ Consented events := by
  have hland : ∀ kind : LandingCommandKind, kind ≠ .hold → kind = .land := by
    intro kind hk
    cases kind
    · exact absurd rfl hk
    · rfl
  unfold landingAuthorized
  cases hcommand : (landingOf events).command with
  | none =>
    have hnone : ∀ command, ¬CommandInForce events command := by
      intro command h
      rw [(command_iff events command).mpr h] at hcommand
      cases hcommand
    dsimp only
    cases hdecision : (landingOf events).decision with
    | none =>
      refine ⟨fun h => (by cases h), fun h => ?_⟩
      rcases h.agreed with ⟨command, hc⟩ | ⟨decision, hd, -⟩
      · exact absurd (Or.inr hc) (hnone command)
      · rw [(decision_iff events decision).mpr hd] at hdecision
        cases hdecision
    | some decision =>
      have hin := (decision_iff events decision).mp hdecision
      constructor
      · intro h
        exact ⟨fun command hc => absurd hc (hnone command),
          Or.inr ⟨decision, hin, Or.inr (of_decide_eq_true h)⟩⟩
      · intro h
        rcases h.agreed with ⟨command, hc⟩ | ⟨other, hd, ⟨command, hc⟩ | hmode⟩
        · exact absurd (Or.inr hc) (hnone command)
        · exact absurd hc (hnone command)
        · have hsame := (decision_iff events other).mpr hd
          rw [hdecision] at hsame
          cases hsame
          exact decide_eq_true hmode
  | some command =>
    have hin := (command_iff events command).mp hcommand
    have honly : ∀ other, CommandInForce events other → other = command := by
      intro other ho
      have hsame := (command_iff events other).mpr ho
      rw [hcommand] at hsame
      exact (Option.some.inj hsame).symm
    dsimp only
    by_cases hhold : command.kind = .hold
    · rw [if_pos hhold]
      refine ⟨fun h => (by cases h), fun h => ?_⟩
      have hkind := h.noHold command hin
      rw [hhold] at hkind
      cases hkind
    · rw [if_neg hhold]
      have hnoHold : ∀ other, CommandInForce events other → other.kind = .land := by
        intro other ho
        rw [honly other ho]
        exact hland _ hhold
      cases hlegacy : command.legacy with
      | true =>
        rw [if_pos rfl]
        refine ⟨fun _ => ⟨hnoHold, Or.inl ⟨command, ?_⟩⟩, fun _ => rfl⟩
        rcases hin with h | h
        · rw [legacy_of_explicit h] at hlegacy
          cases hlegacy
        · exact h
      | false =>
        rw [if_neg Bool.false_ne_true]
        constructor
        · intro h
          obtain ⟨decision, hd⟩ := Option.isSome_iff_exists.mp h
          exact ⟨hnoHold, Or.inr ⟨decision, (decision_iff events decision).mp hd,
            Or.inl ⟨command, hin⟩⟩⟩
        · intro h
          rcases h.agreed with ⟨other, ho⟩ | ⟨decision, hd, -⟩
          · have hother := legacy_of_legacy ho
            rw [honly other (Or.inr ho), hlegacy] at hother
            cases hother
          · rw [(decision_iff events decision).mpr hd]
            rfl

/-- **A hold is lifted by an operator's request only.** -/
theorem not_authorized_of_hold {before after : List AbEvent} {hold : AbEvent}
    (hhold : hold.body = .build .holdRequested)
    (hafter : ∀ event ∈ after, ∀ decisionSeq, event.body ≠ .build (.landRequested decisionSeq)) :
    landingAuthorized (landingOf (before ++ hold :: after)) = false := by
  refine Bool.eq_false_iff.mpr fun h => ?_
  obtain ⟨hnoHold, -⟩ := (landingAuthorized_iff _).mp h
  suffices hin : ∃ command, command.kind = .hold ∧
      ExplicitInForce (before ++ hold :: after) command by
    obtain ⟨command, hkind, hc⟩ := hin
    have hland := hnoHold command (Or.inl hc)
    rw [hkind] at hland
    cases hland
  -- a later hold takes the place of the first
  clear h hnoHold
  induction after using List.reverseRecOn with
  | nil =>
    refine ⟨⟨.hold, hold.seq, none, false⟩, rfl, before, hold, [], rfl, ?_,
      fun x hx => absurd hx List.not_mem_nil⟩
    show explicitCommand hold = _
    unfold explicitCommand
    rw [hhold]
  | append_singleton after event ih =>
    obtain ⟨command, hkind, hc⟩ := ih fun e he => hafter e (List.mem_append_left _ he)
    have hsplit : before ++ hold :: (after ++ [event]) = (before ++ hold :: after) ++ [event] := by
      simp
    rw [hsplit]
    cases hexplicit : explicitCommand event with
    | none =>
      refine ⟨command, hkind, latest_snoc.mpr (Or.inr ⟨⟨hexplicit, fun hland => ?_⟩, hc⟩)⟩
      rw [hkind] at hland
      cases hland
    | some other =>
      refine ⟨other, ?_, latest_snoc.mpr (Or.inl hexplicit)⟩
      unfold explicitCommand at hexplicit
      split at hexplicit
      · cases hexplicit
        rfl
      · rename_i decisionSeq hb
        exact absurd hb (hafter event (by simp) decisionSeq)
      · cases hexplicit

/-- **The forge's own merge counts as armed for exactly what is in force**: the candidate of the
decision, and the command if there is one. -/
theorem nativeLandingApplied_iff (events : List AbEvent) :
    nativeLandingApplied (landingOf events) = true ↔
      ∃ native payload decision, NativeInForce events native ∧ native.enabled = true ∧
        native.payload = some payload ∧ DecisionInForce events decision ∧
        payload.candidate = some decision.payload.candidate ∧
        payload.decisionSeq = some decision.seq ∧
        ∀ seq, payload.commandSeq = some seq ↔
          ∃ command, CommandInForce events command ∧ command.seq = seq := by
  have hcommand : ∀ seq, (landingOf events).command.map (·.seq) = some seq ↔
      ∃ command, CommandInForce events command ∧ command.seq = seq := by
    intro seq
    rw [Option.map_eq_some_iff]
    exact exists_congr fun command => and_congr_left' (command_iff events command)
  unfold nativeLandingApplied
  cases hnative : (landingOf events).native with
  | none =>
    refine ⟨fun h => (by cases h), ?_⟩
    rintro ⟨native, payload, decision, hn, -⟩
    rw [(native_iff events native).mpr hn] at hnative
    cases hnative
  | some native =>
    have hin := (native_iff events native).mp hnative
    simp only [Bool.and_eq_true, decide_eq_true_iff, sameLandingCandidate_iff]
    constructor
    · rintro ⟨⟨⟨henabled, hdecisionSeq⟩, hcommandSeq⟩, candidate, hcandidate, hdecided⟩
      obtain ⟨payload, hpayload, hpc⟩ := Option.bind_eq_some_iff.mp hcandidate
      obtain ⟨decision, hdecision, rfl⟩ := Option.map_eq_some_iff.mp hdecided
      rw [hpayload, Option.bind_some, hdecision, Option.map_some] at hdecisionSeq
      rw [hpayload, Option.bind_some] at hcommandSeq
      refine ⟨native, payload, decision, hin, henabled, hpayload,
        (decision_iff events decision).mp hdecision, hpc, hdecisionSeq, fun seq => ?_⟩
      rw [hcommandSeq]
      exact hcommand seq
    · rintro ⟨other, payload, decision, hn, henabled, hpayload, hd, hpc, hdecisionSeq, hseq⟩
      have hsame := (native_iff events other).mpr hn
      rw [hnative] at hsame
      cases hsame
      have hdecision := (decision_iff events decision).mpr hd
      rw [hpayload, hdecision]
      refine ⟨⟨⟨henabled, hdecisionSeq⟩, Option.ext fun seq => ?_⟩, _, hpc, rfl⟩
      rw [Option.bind_some, hseq seq]
      exact (hcommand seq).symm

end InForce

/-! ## 5. The ledger of a reduced build -/

section Families

variable (acc : BuildAcc)

theorem foldSessionEvent_landing (seq ts : Nat) (body : SessionEvent) :
    (foldSessionEvent acc seq ts body).landing = acc.landing := by
  obtain ⟨sessions, h⟩ := foldSessionEvent_eq acc seq ts body
  rw [h]

theorem rewriteCommits_landing (base head : String) :
    (rewriteCommits acc base head).landing = acc.landing := by
  unfold rewriteCommits
  split <;> rfl

theorem foldReconcileEvent_landing (seq : Nat) (body : ReconcileEvent) :
    (foldReconcileEvent acc seq body).landing = acc.landing := by
  cases body with
  | rewritten payload => exact rewriteCommits_landing acc _ _
  | completed payload =>
    unfold foldReconcileEvent foldReconcileCompleted
    cases payload with
    | merge mergeCommit artifact => rfl
    | rewrite headSha rewriteId artifact =>
      dsimp only
      split <;> rfl
  | _ => rfl

theorem foldVerifyEvent_landing (seq : Nat) (body : VerifyEvent) :
    (foldVerifyEvent acc seq body).landing = acc.landing := by
  cases body with
  | cancelled payload =>
    unfold foldVerifyEvent foldVerifyCancelled
    dsimp only
    split <;> rfl
  | completed payload =>
    unfold foldVerifyEvent foldVerifyCompleted
    dsimp only
    split <;> rfl
  | _ => rfl

theorem foldNodeEvent_landing (seq ts : Nat) (body : NodeEvent) :
    (foldNodeEvent acc seq ts body).landing = acc.landing := by
  cases body with
  | parentAccepted payload =>
    unfold foldNodeEvent acceptNodeParent
    dsimp only
    split <;> rfl
  | _ => rfl

theorem foldFacts_landing (event : AbEvent) : (foldFacts acc event).landing = acc.landing := by
  obtain ⟨seq, ts, actor, body⟩ := event
  cases body with
  | build body => cases body <;> rfl
  | node body => exact foldNodeEvent_landing acc seq ts body
  | integration body => cases body <;> rfl
  | pr body => cases body <;> rfl
  | runner body => cases body <;> rfl
  | execution body => cases body <;> rfl
  | infrastructure body => cases body <;> rfl
  | publication body =>
    cases body with
    | requested operation => cases operation <;> rfl
    | _ => rfl
  | spec body => cases body <;> rfl
  | session body => exact foldSessionEvent_landing acc seq ts body
  | plan body => cases body <;> rfl
  | planReview body => cases body <;> rfl
  | implement body => cases body <;> rfl
  | codeReview body =>
    cases body with
    | started round => rfl
    | verdict payload =>
      show (foldCodeReviewEvent acc seq (.verdict payload)).landing = acc.landing
      unfold foldCodeReviewEvent
      dsimp only
      split <;> rfl
  | verify body => exact foldVerifyEvent_landing acc seq body
  | finalize body => cases body <;> rfl
  | restack body =>
    cases body with
    | rewritten payload => exact rewriteCommits_landing acc _ _
    | completed payload => exact rewriteCommits_landing acc _ _
    | _ => rfl
  | reconcile body => exact foldReconcileEvent_landing acc seq body
  | issueLinkDowngraded issue reason =>
    show (downgradeIssueLink acc seq issue reason).landing = acc.landing
    unfold downgradeIssueLink
    split <;> rfl
  | escalationRaised payload =>
    show (foldEscalationRaised acc seq actor payload).landing = acc.landing
    unfold foldEscalationRaised
    dsimp only
    split <;> rfl
  | escalationAnswered payload =>
    show (foldEscalationAnswered acc seq actor payload).landing = acc.landing
    unfold foldEscalationAnswered
    split <;> rfl
  | phase body => cases body <;> rfl
  | plain body => cases body <;> rfl
  | _ => rfl

theorem foldSuperseded_landing (body : EventBody) :
    (foldSuperseded acc body).landing = acc.landing := by
  have hone : ∀ (acc : BuildAcc) (escalation : AnyEscalation),
      (supersedeOne acc escalation).landing = acc.landing := by
    intro acc escalation
    unfold supersedeOne
    split <;> rfl
  have hall : ∀ (escalations : List AnyEscalation) (acc : BuildAcc),
      (escalations.foldl supersedeOne acc).landing = acc.landing := by
    intro escalations
    induction escalations with
    | nil => exact fun _ => rfl
    | cons escalation rest ih => exact fun acc => (ih _).trans (hone acc escalation)
  unfold foldSuperseded
  split
  · exact hall _ acc
  · rfl

end Families

theorem foldActivity_landing (acc : BuildAcc) (event : AbEvent) :
    (foldActivity acc event).landing = advanceLanding acc.landing event := by
  have hintegration : ∀ acc : BuildAcc, (foldIntegration acc event).landing = acc.landing := by
    intro acc
    obtain ⟨seq, ts, actor, body⟩ := event
    cases body <;> rfl
  have htarget : ∀ acc : BuildAcc, (foldTargetRewrite acc event).landing = acc.landing := by
    intro acc
    obtain ⟨seq, ts, actor, body⟩ := event
    cases body with
    | target body => cases body <;> rfl
    | node body => cases body <;> rfl
    | _ => rfl
  have hjanitor : ∀ acc : BuildAcc, (foldJanitor acc event.body).landing = acc.landing := by
    intro acc
    cases event.body with
    | build body => cases body <;> rfl
    | _ => rfl
  unfold foldActivity
  rw [hintegration]
  exact congrArg (advanceLanding · event) ((htarget _).trans (hjanitor _))

theorem foldEvent_landing {acc next : BuildAcc} {event : AbEvent}
    (h : foldEvent acc event = .ok next) : next.landing = advanceLanding acc.landing event := by
  unfold foldEvent at h
  obtain ⟨nodeRestack, -, h⟩ := bind_eq_ok.mp h
  rw [← Except.ok.inj h, ← foldActivity_landing acc event]
  exact (foldFacts_landing _ event).trans (foldSuperseded_landing _ event.body)

/-- **The ledger of a reduced build is that of its log.** -/
theorem landing_reduceBuild {events : List StoredEvent} {state : BuildState}
    (h : reduceBuild events = .ok state) :
    state.landing = landingOf (projectEvents events) := by
  unfold reduceBuild foldBuild at h
  obtain ⟨acc, hacc, h⟩ := bind_eq_ok.mp h
  obtain ⟨raw, hraw, hset⟩ := bind_eq_ok.mp hacc
  rw [foldEvents_initial] at hraw
  have hfold := @foldlM_part _ _ _ _ _ (fun acc : BuildAcc => acc.landing) _ foldEvent_landing
    _ _ _ hraw
  rw [← Except.ok.inj h, ← Except.ok.inj hset, settle_eq]
  exact hfold

/-- **A build may land exactly when its log consents to it.** -/
theorem landing_consent {events : List StoredEvent} {state : BuildState}
    (h : reduceBuild events = .ok state) :
    landingAuthorized state.landing = true ↔ Consented (projectEvents events) := by
  rw [landing_reduceBuild h]
  exact landingAuthorized_iff _

/-- **The forge's merge of a build counts as armed for exactly what its log has in force.** -/
theorem landing_native {events : List StoredEvent} {state : BuildState}
    (h : reduceBuild events = .ok state) :
    nativeLandingApplied state.landing = true ↔
      ∃ native payload decision, NativeInForce (projectEvents events) native ∧
        native.enabled = true ∧ native.payload = some payload ∧
        DecisionInForce (projectEvents events) decision ∧
        payload.candidate = some decision.payload.candidate ∧
        payload.decisionSeq = some decision.seq ∧
        ∀ seq, payload.commandSeq = some seq ↔
          ∃ command, CommandInForce (projectEvents events) command ∧ command.seq = seq := by
  rw [landing_reduceBuild h]
  exact nativeLandingApplied_iff _

/-- A policy that needs no consent decided on a candidate, and the forge was told. -/
def armedLanding : List StoredEvent :=
  [.known ⟨1, 0, .dispatcher, .landing (.decided
      { candidate := ⟨"head", "parent", "1"⟩, fromKind := .work, into := .root, labels := []
        mode := .auto, rule := .default })⟩,
    .known ⟨2, 0, .dispatcher, .landing (.nativeApplied
      { retry := none, enableSeq := none, enabled := true
        candidate := some ⟨"head", "parent", "1"⟩, decisionSeq := some 1, commandSeq := none
        operation := none, publicationHead := none })⟩]

/-- The two readings of the ledger of a log. -/
def landsAndArmed (events : List StoredEvent) : Bool :=
  ((reduceBuild events).toOption.map fun state =>
    landingAuthorized state.landing && nativeLandingApplied state.landing).getD false

theorem exists_of_landsAndArmed {events : List StoredEvent} (h : landsAndArmed events = true) :
    ∃ state, reduceBuild events = .ok state ∧ landingAuthorized state.landing = true ∧
      nativeLandingApplied state.landing = true := by
  unfold landsAndArmed at h
  cases hs : reduceBuild events with
  | error message =>
    rw [hs] at h
    cases h
  | ok state =>
    rw [hs] at h
    obtain ⟨hl, ha⟩ := Bool.and_eq_true_iff.mp h
    exact ⟨state, rfl, hl, ha⟩

theorem landing_consent_armedLanding : Consented (projectEvents armedLanding) := by
  obtain ⟨state, hs, hl, -⟩ := exists_of_landsAndArmed
    (show landsAndArmed armedLanding = true by decide +kernel)
  exact (landing_consent hs).mp hl

theorem landing_native_armedLanding :
    ∃ native, NativeInForce (projectEvents armedLanding) native ∧ native.enabled = true := by
  obtain ⟨state, hs, -, ha⟩ := exists_of_landsAndArmed
    (show landsAndArmed armedLanding = true by decide +kernel)
  obtain ⟨native, -, -, hn, he, -⟩ := (landing_native hs).mp ha
  exact ⟨native, hn, he⟩

theorem not_authorized_of_hold_armedLanding : landingAuthorized (landingOf
    (projectEvents armedLanding ++ ⟨3, 0, .human "operator" none, .build .holdRequested⟩
      :: [⟨4, 0, .kernel, .pr (.autoMergeEnabled 2)⟩])) = false := by
  refine not_authorized_of_hold rfl fun event he decisionSeq => ?_
  rw [List.mem_singleton.mp he]
  exact fun h => EventBody.noConfusion h

end Autobuild
