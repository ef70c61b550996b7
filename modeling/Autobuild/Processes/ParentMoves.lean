/-
# Moving nodes

Callers ask for moves and write the ticket source; one dispatcher observes the nodes, one after
another, and accepts, cancels and completes.  Everybody may die at any await.

* `ParentStep`: callers, the pass of the dispatcher, new builds, and whatever else is appended,
  in any order.  What the ticket source and the forge answer is free, so edits from outside and
  writes that were lost or half done are among the runs.
* `TruthfulSince`: what a request and an acceptance say of the state right before them.
* `parent_moves_truthful`: in every run the targets stay acyclic, and every request and every
  acceptance is truthful.
-/
import Autobuild.Kernel.NodeParent
import Mathlib.Data.List.Induction
import Mathlib.Data.Set.Finite.Basic

namespace Autobuild

open ParentMap

/-! ## 1. The logs -/

/-- The log of each build, by slug; a build that is not there has none. -/
abbrev BuildLogs := String → List EventBody

namespace BuildLogs

variable (logs : BuildLogs)

def read (slug : String) : Option ParentFacts :=
  if logs slug = [] then none else some (parentFacts (logs slug))

/-- The build of the effective target. -/
def effective (slug : String) : Option String := (parentFacts (logs slug)).target.map (·.build)

def append (slug : String) (body : EventBody) : BuildLogs :=
  Function.update logs slug (logs slug ++ [body])

end BuildLogs

/-- The ids of the requests in a log. -/
def requestIds (log : List EventBody) : List String :=
  log.filterMap fun
    | .node (.parentRequested request) => some request.id
    | _ => none

/-- Every other event than those of a move, or the first. -/
def EventBody.staysPut : EventBody → Bool
  | .build (.created _) => false
  | .node (.parentRequested _) => false
  | .node (.parentAccepted _) => false
  | .node (.parentCancelled _ _) => false
  | .node (.parentCompleted _) => false
  | _ => true

def EventBody.setsTarget : EventBody → Bool
  | .build (.created _) => true
  | .node (.parentAccepted _) => true
  | _ => false

/-! ## 2. Callers and the dispatcher -/

/-- The newest build of the target ticket. -/
structure ParentDestination where
  target : BuildTarget
  branch : String

/-- An open node.  What else makes a destination busy may refuse it at any time. -/
def ParentDestination.Admitted (logs : BuildLogs) (destination : ParentDestination) : Prop :=
  ∃ facts, logs.read destination.target.build = some facts ∧ facts.kind = some .node ∧
    facts.nodeOpened = true

/-- `validateNodeParent` between its reads. -/
structure ParentValidation where
  next : NodeParent
  walk : ParentWalk := {}

def startValidation (root record : String) : Option ParentDestination → ParentValidation
  | none => { next := ⟨none, root⟩ }
  | some destination =>
    { next := ⟨some destination.target, destination.branch⟩
      walk := .start record destination.target.build }

/-- `updateTicketTarget`, from the claim of the node writer on. -/
inductive CallerStage where
  | claimed
  | checked (facts : ParentFacts) (lastSeq : Nat)
  | validating (facts : ParentFacts) (lastSeq : Nat) (validation : ParentValidation)
  /-- The request is appended, the write of the ticket source pending. -/
  | writing

structure ParentCaller where
  record : String
  /-- `parent-${randomUUID()}` -/
  holder : String
  stage : CallerStage

/-- `observeNodeParent`. -/
inductive PassStage where
  | observed (facts : ParentFacts)
  /-- The node writer is claimed. -/
  | claimed (request : Option ParentChange)
  | checked (request : Option ParentChange) (facts : ParentFacts) (lastSeq : Nat)
  | validating (request : Option ParentChange) (facts : ParentFacts) (lastSeq : Nat)
      (validation : ParentValidation)

structure ParentPass where
  record : String
  stage : PassStage

structure ParentSystem where
  logs : BuildLogs
  callers : List ParentCaller := []
  pass : Option ParentPass := none

/-- `next` is the destination that was asked for. -/
def SameDestination (next : NodeParent) (request : ParentChange) : Prop :=
  next.branch = request.next.branch ∧
    next.target.map (·.build) = request.next.target.map (·.build)

inductive ParentStep (root : String) (system : ParentSystem) : ParentSystem → Prop
  | call {record : String} (holder : String) : system.logs record ≠ [] →
      ParentStep root system { system with
        callers := ⟨record, holder, .claimed⟩ :: system.callers }
  | callerChecks {record holder : String} {rest : List ParentCaller} :
      system.callers.Perm (⟨record, holder, .claimed⟩ :: rest) →
      (parentFacts (system.logs record)).parentRequest = none →
      (parentFacts (system.logs record)).parentChange = none →
      ParentStep root system { system with
        callers := ⟨record, holder, .checked (parentFacts (system.logs record))
          (system.logs record).length⟩ :: rest }
  | callerAdmits {record holder : String} {facts : ParentFacts} {lastSeq : Nat}
      {rest : List ParentCaller} (destination : Option ParentDestination) :
      system.callers.Perm (⟨record, holder, .checked facts lastSeq⟩ :: rest) →
      (∀ found, destination = some found → found.Admitted system.logs) →
      ParentStep root system { system with
        callers := ⟨record, holder, .validating facts lastSeq
          (startValidation root record destination)⟩ :: rest }
  | callerWalks {record holder : String} {facts : ParentFacts} {lastSeq : Nat}
      {validation : ParentValidation} {walk : ParentWalk} {rest : List ParentCaller} :
      system.callers.Perm (⟨record, holder, .validating facts lastSeq validation⟩ :: rest) →
      validation.walk.step system.logs.read = .ok walk →
      ParentStep root system { system with
        callers := ⟨record, holder, .validating facts lastSeq
          { validation with walk := walk }⟩ :: rest }
  /-- `appendIfCurrent` of the request.  No id is drawn twice. -/
  | request {record holder branch : String} {facts : ParentFacts} {lastSeq : Nat}
      {validation : ParentValidation} {rest : List ParentCaller} (revision : String) :
      system.callers.Perm (⟨record, holder, .validating facts lastSeq validation⟩ :: rest) →
      validation.walk.todo = [] → facts.baseBranch = some branch →
      holder ∉ requestIds (system.logs record) →
      (system.logs record).length = lastSeq →
      ParentStep root system { system with
        logs := system.logs.append record (.node (.parentRequested
          ⟨holder, ⟨facts.target, branch⟩, validation.next, revision⟩))
        callers := ⟨record, holder, .writing⟩ :: rest }
  /-- The revision of the ticket was not the expected one. -/
  | callerCancels {record holder : String} {rest : List ParentCaller} (reason : String) :
      system.callers.Perm (⟨record, holder, .writing⟩ :: rest) →
      ParentStep root system { system with
        logs := system.logs.append record (.node (.parentCancelled holder reason))
        callers := rest }
  /-- A refusal, a lost append, an answer of the ticket source, or death. -/
  | callerEnds {caller : ParentCaller} {rest : List ParentCaller} :
      system.callers.Perm (caller :: rest) →
      ParentStep root system { system with callers := rest }
  | observe {record : String} {facts : ParentFacts} : system.pass = none →
      system.logs.read record = some facts → facts.kind = some .node →
      ParentStep root system { system with pass := some ⟨record, .observed facts⟩ }
  /-- The replay and the pull request of the accepted move are acknowledged. -/
  | complete {record : String} {facts : ParentFacts} {move : ParentChange} :
      system.pass = some ⟨record, .observed facts⟩ → facts.parentChange = some move →
      ParentStep root system { system with
        logs := system.logs.append record (.node (.parentCompleted move.id))
        pass := none }
  | claim {record : String} {facts : ParentFacts} :
      system.pass = some ⟨record, .observed facts⟩ → facts.parentChange = none →
      ParentStep root system { system with
        pass := some ⟨record, .claimed facts.parentRequest⟩ }
  | check {record : String} {request : Option ParentChange} :
      system.pass = some ⟨record, .claimed request⟩ →
      (parentFacts (system.logs record)).parentChange = none →
      (parentFacts (system.logs record)).parentRequest.map (·.id) = request.map (·.id) →
      ParentStep root system { system with
        pass := some ⟨record, .checked request (parentFacts (system.logs record))
          (system.logs record).length⟩ }
  /-- The ticket does not have the requested target. -/
  | unconfirmed {record : String} {request : ParentChange} {facts : ParentFacts} {lastSeq : Nat}
      (reason : String) :
      system.pass = some ⟨record, .checked (some request) facts lastSeq⟩ →
      (system.logs record).length = lastSeq →
      ParentStep root system { system with
        logs := system.logs.append record (.node (.parentCancelled request.id reason))
        pass := none }
  | admits {record : String} {request : Option ParentChange} {facts : ParentFacts} {lastSeq : Nat}
      (destination : Option ParentDestination) :
      system.pass = some ⟨record, .checked request facts lastSeq⟩ →
      (∀ found, destination = some found → found.Admitted system.logs) →
      ParentStep root system { system with
        pass := some ⟨record, .validating request facts lastSeq
          (startValidation root record destination)⟩ }
  | walk {record : String} {request : Option ParentChange} {facts : ParentFacts} {lastSeq : Nat}
      {validation : ParentValidation} {walk : ParentWalk} :
      system.pass = some ⟨record, .validating request facts lastSeq validation⟩ →
      validation.walk.step system.logs.read = .ok walk →
      ParentStep root system { system with
        pass := some ⟨record, .validating request facts lastSeq
          { validation with walk := walk }⟩ }
  /-- The validation refuses, or the destination is not the requested one any more. -/
  | refuse {record : String} {request : ParentChange} {facts : ParentFacts} {lastSeq : Nat}
      {stage : PassStage} (reason : String) :
      system.pass = some ⟨record, stage⟩ →
      (stage = .checked (some request) facts lastSeq ∨
        ∃ validation, stage = .validating (some request) facts lastSeq validation) →
      ParentStep root system { system with
        logs := system.logs.append record (.node (.parentCancelled request.id reason))
        pass := none }
  | accept {record branch : String} {request : Option ParentChange} {facts : ParentFacts}
      {lastSeq : Nat} {validation : ParentValidation} (id revision : String) :
      system.pass = some ⟨record, .validating request facts lastSeq validation⟩ →
      validation.walk.todo = [] →
      (∀ asked, request = some asked →
        id = asked.id ∧ SameDestination validation.next asked) →
      facts.baseBranch = some branch →
      (system.logs record).length = lastSeq →
      ParentStep root system { system with
        logs := system.logs.append record (.node (.parentAccepted
          ⟨id, ⟨facts.target, branch⟩, validation.next, revision⟩))
        pass := none }
  /-- A return without an event of its own, or death.  The next pass may be that of another
  dispatcher. -/
  | stop : ParentStep root system { system with pass := none }
  /-- Whatever else is appended to the log of a build. -/
  | other (slug : String) (body : EventBody) : system.logs slug ≠ [] → body.staysPut = true →
      ParentStep root system { system with logs := system.logs.append slug body }
  /-- A new build, at the root or under an open node. -/
  | create (slug : String) (payload : BuildCreated) : slug ≠ "" → system.logs slug = [] →
      (∀ target, payload.target = some target → ∃ facts,
        system.logs.read target.build = some facts ∧ facts.kind = some .node ∧
          facts.nodeOpened = true) →
      ParentStep root system { system with
        logs := system.logs.append slug (.build (.created payload)) }

/-- Runs from given logs. -/
def ParentRun (root : String) (start : BuildLogs) (system : ParentSystem) : Prop :=
  Relation.ReflTransGen (ParentStep root) { logs := start } system

/-! ## 3. What the events say -/

/-- What an event of a move says of the state right before it. -/
def Truthful (facts : ParentFacts) : EventBody → Prop
  | .node (.parentRequested _) => facts.parentRequest = none
  | .node (.parentAccepted move) =>
    facts.parentChange = none ∧ move.old.target = facts.target ∧
      facts.baseBranch = some move.old.branch ∧
      ∀ request, facts.parentRequest = some request →
        move.id = request.id ∧ SameDestination move.next request
  | _ => True

/-- What was appended to a log is truthful. -/
def TruthfulSince (start log : List EventBody) : Prop :=
  ∃ added, log = start ++ added ∧
    ∀ before body after, added = before ++ body :: after →
      Truthful (parentFacts (start ++ before)) body

/-- Builds whose target relation is acyclic: the target of a build is a build. -/
structure ParentStart (logs : BuildLogs) : Prop where
  named : logs "" = []
  finite : {slug | logs slug ≠ []}.Finite
  built : ∀ slug target, logs.effective slug = some target → logs target ≠ []
  acyclic : ∀ slug,
    ¬ Relation.TransGen (fun slug target => logs.effective slug = some target) slug slug

/-! ## 4. Logs that grow -/

section Growth

variable {logs : BuildLogs} {slug : String} {body : EventBody}

@[simp] theorem append_self : logs.append slug body slug = logs slug ++ [body] :=
  Function.update_self ..

theorem append_of_ne {other : String} (h : other ≠ slug) :
    logs.append slug body other = logs other :=
  Function.update_of_ne h ..

theorem append_ne_nil {other : String} (h : logs other ≠ []) :
    logs.append slug body other ≠ [] := by
  by_cases ho : other = slug
  · rw [ho, append_self]
    exact List.append_ne_nil_of_right_ne_nil _ (List.cons_ne_nil _ _)
  · rwa [append_of_ne ho]

theorem effective_append_of_ne {other : String} (h : other ≠ slug) :
    (logs.append slug body).effective other = logs.effective other := by
  unfold BuildLogs.effective
  rw [append_of_ne h]

theorem effective_append_self :
    (logs.append slug body).effective slug
      = ((parentFacts (logs slug)).note body).target.map (·.build) := by
  unfold BuildLogs.effective
  rw [append_self, parentFacts_snoc]

/-- Only the first event and an acceptance name a target. -/
theorem note_target {facts : ParentFacts} (hstays : body.setsTarget = false) :
    (facts.note body).target = facts.target := by
  cases body with
  | build body =>
    cases body with
    | created payload => cases hstays
    | _ => rfl
  | node body =>
    cases body with
    | parentAccepted move => cases hstays
    | _ => rfl
  | _ => rfl

/-- A request that is pending after another event was pending before it. -/
theorem note_parentRequest {facts : ParentFacts} {pending : ParentChange}
    (hrequested : ∀ request, body ≠ .node (.parentRequested request))
    (h : (facts.note body).parentRequest = some pending) :
    facts.parentRequest = some pending := by
  cases body with
  | build body => cases body <;> exact h
  | node body =>
    cases body with
    | parentRequested request => exact absurd rfl (hrequested request)
    | parentAccepted move => cases h
    | parentCancelled id reason => exact (Option.filter_eq_some_iff.mp h).1
    | _ => exact h
  | _ => exact h

theorem effective_append_of_stays (hstays : body.setsTarget = false) :
    (logs.append slug body).effective = logs.effective := by
  funext other
  by_cases h : other = slug
  · rw [h, effective_append_self, note_target hstays]
    rfl
  · exact effective_append_of_ne h

theorem requestIds_snoc (log : List EventBody) (body : EventBody) :
    requestIds (log ++ [body]) = requestIds log ++ requestIds [body] :=
  List.filterMap_append

theorem mem_requestIds {log : List EventBody} {request : ParentChange}
    (h : (parentFacts log).parentRequest = some request) : request.id ∈ requestIds log := by
  induction log using List.reverseRecOn with
  | nil => cases h
  | append_singleton log body ih =>
    rw [parentFacts_snoc] at h
    rw [requestIds_snoc]
    by_cases hrequested : ∃ asked, body = .node (.parentRequested asked)
    · obtain ⟨asked, rfl⟩ := hrequested
      cases h
      exact List.mem_append_right _ (List.mem_singleton_self _)
    · push Not at hrequested
      exact List.mem_append_left _ (ih (note_parentRequest hrequested h))

theorem TruthfulSince.refl (log : List EventBody) : TruthfulSince log log := by
  refine ⟨[], (List.append_nil _).symm, fun before body after he => ?_⟩
  cases List.append_eq_nil_iff.mp he.symm |>.2

/-- An appended event is truthful if it is on the whole log before it. -/
theorem TruthfulSince.snoc {start log : List EventBody} (h : TruthfulSince start log)
    (htruthful : Truthful (parentFacts log) body) : TruthfulSince start (log ++ [body]) := by
  obtain ⟨added, rfl, hadded⟩ := h
  refine ⟨added ++ [body], List.append_assoc .., fun before other after he => ?_⟩
  cases after using List.reverseRecOn with
  | nil =>
    obtain ⟨rfl, hbody⟩ := List.append_inj' he rfl
    cases hbody
    exact htruthful
  | append_singleton after last =>
    rw [← List.cons_append, ← List.append_assoc] at he
    obtain ⟨rfl, -⟩ := List.append_inj' he rfl
    exact hadded before other after rfl

end Growth

/-! ## 5. What holds in a run -/

/-- The facts are those of the log as long as it has the length that was read. -/
def FactsCurrent (log : List EventBody) (facts : ParentFacts) (lastSeq : Nat) : Prop :=
  lastSeq ≤ log.length ∧ (log.length = lastSeq → parentFacts log = facts)

/-- The request that was read is the only one with its id. -/
def SameRequest (log : List EventBody) (request : Option ParentChange) : Prop :=
  ∀ asked, request = some asked → asked.id ∈ requestIds log ∧
    ∀ pending, (parentFacts log).parentRequest = some pending → pending.id = asked.id →
      pending = asked

def CallerStage.Holds (log : List EventBody) : CallerStage → Prop
  | .checked facts lastSeq => FactsCurrent log facts lastSeq ∧ facts.parentRequest = none
  | .validating facts lastSeq _ => FactsCurrent log facts lastSeq ∧ facts.parentRequest = none
  | _ => True

structure CallerHolds (logs : BuildLogs) (caller : ParentCaller) : Prop where
  built : logs caller.record ≠ []
  stage : caller.stage.Holds (logs caller.record)

/-- What was read under the writer of the node. -/
structure CheckHolds (log : List EventBody) (request : Option ParentChange) (facts : ParentFacts)
    (lastSeq : Nat) : Prop where
  current : FactsCurrent log facts lastSeq
  change : facts.parentChange = none
  request : facts.parentRequest = request

def PassHolds (logs : BuildLogs) (record : String) : PassStage → Prop
  | .observed facts => SameRequest (logs record) facts.parentRequest
  | .claimed request => SameRequest (logs record) request
  | .checked request facts lastSeq => CheckHolds (logs record) request facts lastSeq
  | .validating request facts lastSeq validation =>
    CheckHolds (logs record) request facts lastSeq ∧
      ∀ target, validation.next.target = some target →
        validation.walk.Sound (logs · ≠ []) logs.effective record target.build

/-- The targets of the builds. -/
structure LogsHold (start logs : BuildLogs) : Prop where
  named : logs "" = []
  built : ∀ slug target, logs.effective slug = some target → logs target ≠ []
  forest : Forest logs.effective
  truthful : ∀ slug, TruthfulSince (start slug) (logs slug)

structure ParentHolds (start : BuildLogs) (system : ParentSystem) : Prop where
  logs : LogsHold start system.logs
  callers : ∀ caller ∈ system.callers, CallerHolds system.logs caller
  pass : ∀ record stage, system.pass = some ⟨record, stage⟩ →
    system.logs record ≠ [] ∧ PassHolds system.logs record stage

section Kept

variable {start logs : BuildLogs} {slug : String} {body : EventBody}

theorem FactsCurrent.now (log : List EventBody) : FactsCurrent log (parentFacts log) log.length :=
  ⟨Nat.le_refl _, fun _ => rfl⟩

theorem FactsCurrent.append {record : String} {facts : ParentFacts} {lastSeq : Nat}
    (h : FactsCurrent (logs record) facts lastSeq) :
    FactsCurrent (logs.append slug body record) facts lastSeq := by
  by_cases hr : record = slug
  · subst hr
    rw [append_self]
    refine ⟨?_, fun hlength => ?_⟩
    · rw [List.length_append]
      exact Nat.le_add_right_of_le h.1
    · rw [List.length_append, List.length_singleton] at hlength
      have := h.1
      omega
  · rwa [append_of_ne hr]

theorem SameRequest.now (log : List EventBody) :
    SameRequest log (parentFacts log).parentRequest := by
  intro asked hasked
  refine ⟨mem_requestIds hasked, fun pending hpending _ => ?_⟩
  rw [hasked] at hpending
  exact (Option.some.inj hpending).symm

/-- A request that is appended meanwhile has another id. -/
theorem SameRequest.append {record : String} {request : Option ParentChange}
    (h : SameRequest (logs record) request)
    (hfresh : ∀ asked, body = .node (.parentRequested asked) →
      asked.id ∉ requestIds (logs slug)) :
    SameRequest (logs.append slug body record) request := by
  by_cases hr : record = slug
  · subst hr
    intro asked hasked
    obtain ⟨hmem, hsame⟩ := h asked hasked
    rw [append_self, requestIds_snoc]
    refine ⟨List.mem_append_left _ hmem, fun pending hpending hid => ?_⟩
    rw [parentFacts_snoc] at hpending
    by_cases hrequested : ∃ other, body = .node (.parentRequested other)
    · obtain ⟨other, rfl⟩ := hrequested
      cases hpending
      exact absurd (hid ▸ hmem) (hfresh _ rfl)
    · push Not at hrequested
      exact hsame pending (note_parentRequest hrequested hpending) hid
  · rwa [append_of_ne hr]

/-- The request under the writer is the one the pass began with. -/
theorem SameRequest.eq {log : List EventBody} {request : Option ParentChange}
    (h : SameRequest log request)
    (hid : (parentFacts log).parentRequest.map (·.id) = request.map (·.id)) :
    (parentFacts log).parentRequest = request := by
  cases request with
  | none => exact Option.map_eq_none_iff.mp hid
  | some asked =>
    obtain ⟨pending, hpending, hp⟩ := Option.map_eq_some_iff.mp hid
    rw [hpending, (h asked rfl).2 pending hpending hp]

theorem CallerHolds.append {caller : ParentCaller} (h : CallerHolds logs caller) :
    CallerHolds (logs.append slug body) caller := by
  obtain ⟨record, holder, stage⟩ := caller
  obtain ⟨hbuilt, hstage⟩ := h
  refine ⟨append_ne_nil hbuilt, ?_⟩
  cases stage with
  | claimed => trivial
  | checked facts lastSeq => exact ⟨FactsCurrent.append hstage.1, hstage.2⟩
  | validating facts lastSeq validation => exact ⟨FactsCurrent.append hstage.1, hstage.2⟩
  | writing => trivial

theorem CheckHolds.append {record : String} {request : Option ParentChange} {facts : ParentFacts}
    {lastSeq : Nat} (h : CheckHolds (logs record) request facts lastSeq) :
    CheckHolds (logs.append slug body record) request facts lastSeq :=
  { h with current := h.current.append }

/-- A pass holds over an event that moves no build that is there. -/
theorem PassHolds.append {record : String} {stage : PassStage} (h : PassHolds logs record stage)
    (hstays : ∀ other, logs other ≠ [] →
      (logs.append slug body).effective other = logs.effective other)
    (hfresh : ∀ asked, body = .node (.parentRequested asked) →
      asked.id ∉ requestIds (logs slug)) :
    PassHolds (logs.append slug body) record stage := by
  cases stage with
  | observed facts => exact SameRequest.append h hfresh
  | claimed request => exact SameRequest.append h hfresh
  | checked request facts lastSeq => exact CheckHolds.append h
  | validating request facts lastSeq validation =>
    exact ⟨h.1.append, fun target htarget =>
      (h.2 target htarget).mono (fun _ => append_ne_nil) hstays⟩

theorem LogsHold.ne_blank (h : LogsHold start logs) (hslug : logs slug ≠ []) : slug ≠ "" := by
  rintro rfl
  exact hslug h.named

theorem effective_blank (h : LogsHold start logs) : logs.effective "" = none := by
  unfold BuildLogs.effective
  rw [h.named]
  rfl

theorem truthful_append (h : LogsHold start logs)
    (htruthful : Truthful (parentFacts (logs slug)) body) (other : String) :
    TruthfulSince (start other) (logs.append slug body other) := by
  by_cases ho : other = slug
  · rw [ho, append_self]
    exact (h.truthful slug).snoc htruthful
  · rw [append_of_ne ho]
    exact h.truthful other

/-- An event that moves nothing. -/
theorem LogsHold.append (h : LogsHold start logs) (hslug : logs slug ≠ [])
    (hstays : (logs.append slug body).effective = logs.effective)
    (htruthful : Truthful (parentFacts (logs slug)) body) :
    LogsHold start (logs.append slug body) where
  named := by
    rw [append_of_ne (h.ne_blank hslug).symm]
    exact h.named
  built other target htarget := append_ne_nil (h.built other target (by rwa [hstays] at htarget))
  forest := by
    rw [hstays]
    exact h.forest
  truthful := truthful_append h htruthful

/-- A build may be put under builds that are there and whose way up is clear of it. -/
theorem LogsHold.place (h : LogsHold start logs) (hne : slug ≠ "") {body : EventBody}
    (htruthful : Truthful (parentFacts (logs slug)) body)
    (hplaced : ∀ above, (logs.append slug body).effective slug = some above →
      logs above ≠ [] ∧ EndsClear logs.effective slug above) :
    LogsHold start (logs.append slug body) := by
  refine ⟨?_, fun other target htarget => ?_, ?_, truthful_append h htruthful⟩
  · rw [append_of_ne hne.symm]
    exact h.named
  · by_cases ho : other = slug
    · rw [ho] at htarget
      exact append_ne_nil (hplaced target htarget).1
    · rw [effective_append_of_ne ho] at htarget
      exact append_ne_nil (h.built other target htarget)
  · exact h.forest.change slug (fun other ho => effective_append_of_ne ho) fun above habove =>
      (hplaced above habove).2

/-- An accepted move puts a node under its target, and leaves a leaf where it is. -/
theorem effective_append_accepted (logs : BuildLogs) (slug : String) (move : ParentChange) :
    (logs.append slug (.node (.parentAccepted move))).effective slug
      = if (parentFacts (logs slug)).kind = some .node then move.next.target.map (·.build)
        else logs.effective slug := by
  rw [effective_append_self]
  unfold ParentFacts.note ParentFacts.accept
  dsimp only
  split_ifs <;> rfl

/-- **An accepted move keeps the targets acyclic**: the walk is over, and the logs it read moved
nothing since. -/
theorem LogsHold.accept (h : LogsHold start logs) (hslug : logs slug ≠ []) {move : ParentChange}
    (htruthful : Truthful (parentFacts (logs slug)) (.node (.parentAccepted move)))
    (hclear : ∀ target, move.next.target = some target →
      logs target.build ≠ [] ∧ EndsClear logs.effective slug target.build) :
    LogsHold start (logs.append slug (.node (.parentAccepted move))) := by
  by_cases hnode : (parentFacts (logs slug)).kind = some .node
  · refine h.place (h.ne_blank hslug) htruthful fun above habove => ?_
    rw [effective_append_accepted, if_pos hnode] at habove
    obtain ⟨target, htarget, rfl⟩ := Option.map_eq_some_iff.mp habove
    exact hclear target htarget
  · refine h.append hslug ?_ htruthful
    funext other
    by_cases ho : other = slug
    · rw [ho, effective_append_accepted, if_neg hnode]
    · exact effective_append_of_ne ho

/-- Nobody is above a build that is not there. -/
theorem endsClear_of_missing (h : LogsHold start logs) (hmissing : logs slug = []) :
    ∀ target, logs target ≠ [] → EndsClear logs.effective slug target := by
  intro target
  induction target using h.forest.induction with
  | _ target ih =>
    intro hbuilt
    have hne : target ≠ slug := by
      rintro rfl
      exact hbuilt hmissing
    cases hup : logs.effective target with
    | none => exact .root hne hup
    | some above => exact .up hne hup (ih above hup (h.built target above hup))

theorem LogsHold.create (h : LogsHold start logs) (hne : slug ≠ "") (hmissing : logs slug = [])
    {payload : BuildCreated}
    (hunder : ∀ target, payload.target = some target → logs target.build ≠ []) :
    LogsHold start (logs.append slug (.build (.created payload))) := by
  refine h.place hne trivial fun above habove => ?_
  rw [effective_append_self] at habove
  obtain ⟨target, htarget, rfl⟩ := Option.map_eq_some_iff.mp habove
  exact ⟨hunder target htarget,
    endsClear_of_missing h hmissing target.build (hunder target htarget)⟩

theorem effective_of_read {facts : ParentFacts} (h : logs.read slug = some facts) :
    logs slug ≠ [] ∧ facts = parentFacts (logs slug) := by
  unfold BuildLogs.read at h
  split_ifs at h with hmissing
  exact ⟨hmissing, (Option.some.inj h).symm⟩

/-- A read of the walk shows the build as it is. -/
theorem walk_step_sound {record target : String} {walk walk' : ParentWalk}
    (h : walk.Sound (logs · ≠ []) logs.effective record target)
    (hstep : walk.step logs.read = .ok walk') :
    walk'.Sound (logs · ≠ []) logs.effective record target := by
  refine h.step (fun _ _ hread => (effective_of_read hread).1) (fun other facts hread => ?_) hstep
  rw [(effective_of_read hread).2]
  rfl

theorem setsTarget_of_staysPut (hstays : body.staysPut = true) : body.setsTarget = false := by
  cases body with
  | build body =>
    cases body with
    | created payload => cases hstays
    | _ => rfl
  | node body =>
    cases body with
    | parentAccepted move => cases hstays
    | _ => rfl
  | _ => rfl

theorem truthful_of_staysPut (hstays : body.staysPut = true) (facts : ParentFacts) :
    Truthful facts body := by
  cases body with
  | build body => cases body <;> trivial
  | node body =>
    cases body with
    | parentRequested request => cases hstays
    | parentAccepted move => cases hstays
    | _ => trivial
  | _ => trivial

/-- **The request is truthful**: nothing was appended since the caller saw none. -/
theorem request_truthful {caller : ParentCaller} {facts : ParentFacts}
    {lastSeq : Nat} {validation : ParentValidation} (h : CallerHolds logs caller)
    (hstage : caller.stage = .validating facts lastSeq validation)
    (hlength : (logs caller.record).length = lastSeq) (request : ParentChange) :
    Truthful (parentFacts (logs caller.record)) (.node (.parentRequested request)) := by
  have hholds := h.stage
  rw [hstage] at hholds
  obtain ⟨hcurrent, hnone⟩ := hholds
  exact (congrArg ParentFacts.parentRequest (hcurrent.2 hlength)).trans hnone

/-- **The acceptance is truthful**: nothing was appended since the pass read the facts. -/
theorem accept_truthful {log : List EventBody} {request : Option ParentChange}
    {facts : ParentFacts} {lastSeq : Nat} (h : CheckHolds log request facts lastSeq)
    (hlength : log.length = lastSeq) {id branch revision : String} {next : NodeParent}
    (hasked : ∀ asked, request = some asked → id = asked.id ∧ SameDestination next asked)
    (hbranch : facts.baseBranch = some branch) :
    Truthful (parentFacts log)
      (.node (.parentAccepted ⟨id, ⟨facts.target, branch⟩, next, revision⟩)) := by
  rw [h.current.2 hlength]
  exact ⟨h.change, rfl, hbranch, fun asked hpending => hasked asked (h.request.symm.trans hpending)⟩

end Kept

section Steps

variable {root : String} {start : BuildLogs} {system system' : ParentSystem}

/-- An event that moves nothing, between the steps of the pass. -/
theorem ParentHolds.append (h : ParentHolds start system) {slug : String} (body : EventBody)
    {callers : List ParentCaller} (hslug : system.logs slug ≠ [])
    (hcallers : ∀ caller ∈ callers, CallerHolds system.logs caller)
    (hstays : body.setsTarget = false)
    (htruthful : Truthful (parentFacts (system.logs slug)) body)
    (hfresh : ∀ asked, body = .node (.parentRequested asked) →
      asked.id ∉ requestIds (system.logs slug)) :
    ParentHolds start { system with
      logs := system.logs.append slug body
      callers := callers } where
  logs := h.logs.append hslug (effective_append_of_stays hstays) htruthful
  callers caller hc := (hcallers caller hc).append
  pass record stage hpass := by
    obtain ⟨hrecord, hstage⟩ := h.pass record stage hpass
    refine ⟨append_ne_nil hrecord, hstage.append (fun other _ => ?_) hfresh⟩
    rw [effective_append_of_stays hstays]

theorem ParentHolds.stop (h : ParentHolds start system) :
    ParentHolds start { system with pass := none } :=
  { h with pass := fun _ _ hpass => (by cases hpass) }

theorem ParentHolds.moveCallers (h : ParentHolds start system) {callers : List ParentCaller}
    (hcallers : ∀ caller ∈ callers, CallerHolds system.logs caller) :
    ParentHolds start { system with callers := callers } :=
  { h with callers := hcallers }

theorem ParentHolds.movePass (h : ParentHolds start system) {record : String} {stage : PassStage}
    (hrecord : system.logs record ≠ []) (hstage : PassHolds system.logs record stage) :
    ParentHolds start { system with pass := some ⟨record, stage⟩ } :=
  { h with
    pass := fun _ _ hpass => by
      cases hpass
      exact ⟨hrecord, hstage⟩ }

/-- The callers, one of them apart. -/
theorem ParentHolds.split (h : ParentHolds start system) {caller : ParentCaller}
    {rest : List ParentCaller} (hperm : system.callers.Perm (caller :: rest)) :
    CallerHolds system.logs caller ∧ ∀ other ∈ rest, CallerHolds system.logs other :=
  ⟨h.callers _ (hperm.mem_iff.mpr List.mem_cons_self),
    fun other ho => h.callers other (hperm.mem_iff.mpr (List.mem_cons_of_mem _ ho))⟩

/-- **Every step keeps it.** -/
theorem ParentHolds.step (h : ParentHolds start system) (hstep : ParentStep root system system') :
    ParentHolds start system' := by
  cases hstep with
  | call holder hbuilt =>
    exact h.moveCallers (List.forall_mem_cons.mpr ⟨⟨hbuilt, trivial⟩, h.callers⟩)
  | callerChecks hperm hrequest _ =>
    obtain ⟨hcaller, hrest⟩ := h.split hperm
    exact h.moveCallers (List.forall_mem_cons.mpr
      ⟨⟨hcaller.built, FactsCurrent.now _, hrequest⟩, hrest⟩)
  | callerAdmits destination hperm _ =>
    obtain ⟨hcaller, hrest⟩ := h.split hperm
    exact h.moveCallers (List.forall_mem_cons.mpr ⟨⟨hcaller.built, hcaller.stage⟩, hrest⟩)
  | callerWalks hperm _ =>
    obtain ⟨hcaller, hrest⟩ := h.split hperm
    exact h.moveCallers (List.forall_mem_cons.mpr ⟨⟨hcaller.built, hcaller.stage⟩, hrest⟩)
  | @request record holder branch facts lastSeq validation rest revision hperm _ _ hfresh hlength =>
    obtain ⟨hcaller, hrest⟩ := h.split hperm
    refine h.append _ hcaller.built (List.forall_mem_cons.mpr ⟨⟨hcaller.built, trivial⟩, hrest⟩)
      rfl (request_truthful hcaller rfl hlength _) fun asked hasked => ?_
    cases hasked
    exact hfresh
  | @callerCancels record holder rest reason hperm =>
    obtain ⟨hcaller, hrest⟩ := h.split hperm
    exact h.append (.node (.parentCancelled holder reason)) hcaller.built hrest rfl trivial
      fun _ he => (by cases he)
  | callerEnds hperm => exact h.moveCallers (h.split hperm).2
  | observe hpass hread hkind =>
    obtain ⟨hrecord, rfl⟩ := effective_of_read hread
    exact h.movePass hrecord (SameRequest.now _)
  | @complete record facts move hpass _ =>
    exact (h.append (.node (.parentCompleted move.id)) (h.pass _ _ hpass).1 h.callers rfl trivial
      fun _ he => (by cases he)).stop
  | claim hpass hchange => exact h.movePass (h.pass _ _ hpass).1 (h.pass _ _ hpass).2
  | check hpass hchange hid =>
    obtain ⟨hrecord, hsame⟩ := h.pass _ _ hpass
    exact h.movePass hrecord ⟨FactsCurrent.now _, hchange, hsame.eq hid⟩
  | @unconfirmed record request facts lastSeq reason hpass _ =>
    exact (h.append (.node (.parentCancelled request.id reason)) (h.pass _ _ hpass).1 h.callers
      rfl trivial fun _ he => (by cases he)).stop
  | admits destination hpass hadmitted =>
    obtain ⟨hrecord, hcheck⟩ := h.pass _ _ hpass
    refine h.movePass hrecord ⟨hcheck, fun target htarget => ?_⟩
    cases destination with
    | none => cases htarget
    | some found =>
      cases htarget
      exact ParentWalk.Sound.start ..
  | walk hpass hstep =>
    obtain ⟨hrecord, hcheck, hsound⟩ := h.pass _ _ hpass
    exact h.movePass hrecord ⟨hcheck, fun target htarget =>
      walk_step_sound (hsound target htarget) hstep⟩
  | @refuse record request facts lastSeq stage reason hpass _ =>
    exact (h.append (.node (.parentCancelled request.id reason)) (h.pass _ _ hpass).1 h.callers
      rfl trivial fun _ he => (by cases he)).stop
  | @accept record branch request facts lastSeq validation id revision hpass hdone hasked hbranch
      hlength =>
    obtain ⟨hrecord, hcheck, hsound⟩ := h.pass _ _ hpass
    refine ⟨h.logs.accept hrecord (accept_truthful hcheck hlength hasked hbranch)
      fun target htarget => ?_, fun caller hc => (h.callers caller hc).append,
      fun _ _ hnone => (by cases hnone)⟩
    have hclear := hsound target htarget
    refine ⟨?_, hclear.endsClear hdone h.logs.forest (effective_blank h.logs)
      (h.logs.ne_blank hrecord)⟩
    rcases hclear.first with hpassed | ⟨path, he⟩
    · exact hclear.built _ hpassed
    · rw [hdone] at he
      exact absurd he List.not_mem_nil
  | stop => exact h.stop
  | other slug body hslug hstays =>
    refine h.append body hslug h.callers (setsTarget_of_staysPut hstays)
      (truthful_of_staysPut hstays _) fun asked he => ?_
    rw [he] at hstays
    cases hstays
  | create slug payload hne hmissing hunder =>
    refine ⟨h.logs.create hne hmissing fun target htarget => ?_,
      fun caller hc => (h.callers caller hc).append, fun record stage hpass => ?_⟩
    · obtain ⟨facts, hread, -⟩ := hunder target htarget
      exact (effective_of_read hread).1
    · obtain ⟨hrecord, hstage⟩ := h.pass record stage hpass
      refine ⟨append_ne_nil hrecord, hstage.append (fun other hother => ?_) fun _ he =>
        (by cases he)⟩
      refine effective_append_of_ne ?_
      rintro rfl
      exact hother hmissing

end Steps

theorem ParentStart.holds {start : BuildLogs} (h : ParentStart start) :
    ParentHolds start { logs := start } where
  logs :=
    { named := h.named
      built := h.built
      forest := by
        refine Forest.of_acyclic (h.finite.subset fun slug hup hmissing => hup ?_) h.acyclic
        unfold BuildLogs.effective
        dsimp only
        rw [hmissing]
        rfl
      truthful := fun slug => TruthfulSince.refl _ }
  callers _ hc := absurd hc List.not_mem_nil
  pass _ _ hpass := by cases hpass

/-- **Moves stay acyclic and truthful**: in every run the relation from each build to its
effective target is acyclic; no request is appended while another is pending; and every accepted
move was accepted when the one before it was completed, names the parent that was effective right
before it, and answers the pending request. -/
theorem parent_moves_truthful {root : String} {start : BuildLogs} {system : ParentSystem}
    (hstart : ParentStart start) (hrun : ParentRun root start system) :
    (∀ slug, ¬ Relation.TransGen
      (fun slug target => system.logs.effective slug = some target) slug slug) ∧
      ∀ slug, TruthfulSince (start slug) (system.logs slug) := by
  have hholds : ParentHolds start system := by
    induction hrun with
    | refl => exact hstart.holds
    | tail _ hstep ih => exact ih.step hstep
  exact ⟨hholds.logs.forest.not_transGen, hholds.logs.truthful⟩

/-- Two open nodes at the root. -/
def twoNodes : BuildLogs := fun slug =>
  if slug = "a" ∨ slug = "b" then
    [.build (.created ⟨⟨"tracker", slug, none, none⟩, "repo", "main", some .node, none,
      none, none⟩),
      .node (.opened "sha")]
  else []

theorem twoNodes_start : ParentStart twoNodes := by
  have hroot : ∀ slug, twoNodes.effective slug = none := by
    intro slug
    unfold BuildLogs.effective twoNodes
    split <;> rfl
  refine ⟨by decide, ?_, fun slug target htarget => ?_, fun slug hcycle => ?_⟩
  · refine (Set.toFinite {"a", "b"}).subset fun slug hslug => ?_
    by_contra hother
    exact hslug (if_neg hother)
  · rw [hroot] at htarget
    cases htarget
  · obtain ⟨above, hup, -⟩ := Relation.TransGen.head'_iff.mp hcycle
    rw [hroot] at hup
    cases hup

/-- A move of one under the other, asked for in the ticket source alone. -/
theorem parent_moves_truthful_move : ∃ system : ParentSystem,
    system.logs.effective "a" = some "b" ∧
      (∀ slug, ¬ Relation.TransGen
        (fun slug target => system.logs.effective slug = some target) slug slug) ∧
      ∀ slug, TruthfulSince (twoNodes slug) (system.logs slug) := by
  let facts : ParentFacts := ⟨some .node, true, none, some "main", none, none⟩
  let target : BuildTarget := ⟨⟨"tracker", "b", none, none⟩, "b"⟩
  have hobserved : ParentRun "main" twoNodes
      { logs := twoNodes, pass := some ⟨"a", .observed facts⟩ } :=
    .single (.observe rfl rfl rfl)
  have hclaimed : ParentRun "main" twoNodes
      { logs := twoNodes, pass := some ⟨"a", .claimed none⟩ } :=
    hobserved.tail (@ParentStep.claim _ _ "a" facts rfl rfl)
  have hchecked : ParentRun "main" twoNodes
      { logs := twoNodes, pass := some ⟨"a", .checked none facts 2⟩ } :=
    hclaimed.tail (.check rfl rfl rfl)
  have hadmitted : ParentRun "main" twoNodes
      { logs := twoNodes
        pass := some ⟨"a", .validating none facts 2
          ⟨⟨some target, "ab-node/b"⟩, ⟨[], [.enter "b" ["a"]]⟩⟩⟩ } := by
    refine hchecked.tail (.admits (some ⟨target, "ab-node/b"⟩) rfl fun found hfound => ?_)
    cases hfound
    exact ⟨facts, rfl, rfl, rfl⟩
  have hwalked : ParentRun "main" twoNodes
      { logs := twoNodes
        pass := some ⟨"a", .validating none facts 2
          ⟨⟨some target, "ab-node/b"⟩, ⟨[], [.leave "b"]⟩⟩⟩ } :=
    hadmitted.tail (@ParentStep.walk _ _ "a" none facts 2
      ⟨⟨some target, "ab-node/b"⟩, ⟨[], [.enter "b" ["a"]]⟩⟩ _ rfl rfl)
  have hleft : ParentRun "main" twoNodes
      { logs := twoNodes
        pass := some ⟨"a", .validating none facts 2
          ⟨⟨some target, "ab-node/b"⟩, ⟨["b"], []⟩⟩⟩ } :=
    hwalked.tail (@ParentStep.walk _ _ "a" none facts 2
      ⟨⟨some target, "ab-node/b"⟩, ⟨[], [.leave "b"]⟩⟩ _ rfl rfl)
  have haccepted : ParentRun "main" twoNodes _ :=
    hleft.tail (.accept "move" "rev" rfl rfl (fun _ hasked => (by cases hasked)) rfl rfl)
  exact ⟨_, rfl, parent_moves_truthful twoNodes_start haccepted⟩

end Autobuild
