/-
# Executions that make no progress

Dispatcher and runner can disagree: the runner ends normally, having found nothing to do, and the
dispatcher starts it again.  After three such executions a human is asked.

* `foldNoProgress`: how the streak is counted, event by event.
* `Runs`, `OwnEnd`, `IsStreak`: what a streak is, on the log itself.
* `Tracks`: the count is the longest streak there is.
* `EnsureSystem`: any number of callers that ask, each with an append that needs the log to be as it
  was read.
* `execution_no_progress`: both results.
-/
import Autobuild.Kernel.Engine
import Mathlib.Data.List.Induction
import Mathlib.Order.Bounds.Basic

namespace Autobuild.ExecutionNoProgress

/-! ## 1. Which events advance a build -/

inductive Progress where
  | bookkeeping
  | failure
  | progress
  deriving DecidableEq

def executionProgress : List (String × Progress) :=
  [("execution.relaunch-requested", .bookkeeping), ("execution.drain-authorized", .bookkeeping),
    ("execution.drain-settled", .bookkeeping), ("build.compatibility-deferred", .bookkeeping),
    ("build.janitor-attempt-failed", .bookkeeping), ("build.janitor-failing", .bookkeeping),
    ("build.janitor-recovered", .bookkeeping), ("landing.application-failed", .failure),
    ("landing.decided", .progress), ("build.hold-requested", .progress),
    ("build.land-requested", .progress), ("landing.command-acknowledged", .progress),
    ("landing.native-enable-started", .bookkeeping), ("landing.forge-merged", .progress),
    ("landing.native-applied", .bookkeeping), ("target.distance", .bookkeeping),
    ("target.rewritten", .bookkeeping), ("target.rewrite-cleared", .bookkeeping),
    ("target.moved", .bookkeeping), ("restack.prepared", .progress),
    ("restack.replayed", .progress), ("restack.publish-intended", .progress),
    ("restack.rewritten", .progress), ("restack.contended", .progress),
    ("restack.completed", .progress), ("build.created", .progress),
    ("integration.abandoned", .progress), ("integration.observed", .bookkeeping),
    ("integration.prepared", .progress), ("integration.landing-intended", .progress),
    ("integration.landed", .progress), ("integration.verification-failed", .bookkeeping),
    ("integration.audited", .progress), ("node.opening", .progress),
    ("node.writer-reserved", .progress), ("node.item-prepared", .progress),
    ("node.item-replayed", .progress), ("node.item-conflicted", .progress),
    ("node.publish-intended", .progress), ("node.rewritten", .progress),
    ("node.writer-settled", .progress), ("node.contribution-recorded", .bookkeeping),
    ("node.issue-links-recorded", .bookkeeping), ("node.issue-links-published", .bookkeeping),
    ("node.inventory", .bookkeeping), ("node.restack-requested", .bookkeeping),
    ("node.restack-satisfied", .progress), ("node.restack-availability-observed", .bookkeeping),
    ("node.parent-distance", .bookkeeping), ("node.parent-requested", .bookkeeping),
    ("node.parent-accepted", .progress), ("node.parent-pr-retargeted", .progress),
    ("node.parent-completed", .progress), ("node.parent-cancelled", .bookkeeping),
    ("node.parent-rejection-cleared", .bookkeeping), ("node.parent-rejected", .bookkeeping),
    ("node.opened", .progress), ("node.poll-checked", .bookkeeping),
    ("node.compared", .bookkeeping), ("pr.opened", .progress), ("build.completed", .progress),
    ("runner.runtime-recorded", .bookkeeping), ("runner.attached", .bookkeeping),
    ("runner.setup-failed", .failure), ("workspace.provisioned", .bookkeeping),
    ("workspace.provision-started", .bookkeeping), ("workspace.cleanup-required", .bookkeeping),
    ("workspace.fenced", .bookkeeping), ("workspace.commits-preserved", .bookkeeping),
    ("workspace.commits-lost", .bookkeeping), ("workspace.released", .bookkeeping),
    ("execution.started", .bookkeeping), ("execution.ended", .bookkeeping),
    ("infrastructure.failed", .failure), ("infrastructure.cleanup-attempted", .bookkeeping),
    ("pr-summary.requested", .progress), ("pr-summary.attempted", .progress),
    ("pr-summary.result", .progress), ("pr-summary.settled", .progress),
    ("finalize.step-started", .progress), ("publication.requested", .progress),
    ("publication.candidate-retired", .progress), ("publication.lost", .progress),
    ("publication.retry-scheduled", .failure), ("publication.retry-exhausted", .failure),
    ("abort.remote-branch-deleted", .progress), ("abort.local-branch-deleted", .progress),
    ("abort.ticket-returned", .progress), ("dispatch.failed", .failure),
    ("dispatch.comment-posted", .bookkeeping), ("build.pause-requested", .progress),
    ("build.resume-requested", .progress), ("build.abort-requested", .progress),
    ("build.discard-requested", .progress), ("build.auto-merge-requested", .progress),
    ("build.auto-merge-cancelled", .progress),
    ("build.auto-merge-default-observed", .bookkeeping), ("build.paused", .progress),
    ("build.resumed", .progress), ("build.aborted", .progress), ("spec.imported", .progress),
    ("spec.authored", .progress), ("spec.revised", .progress),
    ("session.suspended", .bookkeeping), ("session.resumed", .bookkeeping),
    ("session.resume-fallback", .bookkeeping), ("session.started", .progress),
    ("session.native-handle-recorded", .bookkeeping), ("session.ended", .progress),
    ("plan.started", .progress), ("plan.completed", .progress),
    ("plan-review.started", .progress), ("plan-review.verdict", .progress),
    ("implement.started", .progress), ("implement.completed", .progress),
    ("code-review.started", .progress), ("code-review.verdict", .progress),
    ("verify.reconcile-policy-captured", .progress), ("verify.config-captured", .progress),
    ("verify.config-superseded", .progress), ("verify.started", .progress),
    ("verify.cancelled", .progress), ("verify.stage-failed", .progress),
    ("verify.completed", .progress), ("finalize.started", .progress),
    ("finalize.completed", .progress), ("finalize.step-completed", .progress),
    ("pr-attachment.designated", .progress), ("pr-attachment.hosted", .progress),
    ("pr-attachment.reclaimed", .progress), ("pr-attachment.reclaim-failed", .progress),
    ("pr.auto-merge-enabled", .progress), ("pr.auto-merge-disabled", .progress),
    ("pr.merged", .progress), ("pr.closed", .progress), ("pr.conflicted", .progress),
    ("reconcile.progress-checked", .progress), ("reconcile.prepared", .bookkeeping),
    ("reconcile.contended", .bookkeeping), ("reconcile.replayed", .bookkeeping),
    ("reconcile.publish-intended", .bookkeeping), ("reconcile.rewritten", .progress),
    ("reconcile.started", .progress), ("reconcile.completed", .progress),
    ("issue-link.downgraded", .progress), ("issue-links.sealed", .bookkeeping),
    ("observation.recorded", .progress), ("escalation.raised", .progress),
    ("escalation.answered", .progress), ("session.build-read-failed", .bookkeeping),
    ("session.build-read-recovered", .bookkeeping), ("phase.deferred", .bookkeeping),
    ("phase.deferral-escalated", .bookkeeping), ("phase.failed", .failure)]

/-- The types whose payload the reducer reads. -/
def readTypes : List String :=
  ["execution.started", "execution.ended", "escalation.raised", "escalation.answered"]

/-- Another type of the catalog. -/
structure OtherType where
  type : String
  other : type ∉ readTypes
  known : (executionProgress.lookup type).isSome

inductive ExecutionOutcome where
  | completed
  | stopped
  | lost
  | relaunch
  deriving DecidableEq

inductive LogEvent where
  | started (instanceId : String)
  | ended (instanceId : String) (outcome : ExecutionOutcome) (exitCode : Option Int)
  | raised (id : String) (source : EscalationSource) (policyCause : Option PolicyEscalationCause)
  | answered (id : String)
  | other (type : OtherType)

def LogEvent.type : LogEvent → String
  | .started _ => "execution.started"
  | .ended _ _ _ => "execution.ended"
  | .raised _ _ _ => "escalation.raised"
  | .answered _ => "escalation.answered"
  | .other type => type.type

structure StoredEvent where
  seq : Nat
  body : LogEvent

/-! ## 2. The reducer -/

structure ActiveExecution where
  instanceId : String
  seq : Nat
  eligible : Bool
  deriving DecidableEq

/-- `openIds` is the source's `open`. -/
structure Accumulator where
  active : Option ActiveExecution
  count : Nat
  openIds : List String
  latest : Option (String × Nat)
  deriving DecidableEq

def Accumulator.initial : Accumulator := ⟨none, 0, [], none⟩

/-- An event that is not read but for its type. -/
def foldClassified (acc : Accumulator) (event : LogEvent) : Accumulator :=
  if executionProgress.lookup event.type = some .bookkeeping then acc
  else
    { acc with
      count := 0
      active := acc.active.map fun active => { active with eligible := false } }

def foldEvent (acc : Accumulator) (event : StoredEvent) : Accumulator :=
  match event.body with
  | .started instanceId =>
    -- An abandoned start breaks the consecutive completed-execution streak.
    { acc with
      count := if acc.active.isSome then 0 else acc.count
      active := some ⟨instanceId, event.seq, true⟩ }
  | .ended instanceId outcome exitCode =>
    match acc.active with
    | none => acc
    | some active =>
      if active.instanceId ≠ instanceId then acc
      else
        let clean := outcome = .completed ∧ exitCode = some 0
        { acc with
          count := if clean ∧ active.eligible then acc.count + 1 else 0
          latest := some (instanceId, event.seq)
          active := none }
  | .raised id source policyCause =>
    if source = .policy ∧ policyCause = some .executionNoProgress then
      if id ∈ acc.openIds then acc else { acc with openIds := acc.openIds ++ [id] }
    else foldClassified acc event.body
  | .answered id =>
    if id ∉ acc.openIds then acc
    else
      { acc with openIds := acc.openIds.filter (· ≠ id), count := 0, active := none }
  | .other _ => foldClassified acc event.body

def foldNoProgress (acc : Accumulator) (events : List StoredEvent) : Accumulator :=
  events.foldl foldEvent acc

def executionNoProgress (log : List StoredEvent) : Accumulator := foldNoProgress .initial log

/-! ## 3. Streaks -/

section Streaks

variable (log : List StoredEvent)

def bodyAt (i : Nat) : Option LogEvent := log[i]?.map (·.body)

/-- A no-progress escalation is raised. -/
def noProgressRaise (id : String) : LogEvent := .raised id .policy (some .executionNoProgress)

/-- A no-progress escalation is open before an event: it was raised and not answered since. -/
def OpenBefore (i : Nat) (id : String) : Prop :=
  ∃ j < i, bodyAt log j = some (noProgressRaise id) ∧
    ∀ l, j < l → l < i → bodyAt log l ≠ some (.answered id)

/-- An event answers an open no-progress escalation. -/
def Answers (i : Nat) : Prop := ∃ id, bodyAt log i = some (.answered id) ∧ OpenBefore log i id

/-- An execution that was started runs until its own end, the next start or such an answer. -/
def Runs (start i : Nat) (instanceId : String) : Prop :=
  start < i ∧ bodyAt log start = some (.started instanceId) ∧
    ∀ l, start < l → l < i → (∀ other, bodyAt log l ≠ some (.started other)) ∧
      (∀ outcome exitCode, bodyAt log l ≠ some (.ended instanceId outcome exitCode)) ∧
      ¬Answers log l

/-- An execution is closed by its own end. -/
def OwnEnd (start i : Nat) (outcome : ExecutionOutcome) (exitCode : Option Int) : Prop :=
  ∃ instanceId, Runs log start i instanceId ∧
    bodyAt log i = some (.ended instanceId outcome exitCode)

/-- An event that is classified progress or failure; raising a no-progress escalation and answering
any are not counted. -/
def Moves : LogEvent → Prop
  | .answered _ => False
  | .raised id source policyCause =>
    ¬(source = .policy ∧ policyCause = some .executionNoProgress) ∧
      executionProgress.lookup (LogEvent.raised id source policyCause).type ≠ some .bookkeeping
  | event => executionProgress.lookup event.type ≠ some .bookkeeping

/-- An event that no streak goes across: progress or failure, an answer to an open escalation, or
a start while another execution runs. -/
def Hinders (i : Nat) : Prop :=
  (∃ event, bodyAt log i = some event ∧ Moves event) ∨ Answers log i ∨
    ∃ instanceId, bodyAt log i = some (.started instanceId) ∧
      ∃ start other, Runs log start i other

/-- The last executions that were closed by their own end, as starts and ends: all ended completed
with exit code zero, and after the first of their starts nothing hinders and no other is closed. -/
structure IsStreak (executions : List (Nat × Nat)) : Prop where
  ordered : executions.Pairwise fun a b => a.2 < b.1
  clean : ∀ x ∈ executions, OwnEnd log x.1 x.2 .completed (some 0)
  quiet : ∀ first ∈ executions.head?, ∀ i, first.1 < i → ¬Hinders log i ∧
    ∀ start outcome exitCode, OwnEnd log start i outcome exitCode → (start, i) ∈ executions

/-- The lengths of streaks. -/
def streakLengths : Set Nat := {k | ∃ executions, IsStreak log executions ∧ executions.length = k}

end Streaks

/-! ## 4. One more event -/

section Append

variable {log : List StoredEvent} {event : StoredEvent} {i start : Nat} {id instanceId : String}

theorem bodyAt_append (h : i < log.length) : bodyAt (log ++ [event]) i = bodyAt log i := by
  rw [bodyAt, List.getElem?_append_left h, bodyAt]

theorem bodyAt_length : bodyAt (log ++ [event]) log.length = some event.body := by
  rw [bodyAt, List.getElem?_concat_length, Option.map_some]

theorem lt_of_bodyAt {body : LogEvent} (h : bodyAt log i = some body) : i < log.length := by
  obtain ⟨stored, hstored, -⟩ := Option.map_eq_some_iff.mp h
  exact (List.getElem?_eq_some_iff.mp hstored).1

theorem openBefore_append (h : i ≤ log.length) :
    OpenBefore (log ++ [event]) i id ↔ OpenBefore log i id := by
  unfold OpenBefore
  refine exists_congr fun j => and_congr_right fun hj => ?_
  rw [bodyAt_append (by omega)]
  refine and_congr_right fun _ => forall_congr' fun l => forall_congr' fun _ =>
    forall_congr' fun hl => ?_
  rw [bodyAt_append (by omega)]

theorem openBefore_succ :
    OpenBefore (log ++ [event]) (log.length + 1) id ↔
      event.body = noProgressRaise id ∨
        OpenBefore log log.length id ∧ event.body ≠ .answered id := by
  constructor
  · rintro ⟨j, hj, hraise, hsince⟩
    rcases Nat.lt_succ_iff_lt_or_eq.mp hj with hj | rfl
    · right
      refine ⟨⟨j, hj, by rwa [bodyAt_append hj] at hraise, fun l hjl hl => ?_⟩, fun hanswered => ?_⟩
      · have hnone := hsince l hjl (by omega)
        rwa [bodyAt_append hl] at hnone
      · exact hsince log.length hj (Nat.lt_succ_self _) (by rw [bodyAt_length, hanswered])
    · rw [bodyAt_length] at hraise
      exact .inl (Option.some.inj hraise)
  · rintro (hraise | ⟨⟨j, hj, hraise, hsince⟩, hanswered⟩)
    · exact ⟨log.length, Nat.lt_succ_self _, by rw [bodyAt_length, hraise],
        fun l hl hl' => by omega⟩
    · refine ⟨j, by omega, by rwa [bodyAt_append hj], fun l hjl hl => ?_⟩
      rcases Nat.lt_succ_iff_lt_or_eq.mp hl with hl | rfl
      · rw [bodyAt_append hl]
        exact hsince l hjl hl
      · rw [bodyAt_length]
        exact fun h => hanswered (Option.some.inj h)

theorem answers_append (h : i < log.length) : Answers (log ++ [event]) i ↔ Answers log i := by
  unfold Answers
  rw [bodyAt_append h]
  exact exists_congr fun id => and_congr_right fun _ => openBefore_append h.le

theorem answers_length :
    Answers (log ++ [event]) log.length ↔
      ∃ id, event.body = .answered id ∧ OpenBefore log log.length id := by
  unfold Answers
  rw [bodyAt_length]
  exact exists_congr fun id => and_congr (by rw [Option.some.injEq]) (openBefore_append le_rfl)

theorem runs_append (h : i ≤ log.length) :
    Runs (log ++ [event]) start i instanceId ↔ Runs log start i instanceId := by
  unfold Runs
  refine and_congr_right fun hstart => ?_
  rw [bodyAt_append (by omega)]
  refine and_congr_right fun _ => forall_congr' fun l => forall_congr' fun _ =>
    forall_congr' fun hl => ?_
  rw [bodyAt_append (by omega), answers_append (by omega)]

theorem runs_succ :
    Runs (log ++ [event]) start (log.length + 1) instanceId ↔
      start = log.length ∧ event.body = .started instanceId ∨
        Runs log start log.length instanceId ∧ (∀ other, event.body ≠ .started other) ∧
          (∀ outcome exitCode, event.body ≠ .ended instanceId outcome exitCode) ∧
          ¬Answers (log ++ [event]) log.length := by
  constructor
  · rintro ⟨hstart, hbody, hsince⟩
    rcases Nat.lt_succ_iff_lt_or_eq.mp hstart with hstart | rfl
    · right
      obtain ⟨hstarted, hended, hanswers⟩ := hsince log.length hstart (Nat.lt_succ_self _)
      rw [bodyAt_length] at hstarted hended
      refine ⟨⟨hstart, by rwa [bodyAt_append hstart] at hbody, fun l hl hl' => ?_⟩,
        fun other h => hstarted other (congrArg some h),
        fun outcome exitCode h => hended outcome exitCode (congrArg some h), hanswers⟩
      have hquiet := hsince l hl (by omega)
      rwa [bodyAt_append hl', answers_append hl'] at hquiet
    · rw [bodyAt_length] at hbody
      exact .inl ⟨rfl, Option.some.inj hbody⟩
  · rintro (⟨rfl, hbody⟩ | ⟨⟨hstart, hbody, hsince⟩, hstarted, hended, hanswers⟩)
    · exact ⟨Nat.lt_succ_self _, by rw [bodyAt_length, hbody], fun l hl hl' => by omega⟩
    · refine ⟨by omega, by rwa [bodyAt_append hstart], fun l hl hl' => ?_⟩
      rcases Nat.lt_succ_iff_lt_or_eq.mp hl' with hl' | rfl
      · rw [bodyAt_append hl', answers_append hl']
        exact hsince l hl hl'
      · rw [bodyAt_length]
        exact ⟨fun other h => hstarted other (Option.some.inj h),
          fun outcome exitCode h => hended outcome exitCode (Option.some.inj h), hanswers⟩

theorem ownEnd_append {outcome : ExecutionOutcome} {exitCode : Option Int} (h : i < log.length) :
    OwnEnd (log ++ [event]) start i outcome exitCode ↔ OwnEnd log start i outcome exitCode := by
  unfold OwnEnd
  rw [bodyAt_append h]
  exact exists_congr fun instanceId => and_congr_left' (runs_append h.le)

theorem ownEnd_length {outcome : ExecutionOutcome} {exitCode : Option Int} :
    OwnEnd (log ++ [event]) start log.length outcome exitCode ↔
      ∃ instanceId, Runs log start log.length instanceId ∧
        event.body = .ended instanceId outcome exitCode := by
  unfold OwnEnd
  rw [bodyAt_length]
  exact exists_congr fun instanceId => and_congr (runs_append le_rfl) (by rw [Option.some.injEq])

theorem hinders_append (h : i < log.length) : Hinders (log ++ [event]) i ↔ Hinders log i := by
  unfold Hinders
  rw [bodyAt_append h, answers_append h]
  refine or_congr_right (or_congr_right (exists_congr fun instanceId => and_congr_right fun _ =>
    exists_congr fun start => exists_congr fun other => runs_append h.le))

theorem hinders_length :
    Hinders (log ++ [event]) log.length ↔
      Moves event.body ∨ Answers (log ++ [event]) log.length ∨
        ∃ instanceId, event.body = .started instanceId ∧
          ∃ start other, Runs log start log.length other := by
  unfold Hinders
  rw [bodyAt_length]
  refine or_congr (by simp) (or_congr_right (exists_congr fun instanceId =>
    and_congr (by rw [Option.some.injEq]) (exists_congr fun start => exists_congr fun other =>
      runs_append le_rfl)))

theorem not_hinders_of_le (h : log.length ≤ i) : ¬Hinders log i := by
  have hnone : ∀ body, bodyAt log i ≠ some body := fun body hbody =>
    absurd (lt_of_bodyAt hbody) (Nat.not_lt.mpr h)
  rintro (⟨body, hbody, -⟩ | ⟨id, hbody, -⟩ | ⟨instanceId, hbody, -⟩) <;> exact hnone _ hbody

theorem OwnEnd.lt {outcome : ExecutionOutcome} {exitCode : Option Int}
    (h : OwnEnd log start i outcome exitCode) : start < i ∧ i < log.length := by
  obtain ⟨instanceId, hruns, hbody⟩ := h
  exact ⟨hruns.1, lt_of_bodyAt hbody⟩

/-- Only one execution runs. -/
theorem Runs.unique {other : Nat} {otherId : String} (h : Runs log start i instanceId)
    (h' : Runs log other i otherId) : start = other ∧ instanceId = otherId := by
  rcases Nat.lt_trichotomy start other with hlt | rfl | hlt
  · exact absurd h'.2.1 ((h.2.2 other hlt h'.1).1 otherId)
  · have hbody := h.2.1.symm.trans h'.2.1
    exact ⟨rfl, LogEvent.started.inj (Option.some.inj hbody)⟩
  · exact absurd h.2.1 ((h'.2.2 start hlt h.1).1 instanceId)

theorem Runs.earlier {j : Nat} (h : Runs log start i instanceId) (hstart : start < j)
    (hj : j ≤ i) : Runs log start j instanceId :=
  ⟨hstart, h.2.1, fun l hl hl' => h.2.2 l hl (hl'.trans_le hj)⟩

end Append

/-! ## 5. Streaks of one more event -/

section StreakSteps

variable {log : List StoredEvent} {event : StoredEvent} {executions : List (Nat × Nat)}

theorem isStreak_nil : IsStreak log [] :=
  ⟨List.Pairwise.nil, fun _ h => absurd h List.not_mem_nil, fun _ h => absurd h nofun⟩

/-- Every execution of a streak starts no earlier than its first. -/
theorem IsStreak.first_le {first : Nat × Nat} {rest : List (Nat × Nat)}
    (h : IsStreak log (first :: rest)) : ∀ x ∈ first :: rest, first.1 ≤ x.1 := by
  intro x hx
  rcases List.mem_cons.mp hx with rfl | hx
  · exact le_rfl
  · have hbefore := (List.pairwise_cons.mp h.ordered).1 x hx
    have hlt := (h.clean first List.mem_cons_self).lt.1
    omega

/-- An event that does not concern the streaks. -/
theorem isStreak_append_iff (hhinders : ¬Hinders (log ++ [event]) log.length)
    (hends : ∀ start outcome exitCode,
      ¬OwnEnd (log ++ [event]) start log.length outcome exitCode) :
    IsStreak (log ++ [event]) executions ↔ IsStreak log executions := by
  have hlast : ∀ i, ¬i < log.length → i ≠ log.length → (log ++ [event]).length ≤ i := by
    intro i hi hne
    rw [List.length_append, List.length_singleton]
    omega
  constructor
  · intro h
    refine ⟨h.ordered, fun x hx => ?_, fun first hfirst i hi => ?_⟩
    · have hown := h.clean x hx
      have hlt := hown.lt.2
      rw [List.length_append, List.length_singleton] at hlt
      have hne : x.2 ≠ log.length := fun heq => hends _ _ _ (heq ▸ hown)
      exact (ownEnd_append (by omega)).mp hown
    · by_cases hlt : i < log.length
      · obtain ⟨hcalm, hin⟩ := h.quiet first hfirst i hi
        rw [hinders_append hlt] at hcalm
        refine ⟨hcalm, fun start outcome exitCode hown => hin start outcome exitCode ?_⟩
        exact (ownEnd_append hlt).mpr hown
      · exact ⟨not_hinders_of_le (Nat.le_of_not_lt hlt), fun start outcome exitCode hown =>
          absurd hown.lt.2 hlt⟩
  · intro h
    refine ⟨h.ordered, fun x hx => ?_, fun first hfirst i hi => ?_⟩
    · have hown := h.clean x hx
      exact (ownEnd_append hown.lt.2).mpr hown
    · by_cases hlt : i < log.length
      · obtain ⟨hcalm, hin⟩ := h.quiet first hfirst i hi
        rw [hinders_append hlt]
        refine ⟨hcalm, fun start outcome exitCode hown => hin start outcome exitCode ?_⟩
        exact (ownEnd_append hlt).mp hown
      · by_cases heq : i = log.length
        · subst heq
          exact ⟨hhinders, fun start outcome exitCode hown => absurd hown (hends _ _ _)⟩
        · have hle := hlast i hlt heq
          exact ⟨not_hinders_of_le hle, fun start outcome exitCode hown =>
            absurd hown.lt.2 (Nat.not_lt.mpr hle)⟩

/-- No streak goes across an event that hinders. -/
theorem IsStreak.eq_nil (h : IsStreak (log ++ [event]) executions)
    (hhinders : Hinders (log ++ [event]) log.length) : executions = [] := by
  cases executions with
  | nil => rfl
  | cons first rest =>
    have hlt := (h.clean first List.mem_cons_self).lt
    rw [List.length_append, List.length_singleton] at hlt
    exact absurd hhinders (h.quiet first rfl log.length (by omega)).1

/-- The execution that an event closes is the last of a streak. -/
theorem IsStreak.eq_append (h : IsStreak (log ++ [event]) executions) (hne : executions ≠ [])
    {start : Nat} {outcome : ExecutionOutcome} {exitCode : Option Int}
    (hown : OwnEnd (log ++ [event]) start log.length outcome exitCode) :
    ∃ before, executions = before ++ [(start, log.length)] := by
  obtain ⟨first, rest, rfl⟩ := List.exists_cons_of_ne_nil hne
  have hlt := (h.clean first List.mem_cons_self).lt
  rw [List.length_append, List.length_singleton] at hlt
  have hin := (h.quiet first rfl log.length (by omega)).2 start outcome exitCode hown
  obtain ⟨before, after, heq⟩ := List.append_of_mem hin
  refine ⟨before, ?_⟩
  rw [heq]
  congr 1
  cases after with
  | nil => rfl
  | cons other after =>
    -- Another would start after the log.
    have hordered := h.ordered
    rw [heq, List.pairwise_append, List.pairwise_cons] at hordered
    have hafter := hordered.2.1.1 other List.mem_cons_self
    have hlater := (h.clean other (by rw [heq]; simp)).lt
    rw [List.length_append, List.length_singleton] at hlater
    omega

theorem not_hinders_ended {instanceId : String} {outcome : ExecutionOutcome}
    {exitCode : Option Int} (h : event.body = .ended instanceId outcome exitCode) :
    ¬Hinders (log ++ [event]) log.length := by
  rw [hinders_length, answers_length, h]
  rintro (hmoves | ⟨id, hanswered, -⟩ | ⟨other, hstarted, -⟩)
  · exact hmoves rfl
  · exact absurd hanswered nofun
  · exact absurd hstarted nofun

/-- A streak before an execution that ends cleanly goes on with it. -/
theorem IsStreak.extend (h : IsStreak log executions) {start : Nat} {instanceId : String}
    (hruns : Runs log start log.length instanceId)
    (heligible : ∀ i body, start < i → bodyAt log i = some body → ¬Moves body)
    (hevent : event.body = .ended instanceId .completed (some 0)) :
    IsStreak (log ++ [event]) (executions ++ [(start, log.length)]) := by
  have hown : OwnEnd (log ++ [event]) start log.length .completed (some 0) :=
    ownEnd_length.mpr ⟨instanceId, hruns, hevent⟩
  have honly : ∀ other outcome exitCode,
      OwnEnd (log ++ [event]) other log.length outcome exitCode → other = start := by
    intro other outcome exitCode hother
    obtain ⟨otherId, hrunsOther, -⟩ := ownEnd_length.mp hother
    exact (hrunsOther.unique hruns).1
  have hbeyond : ∀ i, ¬i < log.length → i ≠ log.length → (log ++ [event]).length ≤ i := by
    intro i hi hne
    rw [List.length_append, List.length_singleton]
    omega
  refine ⟨?_, fun x hx => ?_, fun first hfirst i hi => ?_⟩
  · rw [List.pairwise_append]
    refine ⟨h.ordered, List.pairwise_singleton _ _, fun x hx y hy => ?_⟩
    rw [List.mem_singleton] at hy
    subst hy
    obtain ⟨otherId, hrunsOther, hended⟩ := h.clean x hx
    have hlt := lt_of_bodyAt hended
    dsimp only
    by_contra hle
    -- The execution that runs at the end started after this one was closed.
    rcases Nat.lt_trichotomy start x.1 with hbefore | heq | hafter
    · exact (hruns.2.2 x.1 hbefore (hrunsOther.1.trans hlt)).1 otherId hrunsOther.2.1
    · have hsame := hruns.2.1
      rw [heq, hrunsOther.2.1] at hsame
      rw [LogEvent.started.inj (Option.some.inj hsame)] at hended
      exact (hruns.2.2 x.2 (heq ▸ hrunsOther.1) hlt).2.1 _ _ hended
    · rcases Nat.lt_or_ge start x.2 with hinside | hat
      · exact (hrunsOther.2.2 start hafter hinside).1 instanceId hruns.2.1
      · have heq : start = x.2 := by omega
        rw [← heq, hruns.2.1] at hended
        exact absurd hended nofun
  · rcases List.mem_append.mp hx with hx | hx
    · have hclean := h.clean x hx
      exact (ownEnd_append hclean.lt.2).mpr hclean
    · rw [List.mem_singleton.mp hx]
      exact hown
  · by_cases hlt : i < log.length
    · rw [hinders_append hlt]
      cases executions with
      | nil =>
        cases hfirst
        -- Within the execution nothing hinders and nothing else is closed.
        have hinside := hruns.2.2 i hi hlt
        refine ⟨?_, fun other outcome exitCode hother => ?_⟩
        · rintro (⟨body, hbody, hmoves⟩ | hanswers | ⟨otherId, hstarted, -⟩)
          · exact heligible i body hi hbody hmoves
          · exact hinside.2.2 hanswers
          · exact hinside.1 otherId hstarted
        · obtain ⟨otherId, hrunsOther, hended⟩ := (ownEnd_append hlt).mp hother
          obtain ⟨-, rfl⟩ := hrunsOther.unique (hruns.earlier hi hlt.le)
          exact absurd hended (hinside.2.1 _ _)
      | cons head rest =>
        obtain ⟨hcalm, hin⟩ := h.quiet first hfirst i hi
        refine ⟨hcalm, fun other outcome exitCode hother => ?_⟩
        exact List.mem_append_left _ (hin other outcome exitCode ((ownEnd_append hlt).mp hother))
    · by_cases heq : i = log.length
      · subst heq
        refine ⟨not_hinders_ended hevent, fun other outcome exitCode hother => ?_⟩
        rw [honly other outcome exitCode hother]
        exact List.mem_append_right _ List.mem_cons_self
      · have hle := hbeyond i hlt heq
        exact ⟨not_hinders_of_le hle, fun other outcome exitCode hother =>
          absurd hother.lt.2 (Nat.not_lt.mpr hle)⟩

/-- Without its last execution a streak is one of the log before. -/
theorem IsStreak.before {start : Nat}
    (h : IsStreak (log ++ [event]) (executions ++ [(start, log.length)])) :
    IsStreak log executions := by
  obtain ⟨hordered, -, hlast⟩ := List.pairwise_append.mp h.ordered
  have hlt : ∀ x ∈ executions, x.2 < log.length := fun x hx => by
    have hbefore := hlast x hx (start, log.length) List.mem_cons_self
    have hstart := (h.clean (start, log.length) (by simp)).lt.1
    omega
  refine ⟨hordered, fun x hx => ?_, fun first hfirst i hi => ?_⟩
  · exact (ownEnd_append (hlt x hx)).mp (h.clean x (List.mem_append_left _ hx))
  · have hhead : first ∈ (executions ++ [(start, log.length)]).head? := by
      cases executions with
      | nil => exact absurd hfirst nofun
      | cons head rest => exact hfirst
    by_cases hi' : i < log.length
    · obtain ⟨hcalm, hin⟩ := h.quiet first hhead i hi
      rw [hinders_append hi'] at hcalm
      refine ⟨hcalm, fun other outcome exitCode hother => ?_⟩
      rcases List.mem_append.mp (hin other outcome exitCode ((ownEnd_append hi').mpr hother)) with
        hin | hin
      · exact hin
      · rw [List.mem_singleton] at hin
        have hsame := congrArg Prod.snd hin
        dsimp only at hsame
        omega
    · exact ⟨not_hinders_of_le (Nat.le_of_not_lt hi'), fun other outcome exitCode hother =>
        absurd hother.lt.2 hi'⟩

end StreakSteps

/-! ## 6. The count is the longest streak -/

/-- What the reducer keeps, in terms of the log. -/
structure Tracks (log : List StoredEvent) (acc : Accumulator) : Prop where
  openIds : ∀ id, id ∈ acc.openIds ↔ OpenBefore log log.length id
  idle : acc.active = none → ∀ start instanceId, ¬Runs log start log.length instanceId
  active : ∀ active, acc.active = some active → ∃ start,
    Runs log start log.length active.instanceId ∧
      (active.eligible = true ↔ ∀ i body, start < i → bodyAt log i = some body → ¬Moves body)
  count : IsGreatest (streakLengths log) acc.count

section Tracking

variable {log : List StoredEvent} {event : StoredEvent} {acc acc' : Accumulator}

theorem isGreatest_zero (h : Hinders (log ++ [event]) log.length) :
    IsGreatest (streakLengths (log ++ [event])) 0 := by
  refine ⟨⟨[], isStreak_nil, rfl⟩, ?_⟩
  rintro k ⟨executions, hstreak, rfl⟩
  rw [hstreak.eq_nil h, List.length_nil]

theorem isGreatest_same (hhinders : ¬Hinders (log ++ [event]) log.length)
    (hends : ∀ start outcome exitCode,
      ¬OwnEnd (log ++ [event]) start log.length outcome exitCode) {count : Nat}
    (h : IsGreatest (streakLengths log) count) :
    IsGreatest (streakLengths (log ++ [event])) count := by
  have hsame : streakLengths (log ++ [event]) = streakLengths log := by
    ext k
    exact exists_congr fun executions =>
      and_congr_left' (isStreak_append_iff hhinders hends)
  rwa [hsame]

theorem not_ownEnd (h : ∀ instanceId outcome exitCode,
    event.body ≠ .ended instanceId outcome exitCode) (start : Nat) (outcome : ExecutionOutcome)
    (exitCode : Option Int) : ¬OwnEnd (log ++ [event]) start log.length outcome exitCode := by
  rw [ownEnd_length]
  rintro ⟨instanceId, -, hbody⟩
  exact h instanceId outcome exitCode hbody

/-- An event that is no start and no end hinders by what it is, or as an answer. -/
theorem hinders_iff (hstarted : ∀ instanceId, event.body ≠ .started instanceId) :
    Hinders (log ++ [event]) log.length ↔
      Moves event.body ∨ Answers (log ++ [event]) log.length := by
  rw [hinders_length]
  refine or_congr_right (or_iff_left ?_)
  rintro ⟨instanceId, hbody, -⟩
  exact hstarted instanceId hbody

theorem eligible_succ {start : Nat} (hstart : start < log.length) :
    (∀ i body, start < i → bodyAt (log ++ [event]) i = some body → ¬Moves body) ↔
      (∀ i body, start < i → bodyAt log i = some body → ¬Moves body) ∧ ¬Moves event.body := by
  constructor
  · intro h
    refine ⟨fun i body hi hbody => h i body hi ?_, h log.length event.body hstart bodyAt_length⟩
    rwa [bodyAt_append (lt_of_bodyAt hbody)]
  · rintro ⟨h, hlast⟩ i body hi hbody
    have hlt := lt_of_bodyAt hbody
    rw [List.length_append, List.length_singleton] at hlt
    rcases Nat.lt_succ_iff_lt_or_eq.mp hlt with hlt | rfl
    · rw [bodyAt_append hlt] at hbody
      exact h i body hi hbody
    · rw [bodyAt_length] at hbody
      rwa [← Option.some.inj hbody]

theorem runs_keep {start : Nat} {instanceId : String}
    (hstarted : ∀ other, event.body ≠ .started other)
    (hended : ∀ outcome exitCode, event.body ≠ .ended instanceId outcome exitCode)
    (hanswers : ¬Answers (log ++ [event]) log.length) :
    Runs (log ++ [event]) start (log.length + 1) instanceId ↔
      Runs log start log.length instanceId := by
  rw [runs_succ]
  constructor
  · rintro (⟨-, hbody⟩ | ⟨hruns, -⟩)
    · exact absurd hbody (hstarted instanceId)
    · exact hruns
  · exact fun hruns => .inr ⟨hruns, hstarted, hended, hanswers⟩

/-- An event that is no start, no end and no answer leaves running what runs; the execution stays
eligible unless the event moves. -/
theorem Tracks.classified (h : Tracks log acc)
    (hstarted : ∀ instanceId, event.body ≠ .started instanceId)
    (hended : ∀ instanceId outcome exitCode, event.body ≠ .ended instanceId outcome exitCode)
    (hanswers : ¬Answers (log ++ [event]) log.length)
    (hopen : ∀ id, id ∈ acc'.openIds ↔ OpenBefore (log ++ [event]) (log.length + 1) id)
    (hcalm : ¬Moves event.body → acc'.active = acc.active ∧ acc'.count = acc.count)
    (hmoves : Moves event.body → acc'.count = 0 ∧
      acc'.active = acc.active.map fun active => { active with eligible := false }) :
    Tracks (log ++ [event]) acc' := by
  have hlength : (log ++ [event]).length = log.length + 1 := by
    rw [List.length_append, List.length_singleton]
  have hruns : ∀ start instanceId, Runs (log ++ [event]) start (log.length + 1) instanceId ↔
      Runs log start log.length instanceId := fun start instanceId =>
    runs_keep hstarted (hended instanceId) hanswers
  have hhinders : Hinders (log ++ [event]) log.length ↔ Moves event.body := by
    rw [hinders_iff hstarted, or_iff_left hanswers]
  by_cases hmove : Moves event.body
  · obtain ⟨hcount, hactive⟩ := hmoves hmove
    refine ⟨fun id => hlength ▸ hopen id, fun hnone start instanceId => ?_, fun active hsome => ?_,
      hcount ▸ isGreatest_zero (hhinders.mpr hmove)⟩
    · rw [hactive, Option.map_eq_none_iff] at hnone
      rw [hlength, hruns]
      exact h.idle hnone start instanceId
    · rw [hactive] at hsome
      obtain ⟨before, hbefore, rfl⟩ := Option.map_eq_some_iff.mp hsome
      obtain ⟨start, hrunning, -⟩ := h.active before hbefore
      refine ⟨start, by rwa [hlength, hruns], ?_⟩
      rw [eligible_succ hrunning.1]
      exact ⟨fun hfalse => absurd hfalse Bool.false_ne_true, fun heligible =>
        absurd hmove heligible.2⟩
  · obtain ⟨hactive, hcount⟩ := hcalm hmove
    refine ⟨fun id => hlength ▸ hopen id, fun hnone start instanceId => ?_, fun active hsome => ?_,
      hcount ▸ isGreatest_same (fun hin => hmove (hhinders.mp hin)) (not_ownEnd hended) h.count⟩
    · rw [hlength, hruns]
      exact h.idle (hactive ▸ hnone) start instanceId
    · obtain ⟨start, hrunning, heligible⟩ := h.active active (hactive ▸ hsome)
      refine ⟨start, by rwa [hlength, hruns], ?_⟩
      rw [eligible_succ hrunning.1, heligible]
      exact (and_iff_left hmove).symm

theorem openBefore_keep (hraise : ∀ id, event.body ≠ noProgressRaise id)
    (hanswered : ∀ id, event.body ≠ .answered id) (id : String) :
    OpenBefore (log ++ [event]) (log.length + 1) id ↔ OpenBefore log log.length id := by
  rw [openBefore_succ]
  constructor
  · rintro (hbody | ⟨hopen, -⟩)
    · exact absurd hbody (hraise id)
    · exact hopen
  · exact fun hopen => .inr ⟨hopen, hanswered id⟩

theorem not_answers (hanswered : ∀ id, event.body ≠ .answered id) :
    ¬Answers (log ++ [event]) log.length := by
  rw [answers_length]
  rintro ⟨id, hbody, -⟩
  exact hanswered id hbody

/-- An event of which only the type is read. -/
theorem Tracks.foldClassified (h : Tracks log acc)
    (hstarted : ∀ instanceId, event.body ≠ .started instanceId)
    (hended : ∀ instanceId outcome exitCode, event.body ≠ .ended instanceId outcome exitCode)
    (hraise : ∀ id, event.body ≠ noProgressRaise id)
    (hanswered : ∀ id, event.body ≠ .answered id)
    (hmoves : Moves event.body ↔
      executionProgress.lookup event.body.type ≠ some .bookkeeping) :
    Tracks (log ++ [event]) (foldClassified acc event.body) := by
  unfold ExecutionNoProgress.foldClassified
  split
  next hclass =>
    refine h.classified hstarted hended (not_answers hanswered) (fun id => ?_)
      (fun _ => ⟨rfl, rfl⟩) fun hmove => absurd hclass (hmoves.mp hmove)
    rw [openBefore_keep hraise hanswered, h.openIds]
  next hclass =>
    refine h.classified hstarted hended (not_answers hanswered) (fun id => ?_)
      (fun hcalm => absurd (hmoves.mpr hclass) hcalm) fun _ => ⟨rfl, rfl⟩
    rw [openBefore_keep hraise hanswered]
    exact h.openIds id

theorem Tracks.started (h : Tracks log acc) {instanceId : String}
    (hevent : event.body = .started instanceId) :
    Tracks (log ++ [event])
      { acc with
        count := if acc.active.isSome then 0 else acc.count
        active := some ⟨instanceId, event.seq, true⟩ } := by
  have hlength : (log ++ [event]).length = log.length + 1 := by
    rw [List.length_append, List.length_singleton]
  have hcalm : ¬Moves event.body := by
    rw [hevent]
    exact fun hmoves => hmoves rfl
  have hanswers : ¬Answers (log ++ [event]) log.length := not_answers fun id hbody => by
    rw [hevent] at hbody
    exact absurd hbody nofun
  have hhinders : Hinders (log ++ [event]) log.length ↔
      ∃ start other, Runs log start log.length other := by
    rw [hinders_length, or_iff_right hcalm, or_iff_right hanswers, hevent]
    constructor
    · rintro ⟨other, -, hruns⟩
      exact hruns
    · exact fun hruns => ⟨instanceId, rfl, hruns⟩
  have hends : ∀ start outcome exitCode,
      ¬OwnEnd (log ++ [event]) start log.length outcome exitCode :=
    not_ownEnd fun other outcome exitCode hbody => by
      rw [hevent] at hbody
      exact absurd hbody nofun
  refine ⟨fun id => ?_, nofun, fun active hactive => ?_, ?_⟩
  · rw [hlength, openBefore_keep]
    · exact h.openIds id
    · intro other hbody
      rw [hevent] at hbody
      exact absurd hbody nofun
    · intro other hbody
      rw [hevent] at hbody
      exact absurd hbody nofun
  · cases hactive
    refine ⟨log.length, ?_, ?_⟩
    · rw [hlength]
      exact runs_succ.mpr (.inl ⟨rfl, hevent⟩)
    · refine ⟨fun _ i body hi hbody => ?_, fun _ => rfl⟩
      have hlt := lt_of_bodyAt hbody
      omega
  · cases hactive : acc.active with
    | none =>
      refine isGreatest_same (fun hin => ?_) hends h.count
      obtain ⟨start, other, hruns⟩ := hhinders.mp hin
      exact h.idle hactive start other hruns
    | some active =>
      obtain ⟨start, hruns, -⟩ := h.active active hactive
      exact isGreatest_zero (hhinders.mpr ⟨start, active.instanceId, hruns⟩)

/-- An end of an execution that does not run is ignored. -/
theorem Tracks.endedOther (h : Tracks log acc) {instanceId : String} {outcome : ExecutionOutcome}
    {exitCode : Option Int} (hevent : event.body = .ended instanceId outcome exitCode)
    (hother : ∀ active, acc.active = some active → active.instanceId ≠ instanceId) :
    Tracks (log ++ [event]) acc := by
  have hlength : (log ++ [event]).length = log.length + 1 := by
    rw [List.length_append, List.length_singleton]
  have hstarted : ∀ other, event.body ≠ .started other := fun other hbody => by
    rw [hevent] at hbody
    exact absurd hbody nofun
  have hanswered : ∀ id, event.body ≠ .answered id := fun id hbody => by
    rw [hevent] at hbody
    exact absurd hbody nofun
  have hraise : ∀ id, event.body ≠ noProgressRaise id := fun id hbody => by
    rw [hevent] at hbody
    exact absurd hbody nofun
  have hnot : ∀ start, ¬Runs log start log.length instanceId := by
    intro start hruns
    cases hactive : acc.active with
    | none => exact h.idle hactive start instanceId hruns
    | some active =>
      obtain ⟨other, hrunsOther, -⟩ := h.active active hactive
      exact hother active hactive (hrunsOther.unique hruns).2
  refine ⟨fun id => ?_, fun hnone start other => ?_, fun active hactive => ?_, ?_⟩
  · rw [hlength, openBefore_keep hraise hanswered]
    exact h.openIds id
  · rw [hlength, runs_succ]
    rintro (⟨-, hbody⟩ | ⟨hruns, -⟩)
    · exact hstarted other hbody
    · exact h.idle hnone start other hruns
  · obtain ⟨start, hruns, heligible⟩ := h.active active hactive
    refine ⟨start, ?_, ?_⟩
    · rw [hlength]
      refine runs_succ.mpr (.inr ⟨hruns, hstarted, fun _ _ hbody => ?_, not_answers hanswered⟩)
      rw [hevent] at hbody
      exact hother active hactive (LogEvent.ended.inj hbody).1.symm
    · rw [eligible_succ hruns.1, heligible, hevent]
      exact (and_iff_left fun hmoves => hmoves rfl).symm
  · refine isGreatest_same (not_hinders_ended hevent) (fun start outcome exitCode hown => ?_)
      h.count
    obtain ⟨other, hruns, hbody⟩ := ownEnd_length.mp hown
    rw [hevent] at hbody
    obtain ⟨rfl, -, -⟩ := LogEvent.ended.inj hbody
    exact hnot start hruns

/-- The own end of the execution that runs. -/
theorem Tracks.ended (h : Tracks log acc) {active : ActiveExecution}
    (hactive : acc.active = some active) {outcome : ExecutionOutcome} {exitCode : Option Int}
    (hevent : event.body = .ended active.instanceId outcome exitCode) :
    Tracks (log ++ [event])
      { acc with
        count := if (outcome = .completed ∧ exitCode = some 0) ∧ active.eligible then acc.count + 1
          else 0
        latest := some (active.instanceId, event.seq)
        active := none } := by
  have hlength : (log ++ [event]).length = log.length + 1 := by
    rw [List.length_append, List.length_singleton]
  obtain ⟨start, hruns, heligible⟩ := h.active active hactive
  have hown : OwnEnd (log ++ [event]) start log.length outcome exitCode :=
    ownEnd_length.mpr ⟨active.instanceId, hruns, hevent⟩
  refine ⟨fun id => ?_, fun _ other instanceId => ?_, nofun, ?_⟩
  · rw [hlength, openBefore_keep]
    · exact h.openIds id
    · intro other hbody
      rw [hevent] at hbody
      exact absurd hbody nofun
    · intro other hbody
      rw [hevent] at hbody
      exact absurd hbody nofun
  · rw [hlength, runs_succ]
    rintro (⟨-, hbody⟩ | ⟨hrunsOther, -, hended, -⟩)
    · rw [hevent] at hbody
      exact absurd hbody nofun
    · obtain ⟨-, rfl⟩ := hrunsOther.unique hruns
      exact hended outcome exitCode hevent
  · dsimp only
    split
    next hgood =>
      obtain ⟨⟨rfl, rfl⟩, hflag⟩ := hgood
      obtain ⟨⟨executions, hstreak, hcount⟩, hupper⟩ := h.count
      refine ⟨⟨_, hstreak.extend hruns (heligible.mp hflag) hevent, ?_⟩, ?_⟩
      · rw [List.length_append, List.length_singleton, hcount]
      · rintro k ⟨more, hmore, rfl⟩
        by_cases hne : more = []
        · rw [hne]
          exact Nat.zero_le _
        · obtain ⟨before, rfl⟩ := hmore.eq_append hne hown
          rw [List.length_append, List.length_singleton]
          exact Nat.succ_le_succ (hupper ⟨before, hmore.before, rfl⟩)
    next hbad =>
      refine ⟨⟨[], isStreak_nil, rfl⟩, ?_⟩
      rintro k ⟨more, hmore, rfl⟩
      by_contra hpositive
      have hne : more ≠ [] := fun hnil => hpositive (by rw [hnil, List.length_nil])
      obtain ⟨before, rfl⟩ := hmore.eq_append hne hown
      -- The last execution ended cleanly, and nothing hindered it.
      obtain ⟨instanceId, -, hbody⟩ := ownEnd_length.mp (hmore.clean (start, log.length) (by simp))
      rw [hevent] at hbody
      obtain ⟨-, rfl, rfl⟩ := LogEvent.ended.inj hbody
      refine hbad ⟨⟨rfl, rfl⟩, heligible.mpr fun i body hi hat hmoves => ?_⟩
      obtain ⟨first, rest, hfirst⟩ := List.exists_cons_of_ne_nil hne
      have hle : first.1 ≤ start := by
        rw [hfirst] at hmore
        exact hmore.first_le (start, log.length) (by rw [← hfirst]; simp)
      have hquiet := hmore.quiet first (by rw [hfirst]; rfl) i (hle.trans_lt hi)
      refine hquiet.1 (.inl ⟨body, ?_, hmoves⟩)
      rwa [bodyAt_append (lt_of_bodyAt hat)]

/-- The answer to an open no-progress escalation. -/
theorem Tracks.answered (h : Tracks log acc) {id : String} (hevent : event.body = .answered id)
    (hopen : id ∈ acc.openIds) :
    Tracks (log ++ [event])
      { acc with openIds := acc.openIds.filter (· ≠ id), count := 0, active := none } := by
  have hlength : (log ++ [event]).length = log.length + 1 := by
    rw [List.length_append, List.length_singleton]
  have hanswers : Answers (log ++ [event]) log.length :=
    answers_length.mpr ⟨id, hevent, (h.openIds id).mp hopen⟩
  refine ⟨fun other => ?_, fun _ start instanceId => ?_, nofun, ?_⟩
  · rw [hlength, openBefore_succ, List.mem_filter, decide_eq_true_iff, hevent, h.openIds,
      or_iff_right (by exact nofun)]
    refine and_congr_right fun _ => not_congr ⟨fun heq => by rw [heq], fun heq => ?_⟩
    exact (LogEvent.answered.inj heq).symm
  · rw [hlength, runs_succ]
    rintro (⟨-, hbody⟩ | ⟨-, -, -, hnot⟩)
    · rw [hevent] at hbody
      exact absurd hbody nofun
    · exact hnot hanswers
  · refine isGreatest_zero ?_
    rw [hinders_length]
    exact .inr (.inl hanswers)

/-- **One event keeps the reducer in step with the log.** -/
theorem Tracks.foldEvent (h : Tracks log acc) (event : StoredEvent) :
    Tracks (log ++ [event]) (foldEvent acc event) := by
  unfold ExecutionNoProgress.foldEvent
  cases hevent : event.body with
  | started instanceId => exact h.started hevent
  | ended instanceId outcome exitCode =>
    dsimp only
    cases hactive : acc.active with
    | none => exact h.endedOther hevent fun active hsome => absurd (hactive.symm.trans hsome) nofun
    | some active =>
      dsimp only
      by_cases hsame : active.instanceId = instanceId
      · subst hsame
        rw [if_neg (not_not.mpr rfl)]
        exact h.ended hactive hevent
      · rw [if_pos hsame]
        refine h.endedOther hevent fun other hother => ?_
        rw [hactive] at hother
        exact Option.some.inj hother ▸ hsame
  | raised id source policyCause =>
    dsimp only
    by_cases hpolicy : source = .policy ∧ policyCause = some .executionNoProgress
    · obtain ⟨rfl, rfl⟩ := hpolicy
      have hraise : event.body = noProgressRaise id := hevent
      have hcalm : ¬Moves event.body := by
        rw [hevent]
        exact fun hmoves => hmoves.1 ⟨rfl, rfl⟩
      have hopen : ∀ other, OpenBefore (log ++ [event]) (log.length + 1) other ↔
          other = id ∨ other ∈ acc.openIds := by
        intro other
        rw [openBefore_succ, hraise, h.openIds]
        refine or_congr ⟨fun heq => ?_, fun heq => by rw [heq]⟩ (and_iff_left (by exact nofun))
        exact (LogEvent.raised.inj heq).1.symm
      rw [if_pos ⟨rfl, rfl⟩]
      by_cases hin : id ∈ acc.openIds
      · rw [if_pos hin]
        refine h.classified (by rw [hevent]; exact nofun) (by rw [hevent]; exact nofun)
          (not_answers (by rw [hevent]; exact nofun)) (fun other => ?_) (fun _ => ⟨rfl, rfl⟩)
          fun hmove => absurd hmove hcalm
        rw [hopen]
        exact ⟨.inr, fun hor => hor.elim (fun heq => heq ▸ hin) fun hother => hother⟩
      · rw [if_neg hin]
        refine h.classified (by rw [hevent]; exact nofun) (by rw [hevent]; exact nofun)
          (not_answers (by rw [hevent]; exact nofun)) (fun other => ?_) (fun _ => ⟨rfl, rfl⟩)
          fun hmove => absurd hmove hcalm
        rw [hopen, List.mem_append, List.mem_singleton, or_comm]
    · rw [if_neg hpolicy]
      have hfold : Tracks (log ++ [event]) (ExecutionNoProgress.foldClassified acc event.body) :=
        h.foldClassified (by rw [hevent]; exact nofun)
        (by rw [hevent]; exact nofun) (fun other hraise => ?_) (by rw [hevent]; exact nofun) ?_
      · rwa [hevent] at hfold
      · rw [hevent] at hraise
        exact hpolicy (LogEvent.raised.inj hraise).2
      · rw [hevent]
        exact and_iff_right hpolicy
  | answered id =>
    dsimp only
    by_cases hin : id ∈ acc.openIds
    · rw [if_neg (not_not.mpr hin)]
      exact h.answered hevent hin
    · rw [if_pos hin]
      have hnot : ¬OpenBefore log log.length id := fun hopen => hin ((h.openIds id).mpr hopen)
      have hcalm : ¬Moves event.body := by
        rw [hevent]
        exact fun hmoves => hmoves
      refine h.classified (by rw [hevent]; exact nofun) (by rw [hevent]; exact nofun) ?_
        (fun other => ?_) (fun _ => ⟨rfl, rfl⟩) fun hmove => absurd hmove hcalm
      · rw [answers_length, hevent]
        rintro ⟨other, hsame, hopen⟩
        exact hnot (LogEvent.answered.inj hsame ▸ hopen)
      · rw [openBefore_succ, hevent, h.openIds, or_iff_right (by exact nofun)]
        refine ⟨fun hopen => ⟨hopen, fun hsame => ?_⟩, And.left⟩
        exact hnot (LogEvent.answered.inj hsame ▸ hopen)
  | other type =>
    have hfold : Tracks (log ++ [event]) (ExecutionNoProgress.foldClassified acc event.body) :=
      h.foldClassified (by rw [hevent]; exact nofun)
      (by rw [hevent]; exact nofun) (by rw [hevent]; exact nofun) (by rw [hevent]; exact nofun)
      (by rw [hevent]; exact Iff.rfl)
    rwa [hevent] at hfold

theorem tracks_nil : Tracks [] .initial := by
  refine ⟨fun id => ?_, fun _ start instanceId hruns => ?_, nofun, ⟨[], isStreak_nil, rfl⟩, ?_⟩
  · refine ⟨fun hin => absurd hin List.not_mem_nil, ?_⟩
    rintro ⟨j, hj, -⟩
    exact absurd hj (Nat.not_lt_zero j)
  · exact absurd hruns.1 (Nat.not_lt_zero start)
  · rintro k ⟨executions, hstreak, rfl⟩
    cases executions with
    | nil => exact le_rfl
    | cons first rest => exact absurd (hstreak.clean first List.mem_cons_self).lt.2 nofun

theorem tracks_executionNoProgress (log : List StoredEvent) :
    Tracks log (executionNoProgress log) := by
  induction log using List.reverseRecOn with
  | nil => exact tracks_nil
  | append_singleton log event ih =>
    rw [executionNoProgress, foldNoProgress, List.foldl_append]
    exact ih.foldEvent event

/-- Folding in parts is folding the whole. -/
theorem foldl_foldNoProgress (chunks : List (List StoredEvent)) (acc : Accumulator) :
    chunks.foldl foldNoProgress acc = foldNoProgress acc chunks.flatten := by
  rw [foldNoProgress, List.foldl_flatten]
  rfl

end Tracking

/-! ## 7. The raise -/

/-- `ensureExecutionProgress` on the facts of a build: what it returns, or nothing when it goes on
to raise.  The decision is what routes the build next, if anything does. -/
def ensureDecision (facts : Accumulator) (decision : Option Decision) : Option Bool :=
  match decision with
  | none => some false
  -- Commands must still be acknowledged even while this guard is parked.
  | some (.acknowledge _) => some true
  | some (.wait _) => if facts.openIds ≠ [] then some false else some true
  | some _ =>
    if facts.openIds ≠ [] then some false
    else if facts.count < 3 then some true
    else none

/-- A caller is about to raise on the log as it read it, or has returned. -/
inductive EnsurePhase where
  | idle
  | raising (lastSeq : Nat)
  | returned (result : Bool)
  deriving DecidableEq

/-- A log with the callers that watch it. -/
structure EnsureSystem (κ : Type) where
  log : List StoredEvent
  callers : κ → EnsurePhase

inductive EnsureAct (κ : Type) where
  /-- Another writer appends an event. -/
  | append (body : LogEvent)
  /-- A caller reads the log up to some event and looks at what it found. -/
  | read (caller : κ) (lastSeq : Nat) (decision : Option Decision)
  /-- Its append, which takes effect if the log is what it read. -/
  | raise (caller : κ) (id : String)

namespace EnsureSystem

variable {κ : Type} [DecidableEq κ]

def push (system : EnsureSystem κ) (body : LogEvent) : EnsureSystem κ :=
  { system with log := system.log ++ [⟨system.log.length + 1, body⟩] }

def enter (system : EnsureSystem κ) (caller : κ) (phase : EnsurePhase) : EnsureSystem κ :=
  { system with callers := Function.update system.callers caller phase }

def isNoProgressRaise : LogEvent → Bool
  | .raised _ source policyCause =>
    decide (source = .policy) && decide (policyCause = some .executionNoProgress)
  | _ => false

def step (system : EnsureSystem κ) : EnsureAct κ → Option (EnsureSystem κ)
  -- No other writer raises the escalation.
  | .append body => if isNoProgressRaise body then none else some (system.push body)
  | .read caller lastSeq decision =>
    match system.callers caller with
    | .raising _ => none
    | _ =>
      if lastSeq ≤ system.log.length then
        match ensureDecision (executionNoProgress (system.log.take lastSeq)) decision with
        | some result => some (system.enter caller (.returned result))
        | none => some (system.enter caller (.raising lastSeq))
      else none
  | .raise caller id =>
    match system.callers caller with
    | .raising lastSeq =>
      if system.log.length = lastSeq then
        some ((system.push (noProgressRaise id)).enter caller (.returned false))
      else some (system.enter caller .idle)
    | _ => none

end EnsureSystem

inductive EnsureRun {κ : Type} [DecidableEq κ] : EnsureSystem κ → Prop
  | start : EnsureRun ⟨[], fun _ => .idle⟩
  | step {system next : EnsureSystem κ} (act : EnsureAct κ) : EnsureRun system →
      system.step act = some next → EnsureRun next

/-- At most one escalation is open, every one was raised on a streak of three, and who is about to
raise has read such a streak with none open. -/
structure EnsureOk {κ : Type} (system : EnsureSystem κ) : Prop where
  openIds : (executionNoProgress system.log).openIds.length ≤ 1
  raised : ∀ i id, bodyAt system.log i = some (noProgressRaise id) →
    3 ≤ (executionNoProgress (system.log.take i)).count ∧
      (executionNoProgress (system.log.take i)).openIds = []
  raising : ∀ caller lastSeq, system.callers caller = .raising lastSeq →
    lastSeq ≤ system.log.length ∧ 3 ≤ (executionNoProgress (system.log.take lastSeq)).count ∧
      (executionNoProgress (system.log.take lastSeq)).openIds = []

section Raises

variable {κ : Type} [DecidableEq κ] {system next : EnsureSystem κ}

theorem ensureDecision_none {facts : Accumulator} {decision : Option Decision}
    (h : ensureDecision facts decision = none) : facts.openIds = [] ∧ 3 ≤ facts.count := by
  unfold ensureDecision at h
  split at h
  · exact absurd h nofun
  · exact absurd h nofun
  · split at h <;> exact absurd h nofun
  · split at h
    · exact absurd h nofun
    next hopen =>
      split at h
      · exact absurd h nofun
      next hcount => exact ⟨not_not.mp hopen, Nat.le_of_not_lt hcount⟩

omit [DecidableEq κ] in
/-- What another writer appends opens no escalation. -/
theorem openIds_foldEvent {acc : Accumulator} {event : StoredEvent}
    (h : EnsureSystem.isNoProgressRaise event.body = false) :
    (foldEvent acc event).openIds.length ≤ acc.openIds.length := by
  unfold foldEvent
  split
  · exact le_rfl
  · split
    · exact le_rfl
    · split <;> exact le_rfl
  next id source policyCause hbody =>
    split
    next hpolicy =>
      rw [hbody, EnsureSystem.isNoProgressRaise, decide_eq_true hpolicy.1,
        decide_eq_true hpolicy.2] at h
      exact absurd h nofun
    next =>
      unfold foldClassified
      split <;> exact le_rfl
  · split
    · exact le_rfl
    · exact List.length_filter_le _ _
  · unfold foldClassified
    split <;> exact le_rfl

omit [DecidableEq κ] in
theorem executionNoProgress_append (log : List StoredEvent) (event : StoredEvent) :
    executionNoProgress (log ++ [event]) = foldEvent (executionNoProgress log) event := by
  rw [executionNoProgress, foldNoProgress, List.foldl_append]
  rfl

omit [DecidableEq κ] in
/-- An event is appended that leaves at most one open, and is no raise or one on a streak. -/
theorem EnsureOk.push (h : EnsureOk system) {body : LogEvent}
    (hopen : (foldEvent (executionNoProgress system.log)
      ⟨system.log.length + 1, body⟩).openIds.length ≤ 1)
    (hraise : ∀ id, body = noProgressRaise id → 3 ≤ (executionNoProgress system.log).count ∧
      (executionNoProgress system.log).openIds = []) : EnsureOk (system.push body) := by
  refine ⟨?_, fun i id hbody => ?_, fun caller lastSeq hcaller => ?_⟩
  · rw [EnsureSystem.push, executionNoProgress_append]
    exact hopen
  · simp only [EnsureSystem.push] at hbody ⊢
    have hlt := lt_of_bodyAt hbody
    rw [List.length_append, List.length_singleton] at hlt
    rcases Nat.lt_succ_iff_lt_or_eq.mp hlt with hlt | rfl
    · rw [bodyAt_append hlt] at hbody
      rw [List.take_append_of_le_length hlt.le]
      exact h.raised i id hbody
    · rw [bodyAt_length] at hbody
      rw [List.take_left]
      exact hraise id (Option.some.inj hbody)
  · obtain ⟨hle, hcount, hnone⟩ := h.raising caller lastSeq hcaller
    simp only [EnsureSystem.push]
    rw [List.take_append_of_le_length hle, List.length_append]
    exact ⟨hle.trans (Nat.le_add_right _ _), hcount, hnone⟩

theorem EnsureOk.enter (h : EnsureOk system) {caller : κ} {phase : EnsurePhase}
    (hphase : ∀ lastSeq, phase = .raising lastSeq → lastSeq ≤ system.log.length ∧
      3 ≤ (executionNoProgress (system.log.take lastSeq)).count ∧
      (executionNoProgress (system.log.take lastSeq)).openIds = []) :
    EnsureOk (system.enter caller phase) := by
  refine ⟨h.openIds, h.raised, fun other lastSeq hother => ?_⟩
  simp only [EnsureSystem.enter] at hother ⊢
  by_cases hsame : other = caller
  · rw [hsame, Function.update_self] at hother
    exact hphase lastSeq hother
  · rw [Function.update_of_ne hsame] at hother
    exact h.raising other lastSeq hother

theorem EnsureOk.step (h : EnsureOk system) {act : EnsureAct κ}
    (hstep : system.step act = some next) : EnsureOk next := by
  unfold EnsureSystem.step at hstep
  cases act with
  | append body =>
    dsimp only at hstep
    split at hstep
    · exact absurd hstep nofun
    next hbody =>
      cases hstep
      have hother := Bool.eq_false_iff.mpr hbody
      refine h.push ((openIds_foldEvent hother).trans h.openIds) fun id hraise => ?_
      rw [hraise] at hother
      exact absurd hother nofun
  | read caller lastSeq decision =>
    dsimp only at hstep
    split at hstep
    · exact absurd hstep nofun
    next =>
      split at hstep
      next hle =>
        split at hstep
        next =>
          cases hstep
          exact h.enter nofun
        next hnone =>
          cases hstep
          obtain ⟨hopen, hcount⟩ := ensureDecision_none hnone
          refine h.enter fun other hother => ?_
          cases hother
          exact ⟨hle, hcount, hopen⟩
      · exact absurd hstep nofun
  | raise caller id =>
    dsimp only at hstep
    split at hstep
    next lastSeq hcaller =>
      obtain ⟨-, hcount, hopen⟩ := h.raising caller lastSeq hcaller
      split at hstep
      next hcurrent =>
        cases hstep
        rw [← hcurrent, List.take_length] at hcount hopen
        -- The log is what was read, so none is open and the streak is three.
        have hpushed : EnsureOk (system.push (noProgressRaise id)) := by
          refine h.push ?_ fun _ _ => ⟨hcount, hopen⟩
          rw [foldEvent, noProgressRaise]
          dsimp only
          rw [if_pos ⟨rfl, rfl⟩, hopen, if_neg List.not_mem_nil]
          exact le_rfl
        exact hpushed.enter nofun
      next =>
        cases hstep
        exact h.enter nofun
    · exact absurd hstep nofun

theorem ensureOk_of_run (h : EnsureRun system) : EnsureOk system := by
  induction h with
  | start =>
    refine ⟨Nat.zero_le _, fun i id hbody => ?_, fun caller lastSeq hcaller => ?_⟩
    · exact absurd (lt_of_bodyAt hbody) (Nat.not_lt_zero i)
    · exact absurd hcaller nofun
  | step act _ hstep ih => exact ih.step hstep

end Raises

/-- **The count is the longest streak**, however the log is folded in parts; and whoever calls in
whatever order, at most one escalation is open and each was raised on a streak of three. -/
theorem execution_no_progress {κ : Type} [DecidableEq κ] :
    (∀ chunks : List (List StoredEvent), IsGreatest (streakLengths chunks.flatten)
      (chunks.foldl foldNoProgress .initial).count) ∧
    ∀ system : EnsureSystem κ, EnsureRun system →
      (∀ id other, OpenBefore system.log system.log.length id →
        OpenBefore system.log system.log.length other → id = other) ∧
      ∀ i id, bodyAt system.log i = some (noProgressRaise id) →
        3 ≤ (executionNoProgress (system.log.take i)).count := by
  refine ⟨fun chunks => ?_, fun system hrun => ⟨fun id other hid hother => ?_, fun i id hraise =>
    ((ensureOk_of_run hrun).raised i id hraise).1⟩⟩
  · rw [foldl_foldNoProgress]
    exact (tracks_executionNoProgress chunks.flatten).count
  · have htracks := tracks_executionNoProgress system.log
    have hid := (htracks.openIds id).mpr hid
    have hother := (htracks.openIds other).mpr hother
    have hone := (ensureOk_of_run hrun).openIds
    obtain ⟨first, rest, hopen⟩ := List.exists_cons_of_ne_nil (List.ne_nil_of_mem hid)
    rw [hopen, List.length_cons] at hone
    obtain rfl := List.length_eq_zero_iff.mp (Nat.le_zero.mp (Nat.le_of_succ_le_succ hone))
    rw [hopen, List.mem_singleton] at hid hother
    rw [hid, hother]

end Autobuild.ExecutionNoProgress
