/-
# Pausing and resuming a build

Operators request, the kernel acknowledges.  A request countermands the pending ones of the
other kind; an acknowledgement sets the flag and clears the requests of its own kind, and it may
have been decided on a log that ends before the latest requests.

* `Control` is the flag and the two lists of requests, and moves with five kinds of events.
* `PauseRun` interleaves requests, acknowledgements decided on a prefix, and anything else.  The
  prefix holds the kernel's previous acknowledgement.
* `Control.Follows` is the invariant: the latest request is pending, or in force.
* `pause_settled`: no pause and resume are pending together, and a kernel with nothing left to
  acknowledge has the build paused exactly after a pause.  Neither survives an acknowledgement
  that was decided before the previous one was appended (`not_pause_settled`).
-/
import Autobuild.Kernel.Docket
import Autobuild.Kernel.FinalizeGate

namespace Autobuild

open Checked

/-! ## 1. The control of a build -/

structure Control where
  paused : Bool
  pause : List PendingCommand
  resume : List PendingCommand

def Docket.control (docket : Docket) : Control :=
  ⟨docket.pausedFlag, docket.pending.pause, docket.pending.resume⟩

def Control.note (control : Control) (event : AbEvent) : Control :=
  match event.body with
  | .build (.pauseRequested reason) =>
    { control with
      resume := [], pause := control.pause ++ [⟨.pause, event.seq, reason, event.actor⟩] }
  | .build (.resumeRequested reason) =>
    { control with
      pause := [], resume := control.resume ++ [⟨.resume, event.seq, reason, event.actor⟩] }
  | .build .paused => { control with paused := true, pause := [] }
  | .build .resumed => { control with paused := false, resume := [] }
  | _ => control

theorem withdrawAbort_control (pending : PendingCommands) (escalation : AnyEscalation) :
    (withdrawAbort pending escalation).pause = pending.pause ∧
      (withdrawAbort pending escalation).resume = pending.resume := by
  unfold withdrawAbort
  split
  · split <;> exact ⟨rfl, rfl⟩
  · exact ⟨rfl, rfl⟩

theorem supersedeOne_control (acc : BuildAcc) (escalation : AnyEscalation) :
    (supersedeOne acc escalation).docket.control = acc.docket.control := by
  unfold supersedeOne
  split
  · rfl
  · obtain ⟨hp, hr⟩ := withdrawAbort_control acc.pending escalation
    unfold Docket.control BuildAcc.docket
    dsimp only
    rw [hp, hr]

theorem foldSuperseded_control (acc : BuildAcc) (body : EventBody) :
    (foldSuperseded acc body).docket.control = acc.docket.control :=
  foldSuperseded_keeps (P := fun next => next.docket.control = acc.docket.control)
    (fun next escalation h => (supersedeOne_control next escalation).trans h) body rfl

theorem foldFacts_control (acc : BuildAcc) (event : AbEvent) :
    (foldFacts acc event).docket.control = acc.docket.control.note event := by
  by_cases hd : onDocket event.body = true
  · obtain ⟨seq, ts, actor, body⟩ := event
    dsimp only at hd
    unfold onDocket at hd
    split at hd
    · rfl
    · rfl
    · rfl
    · rfl
    · rfl
    · rfl
    · rfl
    · unfold foldFacts foldVerifyEvent foldVerifyCompleted
      dsimp only
      split <;> rfl
    · unfold foldFacts foldEscalationRaised
      dsimp only
      split <;> rfl
    · unfold foldFacts foldEscalationAnswered
      dsimp only
      split
      · rfl
      · unfold Docket.control BuildAcc.docket
        dsimp only
        split <;> rfl
    · rfl
    · exact absurd hd nofun
  · rw [foldFacts_docket acc (Bool.eq_false_of_not_eq_true hd)]
    unfold Control.note
    split
    all_goals first
      | rename_i hb
        rw [hb] at hd
        exact absurd rfl hd
      | rfl

/-- **One event moves the control alone.** -/
theorem foldEvent_control {acc next : BuildAcc} {event : AbEvent}
    (h : foldEvent acc event = .ok next) :
    next.docket.control = acc.docket.control.note event := by
  obtain ⟨staged, hs, hn⟩ := foldEvent_docket h
  rw [hn, foldFacts_control, foldSuperseded_control, hs]
  rfl

/-- The control of a log. -/
def controlOf (events : List AbEvent) : Control := events.foldl Control.note ⟨false, [], []⟩

theorem foldlM_foldEvent_control {events : List AbEvent} {acc next : BuildAcc}
    (h : events.foldlM foldEvent acc = .ok next) :
    next.docket.control = events.foldl Control.note acc.docket.control :=
  foldlM_part foldEvent_control h

/-- The pending aborts are aborts. -/
theorem foldEvent_aborts {acc next : BuildAcc} {event : AbEvent}
    (h : foldEvent acc event = .ok next)
    (ha : ∀ command ∈ acc.pending.abort, command.command = .abort) :
    ∀ command ∈ next.pending.abort, command.command = .abort := by
  obtain ⟨staged, hs, hn⟩ := foldEvent_docket h
  have hstaged : ∀ command ∈ staged.pending.abort, command.command = .abort := by
    rw [show staged.pending = acc.pending from congrArg Docket.pending hs]
    exact ha
  have hone : ∀ (acc : BuildAcc) (escalation : AnyEscalation),
      (∀ command ∈ acc.pending.abort, command.command = .abort) →
      ∀ command ∈ (supersedeOne acc escalation).pending.abort, command.command = .abort := by
    intro acc escalation hacc
    unfold supersedeOne
    split
    · exact hacc
    · dsimp only
      unfold withdrawAbort
      split
      · split
        · exact fun command hc => hacc command (List.mem_filter.mp hc).1
        · exact hacc
      · exact hacc
  have hswept : ∀ command ∈ (foldSuperseded staged event.body).pending.abort,
      command.command = .abort := foldSuperseded_keeps hone event.body hstaged
  rw [show next.pending = (foldFacts (foldSuperseded staged event.body) event).pending from
    congrArg Docket.pending hn]
  generalize foldSuperseded staged event.body = swept at hswept
  by_cases hd : onDocket event.body = true
  · obtain ⟨seq, ts, actor, body⟩ := event
    dsimp only at hd
    unfold onDocket at hd
    split at hd
    · exact hswept
    · exact hswept
    · exact hswept
    · intro command hc
      rcases List.mem_append.mp hc with hc | hc
      · exact hswept command hc
      · rw [List.mem_singleton.mp hc]
    · exact hswept
    · exact hswept
    · exact fun _ hc => absurd hc List.not_mem_nil
    · unfold foldFacts foldVerifyEvent foldVerifyCompleted
      dsimp only
      split <;> exact hswept
    · unfold foldFacts foldEscalationRaised
      dsimp only
      split <;> exact hswept
    · unfold foldFacts foldEscalationAnswered
      dsimp only
      split
      · exact hswept
      · dsimp only
        split
        · intro command hc
          rcases List.mem_append.mp hc with hc | hc
          · exact hswept command hc
          · rw [List.mem_singleton.mp hc]
        · exact hswept
    · exact hswept
    · exact absurd hd nofun
  · rw [show (foldFacts swept event).pending = swept.pending from
      congrArg Docket.pending (foldFacts_docket swept (Bool.eq_false_of_not_eq_true hd))]
    exact hswept

theorem foldlM_foldEvent_aborts {events : List AbEvent} {acc next : BuildAcc}
    (h : events.foldlM foldEvent acc = .ok next)
    (ha : ∀ command ∈ acc.pending.abort, command.command = .abort) :
    ∀ command ∈ next.pending.abort, command.command = .abort :=
  foldlM_keeps foldEvent_aborts h ha

/-! ## 2. Runs -/

/-- The request of an operator. -/
def requestOf : EventBody → Option CommandKind
  | .build (.pauseRequested _) => some .pause
  | .build (.resumeRequested _) => some .resume
  | _ => none

/-- The request an event acknowledges. -/
def acknowledgementOf : EventBody → Option CommandKind
  | .build .paused => some .pause
  | .build .resumed => some .resume
  | _ => none

/-- An event of the kind, if the catalog knows it. -/
def bodyOf? (stored : StoredEvent) : Option EventBody := (decodeStoredEvent stored).map (·.body)

/-- Neither a request nor an acknowledgement. -/
def Unrelated (stored : StoredEvent) : Prop :=
  ∀ body, bodyOf? stored = some body → requestOf body = none ∧ acknowledgementOf body = none

/-- Logs of a build with one kernel.  `since` is the length of the log after the kernel's last
acknowledgement, and `horizon since` the least prefix it may decide the next one on. -/
inductive PauseRun (horizon : Nat → Nat) : List StoredEvent → Nat → Prop where
  | nil : PauseRun horizon [] 0
  | request {log : List StoredEvent} {since : Nat} (run : PauseRun horizon log since)
      (event : AbEvent) (h : requestOf event.body ≠ none) :
      PauseRun horizon (log ++ [.known event]) since
  | unrelated {log : List StoredEvent} {since : Nat} (run : PauseRun horizon log since)
      (event : StoredEvent) (h : Unrelated event) : PauseRun horizon (log ++ [event]) since
  | acknowledge (before after : List StoredEvent) {since : Nat}
      (run : PauseRun horizon (before ++ after) since) (hsince : horizon since ≤ before.length)
      (config : Config) (command : CommandKind)
      (decided : decideNext before config = .ok (.acknowledge command)) (event : AbEvent)
      (h : acknowledgementOf event.body = some command) :
      PauseRun horizon ((before ++ after) ++ [.known event]) ((before ++ after).length + 1)

theorem unrelated_unknown (seq : Nat) (type : String) (metadata : Option CompatibilityMetadata) :
    Unrelated (.unknown seq type metadata) :=
  fun _ h => absurd h (Option.some_ne_none _).symm

/-- The latest request of a log. -/
def lastRequest (events : List AbEvent) : Option CommandKind :=
  events.foldl (fun last event => (requestOf event.body).or last) none

/-- The latest request is pending or in force, and nothing of the other kind is pending. -/
def Control.Follows (control : Control) : Option CommandKind → Prop
  | none => control.pause = [] ∧ control.resume = [] ∧ control.paused = false
  | some .pause => control.resume = [] ∧ (control.pause ≠ [] ∨ control.paused = true)
  | some .resume => control.pause = [] ∧ (control.resume ≠ [] ∨ control.paused = false)
  | some .abort => False

/-! ## 3. What an acknowledgement was decided on -/

theorem acknowledge_of_attachReceipt {state : EngineFacts} {log : LogIndex} {config : Config}
    {decision : Decision} {command : CommandKind}
    (h : attachReceipt state log config decision = .acknowledge command) :
    decision = .acknowledge command := by
  unfold attachReceipt at h
  split at h
  · split at h
    · split at h <;> exact absurd h nofun
    · exact absurd h nofun
  · exact h

section Rules

variable {state : EngineFacts} {log : LogIndex} {config : Config} {command : CommandKind}

theorem epilogueDecision_ne : epilogueDecision state log config ≠ .acknowledge command := by
  have hof : ∀ {first rest : Option Decision} {last : Decision},
      first ≠ some (.acknowledge command) → rest.getD last ≠ .acknowledge command →
      (first.or rest).getD last ≠ .acknowledge command := by
    intro first rest last hf hr
    cases first with
    | none => exact hr
    | some d => exact fun h => hf (congrArg some h)
  unfold epilogueDecision
  refine hof ?_ (hof ?_ (hof ?_ ?_))
  · unfold finalizeDecision
    split
    · exact nofun
    · intro h
      obtain ⟨step, -, hs⟩ := List.exists_of_findSome?_eq_some h
      unfold finalizeStepDecision at hs
      split at hs
      · exact absurd hs nofun
      · obtain ⟨kind, -, hk⟩ := Option.map_eq_some_iff.mp hs
        exact absurd hk nofun
  · unfold resumeReconcile
    split
    · split
      · exact nofun
      · split
        · split <;> exact nofun
        · exact nofun
    · exact nofun
  · unfold landingRestack
    split
    · exact nofun
    · dsimp only
      split <;> exact nofun
  · have hrepeat : ∀ conflict completed,
        repeatConflict state log config conflict completed ≠ some (.acknowledge command) := by
      intro conflict completed
      unfold repeatConflict
      split
      · split
        · exact nofun
        · split <;> exact nofun
      · exact nofun
    unfold conflictDecision
    split
    · exact nofun
    · split
      · intro h
        cases hl : log.lastReconcileCompleted with
        | none =>
          rw [hl] at h
          exact absurd h nofun
        | some completed =>
          rw [hl] at h
          cases hr : repeatConflict state log config _ completed with
          | none =>
            rw [Option.bind_some, hr] at h
            exact absurd h nofun
          | some d =>
            rw [Option.bind_some, hr] at h
            exact hrepeat _ completed (hr.trans (congrArg some h))
      · exact nofun

theorem Decision.plain.ne {decision : Decision} (h : decision.plain) :
    decision ≠ .acknowledge command := by
  intro he
  rw [he] at h
  exact h

/-- Only the rule of the commands acknowledges. -/
theorem commandDecision_of_acknowledge
    (h : decideNextInternal state log config = .ok (.acknowledge command)) :
    commandDecision state log = some (.acknowledge command) := by
  unfold decideNextInternal at h
  dsimp only at h
  split at h
  · rename_i first hfirst
    cases h
    rcases Option.or_eq_some_iff.mp hfirst with hc | ⟨-, hb⟩
    · exact hc
    · exact absurd rfl (steady_of_blocked hb).plain.ne
  · split_ifs at h
    · exact absurd rfl (steady_of_node h).plain.ne
    · have h := Except.ok.inj h
      unfold decideWork at h
      have hof : ∀ {first rest : Option Decision} {last : Decision},
          (∀ d, first = some d → d.plain) → rest.getD last ≠ .acknowledge command →
          (first.or rest).getD last ≠ .acknowledge command := by
        intro first rest last hf hr
        cases first with
        | none => exact hr
        | some d => exact (hf d rfl).ne
      refine absurd h (hof (fun d hd => (steady_of_spec hd).plain) (hof (fun d hd => plain_of_loop
        (show CorePhase.plan ≠ .finalize by decide)
        (show CorePhase.planReview ≠ .finalize by decide) hd) (hof (fun d hd => plain_of_loop
        (show CorePhase.implement ≠ .finalize by decide)
        (show CorePhase.codeReview ≠ .finalize by decide) hd) ?_)))
      cases hv : verifyDecision state log config (engineStage state log config) with
      | none => exact epilogueDecision_ne
      | some d => exact (plain_of_verify hv).ne

end Rules

/-- What the reducer shows of the control of a log. -/
theorem reduceBuild_control {log : List StoredEvent} {state : BuildState}
    (h : reduceBuild log = .ok state) :
    ∃ aborts : List PendingCommand, (∀ command ∈ aborts, command.command = .abort) ∧
      state.pendingCommands = ((controlOf (projectEvents log)).pause
        ++ (controlOf (projectEvents log)).resume ++ aborts).insertionSort
          (fun a b => a.seq ≤ b.seq) ∧
      (state.status = .paused → (controlOf (projectEvents log)).paused = true) ∧
      ((controlOf (projectEvents log)).paused = true → state.status = .done ∨
        state.status = .aborted ∨ state.status = .paused) := by
  obtain ⟨acc, next, hacc, hfold, -, -, -, -, hstatus, hpending⟩ := reduceBuild_docket h
  have hcontrol : next.docket.control = controlOf (projectEvents log) := by
    rw [foldlM_foldEvent_control hfold, hacc]
    rfl
  have hinit : ∀ command ∈ acc.pending.abort, command.command = .abort := by
    rw [show acc.pending = {} from congrArg Docket.pending hacc]
    exact fun _ hc => absurd hc List.not_mem_nil
  refine ⟨next.pending.abort, foldlM_foldEvent_aborts hfold hinit, ?_, ?_, ?_⟩
  · rw [hpending, ← hcontrol]
    rfl
  · intro hp
    rw [← hcontrol]
    rw [hstatus] at hp
    unfold buildStatus at hp
    split at hp
    · exact absurd hp nofun
    · exact absurd hp nofun
    · split_ifs at hp with hflag
      exact hflag
  · intro hp
    rw [← hcontrol] at hp
    have hp : next.pausedFlag = true := hp
    rw [hstatus]
    unfold buildStatus
    split
    · exact Or.inl rfl
    · exact Or.inr (Or.inl rfl)
    · rw [if_pos hp]
      exact Or.inr (Or.inr rfl)

/-! ## 4. The invariant of a run -/

/-- The lists hold requests of their own kind. -/
def Control.Kinds (control : Control) : Prop :=
  (∀ command ∈ control.pause, command.command = .pause) ∧
    ∀ command ∈ control.resume, command.command = .resume

theorem Control.Kinds.note {control : Control} (h : control.Kinds) (event : AbEvent) :
    (control.note event).Kinds := by
  obtain ⟨hp, hr⟩ := h
  unfold Control.note
  split
  · refine ⟨fun command hc => ?_, fun _ hc => absurd hc List.not_mem_nil⟩
    rcases List.mem_append.mp hc with hc | hc
    · exact hp command hc
    · rw [List.mem_singleton.mp hc]
  · refine ⟨fun _ hc => absurd hc List.not_mem_nil, fun command hc => ?_⟩
    rcases List.mem_append.mp hc with hc | hc
    · exact hr command hc
    · rw [List.mem_singleton.mp hc]
  · exact ⟨fun _ hc => absurd hc List.not_mem_nil, hr⟩
  · exact ⟨hp, fun _ hc => absurd hc List.not_mem_nil⟩
  · exact ⟨hp, hr⟩

theorem controlOf_snoc (events : List AbEvent) (event : AbEvent) :
    controlOf (events ++ [event]) = (controlOf events).note event := by
  unfold controlOf
  rw [List.foldl_append, List.foldl_cons, List.foldl_nil]

theorem lastRequest_snoc (events : List AbEvent) (event : AbEvent) :
    lastRequest (events ++ [event]) = (requestOf event.body).or (lastRequest events) := by
  unfold lastRequest
  rw [List.foldl_append, List.foldl_cons, List.foldl_nil]

theorem controlOf_kinds (events : List AbEvent) : (controlOf events).Kinds := by
  induction events using List.reverseRecOn with
  | nil => exact ⟨fun _ hc => absurd hc List.not_mem_nil, fun _ hc => absurd hc List.not_mem_nil⟩
  | append_singleton events event ih =>
    rw [controlOf_snoc]
    exact ih.note event

/-- No pause and resume are pending together, whoever appends what. -/
theorem pause_or_resume_nil (events : List AbEvent) :
    (controlOf events).pause = [] ∨ (controlOf events).resume = [] := by
  induction events using List.reverseRecOn with
  | nil => exact Or.inl rfl
  | append_singleton events event ih =>
    rw [controlOf_snoc]
    unfold Control.note
    split
    · exact Or.inr rfl
    · exact Or.inl rfl
    · exact Or.inl rfl
    · exact Or.inr rfl
    · exact ih

/-- Events that are neither leave the control and the latest request. -/
theorem note_of_unrelated {control : Control} {event : AbEvent}
    (hr : requestOf event.body = none) (ha : acknowledgementOf event.body = none) :
    control.note event = control := by
  unfold Control.note
  split
  · rename_i hb
    rw [hb] at hr
    exact absurd hr nofun
  · rename_i hb
    rw [hb] at hr
    exact absurd hr nofun
  · rename_i hb
    rw [hb] at ha
    exact absurd ha nofun
  · rename_i hb
    rw [hb] at ha
    exact absurd ha nofun
  · rfl

/-- A request is pending, and the other kind is not. -/
theorem follows_request {control : Control} {event : AbEvent} {command : CommandKind}
    (h : requestOf event.body = some command) : (control.note event).Follows (some command) := by
  unfold requestOf at h
  split at h
  · rename_i hb
    rw [← Option.some.inj h]
    unfold Control.note
    rw [hb]
    exact ⟨rfl, Or.inl (by simp)⟩
  · rename_i hb
    rw [← Option.some.inj h]
    unfold Control.note
    rw [hb]
    exact ⟨rfl, Or.inl (by simp)⟩
  · exact absurd h nofun

/-- No acknowledgement among some events. -/
def Unacknowledged (events : List AbEvent) : Prop :=
  ∀ event ∈ events, acknowledgementOf event.body = none

/-- Control of a log that goes on after a prefix without acknowledgements. -/
def ContinuesControl (before after : Control) (lastBefore lastAfter : Option CommandKind) : Prop :=
  after.paused = before.paused ∧
    ((lastAfter = lastBefore ∧ after.pause = before.pause ∧ after.resume = before.resume) ∨
    (lastAfter = some .pause ∧ after.pause ≠ [] ∧ after.resume = []) ∨
    (lastAfter = some .resume ∧ after.resume ≠ [] ∧ after.pause = []))

/-- Without acknowledgements the flag stays, and what the requests leave pending. -/
theorem control_append (before : List AbEvent) {after : List AbEvent} (h : Unacknowledged after) :
    ContinuesControl (controlOf before) (controlOf (before ++ after)) (lastRequest before)
      (lastRequest (before ++ after)) := by
  induction after using List.reverseRecOn with
  | nil =>
    rw [List.append_nil]
    exact ⟨rfl, Or.inl ⟨rfl, rfl, rfl⟩⟩
  | append_singleton after event ih =>
    obtain ⟨hflag, hcases⟩ := ih fun e he => h e (List.mem_append_left _ he)
    have hack := h event (by simp)
    rw [← List.append_assoc, controlOf_snoc, lastRequest_snoc]
    cases hr : requestOf event.body with
    | none =>
      rw [note_of_unrelated hr hack, Option.none_or]
      exact ⟨hflag, hcases⟩
    | some command =>
      rw [Option.some_or]
      unfold requestOf at hr
      split at hr
      · rename_i hb
        unfold Control.note
        rw [hb, ← Option.some.inj hr]
        exact ⟨hflag, Or.inr (Or.inl ⟨rfl, by simp, rfl⟩)⟩
      · rename_i hb
        unfold Control.note
        rw [hb, ← Option.some.inj hr]
        exact ⟨hflag, Or.inr (Or.inr ⟨rfl, by simp, rfl⟩)⟩
      · exact absurd hr nofun

/-- A decided acknowledgement answers a pending request of the other state. -/
theorem of_decided {log : List StoredEvent} {config : Config} {command : CommandKind}
    (h : decideNext log config = .ok (.acknowledge command)) :
    (command = .resume → (controlOf (projectEvents log)).paused = true ∧
      (controlOf (projectEvents log)).resume ≠ []) ∧
    (command = .pause → (controlOf (projectEvents log)).paused = false ∧
      (controlOf (projectEvents log)).pause ≠ []) := by
  unfold decideNext at h
  obtain ⟨state, hstate, h⟩ := bind_eq_ok.mp h
  unfold decideNextFromFacts at h
  dsimp only at h
  obtain ⟨inner, hinner, hattach⟩ := map_eq_ok.mp h
  rw [acknowledge_of_attachReceipt hattach] at hinner
  have hc := commandDecision_of_acknowledge hinner
  obtain ⟨aborts, haborts, hpending, hpaused, hflag⟩ := reduceBuild_control hstate
  obtain ⟨hkp, hkr⟩ := controlOf_kinds (projectEvents log)
  have hrequests : ∀ kind, state.engineFacts.requests kind = true →
      ∃ command ∈ (controlOf (projectEvents log)).pause ++ (controlOf (projectEvents log)).resume
        ++ aborts, command.command = kind := by
    intro kind hk
    obtain ⟨command, hm, hcommand⟩ := List.any_eq_true.mp hk
    have hm : command ∈ state.pendingCommands := hm
    rw [hpending] at hm
    exact ⟨command, (List.mem_insertionSort _).mp hm, of_decide_eq_true hcommand⟩
  unfold commandDecision at hc
  split_ifs at hc with _ haborted hdone habort hp hresume hpause
  · exact absurd hc nofun
  · exact absurd hc nofun
  · exact absurd hc nofun
  · cases hc
    exact ⟨nofun, nofun⟩
  · cases hc
    refine ⟨fun _ => ⟨hpaused hp, fun hnil => ?_⟩, nofun⟩
    obtain ⟨command, hm, hk⟩ := hrequests .resume hresume
    rw [hnil, List.append_nil] at hm
    rcases List.mem_append.mp hm with hm | hm
    · exact absurd ((hkp command hm).symm.trans hk) nofun
    · exact absurd ((haborts command hm).symm.trans hk) nofun
  · exact absurd hc nofun
  · cases hc
    refine ⟨nofun, fun _ => ⟨?_, fun hnil => ?_⟩⟩
    · refine Bool.eq_false_of_not_eq_true fun hf => ?_
      rcases hflag hf with hs | hs | hs
      · exact hdone hs
      · exact haborted hs
      · exact hp hs
    · obtain ⟨command, hm, hk⟩ := hrequests .pause hpause
      rw [hnil, List.nil_append] at hm
      rcases List.mem_append.mp hm with hm | hm
      · exact absurd ((hkr command hm).symm.trans hk) nofun
      · exact absurd ((haborts command hm).symm.trans hk) nofun
  · exact absurd hc nofun

theorem projectEvents_known (log : List StoredEvent) (event : AbEvent) :
    projectEvents (log ++ [.known event]) = projectEvents log ++ [event] := by
  rw [projectEvents_append]
  rfl

/-- The known event of an unrelated one, if any. -/
theorem projectEvents_unrelated (log : List StoredEvent) {stored : StoredEvent}
    (h : Unrelated stored) :
    projectEvents (log ++ [stored]) = projectEvents log ∨
      ∃ event, projectEvents (log ++ [stored]) = projectEvents log ++ [event] ∧
        requestOf event.body = none ∧ acknowledgementOf event.body = none := by
  rw [projectEvents_append]
  cases stored with
  | known event => exact Or.inr ⟨event, rfl, h event.body rfl⟩
  | unknown seq type metadata => exact Or.inl (List.append_nil _)

/-- An acknowledgement that was decided on an earlier control leaves the latest request pending
or in force. -/
theorem follows_acknowledgement {before after : Control} {lastBefore lastAfter : Option CommandKind}
    {command : CommandKind} {event : AbEvent} (hfollows : after.Follows lastAfter)
    (hcontinues : ContinuesControl before after lastBefore lastAfter)
    (hdecided : (command = .resume → before.paused = true ∧ before.resume ≠ []) ∧
      (command = .pause → before.paused = false ∧ before.pause ≠ []))
    (h : acknowledgementOf event.body = some command) :
    (after.note event).Follows ((requestOf event.body).or lastAfter) := by
  obtain ⟨hflag, hcases⟩ := hcontinues
  unfold acknowledgementOf at h
  split at h
  · rename_i hb
    obtain ⟨hpaused, hpending⟩ := hdecided.2 (Option.some.inj h).symm
    rw [hb]
    unfold Control.note
    rw [hb]
    rcases hcases with ⟨-, hp, -⟩ | ⟨hl, -, hr⟩ | ⟨hl, hr, -⟩
    · cases hl : lastAfter with
      | none =>
        rw [hl] at hfollows
        exact absurd (hp ▸ hfollows.1) hpending
      | some last =>
        rw [hl] at hfollows
        cases last with
        | pause => exact ⟨hfollows.1, Or.inr rfl⟩
        | resume => exact absurd (hp ▸ hfollows.1) hpending
        | abort => exact hfollows
    · rw [hl]
      exact ⟨hr, Or.inr rfl⟩
    · rw [hl]
      exact ⟨rfl, Or.inl hr⟩
  · rename_i hb
    obtain ⟨hpaused, hpending⟩ := hdecided.1 (Option.some.inj h).symm
    rw [hb]
    unfold Control.note
    rw [hb]
    rcases hcases with ⟨-, -, hr⟩ | ⟨hl, hp, -⟩ | ⟨hl, -, hp⟩
    · cases hl : lastAfter with
      | none =>
        rw [hl] at hfollows
        exact absurd (hr ▸ hfollows.2.1) hpending
      | some last =>
        rw [hl] at hfollows
        cases last with
        | pause => exact absurd (hr ▸ hfollows.1) hpending
        | resume => exact ⟨hfollows.1, Or.inr rfl⟩
        | abort => exact hfollows
    · rw [hl]
      exact ⟨rfl, Or.inl hp⟩
    · rw [hl]
      exact ⟨hp, Or.inr rfl⟩
  · exact absurd h nofun

/-- **The invariant of a run.** -/
theorem PauseRun.follows {log : List StoredEvent} {since : Nat}
    (run : PauseRun id log since) :
    (controlOf (projectEvents log)).Follows (lastRequest (projectEvents log)) ∧
      since ≤ log.length ∧ Unacknowledged (projectEvents (log.drop since)) := by
  induction run with
  | nil => exact ⟨⟨rfl, rfl, rfl⟩, le_rfl, fun _ he => absurd he List.not_mem_nil⟩
  | request run event h ih =>
    obtain ⟨-, hlen, hnone⟩ := ih
    obtain ⟨command, hc⟩ := Option.ne_none_iff_exists'.mp h
    rw [projectEvents_known, controlOf_snoc, lastRequest_snoc, hc, Option.some_or]
    refine ⟨follows_request hc, by rw [List.length_append]; omega, ?_⟩
    rw [List.drop_append_of_le_length hlen, projectEvents_known]
    intro e he
    rcases List.mem_append.mp he with he | he
    · exact hnone e he
    · rw [List.mem_singleton.mp he]
      unfold requestOf at hc
      split at hc
      · rename_i hb
        rw [hb]
        rfl
      · rename_i hb
        rw [hb]
        rfl
      · exact absurd hc nofun
  | unrelated run stored h ih =>
    obtain ⟨hfollows, hlen, hnone⟩ := ih
    rw [List.drop_append_of_le_length hlen]
    refine ⟨?_, by rw [List.length_append]; omega, ?_⟩
    · rcases projectEvents_unrelated _ h with he | ⟨event, he, hr, ha⟩
      · rw [he]
        exact hfollows
      · rw [he, controlOf_snoc, lastRequest_snoc, note_of_unrelated hr ha, hr, Option.none_or]
        exact hfollows
    · rcases projectEvents_unrelated _ h with he | ⟨event, he, hr, ha⟩
      · rw [he]
        exact hnone
      · rw [he]
        intro e hm
        rcases List.mem_append.mp hm with hm | hm
        · exact hnone e hm
        · rw [List.mem_singleton.mp hm]
          exact ha
  | @acknowledge before after since run hsince config command decided event h ih =>
    obtain ⟨hfollows, hlen, hnone⟩ := ih
    have hsince : since ≤ before.length := hsince
    have hafter : Unacknowledged (projectEvents after) := by
      intro e he
      refine hnone e ?_
      rw [List.drop_append_of_le_length hsince, projectEvents_append]
      exact List.mem_append_right _ he
    have hlength : (before ++ after ++ [StoredEvent.known event]).length
        = (before ++ after).length + 1 := by
      rw [List.length_append, List.length_singleton]
    refine ⟨?_, hlength.ge, ?_⟩
    · rw [projectEvents_known, controlOf_snoc, lastRequest_snoc]
      rw [projectEvents_append] at hfollows ⊢
      exact follows_acknowledgement hfollows (control_append (projectEvents before) hafter)
        (of_decided decided) h
    · rw [List.drop_of_length_le hlength.le]
      exact fun _ he => absurd he List.not_mem_nil

/-! ## 5. Nothing left to acknowledge -/

/-- The rule of the commands comes first. -/
theorem decideNext_of_commandDecision {log : List StoredEvent} {config : Config}
    {state : BuildState} {first decision : Decision} (hstate : reduceBuild log = .ok state)
    (hc : commandDecision state.engineFacts
      (effectiveCompletions state.engineFacts (indexLog (projectEvents log))) = some first)
    (h : decideNext log config = .ok decision) :
    decision = attachReceipt state.engineFacts (indexLog (projectEvents log)) config first := by
  unfold decideNext at h
  rw [hstate] at h
  have h : decideNextFromFacts state (indexLog (projectEvents log)) config = .ok decision := h
  unfold decideNextFromFacts at h
  dsimp only at h
  obtain ⟨inner, hinner, hattach⟩ := map_eq_ok.mp h
  unfold decideNextInternal at hinner
  dsimp only at hinner
  rw [hc, Option.some_or] at hinner
  rw [← hattach, ← Except.ok.inj hinner]

/-- Nothing to acknowledge on a live build: no pause is pending while it runs, no resume while it
is paused. -/
theorem requests_of_settled {log : List StoredEvent} {config : Config} {state : BuildState}
    {decision : Decision} (hstate : reduceBuild log = .ok state) (hdone : state.status ≠ .done)
    (haborted : state.status ≠ .aborted) (h : decideNext log config = .ok decision)
    (hack : ∀ command, decision ≠ .acknowledge command)
    (hmixed : decision ≠ .wait .mixedVersion) :
    (state.status = .paused → state.engineFacts.requests .resume = false) ∧
      (state.status ≠ .paused → state.engineFacts.requests .pause = false) := by
  have hrule : ∀ first, (∃ command, first = .acknowledge command) ∨ first = .wait .mixedVersion →
      commandDecision state.engineFacts
        (effectiveCompletions state.engineFacts (indexLog (projectEvents log))) ≠ some first := by
    intro first hfirst hc
    have hd := decideNext_of_commandDecision hstate hc h
    rcases hfirst with ⟨command, rfl⟩ | rfl
    · exact hack command hd
    · exact hmixed hd
  unfold commandDecision at hrule
  have hversion : mixedVersionDeferred state.engineFacts = false := by
    refine Bool.eq_false_of_not_eq_true fun hv => ?_
    exact hrule _ (Or.inr rfl) (if_pos hv)
  have hlive : ¬state.engineFacts.status = .aborted ∧ ¬state.engineFacts.status = .done :=
    ⟨haborted, hdone⟩
  have habort : state.engineFacts.requests .abort = false := by
    refine Bool.eq_false_of_not_eq_true fun ha => hrule _ (Or.inl ⟨.abort, rfl⟩) ?_
    simp [hversion, hlive, ha]
  refine ⟨fun hp => ?_, fun hp => ?_⟩
  · have hp : state.engineFacts.status = .paused := hp
    refine Bool.eq_false_of_not_eq_true fun hr => hrule _ (Or.inl ⟨.resume, rfl⟩) ?_
    simp [hversion, habort, hp, hr]
  · have hp : ¬state.engineFacts.status = .paused := hp
    refine Bool.eq_false_of_not_eq_true fun hr => hrule _ (Or.inl ⟨.pause, rfl⟩) ?_
    simp [hversion, hlive, habort, hp, hr]

/-- A request in one of the lists is a request the engine sees. -/
theorem requests_of_mem {state : BuildState} {control : Control} {aborts : List PendingCommand}
    (hpending : state.pendingCommands = (control.pause ++ control.resume ++ aborts).insertionSort
      (fun a b => a.seq ≤ b.seq)) {command : PendingCommand}
    (hm : command ∈ control.pause ++ control.resume) :
    state.engineFacts.requests command.command = true := by
  refine List.any_eq_true.mpr ⟨command, ?_, decide_eq_true rfl⟩
  show command ∈ state.pendingCommands
  rw [hpending]
  exact (List.mem_insertionSort _).mpr (List.mem_append_left _ hm)

/-- **The operator's latest intent.**  Whatever the interleaving, no pause and resume are pending
together; and once the kernel has nothing left to acknowledge on a live build, the build is
paused exactly when the last request is a pause. -/
theorem pause_settled {log : List StoredEvent} {since : Nat} (run : PauseRun id log since)
    {state : BuildState} (hstate : reduceBuild log = .ok state) :
    ¬((∃ command ∈ state.pendingCommands, command.command = .pause) ∧
      ∃ command ∈ state.pendingCommands, command.command = .resume) ∧
    ∀ config decision, state.status ≠ .done → state.status ≠ .aborted →
      decideNext log config = .ok decision → (∀ command, decision ≠ .acknowledge command) →
      decision ≠ .wait .mixedVersion →
      (state.status = .paused ↔ lastRequest (projectEvents log) = some .pause) := by
  obtain ⟨aborts, haborts, hpending, hpaused, hflag⟩ := reduceBuild_control hstate
  obtain ⟨hkp, hkr⟩ := controlOf_kinds (projectEvents log)
  have hnil := pause_or_resume_nil (projectEvents log)
  have hfollows := run.follows.1
  generalize controlOf (projectEvents log) = control at *
  have hlist : ∀ command ∈ state.pendingCommands,
      command ∈ control.pause ∨ command ∈ control.resume ∨ command.command = .abort := by
    intro command hm
    rw [hpending] at hm
    rcases List.mem_append.mp ((List.mem_insertionSort _).mp hm) with hm | hm
    · rcases List.mem_append.mp hm with hm | hm
      · exact Or.inl hm
      · exact Or.inr (Or.inl hm)
    · exact Or.inr (Or.inr (haborts command hm))
  constructor
  · rintro ⟨⟨first, hf, hfk⟩, second, hs, hsk⟩
    have hfirst : control.pause ≠ [] := by
      rcases hlist first hf with hm | hm | hm
      · exact List.ne_nil_of_mem hm
      · exact absurd ((hkr first hm).symm.trans hfk) nofun
      · exact absurd (hm.symm.trans hfk) nofun
    have hsecond : control.resume ≠ [] := by
      rcases hlist second hs with hm | hm | hm
      · exact absurd ((hkp second hm).symm.trans hsk) nofun
      · exact List.ne_nil_of_mem hm
      · exact absurd (hm.symm.trans hsk) nofun
    exact hnil.elim hfirst hsecond
  · intro config decision hdone haborted h hack hmixed
    obtain ⟨hresume, hpause⟩ := requests_of_settled hstate hdone haborted h hack hmixed
    have hnoResume : state.status = .paused → control.resume = [] := by
      intro hp
      refine List.eq_nil_iff_forall_not_mem.mpr fun command hm => ?_
      have hr := requests_of_mem hpending (List.mem_append_right _ hm)
      rw [hkr command hm, hresume hp] at hr
      exact absurd hr nofun
    have hnoPause : state.status ≠ .paused → control.pause = [] := by
      intro hp
      refine List.eq_nil_iff_forall_not_mem.mpr fun command hm => ?_
      have hr := requests_of_mem hpending (List.mem_append_left _ hm)
      rw [hkp command hm, hpause hp] at hr
      exact absurd hr nofun
    cases hlast : lastRequest (projectEvents log) with
    | none =>
      rw [hlast] at hfollows
      refine ⟨fun hp => ?_, nofun⟩
      exact absurd ((hpaused hp).symm.trans hfollows.2.2) nofun
    | some last =>
      rw [hlast] at hfollows
      cases last with
      | pause =>
        refine ⟨fun _ => rfl, fun _ => ?_⟩
        by_contra hp
        rcases hfollows.2 with hne | hf
        · exact hne (hnoPause hp)
        · rcases hflag hf with hs | hs | hs
          · exact hdone hs
          · exact haborted hs
          · exact hp hs
      | resume =>
        refine ⟨fun hp => ?_, nofun⟩
        rcases hfollows.2 with hne | hf
        · exact absurd (hnoResume hp) hne
        · exact absurd ((hpaused hp).symm.trans hf) nofun
      | abort => exact hfollows.elim

def requestEvent (seq : Nat) (command : CommandKind) : AbEvent :=
  ⟨seq, 0, .human "user" none,
    .build (if command = .pause then .pauseRequested none else .resumeRequested none)⟩

def acknowledgementEvent (seq : Nat) (command : CommandKind) : AbEvent :=
  kernelEvent seq (.build (if command = .pause then .paused else .resumed))

def Decision.acknowledged? : Decision → Option CommandKind
  | .acknowledge command => some command
  | _ => none

def Decision.awaited? : Decision → Option WaitReason
  | .wait reason => some reason
  | _ => none

theorem Decision.acknowledged?_eq_some {decision : Decision} {command : CommandKind} :
    decision.acknowledged? = some command ↔ decision = .acknowledge command := by
  cases decision <;> simp [Decision.acknowledged?]

theorem Decision.awaited?_eq_some {decision : Decision} {reason : WaitReason} :
    decision.awaited? = some reason ↔ decision = .wait reason := by
  cases decision <;> simp [Decision.awaited?]

instance (decision : Decision) (command : CommandKind) :
    Decidable (decision = .acknowledge command) :=
  decidable_of_iff (decision.acknowledged? = some command) Decision.acknowledged?_eq_some

instance (decision : Decision) (reason : WaitReason) : Decidable (decision = .wait reason) :=
  decidable_of_iff (decision.awaited? = some reason) Decision.awaited?_eq_some

def decidesTo (events : List StoredEvent) (config : Config) (target : Decision)
    [DecidablePred (· = target)] : Bool :=
  ((decideNext events config).toOption.map fun decision => decide (decision = target)).getD false

theorem decideNext_of_decidesTo {events : List StoredEvent} {config : Config} {target : Decision}
    [DecidablePred (· = target)] (h : decidesTo events config target = true) :
    decideNext events config = .ok target := by
  unfold decidesTo at h
  cases hd : decideNext events config with
  | error message =>
    rw [hd] at h
    exact absurd h nofun
  | ok decision =>
    rw [hd] at h
    exact congrArg Except.ok (of_decide_eq_true h)

def reducesTo (events : List StoredEvent) (status : BuildStatus) : Bool :=
  ((reduceBuild events).toOption.map fun state => decide (state.status = status)).getD false

theorem exists_of_reducesTo {events : List StoredEvent} {status : BuildStatus}
    (h : reducesTo events status = true) :
    ∃ state, reduceBuild events = .ok state ∧ state.status = status := by
  unfold reducesTo at h
  cases hs : reduceBuild events with
  | error message =>
    rw [hs] at h
    exact absurd h nofun
  | ok state =>
    rw [hs] at h
    exact ⟨state, rfl, of_decide_eq_true h⟩

/-- A pause and its acknowledgement. -/
def pausedLog : List StoredEvent :=
  [.known (requestEvent 1 .pause), .known (acknowledgementEvent 2 .pause)]

theorem pausedLog_run (horizon : Nat → Nat) (h : horizon 0 = 0) :
    PauseRun horizon pausedLog 2 := by
  have requested : PauseRun horizon [.known (requestEvent 1 .pause)] 0 :=
    PauseRun.nil.request (requestEvent 1 .pause) nofun
  exact PauseRun.acknowledge [.known (requestEvent 1 .pause)] [] requested (by omega)
    unitAndLint .pause (decideNext_of_decidesTo (by decide +kernel)) (acknowledgementEvent 2 .pause)
    rfl

theorem pause_settled_pausedLog :
    ∃ state, reduceBuild pausedLog = .ok state ∧
      (state.status = .paused ↔ lastRequest (projectEvents pausedLog) = some .pause) := by
  obtain ⟨state, hs, hpaused⟩ :=
    exists_of_reducesTo (show reducesTo pausedLog .paused = true by decide +kernel)
  have hd : decideNext pausedLog unitAndLint = .ok (.wait .paused) :=
    decideNext_of_decidesTo (by decide +kernel)
  refine ⟨state, hs, (pause_settled (pausedLog_run id rfl) hs).2 unitAndLint _ ?_ ?_ hd
    (fun _ => nofun) nofun⟩
  · rw [hpaused]
    exact nofun
  · rw [hpaused]
    exact nofun

/-- The second `build.paused` was decided before the first one was appended. -/
def staleLog : List StoredEvent :=
  pausedLog ++ [.known (requestEvent 3 .resume), .known (acknowledgementEvent 4 .resume),
    .known (acknowledgementEvent 5 .pause)]

def unreadableLog : List StoredEvent :=
  [.known (requestEvent 1 .pause), .unknown 2 "build.future" none]

/-- **Paused after a resume**, by an acknowledgement decided on a prefix that lacks the previous
one; **and not paused after a pause**, where an unknown fact holds every decision back. -/
theorem not_pause_settled :
    (∃ since state, PauseRun (fun _ => 0) staleLog since ∧ reduceBuild staleLog = .ok state ∧
      decideNext staleLog unitAndLint = .ok (.wait .paused) ∧ state.status = .paused ∧
      lastRequest (projectEvents staleLog) = some .resume) ∧
    ∃ since state, PauseRun id unreadableLog since ∧ reduceBuild unreadableLog = .ok state ∧
      decideNext unreadableLog unitAndLint = .ok (.wait .mixedVersion) ∧
      state.status = .queued ∧ lastRequest (projectEvents unreadableLog) = some .pause := by
  constructor
  · obtain ⟨state, hs, hpaused⟩ :=
      exists_of_reducesTo (show reducesTo staleLog .paused = true by decide +kernel)
    have requested : PauseRun (fun _ => 0) (pausedLog ++ [.known (requestEvent 3 .resume)]) 2 :=
      (pausedLog_run (fun _ => 0) rfl).request (requestEvent 3 .resume) nofun
    have resumed := PauseRun.acknowledge
      (pausedLog ++ [.known (requestEvent 3 .resume)]) [] requested (Nat.zero_le _) unitAndLint
      .resume (decideNext_of_decidesTo (by decide +kernel)) (acknowledgementEvent 4 .resume) rfl
    have stale := PauseRun.acknowledge [.known (requestEvent 1 .pause)]
      [.known (acknowledgementEvent 2 .pause), .known (requestEvent 3 .resume),
        .known (acknowledgementEvent 4 .resume)] resumed (Nat.zero_le _) unitAndLint .pause
      (decideNext_of_decidesTo (by decide +kernel)) (acknowledgementEvent 5 .pause) rfl
    exact ⟨_, state, stale, hs, decideNext_of_decidesTo (by decide +kernel), hpaused, by
      decide +kernel⟩
  · obtain ⟨state, hs, hqueued⟩ :=
      exists_of_reducesTo (show reducesTo unreadableLog .queued = true by decide +kernel)
    have requested : PauseRun id [.known (requestEvent 1 .pause)] 0 :=
      PauseRun.nil.request (requestEvent 1 .pause) nofun
    have unread : PauseRun id unreadableLog 0 :=
      requested.unrelated (.unknown 2 "build.future" none) (unrelated_unknown _ _ _)
    have hd : decideNext unreadableLog unitAndLint = .ok (.wait .mixedVersion) :=
      decideNext_of_decidesTo (by decide +kernel)
    have hlast : lastRequest (projectEvents unreadableLog) = some .pause := by decide +kernel
    exact ⟨_, state, unread, hs, hd, hqueued, hlast⟩

end Autobuild
