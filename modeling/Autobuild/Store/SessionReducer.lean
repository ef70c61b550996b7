/-
# The turns of a session

A session's state is folded from its log.  Several clients write that log at once: a turn is
started by whoever finds none open, and is ended by its runner, by a cancellation, or by the tick
that finds its runner gone.

* `foldSession_append`: the state does not depend on how the log was cut.
* `KeepsOutcomes`: a turn that has ended stays as it ended.  Any event does (`foldEvent_keeps`).
* `SessionInv`: what the clients of one session know is a front part of its log, and no more than
  one turn is open.  A turn is started from the state of the whole log before it, because the
  comparison misses otherwise (`SessionInv.step`).
-/
import Autobuild.Lib.Json
import Autobuild.Lib.ObjectMap
import Autobuild.Lib.Steps

namespace Autobuild.OperatorSession

/-! ## 1. Events -/

inductive SessionSuspensionCause where
  | budget
  | approval
  deriving DecidableEq

inductive TurnOutcomeState where
  | «open»
  | suspended
  | completed
  | failed
  deriving DecidableEq

inductive TurnFailureKind where
  | providerUnavailable
  | exhausted
  | credentials
  | configuration
  | internal
  deriving DecidableEq

/-- A wake names a build or the journal, and never both. -/
inductive SessionTurnTrigger where
  | message (messageSeq : Nat)
  | wake (build : String) (seq : Nat) (type : String)
  | journalWake (seq : Nat) (type : String)
  deriving DecidableEq

structure TurnUsage where
  inputTokens : Nat
  outputTokens : Nat
  steps : Nat
  turns : Option Nat
  deriving DecidableEq

inductive SessionEventBody where
  | created
  | messagePosted
  | wakeSet (globs : List String)
  | turnStarted (turn stream : String) (trigger : SessionTurnTrigger)
  | turnSuspended (turn : String) (cause : SessionSuspensionCause)
  | turnResumed (turn : String)
  | approvalRequested (turn toolCallId toolName : String) (input : List (String × Json))
  | approvalAnswered (turn toolCallId : String)
  | turnCompleted (turn : String) (usage : TurnUsage)
  | turnFailed (turn : String) (kind : TurnFailureKind) (error : String)
  | archived

structure SessionEvent where
  seq : Nat
  body : SessionEventBody

/-! ## 2. The reducer -/

structure TurnEntry where
  turn : String
  stream : String
  startedSeq : Nat
  trigger : SessionTurnTrigger
  state : TurnOutcomeState
  usage : Option TurnUsage := none
  error : Option String := none
  kind : Option TurnFailureKind := none
  /-- The most recent suspension, which the public state drops. -/
  suspensionCause : Option SessionSuspensionCause := none
  deriving DecidableEq

structure PendingApproval where
  turn : String
  toolCallId : String
  toolName : String
  input : List (String × Json)
  requestedSeq : Nat

structure SessionAcc where
  turns : List TurnEntry := []
  archived : Bool := false
  pendingApproval : Option PendingApproval := none
  wakeGlobs : List String := []
  /-- `none` is `NaN`. -/
  wakeCursors : ObjectMap String (Option Nat) := ∅
  journalWakeCursor : Nat := 0

def TurnOutcomeState.isTerminal : TurnOutcomeState → Bool
  | .completed | .failed => true
  | .open | .suspended => false

/-- `turns.findLast(…)`, changed in place. -/
def updateLastTurn (turn : String) (change : TurnEntry → TurnEntry) :
    List TurnEntry → List TurnEntry
  | [] => []
  | entry :: rest =>
    if rest.any (·.turn = turn) = true then entry :: updateLastTurn turn change rest
    else if entry.turn = turn then change entry :: rest
    else entry :: rest

/-- The maximum of a number and of what is none is `NaN`.  `__proto__` takes no number. -/
def advanceWakeCursor (cursors : ObjectMap String (Option Nat)) (build : String) (seq : Nat) :
    ObjectMap String (Option Nat) :=
  if build = "__proto__" then cursors
  else
    cursors.set build (match cursors.get? build with
      | some cursor => cursor.map (max · seq)
      | none => if build ∈ inheritedNames then none else some (max 0 seq))

def TurnEntry.suspend (cause : SessionSuspensionCause) (entry : TurnEntry) : TurnEntry :=
  if entry.state = .open then { entry with state := .suspended, suspensionCause := some cause }
  else entry

def TurnEntry.resume (entry : TurnEntry) : TurnEntry :=
  if entry.state = .suspended then { entry with state := .open } else entry

def TurnEntry.complete (usage : TurnUsage) (entry : TurnEntry) : TurnEntry :=
  if entry.state.isTerminal = true then entry
  else { entry with state := .completed, usage := some usage }

def TurnEntry.fail (kind : TurnFailureKind) (error : String) (entry : TurnEntry) : TurnEntry :=
  if entry.state.isTerminal = true then entry
  else { entry with state := .failed, error := some error, kind := some kind }

def startTurn (acc : SessionAcc) (seq : Nat) (turn stream : String)
    (trigger : SessionTurnTrigger) : SessionAcc :=
  let started := { acc with
    turns := acc.turns ++ [{ turn, stream, startedSeq := seq, trigger, state := .open }] }
  match trigger with
  | .message _ => started
  | .wake build wakeSeq _ =>
    { started with wakeCursors := advanceWakeCursor acc.wakeCursors build wakeSeq }
  | .journalWake wakeSeq _ =>
    { started with journalWakeCursor := max acc.journalWakeCursor wakeSeq }

/-- The answer only clears the approval: `turn.resumed` is the sole fact that resumes. -/
def answerApproval (turn toolCallId : String) : Option PendingApproval → Option PendingApproval
  | some pending =>
    if pending.turn = turn ∧ pending.toolCallId = toolCallId then none else some pending
  | none => none

def foldSessionEvent (acc : SessionAcc) (event : SessionEvent) : SessionAcc :=
  if acc.archived = true then acc
  else
    match event.body with
    | .created | .messagePosted => acc
    | .wakeSet globs => { acc with wakeGlobs := globs }
    | .turnStarted turn stream trigger => startTurn acc event.seq turn stream trigger
    | .turnSuspended turn cause =>
      { acc with turns := updateLastTurn turn (·.suspend cause) acc.turns }
    | .turnResumed turn => { acc with turns := updateLastTurn turn (·.resume) acc.turns }
    | .approvalRequested turn toolCallId toolName input =>
      { acc with pendingApproval := some { turn, toolCallId, toolName, input,
                                           requestedSeq := event.seq } }
    | .approvalAnswered turn toolCallId =>
      { acc with pendingApproval := answerApproval turn toolCallId acc.pendingApproval }
    | .turnCompleted turn usage =>
      { acc with turns := updateLastTurn turn (·.complete usage) acc.turns }
    | .turnFailed turn kind error =>
      { acc with turns := updateLastTurn turn (·.fail kind error) acc.turns }
    | .archived => { acc with archived := true }

/-- `advance`: the events carry no `build` and no `repo`, so that none is filtered. -/
def foldSession (acc : SessionAcc) (events : List SessionEvent) : SessionAcc :=
  events.foldl foldSessionEvent acc

inductive SessionStatus where
  | idle
  | running
  | suspended
  | awaitingApproval
  | archived
  deriving DecidableEq

structure SessionTurn where
  turn : String
  stream : String
  startedSeq : Nat
  trigger : SessionTurnTrigger
  state : TurnOutcomeState
  usage : Option TurnUsage
  error : Option String
  kind : Option TurnFailureKind
  deriving DecidableEq

structure OpenTurn where
  turn : String
  stream : String
  startedSeq : Nat
  trigger : SessionTurnTrigger

structure SessionState where
  status : SessionStatus
  suspendedCause : Option SessionSuspensionCause
  openTurn : Option OpenTurn
  pendingApproval : Option PendingApproval
  wakeGlobs : List String
  wakeCursors : ObjectMap String (Option Nat)
  journalWakeCursor : Nat
  turns : List SessionTurn

def TurnEntry.toSessionTurn (entry : TurnEntry) : SessionTurn :=
  { turn := entry.turn, stream := entry.stream, startedSeq := entry.startedSeq,
    trigger := entry.trigger, state := entry.state, usage := entry.usage, error := entry.error,
    kind := entry.kind }

def TurnEntry.toOpenTurn (entry : TurnEntry) : OpenTurn :=
  { turn := entry.turn, stream := entry.stream, startedSeq := entry.startedSeq,
    trigger := entry.trigger }

/-- The last turn that has not ended. -/
def openEntry (turns : List TurnEntry) : Option TurnEntry :=
  turns.reverse.find? fun entry => !entry.state.isTerminal

/-- An unanswered approval outranks the suspension of its turn. -/
def sessionStatus (acc : SessionAcc) : SessionStatus :=
  if acc.archived = true then .archived
  else if acc.pendingApproval.isSome = true then .awaitingApproval
  else
    match openEntry acc.turns with
    | none => .idle
    | some entry => if entry.state = .suspended then .suspended else .running

def finishSession (acc : SessionAcc) : SessionState :=
  { status := sessionStatus acc
    suspendedCause :=
      if sessionStatus acc = .suspended then (openEntry acc.turns).bind (·.suspensionCause)
      else none
    openTurn := (openEntry acc.turns).map (·.toOpenTurn)
    pendingApproval := acc.pendingApproval
    wakeGlobs := acc.wakeGlobs
    wakeCursors := acc.wakeCursors
    journalWakeCursor := acc.journalWakeCursor
    turns := acc.turns.map (·.toSessionTurn) }

def reduceSession (events : List SessionEvent) : SessionState :=
  finishSession (foldSession {} events)

/-- The pieces of a log one after another, each from the accumulator of those before. -/
def foldSessionPieces (pieces : List (List SessionEvent)) : SessionAcc :=
  pieces.foldl foldSession {}

/-! ## 3. One log, however it is cut -/

theorem foldSession_append (acc : SessionAcc) (xs ys : List SessionEvent) :
    foldSession acc (xs ++ ys) = foldSession (foldSession acc xs) ys :=
  List.foldl_append

theorem foldSessionPieces_eq (pieces : List (List SessionEvent)) :
    foldSessionPieces pieces = foldSession {} pieces.flatten :=
  List.foldl_flatten.symm

theorem foldSession_of_archived {acc : SessionAcc} (h : acc.archived = true)
    (events : List SessionEvent) : foldSession acc events = acc := by
  induction events with
  | nil => rfl
  | cons event rest ih =>
    have hstep : foldSessionEvent acc event = acc := if_pos h
    rw [foldSession, List.foldl_cons, hstep]
    exact ih

@[simp]
theorem finishSession_status_eq_archived (acc : SessionAcc) :
    (finishSession acc).status = .archived ↔ acc.archived = true := by
  simp only [finishSession, sessionStatus]
  constructor
  · intro h
    by_contra hopen
    rw [if_neg hopen] at h
    split at h
    · exact nomatch h
    · split at h
      · exact nomatch h
      · split at h <;> exact nomatch h
  · intro h
    rw [if_pos h]

/-! ## 4. Turns that have ended -/

/-- The turns that have ended are where they were, as they were. -/
def KeepsOutcomes (before after : List TurnEntry) : Prop :=
  ∀ (i : Nat) (entry : TurnEntry), before[i]? = some entry → entry.state.isTerminal = true →
    after[i]? = some entry

/-- The number of turns that have not ended. -/
def unfinished (turns : List TurnEntry) : Nat :=
  turns.countP fun entry => !entry.state.isTerminal

/-- A change of one turn that leaves it if it has ended, and its name in any case. -/
structure Settles (change : TurnEntry → TurnEntry) : Prop where
  ended : ∀ entry, entry.state.isTerminal = true → change entry = entry
  turn : ∀ entry, (change entry).turn = entry.turn

theorem Settles.suspend (cause : SessionSuspensionCause) : Settles (·.suspend cause) := by
  constructor
  · intro entry h
    refine if_neg fun hopen => ?_
    rw [hopen] at h
    exact Bool.false_ne_true h
  · intro entry
    dsimp only [TurnEntry.suspend]
    split <;> rfl

theorem Settles.resume : Settles (·.resume) := by
  constructor
  · intro entry h
    refine if_neg fun hsuspended => ?_
    rw [hsuspended] at h
    exact Bool.false_ne_true h
  · intro entry
    dsimp only [TurnEntry.resume]
    split <;> rfl

theorem Settles.complete (usage : TurnUsage) : Settles (·.complete usage) := by
  constructor
  · intro entry h
    exact if_pos h
  · intro entry
    dsimp only [TurnEntry.complete]
    split <;> rfl

theorem Settles.fail (kind : TurnFailureKind) (error : String) :
    Settles (·.fail kind error) := by
  constructor
  · intro entry h
    exact if_pos h
  · intro entry
    dsimp only [TurnEntry.fail]
    split <;> rfl

theorem KeepsOutcomes.refl (turns : List TurnEntry) : KeepsOutcomes turns turns :=
  fun _ _ h _ => h

theorem KeepsOutcomes.trans {xs ys zs : List TurnEntry} (hxy : KeepsOutcomes xs ys)
    (hyz : KeepsOutcomes ys zs) : KeepsOutcomes xs zs :=
  fun i entry h hended => hyz i entry (hxy i entry h hended) hended

theorem KeepsOutcomes.append (turns new : List TurnEntry) :
    KeepsOutcomes turns (turns ++ new) := by
  intro i entry h _
  obtain ⟨hlt, -⟩ := List.getElem?_eq_some_iff.mp h
  rw [List.getElem?_append_left hlt]
  exact h

theorem KeepsOutcomes.cons {xs ys : List TurnEntry} {x y : TurnEntry}
    (hhead : x.state.isTerminal = true → y = x) (h : KeepsOutcomes xs ys) :
    KeepsOutcomes (x :: xs) (y :: ys) := by
  rintro (_ | i) entry hentry hended
  · obtain rfl : x = entry := by simpa using hentry
    rw [List.getElem?_cons_zero, hhead hended]
  · rw [List.getElem?_cons_succ] at hentry ⊢
    exact h i entry hentry hended

section Update

variable {change : TurnEntry → TurnEntry} (hchange : Settles change) (turn : String)
include hchange

theorem updateLastTurn_keeps :
    ∀ turns, KeepsOutcomes turns (updateLastTurn turn change turns)
  | [] => .refl []
  | entry :: rest => by
    rw [updateLastTurn]
    split
    · exact .cons (fun _ => rfl) (updateLastTurn_keeps rest)
    · split
      · exact .cons (hchange.ended entry) (.refl rest)
      · exact .refl _

theorem updateLastTurn_turns :
    ∀ turns, (updateLastTurn turn change turns).map (·.turn) = turns.map (·.turn)
  | [] => rfl
  | entry :: rest => by
    rw [updateLastTurn]
    split
    · rw [List.map_cons, updateLastTurn_turns rest, List.map_cons]
    · split
      · rw [List.map_cons, hchange.turn, List.map_cons]
      · rfl

theorem updateLastTurn_unfinished :
    ∀ turns, unfinished (updateLastTurn turn change turns) ≤ unfinished turns
  | [] => le_refl _
  | entry :: rest => by
    have ih := updateLastTurn_unfinished rest
    simp only [unfinished, updateLastTurn] at ih ⊢
    split
    · simp only [List.countP_cons]
      omega
    · split
      · simp only [List.countP_cons]
        cases hended : entry.state.isTerminal
        · simp only [Bool.not_false, if_true]
          split <;> omega
        · rw [hchange.ended entry hended, hended]
      · exact le_refl _

end Update

/-- The turns after an event: as before but for one that may end, or with one more at the
end. -/
inductive TurnsAfter (turns : List TurnEntry) (body : SessionEventBody) :
    List TurnEntry → Prop
  | same : TurnsAfter turns body turns
  | updated (turn : String) {change : TurnEntry → TurnEntry} (h : Settles change) :
    TurnsAfter turns body (updateLastTurn turn change turns)
  | started {entry : TurnEntry} {stream : String} {trigger : SessionTurnTrigger}
    (h : body = .turnStarted entry.turn stream trigger) : TurnsAfter turns body (turns ++ [entry])

theorem startTurn_turns (acc : SessionAcc) (seq : Nat) (turn stream : String)
    (trigger : SessionTurnTrigger) :
    (startTurn acc seq turn stream trigger).turns =
      acc.turns ++ [{ turn, stream, startedSeq := seq, trigger, state := .open }] := by
  cases trigger <;> rfl

theorem foldSessionEvent_turns (acc : SessionAcc) (event : SessionEvent) :
    TurnsAfter acc.turns event.body (foldSessionEvent acc event).turns := by
  rw [foldSessionEvent]
  split
  · exact .same
  · obtain ⟨seq, body⟩ := event
    cases body with
    | turnStarted turn stream trigger =>
      dsimp only
      rw [startTurn_turns]
      exact .started rfl
    | turnSuspended turn cause => exact .updated turn (.suspend cause)
    | turnResumed turn => exact .updated turn .resume
    | turnCompleted turn usage => exact .updated turn (.complete usage)
    | turnFailed turn kind error => exact .updated turn (.fail kind error)
    | _ => exact .same

theorem TurnsAfter.keeps {turns after : List TurnEntry} {body : SessionEventBody}
    (h : TurnsAfter turns body after) : KeepsOutcomes turns after := by
  cases h with
  | same => exact .refl _
  | updated turn hchange => exact updateLastTurn_keeps hchange turn _
  | started => exact .append _ _

theorem foldSession_keeps (acc : SessionAcc) (events : List SessionEvent) :
    KeepsOutcomes acc.turns (foldSession acc events).turns := by
  induction events generalizing acc with
  | nil => exact .refl _
  | cons event rest ih =>
    rw [foldSession, List.foldl_cons]
    exact (foldSessionEvent_turns acc event).keeps.trans (ih _)

/-- The turn that an event starts. -/
def SessionEventBody.startedTurn? : SessionEventBody → Option String
  | .turnStarted turn _ _ => some turn
  | _ => none

/-- The turns that a log starts, in their order. -/
def startedTurns (events : List SessionEvent) : List String :=
  events.filterMap (·.body.startedTurn?)

theorem TurnsAfter.sublist {turns after : List TurnEntry} {body : SessionEventBody}
    (h : TurnsAfter turns body after) :
    (after.map (·.turn)).Sublist (turns.map (·.turn) ++ body.startedTurn?.toList) := by
  cases h with
  | same => exact List.sublist_append_left _ _
  | updated turn hchange =>
    rw [updateLastTurn_turns hchange]
    exact List.sublist_append_left _ _
  | started hbody =>
    rw [hbody, List.map_append]
    exact List.Sublist.refl _

/-- Each turn of the state was started by the log. -/
theorem foldSession_turns_sublist (acc : SessionAcc) (events : List SessionEvent) :
    ((foldSession acc events).turns.map (·.turn)).Sublist
      (acc.turns.map (·.turn) ++ startedTurns events) := by
  induction events generalizing acc with
  | nil => exact List.sublist_append_left _ _
  | cons event rest ih =>
    refine (ih _).trans ?_
    have hhead := (foldSessionEvent_turns acc event).sublist
    have hsplit : startedTurns (event :: rest) =
        event.body.startedTurn?.toList ++ startedTurns rest := by
      simp only [startedTurns, List.filterMap_cons]
      split <;> simp_all
    rw [hsplit, ← List.append_assoc]
    exact hhead.append_right _

/-! ## 5. The clients of one session -/

/-- What a client has read of the log, and up to where. -/
structure SessionReader where
  acc : SessionAcc := {}
  seq : Nat := 0

structure SessionClients where
  log : List SessionEvent := []
  readers : Nat → SessionReader := fun _ => {}

inductive ClientAction where
  | read (client : Nat)
  /-- Any event but the start of a turn. -/
  | append (body : SessionEventBody)
  | start (client : Nat) (turn stream : String) (trigger : SessionTurnTrigger)

/-- The store assigns the seq, from 1. -/
def appendSessionEvent (log : List SessionEvent) (body : SessionEventBody) : List SessionEvent :=
  log ++ [⟨log.length + 1, body⟩]

/-- `none` when the session has advanced. -/
def appendSessionEventIfCurrent (log : List SessionEvent) (expectedSeq : Nat)
    (body : SessionEventBody) : Option (List SessionEvent) :=
  if log.length = expectedSeq then some (appendSessionEvent log body) else none

def SessionReader.read (reader : SessionReader) (log : List SessionEvent) : SessionReader :=
  ⟨foldSession reader.acc (log.drop reader.seq), log.length⟩

/-- A turn is started only from a state that shows none open. -/
def SessionClients.step (s : SessionClients) : ClientAction → Option SessionClients
  | .read client =>
    some { s with readers := Function.update s.readers client ((s.readers client).read s.log) }
  | .append body =>
    if body.startedTurn? = none then some { s with log := appendSessionEvent s.log body } else none
  | .start client turn stream trigger =>
    if (finishSession (s.readers client).acc).openTurn.isNone = true then
      match appendSessionEventIfCurrent s.log (s.readers client).seq
          (.turnStarted turn stream trigger) with
      | some log => some { s with log }
      | none => some s
    else none

def ClientStep : SessionClients → SessionClients → Prop := Steps.Step SessionClients.step

def ClientRun : SessionClients → SessionClients → Prop := Steps.Run SessionClients.step

/-- What a step does to the log. -/
inductive LogAfter (s : SessionClients) : List SessionEvent → Prop
  | same : LogAfter s s.log
  | appended {body : SessionEventBody} (h : body.startedTurn? = none) :
    LogAfter s (appendSessionEvent s.log body)
  | started (client : Nat) {body : SessionEventBody}
    (hopen : (finishSession (s.readers client).acc).openTurn = none)
    (hseq : s.log.length = (s.readers client).seq) : LogAfter s (appendSessionEvent s.log body)

theorem SessionClients.step_log {s s' : SessionClients} {action : ClientAction}
    (h : s.step action = some s') : LogAfter s s'.log := by
  cases action with
  | read client =>
    obtain rfl := Option.some.inj h
    exact .same
  | append body =>
    obtain ⟨hbody, ⟨⟩⟩ := Option.ite_none_right_eq_some.mp h
    exact .appended hbody
  | start client turn stream trigger =>
    obtain ⟨hopen, h⟩ := Option.ite_none_right_eq_some.mp h
    rw [appendSessionEventIfCurrent] at h
    by_cases hseq : s.log.length = (s.readers client).seq
    · rw [if_pos hseq] at h
      obtain rfl := Option.some.inj h
      exact .started client (Option.isNone_iff_eq_none.mp hopen) hseq
    · rw [if_neg hseq] at h
      obtain rfl := Option.some.inj h
      exact .same

theorem LogAfter.grows {s : SessionClients} {log : List SessionEvent} (h : LogAfter s log) :
    s.log <+: log := by
  cases h with
  | same => exact List.prefix_refl _
  | appended => exact List.prefix_append _ _
  | started => exact List.prefix_append _ _

theorem ClientRun.grows {s s' : SessionClients} (h : ClientRun s s') : s.log <+: s'.log := by
  induction h with
  | refl => exact List.prefix_refl _
  | tail _ hstep ih =>
    obtain ⟨action, hstep⟩ := hstep
    exact ih.trans (SessionClients.step_log hstep).grows

/-- What a reader has is a front part of the log. -/
def SessionReader.Reads (reader : SessionReader) (log : List SessionEvent) : Prop :=
  reader.seq ≤ log.length ∧ reader.acc = foldSession {} (log.take reader.seq)

structure SessionInv (s : SessionClients) : Prop where
  readers : ∀ client, (s.readers client).Reads s.log
  unfinished : unfinished (foldSession {} s.log).turns ≤ 1

theorem SessionReader.Reads.mono {reader : SessionReader} {log log' : List SessionEvent}
    (h : reader.Reads log) (hlog : log <+: log') : reader.Reads log' := by
  obtain ⟨rest, rfl⟩ := hlog
  refine ⟨h.1.trans (by simp), ?_⟩
  rw [List.take_append_of_le_length h.1]
  exact h.2

theorem SessionReader.Reads.read {reader : SessionReader} {log : List SessionEvent}
    (h : reader.Reads log) : (reader.read log).Reads log := by
  refine ⟨le_refl _, ?_⟩
  show foldSession reader.acc _ = foldSession {} (log.take log.length)
  rw [h.2, ← foldSession_append, List.take_append_drop, List.take_length]

/-- No turn is shown open only when all have ended. -/
theorem unfinished_of_openTurn {acc : SessionAcc} (h : (finishSession acc).openTurn = none) :
    unfinished acc.turns = 0 := by
  rw [finishSession, Option.map_eq_none_iff, openEntry, List.find?_eq_none] at h
  rw [unfinished, List.countP_eq_zero]
  intro entry hentry
  exact h entry (List.mem_reverse.mpr hentry)

theorem TurnsAfter.unfinished_le {turns after : List TurnEntry} {body : SessionEventBody}
    (h : TurnsAfter turns body after) :
    unfinished after ≤ unfinished turns + body.startedTurn?.toList.length := by
  cases h with
  | same => exact Nat.le_add_right _ _
  | updated turn hchange =>
    exact (updateLastTurn_unfinished hchange turn turns).trans (Nat.le_add_right _ _)
  | started hbody =>
    rw [hbody, unfinished, unfinished, List.countP_append]
    exact Nat.add_le_add_left List.countP_le_length _

theorem foldSession_appendSessionEvent (log : List SessionEvent) (body : SessionEventBody) :
    unfinished (foldSession {} (appendSessionEvent log body)).turns ≤
      unfinished (foldSession {} log).turns + body.startedTurn?.toList.length := by
  rw [appendSessionEvent, foldSession_append]
  exact (foldSessionEvent_turns _ ⟨log.length + 1, body⟩).unfinished_le

theorem length_startedTurn_le (body : SessionEventBody) : body.startedTurn?.toList.length ≤ 1 := by
  cases body.startedTurn? <;> simp

theorem SessionInv.initial : SessionInv {} := by
  constructor
  · intro client
    exact ⟨le_refl _, rfl⟩
  · exact Nat.zero_le _

theorem SessionInv.unfinished_log {s : SessionClients} (h : SessionInv s)
    {log : List SessionEvent} (hlog : LogAfter s log) :
    OperatorSession.unfinished (foldSession {} log).turns ≤ 1 := by
  cases hlog with
  | same => exact h.unfinished
  | @appended body hbody =>
    have hle := foldSession_appendSessionEvent s.log body
    rw [hbody] at hle
    exact hle.trans h.unfinished
  | started client hopen hseq =>
    -- The client has read the whole log.
    have hacc := (h.readers client).2
    rw [← hseq, List.take_length] at hacc
    have hzero := unfinished_of_openTurn hopen
    rw [hacc] at hzero
    refine (foldSession_appendSessionEvent s.log _).trans ?_
    rw [hzero, Nat.zero_add]
    exact length_startedTurn_le _

theorem SessionInv.step {s s' : SessionClients} (h : SessionInv s) (hstep : ClientStep s s') :
    SessionInv s' := by
  obtain ⟨action, hstep⟩ := hstep
  have hlog := SessionClients.step_log hstep
  refine ⟨fun client => ?_, h.unfinished_log hlog⟩
  have hreads := (h.readers client).mono hlog.grows
  cases action with
  | read reading =>
    obtain rfl := Option.some.inj hstep
    by_cases hclient : client = reading
    · subst hclient
      simpa using hreads.read
    · simpa [hclient] using hreads
  | append body =>
    obtain ⟨-, ⟨⟩⟩ := Option.ite_none_right_eq_some.mp hstep
    exact hreads
  | start reading turn stream trigger =>
    obtain ⟨-, hstep⟩ := Option.ite_none_right_eq_some.mp hstep
    split at hstep <;> obtain rfl := Option.some.inj hstep <;> exact hreads

theorem SessionInv.run {s s' : SessionClients} (h : SessionInv s) (hrun : ClientRun s s') :
    SessionInv s' := by
  induction hrun with
  | refl => exact h
  | tail _ hstep ih => exact ih.step hstep

/-! ## 6. What every client sees -/

/-- The turns of a state that have not ended. -/
def unfinishedTurns (state : SessionState) : List SessionTurn :=
  state.turns.filter fun turn => !turn.state.isTerminal

theorem length_unfinishedTurns (acc : SessionAcc) :
    (unfinishedTurns (finishSession acc)).length = unfinished acc.turns := by
  simp only [unfinishedTurns, finishSession, unfinished, ← List.countP_eq_length_filter,
    List.countP_map]
  rfl

/-- An element is the only one of its name where names are distinct. -/
theorem filter_turn_eq {turns : List SessionTurn} (h : (turns.map (·.turn)).Nodup)
    {turn : SessionTurn} (hturn : turn ∈ turns) : turns.filter (·.turn = turn.turn) = [turn] := by
  obtain ⟨before, after, rfl⟩ := List.append_of_mem hturn
  simp only [List.map_append, List.map_cons] at h
  have hapart := List.nodup_append.mp h
  have hafter := (List.nodup_cons.mp hapart.2.1).1
  rw [List.filter_append, List.filter_cons_of_pos (by simp)]
  have hleft : before.filter (·.turn = turn.turn) = [] := by
    rw [List.filter_eq_nil_iff]
    intro other hother heq
    exact hapart.2.2 _ (List.mem_map_of_mem hother) _ List.mem_cons_self (of_decide_eq_true heq)
  have hright : after.filter (·.turn = turn.turn) = [] := by
    rw [List.filter_eq_nil_iff]
    intro other hother heq
    exact hafter (of_decide_eq_true heq ▸ List.mem_map_of_mem hother)
  rw [hleft, hright]
  rfl

theorem mem_turns_of_keeps {before after : SessionAcc}
    (h : KeepsOutcomes before.turns after.turns) {turn : SessionTurn}
    (hturn : turn ∈ (finishSession before).turns) (hended : turn.state.isTerminal = true) :
    turn ∈ (finishSession after).turns := by
  obtain ⟨entry, hentry, rfl⟩ := List.mem_map.mp hturn
  obtain ⟨i, hi⟩ := List.mem_iff_getElem?.mp hentry
  exact List.mem_map_of_mem (List.mem_of_getElem? (h i entry hi hended))

theorem nodup_turns {events : List SessionEvent} (h : (startedTurns events).Nodup) :
    ((reduceSession events).turns.map (·.turn)).Nodup := by
  have hsub := foldSession_turns_sublist {} events
  have hturns : (reduceSession events).turns.map (·.turn) =
      (foldSession {} events).turns.map (·.turn) := by
    simp only [reduceSession, finishSession, List.map_map]
    rfl
  rw [hturns]
  exact h.sublist hsub

/-- An archived session is frozen.  Where turns have distinct names and are started only by
clients that saw none open, no two are open at a time, and one that has ended is the only one of
its name from then on, as it ended. -/
theorem session_turns_settle_once :
    (∀ pieces more : List (List SessionEvent),
      (finishSession (foldSessionPieces pieces)).status = .archived →
      finishSession (foldSessionPieces (pieces ++ more)) =
        finishSession (foldSessionPieces pieces)) ∧
    ∀ s s' : SessionClients, ClientRun {} s → ClientRun s s' → (startedTurns s'.log).Nodup →
      ∀ pieces pieces' : List (List SessionEvent),
        pieces.flatten = s.log → pieces'.flatten = s'.log →
        (unfinishedTurns (finishSession (foldSessionPieces pieces))).length ≤ 1 ∧
        ∀ turn ∈ (finishSession (foldSessionPieces pieces)).turns,
          turn.state.isTerminal = true →
          (finishSession (foldSessionPieces pieces')).turns.filter (·.turn = turn.turn) =
            [turn] := by
  constructor
  · intro pieces more harchived
    rw [finishSession_status_eq_archived] at harchived
    rw [foldSessionPieces_eq (pieces ++ more), List.flatten_append, foldSession_append,
      ← foldSessionPieces_eq, foldSession_of_archived harchived]
  · intro s s' hreach hrun hdistinct pieces pieces' hpieces hpieces'
    rw [foldSessionPieces_eq, foldSessionPieces_eq, hpieces, hpieces']
    constructor
    · rw [length_unfinishedTurns]
      exact (SessionInv.initial.run hreach).unfinished
    · intro turn hturn hended
      obtain ⟨rest, hrest⟩ := hrun.grows
      have hkeeps := foldSession_keeps (foldSession {} s.log) rest
      rw [← foldSession_append, hrest] at hkeeps
      exact filter_turn_eq (nodup_turns hdistinct) (mem_turns_of_keeps hkeeps hturn hended)

/-- Two clients read an idle session and the first starts a turn, which fails. -/
def exampleActions : List ClientAction :=
  [.append .created, .append .messagePosted, .read 0, .read 1,
    .start 0 "t1" "st1" (.message 2), .start 1 "t2" "st2" (.message 2),
    .append (.turnFailed "t1" .internal "gone")]

/-- The turn is reported completed late, another is started, and the session is archived. -/
def exampleLater : List ClientAction :=
  [.append (.turnCompleted "t1" ⟨1, 2, 3, none⟩), .read 1,
    .start 1 "t2" "st2" (.wake "b1" 4 "x"), .append .archived]

/-- The turn as it failed. -/
def exampleTurn : SessionTurn :=
  { turn := "t1", stream := "st1", startedSeq := 3, trigger := .message 2, state := .failed
    usage := none, error := some "gone", kind := some .internal }

theorem session_turns_settle_once_of_late_completion :
    ∃ s s' : SessionClients, ClientRun {} s ∧ ClientRun s s' ∧
      (reduceSession s'.log).status = .archived ∧
      (reduceSession s'.log).turns.filter (·.turn = "t1") = [exampleTurn] ∧
      ∀ more, finishSession (foldSessionPieces ([s'.log] ++ more)) = reduceSession s'.log := by
  obtain ⟨s, hs⟩ : ∃ s, Steps.perform SessionClients.step exampleActions {} = some s := ⟨_, rfl⟩
  obtain ⟨s', hs'⟩ : ∃ s', Steps.perform SessionClients.step exampleLater s = some s' := by
    obtain rfl := Option.some.inj hs
    exact ⟨_, rfl⟩
  have hrun := Steps.run_of_perform hs
  have hlater := Steps.run_of_perform hs'
  obtain rfl := Option.some.inj hs
  obtain rfl := Option.some.inj hs'
  refine ⟨_, _, hrun, hlater, rfl, ?_, fun more => ?_⟩
  · exact (session_turns_settle_once.2 _ _ hrun hlater (by decide) [_] [_]
      (List.append_nil _) (List.append_nil _)).2 exampleTurn (List.mem_singleton.mpr rfl) rfl
  · exact session_turns_settle_once.1 [_] more rfl

end Autobuild.OperatorSession
