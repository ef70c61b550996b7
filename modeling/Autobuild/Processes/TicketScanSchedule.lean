/-
# When the tickets are scanned

A scan is due an interval after the one before.  What a scan measured is recorded in the journal,
unless it measured what is recorded already; that it took place is acknowledged in a cadence row,
which names the recorded measurement.  Most checks look at the journal only.

* `ticketScanDeferredByJournal`, `ticketScanSchedule`: the check on the journal and the full one.
* `ScanSystem.step`: any number of scanners, each with its own view of the journal; completions
  overlap, and a crash can come between the two writes of one.
* `ScanOk`: the invariant.  A stored row is not older than the measurement it acknowledges.

The last is not so for a scan that changes nothing and began before the measurement it acknowledges:
another scanner recorded that in the meantime (`unanchored_row`).  The answers agree in every run
without such a write (`deferred_not_due`).
-/
import Mathlib.Data.List.Basic
import Mathlib.Data.List.Induction
import Mathlib.Logic.Function.Basic
import Mathlib.Order.Lattice

namespace Autobuild.TicketScan

/-! ## 1. The schedule -/

inductive ScanMode where
  | admission
  | observation
  deriving DecidableEq

/-- `τ` are the texts of dates. -/
structure ScanMeasurement (τ : Type) where
  startedAt : τ
  mode : ScanMode
  readinessFingerprint : String
  criteriaFingerprint : String
  deriving DecidableEq

structure ScanCadence (τ : Type) where
  scanSeq : Nat
  startedAt : τ
  mode : ScanMode
  readinessFingerprint : String
  criteriaFingerprint : String
  deriving DecidableEq

structure ScanScheduleInput (τ : Type) where
  previous : Option (ScanMeasurement τ)
  previousSeq : Option Nat
  mode : ScanMode
  readinessFingerprint : String
  criteriaFingerprint : String
  startedAt : τ
  intervalMs : Int
  deriving DecidableEq

/-- A difference of two times, or of a time and none before it. -/
inductive Elapsed where
  | infinite
  | nan
  | ms (value : Int)
  deriving DecidableEq

structure ScanDecision where
  due : Bool
  allowClockRollback : Bool
  deriving DecidableEq

section Schedule

variable {τ : Type} (parse : τ → Option Int)

/-- `Date.parse(startedAt) - Date.parse(before)`. -/
def elapsedSince (startedAt before : τ) : Elapsed :=
  match parse startedAt, parse before with
  | some now, some earlier => .ms (now - earlier)
  | _, _ => .nan

def Elapsed.negative : Elapsed → Bool
  | .ms value => value < 0
  | _ => false

def Elapsed.reaches (intervalMs : Int) : Elapsed → Bool
  | .infinite => true
  | .nan => false
  | .ms value => intervalMs ≤ value

def Elapsed.within (intervalMs : Int) : Elapsed → Bool
  | .ms value => decide (0 ≤ value) && decide (value < intervalMs)
  | _ => false

def ticketScanDeferredByJournal (input : ScanScheduleInput τ) : Bool :=
  match input.previous with
  | none => false
  | some previous =>
    if previous.readinessFingerprint ≠ input.readinessFingerprint then false
    else if previous.criteriaFingerprint ≠ input.criteriaFingerprint then false
    else if input.mode = .admission ∧ previous.mode = .observation then false
    else (elapsedSince parse input.startedAt previous.startedAt).within input.intervalMs

/-- The row acknowledges the recorded measurement. -/
def validRow (input : ScanScheduleInput τ) (previous : ScanMeasurement τ) (cached : ScanCadence τ) :
    Bool :=
  decide (some cached.scanSeq = input.previousSeq) && decide (cached.mode = previous.mode) &&
    decide (cached.readinessFingerprint = previous.readinessFingerprint) &&
    decide (cached.criteriaFingerprint = previous.criteriaFingerprint) &&
    (parse cached.startedAt).isSome

def ticketScanSchedule (input : ScanScheduleInput τ) (cached : Option (ScanCadence τ)) :
    ScanDecision :=
  match input.previous with
  | none => ⟨true, Elapsed.infinite.negative⟩
  | some previous =>
    let baseline := match cached with
      | some cached =>
        if validRow parse input previous cached then cached.startedAt else previous.startedAt
      | none => previous.startedAt
    let elapsed := elapsedSince parse input.startedAt baseline
    { allowClockRollback := elapsed.negative
      due := elapsed.negative || elapsed.reaches input.intervalMs ||
        decide (previous.readinessFingerprint ≠ input.readinessFingerprint) ||
        decide (previous.criteriaFingerprint ≠ input.criteriaFingerprint) ||
        decide (input.mode = .admission ∧ previous.mode = .observation) }

end Schedule

/-! ## 2. Scanners over one store -/

/-- What a scan found. -/
structure TickReport (δ : Type) where
  queued : Nat
  invalidTickets : Nat
  ticketDiagnostics : List δ
  dependencyBlocked : Nat
  dependencyDiagnostics : List δ
  creationWithheld : Nat
  creationDiagnostics : List δ
  deriving DecidableEq

/-- The payload of `dispatcher.ticket-scan-completed`. -/
structure ScanPayload (τ δ : Type) where
  measurement : ScanMeasurement τ
  report : TickReport δ
  deriving DecidableEq

structure Checkpoint (τ : Type) where
  measurement : ScanMeasurement τ
  allowClockRollback : Bool
  deriving DecidableEq

/-- What a scanner waits for. -/
inductive ScanPhase (τ δ : Type) where
  | idle
  /-- The cadence row. -/
  | checking (input : ScanScheduleInput τ)
  /-- The tickets. -/
  | scanning (checkpoint : Checkpoint τ)
  /-- The repository's record, before what was measured is recorded. -/
  | completing (checkpoint : Checkpoint τ) (payload : ScanPayload τ δ) (unchanged : Bool)
  /-- The cadence row to be written; `appended` if the scan recorded the measurement it names. -/
  | recording (cadence : ScanCadence τ) (allowClockRollback appended : Bool)

/-- A scanner and how much of the journal it knows. -/
structure Scanner (τ δ : Type) where
  view : Nat
  phase : ScanPhase τ δ

/-- The journal has other events as well. -/
structure ScanSystem (σ τ δ : Type) where
  clock : Int
  journal : List (Option (ScanPayload τ δ))
  row : Option (ScanCadence τ)
  scanners : σ → Scanner τ δ

inductive ScanAct (σ δ : Type) where
  | tick (clock : Int)
  | append
  | refresh (scanner : σ) (view : Nat)
  | check (scanner : σ) (mode : ScanMode) (readinessFingerprint criteriaFingerprint : String)
      (intervalMs : Int)
  | readRow (scanner : σ)
  | complete (scanner : σ) (report : TickReport δ)
  | record (scanner : σ)
  | write (scanner : σ)
  | crash (scanner : σ)
  deriving DecidableEq

/-- The measurement recorded at a seq. -/
def scanAt {τ δ : Type} (journal : List (Option (ScanPayload τ δ))) (seq : Nat) :
    Option (ScanPayload τ δ) :=
  if seq = 0 then none else journal[seq - 1]?.join

/-- `repositoryFacts().scan` with `scanSeq`. -/
def latestScan {τ δ : Type} (journal : List (Option (ScanPayload τ δ))) :
    Option (Nat × ScanPayload τ δ) :=
  journal.zipIdx.foldl (fun latest event =>
    match event.1 with
    | some payload => some (event.2 + 1, payload)
    | none => latest) none

section Steps

variable {σ τ δ : Type} [DecidableEq σ] [DecidableEq δ] (parse : τ → Option Int)
  (toISOString : Int → τ)

/-- When `putScanCadence` stores a row. -/
def storesCadence (previous : Option (ScanCadence τ)) (cadence : ScanCadence τ)
    (allowClockRollback : Bool) : Bool :=
  match previous with
  | none => true
  | some previous =>
    decide (previous.scanSeq ≠ cadence.scanSeq) || allowClockRollback ||
      match parse cadence.startedAt, parse previous.startedAt with
      | some new, some old => decide (old ≤ new)
      | _, _ => false

def putScanCadence (previous : Option (ScanCadence τ)) (cadence : ScanCadence τ)
    (allowClockRollback : Bool) : Option (ScanCadence τ) :=
  if storesCadence parse previous cadence allowClockRollback then some cadence else previous

/-- What a completed scan records. -/
def scanPayload (checkpoint : Checkpoint τ) (report : TickReport δ) : ScanPayload τ δ :=
  ⟨checkpoint.measurement,
    { report with
      ticketDiagnostics := report.ticketDiagnostics.take 1000
      dependencyDiagnostics := report.dependencyDiagnostics.take 1000
      creationDiagnostics := report.creationDiagnostics.take 1000 }⟩

/-- Every key but `startedAt` has the value that is recorded. -/
def unchangedScan (previous : Option (Nat × ScanPayload τ δ)) (payload : ScanPayload τ δ) : Bool :=
  match previous with
  | none => false
  | some (_, previous) =>
    decide (previous.measurement.mode = payload.measurement.mode) &&
      decide (previous.measurement.readinessFingerprint =
        payload.measurement.readinessFingerprint) &&
      decide (previous.measurement.criteriaFingerprint = payload.measurement.criteriaFingerprint) &&
      decide (previous.report = payload.report)

/-- The row of a checkpoint for a recorded measurement. -/
def cadenceOf (checkpoint : Checkpoint τ) (scanSeq : Nat) : ScanCadence τ :=
  ⟨scanSeq, checkpoint.measurement.startedAt, checkpoint.measurement.mode,
    checkpoint.measurement.readinessFingerprint, checkpoint.measurement.criteriaFingerprint⟩

namespace ScanSystem

variable (system : ScanSystem σ τ δ)

/-- What a scanner knows of the journal. -/
def known (scanner : σ) : List (Option (ScanPayload τ δ)) :=
  system.journal.take (system.scanners scanner).view

def enter (scanner : σ) (phase : ScanPhase τ δ) : ScanSystem σ τ δ :=
  { system with
    scanners := Function.update system.scanners scanner
      { system.scanners scanner with phase := phase } }

/-- The input of the check of a scanner. -/
def input (scanner : σ) (mode : ScanMode) (readinessFingerprint criteriaFingerprint : String)
    (intervalMs : Int) : ScanScheduleInput τ where
  previous := (latestScan (system.known scanner)).map (·.2.measurement)
  previousSeq := (latestScan (system.known scanner)).map (·.1)
  mode := mode
  readinessFingerprint := readinessFingerprint
  criteriaFingerprint := criteriaFingerprint
  startedAt := toISOString system.clock
  intervalMs := intervalMs

/-- One step, from one await to the next. -/
def step : ScanAct σ δ → Option (ScanSystem σ τ δ)
  | .tick clock => if system.clock ≤ clock then some { system with clock := clock } else none
  | .append => some { system with journal := system.journal ++ [none] }
  | .refresh scanner view =>
    if (system.scanners scanner).view ≤ view ∧ view ≤ system.journal.length then
      some { system with
        scanners := Function.update system.scanners scanner
          { system.scanners scanner with view := view } }
    else none
  | .check scanner mode readinessFingerprint criteriaFingerprint intervalMs =>
    match (system.scanners scanner).phase with
    | .idle =>
      let input := system.input toISOString scanner mode readinessFingerprint criteriaFingerprint
        intervalMs
      if ticketScanDeferredByJournal parse input then some system
      else some (system.enter scanner (.checking input))
    | _ => none
  | .readRow scanner =>
    match (system.scanners scanner).phase with
    | .checking input =>
      let decision := ticketScanSchedule parse input system.row
      if decision.due then
        some (system.enter scanner (.scanning ⟨⟨input.startedAt, input.mode,
          input.readinessFingerprint, input.criteriaFingerprint⟩, decision.allowClockRollback⟩))
      else some (system.enter scanner .idle)
    | _ => none
  | .complete scanner report =>
    match (system.scanners scanner).phase with
    | .scanning checkpoint =>
      let payload := scanPayload checkpoint report
      some (system.enter scanner (.completing checkpoint payload
        (unchangedScan (latestScan (system.known scanner)) payload)))
    | _ => none
  | .record scanner =>
    match (system.scanners scanner).phase with
    | .completing checkpoint payload unchanged =>
      if unchanged then
        match latestScan (system.known scanner) with
        | some (scanSeq, _) =>
          some (system.enter scanner
            (.recording (cadenceOf checkpoint scanSeq) checkpoint.allowClockRollback false))
        | none => some (system.enter scanner .idle)
      else
        let journal := system.journal ++ [some payload]
        some { system.enter scanner (.recording (cadenceOf checkpoint journal.length)
          checkpoint.allowClockRollback true) with journal := journal }
    | _ => none
  | .write scanner =>
    match (system.scanners scanner).phase with
    | .recording cadence allowClockRollback _ =>
      some { system.enter scanner .idle with
        row := putScanCadence parse system.row cadence allowClockRollback }
    | _ => none
  | .crash scanner =>
    some { system with scanners := Function.update system.scanners scanner ⟨0, .idle⟩ }

def initial (clock : Int) : ScanSystem σ τ δ := ⟨clock, [], none, fun _ => ⟨0, .idle⟩⟩

end ScanSystem

/-- Runs whose steps all meet a condition. -/
inductive ScanRun (ok : ScanSystem σ τ δ → ScanAct σ δ → Prop) : ScanSystem σ τ δ → Prop
  | start (clock : Int) : ScanRun ok (ScanSystem.initial clock)
  | step {system next : ScanSystem σ τ δ} (act : ScanAct σ δ) : ScanRun ok system →
      ok system act → system.step parse toISOString act = some next → ScanRun ok next

/-- The answers agree: what the journal defers is not due with the row either. -/
def Agree (system : ScanSystem σ τ δ) : Prop :=
  ∀ (scanner : σ) (mode : ScanMode) (readinessFingerprint criteriaFingerprint : String)
    (intervalMs : Int),
    let input := system.input toISOString scanner mode readinessFingerprint criteriaFingerprint
      intervalMs
    ticketScanDeferredByJournal parse input = true →
      ticketScanSchedule parse input system.row = ⟨false, false⟩

/-- A row is not older than the measurement it acknowledges. -/
def Anchored (journal : List (Option (ScanPayload τ δ))) (cadence : ScanCadence τ) : Prop :=
  ∀ payload, scanAt journal cadence.scanSeq = some payload →
    payload.measurement.mode = cadence.mode →
    payload.measurement.readinessFingerprint = cadence.readinessFingerprint →
    payload.measurement.criteriaFingerprint = cadence.criteriaFingerprint →
    ∀ measured acknowledged, parse payload.measurement.startedAt = some measured →
      parse cadence.startedAt = some acknowledged → measured ≤ acknowledged

/-- A scan that recorded nothing stores no row for a measurement that began after it. -/
def WriteAnchored (system : ScanSystem σ τ δ) : ScanAct σ δ → Prop
  | .write scanner =>
    match (system.scanners scanner).phase with
    | .recording cadence allowClockRollback false =>
      storesCadence parse system.row cadence allowClockRollback = true →
        Anchored parse system.journal cadence
    | _ => True
  | _ => True

end Steps

/-! ## 3. What is recorded -/

section Journal

variable {τ δ : Type} {journal : List (Option (ScanPayload τ δ))} {seq : Nat}
  {payload : ScanPayload τ δ}

theorem latestScan_append_singleton (event : Option (ScanPayload τ δ)) :
    latestScan (journal ++ [event]) =
      match event with
      | some payload => some (journal.length + 1, payload)
      | none => latestScan journal := by
  unfold latestScan
  rw [List.zipIdx_append, List.foldl_append, List.zipIdx_singleton, List.foldl_cons,
    List.foldl_nil, Nat.zero_add]

theorem scanAt_append (h : seq ≤ journal.length) (more : List (Option (ScanPayload τ δ))) :
    scanAt (journal ++ more) seq = scanAt journal seq := by
  unfold scanAt
  split
  · rfl
  · rw [List.getElem?_append_left (by omega)]

theorem scanAt_length_succ (payload : ScanPayload τ δ) :
    scanAt (journal ++ [some payload]) (journal.length + 1) = some payload := by
  rw [scanAt, if_neg (Nat.succ_ne_zero _), Nat.add_sub_cancel, List.getElem?_concat_length]
  rfl

theorem scanAt_append_singleton {event : Option (ScanPayload τ δ)}
    (h : scanAt (journal ++ [event]) seq = some payload) :
    scanAt journal seq = some payload ∨ event = some payload := by
  by_cases hle : seq ≤ journal.length
  · rw [scanAt_append hle] at h
    exact .inl h
  · right
    unfold scanAt at h
    rw [if_neg (by omega)] at h
    rcases Nat.lt_or_ge (seq - 1) (journal.length + 1) with hlt | hge
    · have hlast : seq - 1 = journal.length := by omega
      rw [hlast, List.getElem?_concat_length] at h
      exact h
    · rw [List.getElem?_eq_none (by rw [List.length_append, List.length_singleton]; omega)] at h
      exact absurd h nofun

theorem scanAt_take {n : Nat} (h : scanAt (journal.take n) seq = some payload) :
    scanAt journal seq = some payload := by
  unfold scanAt at h ⊢
  split at h
  · exact absurd h nofun
  next hseq =>
    rw [if_neg hseq]
    rw [List.getElem?_take] at h
    split at h
    · exact h
    · exact absurd h nofun

/-- The latest measurement is recorded at its seq. -/
theorem scanAt_latestScan (h : latestScan journal = some (seq, payload)) :
    seq ≤ journal.length ∧ scanAt journal seq = some payload := by
  induction journal using List.reverseRecOn with
  | nil => exact absurd h nofun
  | append_singleton journal event ih =>
    rw [latestScan_append_singleton] at h
    rw [List.length_append, List.length_singleton]
    cases event with
    | some recorded =>
      cases h
      exact ⟨Nat.le_refl _, scanAt_length_succ payload⟩
    | none =>
      obtain ⟨hle, hat⟩ := ih h
      exact ⟨hle.trans (Nat.le_succ _), by rw [scanAt_append hle, hat]⟩

end Journal

/-! ## 4. Rows are anchored -/

section Invariant

variable {σ τ δ : Type} [DecidableEq σ] [DecidableEq δ] (parse : τ → Option Int)
  (toISOString : Int → τ)

/-- A date that the clock has shown. -/
def Dated (clock : Int) (date : τ) : Prop := ∃ time ≤ clock, date = toISOString time

def PhaseOk (clock : Int) (journal : List (Option (ScanPayload τ δ))) : ScanPhase τ δ → Prop
  | .idle => True
  | .checking input => Dated toISOString clock input.startedAt
  | .scanning checkpoint => Dated toISOString clock checkpoint.measurement.startedAt
  | .completing checkpoint payload _ =>
    Dated toISOString clock checkpoint.measurement.startedAt ∧
      payload.measurement = checkpoint.measurement
  | .recording cadence _ appended =>
    cadence.scanSeq ≤ journal.length ∧ Dated toISOString clock cadence.startedAt ∧
      (appended = true → Anchored parse journal cadence)

structure ScanOk (system : ScanSystem σ τ δ) : Prop where
  facts : ∀ seq payload, scanAt system.journal seq = some payload →
    Dated toISOString system.clock payload.measurement.startedAt
  row : ∀ row, system.row = some row → row.scanSeq ≤ system.journal.length ∧
    Dated toISOString system.clock row.startedAt ∧ Anchored parse system.journal row
  phases : ∀ scanner,
    PhaseOk parse toISOString system.clock system.journal (system.scanners scanner).phase

variable {parse toISOString} {system next : ScanSystem σ τ δ}
  {journal : List (Option (ScanPayload τ δ))} {cadence : ScanCadence τ} {clock clock' : Int}
  {date : τ}

omit [DecidableEq σ] [DecidableEq δ] in
theorem Dated.later (h : Dated toISOString clock date) (hclock : clock ≤ clock') :
    Dated toISOString clock' date := by
  obtain ⟨time, hle, rfl⟩ := h
  exact ⟨time, hle.trans hclock, rfl⟩

omit [DecidableEq σ] [DecidableEq δ] in
/-- What is appended later has other seqs. -/
theorem Anchored.append (h : Anchored parse journal cadence)
    (hle : cadence.scanSeq ≤ journal.length) (more : List (Option (ScanPayload τ δ))) :
    Anchored parse (journal ++ more) cadence := by
  intro payload hpayload
  rw [scanAt_append hle] at hpayload
  exact h payload hpayload

omit [DecidableEq σ] [DecidableEq δ] in
theorem PhaseOk.later {phase : ScanPhase τ δ}
    (h : PhaseOk parse toISOString clock journal phase) (hclock : clock ≤ clock')
    (more : List (Option (ScanPayload τ δ))) :
    PhaseOk parse toISOString clock' (journal ++ more) phase := by
  cases phase with
  | idle => trivial
  | checking input => exact Dated.later h hclock
  | scanning checkpoint => exact Dated.later h hclock
  | completing checkpoint payload unchanged => exact ⟨h.1.later hclock, h.2⟩
  | recording cadence allowClockRollback appended =>
    obtain ⟨hle, hdated, hanchored⟩ := h
    refine ⟨hle.trans ?_, hdated.later hclock, fun happended =>
      (hanchored happended).append hle more⟩
    rw [List.length_append]
    exact Nat.le_add_right _ _

omit [DecidableEq δ] in
theorem phases_enter {scanner : σ} {phase : ScanPhase τ δ}
    (h : ∀ other, PhaseOk parse toISOString clock journal (system.scanners other).phase)
    (hphase : PhaseOk parse toISOString clock journal phase) (other : σ) :
    PhaseOk parse toISOString clock journal
      ((system.enter scanner phase).scanners other).phase := by
  unfold ScanSystem.enter
  dsimp only
  by_cases hother : other = scanner
  · rw [hother, Function.update_self]
    exact hphase
  · rw [Function.update_of_ne hother]
    exact h other

omit [DecidableEq δ] in
theorem ScanOk.enter (h : ScanOk parse toISOString system) (scanner : σ) {phase : ScanPhase τ δ}
    (hphase : PhaseOk parse toISOString system.clock system.journal phase) :
    ScanOk parse toISOString (system.enter scanner phase) :=
  ⟨h.facts, h.row, phases_enter h.phases hphase⟩

omit [DecidableEq σ] [DecidableEq δ] in
/-- An event that is dated joins the journal. -/
theorem ScanOk.append (h : ScanOk parse toISOString system) {event : Option (ScanPayload τ δ)}
    (hevent : ∀ payload, event = some payload →
      Dated toISOString system.clock payload.measurement.startedAt) :
    ScanOk parse toISOString { system with journal := system.journal ++ [event] } := by
  refine ⟨fun seq payload hat => ?_, fun row hrow => ?_, fun scanner =>
    (h.phases scanner).later (le_refl _) [event]⟩
  · rcases scanAt_append_singleton hat with hat | hat
    · exact h.facts seq payload hat
    · exact hevent payload hat
  · obtain ⟨hle, hdated, hanchored⟩ := h.row row hrow
    refine ⟨hle.trans ?_, hdated, hanchored.append hle [event]⟩
    rw [List.length_append]
    exact Nat.le_add_right _ _

/-- **A step keeps the rows anchored.** -/
theorem ScanOk.step (h : ScanOk parse toISOString system) {act : ScanAct σ δ}
    (hwrite : WriteAnchored parse system act)
    (hstep : system.step parse toISOString act = some next) :
    ScanOk parse toISOString next := by
  unfold ScanSystem.step at hstep
  cases act with
  | tick clock =>
    dsimp only at hstep
    split at hstep
    next hclock =>
      cases hstep
      refine ⟨fun seq payload hat => (h.facts seq payload hat).later hclock, fun row hrow => ?_,
        fun scanner => ?_⟩
      · obtain ⟨hle, hdated, hanchored⟩ := h.row row hrow
        exact ⟨hle, hdated.later hclock, hanchored⟩
      · have hlater := (h.phases scanner).later hclock []
        rwa [List.append_nil] at hlater
    next => exact absurd hstep nofun
  | append =>
    cases hstep
    exact h.append fun _ hnone => absurd hnone nofun
  | refresh scanner view =>
    dsimp only at hstep
    split at hstep
    next =>
      cases hstep
      refine ⟨h.facts, h.row, fun other => ?_⟩
      dsimp only
      by_cases hother : other = scanner
      · rw [hother, Function.update_self]
        exact h.phases scanner
      · rw [Function.update_of_ne hother]
        exact h.phases other
    next => exact absurd hstep nofun
  | check scanner mode readinessFingerprint criteriaFingerprint intervalMs =>
    dsimp only at hstep
    split at hstep
    next =>
      split at hstep
      next =>
        cases hstep
        exact h
      next =>
        cases hstep
        exact h.enter scanner ⟨system.clock, le_refl _, rfl⟩
    next => exact absurd hstep nofun
  | readRow scanner =>
    dsimp only at hstep
    split at hstep
    next input hphase =>
      have hdated := h.phases scanner
      rw [hphase] at hdated
      split at hstep
      next =>
        cases hstep
        exact h.enter scanner hdated
      next =>
        cases hstep
        exact h.enter scanner trivial
    next => exact absurd hstep nofun
  | complete scanner report =>
    dsimp only at hstep
    split at hstep
    next checkpoint hphase =>
      have hdated := h.phases scanner
      rw [hphase] at hdated
      cases hstep
      exact h.enter scanner ⟨hdated, rfl⟩
    next => exact absurd hstep nofun
  | record scanner =>
    dsimp only at hstep
    split at hstep
    next checkpoint payload unchanged hphase =>
      have hcompleting := h.phases scanner
      rw [hphase] at hcompleting
      obtain ⟨hdated, hmeasurement⟩ := hcompleting
      split at hstep
      next =>
        split at hstep
        next scanSeq recorded hlatest =>
          cases hstep
          have hle := (scanAt_latestScan hlatest).1
          rw [ScanSystem.known, List.length_take] at hle
          exact h.enter scanner ⟨hle.trans (Nat.min_le_right _ _), hdated, nofun⟩
        next =>
          cases hstep
          exact h.enter scanner trivial
      next =>
        cases hstep
        have happended : ScanOk parse toISOString
            { system with journal := system.journal ++ [some payload] } :=
          h.append fun other hother => by
            rw [← Option.some.inj hother, hmeasurement]
            exact hdated
        refine happended.enter scanner ⟨Nat.le_refl _, hdated, fun _ => ?_⟩
        -- The row and what it acknowledges are of one checkpoint.
        intro other hat _ _ _ measured acknowledged hmeasured hacknowledged
        rw [cadenceOf, List.length_append, List.length_singleton, scanAt_length_succ] at hat
        cases hat
        rw [hmeasurement, show checkpoint.measurement.startedAt =
          (cadenceOf checkpoint (system.journal ++ [some payload]).length).startedAt from rfl,
          hacknowledged] at hmeasured
        exact (Option.some.inj hmeasured).ge
    next => exact absurd hstep nofun
  | write scanner =>
    dsimp only at hstep
    split at hstep
    next cadence allowClockRollback appended hphase =>
      have hrecording := h.phases scanner
      rw [hphase] at hrecording
      obtain ⟨hle, hdated, hanchored⟩ := hrecording
      cases hstep
      refine ⟨h.facts, fun row hrow => ?_, phases_enter h.phases trivial⟩
      simp only [putScanCadence] at hrow
      split at hrow
      next hstores =>
        cases hrow
        refine ⟨hle, hdated, ?_⟩
        cases appended with
        | true => exact hanchored rfl
        | false =>
          unfold WriteAnchored at hwrite
          dsimp only at hwrite
          rw [hphase] at hwrite
          exact hwrite hstores
      next => exact h.row row hrow
    next => exact absurd hstep nofun
  | crash scanner =>
    cases hstep
    refine ⟨h.facts, h.row, fun other => ?_⟩
    dsimp only
    by_cases hother : other = scanner
    · rw [hother, Function.update_self]
      trivial
    · rw [Function.update_of_ne hother]
      exact h.phases other

theorem scanOk_of_run (hrun : ScanRun parse toISOString (WriteAnchored parse) system) :
    ScanOk parse toISOString system := by
  induction hrun with
  | start clock =>
    refine ⟨fun seq payload hat => ?_, nofun, fun _ => trivial⟩
    simp [ScanSystem.initial, scanAt] at hat
  | step act _ hok hstep ih => exact ih.step hok hstep

end Invariant

/-! ## 5. The answers agree -/

section Answers

variable {τ : Type} {parse : τ → Option Int} {input : ScanScheduleInput τ}

/-- What a deferral says. -/
theorem deferred_iff {previous : ScanMeasurement τ} (hprevious : input.previous = some previous) :
    ticketScanDeferredByJournal parse input = true ↔
      previous.readinessFingerprint = input.readinessFingerprint ∧
        previous.criteriaFingerprint = input.criteriaFingerprint ∧
        ¬(input.mode = .admission ∧ previous.mode = .observation) ∧
        (elapsedSince parse input.startedAt previous.startedAt).within input.intervalMs = true := by
  unfold ticketScanDeferredByJournal
  rw [hprevious]
  dsimp only
  split
  next hreadiness => simp [hreadiness]
  next hreadiness =>
    split
    next hcriteria => simp [hcriteria]
    next hcriteria =>
      split
      next hmode => simp [hmode]
      next hmode => simp [Decidable.not_not.mp hreadiness, Decidable.not_not.mp hcriteria, hmode]

theorem within_iff {elapsed : Elapsed} {intervalMs : Int} :
    elapsed.within intervalMs = true ↔
      ∃ value, elapsed = .ms value ∧ 0 ≤ value ∧ value < intervalMs := by
  cases elapsed <;> simp [Elapsed.within]

/-- The full schedule with what it takes for the baseline. -/
theorem schedule_of_deferred {previous : ScanMeasurement τ}
    (hprevious : input.previous = some previous)
    (hdeferred : ticketScanDeferredByJournal parse input = true) {cached : Option (ScanCadence τ)}
    (hcached : ∀ row, cached = some row → validRow parse input previous row = true →
      ∃ now measured acknowledged, parse input.startedAt = some now ∧
        parse previous.startedAt = some measured ∧ parse row.startedAt = some acknowledged ∧
        measured ≤ acknowledged ∧ acknowledged ≤ now) :
    ticketScanSchedule parse input cached = ⟨false, false⟩ := by
  obtain ⟨hreadiness, hcriteria, hmode, hwithin⟩ := (deferred_iff hprevious).mp hdeferred
  -- Whatever the baseline is, less than an interval has passed since.
  have hbaseline : ∀ baseline,
      (elapsedSince parse input.startedAt baseline).within input.intervalMs = true →
      let elapsed := elapsedSince parse input.startedAt baseline
      (⟨elapsed.negative || elapsed.reaches input.intervalMs ||
          decide (previous.readinessFingerprint ≠ input.readinessFingerprint) ||
          decide (previous.criteriaFingerprint ≠ input.criteriaFingerprint) ||
          decide (input.mode = .admission ∧ previous.mode = .observation),
        elapsed.negative⟩ : ScanDecision) = ⟨false, false⟩ := by
    intro baseline hwithin
    obtain ⟨value, helapsed, hnonneg, hlt⟩ := within_iff.mp hwithin
    have hnegative : Elapsed.negative (.ms value) = false :=
      decide_eq_false (Int.not_lt.mpr hnonneg)
    have hreaches : Elapsed.reaches input.intervalMs (.ms value) = false :=
      decide_eq_false (Int.not_le.mpr hlt)
    dsimp only
    rw [helapsed, hnegative, hreaches, decide_eq_false (not_not.mpr hreadiness),
      decide_eq_false (not_not.mpr hcriteria), decide_eq_false hmode]
    rfl
  unfold ticketScanSchedule
  rw [hprevious]
  dsimp only
  cases cached with
  | none => exact hbaseline _ hwithin
  | some row =>
    dsimp only
    by_cases hvalid : validRow parse input previous row = true
    · obtain ⟨now, measured, acknowledged, hnow, hmeasured, hacknowledged, hanchored, hpast⟩ :=
        hcached row rfl hvalid
      rw [if_pos hvalid]
      refine hbaseline _ ?_
      rw [within_iff] at hwithin ⊢
      obtain ⟨value, helapsed, -, hlt⟩ := hwithin
      rw [elapsedSince, hnow, hmeasured] at helapsed
      cases helapsed
      refine ⟨now - acknowledged, by rw [elapsedSince, hnow, hacknowledged], ?_, ?_⟩ <;> omega
    · rw [if_neg hvalid]
      exact hbaseline _ hwithin

/-- **Without a row the two answers are opposite.** -/
theorem schedule_none (hnow : (parse input.startedAt).isSome)
    (hprevious : ∀ previous, input.previous = some previous →
      (parse previous.startedAt).isSome) :
    (ticketScanSchedule parse input none).due = !ticketScanDeferredByJournal parse input := by
  cases hcase : input.previous with
  | none => simp [ticketScanSchedule, ticketScanDeferredByJournal, hcase]
  | some previous =>
    obtain ⟨now, hnow⟩ := Option.isSome_iff_exists.mp hnow
    obtain ⟨measured, hmeasured⟩ := Option.isSome_iff_exists.mp (hprevious previous hcase)
    have helapsed : elapsedSince parse input.startedAt previous.startedAt =
        .ms (now - measured) := by
      rw [elapsedSince, hnow, hmeasured]
    rw [Bool.eq_not, Ne, Bool.eq_iff_iff, deferred_iff hcase, helapsed, ticketScanSchedule, hcase]
    dsimp only
    rw [helapsed]
    simp only [Elapsed.negative, Elapsed.reaches, Elapsed.within, Bool.or_eq_true,
      decide_eq_true_eq, Bool.and_eq_true]
    by_cases hreadiness : previous.readinessFingerprint = input.readinessFingerprint <;>
      by_cases hcriteria : previous.criteriaFingerprint = input.criteriaFingerprint <;>
      by_cases hmode : input.mode = .admission ∧ previous.mode = .observation <;>
      simp [hreadiness, hcriteria, hmode]
    omega

end Answers

section Runs

variable {σ τ δ : Type} [DecidableEq σ] [DecidableEq δ] {parse : τ → Option Int}
  {toISOString : Int → τ} {system : ScanSystem σ τ δ}

omit [DecidableEq σ] [DecidableEq δ] in
theorem ScanOk.agree (h : ScanOk parse toISOString system)
    (hdates : ∀ time, parse (toISOString time) = some time) : Agree parse toISOString system := by
  intro scanner mode readinessFingerprint criteriaFingerprint intervalMs input hdeferred
  cases hlatest : latestScan (system.known scanner) with
  | none =>
    have hnone : input.previous = none := congrArg (Option.map _) hlatest
    rw [ticketScanDeferredByJournal, hnone] at hdeferred
    exact absurd hdeferred nofun
  | some latest =>
    obtain ⟨seq, payload⟩ := latest
    have hprevious : input.previous = some payload.measurement := congrArg (Option.map _) hlatest
    have hseq : input.previousSeq = some seq := congrArg (Option.map _) hlatest
    have hat := scanAt_take (scanAt_latestScan hlatest).2
    obtain ⟨measured, -, hmeasured⟩ := h.facts seq payload hat
    refine schedule_of_deferred hprevious hdeferred fun row hrow hvalid => ?_
    obtain ⟨-, ⟨acknowledged, hpast, hdate⟩, hanchored⟩ := h.row row hrow
    simp only [validRow, Bool.and_eq_true, decide_eq_true_eq] at hvalid
    obtain ⟨⟨⟨⟨hrowSeq, hmode⟩, hreadiness⟩, hcriteria⟩, -⟩ := hvalid
    rw [hseq] at hrowSeq
    have hacknowledges : scanAt system.journal row.scanSeq = some payload := by
      rw [Option.some.inj hrowSeq, hat]
    have hparsed : parse payload.measurement.startedAt = some measured := by
      rw [hmeasured, hdates]
    have hparsedRow : parse row.startedAt = some acknowledged := by rw [hdate, hdates]
    exact ⟨system.clock, measured, acknowledged, hdates system.clock, hparsed, hparsedRow,
      hanchored payload hacknowledges hmode.symm hreadiness.symm hcriteria.symm measured
        acknowledged hparsed hparsedRow, hpast⟩

/-- **What the journal defers is not due**, in every run in which no scan that recorded nothing
stores a row for a measurement that began after it; and without a row the answers are opposite. -/
theorem deferred_not_due (hdates : ∀ time, parse (toISOString time) = some time) :
    (∀ system : ScanSystem σ τ δ, ScanRun parse toISOString (WriteAnchored parse) system →
      Agree parse toISOString system) ∧
    ∀ input : ScanScheduleInput τ, (parse input.startedAt).isSome →
      (∀ previous, input.previous = some previous → (parse previous.startedAt).isSome) →
      (ticketScanSchedule parse input none).due = !ticketScanDeferredByJournal parse input :=
  ⟨fun _ hrun => (scanOk_of_run hrun).agree hdates, fun _ => schedule_none⟩

/-- The reports of two scans that find nothing. -/
def nothingFound : TickReport Unit := ⟨0, 0, [], 0, [], 0, []⟩

/-- One scanner begins, another begins ten milliseconds later, records what it measured and crashes
before it writes the row; the first finds the same and acknowledges it with its own earlier time. -/
def overlapping : List (ScanAct Bool Unit) :=
  [.check true .admission "ready" "criteria" 95, .readRow true, .tick 10,
    .check false .admission "ready" "criteria" 95, .readRow false, .complete false nothingFound,
    .record false, .crash false, .refresh true 1, .complete true nothingFound, .record true,
    .write true, .tick 100]

theorem scanRun_of_foldlM {ok : ScanSystem σ τ δ → ScanAct σ δ → Prop} :
    ∀ (acts : List (ScanAct σ δ)) {start last : ScanSystem σ τ δ},
      (∀ system, ∀ act ∈ acts, ok system act) → ScanRun parse toISOString ok start →
      acts.foldlM (fun system act => system.step parse toISOString act) start = some last →
      ScanRun parse toISOString ok last
  | [], _, _, _, hstart, h => by
    cases h
    exact hstart
  | act :: acts, start, last, hok, hstart, h => by
    rw [List.foldlM_cons] at h
    obtain ⟨next, hstep, hrest⟩ := Option.bind_eq_some_iff.mp h
    exact scanRun_of_foldlM acts
      (fun system act hact => hok system act (List.mem_cons_of_mem _ hact))
      (.step act hstart (hok _ _ List.mem_cons_self) hstep) hrest

/-- A scan that is recorded, up to its row. -/
def firstScan : List (ScanAct Bool Unit) :=
  [.check true .admission "ready" "criteria" 95, .readRow true, .complete true nothingFound,
    .record true]

/-- A hundred milliseconds later the same is found. -/
def secondScan : List (ScanAct Bool Unit) :=
  [.refresh true 1, .tick 100, .check true .admission "ready" "criteria" 95, .readRow true,
    .complete true nothingFound, .record true]

/-- A scan that was recorded is acknowledged by an unchanged one; what the journal defers then is
not due with the row of the second. -/
theorem deferred_not_due_acknowledged :
    ∃ system : ScanSystem Bool Int Unit,
      ScanRun some id (WriteAnchored some) system ∧
      system.row = some ⟨1, 100, .admission, "ready", "criteria"⟩ ∧
      let input := system.input id false .observation "ready" "criteria" 200
      ticketScanDeferredByJournal some input = true ∧
        ticketScanSchedule some input system.row = ⟨false, false⟩ := by
  have hquiet : ∀ acts : List (ScanAct Bool Unit), (∀ act ∈ acts, act ≠ .write true) →
      (∀ act ∈ acts, act ≠ .write false) →
      ∀ (system : ScanSystem Bool Int Unit), ∀ act ∈ acts, WriteAnchored some system act := by
    intro acts htrue hfalse system act hact
    cases act with
    | write scanner =>
      cases scanner with
      | true => exact absurd rfl (htrue _ hact)
      | false => exact absurd rfl (hfalse _ hact)
    | _ => trivial
  have hfirst := scanRun_of_foldlM firstScan (hquiet _ (by decide) (by decide))
    (show ScanRun some id _ _ from .start 0) rfl
  have hwritten := hfirst.step (.write true) trivial rfl
  have hsecond := scanRun_of_foldlM secondScan (hquiet _ (by decide) (by decide)) hwritten rfl
  have hacknowledged := hsecond.step (.write true)
    (fun _ payload hat _ _ _ measured acknowledged hm ha => by
      obtain rfl := Option.some.inj hat
      obtain rfl := Option.some.inj hm
      obtain rfl := Option.some.inj ha
      decide) rfl
  have hlater := scanRun_of_foldlM [.tick 150, .refresh false 1]
    (hquiet _ (by decide) (by decide)) hacknowledged rfl
  refine ⟨_, hlater, by decide, by decide, ?_⟩
  exact (deferred_not_due fun _ => rfl).1 _ hlater false .observation "ready" "criteria" 200
    (by decide)

/-- **A scan that began earlier acknowledges a later measurement**: ninety milliseconds after it the
journal defers, and the full schedule is due. -/
theorem unanchored_row :
    ∃ system : ScanSystem Bool Int Unit, ScanRun some id (fun _ _ => True) system ∧
      let input := system.input id true .admission "ready" "criteria" 95
      ticketScanDeferredByJournal some input = true ∧
        (ticketScanSchedule some input system.row).due = true :=
  ⟨_, scanRun_of_foldlM overlapping (fun _ _ _ => trivial) (.start 0) rfl, by decide, by decide⟩

end Runs

end Autobuild.TicketScan
