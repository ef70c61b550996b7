/-
# The writer of a session's stream

Parts wait in a buffer, and one drain at a time puts them into the store, batch by batch.  A batch
that the store refuses goes back to the front of the buffer; after three refusals in a row the
writer gives up and closes the stream itself, from inside the drain.

A state is what the writer knows between two awaits, with what each of its promises waits for.  An
action is the code from one await to the next.

* `WriterInv.step`: what has reached the store, the batch in flight and the buffer are, in this
  order, what was appended.
* `SettlesAborted.step`: a writer that has given up closes its stream `aborted`.

The first `close` wins (`not_aborted_after_failures`): a stream that is being closed stays as it is
closed, whatever becomes of the parts behind it.
-/
import Autobuild.Lib.Steps
import Autobuild.Store.StreamBounds

namespace Autobuild

/-! ## 1. The writer -/

inductive StreamOutcome where
  | completed
  | aborted
  deriving DecidableEq

def MAX_FLUSH_FAILURES : Nat := 3

/-- What the drain in flight waits for. -/
inductive Drain where
  /-- `appendStreamParts` with this batch. -/
  | appending (batch : List StreamFields)
  /-- `closeStream`, by the drain that gave up. -/
  | closing
  /-- The promise is settled, and `finally` is still to clear `inFlight`. -/
  | finished

/-- What the one call of `close` that goes on waits for. -/
inductive Closer where
  | none
  /-- The end of this drain, by its number. -/
  | draining (drain : Nat)
  /-- `closeStream`. -/
  | closing
  deriving DecidableEq

structure Writer where
  /-- Whether `streamId` is known. -/
  bound : Bool := false
  /-- Whether `openError` is set. -/
  openFailed : Bool := false
  buffer : List StreamFields := []
  flushFailures : Nat := 0
  defunct : Bool := false
  closed : Bool := false
  firstOutcome : Option StreamOutcome := none
  /-- Whether `cancelSchedule` is set. -/
  scheduled : Bool := false
  inFlight : Option Drain := none
  /-- The number of drains so far. -/
  drains : Nat := 0
  closer : Closer := .none
  /-- What the store has of the stream. -/
  stored : List StreamFields := []
  /-- What the store answered to `appendStreamParts`, the last first. -/
  answers : List Bool := []
  /-- What `closeStream` was called with. -/
  streamClosed : Option StreamOutcome := none
  /-- All that was appended, after bounding. -/
  appended : List StreamFields := []
  /-- What was appended when `close` was called. -/
  beforeClose : Option (List StreamFields) := none

namespace Writer

def ensureTimer (w : Writer) : Writer :=
  if w.scheduled = true ∨ w.defunct = true ∨ w.closed = true then w
  else { w with scheduled := true }

/-- The parts from the front that fit into one call with those taken, and the rest. -/
def takeBatch (batch : List StreamFields) : List StreamFields →
    List StreamFields × List StreamFields
  | [] => (batch, [])
  | part :: rest =>
    if serializedBatchSize (batch ++ [part]) ≤ STREAM_BATCH_MAX_BYTES then
      takeBatch (batch ++ [part]) rest
    else (batch, part :: rest)

/-- `doFlush`, from the condition of its loop on. -/
def drainOn (w : Writer) : Writer :=
  if w.bound = false ∨ w.defunct = true ∨ w.closed = true then { w with inFlight := some .finished }
  else
    match w.buffer with
    | [] => { w with inFlight := some .finished }
    | part :: rest =>
      { w with
        buffer := (takeBatch [part] rest).2
        inFlight := some (.appending (takeBatch [part] rest).1) }

/-- It joins the drain in flight. -/
def requestFlush (w : Writer) : Writer :=
  match w.inFlight with
  | some _ => w
  | none => drainOn { w with drains := w.drains + 1 }

def append (w : Writer) (parts : List StreamFields) : Writer :=
  let bounded := parts.flatMap boundPart
  if w.defunct = true ∨ w.closed = true ∨ (w.openFailed = true ∧ w.bound = false) then
    { w with appended := w.appended ++ bounded }
  else
    let buffered := { w with buffer := w.buffer ++ bounded, appended := w.appended ++ bounded }
    if w.bound = true then buffered.ensureTimer else buffered

/-- With undelivered parts the stream closes `aborted`, whatever was requested. -/
def effective (w : Writer) (outcome : StreamOutcome) : StreamOutcome :=
  if 0 < w.flushFailures then .aborted else outcome

/-- `closeSink`, from the condition of its loop on. -/
def closeOn (w : Writer) (outcome : StreamOutcome) : Writer :=
  if w.defunct = false ∧ w.closed = false ∧ w.flushFailures = 0 ∧
      (w.inFlight.isSome = true ∨ w.buffer ≠ []) then
    { w.requestFlush with closer := .draining w.requestFlush.drains }
  else { w with streamClosed := some (w.effective outcome), closer := .closing }

/-- `closeSink` by a caller. -/
def close (w : Writer) (outcome : StreamOutcome) : Writer :=
  if w.closed = true ∨ w.firstOutcome.isSome = true then w
  else
    let closing := { w with
      firstOutcome := some outcome, scheduled := false, beforeClose := some w.appended }
    if w.bound = true then closing.closeOn outcome else { closing with closed := true }

/-- `closeSink('aborted')` by the drain that gave up, which does not drain again. -/
def abort (w : Writer) : Writer :=
  if w.closed = true ∨ w.firstOutcome.isSome = true then { w with inFlight := some .finished }
  else { w with
    firstOutcome := some .aborted, scheduled := false, beforeClose := some w.appended
    streamClosed := some (w.effective .aborted), inFlight := some .closing }

/-- The parts go back in order, and the next tick tries them again. -/
def refused (w : Writer) (batch : List StreamFields) : Writer :=
  let back := { w with
    buffer := batch ++ w.buffer
    flushFailures := w.flushFailures + 1
    answers := false :: w.answers }
  if MAX_FLUSH_FAILURES ≤ back.flushFailures then
    abort { back with defunct := true, scheduled := false }
  else { back with inFlight := some .finished }

def persisted (w : Writer) (batch : List StreamFields) : Writer :=
  drainOn { w with
    stored := w.stored ++ batch, flushFailures := 0, answers := true :: w.answers }

end Writer

/-- What may come next: a call, a tick, or the answer to what is awaited. -/
inductive WriterAction where
  | append (parts : List StreamFields)
  | flush
  | tick
  /-- `createStream` has given the id, or `resume` binds one. -/
  | opened
  | openFailed
  | close (outcome : StreamOutcome)
  /-- The store has the whole batch, or nothing of it. -/
  | answered (ok : Bool)
  /-- `closeStream` has returned to the drain. -/
  | drainClosed
  /-- `finally`. -/
  | settled
  /-- The drain that `close` waits for is over. -/
  | resumed
  /-- `closeStream` has returned to `close`. -/
  | closed

/-- A writer is bound to one stream. -/
def Writer.step (w : Writer) : WriterAction → Option Writer
  | .append parts => some (w.append parts)
  | .flush => some (if w.bound = true then w.requestFlush else w)
  | .tick => if w.scheduled = true then some w.requestFlush else none
  | .opened =>
    if w.bound = true ∨ w.openFailed = true then none
    else some ({ w with bound := true }.ensureTimer.requestFlush)
  | .openFailed =>
    if w.bound = true ∨ w.openFailed = true then none else some { w with openFailed := true }
  | .close outcome => some (w.close outcome)
  | .answered ok =>
    match w.inFlight with
    | some (.appending batch) => some (if ok = true then w.persisted batch else w.refused batch)
    | _ => none
  | .drainClosed =>
    match w.inFlight with
    | some .closing => some { w with closed := true, inFlight := some .finished }
    | _ => none
  | .settled =>
    match w.inFlight with
    | some .finished => some { w with inFlight := none }
    | _ => none
  | .resumed =>
    match w.closer, w.firstOutcome with
    | .draining drain, some outcome =>
      if w.inFlight.isNone = true ∨ drain < w.drains then some (w.closeOn outcome) else none
    | _, _ => none
  | .closed =>
    match w.closer with
    | .closing => some { w with closed := true, closer := .none }
    | _ => none

def WriterStep : Writer → Writer → Prop := Steps.Step Writer.step

def WriterRun : Writer → Writer → Prop := Steps.Run Writer.step

/-- What a writer comes to. -/
def WriterReached : Writer → Prop := WriterRun {}

/-! ## 2. The parts on their way -/

namespace Writer

theorem takeBatch_append (batch rest : List StreamFields) :
    (takeBatch batch rest).1 ++ (takeBatch batch rest).2 = batch ++ rest := by
  induction rest generalizing batch with
  | nil => rfl
  | cons part rest ih =>
    rw [takeBatch]
    split
    · rw [ih, List.append_assoc, List.singleton_append]
    · rfl

/-- The batch that the store has not answered yet. -/
def flight (w : Writer) : List StreamFields :=
  match w.inFlight with
  | some (.appending batch) => batch
  | _ => []

end Writer

/-- What holds between two awaits. -/
structure WriterInv (w : Writer) : Prop where
  parts : w.stored ++ w.flight ++ w.buffer <+: w.appended
  /-- Nothing was dropped while parts are accepted. -/
  all : w.defunct = false → w.closed = false → w.openFailed = false →
    w.stored ++ w.flight ++ w.buffer = w.appended
  failures : w.flushFailures = (w.answers.takeWhile (!·)).length
  defunct : w.defunct = true ↔ MAX_FLUSH_FAILURES ≤ w.flushFailures
  opened : w.bound = true → w.openFailed = false
  flying : ∀ batch, w.inFlight = some (.appending batch) → w.bound = true ∧ w.defunct = false
  before : ∀ parts, w.beforeClose = some parts → parts <+: w.appended
  first : w.firstOutcome.isSome = w.beforeClose.isSome
  closed : w.closed = true → w.firstOutcome.isSome = true
  draining : ∀ drain, w.closer = .draining drain → w.firstOutcome.isSome = true ∧
    w.bound = true ∧ w.closed = false ∧ w.streamClosed = none
  closing : w.closer = .closing → w.firstOutcome.isSome = true ∧ w.streamClosed.isSome = true
  giving : w.inFlight = some .closing → w.firstOutcome.isSome = true ∧ w.closer = .none ∧
    w.streamClosed.isSome = true
  early : w.streamClosed.isSome = true → w.firstOutcome.isSome = true
  unclosed : w.streamClosed = none → w.firstOutcome.isSome = true →
    (∃ drain, w.closer = .draining drain) ∨
      (w.closed = true ∧ ∀ batch, w.inFlight ≠ some (.appending batch))
  completed : w.streamClosed = some .completed →
    ∃ parts, w.beforeClose = some parts ∧ parts <+: w.stored

namespace WriterInv

variable {w : Writer}

theorem initial : WriterInv {} := by
  constructor <;> simp [Writer.flight, MAX_FLUSH_FAILURES]

/-- A drain that carries nothing may be over or gone. -/
theorem land (h : WriterInv w) (hflight : w.flight = []) {drain : Option Drain}
    (hdrain : drain = none ∨ drain = some .finished) : WriterInv { w with inFlight := drain } := by
  have hland : Writer.flight { w with inFlight := drain } = [] := by
    obtain rfl | rfl := hdrain <;> rfl
  have happending : ∀ batch, drain ≠ some (.appending batch) := by
    obtain rfl | rfl := hdrain <;> exact nofun
  have hclosing : drain ≠ some .closing := by
    obtain rfl | rfl := hdrain <;> exact nofun
  exact { h with
    parts := by
      rw [hland, ← hflight]
      exact h.parts
    all := by
      rw [hland, ← hflight]
      exact h.all
    flying := fun batch hbatch => absurd hbatch (happending batch)
    giving := fun hgiving => absurd hgiving hclosing
    unclosed := fun hopen hfirst =>
      (h.unclosed hopen hfirst).imp_right fun hclosed => ⟨hclosed.1, happending⟩ }

theorem flight_of_none (h : w.inFlight = none) : w.flight = [] := by
  rw [Writer.flight, h]

theorem drainOn (h : WriterInv w) (hnone : w.inFlight = none) : WriterInv w.drainOn := by
  have hflight := flight_of_none hnone
  unfold Writer.drainOn
  split
  · exact h.land hflight (.inr rfl)
  · rename_i hgoes
    obtain ⟨hbound, hdefunct, hclosed⟩ : w.bound = true ∧ w.defunct = false ∧ w.closed = false := by
      simpa using hgoes
    split
    · exact h.land hflight (.inr rfl)
    · rename_i part rest hbuffer
      have hmoved : ∀ stored : List StreamFields, stored ++ (Writer.takeBatch [part] rest).1 ++
          (Writer.takeBatch [part] rest).2 = stored ++ w.flight ++ w.buffer := by
        intro stored
        rw [List.append_assoc, Writer.takeBatch_append, hflight, hbuffer, List.append_nil]
        rfl
      exact { h with
        parts := (hmoved w.stored).symm ▸ h.parts
        all := (hmoved w.stored).symm ▸ h.all
        flying := fun _ _ => ⟨hbound, hdefunct⟩
        giving := nofun
        unclosed := fun hopen hfirst => (h.unclosed hopen hfirst).imp_right fun hgone =>
          absurd hgone.1 (by rw [hclosed]; exact Bool.false_ne_true) }

theorem requestFlush (h : WriterInv w) : WriterInv w.requestFlush := by
  unfold Writer.requestFlush
  split
  · exact h
  · rename_i hnone
    have hcounted : WriterInv { w with drains := w.drains + 1 } := { h with }
    exact hcounted.drainOn hnone

theorem ensureTimer (h : WriterInv w) : WriterInv w.ensureTimer := by
  unfold Writer.ensureTimer
  split
  · exact h
  · exact { h with }

theorem append (h : WriterInv w) (parts : List StreamFields) : WriterInv (w.append parts) := by
  have hbefore : ∀ before, w.beforeClose = some before →
      before <+: w.appended ++ parts.flatMap boundPart :=
    fun before hb => (h.before before hb).trans (List.prefix_append _ _)
  unfold Writer.append
  dsimp only
  split
  · rename_i hdropped
    exact { h with
      parts := h.parts.trans (List.prefix_append _ _)
      all := by
        intro hdefunct hclosed hopened
        rw [hdefunct, hclosed, hopened] at hdropped
        simp at hdropped
      before := hbefore }
  · rename_i haccepted
    have hall : w.stored ++ w.flight ++ w.buffer = w.appended := by
      refine h.all ?_ ?_ ?_
      · exact Bool.eq_false_of_not_eq_true fun hdefunct => haccepted (.inl hdefunct)
      · exact Bool.eq_false_of_not_eq_true fun hclosed => haccepted (.inr (.inl hclosed))
      · cases hbound : w.bound with
        | true => exact h.opened hbound
        | false => exact Bool.eq_false_of_not_eq_true fun hopen =>
            haccepted (.inr (.inr ⟨hopen, hbound⟩))
    have hbuffered : w.stored ++ w.flight ++ (w.buffer ++ parts.flatMap boundPart) =
        w.appended ++ parts.flatMap boundPart := by
      rw [← List.append_assoc, hall]
    have hinv : WriterInv { w with
        buffer := w.buffer ++ parts.flatMap boundPart
        appended := w.appended ++ parts.flatMap boundPart } := { h with
      parts := by
        change w.stored ++ w.flight ++ _ <+: _
        rw [hbuffered]
      all := fun _ _ _ => hbuffered
      before := hbefore }
    split
    · exact hinv.ensureTimer
    · exact hinv

/-- `closeSink` goes on, where its caller waits or is about to. -/
theorem closeOn {drain : Nat} (h : WriterInv { w with closer := .draining drain })
    {outcome : StreamOutcome} : WriterInv (w.closeOn outcome) := by
  obtain ⟨hfirst, hbound, hclosed, hopen⟩ := h.draining drain rfl
  unfold Writer.closeOn
  split
  · have hflush := h.requestFlush
    have hcloser : Writer.requestFlush { w with closer := .draining drain } =
        { w.requestFlush with closer := .draining drain } := by
      unfold Writer.requestFlush Writer.drainOn
      dsimp only
      repeat' split
      all_goals rfl
    rw [hcloser] at hflush
    exact { hflush with
      draining := fun _ _ => hflush.draining drain rfl
      closing := nofun
      giving := fun hgiving => absurd (hflush.giving hgiving).2.1 nofun
      unclosed := fun _ _ => .inl ⟨_, rfl⟩ }
  · rename_i hstops
    exact { h with
      draining := nofun
      closing := fun _ => ⟨hfirst, rfl⟩
      giving := fun hgiving => absurd (h.giving hgiving).2.1 nofun
      early := fun _ => hfirst
      unclosed := nofun
      completed := by
        intro heffective
        have hnone : w.flushFailures = 0 := by
          by_contra hfailed
          have hpos : 0 < w.flushFailures := Nat.pos_of_ne_zero hfailed
          simp [Writer.effective, hpos] at heffective
        have hdefunct : w.defunct = false := by
          refine Bool.eq_false_of_not_eq_true fun hgone => ?_
          have hmany : MAX_FLUSH_FAILURES ≤ w.flushFailures := h.defunct.mp hgone
          rw [hnone] at hmany
          exact absurd hmany (by decide)
        -- nothing is in flight, and nothing waits
        obtain ⟨hflight, hbuffer⟩ : w.inFlight = none ∧ w.buffer = [] := by
          by_contra hmore
          refine hstops ⟨hdefunct, hclosed, hnone, ?_⟩
          cases hin : w.inFlight with
          | none => exact .inr fun hbuffer => hmore ⟨hin, hbuffer⟩
          | some _ => exact .inl rfl
        have hall : w.stored ++ w.flight ++ w.buffer = w.appended :=
          h.all hdefunct hclosed (h.opened hbound)
        rw [flight_of_none hflight, hbuffer, List.append_nil, List.append_nil] at hall
        have hsome : w.beforeClose.isSome = true := h.first ▸ hfirst
        obtain ⟨parts, hparts⟩ := Option.isSome_iff_exists.mp hsome
        refine ⟨parts, hparts, ?_⟩
        change parts <+: w.stored
        rw [hall]
        exact h.before parts hparts }

/-- Before the first outcome the stream is not closed, and nobody closes it. -/
theorem before_close (h : WriterInv w) (hfirst : w.firstOutcome.isSome = false) :
    w.closer = .none ∧ w.inFlight ≠ some .closing ∧ w.streamClosed = none := by
  have hnot : ¬ w.firstOutcome.isSome = true := by rw [hfirst]; exact Bool.false_ne_true
  refine ⟨?_, fun hgiving => hnot (h.giving hgiving).1, ?_⟩
  · cases hcloser : w.closer with
    | none => rfl
    | draining drain => exact absurd (h.draining drain hcloser).1 hnot
    | closing => exact absurd (h.closing hcloser).1 hnot
  · cases hclosed : w.streamClosed with
    | none => rfl
    | some outcome => exact absurd (h.early (by rw [hclosed]; rfl)) hnot

theorem close (h : WriterInv w) (outcome : StreamOutcome) : WriterInv (w.close outcome) := by
  unfold Writer.close
  dsimp only
  split
  · exact h
  · rename_i hgoes
    have hclosed : w.closed = false :=
      Bool.eq_false_of_not_eq_true fun hclosed => hgoes (.inl hclosed)
    have hfirst : w.firstOutcome.isSome = false :=
      Bool.eq_false_of_not_eq_true fun hfirst => hgoes (.inr hfirst)
    obtain ⟨hcloser, hgiving, hopen⟩ := h.before_close hfirst
    have hcompleted : w.streamClosed ≠ some .completed := by rw [hopen]; exact nofun
    have hbefore : ∀ parts, some w.appended = some parts → parts <+: w.appended := by
      rintro parts ⟨⟩
      exact List.prefix_refl _
    split
    · rename_i hbound
      have hclosing : WriterInv { w with
          firstOutcome := some outcome
          scheduled := false
          beforeClose := some w.appended
          closer := .draining 0 } := { h with
        before := hbefore
        first := rfl
        closed := fun _ => rfl
        draining := fun _ _ => ⟨rfl, hbound, hclosed, hopen⟩
        closing := nofun
        giving := fun hg => absurd hg hgiving
        early := fun _ => rfl
        unclosed := fun _ _ => .inl ⟨0, rfl⟩
        completed := fun hc => absurd hc hcompleted }
      exact hclosing.closeOn
    · rename_i hunbound
      exact { h with
        all := nofun
        before := hbefore
        first := rfl
        closed := fun _ => rfl
        draining := fun drain hdrain => by
          change w.closer = _ at hdrain
          rw [hcloser] at hdrain
          cases hdrain
        closing := fun hclosing => by
          change w.closer = _ at hclosing
          rw [hcloser] at hclosing
          cases hclosing
        giving := fun hg => absurd hg hgiving
        early := fun _ => rfl
        unclosed := fun _ _ => .inr ⟨rfl, fun batch hbatch => hunbound (h.flying batch hbatch).1⟩
        completed := fun hc => absurd hc hcompleted }

theorem abort (h : WriterInv w) (hnone : w.inFlight = none) : WriterInv w.abort := by
  have hflight := flight_of_none hnone
  unfold Writer.abort
  split
  · exact h.land hflight (.inr rfl)
  · rename_i hgoes
    have hfirst : w.firstOutcome.isSome = false :=
      Bool.eq_false_of_not_eq_true fun hfirst => hgoes (.inr hfirst)
    obtain ⟨hcloser, -, -⟩ := h.before_close hfirst
    exact { h with
      parts := by
        have hparts := h.parts
        rw [hflight] at hparts
        exact hparts
      all := by
        have hall := h.all
        rw [hflight] at hall
        exact hall
      flying := nofun
      before := by
        rintro parts ⟨⟩
        exact List.prefix_refl _
      first := rfl
      closed := fun _ => rfl
      draining := fun drain hdrain => by
        change w.closer = _ at hdrain
        rw [hcloser] at hdrain
        cases hdrain
      closing := fun _ => ⟨rfl, rfl⟩
      giving := fun _ => ⟨rfl, hcloser, rfl⟩
      early := fun _ => rfl
      unclosed := nofun
      completed := fun hcompleted => by
        simp [Writer.effective] at hcompleted }

section

variable {batch : List StreamFields}

theorem flight_of_appending (hbatch : w.inFlight = some (.appending batch)) : w.flight = batch := by
  rw [Writer.flight, hbatch]

/-- A refused batch stands in front of the buffer again. -/
theorem putBack (h : WriterInv w) (hbatch : w.inFlight = some (.appending batch))
    (defunct scheduled : Bool)
    (hdefunct : defunct = true ↔ MAX_FLUSH_FAILURES ≤ w.flushFailures + 1) :
    WriterInv { w with
      buffer := batch ++ w.buffer
      flushFailures := w.flushFailures + 1
      answers := false :: w.answers
      defunct := defunct
      scheduled := scheduled
      inFlight := none } := by
  have hmoved : w.stored ++ [] ++ (batch ++ w.buffer) = w.stored ++ w.flight ++ w.buffer := by
    rw [flight_of_appending hbatch, List.append_nil, List.append_assoc]
  exact { h with
    parts := hmoved.symm ▸ h.parts
    all := fun _ => hmoved.symm ▸ h.all (h.flying batch hbatch).2
    failures := by
      change w.flushFailures + 1 = _
      rw [h.failures]
      rfl
    defunct := hdefunct
    flying := nofun
    giving := nofun
    unclosed := fun hopen hfirst =>
      (h.unclosed hopen hfirst).imp_right fun hgone => absurd hbatch (hgone.2 batch) }

theorem refused (h : WriterInv w) (hbatch : w.inFlight = some (.appending batch)) :
    WriterInv (w.refused batch) := by
  unfold Writer.refused
  dsimp only
  split
  · rename_i hmany
    exact (h.putBack hbatch true false (iff_of_true rfl hmany)).abort rfl
  · rename_i hfew
    have hdefunct : w.defunct = false := (h.flying batch hbatch).2
    have hback := h.putBack hbatch w.defunct w.scheduled
      (iff_of_false (by rw [hdefunct]; exact Bool.false_ne_true) hfew)
    exact hback.land rfl (.inr rfl)

theorem persisted (h : WriterInv w) (hbatch : w.inFlight = some (.appending batch)) :
    WriterInv (w.persisted batch) := by
  have hmoved : w.stored ++ batch ++ [] ++ w.buffer = w.stored ++ w.flight ++ w.buffer := by
    rw [flight_of_appending hbatch, List.append_nil]
  have hdefunct : w.defunct = false := (h.flying batch hbatch).2
  have hstored : WriterInv { w with
      stored := w.stored ++ batch
      flushFailures := 0
      answers := true :: w.answers
      inFlight := none } := { h with
    parts := hmoved.symm ▸ h.parts
    all := hmoved.symm ▸ h.all
    failures := rfl
    defunct := iff_of_false (by rw [hdefunct]; exact Bool.false_ne_true) (Nat.not_succ_le_zero 2)
    flying := nofun
    giving := nofun
    unclosed := fun hopen hfirst =>
      (h.unclosed hopen hfirst).imp_right fun hgone => absurd hbatch (hgone.2 batch)
    completed := fun hcompleted => by
      obtain ⟨parts, hparts, hprefixed⟩ := h.completed hcompleted
      exact ⟨parts, hparts, hprefixed.trans (List.prefix_append _ _)⟩ }
  exact hstored.drainOn rfl

end

/-- **What holds between two awaits**, whatever comes next. -/
theorem step {w' : Writer} (h : WriterInv w) (hstep : WriterStep w w') : WriterInv w' := by
  obtain ⟨action, haction⟩ := hstep
  cases action with
  | append parts =>
    cases haction
    exact h.append parts
  | flush =>
    cases haction
    split
    · exact h.requestFlush
    · exact h
  | tick =>
    obtain ⟨-, ⟨⟩⟩ := Option.ite_none_right_eq_some.mp haction
    exact h.requestFlush
  | opened =>
    obtain ⟨hfresh, ⟨⟩⟩ := Option.ite_none_left_eq_some.mp haction
    have hbound : WriterInv { w with bound := true } := { h with
      opened := fun _ => Bool.eq_false_of_not_eq_true fun hfailed => hfresh (.inr hfailed)
      flying := fun batch hbatch => ⟨rfl, (h.flying batch hbatch).2⟩
      draining := fun drain hdrain =>
        ⟨(h.draining drain hdrain).1, rfl, (h.draining drain hdrain).2.2⟩ }
    exact hbound.ensureTimer.requestFlush
  | openFailed =>
    obtain ⟨hfresh, ⟨⟩⟩ := Option.ite_none_left_eq_some.mp haction
    exact { h with
      all := nofun
      opened := fun hbound => absurd (.inl hbound) hfresh }
  | close outcome =>
    cases haction
    exact h.close outcome
  | answered ok =>
    simp only [Writer.step] at haction
    split at haction
    · rename_i batch hbatch
      cases haction
      split
      · exact h.persisted hbatch
      · exact h.refused hbatch
    · cases haction
  | drainClosed =>
    simp only [Writer.step] at haction
    split at haction
    · rename_i hgiving
      cases haction
      obtain ⟨hfirst, hcloser, hstream⟩ := h.giving hgiving
      have hflight : w.flight = [] := by rw [Writer.flight, hgiving]
      have hover := h.land hflight (.inr rfl)
      exact { hover with
        all := nofun
        closed := fun _ => hfirst
        draining := fun drain hdrain => by
          change w.closer = _ at hdrain
          rw [hcloser] at hdrain
          cases hdrain
        unclosed := fun _ _ => .inr ⟨rfl, nofun⟩ }
    · cases haction
  | settled =>
    simp only [Writer.step] at haction
    split at haction
    · rename_i hover
      cases haction
      exact h.land (by rw [Writer.flight, hover]) (.inl rfl)
    · cases haction
  | resumed =>
    simp only [Writer.step] at haction
    split at haction
    · rename_i drain outcome hcloser hfirst
      obtain ⟨-, ⟨⟩⟩ := Option.ite_none_right_eq_some.mp haction
      have hself : WriterInv { w with closer := .draining drain } := hcloser ▸ h
      exact hself.closeOn
    · cases haction
  | closed =>
    simp only [Writer.step] at haction
    split at haction
    · rename_i hclosing
      cases haction
      obtain ⟨hfirst, hstream⟩ := h.closing hclosing
      exact { h with
        all := nofun
        closed := fun _ => hfirst
        draining := nofun
        closing := nofun
        giving := fun hgiving => by
          have hcloser := (h.giving hgiving).2.1
          rw [hclosing] at hcloser
          cases hcloser
        unclosed := fun hopen => by
          change w.streamClosed = none at hopen
          rw [hopen] at hstream
          cases hstream }
    · cases haction

theorem run {w' : Writer} (h : WriterInv w) (hrun : WriterRun w w') : WriterInv w' :=
  Steps.Run.invariant (fun _ _ hstep hinv => step hinv hstep) hrun h

theorem reached (h : WriterReached w) : WriterInv w := initial.run h

end WriterInv

/-! ## 3. Giving up -/

section

variable (w : Writer)

@[simp] theorem drainOn_defunct : w.drainOn.defunct = w.defunct := by
  unfold Writer.drainOn
  repeat' split
  all_goals rfl

@[simp] theorem drainOn_streamClosed : w.drainOn.streamClosed = w.streamClosed := by
  unfold Writer.drainOn
  repeat' split
  all_goals rfl

@[simp] theorem drainOn_closer : w.drainOn.closer = w.closer := by
  unfold Writer.drainOn
  repeat' split
  all_goals rfl

@[simp] theorem requestFlush_defunct : w.requestFlush.defunct = w.defunct := by
  unfold Writer.requestFlush
  split <;> simp

@[simp] theorem requestFlush_streamClosed : w.requestFlush.streamClosed = w.streamClosed := by
  unfold Writer.requestFlush
  split <;> simp

@[simp] theorem requestFlush_closer : w.requestFlush.closer = w.closer := by
  unfold Writer.requestFlush
  split <;> simp

@[simp] theorem ensureTimer_defunct : w.ensureTimer.defunct = w.defunct := by
  unfold Writer.ensureTimer
  split <;> rfl

@[simp] theorem ensureTimer_streamClosed : w.ensureTimer.streamClosed = w.streamClosed := by
  unfold Writer.ensureTimer
  split <;> rfl

@[simp] theorem ensureTimer_closer : w.ensureTimer.closer = w.closer := by
  unfold Writer.ensureTimer
  split <;> rfl

end

/-- The writer has given up, and its stream is closed `aborted` or will be. -/
def SettlesAborted (w : Writer) : Prop :=
  w.defunct = true ∧ (w.streamClosed = some .aborted ∨
    (w.streamClosed = none ∧ ∃ drain, w.closer = .draining drain))

theorem effective_of_defunct {w : Writer} (h : WriterInv w) (hdefunct : w.defunct = true)
    (outcome : StreamOutcome) : w.effective outcome = .aborted := by
  have hmany := h.defunct.mp hdefunct
  have hpos : 0 < MAX_FLUSH_FAILURES := by decide
  exact if_pos (hpos.trans_le hmany)

namespace SettlesAborted

variable {w w' : Writer}

/-- What leaves these three alone leaves the writer settled. -/
theorem congr (h : SettlesAborted w) (hdefunct : w'.defunct = w.defunct)
    (hstream : w'.streamClosed = w.streamClosed) (hcloser : w'.closer = w.closer) :
    SettlesAborted w' := by
  rw [SettlesAborted, hdefunct, hstream, hcloser]
  exact h

theorem first (h : SettlesAborted w) (hinv : WriterInv w) : w.firstOutcome.isSome = true := by
  obtain ⟨-, haborted | ⟨-, drain, hcloser⟩⟩ := h
  · exact hinv.early (by rw [haborted]; rfl)
  · exact (hinv.draining drain hcloser).1

theorem step (h : SettlesAborted w) (hinv : WriterInv w) (hstep : WriterStep w w') :
    SettlesAborted w' := by
  obtain ⟨action, haction⟩ := hstep
  cases action with
  | append parts =>
    cases haction
    refine h.congr ?_ ?_ ?_ <;>
    · unfold Writer.append
      dsimp only
      repeat' split
      all_goals simp
  | flush =>
    cases haction
    split
    · exact h.congr (by simp) (by simp) (by simp)
    · exact h
  | tick =>
    obtain ⟨-, ⟨⟩⟩ := Option.ite_none_right_eq_some.mp haction
    exact h.congr (by simp) (by simp) (by simp)
  | opened =>
    obtain ⟨-, ⟨⟩⟩ := Option.ite_none_left_eq_some.mp haction
    exact h.congr (by simp) (by simp) (by simp)
  | openFailed =>
    obtain ⟨-, ⟨⟩⟩ := Option.ite_none_left_eq_some.mp haction
    exact h
  | close outcome =>
    cases haction
    rw [Writer.close, if_pos (.inr (h.first hinv))]
    exact h
  | answered ok =>
    -- no batch is in flight any more
    simp only [Writer.step] at haction
    split at haction
    · rename_i batch hbatch
      have hdefunct := (hinv.flying batch hbatch).2
      rw [h.1] at hdefunct
      cases hdefunct
    · cases haction
  | drainClosed =>
    simp only [Writer.step] at haction
    split at haction
    · cases haction
      exact h
    · cases haction
  | settled =>
    simp only [Writer.step] at haction
    split at haction
    · cases haction
      exact h
    · cases haction
  | resumed =>
    simp only [Writer.step] at haction
    split at haction
    · obtain ⟨-, ⟨⟩⟩ := Option.ite_none_right_eq_some.mp haction
      rename_i outcome _ _
      rw [Writer.closeOn, if_neg fun hgoes =>
        absurd h.1 (by rw [hgoes.1]; exact Bool.false_ne_true)]
      exact ⟨h.1, .inl (congrArg some (effective_of_defunct hinv h.1 outcome))⟩
    · cases haction
  | closed =>
    simp only [Writer.step] at haction
    split at haction
    · rename_i hclosing
      cases haction
      obtain ⟨hdefunct, haborted | ⟨-, drain, hcloser⟩⟩ := h
      · exact ⟨hdefunct, .inl haborted⟩
      · rw [hclosing] at hcloser
        cases hcloser
    · cases haction

theorem run (h : SettlesAborted w) (hinv : WriterInv w) (hrun : WriterRun w w') :
    SettlesAborted w' := by
  induction hrun with
  | refl => exact h
  | tail hrun hstep ih => exact ih.step (hinv.run hrun) hstep

/-- The stream of a writer that has given up does get closed. -/
theorem closes (h : SettlesAborted w) (hinv : WriterInv w) :
    ∃ w', WriterRun w w' ∧ w'.streamClosed = some .aborted := by
  obtain ⟨hdefunct, haborted | ⟨-, drain, hcloser⟩⟩ := h
  · exact ⟨w, .refl, haborted⟩
  · obtain ⟨outcome, hfirst⟩ := Option.isSome_iff_exists.mp (hinv.draining drain hcloser).1
    have hresumes : ∀ v : Writer, v.inFlight = none → v.closer = .draining drain →
        v.firstOutcome = some outcome → WriterStep v (v.closeOn outcome) := by
      intro v hflight hv hout
      refine ⟨.resumed, ?_⟩
      simp [Writer.step, hflight, hv, hout]
    have haborts : ∀ v : Writer, WriterInv v → v.defunct = true →
        (v.closeOn outcome).streamClosed = some .aborted := by
      intro v hv hgone
      rw [Writer.closeOn, if_neg fun hgoes =>
        absurd hgone (by rw [hgoes.1]; exact Bool.false_ne_true)]
      exact congrArg some (effective_of_defunct hv hgone outcome)
    cases hflight : w.inFlight with
    | none =>
      exact ⟨_, .single (hresumes w hflight hcloser hfirst), haborts w hinv hdefunct⟩
    | some flying =>
      cases flying with
      | appending batch =>
        rw [(hinv.flying batch hflight).2] at hdefunct
        cases hdefunct
      | closing =>
        have hnone := (hinv.giving hflight).2.1
        rw [hcloser] at hnone
        cases hnone
      | finished =>
        have hsettled : WriterStep w { w with inFlight := none } :=
          ⟨.settled, by simp [Writer.step, hflight]⟩
        exact ⟨_, .head hsettled (.single (hresumes _ rfl hcloser hfirst)),
          haborts _ (hinv.step hsettled) hdefunct⟩

end SettlesAborted

/-- The third refusal in a row makes a writer give up, whose stream is not closed yet. -/
theorem settlesAborted_of_refused {w w' : Writer} (h : WriterInv w)
    (hrefused : w.step (.answered false) = some w') (hthree : [false, false, false] <+: w'.answers)
    (hopen : w.streamClosed = none) : SettlesAborted w' := by
  have hinv : WriterInv w' := h.step ⟨_, hrefused⟩
  have hdefunct : w'.defunct = true := by
    refine hinv.defunct.mpr ?_
    obtain ⟨others, hothers⟩ := hthree
    rw [hinv.failures, ← hothers]
    exact Nat.le_add_left 3 _
  refine ⟨hdefunct, ?_⟩
  simp only [Writer.step] at hrefused
  split at hrefused
  · rename_i batch hbatch
    cases hrefused
    rw [if_neg Bool.false_ne_true] at hdefunct ⊢
    unfold Writer.refused at hdefunct ⊢
    dsimp only at hdefunct ⊢
    split
    · unfold Writer.abort
      dsimp only
      split
      · rename_i hclosing
        refine .inr ⟨hopen, ?_⟩
        obtain hdraining | ⟨-, hgone⟩ := h.unclosed hopen (hclosing.elim h.closed id)
        · exact hdraining
        · exact absurd hbatch (hgone batch)
      · exact .inl (congrArg some (if_pos (Nat.succ_pos _)))
    · rename_i hfew
      rw [if_neg hfew] at hdefunct
      change w.defunct = true at hdefunct
      rw [(h.flying batch hbatch).2] at hdefunct
      cases hdefunct
  · cases hrefused

/-! ## 4. What the store gets -/

/-- Nothing is awaited. -/
def Writer.Idle (w : Writer) : Prop := w.inFlight.isNone = true ∧ w.closer = .none

/-- **The store gets a front part of what was appended**, in order; the stream is closed
`completed` only behind all that was appended before; and the third refusal in a row, unless the
stream is being closed by then, has it closed `aborted`. -/
theorem sessionWriter_delivers {w : Writer} (hreached : WriterReached w) :
    w.stored <+: w.appended ∧
      (w.streamClosed = some .completed →
        ∃ parts, w.beforeClose = some parts ∧ parts <+: w.stored) ∧
      ∀ w', w.step (.answered false) = some w' → [false, false, false] <+: w'.answers →
        w.streamClosed = none → ∀ last, WriterRun w' last →
          (last.streamClosed = none ∨ last.streamClosed = some .aborted) ∧
          (last.Idle → last.streamClosed = some .aborted) ∧
          ∃ closed, WriterRun last closed ∧ closed.streamClosed = some .aborted := by
  have hinv := WriterInv.reached hreached
  refine ⟨?_, hinv.completed, ?_⟩
  · refine List.IsPrefix.trans ?_ hinv.parts
    rw [List.append_assoc]
    exact List.prefix_append _ _
  · intro w' hrefused hthree hopen last hrun
    have hinv' : WriterInv w' := hinv.step ⟨_, hrefused⟩
    have hlast := (settlesAborted_of_refused hinv hrefused hthree hopen).run hinv' hrun
    refine ⟨hlast.2.symm.imp_left And.left, fun hidle => ?_, hlast.closes (hinv'.run hrun)⟩
    obtain haborted | ⟨-, drain, hcloser⟩ := hlast.2
    · exact haborted
    · rw [hidle.2] at hcloser
      cases hcloser

/-- Two refusals of a part with no fields, and a third drain. -/
def refusedTwice : List WriterAction :=
  [.opened, .settled, .append [[]], .tick, .answered false, .settled, .tick, .answered false,
    .settled, .tick]

theorem sessionWriter_delivers_refused :
    ∃ w, Steps.perform Writer.step refusedTwice {} = some w ∧ w.stored <+: w.appended ∧
      ∃ w', w.step (.answered false) = some w' ∧
        ∃ closed, WriterRun w' closed ∧ closed.streamClosed = some .aborted := by
  obtain ⟨w, hperform, w', hrefused, hthree, hopen⟩ :
      ∃ w, Steps.perform Writer.step refusedTwice {} = some w ∧ ∃ w',
        w.step (.answered false) = some w' ∧ [false, false, false] <+: w'.answers ∧
          w.streamClosed = none := ⟨_, rfl, _, rfl, ⟨[], rfl⟩, rfl⟩
  have hdelivers := sessionWriter_delivers (Steps.run_of_perform hperform)
  exact ⟨w, hperform, hdelivers.1, w', hrefused,
    (hdelivers.2.2 w' hrefused hthree hopen w' .refl).2.2⟩

/-- The stream is being closed `completed`, and a part that comes then is refused three times. -/
def refusedLate : List WriterAction :=
  [.opened, .settled, .close .completed, .append [[]], .tick, .answered false, .settled, .tick,
    .answered false, .settled, .tick, .answered false, .settled, .closed]

theorem not_aborted_after_failures :
    ¬ ∀ w, WriterReached w → [false, false, false] <+: w.answers → w.Idle →
      w.streamClosed = some .aborted := by
  intro hall
  obtain ⟨w, hperform, hthree, hidle, hcompleted⟩ :
      ∃ w, Steps.perform Writer.step refusedLate {} = some w ∧
        [false, false, false] <+: w.answers ∧ w.Idle ∧ w.streamClosed = some .completed :=
    ⟨_, rfl, ⟨[], rfl⟩, ⟨rfl, rfl⟩, rfl⟩
  have haborted := hall w (Steps.run_of_perform hperform) hthree hidle
  rw [hcompleted] at haborted
  cases haborted

end Autobuild
