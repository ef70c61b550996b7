/-
# The windows of a repository view

A view keeps of every log a window of events, which reads of the log extend and appends through the
view are folded into.  Reads of a log, and appends to a build, wait for each other on a chain;
appends to the journal do not.  A backing call takes effect at some moment before its reply, and
replies come in any order.

* `LogView.step`: one log of the view, from one await to the next.
* `WindowOk`: a window is a contiguous part of its log.
* `ViewOk`: the invariant.  A window that is not dirty has every event that the view was told of
  (`ViewOk.current`), and a read under way will have them when it goes on (`Sees`).

An append to the journal that is answered between the moment of a read and its reply is forgotten,
for the read clears the mark that the answer set (`view_loses_append`); and a release above a read
that is under way takes events from it.  Apart from that every read has what was written before it
was called (`read_your_writes`).
-/
import Mathlib.Data.List.Basic
import Mathlib.Data.List.Induction
import Mathlib.Logic.Function.Basic
import Mathlib.Order.Lattice

namespace Autobuild.RepoViewWindows

variable {ε : Type}

/-! ## 1. Logs -/

structure ViewEvent (ε : Type) where
  seq : Nat
  payload : ε
  deriving DecidableEq

/-- The seqs of a log are its places. -/
def LogOk (log : List (ViewEvent ε)) : Prop := ∀ i event, log[i]? = some event → event.seq = i + 1

/-- The events that an append of payloads commits. -/
def committed (length : Nat) : List ε → List (ViewEvent ε)
  | [] => []
  | payload :: payloads => ⟨length + 1, payload⟩ :: committed (length + 1) payloads

/-- `backing.getEvents(log, since)`. -/
def eventsAfter (log : List (ViewEvent ε)) (since : Nat) : List (ViewEvent ε) :=
  log.filter fun event => since < event.seq

/-- The events with `since < seq <= upTo`. -/
def between (log : List (ViewEvent ε)) (since upTo : Nat) : List (ViewEvent ε) :=
  log.filter fun event => since < event.seq ∧ event.seq ≤ upTo

section Logs

variable {log : List (ViewEvent ε)} {event : ViewEvent ε} {a b c : Nat}

theorem logOk_nil : LogOk ([] : List (ViewEvent ε)) := fun _ _ h => by simp at h

theorem logOk_append_singleton :
    LogOk (log ++ [event]) ↔ LogOk log ∧ event.seq = log.length + 1 := by
  constructor
  · intro h
    constructor
    · intro i other hother
      refine h i other ?_
      rw [List.getElem?_append_left (List.getElem?_eq_some_iff.mp hother).1, hother]
    · exact h log.length event (by simp)
  · rintro ⟨hlog, hseq⟩ i other hother
    by_cases hi : i < log.length
    · rw [List.getElem?_append_left hi] at hother
      exact hlog i other hother
    · have hlast : i = log.length := by
        have hlt := (List.getElem?_eq_some_iff.mp hother).1
        rw [List.length_append, List.length_singleton] at hlt
        omega
      subst hlast
      simp only [List.getElem?_concat_length, Option.some.injEq] at hother
      rw [← hother, hseq]

theorem LogOk.seq_le (h : LogOk log) (hevent : event ∈ log) : event.seq ≤ log.length := by
  obtain ⟨i, hi⟩ := List.mem_iff_getElem?.mp hevent
  have hseq := h i event hi
  have hlt := (List.getElem?_eq_some_iff.mp hi).1
  omega

theorem LogOk.append_committed (h : LogOk log) (payloads : List ε) :
    LogOk (log ++ committed log.length payloads) := by
  induction payloads generalizing log with
  | nil => rwa [committed, List.append_nil]
  | cons payload payloads ih =>
    have hnext : LogOk (log ++ [⟨log.length + 1, payload⟩]) := logOk_append_singleton.mpr ⟨h, rfl⟩
    have hrest := ih hnext
    rwa [List.length_append, List.length_singleton, List.append_assoc] at hrest

theorem eventsAfter_eq_drop (h : LogOk log) (since : Nat) :
    eventsAfter log since = log.drop since := by
  induction log using List.reverseRecOn with
  | nil => simp [eventsAfter]
  | append_singleton log event ih =>
    obtain ⟨hlog, hseq⟩ := logOk_append_singleton.mp h
    have hih := ih hlog
    rw [eventsAfter] at hih ⊢
    rw [List.filter_append, hih]
    by_cases hlt : since < event.seq
    · rw [List.filter_singleton, decide_eq_true hlt, List.drop_append_of_le_length (by omega)]
      rfl
    · rw [List.filter_singleton, decide_eq_false hlt, List.drop_eq_nil_of_le (by omega),
        List.drop_eq_nil_of_le (by rw [List.length_append, List.length_singleton]; omega)]
      rfl

theorem eventsAfter_eq_between (h : LogOk log) (since : Nat) :
    eventsAfter log since = between log since log.length := by
  refine List.filter_congr fun event hevent => ?_
  have hle := h.seq_le hevent
  simp [hle]

theorem between_of_le (h : b ≤ a) : between log a b = [] := by
  refine List.filter_eq_nil_iff.mpr fun event _ => ?_
  simp only [decide_eq_true_eq]
  omega

theorem mem_between : event ∈ between log a b ↔ event ∈ log ∧ a < event.seq ∧ event.seq ≤ b := by
  simp [between]

theorem filter_between (f : Nat) :
    (between log a b).filter (fun event => f < event.seq) = between log (max a f) b := by
  rw [between, List.filter_filter, between]
  refine List.filter_congr fun event _ => ?_
  rw [← Bool.decide_and, decide_eq_decide, Nat.max_lt]
  tauto

theorem between_append (h : LogOk log) (hac : a ≤ c) (hcb : c ≤ b) :
    between log a c ++ between log c b = between log a b := by
  induction log using List.reverseRecOn with
  | nil => rfl
  | append_singleton log event ih =>
    obtain ⟨hlog, hseq⟩ := logOk_append_singleton.mp h
    have hih := ih hlog
    have hsplit : ∀ x y, between (log ++ [event]) x y =
        between log x y ++ if x < event.seq ∧ event.seq ≤ y then [event] else [] := by
      intro x y
      rw [between, List.filter_append, List.filter_singleton, ← between]
      by_cases hin : x < event.seq ∧ event.seq ≤ y
      · rw [if_pos hin, decide_eq_true hin]
        rfl
      · rw [if_neg hin, decide_eq_false hin]
        rfl
    rw [hsplit, hsplit, hsplit, ← hih]
    by_cases hlow : event.seq ≤ c
    · -- Everything before is at most `c` as well.
      have hempty : between log c b = [] := by
        refine List.filter_eq_nil_iff.mpr fun other hother => ?_
        have hle := hlog.seq_le hother
        simp only [decide_eq_true_eq]
        omega
      rw [hempty, if_neg (by omega : ¬(c < event.seq ∧ event.seq ≤ b)), List.append_nil,
        List.append_nil, List.append_nil]
      refine congrArg (between log a c ++ ·) (if_congr ?_ rfl rfl)
      omega
    · rw [if_neg (by omega : ¬(a < event.seq ∧ event.seq ≤ c)), List.append_nil, List.append_assoc]
      refine congrArg (between log a c ++ ·) (congrArg (between log c b ++ ·) (if_congr ?_ rfl rfl))
      omega

theorem between_succ (h : LogOk log) (hevent : event ∈ log) (hseq : event.seq = c + 1) :
    between log c (c + 1) = [event] := by
  obtain ⟨i, hi⟩ := List.mem_iff_getElem?.mp hevent
  obtain ⟨hlt, hget⟩ := List.getElem?_eq_some_iff.mp hi
  have hplace : i = c := by
    have hindex := h i event hi
    omega
  subst hplace
  have hsplit : between log i (i + 1) ++ log.drop (i + 1) = [event] ++ log.drop (i + 1) := by
    calc between log i (i + 1) ++ log.drop (i + 1)
        = between log i (i + 1) ++ between log (i + 1) log.length := by
          rw [← eventsAfter_eq_between h, eventsAfter_eq_drop h]
      _ = eventsAfter log i := by
          rw [between_append h (Nat.le_succ i) hlt, eventsAfter_eq_between h]
      _ = [event] ++ log.drop (i + 1) := by
          rw [eventsAfter_eq_drop h, List.drop_eq_getElem_cons hlt, hget, List.singleton_append]
  exact List.append_cancel_right hsplit

theorem between_grow {log' : List (ViewEvent ε)} (h : LogOk (log ++ log'))
    (hb : b ≤ log.length ∨ b ≤ a) : between (log ++ log') a b = between log a b := by
  rw [between, List.filter_append, ← between]
  have hempty : log'.filter (fun event => a < event.seq ∧ event.seq ≤ b) = [] := by
    refine List.filter_eq_nil_iff.mpr fun event hevent => ?_
    obtain ⟨i, hi⟩ := List.mem_iff_getElem?.mp hevent
    have hseq := h (log.length + i) event (by rw [List.getElem?_append_right (by omega)]; simpa)
    simp only [decide_eq_true_eq]
    omega
  rw [hempty, List.append_nil]

theorem exists_head (h : LogOk log) (hab : a < b) (hb : b ≤ log.length) :
    ∃ event, between log a b = event :: between log (a + 1) b ∧ event.seq = a + 1 := by
  have hlt : a < log.length := by omega
  have hseq := h a log[a] (List.getElem?_eq_getElem hlt)
  refine ⟨log[a], ?_, hseq⟩
  rw [← between_append h (Nat.le_succ a) hab, between_succ h (List.getElem_mem hlt) hseq,
    List.singleton_append]

theorem exists_last (h : LogOk log) (hab : a < b) (hb : b ≤ log.length) :
    ∃ event, between log a b = between log a (b - 1) ++ [event] ∧ event.seq = b := by
  obtain ⟨c, rfl⟩ : ∃ c, b = c + 1 := ⟨b - 1, by omega⟩
  have hlt : c < log.length := by omega
  have hseq := h c log[c] (List.getElem?_eq_getElem hlt)
  refine ⟨log[c], ?_, hseq⟩
  rw [Nat.add_sub_cancel, ← between_append h (Nat.le_of_lt_succ hab) (Nat.le_succ c),
    between_succ h (List.getElem_mem hlt) hseq]

end Logs

/-! ## 2. One log of the view -/

/-- `lower` is the source's `from`. -/
structure RawWindow (ε : Type) where
  lower : Nat
  cursor : Nat
  events : List (ViewEvent ε)
  epoch : Nat
  dirty : Bool

/-- Why a read asks the backing store: it has no window to use, it continues one, or what it was
given does not continue it and it asks for the whole of it. -/
inductive ReadStage
  | fresh
  | delta
  | again
  deriving DecidableEq

/-- A read that waits for the events after `asked`; `floor` is what was resolved when it was called,
and the reply is there from the moment at which the backing store takes it. -/
structure Reading (ε : Type) where
  since : Nat
  floor : Nat
  stage : ReadStage
  asked : Nat
  reply : Option (List (ViewEvent ε))

/-- What waits on a chain.  The facts are read after an append to the journal, which they settle. -/
inductive ViewTask (ε : Type)
  | read (since floor : Nat)
  | append (payload : ε) (expected : Option Nat)
  | facts (settles : Nat)

inductive ActiveTask (ε : Type)
  | read (reading : Reading ε)
  | append (payload : ε) (expected : Option Nat) (result : Option (Option (ViewEvent ε)))
  | facts (settles : Nat)

structure Returned (ε : Type) where
  since : Nat
  floor : Nat
  events : List (ViewEvent ε)

/-- One log, what the view keeps of it and its chain.  The appends to the journal are on no chain:
`due` are those that took effect and whose replies are under way.  `answered` is the last seq that
the view was told of, `resolved` the last whose call has returned. -/
structure LogView (ε : Type) where
  log : List (ViewEvent ε)
  window : Option (RawWindow ε)
  queue : List (ViewTask ε)
  active : Option (ActiveTask ε)
  due : List (List (ViewEvent ε))
  answered : Nat
  resolved : Nat
  returned : List (Returned ε)

def LogView.initial : LogView ε := ⟨[], none, [], none, [], 0, 0, []⟩

inductive LogAct (ε : Type)
  | read (since : Nat)
  | append (payload : ε) (expected : Option Nat)
  | refreshFacts
  | start
  | execute
  | handle
  | fail
  | commit (payloads : List ε)
  | deliver (i : Nat)
  | lose (i : Nat)
  | passed (since : Nat)
  | outside (payloads : List ε)
  | release (minCursor : Nat)

def lastSeq (events : List (ViewEvent ε)) : Option Nat := events.getLast?.map (·.seq)

theorem lastSeq_between {log : List (ViewEvent ε)} {a b : Nat} (h : LogOk log) (hab : a < b)
    (hb : b ≤ log.length) : lastSeq (between log a b) = some b := by
  obtain ⟨event, hevents, hseq⟩ := exists_last h hab hb
  rw [lastSeq, hevents, List.getLast?_append, List.getLast?_singleton, Option.some_or,
    Option.map_some, hseq]

theorem lastSeq_between_of_le {log : List (ViewEvent ε)} {a b : Nat} (hba : b ≤ a) :
    lastSeq (between log a b) = none := by
  rw [between_of_le hba]
  rfl

def RawWindow.markDirty (window : RawWindow ε) : RawWindow ε := { window with dirty := true }

/-- `foldBuildAppend` and `foldJournalAppend`, which are the same of their windows. -/
def foldAppend (window : RawWindow ε) (event : ViewEvent ε) : RawWindow ε :=
  if event.seq ≤ window.cursor then window
  else if event.seq ≠ window.cursor + 1 then window.markDirty
  else { window with events := window.events ++ [event], cursor := event.seq }

/-- `releaseWindowsBelow`. -/
def RawWindow.releaseBelow (minCursor : Nat) (window : RawWindow ε) : RawWindow ε :=
  if minCursor ≤ window.lower then window
  else
    { window with
      events := window.events.filter fun event => minCursor < event.seq
      lower := minCursor
      cursor := max window.cursor minCursor }

namespace LogView

/-- A read returns from its window. -/
def answer (view : LogView ε) (since floor : Nat) (window : RawWindow ε) : LogView ε :=
  { view with
    window := some window
    active := none
    returned := ⟨since, floor, window.events.filter fun event => since < event.seq⟩ ::
      view.returned }

def ask (view : LogView ε) (since floor : Nat) (stage : ReadStage) (asked : Nat) : LogView ε :=
  { view with active := some (.read ⟨since, floor, stage, asked, none⟩) }

/-- `getEvents` and `getRepoEvents` when their turn on the chain comes. -/
def startRead (epoch : Nat) (view : LogView ε) (since floor : Nat) : LogView ε :=
  match view.window with
  | none => view.ask since floor .fresh since
  | some window =>
    if since < window.lower then view.ask since floor .fresh since
    else if window.dirty = true ∨ window.epoch ≠ epoch then
      view.ask since floor .delta window.cursor
    else view.answer since floor window

def startTask (epoch : Nat) (view : LogView ε) : ViewTask ε → LogView ε
  | .read since floor => view.startRead epoch since floor
  | .append payload expected => { view with active := some (.append payload expected none) }
  | .facts settles => { view with active := some (.facts settles) }

def start (epoch : Nat) (view : LogView ε) : LogView ε :=
  match view.active, view.queue with
  | none, task :: queue => { view with queue := queue }.startTask epoch task
  | _, _ => view

def extend (view : LogView ε) (payloads : List ε) : LogView ε :=
  { view with log := view.log ++ committed view.log.length payloads }

/-- The moment at which the backing call of the active task takes effect. -/
def execute (view : LogView ε) : LogView ε :=
  match view.active with
  | some (.read reading) =>
    match reading.reply with
    | none =>
      { view with
        active := some (.read { reading with
          reply := some (eventsAfter view.log reading.asked) }) }
    | some _ => view
  | some (.append payload expected none) =>
    if expected.all (· == view.log.length) then
      { view.extend [payload] with
        active := some (.append payload expected (some (some ⟨view.log.length + 1, payload⟩))) }
    else { view with active := some (.append payload expected (some none)) }
  | _ => view

/-- A read goes on with the reply to its backing call. -/
def handleRead (epoch : Nat) (view : LogView ε) (reading : Reading ε)
    (reply : List (ViewEvent ε)) : LogView ε :=
  match reading.stage, view.window with
  | .fresh, _ =>
    view.answer reading.since reading.floor
      ⟨reading.since, max reading.since ((lastSeq reply).getD 0), reply, epoch, false⟩
  | .delta, some window =>
    if reply.zipIdx.any fun (event, index) => event.seq != window.cursor + index + 1 then
      view.ask reading.since reading.floor .again window.lower
    else
      view.answer reading.since reading.floor
        { window with
          events := window.events ++ reply
          cursor := (lastSeq reply).getD window.cursor
          epoch := epoch
          dirty := false }
  | .again, some window =>
    view.answer reading.since reading.floor
      { window with
        events := reply
        cursor := (lastSeq reply).getD window.cursor
        epoch := epoch
        dirty := false }
  | _, none => view

/-- The reply to the backing call of the active task. -/
def handle (epoch : Nat) (view : LogView ε) : LogView ε :=
  match view.active with
  | some (.read reading) =>
    match reading.reply with
    | some reply => view.handleRead epoch reading reply
    | none => view
  | some (.append _ _ (some (some event))) =>
    { view with
      window := view.window.map (foldAppend · event)
      active := none
      answered := max view.answered event.seq
      resolved := max view.resolved event.seq }
  | some (.append _ _ (some none)) =>
    { view with window := view.window.map .markDirty, active := none }
  | some (.append _ _ none) => view
  | some (.facts settles) =>
    { view with active := none, resolved := max view.resolved settles }
  | none => view

/-- `appendRepo` and `finishRepoTick` after their backing calls: the events are folded, and the
facts that they wait for are read behind whatever is on the chain. -/
def deliver (view : LogView ε) (i : Nat) : LogView ε :=
  match view.due[i]? with
  | none => view
  | some [] => { view with due := view.due.eraseIdx i }
  | some (event :: events) =>
    { view with
      due := view.due.eraseIdx i
      window := view.window.map fun window => ((event :: events).foldl foldAppend window).markDirty
      queue := view.queue ++ [.facts ((lastSeq (event :: events)).getD 0)]
      answered := max view.answered ((lastSeq (event :: events)).getD 0) }

def step (epoch : Nat) (view : LogView ε) : LogAct ε → LogView ε
  | .read since => { view with queue := view.queue ++ [.read since view.resolved] }
  | .append payload expected => { view with queue := view.queue ++ [.append payload expected] }
  | .refreshFacts =>
    { view with
      window := view.window.map .markDirty
      queue := view.queue ++ [.facts 0] }
  | .start => view.start epoch
  | .execute => view.execute
  | .handle => view.handle epoch
  | .fail => { view with active := none }
  | .commit payloads =>
    { view.extend payloads with due := view.due ++ [committed view.log.length payloads] }
  | .deliver i => view.deliver i
  | .lose i => { view with due := view.due.eraseIdx i }
  -- A read that waits, or of another repository, is the backing store's own.
  | .passed since =>
    { view with returned := ⟨since, view.resolved, eventsAfter view.log since⟩ :: view.returned }
  | .outside payloads => view.extend payloads
  | .release minCursor => { view with window := view.window.map (.releaseBelow minCursor) }

end LogView

/-! ## 3. The view -/

inductive LogKey
  | journal
  | build (slug : String)
  deriving DecidableEq

/-- Appends to a build wait on its chain; appends to the journal do not wait, and only the journal
has facts to refresh. -/
def LogAct.belongs : LogKey → LogAct ε → Bool
  | .journal, .append _ _ => false
  | .build _, .refreshFacts => false
  | .build _, .commit _ => false
  | _, _ => true

structure RepoViewStore (ε : Type) where
  epoch : Nat
  views : LogKey → LogView ε

def RepoViewStore.initial : RepoViewStore ε := ⟨0, fun _ => .initial⟩

inductive ViewAct (ε : Type)
  | refresh
  | act (key : LogKey) (act : LogAct ε)

def RepoViewStore.step (store : RepoViewStore ε) : ViewAct ε → RepoViewStore ε
  | .refresh =>
    { epoch := store.epoch + 1
      views := Function.update store.views .journal
        ((store.views .journal).step (store.epoch + 1) .refreshFacts) }
  | .act key act =>
    if act.belongs key = true then
      { store with
        views := Function.update store.views key ((store.views key).step store.epoch act) }
    else store

def RepoViewStore.run (acts : List (ViewAct ε)) : RepoViewStore ε := acts.foldl .step .initial

/-- A read returned the events with `since < seq <= h` of its log, and `h` is no less than the seq
of any event whose append through the view had resolved before the read was called. -/
def ReadsOwn (log : List (ViewEvent ε)) (returned : Returned ε) : Prop :=
  ∃ h, returned.floor ≤ h ∧ returned.events = between log returned.since h

/-- A window that a read continues sees to an event that the read's reply lacks: behind an empty
reply the window has to have the event, and behind another one to have gone on by itself, which
makes the read ask again. -/
def RawWindow.SeesTo (window : RawWindow ε) (asked : Nat) (reply : List (ViewEvent ε))
    (seq : Nat) : Prop :=
  (reply = [] → seq ≤ window.cursor) ∧ (reply ≠ [] → asked < window.cursor)

/-- The steps that keep what is answered: a read that has its reply and has not gone on with it is
not overtaken by an append that the reply lacks, and what a read under way continues is not released
above it. -/
def LogView.Keeps (view : LogView ε) : LogAct ε → Prop
  | .deliver i => ∀ reading reply events, view.active = some (.read reading) →
      reading.reply = some reply → view.due[i]? = some events → ∀ event ∈ events,
        event.seq ≤ reading.asked ∨ event ∈ reply ∨ reading.stage = .delta ∧
          ∃ window, view.window = some window ∧
            (events.foldl foldAppend window).SeesTo reading.asked reply event.seq
  | .release minCursor => ∀ reading, view.active = some (.read reading) →
      reading.stage ≠ .fresh → minCursor ≤ reading.since
  | _ => True

def RepoViewStore.Keeps (store : RepoViewStore ε) : ViewAct ε → Prop
  | .refresh => True
  | .act key act => (store.views key).Keeps act

def RepoViewStore.KeepsAll (store : RepoViewStore ε) : List (ViewAct ε) → Prop
  | [] => True
  | act :: acts => store.Keeps act ∧ (store.step act).KeepsAll acts

/-! ## 4. The invariant -/

/-- A window has the events of its log that are after `lower` and up to its cursor. -/
structure WindowOk (log : List (ViewEvent ε)) (window : RawWindow ε) : Prop where
  cursor_le : window.cursor ≤ max log.length window.lower
  events : window.events.filter (fun event => window.lower < event.seq) =
    between log window.lower window.cursor

/-- What was answered is in the reply to a read or was there before, or the window sees to it. -/
def Sees (window : Option (RawWindow ε)) (reading : Reading ε) (reply : List (ViewEvent ε))
    (upTo seq : Nat) : Prop :=
  seq ≤ max upTo reading.asked ∨
    reading.stage = .delta ∧ ∃ current, window = some current ∧
      current.SeesTo reading.asked reply seq

theorem Sees.le_of_not_delta {window : Option (RawWindow ε)} {reading : Reading ε}
    {reply : List (ViewEvent ε)} {upTo seq : Nat} (h : Sees window reading reply upTo seq)
    (hstage : reading.stage ≠ .delta) : seq ≤ max upTo reading.asked :=
  h.resolve_right fun hdelta => hstage hdelta.1

theorem Sees.map {window : Option (RawWindow ε)} {reading : Reading ε} {reply : List (ViewEvent ε)}
    {upTo seq : Nat} {f : RawWindow ε → RawWindow ε} (h : Sees window reading reply upTo seq)
    (hf : ∀ current, window = some current → current.cursor ≤ (f current).cursor) :
    Sees (window.map f) reading reply upTo seq := by
  rcases h with hle | ⟨hstage, current, hcurrent, hempty, hmore⟩
  · exact .inl hle
  · have hcursor := hf current hcurrent
    exact .inr ⟨hstage, f current, by rw [hcurrent, Option.map_some],
      fun hreply => (hempty hreply).trans hcursor, fun hreply => (hmore hreply).trans_le hcursor⟩

/-- The reply to a read has the events up to some moment, and nothing that was answered is missed
when the read goes on with it. -/
structure ReplyOk (log : List (ViewEvent ε)) (window : Option (RawWindow ε)) (answered : Nat)
    (reading : Reading ε) (reply : List (ViewEvent ε)) (upTo : Nat) : Prop where
  upTo_le : upTo ≤ log.length
  events : reply = between log reading.asked upTo
  sees : Sees window reading reply upTo answered

/-- The window that a read continues. -/
def Continues (reading : Reading ε) (window : RawWindow ε) : Prop :=
  window.lower ≤ reading.since ∧
    match reading.stage with
    | .fresh => True
    | .delta => reading.asked ≤ window.cursor
    | .again => reading.asked ≤ window.lower

theorem Continues.mono {reading : Reading ε} {window changed : RawWindow ε}
    (h : Continues reading window) (hlower : window.lower ≤ changed.lower)
    (hsince : changed.lower ≤ reading.since) (hcursor : window.cursor ≤ changed.cursor) :
    Continues reading changed := by
  refine ⟨hsince, ?_⟩
  have hasked := h.2
  cases hstage : reading.stage with
  | fresh => trivial
  | delta =>
    rw [hstage] at hasked
    exact hasked.trans hcursor
  | again =>
    rw [hstage] at hasked
    exact hasked.trans hlower

def ActiveOk (log : List (ViewEvent ε)) (window : Option (RawWindow ε)) (answered : Nat) :
    ActiveTask ε → Prop
  | .read reading =>
    reading.floor ≤ answered ∧
      (reading.stage = .fresh → reading.asked = reading.since) ∧
      (reading.stage ≠ .fresh → ∃ current, window = some current ∧ Continues reading current) ∧
      ∀ reply, reading.reply = some reply → ∃ upTo, ReplyOk log window answered reading reply upTo ∧
        (reading.stage = .again → ∀ current, window = some current →
          current.cursor ≤ max upTo current.lower)
  | .append _ _ result => ∀ event, result = some (some event) → event ∈ log
  | .facts settles => settles ≤ answered

/-- `ReadsOwn`, with the events that the log has. -/
def ReadsWithin (log : List (ViewEvent ε)) (returned : Returned ε) : Prop :=
  ∃ h, returned.floor ≤ h ∧ h ≤ log.length ∧ returned.events = between log returned.since h

def TaskOk (answered : Nat) : ViewTask ε → Prop
  | .read _ floor => floor ≤ answered
  | .append _ _ => True
  | .facts settles => settles ≤ answered

structure ViewOk (view : LogView ε) : Prop where
  log : LogOk view.log
  answered : view.answered ≤ view.log.length
  resolved : view.resolved ≤ view.answered
  window : ∀ window, view.window = some window → WindowOk view.log window
  current : ∀ window, view.window = some window → window.dirty = false →
    view.answered ≤ max window.cursor window.lower
  queue : ∀ task ∈ view.queue, TaskOk view.answered task
  active : ∀ active, view.active = some active →
    ActiveOk view.log view.window view.answered active
  due : ∀ events ∈ view.due, ∀ event ∈ events, event ∈ view.log
  returned : ∀ returned ∈ view.returned, ReadsWithin view.log returned

section Windows

variable {log more : List (ViewEvent ε)} {window : RawWindow ε} {event : ViewEvent ε}

theorem WindowOk.grow (h : WindowOk log window) (hlog : LogOk (log ++ more)) :
    WindowOk (log ++ more) window := by
  have hcursor := h.cursor_le
  refine ⟨?_, ?_⟩
  · rw [List.length_append]
    omega
  · rw [h.events, between_grow hlog (by omega)]

theorem WindowOk.markDirty (h : WindowOk log window) : WindowOk log window.markDirty :=
  ⟨h.cursor_le, h.events⟩

theorem foldAppend_lower : (foldAppend window event).lower = window.lower := by
  unfold foldAppend
  split
  · rfl
  · split <;> rfl

theorem cursor_le_foldAppend : window.cursor ≤ (foldAppend window event).cursor := by
  unfold foldAppend
  split
  · exact Nat.le_refl _
  · split
    · exact Nat.le_refl _
    · simp only
      omega

theorem foldAppend_cursor_le :
    (foldAppend window event).cursor ≤ max window.cursor event.seq := by
  unfold foldAppend
  split
  · exact Nat.le_max_left _ _
  · split
    · exact Nat.le_max_left _ _
    · exact Nat.le_max_right _ _

/-- A window that is not made dirty has the event. -/
theorem foldAppend_current (h : (foldAppend window event).dirty = false) :
    window.dirty = false ∧ event.seq ≤ (foldAppend window event).cursor := by
  unfold foldAppend at h ⊢
  split
  next hle =>
    rw [if_pos hle] at h
    exact ⟨h, hle⟩
  next hle =>
    rw [if_neg hle] at h
    split
    next hne =>
      rw [if_pos hne] at h
      exact Bool.noConfusion h
    next hne =>
      rw [if_neg hne] at h
      exact ⟨h, Nat.le_refl _⟩

theorem WindowOk.fold (h : WindowOk log window) (hlog : LogOk log) (hevent : event ∈ log) :
    WindowOk log (foldAppend window event) := by
  have hseq := hlog.seq_le hevent
  unfold foldAppend
  split
  · exact h
  · split
    · exact h.markDirty
    next hlt hnext =>
      have hnext : event.seq = window.cursor + 1 := not_not.mp hnext
      refine ⟨hseq.trans (Nat.le_max_left _ _), ?_⟩
      simp only
      rw [List.filter_append, h.events, List.filter_singleton, hnext]
      by_cases hlower : window.lower ≤ window.cursor
      · rw [decide_eq_true (by omega : window.lower < window.cursor + 1),
          ← between_append hlog hlower (Nat.le_succ _), between_succ hlog hevent hnext]
        rfl
      · rw [decide_eq_false (by omega : ¬window.lower < window.cursor + 1),
          between_of_le (by omega), between_of_le (by omega)]
        rfl

theorem WindowOk.folds {events : List (ViewEvent ε)} (hlog : LogOk log)
    (hevents : ∀ event ∈ events, event ∈ log) (h : WindowOk log window) :
    WindowOk log (events.foldl foldAppend window) := by
  induction events generalizing window with
  | nil => exact h
  | cons event events ih =>
    exact ih (fun other hother => hevents other (List.mem_cons_of_mem _ hother))
      (h.fold hlog (hevents event List.mem_cons_self))

theorem foldAppends_lower {events : List (ViewEvent ε)} :
    (events.foldl foldAppend window).lower = window.lower := by
  induction events generalizing window with
  | nil => rfl
  | cons event events ih => rw [List.foldl_cons, ih, foldAppend_lower]

theorem cursor_le_foldAppends {events : List (ViewEvent ε)} :
    window.cursor ≤ (events.foldl foldAppend window).cursor := by
  induction events generalizing window with
  | nil => exact Nat.le_refl _
  | cons event events ih => exact cursor_le_foldAppend.trans ih

theorem foldAppends_cursor_le {events : List (ViewEvent ε)} {bound : Nat}
    (hwindow : window.cursor ≤ bound) (hevents : ∀ event ∈ events, event.seq ≤ bound) :
    (events.foldl foldAppend window).cursor ≤ bound := by
  induction events generalizing window with
  | nil => exact hwindow
  | cons event events ih =>
    refine ih ?_ fun other hother => hevents other (List.mem_cons_of_mem _ hother)
    exact foldAppend_cursor_le.trans
      (Nat.max_le.mpr ⟨hwindow, hevents event List.mem_cons_self⟩)

theorem WindowOk.releaseBelow (minCursor : Nat) (h : WindowOk log window) :
    WindowOk log (window.releaseBelow minCursor) := by
  have hcursor := h.cursor_le
  unfold RawWindow.releaseBelow
  split
  · exact h
  next hlt =>
    refine ⟨?_, ?_⟩
    · simp only
      omega
    · simp only
      rw [List.filter_filter]
      have hsub : window.events.filter
            (fun event => decide (minCursor < event.seq) && decide (minCursor < event.seq)) =
          (window.events.filter fun event => window.lower < event.seq).filter
            fun event => minCursor < event.seq := by
        rw [List.filter_filter]
        refine List.filter_congr fun event _ => ?_
        by_cases hmin : minCursor < event.seq
        · simp [hmin]
          omega
        · simp [hmin]
      rw [hsub, h.events, filter_between]
      by_cases hle : minCursor ≤ window.cursor
      · rw [Nat.max_eq_right (by omega), Nat.max_eq_left hle]
      · rw [between_of_le (by omega), between_of_le (by omega)]

/-- What a window gives to a read that is not below it. -/
theorem WindowOk.readsWithin {answered since floor : Nat} (h : WindowOk log window)
    (hsince : window.lower ≤ since) (hanswered : answered ≤ log.length)
    (hcurrent : answered ≤ max window.cursor window.lower) (hfloor : floor ≤ answered) :
    ReadsWithin log ⟨since, floor, window.events.filter fun event => since < event.seq⟩ := by
  have hcursor := h.cursor_le
  have hevents : window.events.filter (fun event => since < event.seq) =
      between log since window.cursor := by
    have hsub : window.events.filter (fun event => since < event.seq) =
        (window.events.filter fun event => window.lower < event.seq).filter
          fun event => since < event.seq := by
      rw [List.filter_filter]
      refine List.filter_congr fun event _ => ?_
      by_cases hin : since < event.seq
      · simp [hin]
        omega
      · simp [hin]
    rw [hsub, h.events, filter_between, Nat.max_eq_right hsince]
  rw [hevents]
  by_cases hin : answered ≤ window.cursor ∧ window.cursor ≤ log.length
  · exact ⟨window.cursor, hfloor.trans hin.1, hin.2, rfl⟩
  · -- The window is above the log, and so is the read.
    refine ⟨answered, hfloor, hanswered, ?_⟩
    simp only
    rw [between_of_le (by omega), between_of_le (by omega)]

end Windows

/-! ## 5. What a step preserves -/

section Active

variable {log more : List (ViewEvent ε)} {window : Option (RawWindow ε)} {answered : Nat}

theorem ReplyOk.grow {reading : Reading ε} {upTo : Nat} {reply : List (ViewEvent ε)}
    (h : ReplyOk log window answered reading reply upTo) (hlog : LogOk (log ++ more)) :
    ReplyOk (log ++ more) window answered reading reply upTo := by
  refine ⟨?_, ?_, h.sees⟩
  · rw [List.length_append]
    exact h.upTo_le.trans (Nat.le_add_right _ _)
  · rw [between_grow hlog (.inl h.upTo_le), h.events]

theorem ActiveOk.grow {active : ActiveTask ε} (h : ActiveOk log window answered active)
    (hlog : LogOk (log ++ more)) : ActiveOk (log ++ more) window answered active := by
  cases active with
  | read reading =>
    obtain ⟨hfloor, hfresh, hwindow, hreply⟩ := h
    refine ⟨hfloor, hfresh, hwindow, fun reply hsome => ?_⟩
    obtain ⟨upTo, hok, hagain⟩ := hreply reply hsome
    exact ⟨upTo, hok.grow hlog, hagain⟩
  | append payload expected result =>
    exact fun event hresult => List.mem_append_left _ (h event hresult)
  | facts settles => exact h

/-- The window is changed while a task is active. -/
theorem ActiveOk.map {active : ActiveTask ε} {answered' : Nat}
    {f : RawWindow ε → RawWindow ε} (h : ActiveOk log window answered active)
    (hanswered : answered ≤ answered')
    (hcontinues : ∀ reading current, active = .read reading → reading.stage ≠ .fresh →
      window = some current → Continues reading current → Continues reading (f current))
    (hreply : ∀ reading reply upTo, active = .read reading → reading.reply = some reply →
      ReplyOk log window answered reading reply upTo →
        Sees (window.map f) reading reply upTo answered' ∧
          ∀ current, reading.stage = .again → Continues reading current → window = some current →
            current.cursor ≤ max upTo current.lower →
              (f current).cursor ≤ max upTo (f current).lower) :
    ActiveOk log (window.map f) answered' active := by
  cases active with
  | read reading =>
    obtain ⟨hfloor, hfresh, hwindow, hreplies⟩ := h
    refine ⟨hfloor.trans hanswered, hfresh, fun hstage => ?_, fun reply hsome => ?_⟩
    · obtain ⟨current, hcurrent, hcont⟩ := hwindow hstage
      exact ⟨f current, by rw [hcurrent, Option.map_some],
        hcontinues reading current rfl hstage hcurrent hcont⟩
    · obtain ⟨upTo, hok, hagain⟩ := hreplies reply hsome
      obtain ⟨hsees, hcursor⟩ := hreply reading reply upTo rfl hsome hok
      refine ⟨upTo, ⟨hok.upTo_le, hok.events, hsees⟩, fun hstage changed hchanged => ?_⟩
      obtain ⟨current, hcurrent, hcont⟩ := hwindow (by rw [hstage]; exact ReadStage.noConfusion)
      rw [hcurrent, Option.map_some, Option.some.injEq] at hchanged
      subst hchanged
      exact hcursor current hstage hcont hcurrent (hagain hstage current hcurrent)
  | append payload expected result => exact h
  | facts settles => exact h.trans hanswered

/-- The events of an append are folded into the window that a read under way continues. -/
theorem ActiveOk.fold {reading : Reading ε} {events : List (ViewEvent ε)} {last : ViewEvent ε}
    (h : ActiveOk log window answered (.read reading)) (hlast : last ∈ events)
    (hkeeps : ∀ event ∈ events, ∀ reply, reading.reply = some reply →
      event.seq ≤ reading.asked ∨ event ∈ reply ∨ reading.stage = .delta ∧
        ∃ current, window = some current ∧
          (events.foldl foldAppend current).SeesTo reading.asked reply event.seq) :
    ActiveOk log (window.map fun current => (events.foldl foldAppend current).markDirty)
      (max answered last.seq) (.read reading) := by
  refine h.map (Nat.le_max_left _ _) ?_ ?_
  · intro _ current _ _ _ hcont
    exact hcont.mono (Nat.le_of_eq foldAppends_lower.symm)
      ((Nat.le_of_eq foldAppends_lower).trans hcont.1) cursor_le_foldAppends
  · rintro _ reply upTo ⟨⟩ hreply hok
    have hseen : ∀ event ∈ events, event.seq ≤ max upTo reading.asked ∨
        reading.stage = .delta ∧ ∃ current, window = some current ∧
          (events.foldl foldAppend current).SeesTo reading.asked reply event.seq := by
      intro event hevent
      rcases hkeeps event hevent reply hreply with hle | hin | hdelta
      · exact .inl (hle.trans (Nat.le_max_right _ _))
      · rw [hok.events] at hin
        exact .inl ((mem_between.mp hin).2.2.trans (Nat.le_max_left _ _))
      · exact .inr hdelta
    constructor
    · rcases Nat.le_total answered last.seq with hle | hle
      · rw [Nat.max_eq_right hle]
        rcases hseen last hlast with hin | ⟨hstage, current, hcurrent, hsees⟩
        · exact .inl hin
        · exact .inr ⟨hstage, (events.foldl foldAppend current).markDirty,
            by rw [hcurrent, Option.map_some], hsees⟩
      · rw [Nat.max_eq_left hle]
        exact hok.sees.map fun current _ => cursor_le_foldAppends
    · intro current hstage hcont hcurrent hcursor
      have hasked := hcont.2
      rw [hstage] at hasked
      have hbound : ∀ event ∈ events, event.seq ≤ max upTo current.lower := by
        intro event hevent
        rcases hseen event hevent with hin | ⟨hdelta, -⟩
        · omega
        · rw [hstage] at hdelta
          exact ReadStage.noConfusion hdelta
      have hfolded := foldAppends_cursor_le hcursor hbound
      have hlower := @foldAppends_lower ε current events
      simp only [RawWindow.markDirty]
      omega

end Active

theorem TaskOk.mono {answered answered' : Nat} {task : ViewTask ε} (h : TaskOk answered task)
    (hle : answered ≤ answered') : TaskOk answered' task := by
  cases task with
  | read since floor => exact h.trans hle
  | append payload expected => trivial
  | facts settles => exact h.trans hle

theorem ReadsWithin.grow {log more : List (ViewEvent ε)} {returned : Returned ε}
    (h : ReadsWithin log returned) (hlog : LogOk (log ++ more)) :
    ReadsWithin (log ++ more) returned := by
  obtain ⟨upTo, hfloor, hle, hevents⟩ := h
  refine ⟨upTo, hfloor, ?_, ?_⟩
  · rw [List.length_append]
    exact hle.trans (Nat.le_add_right _ _)
  · rw [between_grow hlog (.inl hle), hevents]

namespace ViewOk

variable {view : LogView ε} {epoch since floor : Nat}

theorem answer {window : RawWindow ε} (h : ViewOk view) (hwindow : WindowOk view.log window)
    (hsince : window.lower ≤ since) (hcurrent : view.answered ≤ max window.cursor window.lower)
    (hfloor : floor ≤ view.answered) : ViewOk (view.answer since floor window) where
  log := h.log
  answered := h.answered
  resolved := h.resolved
  window := by
    rintro _ ⟨⟩
    exact hwindow
  current := by
    rintro _ ⟨⟩ _
    exact hcurrent
  queue := h.queue
  active := fun _ hactive => nomatch hactive
  due := h.due
  returned := by
    intro returned hreturned
    rcases List.mem_cons.mp hreturned with rfl | hreturned
    · exact hwindow.readsWithin hsince h.answered hcurrent hfloor
    · exact h.returned returned hreturned

/-- A view whose active task is changed. -/
theorem activate {active : ActiveTask ε} (h : ViewOk view)
    (hactive : ActiveOk view.log view.window view.answered active) :
    ViewOk { view with active := some active } :=
  { h with
    active := by
      rintro _ ⟨⟩
      exact hactive }

theorem rest (h : ViewOk view) : ViewOk { view with active := none } :=
  { h with active := fun _ hactive => nomatch hactive }

theorem enqueue {task : ViewTask ε} (h : ViewOk view) (htask : TaskOk view.answered task) :
    ViewOk { view with queue := view.queue ++ [task] } :=
  { h with
    queue := by
      intro other hother
      rcases List.mem_append.mp hother with hother | hother
      · exact h.queue other hother
      · rw [List.mem_singleton] at hother
        exact hother ▸ htask }

theorem extend (h : ViewOk view) (payloads : List ε) : ViewOk (view.extend payloads) :=
  have hlog := h.log.append_committed payloads
  { log := hlog
    answered := by
      have hanswered := h.answered
      simp only [LogView.extend, List.length_append]
      omega
    resolved := h.resolved
    window := fun window hwindow => (h.window window hwindow).grow hlog
    current := h.current
    queue := h.queue
    active := fun active hactive => (h.active active hactive).grow hlog
    due := fun events hevents event hevent =>
      List.mem_append_left _ (h.due events hevents event hevent)
    returned := fun returned hreturned => (h.returned returned hreturned).grow hlog }

theorem ask {stage : ReadStage} {asked : Nat} (h : ViewOk view) (hfloor : floor ≤ view.answered)
    (hfresh : stage = .fresh → asked = since)
    (hcontinues : stage ≠ .fresh → ∃ current, view.window = some current ∧
      Continues ⟨since, floor, stage, asked, none⟩ current) :
    ViewOk (view.ask since floor stage asked) :=
  h.activate ⟨hfloor, hfresh, hcontinues, fun _ hreply => nomatch hreply⟩

theorem startRead (h : ViewOk view) (hfloor : floor ≤ view.answered) :
    ViewOk (view.startRead epoch since floor) := by
  have hfresh : ViewOk (view.ask since floor .fresh since) :=
    h.ask hfloor (fun _ => rfl) fun hstage => absurd rfl hstage
  unfold LogView.startRead
  split
  · exact hfresh
  next window hwindow =>
    split
    · exact hfresh
    next hlower =>
      split
      · exact h.ask hfloor ReadStage.noConfusion fun _ =>
          ⟨window, hwindow, not_lt.mp hlower, Nat.le_refl window.cursor⟩
      next hclean =>
        have hdirty : window.dirty = false := by
          rw [not_or, Bool.not_eq_true] at hclean
          exact hclean.1
        exact h.answer (h.window window hwindow) (not_lt.mp hlower)
          (h.current window hwindow hdirty) hfloor

theorem start (h : ViewOk view) : ViewOk (view.start epoch) := by
  unfold LogView.start
  split
  next task queue hactive hqueue =>
    have htask : TaskOk view.answered task :=
      h.queue task (by rw [hqueue]; exact List.mem_cons_self)
    have hrest : ViewOk { view with queue := queue } :=
      { h with queue := fun other hother =>
          h.queue other (by rw [hqueue]; exact List.mem_cons_of_mem _ hother) }
    cases task with
    | read since floor => exact hrest.startRead htask
    | append payload expected => exact hrest.activate fun _ hresult => nomatch hresult
    | facts settles => exact hrest.activate htask
  · exact h

theorem execute (h : ViewOk view) : ViewOk view.execute := by
  unfold LogView.execute
  split
  next reading hactive =>
    split
    next hnone =>
      obtain ⟨hfloor, hfresh, hwindow, -⟩ := h.active _ hactive
      refine h.activate ⟨hfloor, hfresh, hwindow, ?_⟩
      rintro _ ⟨⟩
      refine ⟨view.log.length, ⟨Nat.le_refl _, eventsAfter_eq_between h.log _, ?_⟩, ?_⟩
      · exact .inl (h.answered.trans (Nat.le_max_left _ _))
      · exact fun _ current hcurrent => (h.window current hcurrent).cursor_le
    · exact h
  next payload expected hactive =>
    split
    · refine (h.extend [payload]).activate ?_
      rintro _ ⟨⟩
      exact List.mem_append_right _ List.mem_cons_self
    · refine h.activate ?_
      rintro _ ⟨⟩
  · exact h

/-- A read that had no window goes on with its reply. -/
theorem answer_fresh {upTo : Nat} (h : ViewOk view) (hfloor : floor ≤ view.answered)
    (hupTo : upTo ≤ view.log.length) (hanswered : view.answered ≤ max upTo since) :
    ViewOk (view.answer since floor
      ⟨since, max since ((lastSeq (between view.log since upTo)).getD 0),
        between view.log since upTo, epoch, false⟩) := by
  have hcursor : max since ((lastSeq (between view.log since upTo)).getD 0) = max since upTo := by
    by_cases hlt : since < upTo
    · rw [lastSeq_between h.log hlt hupTo, Option.getD_some]
    · rw [lastSeq_between_of_le (not_lt.mp hlt), Option.getD_none]
      omega
  rw [hcursor]
  refine h.answer ⟨?_, ?_⟩ (Nat.le_refl _) ?_ hfloor
  · simp only
    omega
  · simp only
    rw [filter_between, Nat.max_self]
    by_cases hlt : since < upTo
    · rw [Nat.max_eq_right (by omega)]
    · rw [between_of_le (by omega), between_of_le (by omega)]
  · simp only
    omega

/-- A read goes on with a reply that continues its window. -/
theorem answer_delta {window : RawWindow ε} {asked upTo : Nat} (h : ViewOk view)
    (hwindow : view.window = some window) (hsince : window.lower ≤ since)
    (hasked : asked ≤ window.cursor) (hfloor : floor ≤ view.answered)
    (hupTo : upTo ≤ view.log.length)
    (hcontinues : ¬((between view.log asked upTo).zipIdx.any fun (event, index) =>
      event.seq != window.cursor + index + 1) = true)
    (hanswered : view.answered ≤ max upTo asked ∨
      window.SeesTo asked (between view.log asked upTo) view.answered) :
    ViewOk (view.answer since floor
      { window with
        events := window.events ++ between view.log asked upTo
        cursor := (lastSeq (between view.log asked upTo)).getD window.cursor
        epoch := epoch
        dirty := false }) := by
  have hok := h.window window hwindow
  by_cases hlt : asked < upTo
  · obtain ⟨event, hevents, hseq⟩ := exists_head h.log hlt hupTo
    -- The first event of the reply is the one after the cursor.
    have hcursor : asked = window.cursor := by
      rw [hevents, List.zipIdx_cons, List.any_cons, Bool.or_eq_true, not_or] at hcontinues
      have hfirst := hcontinues.1
      simp only [bne_iff_ne, not_not] at hfirst
      omega
    have hall : view.answered ≤ upTo := by
      rcases hanswered with hle | hsees
      · omega
      · have hmoved := hsees.2 (by rw [hevents]; exact List.cons_ne_nil _ _)
        omega
    rw [lastSeq_between h.log hlt hupTo, Option.getD_some]
    refine h.answer ⟨hupTo.trans (Nat.le_max_left _ _), ?_⟩ hsince
      (hall.trans (Nat.le_max_left _ _)) hfloor
    simp only
    rw [List.filter_append, hok.events, filter_between, hcursor]
    by_cases hlower : window.lower ≤ window.cursor
    · rw [Nat.max_eq_left hlower, between_append h.log hlower (by omega)]
    · rw [between_of_le (by omega), List.nil_append, Nat.max_eq_right (by omega)]
  · have hall : view.answered ≤ window.cursor := by
      rcases hanswered with hle | hsees
      · omega
      · exact hsees.1 (between_of_le (not_lt.mp hlt))
    rw [lastSeq_between_of_le (not_lt.mp hlt), Option.getD_none, between_of_le (not_lt.mp hlt),
      List.append_nil]
    exact h.answer ⟨hok.cursor_le, hok.events⟩ hsince (hall.trans (Nat.le_max_left _ _)) hfloor

/-- A read goes on with the whole of its window. -/
theorem answer_again {window : RawWindow ε} {asked upTo : Nat} (h : ViewOk view)
    (hsince : window.lower ≤ since) (hasked : asked ≤ window.lower)
    (hfloor : floor ≤ view.answered) (hupTo : upTo ≤ view.log.length)
    (hcursor : window.cursor ≤ max upTo window.lower)
    (hanswered : view.answered ≤ max upTo asked) :
    ViewOk (view.answer since floor
      { window with
        events := between view.log asked upTo
        cursor := (lastSeq (between view.log asked upTo)).getD window.cursor
        epoch := epoch
        dirty := false }) := by
  by_cases hlt : asked < upTo
  · rw [lastSeq_between h.log hlt hupTo, Option.getD_some]
    refine h.answer ⟨hupTo.trans (Nat.le_max_left _ _), ?_⟩ hsince ?_ hfloor
    · simp only
      rw [filter_between, Nat.max_eq_right hasked]
    · simp only
      omega
  · -- Nothing is after what was asked for, so the cursor is not above `lower`.
    rw [lastSeq_between_of_le (not_lt.mp hlt), Option.getD_none, between_of_le (not_lt.mp hlt)]
    refine h.answer ⟨?_, ?_⟩ hsince ?_ hfloor
    · simp only
      omega
    · simp only
      rw [between_of_le (by omega), List.filter_nil]
    · simp only
      omega

theorem handleRead {reading : Reading ε} {reply : List (ViewEvent ε)} (h : ViewOk view)
    (hactive : view.active = some (.read reading)) (hreply : reading.reply = some reply) :
    ViewOk (view.handleRead epoch reading reply) := by
  obtain ⟨hfloor, hfresh, hwindow, hreplies⟩ := h.active _ hactive
  obtain ⟨upTo, ⟨hupTo, rfl, hsees⟩, hagain⟩ := hreplies reply hreply
  unfold LogView.handleRead
  split
  next hstage =>
    have hanswered := hsees.le_of_not_delta (by rw [hstage]; exact ReadStage.noConfusion)
    rw [hfresh hstage] at hanswered ⊢
    exact h.answer_fresh hfloor hupTo hanswered
  next window hstage hsome =>
    obtain ⟨_, hcurrent, hsince, hasked⟩ := hwindow (by rw [hstage]; exact ReadStage.noConfusion)
    obtain rfl := Option.some.inj (hsome.symm.trans hcurrent)
    rw [hstage] at hasked
    split
    · exact h.ask hfloor ReadStage.noConfusion fun _ => ⟨window, hsome, hsince, Nat.le_refl _⟩
    next hcontinues =>
      refine h.answer_delta hsome hsince hasked hfloor hupTo hcontinues (hsees.imp_right ?_)
      rintro ⟨-, current, hcurrent', hsees⟩
      obtain rfl := Option.some.inj (hsome.symm.trans hcurrent')
      exact hsees
  next window hstage hsome =>
    obtain ⟨_, hcurrent, hsince, hasked⟩ := hwindow (by rw [hstage]; exact ReadStage.noConfusion)
    obtain rfl := Option.some.inj (hsome.symm.trans hcurrent)
    rw [hstage] at hasked
    have hanswered := hsees.le_of_not_delta (by rw [hstage]; exact ReadStage.noConfusion)
    exact h.answer_again hsince hasked hfloor hupTo (hagain hstage window hsome) hanswered
  · exact h

theorem handle (h : ViewOk view) : ViewOk (view.handle epoch) := by
  unfold LogView.handle
  split
  next reading hactive =>
    split
    next reply hreply => exact h.handleRead hactive hreply
    · exact h
  next payload expected event hactive =>
    have hevent : event ∈ view.log := h.active _ hactive event rfl
    have hseq := h.log.seq_le hevent
    refine
      { log := h.log
        answered := Nat.max_le.mpr ⟨h.answered, hseq⟩
        resolved := Nat.max_le.mpr
          ⟨h.resolved.trans (Nat.le_max_left _ _), Nat.le_max_right _ _⟩
        window := ?_
        current := ?_
        queue := fun task htask => (h.queue task htask).mono (Nat.le_max_left _ _)
        active := fun _ hnone => nomatch hnone
        due := h.due
        returned := h.returned }
    · intro window hwindow
      obtain ⟨before, hbefore, rfl⟩ := Option.map_eq_some_iff.mp hwindow
      exact (h.window before hbefore).fold h.log hevent
    · intro window hwindow hdirty
      obtain ⟨before, hbefore, rfl⟩ := Option.map_eq_some_iff.mp hwindow
      obtain ⟨hclean, hhas⟩ := foldAppend_current hdirty
      have hcurrent := h.current before hbefore hclean
      have hcursor := @cursor_le_foldAppend ε before event
      simp only [foldAppend_lower]
      omega
  next payload expected hactive =>
    refine
      { h with
        window := ?_
        current := ?_
        active := fun _ hnone => nomatch hnone }
    · intro window hwindow
      obtain ⟨before, hbefore, rfl⟩ := Option.map_eq_some_iff.mp hwindow
      exact (h.window before hbefore).markDirty
    · intro window hwindow hdirty
      obtain ⟨before, hbefore, rfl⟩ := Option.map_eq_some_iff.mp hwindow
      exact Bool.noConfusion hdirty
  · exact h
  next settles hactive =>
    have hsettles : settles ≤ view.answered := h.active _ hactive
    exact { h.rest with resolved := Nat.max_le.mpr ⟨h.resolved, hsettles⟩ }
  · exact h

theorem deliver {i : Nat} (h : ViewOk view) (hkeeps : view.Keeps (.deliver i)) :
    ViewOk (view.deliver i) := by
  have hdues : ∀ events ∈ view.due.eraseIdx i, ∀ event ∈ events, event ∈ view.log :=
    fun events hevents => h.due events ((List.eraseIdx_sublist _ _).subset hevents)
  unfold LogView.deliver
  split
  · exact h
  · exact { h with due := hdues }
  next event events hdue =>
    have hall : ∀ other ∈ event :: events, other ∈ view.log := h.due _ (List.mem_of_getElem? hdue)
    obtain ⟨last, hlast, hseq⟩ : ∃ last ∈ event :: events,
        (lastSeq (event :: events)).getD 0 = last.seq := by
      refine ⟨_, List.getLast_mem (List.cons_ne_nil event events), ?_⟩
      rw [lastSeq, List.getLast?_eq_some_getLast (List.cons_ne_nil event events), Option.map_some,
        Option.getD_some]
    rw [hseq]
    refine
      { log := h.log
        answered := Nat.max_le.mpr ⟨h.answered, h.log.seq_le (hall last hlast)⟩
        resolved := h.resolved.trans (Nat.le_max_left _ _)
        window := ?_
        current := ?_
        queue := ?_
        active := ?_
        due := hdues
        returned := h.returned }
    · intro window hwindow
      obtain ⟨before, hbefore, rfl⟩ := Option.map_eq_some_iff.mp hwindow
      exact (WindowOk.folds h.log hall (h.window before hbefore)).markDirty
    · intro window hwindow hdirty
      obtain ⟨before, hbefore, rfl⟩ := Option.map_eq_some_iff.mp hwindow
      exact Bool.noConfusion hdirty
    · intro task htask
      rcases List.mem_append.mp htask with htask | htask
      · exact (h.queue task htask).mono (Nat.le_max_left _ _)
      · rw [List.mem_singleton] at htask
        subst htask
        exact Nat.le_max_right view.answered last.seq
    · rintro (reading | _ | _) hactive
      · exact (h.active _ hactive).fold hlast fun other hother reply hreply =>
          hkeeps reading reply _ hactive hreply hdue other hother
      · exact h.active _ hactive
      · exact (h.active _ hactive).trans (Nat.le_max_left _ _)

theorem release {minCursor : Nat} (h : ViewOk view) (hkeeps : view.Keeps (.release minCursor)) :
    ViewOk { view with window := view.window.map (.releaseBelow minCursor) } := by
  have hlower : ∀ window : RawWindow ε,
      (window.releaseBelow minCursor).lower = max window.lower minCursor ∧
        (window.releaseBelow minCursor).cursor = (if minCursor ≤ window.lower then window.cursor
          else max window.cursor minCursor) ∧
        (window.releaseBelow minCursor).dirty = window.dirty := by
    intro window
    unfold RawWindow.releaseBelow
    split
    · exact ⟨by omega, rfl, rfl⟩
    · exact ⟨by simp only; omega, rfl, rfl⟩
  refine
    { h with
      window := ?_
      current := ?_
      active := ?_ }
  · intro window hwindow
    obtain ⟨before, hbefore, rfl⟩ := Option.map_eq_some_iff.mp hwindow
    exact (h.window before hbefore).releaseBelow minCursor
  · intro window hwindow hdirty
    obtain ⟨before, hbefore, rfl⟩ := Option.map_eq_some_iff.mp hwindow
    obtain ⟨hreleased, hcursor, hsame⟩ := hlower before
    have hcurrent := h.current before hbefore (hsame ▸ hdirty)
    simp only
    split at hcursor <;> omega
  · intro active hactive
    refine (h.active active hactive).map (Nat.le_refl _) ?_ ?_
    · rintro reading current rfl hstage hcurrent hcont
      obtain ⟨hreleased, hcursor, -⟩ := hlower current
      have hmin := hkeeps reading hactive hstage
      have hsince := hcont.1
      refine hcont.mono (by omega) (by omega) ?_
      split at hcursor <;> omega
    · rintro reading reply upTo rfl hreply hok
      refine ⟨hok.sees.map fun current _ => ?_, fun current _ _ _ hcursor => ?_⟩
      · obtain ⟨-, hmoved, -⟩ := hlower current
        split at hmoved <;> omega
      · obtain ⟨hreleased, hmoved, -⟩ := hlower current
        split at hmoved <;> omega

/-- **One step of a log.** -/
theorem step {act : LogAct ε} (h : ViewOk view) (hkeeps : view.Keeps act) :
    ViewOk (view.step epoch act) := by
  cases act with
  | read since => exact h.enqueue h.resolved
  | append payload expected =>
    have htask : TaskOk view.answered (.append payload expected) := trivial
    exact h.enqueue htask
  | refreshFacts =>
    have hdirty : ViewOk { view with window := view.window.map .markDirty } := by
      refine { h with window := ?_, current := ?_, active := ?_ }
      · intro window hwindow
        obtain ⟨before, hbefore, rfl⟩ := Option.map_eq_some_iff.mp hwindow
        exact (h.window before hbefore).markDirty
      · intro window hwindow hclean
        obtain ⟨before, hbefore, rfl⟩ := Option.map_eq_some_iff.mp hwindow
        exact Bool.noConfusion hclean
      · intro active hactive
        refine (h.active active hactive).map (Nat.le_refl _) (fun _ _ _ _ _ hcont => hcont) ?_
        exact fun _ _ _ _ _ hok =>
          ⟨hok.sees.map fun _ _ => Nat.le_refl _, fun _ _ _ _ hcursor => hcursor⟩
    exact hdirty.enqueue (Nat.zero_le _)
  | start => exact h.start
  | execute => exact h.execute
  | handle => exact h.handle
  | fail => exact h.rest
  | commit payloads =>
    refine { h.extend payloads with due := fun events hevents event hevent => ?_ }
    rcases List.mem_append.mp hevents with hevents | hevents
    · exact List.mem_append_left _ (h.due events hevents event hevent)
    · rw [List.mem_singleton] at hevents
      subst hevents
      exact List.mem_append_right _ hevent
  | deliver i => exact h.deliver hkeeps
  | lose i =>
    refine { h with due := fun events hevents => ?_ }
    exact h.due events ((List.eraseIdx_sublist _ _).subset hevents)
  | passed since =>
    refine { h with returned := fun returned hreturned => ?_ }
    rcases List.mem_cons.mp hreturned with rfl | hreturned
    · exact ⟨view.log.length, h.resolved.trans h.answered, Nat.le_refl _,
        eventsAfter_eq_between h.log since⟩
    · exact h.returned returned hreturned
  | outside payloads => exact h.extend payloads
  | release minCursor => exact h.release hkeeps

end ViewOk

/-! ## 6. Reading one's own writes -/

theorem viewOk_initial : ViewOk (.initial : LogView ε) where
  log := logOk_nil
  answered := Nat.le_refl _
  resolved := Nat.le_refl _
  window := fun _ hwindow => nomatch hwindow
  current := fun _ hwindow => nomatch hwindow
  queue := fun _ htask => absurd htask List.not_mem_nil
  active := fun _ hactive => nomatch hactive
  due := fun _ hevents => absurd hevents List.not_mem_nil
  returned := fun _ hreturned => absurd hreturned List.not_mem_nil

/-- Every log of the view. -/
def StoreOk (store : RepoViewStore ε) : Prop := ∀ key, ViewOk (store.views key)

theorem StoreOk.step {store : RepoViewStore ε} {act : ViewAct ε} (h : StoreOk store)
    (hkeeps : store.Keeps act) : StoreOk (store.step act) := by
  intro key
  cases act with
  | refresh =>
    by_cases hkey : key = .journal
    · subst hkey
      simp only [RepoViewStore.step, Function.update_self]
      exact (h .journal).step trivial
    · simp only [RepoViewStore.step, Function.update_of_ne hkey]
      exact h key
  | act other act =>
    rw [RepoViewStore.step]
    split
    · by_cases hkey : key = other
      · subst hkey
        simp only [Function.update_self]
        exact (h key).step hkeeps
      · simp only [Function.update_of_ne hkey]
        exact h key
    · exact h key

theorem StoreOk.run {acts : List (ViewAct ε)} {store : RepoViewStore ε} (h : StoreOk store)
    (hkeeps : store.KeepsAll acts) : StoreOk (acts.foldl .step store) := by
  induction acts generalizing store with
  | nil => exact h
  | cons act acts ih => exact ih (h.step hkeeps.1) hkeeps.2

/-- **Where no step overtakes a read that has its reply, every read has what was written.** -/
theorem read_your_writes (acts : List (ViewAct ε))
    (hkeeps : (RepoViewStore.initial : RepoViewStore ε).KeepsAll acts) (key : LogKey) :
    ∀ returned ∈ ((RepoViewStore.run acts).views key).returned,
      ReadsOwn ((RepoViewStore.run acts).views key).log returned := by
  intro returned hreturned
  have hinitial : StoreOk (.initial : RepoViewStore ε) := fun _ => viewOk_initial
  obtain ⟨upTo, hfloor, -, hevents⟩ := (hinitial.run hkeeps key).returned returned hreturned
  exact ⟨upTo, hfloor, hevents⟩

/-- A read of the journal takes its reply, an event is appended, and the read goes on. -/
def overtakenActs : List (ViewAct String) :=
  [.act .journal (.read 0), .act .journal .start, .act .journal .execute,
    .act .journal (.commit ["scan.completed"]), .act .journal (.deliver 0),
    .act .journal .handle, .act .journal .start, .act .journal .handle,
    .act .journal (.read 0), .act .journal .start]

/-- The append is resolved, and the read called after it does not return its event. -/
theorem view_loses_append :
    ¬∀ (acts : List (ViewAct String)) (key : LogKey),
      ∀ returned ∈ ((RepoViewStore.run acts).views key).returned,
        ReadsOwn ((RepoViewStore.run acts).views key).log returned := by
  intro h
  have hlog : ((RepoViewStore.run overtakenActs).views .journal).log =
      [⟨1, "scan.completed"⟩] := rfl
  obtain ⟨upTo, hfloor, hevents⟩ := h overtakenActs .journal ⟨0, 1, []⟩ List.mem_cons_self
  rw [hlog] at hevents
  have hin : ⟨1, "scan.completed"⟩ ∈ between [⟨1, "scan.completed"⟩] 0 upTo :=
    mem_between.mpr ⟨List.mem_cons_self, Nat.one_pos, hfloor⟩
  rw [← hevents] at hin
  exact absurd hin List.not_mem_nil

/-- The append is answered while a read has its reply, which has the event. -/
theorem read_your_writes_of_replied :
    ReadsOwn [⟨1, "scan.completed"⟩] ⟨0, 1, [⟨1, "scan.completed"⟩]⟩ := by
  have hkeeps : (RepoViewStore.initial : RepoViewStore String).KeepsAll
      [.act .journal (.read 0), .act .journal .start, .act .journal (.commit ["scan.completed"]),
        .act .journal .execute, .act .journal (.deliver 0), .act .journal .handle,
        .act .journal .start, .act .journal .handle, .act .journal (.read 0),
        .act .journal .start] := by
    refine ⟨trivial, trivial, trivial, trivial, ?_, trivial, trivial, trivial, trivial, trivial,
      trivial⟩
    rintro reading reply events ⟨⟩ ⟨⟩ ⟨⟩ event hevent
    exact .inr (.inl hevent)
  exact read_your_writes _ hkeeps .journal _ List.mem_cons_self

end Autobuild.RepoViewWindows
