/-
# Subscriptions by polling

`pollingSubscribe` reads the log again and again, each time from the last event it has handed to
its caller.  Without `waitSeconds` a timer starts the reads; with it a loop holds one request after
the other, and leaves `pollMs` between two starts.  Others append to the log at any time, a store
answers a request at any time and with as many events as it has in a page, an answer may be lost,
and the caller may throw on an event or unsubscribe while it is handed one.

* `deliver_between`: what becomes of an answer, however old it is.
* `SubscriptionInv.step`: the events handed over are those of the log after `fromSeq`, up to the
  last of them.
* `subscription_delivers`: in order, each once, none left out; with at most one request in flight.
-/
import Autobuild.Lib.Steps
import Autobuild.Store.EventReads

namespace Autobuild.Subscriptions

open RepoViewWindows EventReads

variable {ε : Type}

/-! ## 1. The subscription -/

/-- What a call of `onEvent` does besides. -/
structure Reaction where
  unsubscribes : Bool
  throws : Bool

def Reaction.Quiet (reaction : Reaction) : Prop :=
  reaction.unsubscribes = false ∧ reaction.throws = false

structure Subscriber (ε : Type) where
  lastSeq : Nat
  stopped : Bool := false
  inFlight : Bool := false
  /-- The calls of `onEvent`. -/
  delivered : List (ViewEvent ε) := []

/-- `lastSeq = event.seq; onEvent(event)` -/
def Subscriber.handed (sub : Subscriber ε) (event : ViewEvent ε) (reaction : Reaction) :
    Subscriber ε :=
  { sub with
    lastSeq := event.seq
    stopped := sub.stopped || reaction.unsubscribes
    delivered := sub.delivered ++ [event] }

def deliver (onEvent : ViewEvent ε → Reaction) : List (ViewEvent ε) → Subscriber ε → Subscriber ε
  | [], sub => sub
  | event :: rest, sub =>
    if sub.stopped then sub
    else if event.seq ≤ sub.lastSeq then deliver onEvent rest sub
    else if (onEvent event).throws then sub.handed event (onEvent event)
    else deliver onEvent rest (sub.handed event (onEvent event))

/-- A request that has not come back. -/
structure Read (ε : Type) where
  since : Nat
  /-- What the store has answered. -/
  answer : Option (List (ViewEvent ε))

/-- What starts the next read. -/
inductive Loop where
  /-- `setInterval` -/
  | interval
  /-- The head of the `while` loop. -/
  | head
  /-- A request of the loop, with the time of its start. -/
  | reading (started : Nat)
  /-- `Bun.sleep`, until this time. -/
  | sleeping (wake : Nat)
  | ended

structure World (ε : Type) where
  log : List (ViewEvent ε)
  now : Nat
  sub : Subscriber ε
  reads : List (Read ε) := []
  loop : Loop
  /-- When the requests were started. -/
  starts : List Nat := []

inductive Action (ε : Type) where
  | append (payload : ε)
  | elapse (ms : Nat)
  /-- `tick`, at once and from the timer. -/
  | tick
  /-- The loop goes on. -/
  | cycle
  /-- The store answers with the first events after `since`. -/
  | serve (i page : Nat)
  | arrive (i : Nat) (onEvent : ViewEvent ε → Reaction)
  /-- The request throws, by itself or for an abort. -/
  | fail (i : Nat)
  | unsubscribe

namespace World

variable (pollMs : Nat) (w : World ε)

def started : World ε :=
  { w with
    sub := { w.sub with inFlight := true }
    reads := w.reads ++ [⟨w.sub.lastSeq, none⟩]
    starts := w.starts ++ [w.now] }

/-- Behind the `finally`. -/
def nextLoop (stopped : Bool) : Loop :=
  match w.loop with
  | .reading started =>
    if stopped then .ended
    else if w.now - started < pollMs then .sleeping (w.now + (pollMs - (w.now - started)))
    else .head
  | loop => loop

/-- A request is over, and `sub` has what came of it. -/
def finished (i : Nat) (sub : Subscriber ε) : World ε :=
  { w with
    sub := { sub with inFlight := false }
    reads := w.reads.eraseIdx i
    loop := w.nextLoop pollMs sub.stopped }

def step : Action ε → Option (World ε)
  | .append payload => some { w with log := w.log ++ [⟨w.log.length + 1, payload⟩] }
  | .elapse ms => some { w with now := w.now + ms }
  | .tick =>
    match w.loop with
    | .interval => some (if w.sub.stopped || w.sub.inFlight then w else w.started)
    | _ => none
  | .cycle =>
    match w.loop with
    | .head => some (if w.sub.stopped then { w with loop := .ended }
        else { w.started with loop := .reading w.now })
    | .sleeping wake => if wake ≤ w.now then some { w with loop := .head } else none
    | _ => none
  | .serve i page => w.reads[i]?.map fun read =>
      { w with
        reads := w.reads.set i ⟨read.since, some ((eventsAfter w.log read.since).take page)⟩ }
  | .arrive i onEvent => w.reads[i]?.bind fun read => read.answer.map fun events =>
      w.finished pollMs i (deliver onEvent events w.sub)
  | .fail i => w.reads[i]?.map fun _ => w.finished pollMs i w.sub
  | .unsubscribe => some { w with sub := { w.sub with stopped := true } }

end World

/-- `pollingSubscribe`, with `waitSeconds` or without. -/
def pollingSubscribe (held : Bool) (fromSeq : Option Nat) (log : List (ViewEvent ε)) (now : Nat) :
    World ε :=
  { log := log, now := now, sub := { lastSeq := fromSeq.getD 0 },
    loop := if held then .head else .interval }

/-! ## 2. What becomes of an answer -/

section Deliver

variable {onEvent : ViewEvent ε → Reaction} {log : List (ViewEvent ε)} {sub : Subscriber ε}

theorem deliver_stopped (h : sub.stopped = true) (events : List (ViewEvent ε)) :
    deliver onEvent events sub = sub := by
  cases events with
  | nil => rfl
  | cons event rest => exact if_pos h

/-- Events from before the last one handed over make no difference. -/
theorem deliver_filter {bound : Nat} (events : List (ViewEvent ε)) :
    ∀ {sub : Subscriber ε}, bound ≤ sub.lastSeq →
      deliver onEvent (events.filter fun event => bound < event.seq) sub
        = deliver onEvent events sub := by
  induction events with
  | nil => exact fun _ => rfl
  | cons event rest ih =>
    intro sub hbound
    rw [List.filter_cons]
    by_cases hseq : bound < event.seq
    · rw [if_pos (decide_eq_true hseq)]
      unfold deliver
      split
      · rfl
      · split
        · exact ih hbound
        · split
          · rfl
          · exact ih hseq.le
    · rw [if_neg (by simpa using hseq), ih hbound]
      have hle : event.seq ≤ sub.lastSeq := Nat.le_trans (Nat.le_of_not_lt hseq) hbound
      cases hstopped : sub.stopped with
      | true => rw [deliver_stopped hstopped, deliver_stopped hstopped]
      | false =>
        conv_rhs => unfold deliver
        rw [hstopped, if_neg Bool.false_ne_true, if_pos hle]

/-- What an answer hands over. -/
structure Handed (log : List (ViewEvent ε)) (upTo : Nat) (sub sub' : Subscriber ε) : Prop where
  le : sub.lastSeq ≤ sub'.lastSeq
  le_max : sub'.lastSeq ≤ max sub.lastSeq upTo
  delivered : sub'.delivered = sub.delivered ++ between log sub.lastSeq sub'.lastSeq
  stopped : sub.stopped = true → sub' = sub
  inFlight : sub'.inFlight = sub.inFlight

theorem Handed.refl (log : List (ViewEvent ε)) (upTo : Nat) (sub : Subscriber ε) :
    Handed log upTo sub sub where
  le := Nat.le_refl _
  le_max := Nat.le_max_left ..
  delivered := by rw [between_of_le (Nat.le_refl _), List.append_nil]
  stopped _ := rfl
  inFlight := rfl

theorem deliver_fresh (hlog : LogOk log) {upTo : Nat} (hupTo : upTo ≤ log.length) :
    ∀ (n : Nat) {sub : Subscriber ε}, upTo - sub.lastSeq = n →
      Handed log upTo sub (deliver onEvent (between log sub.lastSeq upTo) sub) ∧
        ((∀ event, (onEvent event).Quiet) → sub.stopped = false →
          upTo ≤ (deliver onEvent (between log sub.lastSeq upTo) sub).lastSeq) := by
  intro n
  -- on the number of fresh events
  induction n with
  | zero =>
    intro sub hn
    have hle : upTo ≤ sub.lastSeq := Nat.sub_eq_zero_iff_le.mp hn
    rw [between_of_le hle]
    exact ⟨.refl log upTo sub, fun _ _ => hle⟩
  | succ n ih =>
    intro sub hn
    have hlt : sub.lastSeq < upTo := by omega
    cases hstopped : sub.stopped with
    | true =>
      rw [deliver_stopped hstopped]
      exact ⟨.refl log upTo sub, fun _ h => by cases h⟩
    | false =>
      obtain ⟨event, hbetween, hseq⟩ := exists_head hlog hlt hupTo
      have hone : between log sub.lastSeq (sub.lastSeq + 1) = [event] := by
        have hmem : event ∈ between log sub.lastSeq upTo := by
          rw [hbetween]
          exact List.mem_cons_self
        exact between_succ hlog (mem_between.mp hmem).1 hseq
      have hskip : ¬ event.seq ≤ sub.lastSeq := by omega
      rw [hbetween]
      unfold deliver
      rw [hstopped, if_neg Bool.false_ne_true, if_neg hskip]
      split
      · rename_i hthrows
        refine ⟨⟨?_, ?_, ?_, fun h => ?_, rfl⟩, fun hquiet _ => ?_⟩
        · change sub.lastSeq ≤ event.seq
          omega
        · change event.seq ≤ max sub.lastSeq upTo
          omega
        · change sub.delivered ++ [event] = sub.delivered ++ between log sub.lastSeq event.seq
          rw [hseq, hone]
        · rw [hstopped] at h
          cases h
        · have hnot := (hquiet event).2
          rw [hthrows] at hnot
          cases hnot
      · have hnext : (sub.handed event (onEvent event)).lastSeq = sub.lastSeq + 1 := hseq
        have hih := @ih (sub.handed event (onEvent event)) (by omega)
        rw [hnext] at hih
        obtain ⟨hhanded, hall⟩ := hih
        refine ⟨⟨?_, ?_, ?_, fun h => ?_, hhanded.inFlight⟩, fun hquiet _ => ?_⟩
        · exact Nat.le_trans (Nat.le_trans (Nat.le_succ _) hnext.ge) hhanded.le
        · have hmax := hhanded.le_max
          omega
        · have hle := hhanded.le
          rw [hnext] at hle
          rw [hhanded.delivered, hnext]
          change sub.delivered ++ [event] ++ _ = _
          rw [List.append_assoc, ← hone, between_append hlog (Nat.le_succ _) hle]
        · rw [hstopped] at h
          cases h
        · refine hall hquiet ?_
          change (sub.stopped || (onEvent event).unsubscribes) = false
          rw [hstopped, (hquiet event).1]
          rfl

/-- An answer of any age hands over the next events of the log, and all it has to a caller that
neither throws nor unsubscribes. -/
theorem deliver_between (hlog : LogOk log) {since upTo : Nat} (hupTo : upTo ≤ log.length)
    (hsince : since ≤ sub.lastSeq) :
    Handed log upTo sub (deliver onEvent (between log since upTo) sub) ∧
      ((∀ event, (onEvent event).Quiet) → sub.stopped = false →
        upTo ≤ (deliver onEvent (between log since upTo) sub).lastSeq) := by
  have hfresh : deliver onEvent (between log since upTo) sub
      = deliver onEvent (between log sub.lastSeq upTo) sub := by
    rw [← deliver_filter (between log since upTo) (Nat.le_refl sub.lastSeq), filter_between,
      Nat.max_eq_right hsince]
  rw [hfresh]
  exact deliver_fresh hlog hupTo _ rfl

end Deliver

/-! ## 3. Whole subscriptions -/

/-- The loop holds at most one request, and leaves `pollMs` between two starts. -/
def Spaced (pollMs : Nat) (starts : List Nat) (inFlight : Bool) (now : Nat) : Loop → Prop
  | .interval => True
  | .head => starts.Pairwise (fun a b => a + pollMs ≤ b) ∧ inFlight = false ∧
      ∀ start ∈ starts, start + pollMs ≤ now
  | .reading started => starts.Pairwise (fun a b => a + pollMs ≤ b) ∧ inFlight = true ∧
      started ≤ now ∧ ∀ start ∈ starts, start ≤ started
  | .sleeping wake => starts.Pairwise (fun a b => a + pollMs ≤ b) ∧ inFlight = false ∧
      ∀ start ∈ starts, start + pollMs ≤ wake
  | .ended => starts.Pairwise (fun a b => a + pollMs ≤ b)

theorem Spaced.later {pollMs : Nat} {starts : List Nat} {inFlight : Bool} {now now' : Nat}
    {loop : Loop} (h : Spaced pollMs starts inFlight now loop) (hnow : now ≤ now') :
    Spaced pollMs starts inFlight now' loop := by
  cases loop with
  | interval => trivial
  | head => exact ⟨h.1, h.2.1, fun start hs => Nat.le_trans (h.2.2 start hs) hnow⟩
  | reading started => exact ⟨h.1, h.2.1, Nat.le_trans h.2.2.1 hnow, h.2.2.2⟩
  | sleeping wake => exact h
  | ended => exact h

section Runs

variable {fromSeq pollMs : Nat} {w w' : World ε}

structure SubscriptionInv (fromSeq pollMs : Nat) (w : World ε) : Prop where
  log : LogOk w.log
  fromSeq_le : fromSeq ≤ w.sub.lastSeq
  delivered : w.sub.delivered = between w.log fromSeq w.sub.lastSeq
  lastSeq_le : w.sub.lastSeq ≤ max fromSeq w.log.length
  /-- No two requests at once. -/
  flight : w.reads.length = if w.sub.inFlight then 1 else 0
  since : ∀ read ∈ w.reads, read.since ≤ w.sub.lastSeq
  answer : ∀ read ∈ w.reads, ∀ events, read.answer = some events →
    ∃ upTo, upTo ≤ w.log.length ∧ events = between w.log read.since upTo
  spaced : Spaced pollMs w.starts w.sub.inFlight w.now w.loop

namespace SubscriptionInv

theorem initial (held : Bool) (fromSeq : Option Nat) {log : List (ViewEvent ε)}
    (hlog : LogOk log) (now : Nat) :
    SubscriptionInv (fromSeq.getD 0) pollMs (pollingSubscribe held fromSeq log now) where
  log := hlog
  fromSeq_le := Nat.le_refl _
  delivered := (between_of_le (Nat.le_refl _)).symm
  lastSeq_le := Nat.le_max_left ..
  flight := rfl
  since _ h := absurd h List.not_mem_nil
  answer _ h := absurd h List.not_mem_nil
  spaced := by
    unfold pollingSubscribe
    cases held with
    | false => trivial
    | true => exact ⟨.nil, rfl, fun _ h => absurd h List.not_mem_nil⟩

theorem append (h : SubscriptionInv fromSeq pollMs w) (payload : ε) :
    SubscriptionInv fromSeq pollMs
      { w with log := w.log ++ [⟨w.log.length + 1, payload⟩] } := by
  have hlog : LogOk (w.log ++ [⟨w.log.length + 1, payload⟩]) :=
    logOk_append_singleton.mpr ⟨h.log, rfl⟩
  have hle := h.lastSeq_le
  refine ⟨hlog, h.fromSeq_le, ?_, ?_, h.flight, h.since, fun read hread events he => ?_, h.spaced⟩
  · refine h.delivered.trans (between_grow hlog ?_).symm
    omega
  · change w.sub.lastSeq ≤ max fromSeq (w.log ++ [_]).length
    rw [List.length_append, List.length_singleton]
    omega
  · obtain ⟨upTo, hupTo, rfl⟩ := h.answer read hread events he
    refine ⟨upTo, ?_, (between_grow hlog (.inl hupTo)).symm⟩
    change upTo ≤ (w.log ++ [_]).length
    rw [List.length_append]
    omega

/-- A request is started when there is none. -/
theorem started (h : SubscriptionInv fromSeq pollMs w) (hidle : w.sub.inFlight = false)
    {loop : Loop} (hloop : Spaced pollMs (w.starts ++ [w.now]) true w.now loop) :
    SubscriptionInv fromSeq pollMs { w.started with loop := loop } := by
  have hnone : w.reads = [] := by
    have hflight := h.flight
    rw [hidle] at hflight
    exact List.eq_nil_of_length_eq_zero hflight
  refine ⟨h.log, h.fromSeq_le, h.delivered, h.lastSeq_le, ?_, fun read hread => ?_,
    fun read hread events he => ?_, hloop⟩
  · change (w.reads ++ [_]).length = 1
    rw [hnone]
    rfl
  · change read ∈ w.reads ++ [_] at hread
    rw [hnone] at hread
    rw [List.mem_singleton.mp hread]
    exact Nat.le_refl _
  · change read ∈ w.reads ++ [_] at hread
    rw [hnone] at hread
    rw [List.mem_singleton.mp hread] at he
    cases he

theorem serve (h : SubscriptionInv fromSeq pollMs w) {i : Nat} {read : Read ε}
    (hread : w.reads[i]? = some read) (page : Nat) :
    SubscriptionInv fromSeq pollMs { w with
      reads := w.reads.set i ⟨read.since, some ((eventsAfter w.log read.since).take page)⟩ } := by
  refine ⟨h.log, h.fromSeq_le, h.delivered, h.lastSeq_le,
    (List.length_set ..).trans h.flight, fun other ho => ?_, fun other ho events he => ?_,
    h.spaced⟩
  · rcases List.mem_or_eq_of_mem_set ho with hold | rfl
    · exact h.since other hold
    · exact h.since read (List.mem_of_getElem? hread)
  · rcases List.mem_or_eq_of_mem_set ho with hold | rfl
    · exact h.answer other hold events he
    · refine ⟨min w.log.length (read.since + page), Nat.min_le_left .., ?_⟩
      rw [← Option.some.inj he, eventsAfter_eq_between h.log, between_eq_slice h.log, take_slice,
        between_eq_slice h.log]

/-- A request comes back, with what it hands over. -/
theorem finished (h : SubscriptionInv fromSeq pollMs w) {i : Nat} (hi : i < w.reads.length)
    {upTo : Nat} (hupTo : upTo ≤ w.log.length) {sub : Subscriber ε}
    (hsub : Handed w.log upTo w.sub sub) :
    SubscriptionInv fromSeq pollMs (w.finished pollMs i sub) := by
  have hbusy : w.sub.inFlight = true := by
    by_contra hidle
    have hflight := h.flight
    rw [if_neg hidle] at hflight
    omega
  have hnone : w.reads.eraseIdx i = [] := by
    have hflight := h.flight
    rw [if_pos hbusy] at hflight
    refine List.eq_nil_of_length_eq_zero ?_
    rw [List.length_eraseIdx_of_lt hi]
    omega
  have hmax := hsub.le_max
  have hle := h.lastSeq_le
  refine ⟨h.log, Nat.le_trans h.fromSeq_le hsub.le, ?_, ?_, congrArg List.length hnone,
    fun read hread => ?_, fun read hread => ?_, ?_⟩
  · change sub.delivered = between w.log fromSeq sub.lastSeq
    rw [hsub.delivered, h.delivered, between_append h.log h.fromSeq_le hsub.le]
  · change sub.lastSeq ≤ max fromSeq w.log.length
    omega
  · change read ∈ w.reads.eraseIdx i at hread
    rw [hnone] at hread
    exact absurd hread List.not_mem_nil
  · change read ∈ w.reads.eraseIdx i at hread
    rw [hnone] at hread
    exact absurd hread List.not_mem_nil
  · change Spaced pollMs w.starts false w.now (w.nextLoop pollMs sub.stopped)
    have hspaced := h.spaced
    rw [hbusy] at hspaced
    unfold World.nextLoop
    cases hloop : w.loop with
    | interval => trivial
    | head =>
      rw [hloop] at hspaced
      cases hspaced.2.1
    | reading started =>
      rw [hloop] at hspaced
      obtain ⟨hpairs, -, hnow, hstarts⟩ := hspaced
      change Spaced pollMs w.starts false w.now (if sub.stopped then .ended
        else if w.now - started < pollMs then .sleeping (w.now + (pollMs - (w.now - started)))
        else .head)
      split
      · exact hpairs
      · split
        · refine ⟨hpairs, rfl, fun start hs => ?_⟩
          have hstart := hstarts start hs
          omega
        · refine ⟨hpairs, rfl, fun start hs => ?_⟩
          have hstart := hstarts start hs
          omega
    | sleeping wake =>
      rw [hloop] at hspaced
      cases hspaced.2.1
    | ended =>
      rw [hloop] at hspaced
      exact hspaced

/-- What comes back is handed over. -/
theorem handed (h : SubscriptionInv fromSeq pollMs w) {i : Nat} {read : Read ε}
    (hread : w.reads[i]? = some read) {events : List (ViewEvent ε)}
    (hevents : read.answer = some events) (onEvent : ViewEvent ε → Reaction) :
    ∃ upTo, upTo ≤ w.log.length ∧ events = between w.log read.since upTo ∧
      Handed w.log upTo w.sub (deliver onEvent events w.sub) ∧
      ((∀ event, (onEvent event).Quiet) → w.sub.stopped = false →
        upTo ≤ (deliver onEvent events w.sub).lastSeq) := by
  have hmem := List.mem_of_getElem? hread
  obtain ⟨upTo, hupTo, rfl⟩ := h.answer read hmem events hevents
  have hdeliver := @deliver_between _ onEvent _ w.sub h.log _ _ hupTo (h.since read hmem)
  exact ⟨upTo, hupTo, rfl, hdeliver.1, hdeliver.2⟩

theorem step (h : SubscriptionInv fromSeq pollMs w)
    (hstep : Steps.Step (World.step pollMs) w w') : SubscriptionInv fromSeq pollMs w' := by
  obtain ⟨action, haction⟩ := hstep
  cases action with
  | append payload =>
    rw [← Option.some.inj haction]
    exact h.append payload
  | elapse ms =>
    rw [← Option.some.inj haction]
    exact ⟨h.log, h.fromSeq_le, h.delivered, h.lastSeq_le, h.flight, h.since, h.answer,
      h.spaced.later (Nat.le_add_right ..)⟩
  | tick =>
    simp only [World.step] at haction
    split at haction
    · rename_i hloop
      rw [← Option.some.inj haction]
      split
      · exact h
      · rename_i hidle
        have hnot : w.sub.inFlight = false := by
          simp only [Bool.or_eq_true, not_or, Bool.not_eq_true] at hidle
          exact hidle.2
        have hstarted := @started _ _ _ _ h hnot .interval trivial
        rwa [← hloop] at hstarted
    · cases haction
  | cycle =>
    simp only [World.step] at haction
    split at haction
    · rename_i hloop
      have hspaced := h.spaced
      rw [hloop] at hspaced
      obtain ⟨hpairs, hidle, hstarts⟩ := hspaced
      rw [← Option.some.inj haction]
      split
      · exact ⟨h.log, h.fromSeq_le, h.delivered, h.lastSeq_le, h.flight, h.since, h.answer,
          hpairs⟩
      · refine h.started hidle ⟨?_, rfl, Nat.le_refl _, fun start hs => ?_⟩
        · refine List.pairwise_append.mpr ⟨hpairs, List.pairwise_singleton .., ?_⟩
          intro start hs next hnext
          rw [List.mem_singleton.mp hnext]
          exact hstarts start hs
        · rcases List.mem_append.mp hs with hold | hnew
          · exact Nat.le_of_add_right_le (hstarts start hold)
          · exact (List.mem_singleton.mp hnew).le
    · rename_i wake hloop
      split at haction
      · rename_i hwake
        have hspaced := h.spaced
        rw [hloop] at hspaced
        obtain ⟨hpairs, hidle, hstarts⟩ := hspaced
        rw [← Option.some.inj haction]
        exact ⟨h.log, h.fromSeq_le, h.delivered, h.lastSeq_le, h.flight, h.since, h.answer,
          hpairs, hidle, fun start hs => Nat.le_trans (hstarts start hs) hwake⟩
      · cases haction
    · cases haction
  | serve i page =>
    obtain ⟨read, hread, rfl⟩ := Option.map_eq_some_iff.mp haction
    exact h.serve hread page
  | arrive i onEvent =>
    obtain ⟨read, hread, hanswer⟩ := Option.bind_eq_some_iff.mp haction
    obtain ⟨events, hevents, rfl⟩ := Option.map_eq_some_iff.mp hanswer
    obtain ⟨upTo, hupTo, -, hhanded, -⟩ := h.handed hread hevents onEvent
    exact h.finished (List.getElem?_eq_some_iff.mp hread).1 hupTo hhanded
  | fail i =>
    obtain ⟨read, hread, rfl⟩ := Option.map_eq_some_iff.mp haction
    exact h.finished (List.getElem?_eq_some_iff.mp hread).1 (Nat.zero_le _) (.refl _ 0 _)
  | unsubscribe =>
    rw [← Option.some.inj haction]
    exact ⟨h.log, h.fromSeq_le, h.delivered, h.lastSeq_le, h.flight, h.since, h.answer, h.spaced⟩

theorem run (h : SubscriptionInv fromSeq pollMs w)
    (hrun : Steps.Run (World.step pollMs) w w') : SubscriptionInv fromSeq pollMs w' :=
  Steps.Run.invariant (fun _ _ hstep hinv => step hinv hstep) hrun h

end SubscriptionInv

/-- A subscription that is stopped, and what it has handed over. -/
def StoppedAt (delivered : List (ViewEvent ε)) (w : World ε) : Prop :=
  w.sub.stopped = true ∧ w.sub.delivered = delivered

theorem StoppedAt.step {delivered : List (ViewEvent ε)} (h : StoppedAt delivered w)
    (hstep : Steps.Step (World.step pollMs) w w') : StoppedAt delivered w' := by
  obtain ⟨action, haction⟩ := hstep
  cases action with
  | append payload | elapse ms =>
    rw [← Option.some.inj haction]
    exact h
  | tick =>
    simp only [World.step] at haction
    split at haction
    · rw [← Option.some.inj haction]
      split <;> exact h
    · cases haction
  | cycle =>
    simp only [World.step] at haction
    split at haction
    · rw [← Option.some.inj haction]
      split <;> exact h
    · split at haction
      · rw [← Option.some.inj haction]
        exact h
      · cases haction
    · cases haction
  | serve i page =>
    obtain ⟨read, hread, rfl⟩ := Option.map_eq_some_iff.mp haction
    exact h
  | arrive i onEvent =>
    obtain ⟨read, hread, hanswer⟩ := Option.bind_eq_some_iff.mp haction
    obtain ⟨events, hevents, rfl⟩ := Option.map_eq_some_iff.mp hanswer
    rw [deliver_stopped h.1]
    exact h
  | fail i =>
    obtain ⟨read, hread, rfl⟩ := Option.map_eq_some_iff.mp haction
    exact h
  | unsubscribe =>
    rw [← Option.some.inj haction]
    exact ⟨rfl, h.2⟩

/-- **Whatever is appended, lost or delayed: the caller is handed the events of the log after
`fromSeq`, in their order, each once and none left out, and nothing after it has unsubscribed; an
answer is handed over whole unless the caller throws or unsubscribes.  At most one request is in
flight, and the loop starts its requests `pollMs` apart.** -/
theorem subscription_delivers {held : Bool} {fromSeq : Option Nat} {log : List (ViewEvent ε)}
    {now : Nat} (hlog : LogOk log)
    (h : Steps.Run (World.step pollMs) (pollingSubscribe held fromSeq log now) w) :
    w.sub.delivered = between w.log (fromSeq.getD 0) w.sub.lastSeq ∧
    w.reads.length ≤ 1 ∧
    (w.sub.stopped = true → ∀ w', Steps.Run (World.step pollMs) w w' →
      w'.sub.delivered = w.sub.delivered) ∧
    (∀ i read events onEvent, w.reads[i]? = some read → read.answer = some events →
      (∀ event, (onEvent event).Quiet) → w.sub.stopped = false → ∀ w',
        w.step pollMs (.arrive i onEvent) = some w' → ∀ event ∈ events,
          fromSeq.getD 0 < event.seq → event ∈ w'.sub.delivered) ∧
    (w.loop ≠ .interval → w.starts.Pairwise fun a b => a + pollMs ≤ b) := by
  have hinv := (SubscriptionInv.initial held fromSeq hlog now).run h
  refine ⟨hinv.delivered, ?_, fun hstopped w' hrun => ?_, ?_, fun hloop => ?_⟩
  · rw [hinv.flight]
    split <;> decide
  · have hkept : StoppedAt w.sub.delivered w' :=
      Steps.Run.invariant (fun _ _ hstep hs => StoppedAt.step hs hstep) hrun ⟨hstopped, rfl⟩
    exact hkept.2
  · intro i read events onEvent hread hevents hquiet hrunning w' hstep event hmem hafter
    have hinv' := hinv.step ⟨_, hstep⟩
    obtain ⟨upTo, hupTo, rfl, -, hall⟩ := hinv.handed hread hevents onEvent
    simp only [World.step, hread, Option.bind_some, hevents, Option.map_some,
      Option.some.injEq] at hstep
    subst hstep
    have hreach := hall hquiet hrunning
    obtain ⟨hlogged, -, hseq⟩ := mem_between.mp hmem
    rw [hinv'.delivered]
    exact mem_between.mpr ⟨hlogged, hafter, Nat.le_trans hseq hreach⟩
  · have hspaced := hinv.spaced
    cases hcase : w.loop with
    | interval => exact absurd hcase hloop
    | head | reading started | sleeping wake =>
      rw [hcase] at hspaced
      exact hspaced.1
    | ended =>
      rw [hcase] at hspaced
      exact hspaced

/-- An event that is appended while the answer with the one before it is on its way. -/
def betweenAnswers : List (Action String) :=
  [.append "first", .tick, .serve 0 256, .append "second", .arrive 0 fun _ => ⟨false, false⟩,
    .tick, .serve 0 256, .tick, .arrive 0 fun _ => ⟨false, false⟩]

theorem subscription_delivers_betweenAnswers : ∃ w,
    Steps.perform (World.step 250) betweenAnswers (pollingSubscribe false none [] 0) = some w ∧
      w.sub.lastSeq = 2 ∧ w.sub.delivered = between w.log 0 2 ∧ w.log.length = 2 := by
  obtain ⟨w, hw⟩ : ∃ w, Steps.perform (World.step 250) betweenAnswers
      (pollingSubscribe false none [] 0) = some w := ⟨_, rfl⟩
  have hdelivered := (subscription_delivers logOk_nil (Steps.run_of_perform hw)).1
  obtain rfl := Option.some.inj hw
  exact ⟨_, rfl, rfl, hdelivered, rfl⟩

end Runs

end Autobuild.Subscriptions
