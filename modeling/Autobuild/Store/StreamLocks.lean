/-
# The locks of the streams

A promise chain for each key: a call waits for the promise that the map holds for its key and
leaves there its own, which settles when the call has settled, whatever it came to.  A call that
finds its own promise still in the map when that settles takes it out.

A state is what the promises of all calls have come to.  An action is one reaction of the language
to a settled promise, or what the body of a call does last; in which order the reactions run is
left open.

* `LocksInv.step`, `LocksInv.reached`: the promise found in the map is that of the last call with
  the key, and one that is not found is that of calls which are over.
* `LocksInv.earlier`: a body starts when those of all calls before it, with its key, are over.
* `orderly_locks`: at most one body runs for a key, first come first served; a body that throws
  keeps nobody waiting; and nothing stays in the map when all is over.
-/
import Mathlib.Algebra.Order.BigOperators.Group.Finset
import Mathlib.Data.List.Basic
import Mathlib.Logic.Function.Basic
import Autobuild.Lib.Steps

namespace Autobuild.StreamLocks

variable {κ : Type}

/-! ## 1. The chain of promises -/

/-- What a call has come to. -/
inductive Phase where
  /-- `turn` is not settled. -/
  | waiting
  /-- `fn` is called. -/
  | running
  /-- `run` is settled. -/
  | settled
  /-- `released` is settled. -/
  | released
  /-- The entry of the map is dropped, if it was this call's. -/
  | swept
  deriving DecidableEq

def Phase.rank : Phase → Nat
  | .waiting => 0
  | .running => 1
  | .settled => 2
  | .released => 3
  | .swept => 4

structure Turn (κ : Type) where
  key : κ
  /-- The call whose `released` is `tail`; none for `Promise.resolve()`. -/
  tail : Option Nat
  phase : Phase

def Turn.Over (turn : Turn κ) : Prop := 3 ≤ turn.phase.rank

/-- `fn` is called, and `released` not yet settled. -/
def Turn.Holds (turn : Turn κ) : Prop := 1 ≤ turn.phase.rank ∧ turn.phase.rank < 3

instance (turn : Turn κ) : Decidable turn.Over := inferInstanceAs (Decidable (3 ≤ turn.phase.rank))

structure Locks (κ : Type) where
  /-- `tails` -/
  tails : κ → Option Nat := fun _ => none
  /-- The calls of `run`, in their order. -/
  turns : List (Turn κ) := []

inductive LockAction (κ : Type) where
  /-- `run(key, fn)` -/
  | run (key : κ)
  /-- `turn.then(fn)`, of this call. -/
  | enter (i : Nat)
  /-- `fn` is done, by its value or by a throw. -/
  | settle (i : Nat)
  /-- `run.then(…)` -/
  | release (i : Nat)
  /-- `released.then(…)` -/
  | sweep (i : Nat)

/-- The key of a new call. -/
def LockAction.runs : LockAction κ → Option κ
  | .run key => some key
  | _ => none

namespace Locks

section

variable (l : Locks κ)

/-- Whether `tail` is settled. -/
def free : Option Nat → Bool
  | none => true
  | some j => l.turns[j]?.any fun turn => decide turn.Over

def moved (i : Nat) (phase : Phase) : Locks κ :=
  { l with turns := l.turns.modify i fun turn => { turn with phase := phase } }

end

variable [DecidableEq κ] (l : Locks κ)

/-- `if (this.tails.get(key) === released) this.tails.delete(key)` -/
def dropped (key : κ) (i : Nat) : Locks κ :=
  if l.tails key = some i then { l with tails := Function.update l.tails key none } else l

/-- `this.tails.set(key, released)` -/
def called (key : κ) : Locks κ :=
  { tails := Function.update l.tails key (some l.turns.length)
    turns := l.turns ++ [⟨key, l.tails key, .waiting⟩] }

def step : LockAction κ → Option (Locks κ)
  | .run key => some (l.called key)
  | .enter i => l.turns[i]?.bind fun turn =>
      if turn.phase = .waiting ∧ l.free turn.tail = true then some (l.moved i .running) else none
  | .settle i => l.turns[i]?.bind fun turn =>
      if turn.phase = .running then some (l.moved i .settled) else none
  | .release i => l.turns[i]?.bind fun turn =>
      if turn.phase = .settled then some (l.moved i .released) else none
  | .sweep i => l.turns[i]?.bind fun turn =>
      if turn.phase = .released then some ((l.moved i .swept).dropped turn.key i) else none

end Locks

section Steps

variable [DecidableEq κ]

abbrev LockStep : Locks κ → Locks κ → Prop := Steps.Step Locks.step

/-- What the locks come to. -/
def LocksReached : Locks κ → Prop := Steps.Run Locks.step {}

/-! ## 2. What a step does -/

/-- One call goes from one phase to the next; `swept` also looks into the map. -/
inductive Moves (l : Locks κ) (i : Nat) (turn : Turn κ) : Locks κ → Prop where
  | enter (hphase : turn.phase = .waiting) (hfree : l.free turn.tail = true) :
      Moves l i turn (l.moved i .running)
  | settle (hphase : turn.phase = .running) : Moves l i turn (l.moved i .settled)
  | release (hphase : turn.phase = .settled) : Moves l i turn (l.moved i .released)
  | sweep (hphase : turn.phase = .released) :
      Moves l i turn ((l.moved i .swept).dropped turn.key i)

theorem step_cases {l l' : Locks κ} (h : LockStep l l') :
    (∃ key, l' = l.called key) ∨
      ∃ i turn, l.turns[i]? = some turn ∧ Moves l i turn l' := by
  obtain ⟨action, haction⟩ := h
  cases action with
  | run key => exact .inl ⟨key, (Option.some.inj haction).symm⟩
  | enter i =>
    obtain ⟨turn, hturn, hstep⟩ := Option.bind_eq_some_iff.mp haction
    split at hstep
    · rename_i hguard
      exact .inr ⟨i, turn, hturn, Option.some.inj hstep ▸ .enter hguard.1 hguard.2⟩
    · cases hstep
  | settle i =>
    obtain ⟨turn, hturn, hstep⟩ := Option.bind_eq_some_iff.mp haction
    split at hstep
    · rename_i hguard
      exact .inr ⟨i, turn, hturn, Option.some.inj hstep ▸ .settle hguard⟩
    · cases hstep
  | release i =>
    obtain ⟨turn, hturn, hstep⟩ := Option.bind_eq_some_iff.mp haction
    split at hstep
    · rename_i hguard
      exact .inr ⟨i, turn, hturn, Option.some.inj hstep ▸ .release hguard⟩
    · cases hstep
  | sweep i =>
    obtain ⟨turn, hturn, hstep⟩ := Option.bind_eq_some_iff.mp haction
    split at hstep
    · rename_i hguard
      exact .inr ⟨i, turn, hturn, Option.some.inj hstep ▸ .sweep hguard⟩
    · cases hstep

end Steps

namespace Locks

variable {l : Locks κ} {i : Nat}

@[simp] theorem dropped_turns [DecidableEq κ] (key : κ) :
    (l.dropped key i).turns = l.turns := by
  unfold dropped
  split <;> rfl

theorem moved_at (phase : Phase) (k : Nat) : (l.moved i phase).turns[k]? =
    (l.turns[k]?).map fun turn => if i = k then { turn with phase := phase } else turn :=
  List.getElem?_modify ..

theorem moved_cases {phase : Phase} {k : Nat} {turn : Turn κ}
    (h : (l.moved i phase).turns[k]? = some turn) :
    (k = i ∧ ∃ source, l.turns[i]? = some source ∧ turn = { source with phase := phase }) ∨
      (k ≠ i ∧ l.turns[k]? = some turn) := by
  rw [moved_at] at h
  obtain ⟨source, hsource, rfl⟩ := Option.map_eq_some_iff.mp h
  by_cases hik : i = k
  · subst hik
    rw [if_pos rfl]
    exact .inl ⟨rfl, source, hsource, rfl⟩
  · rw [if_neg hik]
    exact .inr ⟨fun hki => hik hki.symm, hsource⟩

@[simp] theorem moved_length (phase : Phase) :
    (l.moved i phase).turns.length = l.turns.length :=
  List.length_modify ..

end Locks

/-- The calls stay what they are, and go forward. -/
structure Forward (turns turns' : List (Turn κ)) : Prop where
  kept : ∀ (k : Nat) (turn : Turn κ), turns[k]? = some turn →
    ∃ turn' : Turn κ, turns'[k]? = some turn' ∧
    turn'.key = turn.key ∧ turn'.tail = turn.tail ∧ turn.phase.rank ≤ turn'.phase.rank
  before : ∀ (k : Nat) (turn' : Turn κ), turns'[k]? = some turn' → k < turns.length →
    ∃ turn : Turn κ, turns[k]? = some turn ∧ turn'.key = turn.key ∧ turn'.tail = turn.tail ∧
      turn.phase.rank ≤ turn'.phase.rank

theorem Forward.append (turns more : List (Turn κ)) : Forward turns (turns ++ more) where
  kept k turn hk := by
    have hlt := (List.getElem?_eq_some_iff.mp hk).1
    exact ⟨turn, by rw [List.getElem?_append_left hlt, hk], rfl, rfl, Nat.le_refl _⟩
  before k turn' hk hlt := by
    rw [List.getElem?_append_left hlt] at hk
    exact ⟨turn', hk, rfl, rfl, Nat.le_refl _⟩

theorem Forward.moved {l : Locks κ} {i : Nat} {turn : Turn κ} {phase : Phase}
    (hturn : l.turns[i]? = some turn) (hrank : turn.phase.rank ≤ phase.rank) :
    Forward l.turns (l.moved i phase).turns where
  kept k other hk := by
    refine ⟨_, by rw [Locks.moved_at, hk, Option.map_some], ?_⟩
    split
    · rename_i hik
      subst hik
      cases hturn.symm.trans hk
      exact ⟨rfl, rfl, hrank⟩
    · exact ⟨rfl, rfl, Nat.le_refl _⟩
  before k other hk _ := by
    rw [Locks.moved_at] at hk
    obtain ⟨source, hsource, rfl⟩ := Option.map_eq_some_iff.mp hk
    refine ⟨source, hsource, ?_⟩
    split
    · rename_i hik
      subst hik
      cases hturn.symm.trans hsource
      exact ⟨rfl, rfl, hrank⟩
    · exact ⟨rfl, rfl, Nat.le_refl _⟩

/-- The calls after one that moves, whatever the move. -/
theorem Moves.forward [DecidableEq κ] {l l' : Locks κ} {i : Nat} {turn : Turn κ}
    (h : Moves l i turn l')
    (hturn : l.turns[i]? = some turn) : Forward l.turns l'.turns := by
  cases h with
  | enter hphase _ => exact .moved hturn (by rw [hphase]; decide)
  | settle hphase => exact .moved hturn (by rw [hphase]; decide)
  | release hphase => exact .moved hturn (by rw [hphase]; decide)
  | sweep hphase =>
    rw [Locks.dropped_turns]
    exact .moved hturn (by rw [hphase]; decide)

theorem Moves.length_eq [DecidableEq κ] {l l' : Locks κ} {i : Nat} {turn : Turn κ}
    (h : Moves l i turn l') :
    l'.turns.length = l.turns.length := by
  cases h <;> simp

/-! ## 3. Whose promise is in the map -/

/-- Among the first calls, this is the last one with the key; when there is none to wait for, all
of them are over. -/
def LastCall (turns : List (Turn κ)) (key : κ) (first : Nat) : Option Nat → Prop
  | some j => j < first ∧ (∃ turn : Turn κ, turns[j]? = some turn ∧ turn.key = key) ∧
      ∀ (k : Nat) (turn : Turn κ), j < k → k < first → turns[k]? = some turn → turn.key ≠ key
  | none => ∀ (k : Nat) (turn : Turn κ), k < first → turns[k]? = some turn →
      turn.key = key → turn.Over

theorem LastCall.forward {turns turns' : List (Turn κ)} {key : κ} {first : Nat}
    {tail : Option Nat} (h : LastCall turns key first tail) (hforward : Forward turns turns')
    (hfirst : first ≤ turns.length) : LastCall turns' key first tail := by
  cases tail with
  | none =>
    intro k turn' hk hturn' hkey
    obtain ⟨turn, hturn, hsame, -, hrank⟩ :=
      hforward.before k turn' hturn' (Nat.lt_of_lt_of_le hk hfirst)
    exact Nat.le_trans (h k turn hk hturn (hsame.symm.trans hkey)) hrank
  | some j =>
    obtain ⟨hj, ⟨turn, hturn, hkey⟩, hbetween⟩ := h
    obtain ⟨turn', hturn', hsame, -, -⟩ := hforward.kept j turn hturn
    refine ⟨hj, ⟨turn', hturn', hsame.trans hkey⟩, fun k other' hjk hk hother' => ?_⟩
    obtain ⟨other, hother, hkey', -, -⟩ :=
      hforward.before k other' hother' (Nat.lt_of_lt_of_le hk hfirst)
    rw [hkey']
    exact hbetween k other hjk hk hother

/-- Each call waits for the last one before it, and the map says for whom the next one waits. -/
structure Chained (l : Locks κ) : Prop where
  tails : ∀ key, LastCall l.turns key l.turns.length (l.tails key)
  tail : ∀ (i : Nat) (turn : Turn κ), l.turns[i]? = some turn →
    LastCall l.turns turn.key i turn.tail
  entered : ∀ (i : Nat) (turn : Turn κ) (j : Nat) (before : Turn κ), l.turns[i]? = some turn →
    1 ≤ turn.phase.rank → turn.tail = some j → l.turns[j]? = some before → before.Over

/-- What is so between two reactions. -/
structure LocksInv (l : Locks κ) : Prop extends Chained l where
  /-- What is in the map is not dropped. -/
  kept : ∀ key (i : Nat) (turn : Turn κ), l.tails key = some i → l.turns[i]? = some turn →
    turn.phase ≠ .swept

namespace Chained

variable {l : Locks κ} {i : Nat} {turn : Turn κ}

/-- Who has entered waited for all calls before it. -/
theorem earlier (h : Chained l) : ∀ {i : Nat} {turn : Turn κ}, l.turns[i]? = some turn →
    1 ≤ turn.phase.rank → ∀ (k : Nat) (other : Turn κ), k < i → l.turns[k]? = some other →
      other.key = turn.key → other.Over := by
  intro i
  -- on the call: behind its tail no call has the key, and before its tail the tail itself waited
  induction i using Nat.strongRecOn with
  | _ i ih =>
    intro turn hturn hentered k other hk hother hkey
    have hlast := h.tail i turn hturn
    cases htail : turn.tail with
    | none =>
      rw [htail] at hlast
      exact hlast k other hk hother hkey
    | some j =>
      rw [htail] at hlast
      obtain ⟨hj, ⟨before, hbefore, hsame⟩, hbetween⟩ := hlast
      have hover := h.entered i turn j before hturn hentered htail hbefore
      rcases Nat.lt_trichotomy k j with hkj | rfl | hjk
      · exact ih j hj hbefore (Nat.le_trans (by decide) hover) k other hkj hother
          (hkey.trans hsame.symm)
      · cases hbefore.symm.trans hother
        exact hover
      · exact absurd hkey (hbetween k other hjk hk hother)

theorem key_of_tails (h : Chained l) {key : κ} (htail : l.tails key = some i)
    (hturn : l.turns[i]? = some turn) : turn.key = key := by
  have hlast := h.tails key
  rw [htail] at hlast
  obtain ⟨-, ⟨owner, howner, hsame⟩, -⟩ := hlast
  cases hturn.symm.trans howner
  exact hsame

/-- A phase further. -/
theorem moved (h : Chained l) (hturn : l.turns[i]? = some turn) {phase : Phase}
    (hrank : turn.phase.rank ≤ phase.rank)
    (henter : turn.phase.rank = 0 → l.free turn.tail = true) : Chained (l.moved i phase) := by
  have hforward := Forward.moved hturn hrank
  have hlen : (l.moved i phase).turns.length = l.turns.length := Locks.moved_length phase
  refine ⟨fun key => ?_, fun k other hk => ?_, fun k other j before hk hentered htail hj => ?_⟩
  · rw [hlen]
    exact (h.tails key).forward hforward (Nat.le_refl _)
  · have hle : k ≤ l.turns.length :=
      hlen ▸ Nat.le_of_lt (List.getElem?_eq_some_iff.mp hk).1
    rcases Locks.moved_cases hk with ⟨rfl, source, hsource, rfl⟩ | ⟨-, hold⟩
    · exact (h.tail k source hsource).forward hforward hle
    · exact (h.tail k other hold).forward hforward hle
  · have hjlt : j < l.turns.length := hlen ▸ (List.getElem?_eq_some_iff.mp hj).1
    obtain ⟨source, hsource, -, -, hle⟩ := hforward.before j before hj hjlt
    suffices hover : source.Over from Nat.le_trans hover hle
    rcases Locks.moved_cases hk with ⟨rfl, waiting, hwaiting, rfl⟩ | ⟨-, hold⟩
    · cases hturn.symm.trans hwaiting
      change turn.tail = some j at htail
      rcases Nat.eq_zero_or_pos turn.phase.rank with hzero | hpos
      · have hfree := henter hzero
        rw [htail] at hfree
        change Option.any _ l.turns[j]? = true at hfree
        rw [hsource] at hfree
        exact of_decide_eq_true hfree
      · exact h.entered k turn j source hturn hpos htail hsource
    · exact h.entered k other j source hold hentered htail hsource

/-- Who is over may leave the map: so are all before it. -/
theorem dropped [DecidableEq κ] (h : Chained l) (hturn : l.turns[i]? = some turn)
    (hover : turn.Over) : Chained (l.dropped turn.key i) := by
  unfold Locks.dropped
  split
  · rename_i hown
    refine ⟨fun key => ?_, h.tail, h.entered⟩
    change LastCall l.turns key l.turns.length (Function.update l.tails turn.key none key)
    by_cases hkey : key = turn.key
    · have hold := h.tails turn.key
      rw [hown] at hold
      rw [hkey, Function.update_self]
      intro k other hk hother hsame
      rcases Nat.lt_trichotomy k i with hlt | rfl | hgt
      · exact h.earlier hturn (Nat.le_trans (by decide) hover) k other hlt hother hsame
      · cases hturn.symm.trans hother
        exact hover
      · exact absurd hsame (hold.2.2 k other hgt hk hother)
    · rw [Function.update_of_ne hkey]
      exact h.tails key
  · exact h

end Chained

namespace LocksInv

variable {l l' : Locks κ} {i : Nat} {turn : Turn κ}

theorem initial : LocksInv ({} : Locks κ) where
  tails _ := fun k _ hk _ _ => absurd hk (Nat.not_lt_zero k)
  tail i turn hturn := by cases hturn
  entered i turn j before hturn := by cases hturn
  kept key i turn htail := by cases htail

variable [DecidableEq κ]

/-- A call of `run`. -/
theorem run (h : LocksInv l) (key : κ) : LocksInv (l.called key) := by
  have hforward := Forward.append l.turns [⟨key, l.tails key, .waiting⟩]
  have hnew : (l.turns ++ [⟨key, l.tails key, .waiting⟩])[l.turns.length]?
      = some ⟨key, l.tails key, .waiting⟩ := List.getElem?_concat_length ..
  have hcases : ∀ {k : Nat} {turn : Turn κ},
      (l.turns ++ [⟨key, l.tails key, .waiting⟩])[k]? = some turn →
      l.turns[k]? = some turn ∨ (k = l.turns.length ∧ turn = ⟨key, l.tails key, .waiting⟩) := by
    intro k turn hk
    rcases Nat.lt_or_ge k l.turns.length with hlt | hge
    · rw [List.getElem?_append_left hlt] at hk
      exact .inl hk
    · have hlt := (List.getElem?_eq_some_iff.mp hk).1
      rw [List.length_append, List.length_singleton] at hlt
      obtain rfl : k = l.turns.length := by omega
      exact .inr ⟨rfl, (Option.some.inj (hnew.symm.trans hk)).symm⟩
  refine ⟨⟨fun other => ?_, fun i turn hi => ?_,
    fun i turn j before hi hrank htail hj => ?_⟩, fun other i turn htail hi => ?_⟩
  · change LastCall (l.turns ++ _) other (l.turns ++ _).length
      (Function.update l.tails key (some l.turns.length) other)
    rw [List.length_append, List.length_singleton]
    by_cases hother : other = key
    · subst hother
      rw [Function.update_self]
      refine ⟨Nat.lt_succ_self _, ⟨_, hnew, rfl⟩, fun k turn hk hlt _ => ?_⟩
      omega
    · rw [Function.update_of_ne hother]
      have hlast := (h.tails other).forward hforward (Nat.le_refl _)
      cases htail : l.tails other with
      | none =>
        rw [htail] at hlast
        intro k turn hk hturn hkey
        rcases hcases hturn with hold | ⟨rfl, rfl⟩
        · exact hlast k turn (List.getElem?_eq_some_iff.mp hold).1 hturn hkey
        · exact absurd hkey.symm hother
      | some j =>
        rw [htail] at hlast
        obtain ⟨hj, hat, hbetween⟩ := hlast
        refine ⟨Nat.lt_succ_of_lt hj, hat, fun k turn hjk _ hturn => ?_⟩
        rcases hcases hturn with hold | ⟨rfl, rfl⟩
        · exact hbetween k turn hjk (List.getElem?_eq_some_iff.mp hold).1 hturn
        · exact fun hkey => hother hkey.symm
  · rcases hcases hi with hold | ⟨rfl, rfl⟩
    · exact (h.tail i turn hold).forward hforward
        (Nat.le_of_lt (List.getElem?_eq_some_iff.mp hold).1)
    · exact (h.tails key).forward hforward (Nat.le_refl _)
  · rcases hcases hi with hold | ⟨rfl, rfl⟩
    · have hlt : j < i := by
        have hlast := h.tail i turn hold
        rw [htail] at hlast
        exact hlast.1
      have hjlt : j < l.turns.length :=
        Nat.lt_trans hlt (List.getElem?_eq_some_iff.mp hold).1
      rw [show (l.called key).turns = l.turns ++ [_] from rfl,
        List.getElem?_append_left hjlt] at hj
      exact h.entered i turn j before hold hrank htail hj
    · exact absurd hrank (Nat.not_succ_le_zero 0)
  · change Function.update l.tails key (some l.turns.length) other = some i at htail
    change (l.turns ++ _)[i]? = some turn at hi
    by_cases hother : other = key
    · subst hother
      rw [Function.update_self] at htail
      cases htail
      cases hnew.symm.trans hi
      exact Phase.noConfusion
    · rw [Function.update_of_ne hother] at htail
      have hlast := h.tails other
      rw [htail] at hlast
      rw [List.getElem?_append_left hlast.1] at hi
      exact h.kept other i turn htail hi

omit [DecidableEq κ] in
theorem moved (h : LocksInv l) (hturn : l.turns[i]? = some turn) {phase : Phase}
    (hrank : turn.phase.rank ≤ phase.rank) (hswept : phase ≠ .swept)
    (henter : turn.phase.rank = 0 → l.free turn.tail = true) : LocksInv (l.moved i phase) := by
  refine ⟨h.toChained.moved hturn hrank henter, fun key k other htail hk => ?_⟩
  rcases Locks.moved_cases hk with ⟨-, source, -, rfl⟩ | ⟨-, hold⟩
  · exact hswept
  · exact h.kept key k other htail hold

/-- The last reaction: who finds its own promise in the map takes it out. -/
theorem sweep (h : LocksInv l) (hturn : l.turns[i]? = some turn)
    (hphase : turn.phase = .released) : LocksInv ((l.moved i .swept).dropped turn.key i) := by
  have hmoved : Chained (l.moved i .swept) :=
    h.toChained.moved hturn (by rw [hphase]; decide) fun hzero => by
      rw [hphase] at hzero
      cases hzero
  have hnow : (l.moved i .swept).turns[i]? = some { turn with phase := .swept } := by
    rw [Locks.moved_at, hturn, Option.map_some, if_pos rfl]
  have hdropped := hmoved.dropped hnow (by decide : 3 ≤ 4)
  refine ⟨hdropped, fun key k other htail hk => ?_⟩
  rw [Locks.dropped_turns] at hk
  have hbefore : l.tails key = some k ∧ ¬ (key = turn.key ∧ k = i) := by
    unfold Locks.dropped at htail
    by_cases hown : (l.moved i .swept).tails turn.key = some i
    · rw [if_pos hown] at htail
      change Function.update l.tails turn.key none key = some k at htail
      by_cases hkey : key = turn.key
      · rw [hkey, Function.update_self] at htail
        cases htail
      · rw [Function.update_of_ne hkey] at htail
        exact ⟨htail, fun hboth => hkey hboth.1⟩
    · rw [if_neg hown] at htail
      exact ⟨htail, fun hboth => hown (hboth.1 ▸ hboth.2 ▸ htail)⟩
  rcases Locks.moved_cases hk with ⟨rfl, -⟩ | ⟨-, hold⟩
  · exact absurd ⟨(h.key_of_tails hbefore.1 hturn).symm, rfl⟩ hbefore.2
  · exact h.kept key k other hbefore.1 hold

theorem step (h : LocksInv l) (hstep : LockStep l l') : LocksInv l' := by
  obtain ⟨key, rfl⟩ | ⟨i, turn, hturn, hmove⟩ := step_cases hstep
  · exact h.run key
  · cases hmove with
    | enter hphase hfree =>
      exact h.moved hturn (by rw [hphase]; decide) (fun he => by cases he) fun _ => hfree
    | settle hphase =>
      exact h.moved hturn (by rw [hphase]; decide) (fun he => by cases he) fun hzero => by
        rw [hphase] at hzero
        cases hzero
    | release hphase =>
      exact h.moved hturn (by rw [hphase]; decide) (fun he => by cases he) fun hzero => by
        rw [hphase] at hzero
        cases hzero
    | sweep hphase => exact h.sweep hturn hphase

theorem reached (h : LocksReached l) : LocksInv l :=
  Steps.Run.invariant (fun _ _ hstep hinv => LocksInv.step hinv hstep) h initial

end LocksInv

/-! ## 4. Until all is over -/

section Drain

variable [DecidableEq κ] {l l' : Locks κ}

/-- The reactions that are still to come. -/
def pending (l : Locks κ) : Nat :=
  ∑ k ∈ Finset.range l.turns.length, (l.turns[k]?.elim 0 fun turn => 4 - turn.phase.rank)

theorem Phase.rank_le (phase : Phase) : phase.rank ≤ 4 := by cases phase <;> decide

theorem Moves.rank_lt {i : Nat} {turn turn' : Turn κ} (h : Moves l i turn l')
    (hturn' : l'.turns[i]? = some turn') :
    turn.phase.rank < turn'.phase.rank := by
  have hafter : ∀ {phase : Phase} {after : Turn κ}, (l.moved i phase).turns[i]? = some after →
      after.phase = phase := by
    intro phase after hafter
    rcases Locks.moved_cases hafter with ⟨-, source, -, rfl⟩ | ⟨hne, -⟩
    · rfl
    · exact absurd rfl hne
  cases h with
  | enter hphase _ =>
    rw [hphase, hafter hturn']
    decide
  | settle hphase =>
    rw [hphase, hafter hturn']
    decide
  | release hphase =>
    rw [hphase, hafter hturn']
    decide
  | sweep hphase =>
    rw [Locks.dropped_turns] at hturn'
    rw [hphase, hafter hturn']
    decide

theorem Moves.pending_lt {i : Nat} {turn : Turn κ} (h : Moves l i turn l')
    (hturn : l.turns[i]? = some turn) : pending l' < pending l := by
  unfold pending
  rw [h.length_eq]
  refine Finset.sum_lt_sum (fun k hk => ?_) ⟨i, ?_, ?_⟩
  · have hlt := Finset.mem_range.mp hk
    obtain ⟨after, hafter, -, -, hle⟩ :=
      (h.forward hturn).kept k l.turns[k] (List.getElem?_eq_getElem hlt)
    rw [hafter, List.getElem?_eq_getElem hlt]
    exact Nat.sub_le_sub_left hle 4
  · exact Finset.mem_range.mpr (List.getElem?_eq_some_iff.mp hturn).1
  · obtain ⟨after, hafter, -⟩ := (h.forward hturn).kept i turn hturn
    have hlt := h.rank_lt hafter
    have hle := after.phase.rank_le
    rw [hafter, hturn]
    change 4 - after.phase.rank < 4 - turn.phase.rank
    omega

/-- The first call that is not over is not kept waiting. -/
theorem LocksInv.exists_move (h : LocksInv l) (hleft : ∃ turn ∈ l.turns, turn.phase ≠ .swept) :
    ∃ (i : Nat) (turn : Turn κ) (l' : Locks κ), l.turns[i]? = some turn ∧
      Moves l i turn l' ∧ LockStep l l' := by
  have hexists : ∃ (i : Nat) (turn : Turn κ), l.turns[i]? = some turn ∧ turn.phase ≠ .swept := by
    obtain ⟨turn, hmem, hphase⟩ := hleft
    obtain ⟨i, hi⟩ := List.mem_iff_getElem?.mp hmem
    exact ⟨i, turn, hi, hphase⟩
  classical
  obtain ⟨turn, hturn, hphase⟩ := Nat.find_spec hexists
  have hbefore : ∀ k < Nat.find hexists, ∀ other : Turn κ, l.turns[k]? = some other →
      other.phase = .swept := by
    intro k hk other hother
    by_contra hne
    exact Nat.find_min hexists hk ⟨other, hother, hne⟩
  generalize Nat.find hexists = i at hturn hbefore
  have hstep : ∀ {action : LockAction κ} {l' : Locks κ}, l.step action = some l' →
      LockStep l l' := fun hs => ⟨_, hs⟩
  cases hcase : turn.phase with
  | waiting =>
    have hfree : l.free turn.tail = true := by
      have hlast := h.tail i turn hturn
      cases htail : turn.tail with
      | none => rfl
      | some j =>
        rw [htail] at hlast
        obtain ⟨hj, ⟨before, hat, -⟩, -⟩ := hlast
        have hover : before.Over := by
          unfold Turn.Over
          rw [hbefore j hj before hat]
          decide
        change Option.any _ l.turns[j]? = true
        rw [hat]
        exact decide_eq_true hover
    refine ⟨i, turn, _, hturn, .enter hcase hfree, ?_⟩
    exact @hstep (.enter i) _ (by rw [Locks.step, hturn]; exact if_pos ⟨hcase, hfree⟩)
  | running =>
    refine ⟨i, turn, _, hturn, .settle hcase, ?_⟩
    exact @hstep (.settle i) _ (by rw [Locks.step, hturn]; exact if_pos hcase)
  | settled =>
    refine ⟨i, turn, _, hturn, .release hcase, ?_⟩
    exact @hstep (.release i) _ (by rw [Locks.step, hturn]; exact if_pos hcase)
  | released =>
    refine ⟨i, turn, _, hturn, .sweep hcase, ?_⟩
    exact @hstep (.sweep i) _ (by rw [Locks.step, hturn]; exact if_pos hcase)
  | swept => exact absurd hcase hphase

omit [DecidableEq κ] in
theorem LocksInv.idle (h : LocksInv l) {key : κ}
    (hswept : ∀ turn ∈ l.turns, turn.key = key → turn.phase = .swept) : l.tails key = none := by
  cases htail : l.tails key with
  | none => rfl
  | some i =>
    have hlast := h.tails key
    rw [htail] at hlast
    obtain ⟨-, ⟨turn, hturn, hkey⟩, -⟩ := hlast
    exact absurd (hswept turn (List.mem_of_getElem? hturn) hkey) (h.kept key i turn htail hturn)

/-- The same calls, all over, and nothing left in the map. -/
structure Drained (l l' : Locks κ) : Prop where
  run : Steps.Run Locks.step l l'
  length_eq : l'.turns.length = l.turns.length
  swept : ∀ turn ∈ l'.turns, turn.phase = .swept
  empty : ∀ key, l'.tails key = none

theorem LocksInv.drained (h : LocksInv l) : ∃ l', Drained l l' := by
  induction hpending : pending l using Nat.strongRecOn generalizing l with
  | _ n ih =>
    by_cases hleft : ∃ turn ∈ l.turns, turn.phase ≠ .swept
    · obtain ⟨i, turn, next, hturn, hmove, hstep⟩ := h.exists_move hleft
      obtain ⟨l', hdrained⟩ :=
        ih (pending next) (hpending ▸ hmove.pending_lt hturn) (h.step hstep) rfl
      exact ⟨l', .head hstep hdrained.run, hdrained.length_eq.trans hmove.length_eq,
        hdrained.swept, hdrained.empty⟩
    · have hswept : ∀ turn ∈ l.turns, turn.phase = .swept := by
        intro turn hmem
        by_contra hne
        exact hleft ⟨turn, hmem, hne⟩
      exact ⟨l, .refl, rfl, hswept, fun key => h.idle fun turn hmem _ => hswept turn hmem⟩

end Drain

/-! ## 5. The locks -/

/-- At most one body runs for a key. -/
theorem Chained.exclusive {l : Locks κ} (h : Chained l) {i j : Nat} {turn other : Turn κ}
    (hi : l.turns[i]? = some turn) (hj : l.turns[j]? = some other) (hkey : turn.key = other.key)
    (hturn : turn.Holds) (hother : other.Holds) : i = j := by
  rcases Nat.lt_trichotomy i j with hij | hij | hji
  · exact absurd (h.earlier hj hother.1 i turn hij hi hkey) (Nat.not_le.mpr hturn.2)
  · exact hij
  · exact absurd (h.earlier hi hturn.1 j other hji hj hkey.symm) (Nat.not_le.mpr hother.2)

/-- **At most one body runs for a key, first come first served; whatever the bodies come to, all
calls end, and a key that all calls are done with is not in the map.** -/
theorem orderly_locks [DecidableEq κ] {l : Locks κ} (h : LocksReached l) :
    (∀ (i j : Nat) (turn other : Turn κ), l.turns[i]? = some turn → l.turns[j]? = some other →
      turn.key = other.key → turn.Holds → other.Holds → i = j) ∧
    (∀ (k i : Nat) (other turn : Turn κ), l.turns[k]? = some other → l.turns[i]? = some turn →
      other.key = turn.key → k < i → turn.phase ≠ .waiting → other.Over) ∧
    (∀ key, (∀ turn ∈ l.turns, turn.key = key → turn.phase = .swept) → l.tails key = none) ∧
    ∃ l', Drained l l' := by
  have hinv := LocksInv.reached h
  refine ⟨fun i j turn other hi hj hkey hturn hother => ?_,
    fun k i other turn hk hi hkey hlt hphase => ?_, fun key => hinv.idle, hinv.drained⟩
  · exact hinv.exclusive hi hj hkey hturn hother
  · refine hinv.earlier hi ?_ k other hlt hk hkey
    cases hcase : turn.phase <;> first | exact absurd hcase hphase | decide

/-- Two calls for one stream, and one for another that has overtaken the second. -/
def threeCalls : List (LockAction String) :=
  [.run "st_1", .run "st_1", .run "st_2", .enter 0, .enter 2, .settle 0, .settle 2, .release 0,
    .enter 1]

theorem orderly_locks_threeCalls : ∃ l, Steps.perform Locks.step threeCalls {} = some l ∧
    l.turns.map (·.phase) = [.released, .running, .settled] ∧ ∃ l', Drained l l' := by
  obtain ⟨l, hl⟩ : ∃ l, Steps.perform Locks.step threeCalls {} = some l := ⟨_, rfl⟩
  have hreached : LocksReached l := Steps.run_of_perform hl
  refine ⟨l, hl, ?_, (orderly_locks hreached).2.2.2⟩
  obtain rfl := Option.some.inj hl
  rfl

end Autobuild.StreamLocks
