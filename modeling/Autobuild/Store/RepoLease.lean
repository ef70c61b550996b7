/-
# One holder at a time, and one finish for a tick

Both stores answer the calls on a repository's lease and tick alike: each refines the same
abstract step on the lease, the tick record and the journal (`RepoView`).  The properties are
about the history of calls and replies, that is, about what the holders know.

* `grantOf` is the lease a holder was last told it has.  `Fenced` says that an unexpired grant
  is the store's lease, which is what makes holders exclude each other.
* `TickTrace` numbers the ticks as they begin; a finish belongs to the latest.
* `repoLease_fenced` assembles exclusion, takeover and the finish of ticks for either store.
-/
import Autobuild.Store.RepoTick
import Mathlib.Data.List.Induction
import Mathlib.Data.List.Nodup

namespace Autobuild

/-! ## 1. The abstract step -/

/-- What the calls are about. -/
structure RepoView where
  lease : Option Lease := none
  tick : Option RepoTickObservation := none
  events : List RepositoryEvent := []

namespace RepoView

variable (view : RepoView)

def finish (holder : Holder) (completion : RepoTickCompletion)
    (validated : List RepositoryEventWrite) (clock : Clock) : RepoReply × RepoView :=
  if Lease.heldBy view.lease holder clock.now then
    match openBy view.tick holder with
    | none => (.threw "no open repository tick", view)
    | some startedAt =>
      let appended := envelopes view.events.length clock.stamp validated
      let tick := closedTick holder completion startedAt clock.stamp
      (.finished (some ⟨tick, appended⟩),
        { view with tick := some tick, events := view.events ++ appended })
  else (.finished none, view)

def call (request : RepoCall) (clock : Clock) : RepoReply × RepoView :=
  match request with
  | .claimRepoLease holder ttlMs =>
    if Lease.claimable view.lease holder clock.now then
      (.leased true, { view with lease := some ⟨holder, clock.now + ttlMs, ttlMs⟩ })
    else (.leased false, view)
  | .heartbeatRepo holder =>
    if Lease.heldBy view.lease holder clock.now then
      (.leased true,
        { view with
          lease := view.lease.map fun lease =>
            { lease with expiresAt := clock.now + lease.ttlMs } })
    else (.leased false, view)
  | .releaseRepoLease holder =>
    (.released,
      { view with lease := view.lease.filter fun lease => decide (lease.holder ≠ holder) })
  | .beginRepoTick holder =>
    if Lease.heldBy view.lease holder clock.now then
      (.begun (some clock.stamp),
        { view with tick := some (openedTick holder clock.stamp view.tick) })
    else (.begun none, view)
  | .finishRepoTick holder completion events =>
    match validateTickFinish holder completion events with
    | .error message => (.threw message, view)
    | .ok validated => view.finish holder completion validated clock

end RepoView

/-! ## 2. Stores -/

/-- A store, as the calls on one repository see it. -/
structure RepoStore where
  State : Type
  initial : State
  call : State → RepoCall → Clock → RepoReply × State
  view : State → RepoView

/-- One call that was made, and its reply. -/
structure Called where
  request : RepoCall
  clock : Clock
  reply : RepoReply

/-- A step of a run: make the call, keep the reply. -/
def RepoStore.step (store : RepoStore) (run : List Called × store.State)
    (request : RepoCall × Clock) : List Called × store.State :=
  let answer := store.call run.2 request.1 request.2
  (run.1 ++ [⟨request.1, request.2, answer.1⟩], answer.2)

/-- Any calls, one after another. -/
def RepoStore.run (store : RepoStore) (calls : List (RepoCall × Clock)) :
    List Called × store.State :=
  calls.foldl store.step ([], store.initial)

/-- The clock does not go back from one call to the next. -/
def InOrder (calls : List (RepoCall × Clock)) : Prop :=
  calls.Pairwise fun earlier later => earlier.2.stamp ≤ later.2.now

def MemoryRepo.view (state : MemoryRepo) : RepoView := ⟨state.lease, state.tick, state.events⟩

/-- The three columns of a lease are set together. -/
def RepoStreamRow.lease (row : RepoStreamRow) : Option Lease :=
  match row.leaseHolder, row.leaseExpiresAt, row.leaseTtlMs with
  | some holder, some expiresAt, some ttlMs => some ⟨holder, expiresAt, ttlMs⟩
  | _, _, _ => none

def RepoStreamRow.view (row : RepoStreamRow) : RepoView := ⟨row.lease, row.tick, row.events⟩

def memoryStore : RepoStore := ⟨MemoryRepo, {}, MemoryRepo.call, MemoryRepo.view⟩

def postgresStore : RepoStore := ⟨RepoStreamRow, {}, RepoStreamRow.call, RepoStreamRow.view⟩

inductive Backend where
  | memory
  | postgres

def Backend.store : Backend → RepoStore
  | .memory => memoryStore
  | .postgres => postgresStore

/-! ## 3. Both stores refine the abstract step -/

/-- `Inv` holds at first, and under it a call is the call of the view. -/
structure RepoStore.Refines (store : RepoStore) (Inv : store.State → Prop) : Prop where
  initial : Inv store.initial ∧ store.view store.initial = {}
  call : ∀ state request clock, Inv state →
    Inv (store.call state request clock).2 ∧
      ((store.call state request clock).1, store.view (store.call state request clock).2)
        = (store.view state).call request clock

theorem memory_refines : memoryStore.Refines (fun _ => True) where
  initial := ⟨trivial, rfl⟩
  call := by
    intro state request clock _
    refine ⟨trivial, ?_⟩
    change ((MemoryRepo.call state request clock).1,
      MemoryRepo.view (MemoryRepo.call state request clock).2)
        = RepoView.call (MemoryRepo.view state) request clock
    obtain ⟨tick, updatedAt, heartbeatAt, lease, events, position⟩ := state
    cases request with
    | claimRepoLease holder ttlMs =>
      unfold MemoryRepo.call MemoryRepo.claimRepoLease RepoView.call MemoryRepo.view
      dsimp only
      split <;> rfl
    | heartbeatRepo holder =>
      unfold MemoryRepo.call MemoryRepo.heartbeatRepo RepoView.call MemoryRepo.view Lease.heldBy
      cases lease with
      | none => rfl
      | some lease =>
        by_cases hh : lease.holder = holder ∧ clock.now < lease.expiresAt
        · simp [hh]
        · have hn : (decide (lease.holder = holder) && decide (clock.now < lease.expiresAt))
              = false := by
            rw [← Bool.decide_and]
            exact decide_eq_false hh
          simp [hh, hn]
    | releaseRepoLease holder =>
      unfold MemoryRepo.call MemoryRepo.releaseRepoLease RepoView.call MemoryRepo.view
      cases lease with
      | none => rfl
      | some lease => by_cases hh : lease.holder = holder <;> simp [hh, Option.filter]
    | beginRepoTick holder =>
      unfold MemoryRepo.call MemoryRepo.beginRepoTick RepoView.call MemoryRepo.view
      dsimp only
      split <;> rfl
    | finishRepoTick holder completion events =>
      unfold MemoryRepo.call MemoryRepo.finishRepoTick RepoView.call RepoView.finish
        MemoryRepo.view
      dsimp only
      cases validateTickFinish holder completion events with
      | error message => rfl
      | ok validated =>
        dsimp only
        cases Lease.heldBy lease holder clock.now with
        | false => rfl
        | true => cases openBy tick holder <;> rfl

namespace RepoStreamRow

/-- The columns of the lease are set together, and the journal is numbered from one. -/
structure Ok (row : RepoStreamRow) : Prop where
  columns : (row.leaseHolder.isSome ↔ row.leaseExpiresAt.isSome) ∧
    (row.leaseHolder.isSome ↔ row.leaseTtlMs.isSome)
  tail : tailSeq row.events = row.events.length

theorem tailSeq_snoc (events : List RepositoryEvent) (event : RepositoryEvent) :
    tailSeq (events ++ [event]) = max (tailSeq events) event.seq := by
  unfold tailSeq
  rw [List.map_append, List.foldl_append]
  rfl

/-- Appending one at a time numbers as appending at once. -/
theorem appendAll_eq (ts : Nat) : ∀ (writes : List RepositoryEventWrite)
    (events : List RepositoryEvent), tailSeq events = events.length →
    appendAll ts events writes
      = (envelopes events.length ts writes, events ++ envelopes events.length ts writes) ∧
    tailSeq (events ++ envelopes events.length ts writes)
      = (events ++ envelopes events.length ts writes).length
  | [], events, h => by
    rw [appendAll, envelopes, List.append_nil]
    exact ⟨rfl, h⟩
  | event :: rest, events, h => by
    have htail : tailSeq (events ++ [appendRepoLocked events event ts])
        = (events ++ [appendRepoLocked events event ts]).length := by
      rw [tailSeq_snoc, h, List.length_append]
      unfold appendRepoLocked
      rw [h]
      exact max_eq_right (Nat.le_succ _)
    obtain ⟨ha, ht⟩ := appendAll_eq ts rest _ htail
    have he : appendRepoLocked events event ts
      = { event with seq := events.length + 1, ts := ts } := by
      unfold appendRepoLocked
      rw [h]
    rw [appendAll, ha, envelopes]
    rw [he] at ht ⊢
    rw [List.length_append, List.length_singleton, List.append_assoc] at ht ⊢
    exact ⟨rfl, ht⟩

/-- The two tests of the lease are those of the in-memory store. -/
theorem heldBy_eq {row : RepoStreamRow} (h : row.Ok) (holder : Holder) (now : Nat) :
    row.heldBy holder now = Lease.heldBy row.lease holder now ∧
      row.held holder now = !Lease.claimable row.lease holder now := by
  obtain ⟨leaseHolder, leaseExpiresAt, leaseTtlMs, tick, updatedAt, heartbeatAt, events⟩ := row
  obtain ⟨⟨h1, h2⟩, -⟩ := h
  have hnot : ∀ expiresAt : Nat, decide (now < expiresAt) = !decide (expiresAt ≤ now) := by
    intro expiresAt
    by_cases hle : expiresAt ≤ now
    · simp [hle, Nat.not_lt.mpr hle]
    · simp [hle, Nat.lt_of_not_le hle]
  cases leaseHolder <;> cases leaseExpiresAt <;> cases leaseTtlMs <;>
    simp_all [heldBy, held, RepoStreamRow.lease, Lease.heldBy, Lease.claimable]

/-- No lease, or one. -/
theorem lease_cases {row : RepoStreamRow} (h : row.Ok) :
    (row.leaseHolder = none ∧ row.leaseExpiresAt = none ∧ row.leaseTtlMs = none) ∨
      ∃ holder expiresAt ttlMs, row.leaseHolder = some holder ∧
        row.leaseExpiresAt = some expiresAt ∧ row.leaseTtlMs = some ttlMs := by
  obtain ⟨leaseHolder, leaseExpiresAt, leaseTtlMs, tick, updatedAt, heartbeatAt, events⟩ := row
  obtain ⟨⟨h1, h2⟩, -⟩ := h
  cases leaseHolder <;> cases leaseExpiresAt <;> cases leaseTtlMs <;> simp_all

end RepoStreamRow

theorem postgres_refines : postgresStore.Refines RepoStreamRow.Ok where
  initial := ⟨⟨⟨Iff.rfl, Iff.rfl⟩, rfl⟩, rfl⟩
  call := by
    intro state request clock hok
    change RepoStreamRow.Ok (RepoStreamRow.call state request clock).2 ∧
      ((RepoStreamRow.call state request clock).1,
        RepoStreamRow.view (RepoStreamRow.call state request clock).2)
        = RepoView.call (RepoStreamRow.view state) request clock
    obtain ⟨⟨hexpires, httl⟩, htail⟩ := id hok
    cases request with
    | claimRepoLease holder ttlMs =>
      obtain ⟨-, hheld⟩ := RepoStreamRow.heldBy_eq hok holder clock.now
      unfold RepoStreamRow.call RepoStreamRow.claim RepoView.call RepoStreamRow.view
      dsimp only
      rw [hheld]
      cases hc : Lease.claimable state.lease holder clock.now with
      | false => exact ⟨hok, rfl⟩
      | true => exact ⟨⟨⟨Iff.rfl, Iff.rfl⟩, htail⟩, rfl⟩
    | heartbeatRepo holder =>
      obtain ⟨hheld, -⟩ := RepoStreamRow.heldBy_eq hok holder clock.now
      unfold RepoStreamRow.call RepoStreamRow.beat RepoView.call RepoStreamRow.view
      dsimp only
      rw [hheld]
      cases hb : Lease.heldBy state.lease holder clock.now with
      | false => exact ⟨hok, rfl⟩
      | true =>
        refine ⟨⟨?_, htail⟩, ?_⟩
        · exact ⟨hexpires.trans (by
            rcases RepoStreamRow.lease_cases hok with ⟨hh, he, -⟩ | ⟨_, _, _, hh, he, -⟩
            · simp [RepoStreamRow.lease, hh, Lease.heldBy] at hb
            · rw [he]
              exact Iff.rfl), httl⟩
        · rcases RepoStreamRow.lease_cases hok with ⟨hh, he, ht⟩ | ⟨_, _, _, hh, he, ht⟩
          · simp [RepoStreamRow.lease, hh, Lease.heldBy] at hb
          · simp [RepoStreamRow.lease, hh, he, ht]
    | releaseRepoLease holder =>
      unfold RepoStreamRow.call RepoStreamRow.release RepoView.call RepoStreamRow.view
      dsimp only
      rcases RepoStreamRow.lease_cases hok with ⟨hh, he, ht⟩ | ⟨other, _, _, hh, he, ht⟩
      · rw [if_neg (by rw [hh]; exact nofun)]
        refine ⟨hok, ?_⟩
        simp [RepoStreamRow.lease, hh, he, ht]
      · by_cases hs : other = holder
        · rw [if_pos (by rw [hh, hs])]
          refine ⟨⟨⟨Iff.rfl, Iff.rfl⟩, htail⟩, ?_⟩
          simp [RepoStreamRow.lease, hh, he, ht, hs, Option.filter]
        · rw [if_neg (by rw [hh]; simpa using hs)]
          refine ⟨hok, ?_⟩
          simp [RepoStreamRow.lease, hh, he, ht, hs, Option.filter]
    | beginRepoTick holder =>
      obtain ⟨hheld, -⟩ := RepoStreamRow.heldBy_eq hok holder clock.now
      unfold RepoStreamRow.call RepoStreamRow.beginRepoTick RepoView.call RepoStreamRow.view
      dsimp only
      rw [hheld]
      cases Lease.heldBy state.lease holder clock.now with
      | false => exact ⟨hok, rfl⟩
      | true => exact ⟨⟨⟨hexpires, httl⟩, htail⟩, rfl⟩
    | finishRepoTick holder completion events =>
      obtain ⟨hheld, -⟩ := RepoStreamRow.heldBy_eq hok holder clock.now
      unfold RepoStreamRow.call RepoStreamRow.finishRepoTick RepoView.call RepoView.finish
        RepoStreamRow.view
      dsimp only
      cases validateTickFinish holder completion events with
      | error message => exact ⟨hok, rfl⟩
      | ok validated =>
        dsimp only
        rw [hheld]
        cases Lease.heldBy state.lease holder clock.now with
        | false => exact ⟨hok, rfl⟩
        | true =>
          cases openBy state.tick holder with
          | none => exact ⟨hok, rfl⟩
          | some startedAt =>
            obtain ⟨ha, ht⟩ := RepoStreamRow.appendAll_eq clock.stamp validated _ htail
            dsimp only
            rw [if_pos rfl, if_pos rfl, ha]
            exact ⟨⟨⟨hexpires, httl⟩, ht⟩, rfl⟩

/-! ## 4. What the holders know -/

/-- A lease as its holder was told. -/
structure Grant where
  expiresAt : Nat
  ttlMs : Nat

/-- A reply changes what its holder knows. -/
def grantAfter (holder : Holder) (grant : Option Grant) (called : Called) : Option Grant :=
  match called.request, called.reply with
  | .claimRepoLease other ttlMs, .leased true =>
    if other = holder then some ⟨called.clock.now + ttlMs, ttlMs⟩ else grant
  | .heartbeatRepo other, .leased true =>
    if other = holder then grant.map fun g => ⟨called.clock.now + g.ttlMs, g.ttlMs⟩ else grant
  | .releaseRepoLease other, _ => if other = holder then none else grant
  | _, _ => grant

def grantOf (holder : Holder) (history : List Called) : Option Grant :=
  history.foldl (grantAfter holder) none

/-- The holder has an unexpired lease. -/
def Unexpired (history : List Called) (holder : Holder) (time : Nat) : Prop :=
  ∃ grant, grantOf holder history = some grant ∧ time < grant.expiresAt

structure BegunTick where
  id : Nat
  holder : Holder
  startedAt : Nat

/-- The ticks that were begun, numbered, and those that were finished. -/
structure TickTrace where
  count : Nat := 0
  latest : Option BegunTick := none
  finished : List Nat := []

/-- A finish is of the latest tick begun. -/
def TickTrace.note (trace : TickTrace) (called : Called) : TickTrace :=
  match called.request, called.reply with
  | .beginRepoTick holder, .begun (some startedAt) =>
    { trace with count := trace.count + 1, latest := some ⟨trace.count, holder, startedAt⟩ }
  | .finishRepoTick _ _ _, .finished (some _) =>
    { trace with finished := trace.finished ++ (trace.latest.map (·.id)).toList }
  | _, _ => trace

def traceOf (history : List Called) : TickTrace := history.foldl TickTrace.note {}

theorem grantOf_snoc (holder : Holder) (history : List Called) (called : Called) :
    grantOf holder (history ++ [called]) = grantAfter holder (grantOf holder history) called := by
  unfold grantOf
  rw [List.foldl_append, List.foldl_cons, List.foldl_nil]

theorem traceOf_snoc (history : List Called) (called : Called) :
    traceOf (history ++ [called]) = (traceOf history).note called := by
  unfold traceOf
  rw [List.foldl_append, List.foldl_cons, List.foldl_nil]

/-! ## 5. The invariant of a run -/

/-- What the holders know, against what the store holds.  `time` is the last reading. -/
structure Fenced (history : List Called) (view : RepoView) (time : Nat) : Prop where
  grant : ∀ holder grant, grantOf holder history = some grant → time < grant.expiresAt →
    view.lease = some ⟨holder, grant.expiresAt, grant.ttlMs⟩
  lease : ∀ lease, view.lease = some lease →
    grantOf lease.holder history = some ⟨lease.expiresAt, lease.ttlMs⟩
  tick : ∀ tick startedAt, view.tick = some tick → tick.openedAt = some startedAt →
    ∃ id, (traceOf history).latest = some ⟨id, tick.run, startedAt⟩ ∧
      id ∉ (traceOf history).finished
  counted : ∀ begun, (traceOf history).latest = some begun → begun.id < (traceOf history).count
  below : ∀ id ∈ (traceOf history).finished, id < (traceOf history).count
  once : (traceOf history).finished.Nodup

theorem fenced_initial (time : Nat) : Fenced [] {} time where
  grant _ _ h := absurd h nofun
  lease _ h := absurd h nofun
  tick _ _ h := absurd h nofun
  counted _ h := absurd h nofun
  below _ h := absurd h List.not_mem_nil
  once := List.nodup_nil

/-- The holder's lease is unexpired in the store. -/
theorem of_heldBy {lease : Option Lease} {holder : Holder} {now : Nat}
    (h : Lease.heldBy lease holder now = true) :
    ∃ expiresAt ttlMs, lease = some ⟨holder, expiresAt, ttlMs⟩ ∧ now < expiresAt := by
  unfold Lease.heldBy at h
  split at h
  · exact absurd h nofun
  · rename_i lease
    simp only [Bool.and_eq_true, decide_eq_true_iff] at h
    obtain ⟨rfl, hlt⟩ := h
    exact ⟨_, _, rfl, hlt⟩

theorem of_openBy {tick : Option RepoTickObservation} {holder : Holder} {startedAt : Nat}
    (h : openBy tick holder = some startedAt) :
    ∃ record, tick = some record ∧ record.run = holder ∧ record.openedAt = some startedAt := by
  unfold openBy at h
  split at h
  · exact absurd h nofun
  · split_ifs at h with hr
    exact ⟨_, rfl, hr, h⟩

namespace Fenced

variable {history : List Called} {view : RepoView} {time : Nat} {clock : Clock}

/-- A reply that grants nothing and begins or finishes nothing. -/
theorem idle (h : Fenced history view time) (htime : time ≤ clock.now) {request : RepoCall}
    {reply : RepoReply}
    (hgrant : ∀ holder grant, grantAfter holder grant ⟨request, clock, reply⟩ = grant)
    (htrace : ∀ trace : TickTrace, trace.note ⟨request, clock, reply⟩ = trace) :
    Fenced (history ++ [⟨request, clock, reply⟩]) view clock.stamp := by
  have hg : ∀ holder, grantOf holder (history ++ [⟨request, clock, reply⟩])
      = grantOf holder history := fun holder => by rw [grantOf_snoc, hgrant]
  have ht : traceOf (history ++ [⟨request, clock, reply⟩]) = traceOf history := by
    rw [traceOf_snoc, htrace]
  refine ⟨?_, ?_, ?_, ?_, ?_, ?_⟩
  · intro holder grant hh hlt
    rw [hg] at hh
    exact h.grant holder grant hh ((htime.trans clock.ordered).trans_lt hlt)
  · intro lease hl
    rw [hg]
    exact h.lease lease hl
  · rw [ht]
    exact h.tick
  · rw [ht]
    exact h.counted
  · rw [ht]
    exact h.below
  · rw [ht]
    exact h.once

/-- A step that changes the lease only. -/
theorem relet (h : Fenced history view time) {called : Called} {lease : Option Lease}
    (htrace : ∀ trace : TickTrace, trace.note called = trace)
    (hgrant : ∀ holder grant, grantAfter holder (grantOf holder history) called = some grant →
      called.clock.stamp < grant.expiresAt → lease = some ⟨holder, grant.expiresAt, grant.ttlMs⟩)
    (hlease : ∀ l, lease = some l →
      grantAfter l.holder (grantOf l.holder history) called = some ⟨l.expiresAt, l.ttlMs⟩) :
    Fenced (history ++ [called]) { view with lease := lease } called.clock.stamp := by
  have ht : traceOf (history ++ [called]) = traceOf history := by
    rw [traceOf_snoc, htrace]
  refine ⟨?_, ?_, ?_, ?_, ?_, ?_⟩
  · intro holder grant hh hlt
    rw [grantOf_snoc] at hh
    exact hgrant holder grant hh hlt
  · intro l hl
    rw [grantOf_snoc]
    exact hlease l hl
  · rw [ht]
    exact h.tick
  · rw [ht]
    exact h.counted
  · rw [ht]
    exact h.below
  · rw [ht]
    exact h.once

theorem claimRepoLease (h : Fenced history view time) (htime : time ≤ clock.now) (holder : Holder)
    (ttlMs : Nat) (hc : Lease.claimable view.lease holder clock.now = true) :
    Fenced (history ++ [⟨.claimRepoLease holder ttlMs, clock, .leased true⟩])
      { view with lease := some ⟨holder, clock.now + ttlMs, ttlMs⟩ } clock.stamp := by
  refine h.relet (fun _ => rfl) ?_ ?_
  · intro other grant hg hlt
    unfold grantAfter at hg
    dsimp only at hg hlt
    split_ifs at hg with ho
    · rw [← Option.some.inj hg, ho]
    · -- another holder's unexpired grant is the lease, which was claimable
      have hl := h.grant other grant hg ((htime.trans clock.ordered).trans_lt hlt)
      rw [hl] at hc
      unfold Lease.claimable at hc
      simp only [Bool.or_eq_true, decide_eq_true_iff] at hc
      rcases hc with hc | hc
      · exact absurd hc.symm ho
      · have := clock.ordered
        omega
  · intro lease hl
    rw [← Option.some.inj hl]
    exact if_pos rfl

theorem heartbeatRepo (h : Fenced history view time) (htime : time ≤ clock.now) (holder : Holder)
    (hheld : Lease.heldBy view.lease holder clock.now = true) :
    Fenced (history ++ [⟨.heartbeatRepo holder, clock, .leased true⟩])
      { view with
        lease := view.lease.map fun lease => { lease with expiresAt := clock.now + lease.ttlMs } }
      clock.stamp := by
  obtain ⟨expiresAt, ttlMs, hl, -⟩ := of_heldBy hheld
  have hown : grantOf holder history = some ⟨expiresAt, ttlMs⟩ := h.lease _ hl
  rw [hl]
  refine h.relet (fun _ => rfl) ?_ ?_
  · intro other grant hg hlt
    unfold grantAfter at hg
    dsimp only at hg hlt
    split_ifs at hg with ho
    · rw [← ho, hown] at hg
      rw [← Option.some.inj hg, ho]
      rfl
    · have hother := h.grant other grant hg ((htime.trans clock.ordered).trans_lt hlt)
      rw [hl] at hother
      exact absurd (congrArg Lease.holder (Option.some.inj hother)) ho
  · intro lease hlease
    rw [← Option.some.inj hlease]
    unfold grantAfter
    dsimp only
    rw [if_pos rfl, hown]
    rfl

theorem releaseRepoLease (h : Fenced history view time) (htime : time ≤ clock.now)
    (holder : Holder) :
    Fenced (history ++ [⟨.releaseRepoLease holder, clock, .released⟩])
      { view with lease := view.lease.filter fun lease => decide (lease.holder ≠ holder) }
      clock.stamp := by
  refine h.relet (fun _ => rfl) ?_ ?_
  · intro other grant hg hlt
    unfold grantAfter at hg
    dsimp only at hg hlt
    split_ifs at hg with ho
    rw [h.grant other grant hg ((htime.trans clock.ordered).trans_lt hlt)]
    simp [Option.filter, Ne.symm ho]
  · intro lease hl
    obtain ⟨hl, hne⟩ := Option.filter_eq_some_iff.mp hl
    unfold grantAfter
    dsimp only
    rw [if_neg (Ne.symm (of_decide_eq_true hne))]
    exact h.lease lease hl

theorem beginRepoTick (h : Fenced history view time) (htime : time ≤ clock.now) (holder : Holder) :
    Fenced (history ++ [⟨.beginRepoTick holder, clock, .begun (some clock.stamp)⟩])
      { view with tick := some (openedTick holder clock.stamp view.tick) } clock.stamp := by
  have hg : ∀ other, grantOf other (history ++
      [⟨.beginRepoTick holder, clock, .begun (some clock.stamp)⟩]) = grantOf other history :=
    fun other => by rw [grantOf_snoc]; rfl
  have ht := traceOf_snoc history ⟨.beginRepoTick holder, clock, .begun (some clock.stamp)⟩
  have ht : traceOf (history ++ [⟨.beginRepoTick holder, clock, .begun (some clock.stamp)⟩])
      = { traceOf history with
          count := (traceOf history).count + 1
          latest := some ⟨(traceOf history).count, holder, clock.stamp⟩ } := ht
  refine ⟨?_, ?_, ?_, ?_, ?_, ?_⟩
  · intro other grant hh hlt
    rw [hg] at hh
    exact h.grant other grant hh ((htime.trans clock.ordered).trans_lt hlt)
  · intro lease hl
    rw [hg]
    exact h.lease lease hl
  · intro tick startedAt htick hopened
    rw [ht, ← Option.some.inj htick] at *
    rw [← Option.some.inj hopened]
    exact ⟨_, rfl, fun hm => lt_irrefl _ (h.below _ hm)⟩
  · intro begun hb
    rw [ht] at hb ⊢
    rw [← Option.some.inj hb]
    exact Nat.lt_succ_self _
  · intro id hid
    rw [ht] at hid ⊢
    exact (h.below id hid).trans (Nat.lt_succ_self _)
  · rw [ht]
    exact h.once

theorem finishRepoTick (h : Fenced history view time) (htime : time ≤ clock.now) {holder : Holder}
    {completion : RepoTickCompletion} {events : List RepositoryEventWrite} {startedAt : Nat}
    (hopen : openBy view.tick holder = some startedAt) (finish : RepoTickFinish)
    (journal : List RepositoryEvent) {tick : RepoTickObservation} (hclosed : tick.openedAt = none) :
    Fenced (history ++ [⟨.finishRepoTick holder completion events, clock, .finished (some finish)⟩])
      { view with tick := some tick, events := journal } clock.stamp := by
  obtain ⟨record, hrecord, hrun, hopened⟩ := of_openBy hopen
  obtain ⟨id, hlatest, hnew⟩ := h.tick record startedAt hrecord hopened
  have hg : ∀ other, grantOf other (history ++
      [⟨.finishRepoTick holder completion events, clock, .finished (some finish)⟩])
        = grantOf other history := fun other => by rw [grantOf_snoc]; rfl
  have ht : traceOf (history ++
      [⟨.finishRepoTick holder completion events, clock, .finished (some finish)⟩])
      = { traceOf history with finished := (traceOf history).finished ++ [id] } := by
    rw [traceOf_snoc]
    unfold TickTrace.note
    dsimp only
    rw [hlatest]
    rfl
  refine ⟨?_, ?_, ?_, ?_, ?_, ?_⟩
  · intro other grant hh hlt
    rw [hg] at hh
    exact h.grant other grant hh ((htime.trans clock.ordered).trans_lt hlt)
  · intro lease hl
    rw [hg]
    exact h.lease lease hl
  · intro other otherStart htick hstart
    rw [← Option.some.inj htick, hclosed] at hstart
    exact absurd hstart nofun
  · rw [ht]
    exact h.counted
  · intro other hm
    rw [ht] at hm ⊢
    rcases List.mem_append.mp hm with hm | hm
    · exact h.below other hm
    · rw [List.mem_singleton.mp hm]
      exact h.counted _ hlatest
  · rw [ht]
    exact List.nodup_append.mpr ⟨h.once, List.nodup_singleton _, by
      intro a ha b hb heq
      rw [heq, List.mem_singleton.mp hb] at ha
      exact hnew ha⟩

/-- **A call keeps the invariant.** -/
theorem call (h : Fenced history view time) (htime : time ≤ clock.now) (request : RepoCall) :
    Fenced (history ++ [⟨request, clock, (view.call request clock).1⟩])
      (view.call request clock).2 clock.stamp := by
  cases request with
  | claimRepoLease holder ttlMs =>
    unfold RepoView.call
    dsimp only
    split
    · rename_i hc
      exact h.claimRepoLease htime holder ttlMs hc
    · exact h.idle htime (fun _ _ => rfl) (fun _ => rfl)
  | heartbeatRepo holder =>
    unfold RepoView.call
    dsimp only
    split
    · rename_i hheld
      exact h.heartbeatRepo htime holder hheld
    · exact h.idle htime (fun _ _ => rfl) (fun _ => rfl)
  | releaseRepoLease holder => exact h.releaseRepoLease htime holder
  | beginRepoTick holder =>
    unfold RepoView.call
    dsimp only
    split
    · exact h.beginRepoTick htime holder
    · exact h.idle htime (fun _ _ => rfl) (fun _ => rfl)
  | finishRepoTick holder completion events =>
    unfold RepoView.call
    dsimp only
    split
    · exact h.idle htime (fun _ _ => rfl) (fun _ => rfl)
    · unfold RepoView.finish
      split
      · split
        · exact h.idle htime (fun _ _ => rfl) (fun _ => rfl)
        · rename_i hopen
          exact h.finishRepoTick htime hopen _ _ rfl
      · exact h.idle htime (fun _ _ => rfl) (fun _ => rfl)

end Fenced

/-! ## 6. Runs -/

theorem RepoStore.run_snoc (store : RepoStore) (calls : List (RepoCall × Clock))
    (request : RepoCall × Clock) :
    store.run (calls ++ [request]) = store.step (store.run calls) request := by
  unfold RepoStore.run
  rw [List.foldl_append, List.foldl_cons, List.foldl_nil]

/-- **The invariant holds after any calls.** -/
theorem RepoStore.Refines.fenced {store : RepoStore} {Inv : store.State → Prop}
    (hstore : store.Refines Inv) {calls : List (RepoCall × Clock)} (horder : InOrder calls) :
    Inv (store.run calls).2 ∧ ∀ time, (∀ past ∈ calls, past.2.stamp ≤ time) →
      Fenced (store.run calls).1 (store.view (store.run calls).2) time := by
  induction calls using List.reverseRecOn with
  | nil =>
    refine ⟨hstore.initial.1, fun time _ => ?_⟩
    rw [show store.view (store.run []).2 = {} from hstore.initial.2]
    exact fenced_initial time
  | append_singleton calls request ih =>
    obtain ⟨horder, -, hlast⟩ := List.pairwise_append.mp horder
    obtain ⟨hinv, hfenced⟩ := ih horder
    have hf := hfenced request.2.now fun past hp => hlast past hp request List.mem_cons_self
    obtain ⟨hinv', hcall⟩ := hstore.call _ request.1 request.2 hinv
    have hnext := hf.call le_rfl request.1
    rw [← hcall] at hnext
    rw [RepoStore.run_snoc]
    refine ⟨hinv', fun time htime => ?_⟩
    have hstamp : request.2.stamp ≤ time := htime request (by simp)
    exact ⟨fun holder grant hg hlt => hnext.grant holder grant hg (hstamp.trans_lt hlt),
      hnext.lease, hnext.tick, hnext.counted, hnext.below, hnext.once⟩

/-- A claim that succeeds finds no other holder with an unexpired lease. -/
theorem not_unexpired_of_leased {history : List Called} {view : RepoView} {clock : Clock}
    (h : Fenced history view clock.now) {holder : Holder} {ttlMs : Nat}
    (hreply : (view.call (.claimRepoLease holder ttlMs) clock).1 = .leased true) {other : Holder}
    (hne : other ≠ holder) : ¬Unexpired history other clock.now := by
  intro hu
  obtain ⟨grant, hg, hlt⟩ := hu
  have hl := h.grant other grant hg hlt
  unfold RepoView.call at hreply
  dsimp only at hreply
  split at hreply
  · rename_i hc
    rw [hl] at hc
    unfold Lease.claimable at hc
    simp only [Bool.or_eq_true, decide_eq_true_iff] at hc
    rcases hc with hc | hc
    · exact hne hc
    · omega
  · exact absurd hreply nofun

/-- What a finish may do: finish the open tick of a holder with an unexpired lease, once, or
nothing. -/
def FinishFenced (history : List Called) (before after : RepoView) (holder : Holder)
    (now : Nat) (reply : RepoReply) : Prop :=
  (∃ finish id startedAt, reply = .finished (some finish) ∧ Unexpired history holder now ∧
    openBy before.tick holder = some startedAt ∧
    (traceOf history).latest = some ⟨id, holder, startedAt⟩ ∧ id ∉ (traceOf history).finished ∧
    after.tick = some finish.observation ∧ after.events = before.events ++ finish.events) ∨
  ((∀ finish, reply ≠ .finished (some finish)) ∧ after.tick = before.tick ∧
    after.events = before.events)

theorem finishFenced {history : List Called} {view : RepoView} {clock : Clock}
    (h : Fenced history view clock.now) (holder : Holder) (completion : RepoTickCompletion)
    (events : List RepositoryEventWrite) :
    let answer := view.call (.finishRepoTick holder completion events) clock
    FinishFenced history view answer.2 holder clock.now answer.1 := by
  unfold RepoView.call
  dsimp only
  split
  · exact Or.inr ⟨nofun, rfl, rfl⟩
  · unfold RepoView.finish
    split
    · rename_i hheld
      split
      · exact Or.inr ⟨nofun, rfl, rfl⟩
      · rename_i startedAt hopen
        obtain ⟨expiresAt, ttlMs, hl, hlt⟩ := of_heldBy hheld
        obtain ⟨record, hrecord, hrun, hopened⟩ := of_openBy hopen
        obtain ⟨id, hlatest, hnew⟩ := h.tick record startedAt hrecord hopened
        rw [hrun] at hlatest
        exact Or.inl ⟨_, id, startedAt, rfl, ⟨_, h.lease _ hl, hlt⟩, hopen, hlatest, hnew, rfl, rfl⟩
    · exact Or.inr ⟨nofun, rfl, rfl⟩

theorem exists_time : ∀ calls : List (RepoCall × Clock),
    ∃ time, ∀ past ∈ calls, past.2.stamp ≤ time
  | [] => ⟨0, fun _ h => absurd h List.not_mem_nil⟩
  | call :: rest => by
    obtain ⟨time, htime⟩ := exists_time rest
    refine ⟨max call.2.stamp time, fun past hp => ?_⟩
    rcases List.mem_cons.mp hp with rfl | hp
    · exact le_max_left _ _
    · exact (htime past hp).trans (le_max_right _ _)

theorem Backend.refines (backend : Backend) : ∃ Inv, backend.store.Refines Inv := by
  cases backend with
  | memory => exact ⟨_, memory_refines⟩
  | postgres => exact ⟨_, postgres_refines⟩

/-- **Leases and ticks are fenced**, in either store and after any calls: holders exclude each
other, a tick is finished at most once, a claim takes over only when no one else has an
unexpired lease, and a finish acts only for a holder that has one and opened the tick. -/
theorem repoLease_fenced (backend : Backend) {calls : List (RepoCall × Clock)}
    (horder : InOrder calls) :
    let history := (backend.store.run calls).1
    let state := (backend.store.run calls).2
    (∀ time, (∀ past ∈ calls, past.2.stamp ≤ time) → ∀ first second,
      Unexpired history first time → Unexpired history second time → first = second) ∧
    (traceOf history).finished.Nodup ∧
    ∀ clock : Clock, (∀ past ∈ calls, past.2.stamp ≤ clock.now) →
      (∀ holder ttlMs,
        (backend.store.call state (.claimRepoLease holder ttlMs) clock).1 = .leased true →
        ∀ other, other ≠ holder → ¬Unexpired history other clock.now) ∧
      ∀ holder completion events,
        let answer := backend.store.call state (.finishRepoTick holder completion events) clock
        FinishFenced history (backend.store.view state) (backend.store.view answer.2) holder
          clock.now answer.1 := by
  obtain ⟨Inv, hstore⟩ := backend.refines
  obtain ⟨hinv, hfenced⟩ := hstore.fenced horder
  dsimp only
  refine ⟨fun time htime first second hf hs => ?_, ?_, fun clock hclock => ⟨?_, ?_⟩⟩
  · obtain ⟨grant, hg, hlt⟩ := hf
    obtain ⟨grant', hg', hlt'⟩ := hs
    have hl := (hfenced time htime).grant first grant hg hlt
    rw [(hfenced time htime).grant second grant' hg' hlt'] at hl
    exact (congrArg Lease.holder (Option.some.inj hl)).symm
  · obtain ⟨time, htime⟩ := exists_time calls
    exact (hfenced time htime).once
  · intro holder ttlMs hreply other hne
    obtain ⟨-, hcall⟩ := hstore.call _ (.claimRepoLease holder ttlMs) clock hinv
    rw [show _ = _ from congrArg Prod.fst hcall] at hreply
    exact not_unexpired_of_leased (hfenced clock.now hclock) hreply hne
  · intro holder completion events
    obtain ⟨-, hcall⟩ := hstore.call _ (.finishRepoTick holder completion events) clock hinv
    have h := finishFenced (hfenced clock.now hclock) holder completion events
    dsimp only at h
    rw [← hcall] at h
    exact h

/-- A claim, a tick begun and finished, and a claim of another holder after the expiry. -/
def takeover (first second : Holder) : List (RepoCall × Clock) :=
  [(.claimRepoLease first 10, ⟨0, 0, le_rfl⟩), (.beginRepoTick first, ⟨1, 1, le_rfl⟩),
    (.finishRepoTick first (.completed .null) [], ⟨2, 3, by decide⟩),
    (.claimRepoLease second 10, ⟨10, 10, le_rfl⟩)]

theorem repoLease_fenced_takeover :
    InOrder (takeover ⟨"first", by decide⟩ ⟨"second", by decide⟩) ∧
      (traceOf (Backend.memory.store.run
        (takeover ⟨"first", by decide⟩ ⟨"second", by decide⟩)).1).finished.Nodup := by
  have horder : InOrder (takeover ⟨"first", by decide⟩ ⟨"second", by decide⟩) := by
    unfold InOrder takeover
    decide
  exact ⟨horder, (repoLease_fenced .memory horder).2.1⟩

end Autobuild
