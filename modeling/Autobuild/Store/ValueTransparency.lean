/-
# The value cache is transparent

What a read returns is what the reducer makes of the log up to the read's cursor, whatever the
cache held and whoever else read.

* `AccAt` is what an accumulator of a cursor is good for; `RowHonest` is a row that is either not
  recognised or holds the accumulator of its cursor.
* `StageKept` says what a read knows between two calls, `StoreKept` is the invariant of a store.
* The only assumption about the reducer is its advance law (`AdvanceLaw`).
-/
import Autobuild.Store.ReducerValues
import Mathlib.Data.List.Induction

namespace Autobuild

open ObjectMap

/-! ## 1. Logs -/

section Logs

variable {ε : Type}

def Numbered (log : List (ScopeEvent ε)) : Prop :=
  log.map (·.seq) = List.range' 1 log.length

theorem Numbered.seq {log : List (ScopeEvent ε)} (h : Numbered log) {index : Nat}
    (hi : index < log.length) : log[index].seq = index + 1 := by
  have hlength : index < (log.map (·.seq)).length := by
    rw [List.length_map]
    exact hi
  have hs : (log.map (·.seq))[index] = index + 1 := by
    unfold Numbered at h
    simp only [h, List.getElem_range']
    omega
  rw [← hs, List.getElem_map]

theorem Numbered.append {log : List (ScopeEvent ε)} (h : Numbered log) (event : ε) :
    Numbered (log ++ [⟨log.length + 1, event⟩]) := by
  unfold Numbered at h ⊢
  rw [List.map_append, h, List.length_append, List.length_singleton, List.range'_1_concat,
    List.map_singleton, Nat.add_comm 1]

theorem Numbered.tail {log : List (ScopeEvent ε)} (h : Numbered log) :
    (log.getLast?.map (·.seq)).getD 0 = log.length := by
  rcases List.eq_nil_or_concat log with rfl | ⟨front, last, rfl⟩
  · rfl
  · rw [List.concat_eq_append] at h ⊢
    have hlt : front.length < (front ++ [last]).length := by
      rw [List.length_append, List.length_singleton]
      omega
    have hseq := h.seq hlt
    rw [List.getElem_concat_length rfl] at hseq
    rw [List.getLast?_concat, List.length_append, List.length_singleton]
    exact hseq

theorem Numbered.between {log : List (ScopeEvent ε)} (h : Numbered log) {since through : Nat}
    {event : ScopeEvent ε} (he : event ∈ (log.take through).drop since) :
    since < event.seq ∧ event.seq ≤ through := by
  obtain ⟨index, hi, rfl⟩ := List.mem_iff_getElem.mp he
  rw [List.length_drop, List.length_take] at hi
  rw [List.getElem_drop, List.getElem_take, h.seq (by omega)]
  omega

/-- The next event, and the ones after it. -/
theorem drop_take_cons {log : List (ScopeEvent ε)} {since through : Nat} (h : since < through)
    (hle : through ≤ log.length) :
    (log.take through).drop since
      = log[since] :: (log.take through).drop (since + 1) := by
  have hlt : since < (log.take through).length := by
    rw [List.length_take]
    omega
  rw [List.drop_eq_getElem_cons hlt, List.getElem_take]

theorem take_append_drop_take (log : List (ScopeEvent ε)) {since through : Nat}
    (h : since ≤ through) : log.take since ++ (log.take through).drop since = log.take through := by
  calc log.take since ++ (log.take through).drop since
      = (log.take through).take since ++ (log.take through).drop since := by
        rw [List.take_take, Nat.min_eq_left h]
    _ = log.take through := List.take_append_drop since (log.take through)

/-- The events split at a cursor. -/
theorem Numbered.split {log : List (ScopeEvent ε)} (h : Numbered log) {oldest through : Nat}
    (since : Nat) (ho : oldest ≤ through) (hle : through ≤ log.length) :
    ((log.take through).drop since).filter (·.seq ≤ oldest) = (log.take oldest).drop since ∧
      ((log.take through).drop since).filter (oldest < ·.seq)
        = (log.take through).drop (max oldest since) := by
  have hsplit : (log.take through).drop since
      = (log.take oldest).drop since ++ (log.take through).drop (max oldest since) := by
    conv_lhs => rw [← take_append_drop_take log ho]
    rw [List.drop_append, List.drop_drop, List.length_take]
    congr 2
    omega
  rw [hsplit, List.filter_append, List.filter_append]
  have hlow : ∀ event ∈ (log.take oldest).drop since, event.seq ≤ oldest := fun event he =>
    (h.between he).2
  have hhigh : ∀ event ∈ (log.take through).drop (max oldest since), oldest < event.seq :=
    fun event he => lt_of_le_of_lt (le_max_left _ _) (h.between he).1
  constructor
  · rw [List.filter_eq_self.mpr fun event he => by simpa using hlow event he,
      List.filter_eq_nil_iff.mpr fun event he => by simpa using hhigh event he, List.append_nil]
  · rw [List.filter_eq_nil_iff.mpr fun event he => by simpa using hlow event he,
      List.filter_eq_self.mpr fun event he => by simpa using hhigh event he, List.nil_append]

theorem Numbered.walk {log : List (ScopeEvent ε)} (h : Numbered log) {through : Nat}
    (hle : through ≤ log.length) : ∀ {since : Nat}, since ≤ through →
      walkEvents since ((log.take through).drop since) = some through := by
  intro since hs
  induction hd : through - since generalizing since with
  | zero =>
    have he : since = through := by omega
    rw [he, List.drop_eq_nil_of_le (by rw [List.length_take]; omega)]
    rfl
  | succ distance ih =>
    rw [drop_take_cons (by omega) hle]
    unfold walkEvents
    rw [h.seq (by omega), if_pos rfl]
    exact ih (by omega) (by omega)

end Logs

/-! ## 2. Accumulators -/

section

variable {ε α β : Type} {entry : ValueEntry ε α β} {alone : Bool}

/-- Advancing in two parts is advancing once. -/
def AdvanceLaw (entry : ValueEntry ε α β) : Prop :=
  ∀ front back, entry.advance (entry.advance entry.initial front) back
    = entry.advance entry.initial (front ++ back)

/-- The accumulator goes on as the log's first `cursor` events do. -/
def AccAt (entry : ValueEntry ε α β) (log : List (ScopeEvent ε)) (cursor : Nat) (acc : α) : Prop :=
  ∀ more, entry.advance acc more = entry.advance entry.initial (log.take cursor ++ more)

theorem accAt_initial (log : List (ScopeEvent ε)) : AccAt entry log 0 entry.initial :=
  fun _ => rfl

theorem accAt_reduced (law : AdvanceLaw entry) (log : List (ScopeEvent ε)) (cursor : Nat) :
    AccAt entry log cursor (entry.reduced log cursor) := fun more => law (log.take cursor) more

theorem AccAt.advance {log : List (ScopeEvent ε)} {since : Nat} {acc : α}
    (h : AccAt entry log since acc) {through : Nat} (hle : since ≤ through) :
    entry.advance acc ((log.take through).drop since) = entry.reduced log through := by
  rw [h, take_append_drop_take log hle]
  rfl

theorem reduced_append {log : List (ScopeEvent ε)} {cursor : Nat} (h : cursor ≤ log.length)
    (more : List (ScopeEvent ε)) :
    entry.reduced (log ++ more) cursor = entry.reduced log cursor := by
  unfold ValueEntry.reduced
  rw [List.take_append_of_le_length h]

theorem AccAt.append {log : List (ScopeEvent ε)} {cursor : Nat} {acc : α}
    (h : AccAt entry log cursor acc) (hle : cursor ≤ log.length) (more : List (ScopeEvent ε)) :
    AccAt entry (log ++ more) cursor acc := by
  intro events
  rw [List.take_append_of_le_length hle]
  exact h events

/-- The checkpoints of a fold. -/
theorem seedFold_kept (law : AdvanceLaw entry) {log : List (ScopeEvent ε)} (h : Numbered log)
    {through : Nat} (hle : through ≤ log.length) : ∀ {since : Nat}, since ≤ through →
      (seedFold entry (entry.reduced log since) ((log.take through).drop since)).2
          = entry.reduced log through ∧
        (∀ found ∈ (seedFold entry (entry.reduced log since) ((log.take through).drop since)).1,
          found.1 ≤ through ∧ found.2 = entry.reduced log found.1) ∧
        ∀ cursor, since < cursor → cursor ≤ through → cursor ∈
          (seedFold entry (entry.reduced log since) ((log.take through).drop since)).1.map
            Prod.fst := by
  intro since hs
  induction hd : through - since generalizing since with
  | zero =>
    have he : since = through := by omega
    rw [he, List.drop_eq_nil_of_le (by rw [List.length_take]; omega)]
    exact ⟨rfl, fun found hf => absurd hf List.not_mem_nil, fun cursor hl hc => by omega⟩
  | succ distance ih =>
    obtain ⟨hlast, hhonest, hcover⟩ := @ih (since + 1) (by omega) (by omega)
    rw [drop_take_cons (by omega) hle]
    unfold seedFold
    dsimp only
    have hnext : entry.advance (entry.reduced log since) [log[since]]
        = entry.reduced log (since + 1) := by
      rw [accAt_reduced law log since, ← List.take_succ_eq_append_getElem (by omega)]
      rfl
    rw [hnext, h.seq (by omega)]
    refine ⟨hlast, fun found hf => ?_, fun cursor hl hc => ?_⟩
    · rcases List.mem_cons.mp hf with rfl | hf
      · exact ⟨by show since + 1 ≤ through; omega, rfl⟩
      · exact hhonest found hf
    · rw [List.map_cons]
      rcases Nat.lt_or_ge (since + 1) cursor with hl' | hl'
      · exact List.mem_cons_of_mem _ (hcover cursor hl' hc)
      · exact List.mem_cons.mpr (Or.inl (by show cursor = since + 1; omega))

/-! ## 3. Rows -/

theorem recognise_snapshot (cursor : Nat) (acc : α) :
    entry.recognise (entry.snapshot cursor acc)
      = if entry.validate acc = true then some (cursor, acc) else none := by
  unfold ValueEntry.recognise ValueEntry.snapshot
  dsimp only
  have hcast : (cursor : Rat).num.toNat = cursor := by
    rw [Rat.num_natCast, Int.toNat_natCast]
  by_cases hv : entry.validate acc = true
  · rw [if_pos ⟨rfl, Rat.den_natCast cursor, Nat.cast_nonneg cursor, rfl, hv⟩, if_pos hv, hcast]
  · rw [if_neg fun hc => hv hc.2.2.2.2, if_neg hv]

theorem recognised {snapshot : ReducerSnapshot α} {cursor : Nat} {acc : α}
    (h : entry.recognise snapshot = some (cursor, acc)) :
    snapshot.version = entry.version ∧ snapshot.cursor = cursor := by
  unfold ValueEntry.recognise at h
  split at h
  · split_ifs at h with hc
    obtain ⟨hversion, hden, hnonneg, -⟩ := hc
    refine ⟨hversion, ?_⟩
    have hcursor : snapshot.cursor.num.toNat = cursor := congrArg Prod.fst (Option.some.inj h)
    have hnum : ((snapshot.cursor.num.toNat : Int)) = snapshot.cursor.num :=
      Int.toNat_of_nonneg (Rat.num_nonneg.mpr hnonneg)
    rw [← hcursor, ← Rat.coe_int_num_of_den_eq_one hden, ← hnum]
    rfl
  · exact absurd h nofun

/-- What a row is worth: nothing, or the accumulator of its cursor. -/
def RowHonest (entry : ValueEntry ε α β) (log : List (ScopeEvent ε)) (row : ReducerSnapshot α) :
    Prop :=
  ∀ cursor acc, entry.recognise row = some (cursor, acc) →
    cursor ≤ log.length ∧ acc = entry.reduced log cursor

theorem RowHonest.append {log : List (ScopeEvent ε)} {row : ReducerSnapshot α}
    (h : RowHonest entry log row) (more : List (ScopeEvent ε)) :
    RowHonest entry (log ++ more) row := by
  intro cursor acc hr
  obtain ⟨hle, hacc⟩ := h cursor acc hr
  refine ⟨?_, ?_⟩
  · rw [List.length_append]
    omega
  · rw [reduced_append hle]
    exact hacc

theorem rowHonest_snapshot {log : List (ScopeEvent ε)} {cursor : Nat} (h : cursor ≤ log.length) :
    RowHonest entry log (entry.snapshot cursor (entry.reduced log cursor)) := by
  intro found acc hr
  rw [recognise_snapshot] at hr
  split_ifs at hr
  obtain ⟨rfl, rfl⟩ := Prod.mk.inj (Option.some.inj hr)
  exact ⟨h, rfl⟩

/-- A row that is not valid at a boundary it does not exceed is not recognised. -/
theorem validRow_eq_some {boundary : Nat} {row : Option (ReducerSnapshot α)} {cursor : Nat}
    {acc : α} (h : entry.validRow boundary row = some (cursor, acc)) :
    ∃ snapshot, row = some snapshot ∧ entry.recognise snapshot = some (cursor, acc) ∧
      cursor ≤ boundary := by
  unfold ValueEntry.validRow at h
  obtain ⟨hbind, hle⟩ := Option.filter_eq_some_iff.mp h
  obtain ⟨snapshot, hrow, hsome⟩ := Option.bind_eq_some_iff.mp hbind
  exact ⟨snapshot, hrow, hsome, of_decide_eq_true hle⟩

theorem unrecognised_of_validRow {boundary : Nat} {row : ReducerSnapshot α}
    (h : entry.validRow boundary (some row) = none)
    (hle : ∀ cursor acc, entry.recognise row = some (cursor, acc) → cursor ≤ boundary) :
    entry.recognise row = none := by
  cases hr : entry.recognise row with
  | none => rfl
  | some found =>
    unfold ValueEntry.validRow at h
    rw [Option.bind_some, hr, Option.filter_some,
      if_pos (decide_eq_true (hle found.1 found.2 hr))] at h
    exact absurd h nofun

/-! ## 4. One read -/

def Stored (store : ValueStore ε α β) (cursor : Nat) : Prop :=
  (store.checkpoints.get? ⟨cursor⟩).isSome = true

/-- Nothing in the cache is past the boundary of the read that holds the lock, if the others that
write the row take it, too (`alone`). -/
structure Below (entry : ValueEntry ε α β) (alone : Bool) (store : ValueStore ε α β)
    (boundary : Nat) : Prop where
  row : alone = true → ∀ row cursor acc, store.row = some row →
    entry.recognise row = some (cursor, acc) → cursor ≤ boundary
  checkpoints : ∀ cursor, Stored store cursor → cursor ≤ boundary

structure FoldKept (entry : ValueEntry ε α β) (alone seed : Bool) (store : ValueStore ε α β)
    (start : Nat) (fold : ReadFold α) : Prop where
  start : start ≤ fold.boundary
  boundary : fold.boundary ≤ store.log.length
  cursor : fold.cursor ≤ fold.boundary
  acc : AccAt entry store.log fold.cursor fold.acc
  row : fold.valid = false → ∀ row, fold.row = some row → entry.recognise row = none
  below : seed = true → Below entry alone store fold.boundary

/-- A value that is what the reducer makes of its prefix of the log. -/
structure ValueKept (entry : ValueEntry ε α β) (log : List (ScopeEvent ε)) (start : Nat)
    (value : ReducerValue β) : Prop where
  start : start ≤ value.cursor
  cursor : value.cursor ≤ log.length
  value : value.value = entry.value (entry.reduced log value.cursor)

structure WriteKept (entry : ValueEntry ε α β) (alone seed : Bool) (store : ValueStore ε α β)
    (start : Nat) (write : CacheWrite α β) : Prop where
  value : ValueKept entry store.log start write.value
  next : write.next
    = entry.snapshot write.value.cursor (entry.reduced store.log write.value.cursor)
  row : write.valid = false → ∀ row, write.row = some row → entry.recognise row = none
  checkpoints : ∀ found ∈ write.checkpoints,
    found.1 ≤ write.value.cursor ∧ found.2 = entry.reduced store.log found.1
  cover : seed = true → ∀ cursor, write.value.cursor ≤ cursor + repositoryTailWindow →
    cursor ≤ write.value.cursor → Stored store cursor ∨ cursor ∈ write.checkpoints.map Prod.fst
  below : seed = true → Below entry alone store write.value.cursor

/-- What a read knows between two calls. -/
def StageKept (entry : ValueEntry ε α β) (alone seed : Bool) (store : ValueStore ε α β)
    (start : Nat) :
    ReadStage α β → Prop
  | .bounded boundary => start ≤ boundary ∧ boundary ≤ store.log.length ∧
      (seed = true → Below entry alone store boundary)
  | .ahead row => start ≤ store.log.length ∧ RowHonest entry store.log row ∧
      (seed = true → Below entry alone store store.log.length)
  | .covering fold => FoldKept entry alone seed store start fold ∧
      fold.valid = true ∧ fold.recovering = false
  | .recovering fold => FoldKept entry alone seed store start fold
  | .folding fold => FoldKept entry alone seed store start fold ∧ (seed = true →
      (fold.valid = true → fold.recovering = false → Stored store fold.cursor) ∧
        (Stored store fold.cursor ∨ fold.cursor = 0))
  | .writing write => WriteKept entry alone seed store start write
  | .returned value => ValueKept entry store.log start value
  | .failed => True

/-- The invariant of a store. -/
structure StoreKept (entry : ValueEntry ε α β) (alone seed : Bool) (store : ValueStore ε α β) :
    Prop where
  numbered : Numbered store.log
  row : ∀ row, store.row = some row → RowHonest entry store.log row
  checkpoints : ∀ cursor snapshot, store.checkpoints.get? ⟨cursor⟩ = some snapshot →
    cursor ≤ store.log.length ∧
      snapshot = entry.snapshot cursor (entry.reduced store.log cursor)
  cover : ∃ top, ∀ cursor, Stored store cursor → cursor ≤ top ∧
    ∀ other, top ≤ other + repositoryTailWindow → other ≤ top → Stored store other
  reads : ∀ read ∈ store.reads, StageKept entry alone seed store read.start read.stage
  exclusive : seed = true → ∀ (i j : Nat) (first second : ValueRead α β),
    store.reads[i]? = some first → store.reads[j]? = some second →
    first.stage.busy = true → second.stage.busy = true → i = j

theorem StoreKept.tail {seed : Bool} {store : ValueStore ε α β}
    (h : StoreKept entry alone seed store) :
    store.snapshotTail = store.log.length := h.numbered.tail

theorem ValueKept.append {log : List (ScopeEvent ε)} {start : Nat} {value : ReducerValue β}
    (h : ValueKept entry log start value) (more : List (ScopeEvent ε)) :
    ValueKept entry (log ++ more) start value := by
  refine ⟨h.start, ?_, ?_⟩
  · rw [List.length_append]
    exact h.cursor.trans (Nat.le_add_right _ _)
  · rw [reduced_append h.cursor]
    exact h.value

/-- Another store keeps the fold, too. -/
theorem FoldKept.frame {seed : Bool} {store other : ValueStore ε α β} {start : Nat}
    {fold : ReadFold α} (h : FoldKept entry alone seed store start fold)
    {more : List (ScopeEvent ε)}
    (hlog : other.log = store.log ++ more)
    (hbelow : seed = true → ∀ boundary, Below entry alone store boundary →
      Below entry alone other boundary) :
    FoldKept entry alone seed other start fold := by
  refine ⟨h.start, ?_, h.cursor, ?_, h.row, fun hseed => hbelow hseed _ (h.below hseed)⟩
  · rw [hlog, List.length_append]
    exact h.boundary.trans (Nat.le_add_right _ _)
  · rw [hlog]
    exact h.acc.append (h.cursor.trans h.boundary) more

/-- What a read knows does not change with the log's end, nor with the row and the checkpoints
where it is over or they are not a seed's. -/
theorem StageKept.frame {seed : Bool} {store other : ValueStore ε α β} {start : Nat}
    {stage : ReadStage α β} (h : StageKept entry alone seed store start stage)
    {more : List (ScopeEvent ε)} (hlog : other.log = store.log ++ more)
    (hframe : seed = true → stage.busy = true →
      (∀ boundary, Below entry alone store boundary → Below entry alone other boundary) ∧
        ∀ cursor, Stored store cursor → Stored other cursor) :
    StageKept entry alone seed other start stage := by
  have hlength : store.log.length ≤ other.log.length := by
    rw [hlog, List.length_append]
    exact Nat.le_add_right _ _
  cases stage with
  | bounded boundary =>
    obtain ⟨hstart, hboundary, hbelow⟩ := h
    exact ⟨hstart, hboundary.trans hlength, fun hseed => (hframe hseed rfl).1 _ (hbelow hseed)⟩
  | ahead row =>
    obtain ⟨hstart, hhonest, hbelow⟩ := h
    refine ⟨hstart.trans hlength, hlog ▸ hhonest.append more, fun hseed => ?_⟩
    have hb := (hframe hseed rfl).1 _ (hbelow hseed)
    exact ⟨fun ha row c acc hr he => (hb.row ha row c acc hr he).trans hlength,
      fun c hc => (hb.checkpoints c hc).trans hlength⟩
  | covering fold => exact ⟨h.1.frame hlog fun hseed => (hframe hseed rfl).1, h.2⟩
  | recovering fold => exact FoldKept.frame h hlog fun hseed => (hframe hseed rfl).1
  | folding fold =>
    refine ⟨h.1.frame hlog fun hseed => (hframe hseed rfl).1, fun hseed => ?_⟩
    have hstored := (hframe hseed rfl).2
    exact ⟨fun hv hr => hstored _ ((h.2 hseed).1 hv hr), (h.2 hseed).2.imp_left (hstored _)⟩
  | writing write =>
    have hwrite : WriteKept entry alone seed store start write := h
    refine ⟨hlog ▸ hwrite.value.append more, ?_, hwrite.row, fun found hf => ?_,
      fun hseed cursor hwindow hle => ?_, fun hseed => (hframe hseed rfl).1 _ (hwrite.below hseed)⟩
    · rw [hlog, reduced_append hwrite.value.cursor]
      exact hwrite.next
    · obtain ⟨hle, hfound⟩ := hwrite.checkpoints found hf
      rw [hlog, reduced_append (hle.trans hwrite.value.cursor)]
      exact ⟨hle, hfound⟩
    · exact (hwrite.cover hseed cursor hwindow hle).imp_left ((hframe hseed rfl).2 cursor)
  | returned value =>
    show ValueKept entry other.log start value
    rw [hlog]
    exact ValueKept.append h more
  | failed => trivial

/-- A row is settled at a boundary that a recognised one does not exceed. -/
theorem settleRow_kept {seed : Bool} {store : ValueStore ε α β} {start boundary : Nat}
    {row : Option (ReducerSnapshot α)} (law : AdvanceLaw entry) (hstart : start ≤ boundary)
    (hboundary : boundary ≤ store.log.length)
    (hhonest : ∀ snapshot, row = some snapshot → RowHonest entry store.log snapshot)
    (hrow : ∀ snapshot cursor acc, row = some snapshot →
      entry.recognise snapshot = some (cursor, acc) → cursor ≤ boundary)
    (hbelow : seed = true → Below entry alone store boundary) :
    StageKept entry alone seed store start (settleRow entry seed boundary row) := by
  unfold settleRow
  split
  · rename_i cursor acc hvalid
    obtain ⟨snapshot, hs, hrecognised, hle⟩ := validRow_eq_some hvalid
    have hacc : acc = entry.reduced store.log cursor :=
      (hhonest snapshot hs cursor acc hrecognised).2
    have hkept : FoldKept entry alone seed store start ⟨boundary, row, true, false, cursor, acc⟩ :=
      ⟨hstart, hboundary, hle, hacc ▸ accAt_reduced law store.log cursor, nofun, hbelow⟩
    cases seed with
    | true => exact ⟨hkept, rfl, rfl⟩
    | false => exact ⟨hkept, nofun⟩
  · rename_i hinvalid
    split
    · trivial
    · refine ⟨⟨hstart, hboundary, Nat.zero_le _, accAt_initial store.log, fun _ snapshot hs => ?_,
        hbelow⟩, fun _ => ⟨nofun, Or.inr rfl⟩⟩
      have hs : row = some snapshot := hs
      rw [hs] at hinvalid
      exact unrecognised_of_validRow hinvalid fun cursor acc => hrow snapshot cursor acc hs

/-- What a fold comes to. -/
structure FoldedTo (entry : ValueEntry ε α β) (seed : Bool) (log : List (ScopeEvent ε))
    (fold : ReadFold α) (folded : List (Nat × α) × α) : Prop where
  acc : folded.2 = entry.reduced log fold.boundary
  checkpoints : ∀ found ∈ folded.1,
    found.1 ≤ fold.boundary ∧ found.2 = entry.reduced log found.1
  cover : seed = true → ∀ cursor, fold.boundary ≤ cursor + repositoryTailWindow →
    cursor ≤ fold.boundary → fold.cursor < cursor ∨ fold.cursor ≤
      fold.boundary - repositoryTailWindow → cursor ∈ folded.1.map Prod.fst

theorem foldDelta_kept {seed : Bool} {log : List (ScopeEvent ε)} {fold : ReadFold α}
    (law : AdvanceLaw entry) (h : Numbered log) (hboundary : fold.boundary ≤ log.length)
    (hcursor : fold.cursor ≤ fold.boundary) (hacc : AccAt entry log fold.cursor fold.acc) :
    FoldedTo entry seed log fold
      (foldDelta entry seed fold ((log.take fold.boundary).drop fold.cursor)) := by
  unfold foldDelta
  cases seed with
  | false => exact ⟨hacc.advance hcursor, fun found hf => absurd hf List.not_mem_nil, nofun⟩
  | true =>
    rw [if_pos rfl]
    dsimp only
    generalize holdest : fold.boundary - repositoryTailWindow = oldest
    obtain ⟨hbefore, hafter⟩ := h.split fold.cursor (by omega : oldest ≤ fold.boundary) hboundary
    rw [hbefore, hafter]
    -- the accumulator at the window's start, or where the fold starts if that is later
    have hstart : entry.advance fold.acc ((log.take oldest).drop fold.cursor)
        = entry.reduced log (max oldest fold.cursor) := by
      rcases Nat.le_total fold.cursor oldest with hle | hle
      · rw [Nat.max_eq_left hle]
        exact hacc.advance hle
      · rw [Nat.max_eq_right hle, List.drop_eq_nil_of_le (by rw [List.length_take]; omega), hacc,
          List.append_nil]
        rfl
    rw [hstart]
    obtain ⟨hlast, hhonest, hcover⟩ := seedFold_kept law h hboundary
      (by omega : max oldest fold.cursor ≤ fold.boundary)
    refine ⟨hlast, fun found hf => ?_, fun _ cursor hwindow hle hnew => ?_⟩
    · rcases List.mem_append.mp hf with hf | hf
      · split_ifs at hf with hc
        · rw [List.mem_singleton.mp hf, Nat.max_eq_left hc]
          exact ⟨by show oldest ≤ fold.boundary; omega, rfl⟩
        · exact absurd hf List.not_mem_nil
      · exact hhonest found hf
    · rw [List.map_append, List.mem_append]
      by_cases hat : cursor = oldest ∧ fold.cursor ≤ oldest
      · left
        rw [if_pos hat.2, hat.1]
        exact List.mem_cons_self
      · right
        exact hcover cursor (by omega) hle

theorem finishFold_kept {seed : Bool} {store : ValueStore ε α β} {start : Nat} {fold : ReadFold α}
    (law : AdvanceLaw entry) (h : StoreKept entry alone seed store)
    (hstage : StageKept entry alone seed store start (.folding fold)) :
    StageKept entry alone seed store start (finishFold entry seed fold
        ((store.eventsBetween fold.cursor fold.boundary).filter (·.seq ≤ fold.boundary))) ∧
      ∀ value, finishFold entry seed fold
          ((store.eventsBetween fold.cursor fold.boundary).filter (·.seq ≤ fold.boundary))
        = .returned value →
        fold.valid = true ∧ fold.recovering = false ∧ fold.cursor = fold.boundary ∧
          value.cursor = fold.boundary := by
  obtain ⟨hfold, hstored⟩ := hstage
  have hboundary := hfold.boundary
  have hcursor := hfold.cursor
  have hdelta : (store.eventsBetween fold.cursor fold.boundary).filter (·.seq ≤ fold.boundary)
      = (store.log.take fold.boundary).drop fold.cursor :=
    (h.numbered.split fold.cursor le_rfl hboundary).1
  rw [hdelta]
  unfold finishFold
  rw [h.numbered.walk hboundary hcursor]
  dsimp only
  rw [if_neg (not_not.mpr rfl)]
  have hfolded : FoldedTo entry seed store.log fold _ :=
    foldDelta_kept law h.numbered hboundary hcursor hfold.acc
  generalize foldDelta entry seed fold ((store.log.take fold.boundary).drop fold.cursor) = folded
    at hfolded
  obtain ⟨checkpoints, acc⟩ := folded
  have hacc : acc = entry.reduced store.log fold.boundary := hfolded.acc
  dsimp only
  have hvalue : ValueKept entry store.log start
      ⟨entry.version, fold.boundary, entry.value acc⟩ :=
    ⟨hfold.start, hboundary, by rw [hacc]⟩
  split
  · refine ⟨⟨hvalue, by rw [hacc], hfold.row, hfolded.checkpoints, fun hseed cursor hwindow hle =>
    ?_,
      hfold.below⟩, nofun⟩
    -- a cursor the fold does not pass is one the store kept
    by_cases hnew : fold.cursor < cursor ∨ fold.cursor ≤ fold.boundary - repositoryTailWindow
    · exact Or.inr (hfolded.cover hseed cursor hwindow hle hnew)
    · left
      obtain ⟨top, htop⟩ := h.cover
      rcases (hstored hseed).2 with hs | hz
      · obtain ⟨hle', hcover⟩ := htop fold.cursor hs
        have htopStored : Stored store top := hcover top (by omega) le_rfl
        have hbelow := (hfold.below hseed).checkpoints top htopStored
        have hwindow : fold.boundary ≤ cursor + repositoryTailWindow := hwindow
        exact hcover cursor (by omega) (by omega)
      · omega
  · rename_i hskip
    refine ⟨hvalue, fun value hv => ?_⟩
    have hv := ReadStage.returned.inj hv
    rw [Bool.not_eq_true, Bool.or_eq_false_iff, Bool.or_eq_false_iff] at hskip
    obtain ⟨⟨hvalid, hrecovering⟩, hempty⟩ := hskip
    have hnil : (store.log.take fold.boundary).drop fold.cursor = [] := by simpa using hempty
    have hlen := congrArg List.length hnil
    rw [List.length_drop, List.length_take, List.length_nil] at hlen
    exact ⟨by simpa using hvalid, hrecovering, by omega, by rw [← hv]⟩

/-! ## 5. Writes -/

theorem publish_get? (store : ValueStore ε α β) {write : CacheWrite α β}
    (h : ∀ found ∈ write.checkpoints, found.2 = entry.reduced store.log found.1) (cursor : Nat) :
    (store.publish entry write).checkpoints.get? ⟨cursor⟩
      = if write.value.cursor ≤ cursor + repositoryTailWindow then
          if cursor ∈ write.checkpoints.map Prod.fst then
            some (entry.snapshot cursor (entry.reduced store.log cursor))
          else store.checkpoints.get? ⟨cursor⟩
        else none := by
  have hset : ∀ (founds : List (Nat × α)) (checkpoints : JsMap Nat (ReducerSnapshot α)),
      (∀ found ∈ founds, found.2 = entry.reduced store.log found.1) →
      (founds.foldl (fun checkpoints found =>
          checkpoints.set ⟨found.1⟩ (entry.snapshot found.1 found.2)) checkpoints).get? ⟨cursor⟩
        = if cursor ∈ founds.map Prod.fst then
            some (entry.snapshot cursor (entry.reduced store.log cursor))
          else checkpoints.get? ⟨cursor⟩ := by
    intro founds
    induction founds with
    | nil => exact fun _ _ => (if_neg List.not_mem_nil).symm
    | cons found rest ih =>
      intro checkpoints hf
      rw [List.foldl_cons, ih _ fun other ho => hf other (List.mem_cons_of_mem _ ho), get?_set,
        List.map_cons]
      by_cases hrest : cursor ∈ rest.map Prod.fst
      · rw [if_pos hrest, if_pos (List.mem_cons_of_mem _ hrest)]
      · rw [if_neg hrest]
        by_cases hc : cursor = found.1
        · rw [if_pos (by rw [hc]), if_pos (List.mem_cons.mpr (Or.inl hc)), hc,
            hf found List.mem_cons_self]
        · rw [if_neg fun he => hc (MapKey.mk.inj he), if_neg fun hm => by
            rcases List.mem_cons.mp hm with hm | hm
            · exact hc hm
            · exact hrest hm]
  unfold ValueStore.publish
  dsimp only
  rw [get?_filter, hset write.checkpoints store.checkpoints h]
  generalize (if cursor ∈ write.checkpoints.map Prod.fst then
    some (entry.snapshot cursor (entry.reduced store.log cursor))
    else store.checkpoints.get? ⟨cursor⟩) = found
  cases found with
  | none => exact (ite_self none).symm
  | some snapshot =>
    by_cases hwindow : write.value.cursor ≤ cursor + repositoryTailWindow
    · rw [if_pos hwindow]
      exact Option.filter_some_pos (decide_eq_true hwindow)
    · rw [if_neg hwindow]
      exact Option.filter_some_neg (decide_eq_false hwindow)

/-- A put does not lower the cursor of its version. -/
theorem cursor_le_of_supersedes {next stored : ReducerSnapshot α}
    (h : snapshotSupersedes next (some stored) = true) (hversion : next.version = stored.version) :
    stored.cursor ≤ next.cursor := by
  unfold snapshotSupersedes at h
  dsimp only at h
  rw [if_neg (by omega)] at h
  split at h
  · exact le_of_lt (of_decide_eq_true h)
  · rename_i hsame
    exact (not_not.mp hsame).symm.le

section

variable [DecidableEq α]

/-- The row after the write of a value cache. -/
theorem writeRow_kept (store : ValueStore ε α β) {write : CacheWrite α β}
    (h : write.valid = false → ∀ row, write.row = some row → entry.recognise row = none) :
    store.writeRow entry write = store ∨
      store.writeRow entry write = { store with row := some write.next } ∧
        ∀ before, store.row = some before → entry.recognise before ≠ none →
          write.next.version = before.version → before.cursor ≤ write.next.cursor := by
  have hput : store.putSnapshot write.next = store ∨
      store.putSnapshot write.next = { store with row := some write.next } ∧
        ∀ before, store.row = some before → entry.recognise before ≠ none →
          write.next.version = before.version → before.cursor ≤ write.next.cursor := by
    unfold ValueStore.putSnapshot
    split
    · exact Or.inl rfl
    · split
      · exact Or.inl rfl
      · rename_i hsupersedes
        refine Or.inr ⟨rfl, fun before hb _ hversion => ?_⟩
        rw [hb, Bool.not_eq_true, Bool.not_eq_false'] at hsupersedes
        exact cursor_le_of_supersedes hsupersedes hversion
  unfold ValueStore.writeRow
  split
  · rename_i row hrow hvalid
    split
    · unfold ValueStore.repair
      split
      · exact Or.inl rfl
      · rename_i hsame
        split
        · exact Or.inl rfl
        · refine Or.inr ⟨rfl, fun before hb hrecognised => ?_⟩
          -- the row is still the one observed, which was not recognised
          have he : store.row = some row := not_not.mp (not_or.mp hsame).1
          rw [he] at hb
          rw [← Option.some.inj hb] at hrecognised
          exact absurd (h hvalid row hrow) hrecognised
    · exact Or.inl rfl
  · exact hput

end

/-- What a call of a read does to it and to the store. -/
structure ReadAdvanced (entry : ValueEntry ε α β) (alone seed : Bool) (store : ValueStore ε α β)
    (start : Nat) (stage : ReadStage α β) (result : ReadStage α β × ValueStore ε α β) : Prop where
  log : result.2.log = store.log
  reads : result.2.reads = store.reads
  next : StageKept entry alone seed result.2 start result.1
  row : ∀ row, result.2.row = some row → RowHonest entry store.log row
  checkpoints : ∀ cursor snapshot, result.2.checkpoints.get? ⟨cursor⟩ = some snapshot →
    cursor ≤ store.log.length ∧
      snapshot = entry.snapshot cursor (entry.reduced store.log cursor)
  cover : ∃ top, ∀ cursor, Stored result.2 cursor → cursor ≤ top ∧
    ∀ other, top ≤ other + repositoryTailWindow → other ≤ top → Stored result.2 other
  busy : result.1.busy = true → stage.busy = true
  grows : alone = true → ∀ before after, store.row = some before → entry.recognise before ≠ none →
    result.2.row = some after → after.version = before.version → before.cursor ≤ after.cursor
  window : seed = true → stage.busy = true → ∀ value, result.1 = .returned value →
    ∀ cursor, value.cursor ≤ cursor + repositoryTailWindow → cursor ≤ value.cursor →
    Stored result.2 cursor

/-- A call that only reads. -/
theorem StoreKept.looked {seed : Bool} {store : ValueStore ε α β}
    (h : StoreKept entry alone seed store)
    {start : Nat} {stage next : ReadStage α β} (hbusy : stage.busy = true)
    (hnext : StageKept entry alone seed store start next)
    (hwindow : seed = true → ∀ value, next = .returned value →
      ∀ cursor, value.cursor ≤ cursor + repositoryTailWindow → cursor ≤ value.cursor →
      Stored store cursor) :
    ReadAdvanced entry alone seed store start stage (next, store) where
  log := rfl
  reads := rfl
  next := hnext
  row := h.row
  checkpoints := h.checkpoints
  cover := h.cover
  busy := fun _ => hbusy
  grows := fun _ before after hb _ ha _ => by
    have he : before = after := Option.some.inj (hb.symm.trans ha)
    rw [he]
  window := fun hseed _ => hwindow hseed

theorem settleRow_not_returned {seed : Bool} {boundary : Nat} {row : Option (ReducerSnapshot α)}
    {value : ReducerValue β} : settleRow entry seed boundary row ≠ .returned value := by
  unfold settleRow
  split
  · cases seed <;> exact nofun
  · split <;> exact nofun

section Advance

variable {seed answered : Bool} {store : ValueStore ε α β} {start : Nat}

/-- A publication keeps the checkpoints of the window, and adds its own. -/
theorem stored_publish {write : CacheWrite α β}
    (hcheckpoints : ∀ found ∈ write.checkpoints, found.2 = entry.reduced store.log found.1)
    (cursor : Nat) :
    Stored (store.publish entry write) cursor ↔
      write.value.cursor ≤ cursor + repositoryTailWindow ∧
        (cursor ∈ write.checkpoints.map Prod.fst ∨ Stored store cursor) := by
  unfold Stored
  rw [publish_get? store hcheckpoints]
  split_ifs with hwindow hm
  · exact ⟨fun _ => ⟨hwindow, Or.inl hm⟩, fun _ => rfl⟩
  · exact ⟨fun hs => ⟨hwindow, Or.inr hs⟩, fun hs => hs.2.resolve_left hm⟩
  · exact ⟨fun hs => (by cases hs), fun hs => absurd hs.1 hwindow⟩

theorem WriteKept.honest {write : CacheWrite α β}
    (hwrite : WriteKept entry alone seed store start write) :
    RowHonest entry store.log write.next := by
  rw [hwrite.next]
  exact rowHonest_snapshot hwrite.value.cursor

theorem publish_kept (h : StoreKept entry alone seed store) (hseed : seed = true)
    {write : CacheWrite α β} (hwrite : WriteKept entry alone seed store start write) :
    ReadAdvanced entry alone seed store start (.writing write)
      (.returned write.value, store.publish entry write) := by
  have hcheckpoints : ∀ found ∈ write.checkpoints, found.2 = entry.reduced store.log found.1 :=
    fun found hf => (hwrite.checkpoints found hf).2
  have hnext : write.next.cursor = write.value.cursor := by
    rw [hwrite.next]
    rfl
  have hget := publish_get? store hcheckpoints
  have hcovered : ∀ cursor, write.value.cursor ≤ cursor + repositoryTailWindow →
      cursor ≤ write.value.cursor → Stored (store.publish entry write) cursor := by
    intro cursor hwindow hle
    exact (stored_publish hcheckpoints cursor).mpr
      ⟨hwindow, (hwrite.cover hseed cursor hwindow hle).symm⟩
  refine ⟨rfl, rfl, hwrite.value, fun row hr => ?_, fun cursor snapshot hs => ?_,
    ⟨write.value.cursor, fun cursor hs => ⟨?_, hcovered⟩⟩, fun _ => rfl,
    fun halone before after hb hrecognised ha hversion => ?_, fun _ _ value hv cursor => ?_⟩
  · rw [← Option.some.inj hr]
    exact hwrite.honest
  · rw [hget] at hs
    split_ifs at hs with hwindow hm
    · obtain ⟨found, hf, he⟩ := List.mem_map.mp hm
      have hle := (hwrite.checkpoints found hf).1
      exact ⟨he ▸ hle.trans hwrite.value.cursor, (Option.some.inj hs).symm⟩
    · exact h.checkpoints cursor snapshot hs
  · rcases ((stored_publish hcheckpoints cursor).mp hs).2 with hm | hs
    · obtain ⟨found, hf, he⟩ := List.mem_map.mp hm
      exact he ▸ (hwrite.checkpoints found hf).1
    · exact (hwrite.below hseed).checkpoints cursor hs
  · rw [← Option.some.inj ha]
    cases hr : entry.recognise before with
    | none => exact absurd hr hrecognised
    | some found =>
      have hle := (hwrite.below hseed).row halone before found.1 found.2 hb hr
      rw [(recognised hr).2, hnext]
      exact_mod_cast hle
  · have hv : write.value = value := ReadStage.returned.inj hv
    rw [← hv]
    exact hcovered cursor

theorem returned_kept (h : StoreKept entry alone seed store) (hseed : seed = false)
    {write : CacheWrite α β} (hwrite : WriteKept entry alone seed store start write) :
    ReadAdvanced entry alone seed store start (.writing write) (.returned write.value, store) :=
  h.looked rfl hwrite.value fun hs => absurd hs (by rw [hseed]; exact Bool.false_ne_true)

variable [DecidableEq α]

theorem advanceRead_bounded (law : AdvanceLaw entry) (h : StoreKept entry alone seed store)
    {boundary : Nat}
    (hstage : StageKept entry alone seed store start (.bounded boundary)) :
    ReadAdvanced entry alone seed store start (.bounded boundary)
      (advanceRead entry seed answered store (.bounded boundary)) := by
  obtain ⟨hstart, hboundary, hbelow⟩ := hstage
  have hmiss : StageKept entry alone seed store start (settleRow entry seed boundary none) :=
    settleRow_kept law hstart hboundary (fun _ hs => by cases hs) (fun _ _ _ hs => by cases hs)
      hbelow
  unfold advanceRead
  dsimp only
  split
  · split
    · exact h.looked rfl trivial fun _ _ hv => by cases hv
    · exact h.looked rfl hmiss fun _ _ hv => absurd hv settleRow_not_returned
  · split
    · exact h.looked rfl hmiss fun _ _ hv => absurd hv settleRow_not_returned
    · rename_i row hrow
      split
      · refine h.looked rfl ⟨by omega, h.row row hrow, fun hseed => ?_⟩
          fun _ _ hv => by cases hv
        have hb := hbelow hseed
        exact ⟨fun ha other c acc ho hr => (hb.row ha other c acc ho hr).trans hboundary,
          fun c hc => (hb.checkpoints c hc).trans hboundary⟩
      · rename_i hahead
        refine h.looked rfl (settleRow_kept law hstart hboundary (fun snapshot hs => ?_)
          (fun snapshot cursor acc hs hr => ?_) hbelow) fun _ _ hv =>
            absurd hv settleRow_not_returned
        · rw [← Option.some.inj hs]
          exact h.row row hrow
        · rw [← Option.some.inj hs] at hr
          rw [(recognised hr).2] at hahead
          exact_mod_cast not_lt.mp hahead

theorem advanceRead_ahead (law : AdvanceLaw entry) (h : StoreKept entry alone seed store)
    {row : ReducerSnapshot α}
    (hstage : StageKept entry alone seed store start (.ahead row)) :
    ReadAdvanced entry alone seed store start (.ahead row)
      (advanceRead entry seed answered store (.ahead row)) := by
  obtain ⟨hstart, hhonest, hbelow⟩ := hstage
  unfold advanceRead
  dsimp only
  split
  · exact h.looked rfl trivial fun _ _ hv => by cases hv
  · rw [h.tail]
    refine h.looked rfl (settleRow_kept law hstart le_rfl (fun snapshot hs => ?_)
      (fun snapshot cursor acc hs hr => ?_) hbelow) fun _ _ hv =>
        absurd hv settleRow_not_returned
    · rw [← Option.some.inj hs]
      exact hhonest
    · rw [← Option.some.inj hs] at hr
      exact (hhonest cursor acc hr).1

theorem advanceRead_covering (h : StoreKept entry alone seed store) {fold : ReadFold α}
    (hstage : StageKept entry alone seed store start (.covering fold)) :
    ReadAdvanced entry alone seed store start (.covering fold)
      (advanceRead entry seed answered store (.covering fold)) := by
  obtain ⟨hfold, hvalid, hrecovering⟩ := hstage
  unfold advanceRead
  dsimp only
  split
  · exact h.looked rfl trivial fun _ _ hv => by cases hv
  · split
    · rename_i hcovered
      rw [has_eq_isSome] at hcovered
      exact h.looked rfl ⟨hfold, fun _ => ⟨fun _ _ => hcovered, Or.inl hcovered⟩⟩
        fun _ _ hv => by cases hv
    · exact h.looked rfl hfold fun _ _ hv => by cases hv

theorem advanceRead_recovering (law : AdvanceLaw entry) (h : StoreKept entry alone seed store)
    {fold : ReadFold α}
    (hstage : StageKept entry alone seed store start (.recovering fold)) :
    ReadAdvanced entry alone seed store start (.recovering fold)
      (advanceRead entry seed answered store (.recovering fold)) := by
  have hfold : FoldKept entry alone seed store start fold := hstage
  unfold advanceRead
  dsimp only
  split
  · exact h.looked rfl trivial fun _ _ hv => by cases hv
  · split
    · refine h.looked rfl ⟨⟨hfold.start, hfold.boundary, Nat.zero_le _,
        accAt_initial store.log, hfold.row, hfold.below⟩,
        fun _ => ⟨fun _ hv => (by cases hv), Or.inr rfl⟩⟩ fun _ _ hv => by cases hv
    · rename_i checkpoint hlatest
      split
      · exact h.looked rfl trivial fun _ _ hv => by cases hv
      · rename_i cursor acc hvalid
        obtain ⟨found, hf, hget⟩ := Option.bind_eq_some_iff.mp hlatest
        obtain ⟨snapshot, hs, hrecognised, hle⟩ := validRow_eq_some hvalid
        rw [← Option.some.inj hs, (h.checkpoints found checkpoint hget).2, recognise_snapshot]
          at hrecognised
        split_ifs at hrecognised
        obtain ⟨rfl, rfl⟩ := Prod.mk.inj (Option.some.inj hrecognised)
        have hstored : Stored store found := by
          unfold Stored
          rw [hget]
          rfl
        exact h.looked rfl ⟨⟨hfold.start, hfold.boundary, hle.trans hfold.cursor,
          accAt_reduced law store.log found, hfold.row, hfold.below⟩,
          fun _ => ⟨fun _ hv => (by cases hv), Or.inl hstored⟩⟩ fun _ _ hv => by cases hv

theorem advanceRead_folding (law : AdvanceLaw entry) (h : StoreKept entry alone seed store)
    {fold : ReadFold α}
    (hstage : StageKept entry alone seed store start (.folding fold)) :
    ReadAdvanced entry alone seed store start (.folding fold)
      (advanceRead entry seed answered store (.folding fold)) := by
  unfold advanceRead
  dsimp only
  split
  · exact h.looked rfl trivial fun _ _ hv => by cases hv
  · obtain ⟨hnext, hreturned⟩ := finishFold_kept law h hstage
    refine h.looked rfl hnext fun hseed value hv cursor hwindow hle => ?_
    obtain ⟨hvalid, hrecovering, hend, hcursor⟩ := hreturned value hv
    obtain ⟨top, htop⟩ := h.cover
    have hs : Stored store fold.cursor := (hstage.2 hseed).1 hvalid hrecovering
    obtain ⟨hle', hcover⟩ := htop fold.cursor hs
    -- the newest checkpoint is not past the boundary, which the row had reached
    have hbelow := (hstage.1.below hseed).checkpoints top (hcover top (by omega) le_rfl)
    exact hcover cursor (by omega) (by omega)

theorem written_kept (h : StoreKept entry alone seed store) (hseed : seed = false)
    {write : CacheWrite α β} (hwrite : WriteKept entry alone seed store start write) :
    ReadAdvanced entry alone seed store start (.writing write)
      (.returned write.value, store.writeRow entry write) := by
  rcases writeRow_kept store hwrite.row with he | ⟨he, hgrows⟩
  · rw [he]
    exact returned_kept h hseed hwrite
  · rw [he]
    refine ⟨rfl, rfl, hwrite.value, fun row hr => ?_, h.checkpoints, h.cover, fun _ => rfl,
      fun _ before after hb hrecognised ha hversion => ?_, fun hs => ?_⟩
    · rw [← Option.some.inj hr]
      exact hwrite.honest
    · rw [← Option.some.inj ha] at hversion ⊢
      exact hgrows before hb hrecognised hversion
    · rw [hseed] at hs
      exact by cases hs

theorem advanceRead_writing (h : StoreKept entry alone seed store) {write : CacheWrite α β}
    (hstage : StageKept entry alone seed store start (.writing write)) :
    ReadAdvanced entry alone seed store start (.writing write)
      (advanceRead entry seed answered store (.writing write)) := by
  have hwrite : WriteKept entry alone seed store start write := hstage
  unfold advanceRead
  dsimp only
  split
  · rename_i hseed
    split
    · exact h.looked rfl trivial fun _ _ hv => by cases hv
    · exact publish_kept h hseed hwrite
  · rename_i hseed
    have hseed : seed = false := Bool.eq_false_of_not_eq_true hseed
    split
    · exact written_kept h hseed hwrite
    · exact returned_kept h hseed hwrite

theorem advanceRead_kept {stage : ReadStage α β} (law : AdvanceLaw entry)
    (h : StoreKept entry alone seed store)
    (hstage : StageKept entry alone seed store start stage) (hbusy : stage.busy = true) :
    ReadAdvanced entry alone seed store start stage
      (advanceRead entry seed answered store stage) := by
  cases stage with
  | bounded boundary => exact advanceRead_bounded law h hstage
  | ahead row => exact advanceRead_ahead law h hstage
  | covering fold => exact advanceRead_covering h hstage
  | recovering fold => exact advanceRead_recovering law h hstage
  | folding fold => exact advanceRead_folding law h hstage
  | writing write => exact advanceRead_writing h hstage
  | returned value => exact absurd hbusy Bool.false_ne_true
  | failed => exact absurd hbusy Bool.false_ne_true

end Advance

/-! ## 6. Moves -/

theorem not_busy_of_unlocked {store : ValueStore ε α β} (h : store.locked = false)
    {read : ValueRead α β} (hr : read ∈ store.reads) : read.stage.busy = false := by
  cases hb : read.stage.busy with
  | false => rfl
  | true =>
    have hlocked : store.locked = true := List.any_eq_true.mpr ⟨read, hr, hb⟩
    rw [h] at hlocked
    exact absurd hlocked nofun

/-- A move of another server. -/
theorem StoreKept.setRow {seed : Bool} {store : ValueStore ε α β}
    (h : StoreKept entry alone seed store)
    {row : Option (ReducerSnapshot α)}
    (hhonest : ∀ snapshot, row = some snapshot → RowHonest entry store.log snapshot)
    (hframe : (∀ snapshot, row = some snapshot → entry.recognise snapshot = none) ∨
      (seed && store.locked) = false ∨ alone = false) :
    StoreKept entry alone seed { store with row := row } := by
  refine ⟨h.numbered, hhonest, h.checkpoints, h.cover, fun read hr => ?_, h.exclusive⟩
  refine (h.reads read hr).frame (List.append_nil _).symm fun hseed hbusy =>
    ⟨fun boundary hb => ⟨fun ha snapshot c acc hs he => ?_, hb.checkpoints⟩, fun _ hs => hs⟩
  rcases hframe with hun | hfree | hnot
  · rw [hun snapshot hs] at he
    exact absurd he nofun
  · rw [hseed, Bool.true_and] at hfree
    rw [not_busy_of_unlocked hfree hr] at hbusy
    exact absurd hbusy nofun
  · exact absurd (hnot.symm.trans ha) nofun

theorem StoreKept.append {seed : Bool} {store : ValueStore ε α β}
    (h : StoreKept entry alone seed store)
    (event : ε) : StoreKept entry alone seed (store.append event) := by
  refine ⟨h.numbered.append event, fun row hr => (h.row row hr).append _,
    fun cursor snapshot hs => ?_, h.cover, fun read hr => ?_, h.exclusive⟩
  · obtain ⟨hle, he⟩ := h.checkpoints cursor snapshot hs
    refine ⟨?_, ?_⟩
    · show cursor ≤ (store.log ++ [_]).length
      rw [List.length_append]
      omega
    · rw [he]
      exact congrArg (entry.snapshot cursor) (reduced_append hle _).symm
  · exact (h.reads read hr).frame rfl fun _ _ =>
      ⟨fun _ hb => ⟨hb.row, hb.checkpoints⟩, fun _ hs => hs⟩

/-- A read that begins. -/
theorem StoreKept.start {seed : Bool} {store : ValueStore ε α β}
    (h : StoreKept entry alone seed store)
    (answered : Bool) : StoreKept entry alone seed (startRead seed answered store) := by
  have hnew : ∀ (live : Bool) (stage : ReadStage α β),
      StageKept entry alone seed store store.snapshotTail stage →
      (seed = true → stage.busy = true → store.locked = false) →
      StoreKept entry alone seed
        { store with live := live, reads := store.reads ++ [⟨store.snapshotTail, stage⟩] } := by
    intro live stage hstage hunlocked
    refine ⟨h.numbered, h.row, h.checkpoints, h.cover, fun read hr => ?_,
      fun hseed i j first second hi hj hfirst hsecond => ?_⟩
    · have hkept : StageKept entry alone seed store read.start read.stage := by
        rcases List.mem_append.mp hr with hr | hr
        · exact h.reads read hr
        · rw [List.mem_singleton.mp hr]
          exact hstage
      exact hkept.frame (List.append_nil _).symm fun _ _ =>
        ⟨fun _ hb => ⟨hb.row, hb.checkpoints⟩, fun _ hs => hs⟩
    · have hat : ∀ (k : Nat) (read : ValueRead α β),
          (store.reads ++ [⟨store.snapshotTail, stage⟩])[k]? = some read →
          read.stage.busy = true → store.reads[k]? = some read ∨
            (k = store.reads.length ∧ stage.busy = true) := by
        intro k read hk hbusy
        rcases Nat.lt_or_ge k store.reads.length with hlt | hge
        · rw [List.getElem?_append_left hlt] at hk
          exact Or.inl hk
        · rw [List.getElem?_append_right hge] at hk
          obtain ⟨hz, he⟩ := List.getElem?_eq_some_iff.mp hk
          rw [List.length_singleton] at hz
          rw [List.getElem_singleton] at he
          rw [← he] at hbusy
          exact Or.inr ⟨by omega, hbusy⟩
      rcases hat i first hi hfirst with hi | ⟨hi, hb⟩
      · rcases hat j second hj hsecond with hj | ⟨-, hb⟩
        · exact h.exclusive hseed i j first second hi hj hfirst hsecond
        · rw [not_busy_of_unlocked (hunlocked hseed hb) (List.mem_of_getElem? hi)] at hfirst
          exact absurd hfirst nofun
      · rcases hat j second hj hsecond with hj | ⟨hj, -⟩
        · rw [not_busy_of_unlocked (hunlocked hseed hb) (List.mem_of_getElem? hj)] at hsecond
          exact absurd hsecond nofun
        · exact hi.trans hj.symm
  unfold startRead
  split
  · exact h
  · rename_i hlocked
    split
    · exact hnew store.live .failed trivial nofun
    · refine hnew (store.live || seed) _ ?_ fun hseed _ => ?_
      · rw [h.tail]
        split
        · refine ⟨le_rfl, le_rfl, fun _ => ⟨fun _ row c acc hr he => (h.row row hr c acc he).1,
            fun c hc => ?_⟩⟩
          obtain ⟨snapshot, hs⟩ := Option.isSome_iff_exists.mp hc
          exact (h.checkpoints c snapshot hs).1
        · trivial
      · rw [hseed, Bool.true_and] at hlocked
        exact Bool.eq_false_of_not_eq_true hlocked

theorem storeKept_empty {seed : Bool} : StoreKept entry alone seed ({} : ValueStore ε α β) :=
  ⟨rfl, nofun, fun _ _ h => absurd h nofun, ⟨0, fun _ h => absurd h nofun⟩,
    fun _ h => absurd h List.not_mem_nil, fun _ _ _ _ _ h => absurd h nofun⟩

variable [DecidableEq α]

theorem advanceRead_done {seed answered : Bool} {store : ValueStore ε α β} {stage : ReadStage α β}
    (h : stage.busy = false) : advanceRead entry seed answered store stage = (stage, store) := by
  cases stage with
  | returned value => rfl
  | failed => rfl
  | _ => exact absurd h nofun

theorem StoreKept.stepRead {seed answered : Bool} {store : ValueStore ε α β}
    (law : AdvanceLaw entry) (h : StoreKept entry alone seed store) (position : Nat) :
    StoreKept entry alone seed (stepRead entry seed answered store position) := by
  unfold Autobuild.stepRead
  split
  · exact h
  · rename_i read hread
    have hmem : read ∈ store.reads := List.mem_of_getElem? hread
    dsimp only
    cases hbusy : read.stage.busy with
    | false =>
      rw [advanceRead_done hbusy]
      dsimp only
      have hsame : store.reads.set position read = store.reads := by
        obtain ⟨hlt, he⟩ := List.getElem?_eq_some_iff.mp hread
        rw [← he, List.set_getElem_self]
      rw [hsame]
      exact h
    | true =>
      have hadvanced : ReadAdvanced entry alone seed store read.start read.stage
          (advanceRead entry seed answered store read.stage) :=
        advanceRead_kept law h (h.reads read hmem) hbusy
      generalize advanceRead entry seed answered store read.stage = result at hadvanced
      obtain ⟨stage, after⟩ := result
      have hlog : after.log = store.log := hadvanced.log
      have hreads : after.reads = store.reads := hadvanced.reads
      dsimp only
      rw [hreads]
      -- the other reads are over, or do not look at the row and the checkpoints
      have hframe : ∀ (k : Nat) (other : ValueRead α β), k ≠ position →
          store.reads[k]? = some other →
            StageKept entry alone seed after other.start other.stage := by
        intro k other hk hother
        have hsame : after.log = store.log ++ [] := by rw [hlog, List.append_nil]
        exact (h.reads other (List.mem_of_getElem? hother)).frame hsame fun hseed hb =>
          absurd (h.exclusive hseed k position other read hother hread hb hbusy) hk
      refine ⟨hlog ▸ h.numbered, fun row hr => hlog ▸ hadvanced.row row hr,
        fun cursor snapshot hs => hlog ▸ hadvanced.checkpoints cursor snapshot hs,
        hadvanced.cover, fun other ho => ?_, fun hseed i j first second hi hj hf hs => ?_⟩
      · obtain ⟨k, hk⟩ := List.mem_iff_getElem?.mp ho
        have hkept : StageKept entry alone seed after other.start other.stage := by
          have hk : (store.reads.set position { read with stage })[k]? = some other := hk
          rw [List.getElem?_set] at hk
          split_ifs at hk with hp
          · rw [← Option.some.inj hk]
            exact hadvanced.next
          · exact hframe k other (Ne.symm hp) hk
        exact hkept.frame (List.append_nil _).symm fun _ _ =>
          ⟨fun _ hb => ⟨hb.row, hb.checkpoints⟩, fun _ hs => hs⟩
      · have hat : ∀ (k : Nat) (other : ValueRead α β),
            (store.reads.set position { read with stage })[k]? = some other →
            other.stage.busy = true →
            ∃ before, store.reads[k]? = some before ∧ before.stage.busy = true := by
          intro k other hk hb
          rw [List.getElem?_set] at hk
          split_ifs at hk with hp
          · rw [← hp]
            exact ⟨read, hread, hbusy⟩
          · exact ⟨other, hk, hb⟩
        obtain ⟨before, hi, hb⟩ := hat i first hi hf
        obtain ⟨before', hj, hb'⟩ := hat j second hj hs
        exact h.exclusive hseed i j before before' hi hj hb hb'

/-- **One move** keeps the store. -/
theorem stepMove_kept {seed : Bool} {store : ValueStore ε α β} (law : AdvanceLaw entry)
    (h : StoreKept entry alone seed store) (move : CacheMove entry) :
    StoreKept entry alone seed (stepMove entry seed store move) := by
  cases move with
  | append event => exact h.append event
  | start answered => exact h.start answered
  | advance position answered => exact h.stepRead law position
  | shared cursor =>
    unfold stepMove
    dsimp only
    split
    · exact h
    · rename_i hfree
      obtain ⟨hle, hunlocked⟩ := not_or.mp hfree
      refine h.setRow (fun snapshot hs => ?_)
        (Or.inr (Or.inl (Bool.eq_false_of_not_eq_true hunlocked)))
      rw [← Option.some.inj hs]
      exact rowHonest_snapshot (not_lt.mp hle)
  | foreign row =>
    have hun : ∀ snapshot, some row.row = some snapshot → entry.recognise snapshot = none := by
      intro snapshot hs
      rw [← Option.some.inj hs]
      exact row.unrecognised
    refine h.setRow (fun snapshot hs cursor acc hr => ?_) (Or.inl hun)
    rw [hun snapshot hs] at hr
    exact absurd hr nofun
  | dropped => exact h.setRow nofun (Or.inl nofun)

theorem runMoves_kept {seed : Bool} (law : AdvanceLaw entry) (moves : List (CacheMove entry)) :
    StoreKept entry alone seed (runMoves entry seed {} moves) := by
  induction moves using List.reverseRecOn with
  | nil => exact storeKept_empty
  | append_singleton moves move ih =>
    unfold runMoves at ih ⊢
    rw [List.foldl_append, List.foldl_cons, List.foldl_nil]
    exact stepMove_kept law ih move

theorem stepRead_grows {seed answered : Bool} {store : ValueStore ε α β} (law : AdvanceLaw entry)
    (h : StoreKept entry true seed store) {position : Nat} {before after : ReducerSnapshot α}
    (hbefore : store.row = some before) (hrecognised : entry.recognise before ≠ none)
    (hafter : (stepRead entry seed answered store position).row = some after)
    (hversion : after.version = before.version) : before.cursor ≤ after.cursor := by
  unfold stepRead at hafter
  split at hafter
  · have he : before = after := Option.some.inj (hbefore.symm.trans hafter)
    rw [he]
  · rename_i read hread
    dsimp only at hafter
    cases hbusy : read.stage.busy with
    | false =>
      rw [advanceRead_done hbusy] at hafter
      have he : before = after := Option.some.inj (hbefore.symm.trans hafter)
      rw [he]
    | true =>
      exact (advanceRead_kept law h (h.reads read (List.mem_of_getElem? hread)) hbusy).grows
        rfl before after hbefore hrecognised hafter hversion

end

/-- **The value cache is transparent.**  In every state the moves of readers, writers of the log
and other servers reach, a value that a read returned is the reducer's value of the log's prefix
up to its cursor, which is not below the high water at the read's start; and no call of a read
replaces a row this version recognises by one of the same version with a smaller cursor. -/
theorem readReducerValue_transparent {ε α β : Type} [DecidableEq α] (entry : ValueEntry ε α β)
    (law : AdvanceLaw entry) (seed : Bool) (moves : List (CacheMove entry)) :
    let store := runMoves entry seed {} moves
    (∀ read ∈ store.reads, ∀ value, read.stage = .returned value →
        value.value = entry.value (entry.reduced store.log value.cursor) ∧
          value.cursor ≤ store.log.length ∧ read.start ≤ value.cursor) ∧
      ∀ position answered before after, store.row = some before →
        entry.recognise before ≠ none →
        (stepRead entry seed answered store position).row = some after →
        after.version = before.version → before.cursor ≤ after.cursor := by
  intro store
  have hkept : StoreKept entry true seed store := runMoves_kept law moves
  refine ⟨fun read hr value hv => ?_, fun position answered before after hb hr ha hversion =>
    stepRead_grows law hkept hb hr ha hversion⟩
  have hstage := hkept.reads read hr
  rw [hv] at hstage
  have hvalue : ValueKept entry store.log read.start value := hstage
  exact ⟨hvalue.value, hvalue.cursor, hvalue.start⟩

/-- The seqs of the log, as a reducer. -/
def seqReducer : ValueEntry String (List Nat) Nat where
  version := 1
  identity := "seqs"
  initial := []
  advance acc events := acc ++ events.map (·.seq)
  validate _ := true
  value acc := acc.length

theorem seqReducer_law : AdvanceLaw seqReducer := by
  intro front back
  show ([] ++ front.map (·.seq)) ++ back.map (·.seq) = [] ++ (front ++ back).map (·.seq)
  rw [List.map_append, List.append_assoc]

/-- Two reads side by side, a row of an older version, and a write that is lost. -/
theorem readReducerValue_transparent_concurrent :
    let store := runMoves seqReducer false {}
      [.append "a", .start true, .advance 0 true, .append "b", .start true, .advance 1 true,
        .advance 1 true, .advance 1 true, .advance 0 true, .foreign ⟨⟨0, 7, none⟩, rfl⟩,
        .advance 0 false]
    (∀ read ∈ store.reads, ∀ value, read.stage = .returned value →
        value.value = seqReducer.value (seqReducer.reduced store.log value.cursor) ∧
          value.cursor ≤ store.log.length ∧ read.start ≤ value.cursor) ∧
      ∀ position answered before after, store.row = some before →
        seqReducer.recognise before ≠ none →
        (stepRead seqReducer false answered store position).row = some after →
        after.version = before.version → before.cursor ≤ after.cursor :=
  readReducerValue_transparent seqReducer seqReducer_law false _

end Autobuild
