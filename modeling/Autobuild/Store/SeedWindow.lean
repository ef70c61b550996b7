/-
# The checkpoints of a stream seed cover the resume window

Seed reads take turns under a lock, while the log grows and an older server, which knows no seeds
and takes no lock, stores rows without checkpoints at any time.  A read that returns leaves a
checkpoint for every cursor of the window that ends at the head it answers for, so a resume in the
window finds its seed.

* `SeedMove` are the moves of such a history; the storage answers every call.
* The row that a read finds may be ahead of its boundary; it then answers for the head as it stands
  one call later (`ReadStage.ahead`).
* `SeedRun` adds to the invariant of the store that no read fails.
-/
import Autobuild.Store.ValueTransparency

namespace Autobuild

open ObjectMap

section

variable {ε α β : Type} {entry : ValueEntry ε α β}

/-! ## 1. Histories -/

inductive SeedMove (ε : Type) where
  | append (event : ε)
  | start
  | advance (position : Nat)
  /-- An older server stores the accumulator of the first events. -/
  | shared (cursor : Nat)

/-- One move: the older server takes no lock. -/
def stepSeed [DecidableEq α] (entry : ValueEntry ε α β) (store : ValueStore ε α β) :
    SeedMove ε → ValueStore ε α β
  | .append event => store.append event
  | .start => startRead true true store
  | .advance position => stepRead entry true true store position
  | .shared cursor =>
    if cursor > store.log.length then store
    else { store with row := some (entry.snapshot cursor (entry.reduced store.log cursor)) }

/-- The checkpoint of each cursor of the window that ends at `head`. -/
def Covered (entry : ValueEntry ε α β) (store : ValueStore ε α β) (head : Nat) : Prop :=
  ∀ cursor, head ≤ cursor + repositoryTailWindow → cursor ≤ head →
    store.checkpoints.get? ⟨cursor⟩
      = some (entry.snapshot cursor (entry.reduced store.log cursor))

/-- A row that some server stored. -/
def SeedRow (entry : ValueEntry ε α β) (log : List (ScopeEvent ε)) (row : ReducerSnapshot α) :
    Prop :=
  ∃ cursor ≤ log.length, row = entry.snapshot cursor (entry.reduced log cursor)

/-- What a seed read that does not fail is at. -/
def SeedStage (entry : ValueEntry ε α β) (store : ValueStore ε α β) : ReadStage α β → Prop
  | .ahead row => SeedRow entry store.log row ∧ store.row.isSome = true
  | .covering fold => fold.valid = true → store.row.isSome = true
  | .recovering fold => fold.valid = true → store.row.isSome = true
  | .folding fold => fold.valid = true → store.row.isSome = true
  | .failed => False
  | _ => True

structure SeedRun (entry : ValueEntry ε α β) (store : ValueStore ε α β) : Prop where
  kept : StoreKept entry false true store
  row : ∀ row, store.row = some row → SeedRow entry store.log row
  live : store.live = true → store.locked = false → store.row.isSome = true
  stages : ∀ read ∈ store.reads, SeedStage entry store read.stage

theorem SeedRow.append {log : List (ScopeEvent ε)} {row : ReducerSnapshot α}
    (h : SeedRow entry log row) (more : List (ScopeEvent ε)) : SeedRow entry (log ++ more) row := by
  obtain ⟨cursor, hle, he⟩ := h
  refine ⟨cursor, ?_, ?_⟩
  · rw [List.length_append]
    exact hle.trans (Nat.le_add_right _ _)
  · rw [reduced_append hle]
    exact he

/-- A read goes on as it stands in a store whose log has grown and that still has a row. -/
theorem SeedStage.frame {store other : ValueStore ε α β} {stage : ReadStage α β}
    (h : SeedStage entry store stage) {more : List (ScopeEvent ε)}
    (hlog : other.log = store.log ++ more)
    (hrow : stage.busy = true → store.row.isSome = true → other.row.isSome = true) :
    SeedStage entry other stage := by
  cases stage with
  | ahead row => exact ⟨hlog ▸ h.1.append more, hrow rfl h.2⟩
  | covering fold => exact fun hv => hrow rfl (h hv)
  | recovering fold => exact fun hv => hrow rfl (h hv)
  | folding fold => exact fun hv => hrow rfl (h hv)
  | _ => exact h

/-! ## 2. Moves -/

theorem SeedRun.append {store : ValueStore ε α β} (h : SeedRun entry store) (event : ε) :
    SeedRun entry (store.append event) :=
  ⟨h.kept.append event, fun row hr => (h.row row hr).append _, h.live,
    fun read hr => (h.stages read hr).frame rfl fun _ hs => hs⟩

theorem locked_of_busy {store : ValueStore ε α β} {read : ValueRead α β}
    (hr : read ∈ store.reads) (hb : read.stage.busy = true) : store.locked = true :=
  List.any_eq_true.mpr ⟨read, hr, hb⟩

/-- A seed that is admitted has a row once no read is under way, so the next read starts. -/
theorem startRead_unlocked {store : ValueStore ε α β} (h : SeedRun entry store)
    (hunlocked : store.locked = false) :
    startRead true true store
      = { store with
          live := true
          reads := store.reads ++ [⟨store.snapshotTail, .bounded store.snapshotTail⟩] } := by
  unfold startRead
  rw [hunlocked, Bool.and_false, if_neg Bool.false_ne_true, Bool.true_and]
  have hfresh : (store.live && store.row.isNone) = false := by
    cases hlive : store.live with
    | false => rfl
    | true =>
      obtain ⟨row, hrow⟩ := Option.isSome_iff_exists.mp (h.live hlive hunlocked)
      rw [hrow]
      rfl
  rw [hfresh, if_neg Bool.false_ne_true, if_pos rfl, Bool.or_true]

theorem SeedRun.start {store : ValueStore ε α β} (h : SeedRun entry store) :
    SeedRun entry (startRead true true store) := by
  cases hlocked : store.locked with
  | true =>
    have hsame : startRead true true store = store := by
      unfold startRead
      rw [hlocked]
      rfl
    rw [hsame]
    exact h
  | false =>
    have hkept := h.kept.start true
    rw [startRead_unlocked h hlocked] at hkept ⊢
    refine ⟨hkept, h.row, fun _ hfree => ?_, fun read hr => ?_⟩
    · have hbusy : ({ store with
          live := true
          reads := store.reads ++ [⟨store.snapshotTail, .bounded store.snapshotTail⟩] } :
            ValueStore ε α β).locked = true :=
        locked_of_busy (List.mem_append_right _ List.mem_cons_self) rfl
      rw [hbusy] at hfree
      exact absurd hfree nofun
    · rcases List.mem_append.mp hr with hr | hr
      · exact (h.stages read hr).frame (List.append_nil _).symm fun _ hs => hs
      · rw [List.mem_singleton.mp hr]
        trivial

/-- An older server stores a row, whether or not a seed read is under way. -/
theorem SeedRun.shared {store : ValueStore ε α β} (h : SeedRun entry store) {cursor : Nat}
    (hle : cursor ≤ store.log.length) :
    SeedRun entry
      { store with row := some (entry.snapshot cursor (entry.reduced store.log cursor)) } := by
  refine ⟨h.kept.setRow (fun snapshot hs => ?_) (Or.inr (Or.inr rfl)), fun row hr => ?_,
    fun _ _ => rfl, fun read hr => (h.stages read hr).frame (List.append_nil _).symm fun _ _ => rfl⟩
  · rw [← Option.some.inj hs]
    exact rowHonest_snapshot hle
  · exact ⟨cursor, hle, (Option.some.inj hr).symm⟩

/-- The next call of a seed read that the storage answers. -/
structure SeedAdvanced (entry : ValueEntry ε α β) (store : ValueStore ε α β)
    (result : ReadStage α β × ValueStore ε α β) : Prop where
  stage : SeedStage entry result.2 result.1
  row : ∀ row, result.2.row = some row → SeedRow entry store.log row
  found : result.1.busy = false → result.2.row.isSome = true

/-- A row that is not ahead of the boundary is valid there. -/
theorem settleRow_seed (store : ValueStore ε α β)
    (hvalid : ∀ log cursor, entry.validate (entry.reduced log cursor) = true) (boundary : Nat)
    (row : Option (ReducerSnapshot α)) (hsome : row.isSome = true → store.row.isSome = true)
    (hown : ∀ snapshot, row = some snapshot → ∃ cursor ≤ boundary,
      snapshot = entry.snapshot cursor (entry.reduced store.log cursor)) :
    SeedStage entry store (settleRow entry true boundary row : ReadStage α β) ∧
      (settleRow entry true boundary row : ReadStage α β).busy = true := by
  unfold settleRow
  split
  · rename_i cursor acc hv
    obtain ⟨snapshot, hs, -, -⟩ := validRow_eq_some hv
    exact ⟨fun _ => hsome (by rw [hs]; rfl), rfl⟩
  · rename_i hnone
    cases row with
    | none =>
      have hfold : SeedStage entry store
          (.folding ⟨boundary, none, false, false, 0, entry.initial⟩) := fun hv => by cases hv
      exact ⟨hfold, rfl⟩
    | some snapshot =>
      obtain ⟨cursor, hle, he⟩ := hown snapshot rfl
      unfold ValueEntry.validRow at hnone
      rw [Option.bind_some, he, recognise_snapshot, if_pos (hvalid store.log cursor),
        Option.filter_some, if_pos (decide_eq_true hle)] at hnone
      exact absurd hnone nofun

theorem advanceRead_seed [DecidableEq α] {store : ValueStore ε α β} {start : Nat}
    {stage : ReadStage α β}
    (hvalid : ∀ log cursor, entry.validate (entry.reduced log cursor) = true)
    (h : SeedRun entry store) (hkept : StageKept entry false true store start stage)
    (hstage : SeedStage entry store stage) (hbusy : stage.busy = true) :
    SeedAdvanced entry store (advanceRead entry true true store stage) := by
  have hlooked : ∀ next : ReadStage α β, SeedStage entry store next → next.busy = true →
      SeedAdvanced entry store (next, store) := fun next hn hb =>
    ⟨hn, h.row, fun hf => absurd (hb.symm.trans hf) Bool.noConfusion⟩
  cases stage with
  | bounded boundary =>
    unfold advanceRead
    dsimp only
    rw [if_neg (by decide)]
    cases hrow : store.row with
    | none =>
      have hsettled := settleRow_seed store hvalid boundary none
        (fun h => absurd h Bool.false_ne_true) fun _ h => absurd h.symm (Option.some_ne_none _)
      exact hlooked _ hsettled.1 hsettled.2
    | some row =>
      dsimp only
      split
      · exact hlooked _ ⟨h.row row hrow, by rw [hrow]; rfl⟩ rfl
      · rename_i hahead
        have hsettled := settleRow_seed store hvalid boundary (some row)
          (fun _ => by rw [hrow]; rfl) fun snapshot hs => by
            obtain ⟨cursor, -, he⟩ := h.row row hrow
            refine ⟨cursor, ?_, (Option.some.inj hs).symm.trans he⟩
            rw [he] at hahead
            have hle : (cursor : Rat) ≤ boundary := not_lt.mp hahead
            exact_mod_cast hle
        exact hlooked _ hsettled.1 hsettled.2
  | ahead row =>
    obtain ⟨⟨cursor, hle, he⟩, hsome⟩ := hstage
    unfold advanceRead
    dsimp only
    rw [if_neg (by decide), h.kept.tail]
    have hsettled := settleRow_seed store hvalid store.log.length (some row) (fun _ => hsome)
      fun snapshot hs => ⟨cursor, hle, (Option.some.inj hs).symm.trans he⟩
    exact hlooked _ hsettled.1 hsettled.2
  | covering fold =>
    unfold advanceRead
    dsimp only
    rw [if_neg (by decide)]
    split
    · exact hlooked _ hstage rfl
    · exact hlooked _ hstage rfl
  | recovering fold =>
    have hfold : fold.valid = true → store.row.isSome = true := hstage
    unfold advanceRead
    dsimp only
    rw [if_neg (by decide)]
    split
    · exact hlooked _ hfold rfl
    · rename_i checkpoint hlatest
      split
      · rename_i hnone
        -- a stored checkpoint at most the cursor is valid there
        obtain ⟨found, hf, hget⟩ := Option.bind_eq_some_iff.mp hlatest
        have hmem := List.max?_mem hf
        have hle : found ≤ fold.cursor := of_decide_eq_true (List.mem_filter.mp hmem).2
        unfold ValueEntry.validRow at hnone
        rw [Option.bind_some, (h.kept.checkpoints found checkpoint hget).2, recognise_snapshot,
          if_pos (hvalid store.log found), Option.filter_some, if_pos (decide_eq_true hle)] at hnone
        exact absurd hnone (Option.some_ne_none _)
      · exact hlooked _ hfold rfl
  | folding fold =>
    have hfold : fold.valid = true → store.row.isSome = true := hstage
    unfold advanceRead
    dsimp only
    rw [if_neg (by decide)]
    have hdelta : (store.eventsBetween fold.cursor fold.boundary).filter (·.seq ≤ fold.boundary)
        = (store.log.take fold.boundary).drop fold.cursor :=
      (h.kept.numbered.split fold.cursor le_rfl hkept.1.boundary).1
    rw [hdelta]
    unfold finishFold
    rw [h.kept.numbered.walk hkept.1.boundary hkept.1.cursor]
    dsimp only
    rw [if_neg (not_not.mpr rfl)]
    split
    · exact hlooked _ trivial rfl
    · rename_i hskip
      rw [Bool.not_eq_true, Bool.or_eq_false_iff, Bool.or_eq_false_iff] at hskip
      exact ⟨trivial, h.row, fun _ => hfold (by simpa using hskip.1.1)⟩
  | writing write =>
    have hwrite : WriteKept entry false true store start write := hkept
    exact ⟨trivial, fun row hr => ⟨write.value.cursor, hwrite.value.cursor, by
      rw [← Option.some.inj hr]
      exact hwrite.next⟩, fun _ => rfl⟩
  | returned value => exact absurd hbusy Bool.false_ne_true
  | failed => exact absurd hbusy Bool.false_ne_true

variable [DecidableEq α]

/-- What a seed read's next call leaves. -/
structure SeedStepped (entry : ValueEntry ε α β) (store : ValueStore ε α β) (position : Nat)
    (read : ValueRead α β) (after : ValueStore ε α β) : Prop where
  run : SeedRun entry after
  log : after.log = store.log
  next : after.reads[position]?
    = some ⟨read.start, (advanceRead entry true true store read.stage).1⟩
  covered : ∀ value, after.reads[position]? = some ⟨read.start, .returned value⟩ →
    read.start ≤ value.cursor ∧ value.cursor ≤ store.log.length ∧ Covered entry after value.cursor

theorem stepRead_seed {store : ValueStore ε α β} (law : AdvanceLaw entry)
    (hvalid : ∀ log cursor, entry.validate (entry.reduced log cursor) = true)
    (h : SeedRun entry store) {position : Nat} {read : ValueRead α β}
    (hread : store.reads[position]? = some read) (hbusy : read.stage.busy = true) :
    SeedStepped entry store position read (stepRead entry true true store position) := by
  have hmem : read ∈ store.reads := List.mem_of_getElem? hread
  have hkept : StoreKept entry false true (stepRead entry true true store position) :=
    h.kept.stepRead law position
  have hadvanced : ReadAdvanced entry false true store read.start read.stage
      (advanceRead entry true true store read.stage) :=
    advanceRead_kept law h.kept (h.kept.reads read hmem) hbusy
  have hseed := advanceRead_seed hvalid h (h.kept.reads read hmem) (h.stages read hmem) hbusy
  have hlt : position < store.reads.length := (List.getElem?_eq_some_iff.mp hread).1
  unfold stepRead at hkept ⊢
  rw [hread] at hkept ⊢
  dsimp only at hkept ⊢
  generalize hresult : advanceRead entry true true store read.stage = result
    at hadvanced hseed hkept ⊢
  obtain ⟨stage, after⟩ := result
  have hlog : after.log = store.log := hadvanced.log
  have hreads : after.reads = store.reads := hadvanced.reads
  dsimp only at hkept ⊢
  rw [hreads] at hkept ⊢
  have hat : (store.reads.set position { read with stage })[position]?
      = some { read with stage } := by
    rw [List.getElem?_set, if_pos rfl, if_pos hlt]
  refine ⟨⟨hkept, fun row hr => ?_, fun _ hfree => ?_, fun other ho => ?_⟩, hlog,
    by rw [hresult]; exact hat, fun value hv => ?_⟩
  · exact hlog ▸ hseed.row row hr
  · refine hseed.found ?_
    have hm : { read with stage } ∈ store.reads.set position { read with stage } :=
      List.mem_of_getElem? hat
    exact not_busy_of_unlocked hfree hm
  · obtain ⟨k, hk⟩ := List.mem_iff_getElem?.mp ho
    have hk : (store.reads.set position { read with stage })[k]? = some other := hk
    rw [List.getElem?_set] at hk
    split_ifs at hk with hp
    · rw [← Option.some.inj hk]
      exact hseed.stage.frame (List.append_nil _).symm fun _ hs => hs
    · -- the other reads are over
      refine (h.stages other (List.mem_of_getElem? hk)).frame (hlog.trans (List.append_nil _).symm)
        fun hb => ?_
      exact absurd (h.kept.exclusive rfl k position other read hk hread hb hbusy) (Ne.symm hp)
  · have hv : (store.reads.set position { read with stage })[position]?
        = some ⟨read.start, .returned value⟩ := hv
    rw [hat] at hv
    have he : stage = .returned value := congrArg ValueRead.stage (Option.some.inj hv)
    have hvalue : ValueKept entry after.log read.start value := by
      have hnext := hadvanced.next
      rw [he] at hnext
      exact hnext
    refine ⟨hvalue.start, hlog ▸ hvalue.cursor, fun cursor hwindow hle => ?_⟩
    have hstored := hadvanced.window rfl hbusy value he cursor hwindow hle
    obtain ⟨snapshot, hs⟩ := Option.isSome_iff_exists.mp hstored
    show after.checkpoints.get? ⟨cursor⟩ = _
    rw [hs, (hadvanced.checkpoints cursor snapshot hs).2, ← hlog]

theorem stepSeed_run {store : ValueStore ε α β} (law : AdvanceLaw entry)
    (hvalid : ∀ log cursor, entry.validate (entry.reduced log cursor) = true)
    (h : SeedRun entry store) (move : SeedMove ε) : SeedRun entry (stepSeed entry store move) := by
  cases move with
  | append event => exact h.append event
  | start => exact h.start
  | shared cursor =>
    unfold stepSeed
    dsimp only
    split
    · exact h
    · rename_i hle
      exact h.shared (not_lt.mp hle)
  | advance position =>
    show SeedRun entry (stepRead entry true true store position)
    cases hread : store.reads[position]? with
    | none =>
      unfold stepRead
      rw [hread]
      exact h
    | some read =>
      cases hbusy : read.stage.busy with
      | true => exact (stepRead_seed law hvalid h hread hbusy).run
      | false =>
        have hsame : store.reads.set position read = store.reads := by
          obtain ⟨hlt, he⟩ := List.getElem?_eq_some_iff.mp hread
          rw [← he, List.set_getElem_self]
        unfold stepRead
        rw [hread]
        dsimp only
        rw [advanceRead_done hbusy]
        dsimp only
        rw [hsame]
        exact h

/-- A history of a scope. -/
def runSeeds (entry : ValueEntry ε α β) (moves : List (SeedMove ε)) : ValueStore ε α β :=
  moves.foldl (stepSeed entry) {}

theorem runSeeds_run (law : AdvanceLaw entry)
    (hvalid : ∀ log cursor, entry.validate (entry.reduced log cursor) = true)
    (moves : List (SeedMove ε)) : SeedRun entry (runSeeds entry moves) := by
  induction moves using List.reverseRecOn with
  | nil => exact ⟨storeKept_empty, nofun, nofun, fun _ h => absurd h List.not_mem_nil⟩
  | append_singleton moves move ih =>
    unfold runSeeds at ih ⊢
    rw [List.foldl_append, List.foldl_cons, List.foldl_nil]
    exact stepSeed_run law hvalid ih move

/-! ## 3. The seed of a cursor -/

/-- A read goes on until it is over. -/
def driveRead (entry : ValueEntry ε α β) (position : Nat) :
    Nat → ValueStore ε α β → ValueStore ε α β
  | 0, store => store
  | fuel + 1, store => driveRead entry position fuel (stepRead entry true true store position)

/-- The calls a read has left, at most. -/
def ReadStage.left : ReadStage α β → Nat
  | .bounded _ => 6
  | .ahead _ => 5
  | .covering _ => 4
  | .recovering _ => 3
  | .folding _ => 2
  | .writing _ => 1
  | .returned _ => 0
  | .failed => 0

/-- `getStreamSeed` once its read has returned, still under the lock: the window is asserted again
for the head the read answers for. -/
def streamSeedOf (entry : ValueEntry ε α β) (store : ValueStore ε α β) (current : ReducerValue β)
    (cursor : Nat) : Except String β :=
  if cursor + repositoryTailWindow < current.cursor then .error "cursor is too old"
  else
    match store.checkpoints.get? ⟨cursor⟩ with
    | none => .error "missing stream-seed checkpoint"
    | some checkpoint =>
      match checkpoint.state.bind (·.acc) with
      | none => .error "corrupt stream-seed checkpoint"
      | some acc =>
        if entry.validate acc then .ok (entry.value acc)
        else .error "corrupt stream-seed checkpoint"

/-- `getStreamSeed`, under the lock and with nothing else under way. -/
def getStreamSeed (entry : ValueEntry ε α β) (store : ValueStore ε α β) (cursor : Nat) :
    Except String β :=
  if cursor + repositoryTailWindow < store.snapshotTail then .error "cursor is too old"
  else
    let position := store.reads.length
    let store := driveRead entry position 6 (startRead true true store)
    match store.reads[position]? with
    | some ⟨_, .returned current⟩ => streamSeedOf entry store current cursor
    | _ => .error "the seed read failed"

omit [DecidableEq α] in
/-- A covered window has the seed of each of its cursors. -/
theorem streamSeedOf_covered {store : ValueStore ε α β} {current : ReducerValue β}
    (hvalid : ∀ log cursor, entry.validate (entry.reduced log cursor) = true)
    (h : Covered entry store current.cursor) {cursor : Nat}
    (hwindow : current.cursor ≤ cursor + repositoryTailWindow) (hle : cursor ≤ current.cursor) :
    streamSeedOf entry store current cursor
      = .ok (entry.value (entry.reduced store.log cursor)) := by
  unfold streamSeedOf
  rw [if_neg (by omega), h cursor hwindow hle]
  unfold ValueEntry.snapshot
  dsimp only [Option.bind_some]
  rw [if_pos (hvalid store.log cursor)]

omit [DecidableEq α] in
theorem left_settleRow (entry : ValueEntry ε α β) (seed : Bool) (boundary : Nat)
    (row : Option (ReducerSnapshot α)) :
    (settleRow entry seed boundary row : ReadStage α β).left ≤ 4 := by
  unfold settleRow
  split
  · cases seed
    · exact (by decide : 2 ≤ 4)
    · exact le_refl 4
  · split
    · exact Nat.zero_le 4
    · exact (by decide : 2 ≤ 4)

/-- Each call of a read is one less to make. -/
theorem left_advanceRead (entry : ValueEntry ε α β) (store : ValueStore ε α β)
    {stage : ReadStage α β} (h : stage.busy = true) :
    (advanceRead entry true true store stage).1.left < stage.left := by
  cases stage with
  | bounded boundary =>
    unfold advanceRead
    dsimp only
    rw [if_neg (by decide)]
    split
    · have hle := left_settleRow entry true boundary none
      exact Nat.lt_of_le_of_lt hle (by decide : 4 < 6)
    · rename_i row _
      split
      · exact (by decide : 5 < 6)
      · have hle := left_settleRow entry true boundary (some row)
        exact Nat.lt_of_le_of_lt hle (by decide : 4 < 6)
  | ahead row =>
    unfold advanceRead
    dsimp only
    rw [if_neg (by decide)]
    have hle := left_settleRow entry true store.snapshotTail (some row)
    exact Nat.lt_of_le_of_lt hle (by decide : 4 < 5)
  | covering fold =>
    unfold advanceRead
    dsimp only
    rw [if_neg (by decide)]
    split
    · exact (by decide : 2 < 4)
    · exact (by decide : 3 < 4)
  | recovering fold =>
    unfold advanceRead
    dsimp only
    rw [if_neg (by decide)]
    split
    · exact (by decide : 2 < 3)
    · split
      · exact (by decide : 0 < 3)
      · exact (by decide : 2 < 3)
  | folding fold =>
    unfold advanceRead finishFold
    dsimp only
    rw [if_neg (by decide)]
    split
    · exact (by decide : 0 < 2)
    · split
      · exact (by decide : 0 < 2)
      · split
        · exact (by decide : 1 < 2)
        · exact (by decide : 0 < 2)
  | writing write =>
    unfold advanceRead
    dsimp only
    rw [if_pos rfl, if_neg (by decide)]
    exact (by decide : 0 < 1)
  | returned value => exact absurd h Bool.false_ne_true
  | failed => exact absurd h Bool.false_ne_true

/-- A read that has returned, with its window covered. -/
def SeedSettled (entry : ValueEntry ε α β) (store : ValueStore ε α β) (position start : Nat) :
    Prop :=
  ∃ value, store.reads[position]? = some ⟨start, .returned value⟩ ∧ start ≤ value.cursor ∧
    value.cursor ≤ store.log.length ∧ Covered entry store value.cursor

theorem stepRead_settled {store : ValueStore ε α β} {position start : Nat}
    (h : SeedSettled entry store position start) :
    stepRead entry true true store position = store := by
  obtain ⟨value, hread, -⟩ := h
  have hsame : store.reads.set position ⟨start, .returned value⟩ = store.reads := by
    obtain ⟨hlt, he⟩ := List.getElem?_eq_some_iff.mp hread
    rw [← he, List.set_getElem_self]
  unfold stepRead
  rw [hread]
  unfold advanceRead
  dsimp only
  rw [hsame]

theorem driveRead_seed (law : AdvanceLaw entry)
    (hvalid : ∀ log cursor, entry.validate (entry.reduced log cursor) = true) {position : Nat} :
    ∀ {fuel : Nat} {store : ValueStore ε α β} {read : ValueRead α β}, SeedRun entry store →
      store.reads[position]? = some read → read.stage.left ≤ fuel →
      (read.stage.busy = true ∨ SeedSettled entry store position read.start) →
      SeedSettled entry (driveRead entry position fuel store) position read.start ∧
        (driveRead entry position fuel store).log = store.log := by
  intro fuel
  induction fuel with
  | zero =>
    intro store read h hread hleft hstate
    rcases hstate with hbusy | hsettled
    · have hlt := left_advanceRead entry store hbusy
      omega
    · exact ⟨hsettled, rfl⟩
  | succ fuel ih =>
    intro store read h hread hleft hstate
    unfold driveRead
    rcases hstate with hbusy | hsettled
    · have hstepped := stepRead_seed law hvalid h hread hbusy
      have hlt := left_advanceRead entry store hbusy
      have hnext := hstepped.next
      have hrun := hstepped.run
      generalize (advanceRead entry true true store read.stage).1 = stage at hnext hlt
      obtain ⟨hsettled, hlog⟩ := ih hrun hnext (by show stage.left ≤ fuel; omega) <| by
        have hstage := hrun.stages _ (List.mem_of_getElem? hnext)
        cases stage with
        | returned value =>
          obtain ⟨hstart, hcursor, hcovered⟩ := hstepped.covered value hnext
          exact Or.inr ⟨value, hnext, hstart, hstepped.log ▸ hcursor, hcovered⟩
        | failed => exact hstage.elim
        | _ => exact Or.inl rfl
      exact ⟨hsettled, hlog.trans hstepped.log⟩
    · have hread' := hread
      rw [stepRead_settled hsettled]
      refine ih h hread ?_ (Or.inr hsettled)
      obtain ⟨value, hv, -⟩ := hsettled
      rw [hread] at hv
      rw [congrArg ValueRead.stage (Option.some.inj hv)]
      exact Nat.zero_le fuel

end

end Autobuild
