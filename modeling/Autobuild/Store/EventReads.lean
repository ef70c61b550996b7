/-
# Paged reads of the logs

A build log is read forward in pages of 256 events, each with one row more to see whether there is
another; an explicitly required interval freezes its upper bound before the first page.  The harvest
events of a journal are read backward from its end.  Logs grow between the pages.

* `getBuildEventPage`, `getHarvestHistoryPage`: one page, as the store finds the log at that moment.
* `readBuildRange`, `readHarvestTail`: the loops.  Both end because a page that does not advance the
  cursor is refused; with the pages of a store none is (`readPages_eq`, `readHarvestPages_eq`).
* `paged_reads`: what they return, whatever is appended in between.
-/
import Autobuild.Lib.JsText
import Autobuild.Processes.RepoViewWindows
import Mathlib.Data.List.DropRight
import Mathlib.Algebra.Group.Nat.Defs

namespace Autobuild.EventReads

open RepoViewWindows
open JsText (MAX_SAFE_INTEGER)

variable {ε : Type}

def BUILD_EVENT_PAGE_SIZE : Nat := 256

theorem pageSize_pos : 0 < BUILD_EVENT_PAGE_SIZE := Nat.succ_pos 255

/-! ## 1. A log and its pages -/

/-- A log as the reads of a store find it one after another: between two reads others append. -/
structure GrowingLog (ε : Type) where
  log : Nat → List (ViewEvent ε)
  ok : ∀ t, LogOk (log t)
  grows : ∀ t, log t <+: log (t + 1)
  /-- The most elements that an array of the language has. -/
  length_lt : ∀ t, (log t).length < 2 ^ 32
  /-- How often a held read that begins at a moment polls again, until its deadline or an abort. -/
  polls : Nat → Nat
  /-- The store has pages, not only the complete reads of a local adapter. -/
  paged : Bool

structure EventPage (ε : Type) where
  events : List (ViewEvent ε)
  cursor : Nat
  hasMore : Bool

/-- `events.slice(start, stop)`. -/
def slice (log : List (ViewEvent ε)) (start stop : Nat) : List (ViewEvent ε) :=
  (log.take stop).drop start

/-- `events.at(-1)?.seq ?? otherwise`. -/
def lastSeq (events : List (ViewEvent ε)) (otherwise : Nat) : Nat :=
  (events.getLast?.map (·.seq)).getD otherwise

def validateEventCursor (cursor : Nat) : Except String Unit :=
  if cursor ≤ MAX_SAFE_INTEGER then .ok ()
  else .error "event cursor must be a safe nonnegative integer"

/-- The moment of the poll that `readEventsWithWait` answers with. -/
def readEventsWithWait (read : Nat → List (ViewEvent ε)) : Nat → Nat → Nat
  | 0, t => t
  | polls + 1, t => if (read t).isEmpty then readEventsWithWait read polls (t + 1) else t

namespace GrowingLog

variable (store : GrowingLog ε)

def pollsOf (waitSeconds : Bool) (t : Nat) : Nat := if waitSeconds then store.polls t else 0

def upTo (through : Option Nat) (t : Nat) : Nat :=
  min (store.log t).length (through.getD MAX_SAFE_INTEGER)

/-- The rows of a page and one more. -/
def selected (since : Nat) (through : Option Nat) (t : Nat) : List (ViewEvent ε) :=
  slice (store.log t) since (min (store.upTo through t) (since + BUILD_EVENT_PAGE_SIZE + 1))

/-- The moment a page is answered at. -/
def answeredAt (since : Nat) (through : Option Nat) (waitSeconds : Bool) (t : Nat) : Nat :=
  readEventsWithWait (fun t => (store.selected since through t).take BUILD_EVENT_PAGE_SIZE)
    (store.pollsOf waitSeconds t) t

/-- A page, and the moment after it. -/
def getBuildEventPage (since : Nat) (through : Option Nat) (waitSeconds : Bool) (t : Nat) :
    Except String (EventPage ε × Nat) := do
  validateEventCursor since
  through.forM validateEventCursor
  let answered := store.answeredAt since through waitSeconds t
  let selected := store.selected since through answered
  let page := selected.take BUILD_EVENT_PAGE_SIZE
  pure (⟨page, lastSeq page since, BUILD_EVENT_PAGE_SIZE < selected.length⟩, answered + 1)

/-- `getEvents`, and the moment after it. -/
def getEvents (since : Nat) (waitSeconds : Bool) (t : Nat) : List (ViewEvent ε) × Nat :=
  let read := fun t => eventsAfter (store.log t) since
  let answered := readEventsWithWait read (store.pollsOf waitSeconds t) t
  (read answered, answered + 1)

/-! ## 2. Reading forward -/

def readBuildPage (since : Nat) (through : Option Nat) (waitSeconds : Bool) (t : Nat) :
    Except String (EventPage ε × Nat) :=
  if store.paged then store.getBuildEventPage since through waitSeconds t
  else
    let answer := store.getEvents since waitSeconds t
    let events := answer.1.filter fun event => event.seq ≤ through.getD MAX_SAFE_INTEGER
    let page := events.take BUILD_EVENT_PAGE_SIZE
    .ok (⟨page, lastSeq page since, BUILD_EVENT_PAGE_SIZE < events.length⟩, answer.2)

/-- The loop of `readBuildRange`, with the events so far. -/
def readPages (through : Nat) (waitSeconds : Bool) (cursor : Nat) (events : List (ViewEvent ε))
    (t : Nat) : Except String (List (ViewEvent ε)) :=
  match store.getBuildEventPage cursor (some through) waitSeconds t with
  | .error message => .error message
  | .ok (page, next) =>
    if page.hasMore = false then .ok (events ++ page.events)
    else if page.cursor ≤ cursor then .error "nonadvancing event page"
    else if page.cursor < through then
      readPages through waitSeconds page.cursor (events ++ page.events) next
    else .ok (events ++ page.events)
termination_by through - cursor

/-- The upper bound: what the caller gave, or the cursor of the build's stream seed. -/
def upperBound (through : Option Nat) (t : Nat) : Nat × Nat :=
  match through with
  | some through => (through, t)
  | none => ((store.log t).length, t + 1)

/-- `readBuildRange` without a wait. -/
def readRangeNow (since : Nat) (through : Option Nat) (t : Nat) :
    Except String (List (ViewEvent ε)) :=
  let bound := store.upperBound through t
  store.readPages bound.1 false since [] bound.2

def readBuildRange (since : Nat) (through : Option Nat) (waitSeconds : Bool) (t : Nat) :
    Except String (List (ViewEvent ε)) :=
  if store.paged = false then .ok (store.getEvents since waitSeconds t).1
  else
    let bound := store.upperBound through t
    if bound.1 ≤ since ∧ waitSeconds then
      -- Nothing is there yet: one held page, without the bound that was just read.
      match store.getBuildEventPage since through waitSeconds bound.2 with
      | .error message => .error message
      | .ok (first, next) =>
        if first.hasMore = false then .ok first.events
        else (store.readRangeNow first.cursor through next).map (first.events ++ ·)
    else store.readPages bound.1 waitSeconds since [] bound.2

end GrowingLog

/-! ## 3. Reading backward -/

section Harvest

variable (type : ε → String)

/-- `event.type.startsWith('harvest.')`. -/
def isHarvest (event : ViewEvent ε) : Bool := (type event.payload).startsWith "harvest."

/-- The harvest events below a cursor, the latest first. -/
def harvestBefore (log : List (ViewEvent ε)) (before : Nat) : List (ViewEvent ε) :=
  (log.filter fun event => event.seq < before && isHarvest type event).reverse

namespace GrowingLog

variable (store : GrowingLog ε)

def getHarvestHistoryPage (before t : Nat) : Except String (EventPage ε) := do
  validateEventCursor before
  let events := harvestBefore type (store.log t) before
  let page := events.take BUILD_EVENT_PAGE_SIZE
  pure ⟨page, lastSeq page before, BUILD_EVENT_PAGE_SIZE < events.length⟩

/-- The loop of `readHarvestTail`, with the events so far, the latest first. -/
def readHarvestPages (count cursor : Nat) (events : List (ViewEvent ε)) (t : Nat) :
    Except String (List (ViewEvent ε)) :=
  if events.length < count then
    match store.getHarvestHistoryPage type cursor t with
    | .error message => .error message
    | .ok page =>
      let events := events ++ page.events.take (count - events.length)
      if page.hasMore = false then .ok events
      else if cursor ≤ page.cursor then .error "nonadvancing harvest page"
      else readHarvestPages count page.cursor events (t + 1)
  else .ok events
termination_by cursor

def readHarvestTail (count : Int) (t : Nat) : Except String (List (ViewEvent ε)) :=
  if count ≤ 0 then .ok []
  else if store.paged = false then
    .ok ((((store.getEvents 0 false t).1).filter (isHarvest type)).rtake count.toNat)
  else (store.readHarvestPages type count.toNat MAX_SAFE_INTEGER [] t).map List.reverse

end GrowingLog

end Harvest

/-! ## 4. What a page has -/

section Slices

variable {log : List (ViewEvent ε)} {a b : Nat}

theorem between_eq_slice (h : LogOk log) : between log a b = slice log a b := by
  have htake : LogOk (log.take b) := fun i event hevent => by
    refine h i event ?_
    rw [List.getElem?_take] at hevent
    split at hevent
    · exact hevent
    · exact absurd hevent nofun
  have hlength : (log.take b).length ≤ b := List.length_take_le _ _
  calc between log a b = between (log.take b) a b := by
        by_cases hb : b ≤ log.length
        · have hsplit : LogOk (log.take b ++ log.drop b) := by rwa [List.take_append_drop]
          have hgrow := between_grow (a := a) (b := b) hsplit
            (.inl (List.length_take_of_le hb).ge)
          rwa [List.take_append_drop] at hgrow
        · rw [List.take_of_length_le (Nat.le_of_not_le hb)]
    _ = eventsAfter (log.take b) a := by
        refine List.filter_congr fun event hevent => ?_
        have hle := (htake.seq_le hevent).trans hlength
        simp [hle]
    _ = slice log a b := eventsAfter_eq_drop htake a

theorem take_slice (n : Nat) : (slice log a b).take n = slice log a (min b (a + n)) := by
  rw [slice, List.take_drop, List.take_take, slice, Nat.min_comm]

theorem length_slice (hb : b ≤ log.length) : (slice log a b).length = b - a := by
  rw [slice, List.length_drop, List.length_take_of_le hb]

theorem lastSeq_slice (h : LogOk log) (hb : b ≤ log.length) :
    lastSeq (slice log a b) a = max a b := by
  by_cases hab : a < b
  · obtain ⟨event, hlast, hseq⟩ := exists_last h hab hb
    rw [← between_eq_slice h, hlast, lastSeq, List.getLast?_concat, Option.map_some,
      Option.getD_some, hseq, Nat.max_eq_right hab.le]
  · have hnil : slice log a b = [] := by
      rw [← List.length_eq_zero_iff, length_slice hb]
      omega
    rw [hnil, lastSeq, Nat.max_eq_left (Nat.le_of_not_lt hab)]
    rfl

end Slices

theorem le_readEventsWithWait (read : Nat → List (ViewEvent ε)) :
    ∀ polls t, t ≤ readEventsWithWait read polls t
  | 0, t => Nat.le_refl t
  | polls + 1, t => by
    unfold readEventsWithWait
    split
    · exact (Nat.le_succ t).trans (le_readEventsWithWait read polls (t + 1))
    · exact Nat.le_refl t

theorem validateEventCursor_of_le {cursor : Nat} (h : cursor ≤ MAX_SAFE_INTEGER) :
    validateEventCursor cursor = .ok () := if_pos h

namespace GrowingLog

variable {store : GrowingLog ε} {t t' since : Nat}

theorem log_prefix (store : GrowingLog ε) (h : t ≤ t') : store.log t <+: store.log t' := by
  induction h with
  | refl => exact List.prefix_refl _
  | step _ ih => exact ih.trans (store.grows _)

theorem between_later (h : t ≤ t') {a b : Nat} (hb : b ≤ (store.log t).length) :
    between (store.log t') a b = between (store.log t) a b := by
  obtain ⟨later, hlater⟩ := store.log_prefix h
  have hok := store.ok t'
  rw [← hlater] at hok ⊢
  exact between_grow hok (.inl hb)

theorem length_le_safe (store : GrowingLog ε) (t : Nat) :
    (store.log t).length < MAX_SAFE_INTEGER := by
  have hlt := store.length_lt t
  unfold MAX_SAFE_INTEGER
  omega

theorem le_answeredAt (store : GrowingLog ε) (since : Nat) (through : Option Nat)
    (waitSeconds : Bool) (t : Nat) : t ≤ store.answeredAt since through waitSeconds t :=
  le_readEventsWithWait _ _ t

theorem upTo_le (through : Option Nat) : store.upTo through t ≤ (store.log t).length :=
  Nat.min_le_left _ _

theorem upTo_none : store.upTo none t = (store.log t).length :=
  Nat.min_eq_left (store.length_le_safe t).le

theorem upTo_some {through : Nat} (h : through ≤ (store.log t).length) :
    store.upTo (some through) t = through :=
  Nat.min_eq_right h

/-- The end of a page. -/
def pageEnd (store : GrowingLog ε) (since : Nat) (through : Option Nat) (t : Nat) : Nat :=
  min (store.upTo through t) (since + BUILD_EVENT_PAGE_SIZE)

theorem pageEnd_le (through : Option Nat) :
    store.pageEnd since through t ≤ (store.log t).length :=
  (Nat.min_le_left _ _).trans (upTo_le through)

theorem take_selected (through : Option Nat) :
    (store.selected since through t).take BUILD_EVENT_PAGE_SIZE =
      between (store.log t) since (store.pageEnd since through t) := by
  rw [selected, take_slice, Nat.min_assoc, Nat.min_eq_right (Nat.le_succ _),
    between_eq_slice (store.ok t)]
  rfl

theorem lt_length_selected (through : Option Nat) :
    BUILD_EVENT_PAGE_SIZE < (store.selected since through t).length ↔
      since + BUILD_EVENT_PAGE_SIZE < store.upTo through t := by
  rw [selected, length_slice ((Nat.min_le_left _ _).trans (upTo_le through))]
  omega

/-- **A page has the events after its cursor, as many as fit, and knows whether there are more.** -/
theorem getBuildEventPage_eq (hsince : since ≤ MAX_SAFE_INTEGER) {through : Option Nat}
    (hthrough : ∀ bound ∈ through, bound ≤ MAX_SAFE_INTEGER) {waitSeconds : Bool} {answered : Nat}
    (hanswered : store.answeredAt since through waitSeconds t = answered) :
    store.getBuildEventPage since through waitSeconds t =
      .ok (⟨between (store.log answered) since (store.pageEnd since through answered),
        max since (store.pageEnd since through answered),
        decide (since + BUILD_EVENT_PAGE_SIZE < store.upTo through answered)⟩, answered + 1) := by
  have hvalid : through.forM validateEventCursor = .ok () := by
    cases through with
    | none => rfl
    | some bound => exact validateEventCursor_of_le (hthrough bound rfl)
  unfold getBuildEventPage
  rw [validateEventCursor_of_le hsince, hvalid, hanswered]
  dsimp only
  simp only [take_selected, lt_length_selected]
  rw [between_eq_slice (store.ok answered), lastSeq_slice (store.ok answered) (pageEnd_le through)]
  rfl

/-- Without pages the same page is cut from a complete read. -/
theorem readBuildPage_eq (hsince : since ≤ MAX_SAFE_INTEGER) {through : Option Nat}
    (hthrough : ∀ bound ∈ through, bound ≤ MAX_SAFE_INTEGER) :
    store.readBuildPage since through false t = store.getBuildEventPage since through false t := by
  have hevents : (eventsAfter (store.log t) since).filter
      (fun event => event.seq ≤ through.getD MAX_SAFE_INTEGER) =
      slice (store.log t) since (store.upTo through t) := by
    rw [← between_eq_slice (store.ok t), eventsAfter, List.filter_filter]
    refine List.filter_congr fun event hevent => ?_
    have hle := (store.ok t).seq_le hevent
    rw [← Bool.decide_and, decide_eq_decide, upTo]
    omega
  have hanswered : store.answeredAt since through false t = t := rfl
  have hpage := store.getBuildEventPage_eq hsince hthrough hanswered
  rw [hpage, readBuildPage]
  split
  · exact hpage
  · have hread : store.getEvents since false t = (eventsAfter (store.log t) since, t + 1) := rfl
    rw [hread]
    dsimp only
    rw [hevents, take_slice, length_slice (upTo_le through), between_eq_slice (store.ok t),
      ← pageEnd, lastSeq_slice (store.ok t) (pageEnd_le through)]
    have hmore : BUILD_EVENT_PAGE_SIZE < store.upTo through t - since ↔
        since + BUILD_EVENT_PAGE_SIZE < store.upTo through t := by omega
    simp only [hmore]

/-- Every eighth event is another one than a harvest event. -/
def harvestLog (length : Nat) : List (ViewEvent String) :=
  (List.range length).map fun i =>
    ⟨i + 1, if i % 8 = 0 then "build.created" else "harvest.observed"⟩

theorem length_harvestLog (length : Nat) : (harvestLog length).length = length := by
  rw [harvestLog, List.length_map, List.length_range]

theorem logOk_harvestLog (length : Nat) : LogOk (harvestLog length) := by
  intro i event hevent
  rw [harvestLog, List.getElem?_map, Option.map_eq_some_iff] at hevent
  obtain ⟨j, hj, rfl⟩ := hevent
  rw [(List.getElem?_eq_some_iff.mp hj).2.symm, List.getElem_range]

/-- Four hundred events, one more at each of the next hundred moments; a held read polls once. -/
def growingStore (paged : Bool) : GrowingLog String where
  log t := harvestLog (400 + min t 100)
  ok _ := logOk_harvestLog _
  grows t := by
    have hmore : 400 + min t 100 ≤ 400 + min (t + 1) 100 := by omega
    have hrange : List.range (400 + min t 100) <+: List.range (400 + min (t + 1) 100) := by
      rw [List.prefix_iff_eq_take, List.length_range, List.take_range, Nat.min_eq_left hmore]
    exact hrange.map _
  length_lt t := by
    rw [length_harvestLog]
    omega
  polls _ := 1
  paged := paged

theorem length_growingStore (paged : Bool) (t : Nat) :
    ((growingStore paged).log t).length = 400 + min t 100 := length_harvestLog _

/-- A page cut from the complete read of a log that has grown: there is more after it. -/
theorem readBuildPage_eq_cut :
    let store := growingStore false
    store.readBuildPage 10 (some 402) false 3 = store.getBuildEventPage 10 (some 402) false 3 ∧
      store.readBuildPage 10 (some 402) false 3 =
        .ok (⟨between (harvestLog 403) 10 266, 266, true⟩, 4) := by
  have hthrough : ∀ bound ∈ some 402, bound ≤ MAX_SAFE_INTEGER := fun _ h => by
    cases h
    decide
  have hsame := @readBuildPage_eq _ (growingStore false) 3 10 (by decide) _ hthrough
  refine ⟨hsame, hsame.trans ?_⟩
  have hupTo : (growingStore false).upTo (some 402) 3 = 402 :=
    upTo_some (by rw [length_growingStore]; decide)
  have hanswered : (growingStore false).answeredAt 10 (some 402) false 3 = 3 := rfl
  rw [getBuildEventPage_eq (by decide) hthrough hanswered, pageEnd, hupTo]
  rfl

/-! ## 5. The loops -/

/-- **The pages up to a bound within the log are the events up to it.** -/
theorem readPages_eq {through t : Nat} {waitSeconds : Bool} {cursor : Nat}
    (events : List (ViewEvent ε)) (hcursor : cursor ≤ MAX_SAFE_INTEGER)
    (hthrough : through ≤ (store.log t).length) :
    store.readPages through waitSeconds cursor events t =
      .ok (events ++ between (store.log t) cursor through) := by
  have hsafe := hthrough.trans (store.length_le_safe t).le
  have hle := store.le_answeredAt cursor (some through) waitSeconds t
  generalize hanswered : store.answeredAt cursor (some through) waitSeconds t = answered at hle
  have hpage := store.getBuildEventPage_eq hcursor
    (fun bound hbound => Option.some.inj hbound ▸ hsafe) hanswered
  have hgrown := hthrough.trans (store.log_prefix hle).length_le
  rw [pageEnd, upTo_some hgrown] at hpage
  unfold readPages
  rw [hpage]
  dsimp only
  by_cases hmore : cursor + BUILD_EVENT_PAGE_SIZE < through
  · have hnext : max cursor (cursor + BUILD_EVENT_PAGE_SIZE) = cursor + BUILD_EVENT_PAGE_SIZE :=
      Nat.max_eq_right (Nat.le_add_right _ _)
    have hadvances : ¬cursor + BUILD_EVENT_PAGE_SIZE ≤ cursor := by
      unfold BUILD_EVENT_PAGE_SIZE
      omega
    have hlater : through ≤ (store.log (answered + 1)).length :=
      hgrown.trans (store.grows answered).length_le
    rw [decide_eq_true hmore, Nat.min_eq_right hmore.le, hnext, if_neg Bool.noConfusion,
      if_neg hadvances, if_pos hmore, readPages_eq _ (hmore.le.trans hsafe) hlater,
      between_later (hle.trans (Nat.le_succ _)) hthrough,
      between_later hle (hmore.le.trans hthrough), List.append_assoc,
      between_append (store.ok t) (Nat.le_add_right _ _) hmore.le]
  · rw [decide_eq_false hmore, if_pos rfl, Nat.min_eq_left (Nat.le_of_not_lt hmore),
      between_later hle hthrough]
termination_by through - cursor
decreasing_by
  unfold BUILD_EVENT_PAGE_SIZE at *
  omega

/-- A range without a bound has the events up to where the log ends when its bound is read. -/
theorem readRangeNow_none (hsince : since ≤ MAX_SAFE_INTEGER) :
    store.readRangeNow since none t =
      .ok (between (store.log t) since (store.log t).length) := by
  rw [readRangeNow, upperBound]
  dsimp only
  rw [readPages_eq [] hsince (store.log_prefix (Nat.le_succ t)).length_le, List.nil_append,
    between_later (Nat.le_succ t) (Nat.le_refl _)]

theorem readBuildRange_through (hpaged : store.paged = true) (hsince : since ≤ MAX_SAFE_INTEGER)
    {through : Nat} (hthrough : through ≤ (store.log t).length) (waitSeconds : Bool) :
    store.readBuildRange since (some through) waitSeconds t =
      .ok (between (store.log t) since through) := by
  rw [readBuildRange, hpaged, if_neg Bool.noConfusion, upperBound]
  dsimp only
  split
  next hheld =>
    have hsafe := hthrough.trans (store.length_le_safe t).le
    have hle := store.le_answeredAt since (some through) waitSeconds t
    generalize hanswered : store.answeredAt since (some through) waitSeconds t = answered at hle
    have hpage := store.getBuildEventPage_eq hsince
      (fun bound hbound => Option.some.inj hbound ▸ hsafe) hanswered
    have hgrown := hthrough.trans (store.log_prefix hle).length_le
    have hnone : ¬since + BUILD_EVENT_PAGE_SIZE < through := by omega
    rw [pageEnd, upTo_some hgrown, decide_eq_false hnone,
      between_of_le ((Nat.min_le_left _ _).trans hheld.1)] at hpage
    rw [hpage, between_of_le hheld.1]
    rfl
  next => rw [readPages_eq [] hsince hthrough, List.nil_append]

theorem readBuildRange_none (hsince : since ≤ MAX_SAFE_INTEGER) (waitSeconds : Bool) :
    ∃ t', t ≤ t' ∧ store.readBuildRange since none waitSeconds t =
      .ok (between (store.log t') since (store.log t').length) := by
  rw [readBuildRange, upperBound]
  dsimp only
  split
  next =>
    refine ⟨_, le_readEventsWithWait (fun t => eventsAfter (store.log t) since)
      (store.pollsOf waitSeconds t) t, ?_⟩
    rw [← eventsAfter_eq_between (store.ok _)]
    rfl
  next =>
    split
    next hheld =>
      have hle := store.le_answeredAt since none waitSeconds (t + 1)
      generalize hanswered : store.answeredAt since none waitSeconds (t + 1) = answered at hle
      have hpage := store.getBuildEventPage_eq hsince
        (fun _ h => absurd h (Option.not_mem_none _)) hanswered
      rw [pageEnd, upTo_none] at hpage
      rw [hpage]
      dsimp only
      by_cases hmore : since + BUILD_EVENT_PAGE_SIZE < (store.log answered).length
      · have hnext : max since (since + BUILD_EVENT_PAGE_SIZE) = since + BUILD_EVENT_PAGE_SIZE :=
          Nat.max_eq_right (Nat.le_add_right _ _)
        have hlonger := (store.grows answered).length_le
        refine ⟨answered + 1, by omega, ?_⟩
        rw [decide_eq_true hmore, Nat.min_eq_right hmore.le, hnext, if_neg Bool.noConfusion,
          readRangeNow_none (hmore.le.trans (store.length_le_safe answered).le),
          ← between_later (Nat.le_succ answered) hmore.le]
        exact congrArg Except.ok (between_append (store.ok _) (Nat.le_add_right _ _)
          (hmore.le.trans hlonger))
      · refine ⟨answered, by omega, ?_⟩
        rw [decide_eq_false hmore, if_pos rfl, Nat.min_eq_left (Nat.le_of_not_lt hmore)]
    next =>
      refine ⟨t, Nat.le_refl t, ?_⟩
      rw [readPages_eq [] hsince (store.log_prefix (Nat.le_succ t)).length_le, List.nil_append,
        between_later (Nat.le_succ t) (Nat.le_refl _)]

end GrowingLog

section Harvest

variable {type : ε → String} {log : List (ViewEvent ε)}

theorem LogOk.pairwise (h : LogOk log) : log.Pairwise fun a b => a.seq < b.seq := by
  rw [List.pairwise_iff_getElem]
  intro i j hi hj hij
  have hfirst := h i log[i] (List.getElem?_eq_getElem hi)
  have hsecond := h j log[j] (List.getElem?_eq_getElem hj)
  omega

theorem pairwise_harvestBefore (h : LogOk log) (before : Nat) :
    (harvestBefore type log before).Pairwise fun a b => b.seq < a.seq := by
  rw [harvestBefore, List.pairwise_reverse]
  exact (LogOk.pairwise h).sublist List.filter_sublist

theorem mem_harvestBefore {before : Nat} {event : ViewEvent ε} :
    event ∈ harvestBefore type log before ↔
      event ∈ log ∧ event.seq < before ∧ isHarvest type event = true := by
  rw [harvestBefore, List.mem_reverse, List.mem_filter, Bool.and_eq_true, decide_eq_true_iff]

theorem filter_harvestBefore {before last : Nat} (h : last ≤ before) :
    (harvestBefore type log before).filter (fun event => event.seq < last) =
      harvestBefore type log last := by
  rw [harvestBefore, List.filter_reverse, List.filter_filter, harvestBefore]
  congr 1
  refine List.filter_congr fun event _ => ?_
  rw [← Bool.and_assoc]
  congr 1
  rw [← Bool.decide_and, decide_eq_decide]
  omega

/-- What is below the last row of a page is what the page left. -/
theorem harvestBefore_lastSeq (h : LogOk log) {before size : Nat} (otherwise : Nat)
    (hpos : 0 < size)
    (hsize : size < (harvestBefore type log before).length) :
    let last := lastSeq ((harvestBefore type log before).take size) otherwise
    last < before ∧ last ≤ log.length ∧
      harvestBefore type log last = (harvestBefore type log before).drop size := by
  obtain ⟨n, rfl⟩ : ∃ n, size = n + 1 := ⟨size - 1, by omega⟩
  have hn := (Nat.lt_succ_self n).trans hsize
  have hlast : lastSeq ((harvestBefore type log before).take (n + 1)) otherwise =
      (harvestBefore type log before)[n].seq := by
    rw [List.take_succ_eq_append_getElem hn, lastSeq, List.getLast?_concat]
    rfl
  obtain ⟨hin, hbefore, -⟩ := mem_harvestBefore.mp (List.getElem_mem hn)
  rw [hlast]
  refine ⟨hbefore, h.seq_le hin, ?_⟩
  rw [← filter_harvestBefore hbefore.le]
  have hpairwise : (harvestBefore type log before).Pairwise fun a b => b.seq < a.seq :=
    pairwise_harvestBefore h before
  generalize harvestBefore type log before = events at hn hpairwise
  have hsplit := List.take_append_drop (n + 1) events
  rw [← hsplit, List.pairwise_append] at hpairwise
  obtain ⟨htake, -, hcross⟩ := hpairwise
  have hmem : events[n] ∈ events.take (n + 1) := by
    rw [List.take_succ_eq_append_getElem hn]
    exact List.mem_append_right _ List.mem_cons_self
  have hrest : (events.drop (n + 1)).filter (fun event => event.seq < events[n].seq) =
      events.drop (n + 1) :=
    List.filter_eq_self.mpr fun event hevent =>
      decide_eq_true (hcross events[n] hmem event hevent)
  have hpage : (events.take (n + 1)).filter (fun event => event.seq < events[n].seq) = [] := by
    rw [List.take_succ_eq_append_getElem hn, List.pairwise_append] at htake
    rw [List.take_succ_eq_append_getElem hn, List.filter_append, List.append_eq_nil_iff]
    constructor
    · refine List.filter_eq_nil_iff.mpr fun event hevent hlt => ?_
      have hgt := htake.2.2 event hevent events[n] List.mem_cons_self
      exact absurd (of_decide_eq_true hlt) (Nat.not_lt.mpr hgt.le)
    · simp
  calc events.filter (fun event => event.seq < events[n].seq)
      = (events.take (n + 1) ++ events.drop (n + 1)).filter
          (fun event => event.seq < events[n].seq) := by rw [hsplit]
    _ = events.drop (n + 1) := by rw [List.filter_append, hpage, hrest, List.nil_append]

namespace GrowingLog

variable {journal : GrowingLog ε} {t t' : Nat}

/-- What was appended since is above everything a cursor within the log asks for. -/
theorem harvestBefore_later (h : t ≤ t') {before : Nat}
    (hbefore : before ≤ (journal.log t).length) :
    harvestBefore type (journal.log t') before = harvestBefore type (journal.log t) before := by
  obtain ⟨later, hlater⟩ := journal.log_prefix h
  have hok := journal.ok t'
  rw [← hlater] at hok ⊢
  rw [harvestBefore, List.filter_append, harvestBefore]
  have hnone : later.filter (fun event => event.seq < before && isHarvest type event) = [] := by
    refine List.filter_eq_nil_iff.mpr fun event hevent hin => ?_
    obtain ⟨i, hi⟩ := List.mem_iff_getElem?.mp hevent
    have hseq := hok ((journal.log t).length + i) event (by
      rw [List.getElem?_append_right (Nat.le_add_right _ _), Nat.add_sub_cancel_left]
      exact hi)
    have hlt := of_decide_eq_true (Bool.and_eq_true_iff.mp hin).1
    omega
  rw [hnone, List.append_nil]

/-- **The pages backward are the latest events of the journal as the first of them finds it.** -/
theorem readHarvestPages_eq {count cursor t : Nat} (events : List (ViewEvent ε))
    (hcursor : cursor ≤ MAX_SAFE_INTEGER) :
    journal.readHarvestPages type count cursor events t =
      .ok (events ++
        (harvestBefore type (journal.log t) cursor).take (count - events.length)) := by
  unfold readHarvestPages
  split
  next hcount =>
    have hpage : journal.getHarvestHistoryPage type cursor t =
        .ok ⟨(harvestBefore type (journal.log t) cursor).take BUILD_EVENT_PAGE_SIZE,
          lastSeq ((harvestBefore type (journal.log t) cursor).take BUILD_EVENT_PAGE_SIZE) cursor,
          decide (BUILD_EVENT_PAGE_SIZE <
            (harvestBefore type (journal.log t) cursor).length)⟩ := by
      rw [getHarvestHistoryPage, validateEventCursor_of_le hcursor]
      rfl
    rw [hpage]
    dsimp only
    by_cases hmore : BUILD_EVENT_PAGE_SIZE < (harvestBefore type (journal.log t) cursor).length
    · obtain ⟨hadvances, hwithin, hrest⟩ := harvestBefore_lastSeq (journal.ok t) cursor
        pageSize_pos hmore
      have hlater : harvestBefore type (journal.log (t + 1)) _ = _ :=
        harvestBefore_later (Nat.le_succ t) hwithin
      rw [hrest] at hlater
      rw [decide_eq_true hmore, if_neg Bool.noConfusion, if_neg (Nat.not_le.mpr hadvances),
        readHarvestPages_eq _ (hadvances.le.trans hcursor), hlater]
      generalize harvestBefore type (journal.log t) cursor = rest at hmore
      have hpage := List.length_take_of_le hmore.le
      have hleft : count - (events ++ (rest.take BUILD_EVENT_PAGE_SIZE).take
          (count - events.length)).length =
          count - events.length - (rest.take BUILD_EVENT_PAGE_SIZE).length := by
        rw [List.length_append, List.length_take, hpage]
        omega
      rw [hleft, List.append_assoc, ← List.take_append, List.take_append_drop]
    · rw [decide_eq_false hmore, if_pos rfl,
        List.take_of_length_le (Nat.le_of_not_lt hmore)]
  next hcount =>
    rw [Nat.sub_eq_zero_of_le (Nat.le_of_not_lt hcount), List.take_zero, List.append_nil]
termination_by cursor

theorem readHarvestTail_eq (journal : GrowingLog ε) (count : Int) :
    journal.readHarvestTail type count t =
      .ok (((journal.log t).filter (isHarvest type)).rtake count.toNat) := by
  unfold readHarvestTail
  split
  next hcount =>
    rw [Int.toNat_of_nonpos hcount, List.rtake_zero]
  next hcount =>
    split
    next =>
      have hread : journal.getEvents 0 false t = (eventsAfter (journal.log t) 0, t + 1) := rfl
      rw [hread, eventsAfter_eq_drop (journal.ok t), List.drop_zero]
    next =>
      have hall : harvestBefore type (journal.log t) MAX_SAFE_INTEGER =
          ((journal.log t).filter (isHarvest type)).reverse := by
        rw [harvestBefore]
        congr 1
        refine List.filter_congr fun event hevent => ?_
        have hlt := ((journal.ok t).seq_le hevent).trans_lt (journal.length_le_safe t)
        rw [decide_eq_true hlt, Bool.true_and]
      rw [readHarvestPages_eq [] (Nat.le_refl _), hall, List.rtake_eq_reverse_take_reverse]
      rfl

end GrowingLog

/-! ## 6. Nothing is lost -/

/-- **Paged reads lose nothing.**  Every loop ends with what it is for, whatever is appended between
its pages: all events up to a bound within the log; without a bound all up to where the log ended at
some later moment; the last harvest events of the journal as the first page finds it. -/
theorem paged_reads (build journal : GrowingLog ε) (hpaged : build.paged = true) {since : Nat}
    (hsince : since ≤ MAX_SAFE_INTEGER) :
    (∀ through ≤ (build.log 0).length, ∀ waitSeconds,
      build.readBuildRange since (some through) waitSeconds 0 =
        .ok (between (build.log 0) since through)) ∧
    (∀ waitSeconds, ∃ t, let log := build.log t
      build.readBuildRange since none waitSeconds 0 = .ok (between log since log.length) ∧
        ∀ event ∈ build.log 0, since < event.seq → event ∈ between log since log.length) ∧
    ∀ count : Int, journal.readHarvestTail type count 0 =
      .ok (((journal.log 0).filter (isHarvest type)).rtake count.toNat) := by
  refine ⟨fun through hthrough waitSeconds =>
      GrowingLog.readBuildRange_through hpaged hsince hthrough waitSeconds,
    fun waitSeconds => ?_, journal.readHarvestTail_eq⟩
  obtain ⟨t, hle, hread⟩ := build.readBuildRange_none (t := 0) hsince waitSeconds
  refine ⟨t, hread, fun event hevent hlt => ?_⟩
  have hin := (build.log_prefix hle).subset hevent
  exact mem_between.mpr ⟨hin, hlt, (build.ok t).seq_le hin⟩

open GrowingLog in
/-- A log of four hundred events that grows at every page: two pages up to a bound, a held read
without one, and two pages of harvest events. -/
theorem paged_reads_growing :
    let store := growingStore true
    store.readBuildRange 10 (some 390) false 0 = .ok (between (harvestLog 400) 10 390) ∧
      (∃ t, store.readBuildRange 10 none true 0 =
          .ok (between (store.log t) 10 (store.log t).length) ∧
        ∀ event ∈ harvestLog 400, 10 < event.seq →
          event ∈ between (store.log t) 10 (store.log t).length) ∧
      store.readHarvestTail id 300 0 =
        .ok (((harvestLog 400).filter (isHarvest id)).rtake 300) := by
  obtain ⟨hbound, hopen, htail⟩ :=
    @paged_reads String id (growingStore true) (growingStore true) rfl 10 (by decide)
  exact ⟨hbound 390 (by rw [length_growingStore]; omega) false, hopen true, htail 300⟩

end Harvest

end Autobuild.EventReads
