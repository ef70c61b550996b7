/-
# The publication ledger

What is published of a build is asked of a ledger that keeps the events the questions read and
collapses every run of others to a barrier.  The barriers cannot be dropped: the scan for the
workspace of a request stops at the first event, of any type, that is later than the request.  An
event of a type that the reader's catalog does not know is dropped before the fold and stops
nothing.

* `compact`, `foldLedger`, `viewOf`: the ledger and the questions asked of it.
* `directView`: the questions asked of the events, each by a scan of its own.
* `publicationState_lossless`: the answers are the same, however the events were split.
-/
import Mathlib.Data.List.Basic
import Mathlib.Data.List.Induction
import Mathlib.Order.Lattice
import Mathlib.Order.Nat

namespace Autobuild

/-! ## 1. Events -/

/-- The payload of `publication.requested`, as its completion is compared with it. -/
inductive PublicationPayload where
  | restack (sha rewriteId : String)
  | implement (sha base : String) (round : Nat)
  | reconcile (sha : String) (rewriteId : Option String)
  | finalize (sha : String)
  | finalizeStep (sha step : String)
  deriving DecidableEq

structure PublicationRequest where
  seq : Nat
  payload : PublicationPayload
  deriving DecidableEq

/-- `reconcile.completed`: historical merge completions keep their commit. -/
inductive ReconcileResult where
  | merge (mergeCommit : String)
  | rewrite (headSha rewriteId : String)
  deriving DecidableEq

def reconcileHead : ReconcileResult → String
  | .merge mergeCommit => mergeCommit
  | .rewrite headSha _ => headSha

def ReconcileResult.rewriteId? : ReconcileResult → Option String
  | .merge _ => none
  | .rewrite _ rewriteId => some rewriteId

/-- A build event, with what the ledger reads of it. -/
inductive PublicationFact where
  | requested (payload : PublicationPayload)
  | restackCompleted (id headSha : String)
  | candidateRetired (request : Nat)
  | restackContended (request : Nat)
  | reconcileContended (request : Nat)
  | lost (request : Nat)
  | provisioned (ref : String)
  | released (ref : Option String)
  | implementCompleted (round : Nat) (base head : String)
  | reconcileCompleted (result : ReconcileResult)
  | finalizeCompleted (headSha : String)
  | stepCompleted (step : String) (ok : Bool) (headSha : Option String)
  /-- Any other type. -/
  | other (type : String)
  deriving DecidableEq

structure PublicationLogEvent where
  seq : Nat
  fact : PublicationFact
  deriving DecidableEq

/-! ## 2. The ledger -/

inductive LedgerEntry where
  | request (payload : PublicationPayload)
  | lost (request : Nat)
  | cancelled (request : Nat)
  | provisioned (ref : String)
  | released (ref : Option String)
  | implement (round : Nat) (base head : String)
  | reconcile (mergeCommit : String) (rewriteId : Option String)
  | restack (id head : String)
  | finalize (headSha : String)
  | step (step : String) (ok : Bool) (headSha : Option String)
  /-- A run of events of other types: `seq` is the highest of theirs. -/
  | barrier
  deriving DecidableEq

structure LedgerItem where
  seq : Nat
  entry : LedgerEntry
  deriving DecidableEq

def compact (event : PublicationLogEvent) : Option LedgerItem :=
  match event.fact with
  | .requested payload => some ⟨event.seq, .request payload⟩
  | .restackCompleted id headSha => some ⟨event.seq, .restack id headSha⟩
  | .candidateRetired request => some ⟨event.seq, .cancelled request⟩
  | .restackContended request => some ⟨event.seq, .cancelled request⟩
  | .reconcileContended request => some ⟨event.seq, .cancelled request⟩
  | .lost request => some ⟨event.seq, .lost request⟩
  | .provisioned ref => some ⟨event.seq, .provisioned ref⟩
  | .released ref => some ⟨event.seq, .released ref⟩
  | .implementCompleted round base head => some ⟨event.seq, .implement round base head⟩
  | .reconcileCompleted result =>
    some ⟨event.seq, .reconcile (reconcileHead result) result.rewriteId?⟩
  | .finalizeCompleted headSha => some ⟨event.seq, .finalize headSha⟩
  | .stepCompleted step ok headSha => some ⟨event.seq, .step step ok headSha⟩
  | .other _ => none

def foldLedgerEvent (ledger : List LedgerItem) (event : PublicationLogEvent) : List LedgerItem :=
  match compact event with
  | some item => ledger ++ [item]
  | none =>
    match ledger.getLast? with
    | some ⟨seq, .barrier⟩ => ledger.dropLast ++ [⟨max seq event.seq, .barrier⟩]
    | _ => ledger ++ [⟨event.seq, .barrier⟩]

def foldLedger (ledger : List LedgerItem) (events : List PublicationLogEvent) : List LedgerItem :=
  events.foldl foldLedgerEvent ledger

/-- `filterKnownEvents`: the types that the ledger reads are in every catalog. -/
def PublicationLogEvent.filterKnownEvents (known : String → Bool)
    (events : List PublicationLogEvent) :
    List PublicationLogEvent :=
  events.filter fun event =>
    match event.fact with
    | .other type => known type
    | _ => true

/-- `publicationStateReducer.advance`: what the catalog knows is folded. -/
def advanceLedger (known : String → Bool) (ledger : List LedgerItem)
    (events : List PublicationLogEvent) : List LedgerItem :=
  foldLedger ledger (PublicationLogEvent.filterKnownEvents known events)

def LedgerItem.completes (item : LedgerItem) (request : PublicationRequest) : Bool :=
  decide (item.seq > request.seq) &&
    match request.payload, item.entry with
    | .restack sha rewriteId, .restack id head => decide (id = rewriteId ∧ head = sha)
    | .implement sha base round, .implement round' base' head =>
      decide (round' = round ∧ base' = base ∧ head = sha)
    | .reconcile sha rewrite, .reconcile mergeCommit rewriteId =>
      decide (mergeCommit = sha ∧ (rewrite = none ∨ rewriteId = rewrite))
    | .finalize sha, .finalize headSha => decide (headSha = sha)
    | .finalizeStep sha step, .step step' ok headSha =>
      decide (step' = step ∧ (ok = false ∨ headSha = some sha))
    | _, _ => false

def LedgerItem.cancels (item : LedgerItem) (request : Nat) : Bool :=
  decide (item.entry = .cancelled request)

def LedgerItem.loses (item : LedgerItem) (request : Nat) : Bool :=
  decide (item.entry = .lost request)

/-- A release after the request of the workspace it was made in. -/
def LedgerItem.releases (item : LedgerItem) (request : Nat) (workspaceRef : Option String) : Bool :=
  match item.entry with
  | .released ref =>
    decide (item.seq > request ∧ (ref = none ∨ workspaceRef = none ∨ ref = workspaceRef))
  | _ => false

def LedgerEntry.workspaceRef (entry : LedgerEntry) (workspaceRef : Option String) :
    Option String :=
  match entry with
  | .provisioned ref => some ref
  | .released _ => none
  | _ => workspaceRef

/-- `for (const item of ledger) { if (item.seq > request.seq) break .. }` -/
def scanWorkspace (request : Nat) : Option String → List LedgerItem → Option String
  | workspaceRef, [] => workspaceRef
  | workspaceRef, item :: rest =>
    if item.seq > request then workspaceRef
    else scanWorkspace request (item.entry.workspaceRef workspaceRef) rest

def LedgerItem.request? (item : LedgerItem) : Option PublicationRequest :=
  match item.entry with
  | .request payload => some ⟨item.seq, payload⟩
  | _ => none

/-! ## 3. The questions -/

structure PublicationView where
  requestCompleted : PublicationRequest → Bool
  requestSettled : PublicationRequest → Bool
  latestUncompletedRequest : Option PublicationRequest
  lostRecorded : PublicationRequest → Bool
  abandonedPending : Bool
  pending : Bool

/-- What the ledger answers, with `latestUncompletedRequest`, `abandonedPending` and `pending` over
its requests in order. -/
def viewOf (ledger : List LedgerItem) : PublicationView :=
  let requestCompleted := fun request : PublicationRequest => ledger.any (·.completes request)
  let requestCancelled := fun request : PublicationRequest => ledger.any (·.cancels request.seq)
  let requestSettled := fun request : PublicationRequest =>
    requestCompleted request || requestCancelled request ||
      ledger.any (·.releases request.seq (scanWorkspace request.seq none ledger))
  let requests := ledger.filterMap (·.request?)
  let latest := requests.reverse.find? fun request =>
    !requestCompleted request && !requestCancelled request
  { requestCompleted, requestSettled
    lostRecorded := fun request => ledger.any (·.loses request.seq)
    latestUncompletedRequest := latest
    abandonedPending := (latest.map requestSettled).getD false
    pending := requests.any fun request => !requestSettled request }

/-! ## 4. The questions asked of the events -/

namespace PublicationLogEvent

def completes (event : PublicationLogEvent) (request : PublicationRequest) : Bool :=
  decide (event.seq > request.seq) &&
    match request.payload, event.fact with
    | .restack sha rewriteId, .restackCompleted id headSha =>
      decide (id = rewriteId ∧ headSha = sha)
    | .implement sha base round, .implementCompleted round' base' head =>
      decide (round' = round ∧ base' = base ∧ head = sha)
    | .reconcile sha rewrite, .reconcileCompleted result =>
      decide (reconcileHead result = sha ∧ (rewrite = none ∨ result.rewriteId? = rewrite))
    | .finalize sha, .finalizeCompleted headSha => decide (headSha = sha)
    | .finalizeStep sha step, .stepCompleted step' ok headSha =>
      decide (step' = step ∧ (ok = false ∨ headSha = some sha))
    | _, _ => false

def cancels (event : PublicationLogEvent) (request : Nat) : Bool :=
  decide (event.fact = .candidateRetired request ∨ event.fact = .restackContended request ∨
    event.fact = .reconcileContended request)

def loses (event : PublicationLogEvent) (request : Nat) : Bool :=
  decide (event.fact = .lost request)

def releases (event : PublicationLogEvent) (request : Nat) (workspaceRef : Option String) : Bool :=
  match event.fact with
  | .released ref =>
    decide (event.seq > request ∧ (ref = none ∨ workspaceRef = none ∨ ref = workspaceRef))
  | _ => false

def workspaceRef (event : PublicationLogEvent) (workspaceRef : Option String) : Option String :=
  match event.fact with
  | .provisioned ref => some ref
  | .released _ => none
  | _ => workspaceRef

def request? (event : PublicationLogEvent) : Option PublicationRequest :=
  match event.fact with
  | .requested payload => some ⟨event.seq, payload⟩
  | _ => none

end PublicationLogEvent

/-- The scan that stops at the first event of any type that is later than the request. -/
def scanEvents (request : Nat) : Option String → List PublicationLogEvent → Option String
  | workspaceRef, [] => workspaceRef
  | workspaceRef, event :: rest =>
    if event.seq > request then workspaceRef
    else scanEvents request (event.workspaceRef workspaceRef) rest

namespace DirectScan

variable (events : List PublicationLogEvent)

def completed (request : PublicationRequest) : Bool := events.any (·.completes request)

def cancelled (request : PublicationRequest) : Bool := events.any (·.cancels request.seq)

def settled (request : PublicationRequest) : Bool :=
  completed events request || cancelled events request ||
    events.any (·.releases request.seq (scanEvents request.seq none events))

/-- The last request that is neither completed nor cancelled, from the end of the log. -/
def latestUncompleted : List PublicationLogEvent → Option PublicationRequest
  | [] => none
  | event :: rest =>
    match latestUncompleted rest, event.request? with
    | some later, _ => some later
    | none, some request =>
      if completed events request || cancelled events request then none else some request
    | none, none => none

/-- A request that is not settled. -/
def unsettled (event : PublicationLogEvent) : Bool :=
  match event.request? with
  | some request => !settled events request
  | none => false

end DirectScan

open DirectScan in
/-- The direct scan of a log. -/
def directView (events : List PublicationLogEvent) : PublicationView where
  requestCompleted := completed events
  requestSettled := settled events
  latestUncompletedRequest := latestUncompleted events events
  lostRecorded request := events.any (·.loses request.seq)
  abandonedPending :=
    match latestUncompleted events events with
    | some request => settled events request
    | none => false
  pending := events.any (unsettled events)

/-! ## 5. What is compacted -/

/-- What an entry answers is what its event answers. -/
structure Represents (event : PublicationLogEvent) (item : LedgerItem) : Prop where
  seq : item.seq = event.seq
  completes : ∀ request, item.completes request = event.completes request
  cancels : ∀ request, item.cancels request = event.cancels request
  loses : ∀ request, item.loses request = event.loses request
  releases : ∀ request ref, item.releases request ref = event.releases request ref
  workspaceRef : ∀ ref, item.entry.workspaceRef ref = event.workspaceRef ref
  request : item.request? = event.request?

theorem represents_of_compact {event : PublicationLogEvent} {item : LedgerItem}
    (h : compact event = some item) : Represents event item := by
  obtain ⟨seq, fact⟩ := event
  cases fact with
  | other type => exact nomatch h
  | _ =>
    cases h
    refine ⟨rfl, ?_, fun _ => ?_, fun _ => ?_, fun _ _ => rfl, fun _ => rfl, rfl⟩
    · rintro ⟨request, payload⟩
      cases payload <;> rfl
    · simp [LedgerItem.cancels, PublicationLogEvent.cancels]
    · simp [LedgerItem.loses, PublicationLogEvent.loses]

/-- An event that is not compacted is what a barrier in its place is. -/
theorem represents_barrier {event : PublicationLogEvent} (h : compact event = none) :
    Represents event ⟨event.seq, .barrier⟩ := by
  obtain ⟨seq, fact⟩ := event
  cases fact with
  | other type =>
    refine ⟨rfl, ?_, fun _ => ?_, fun _ => ?_, fun _ _ => rfl, fun _ => rfl, rfl⟩
    · rintro ⟨request, payload⟩
      cases payload <;> rfl
    · simp [LedgerItem.cancels, PublicationLogEvent.cancels]
    · simp [LedgerItem.loses, PublicationLogEvent.loses]
  | _ => exact nomatch h

/-- The ledger in which no run is collapsed. -/
def itemOf (event : PublicationLogEvent) : LedgerItem :=
  (compact event).getD ⟨event.seq, .barrier⟩

theorem represents_itemOf (event : PublicationLogEvent) : Represents event (itemOf event) := by
  unfold itemOf
  cases h : compact event with
  | none => exact represents_barrier h
  | some item => exact represents_of_compact h

/-! ## 6. Collapsed runs -/

/-- The scan with whether it has stopped, one item after another. -/
def scanStep (request : Nat) (state : Option String × Bool) (item : LedgerItem) :
    Option String × Bool :=
  if state.2 then state
  else if item.seq > request then (state.1, true)
  else (item.entry.workspaceRef state.1, false)

theorem foldl_scanStep_stopped (request : Nat) (ref : Option String) (items : List LedgerItem) :
    items.foldl (scanStep request) (ref, true) = (ref, true) := by
  induction items with
  | nil => rfl
  | cons item items ih => exact ih

theorem scanWorkspace_eq_foldl (request : Nat) (ref : Option String) (items : List LedgerItem) :
    scanWorkspace request ref items = (items.foldl (scanStep request) (ref, false)).1 := by
  induction items generalizing ref with
  | nil => rfl
  | cons item items ih =>
    rw [scanWorkspace, List.foldl_cons]
    by_cases hlate : item.seq > request
    · have hstop : scanStep request (ref, false) item = (ref, true) := by simp [scanStep, hlate]
      rw [if_pos hlate, hstop, foldl_scanStep_stopped]
    · have hmove : scanStep request (ref, false) item = (item.entry.workspaceRef ref, false) := by
        simp [scanStep, hlate]
      rw [if_neg hlate, hmove, ih]

/-- Two barriers in a row stop the scan as the higher one does. -/
theorem scanStep_barrier (request seq seq' : Nat) (state : Option String × Bool) :
    scanStep request (scanStep request state ⟨seq, .barrier⟩) ⟨seq', .barrier⟩
      = scanStep request state ⟨max seq seq', .barrier⟩ := by
  obtain ⟨ref, stopped⟩ := state
  cases stopped with
  | true => rfl
  | false =>
    by_cases h : seq > request <;> by_cases h' : seq' > request <;>
      simp [scanStep, LedgerEntry.workspaceRef, h, h']

/-- Two ledgers that answer every question alike. -/
structure SameAnswers (ledger ledger' : List LedgerItem) : Prop where
  relevant : ledger.filter (·.entry ≠ .barrier) = ledger'.filter (·.entry ≠ .barrier)
  scan : ∀ request state,
    ledger.foldl (scanStep request) state = ledger'.foldl (scanStep request) state

theorem SameAnswers.snoc {ledger ledger' : List LedgerItem} (h : SameAnswers ledger ledger')
    (item : LedgerItem) : SameAnswers (ledger ++ [item]) (ledger' ++ [item]) where
  relevant := by rw [List.filter_append, List.filter_append, h.relevant]
  scan request state := by rw [List.foldl_append, List.foldl_append, h.scan]

/-- A barrier after a barrier is collapsed into it. -/
theorem sameAnswers_collapse (ledger : List LedgerItem) (seq seq' : Nat) :
    SameAnswers (ledger ++ [⟨max seq seq', .barrier⟩])
      (ledger ++ [⟨seq, .barrier⟩] ++ [⟨seq', .barrier⟩]) where
  relevant := by simp
  scan request state := by
    rw [List.foldl_append, List.foldl_append, List.foldl_append]
    exact (scanStep_barrier request seq seq' _).symm

theorem SameAnswers.trans {a b c : List LedgerItem} (h : SameAnswers a b) (h' : SameAnswers b c) :
    SameAnswers a c :=
  ⟨h.relevant.trans h'.relevant, fun request state =>
    (h.scan request state).trans (h'.scan request state)⟩

theorem foldLedgerEvent_same (ledger : List LedgerItem) (event : PublicationLogEvent) :
    SameAnswers (foldLedgerEvent ledger event) (ledger ++ [itemOf event]) := by
  unfold foldLedgerEvent itemOf
  cases compact event with
  | some item => exact ⟨rfl, fun _ _ => rfl⟩
  | none =>
    dsimp only [Option.getD_none]
    split
    · rename_i seq hlast
      have hsplit : ledger = ledger.dropLast ++ [⟨seq, .barrier⟩] :=
        (List.dropLast_append_getLast? _ hlast).symm
      conv => rhs; rw [hsplit]
      exact sameAnswers_collapse ledger.dropLast seq event.seq
    · exact ⟨rfl, fun _ _ => rfl⟩

theorem foldLedger_same (events : List PublicationLogEvent) :
    SameAnswers (foldLedger [] events) (events.map itemOf) := by
  induction events using List.reverseRecOn with
  | nil => exact ⟨rfl, fun _ _ => rfl⟩
  | append_singleton events event ih =>
    rw [foldLedger, List.foldl_append, List.map_append]
    exact (foldLedgerEvent_same _ event).trans (ih.snoc (itemOf event))

/-! ## 7. The answers -/

theorem any_eq_any_filter {α : Type} {p q : α → Bool} (h : ∀ a, p a = true → q a = true)
    (items : List α) : items.any p = (items.filter q).any p := by
  induction items with
  | nil => rfl
  | cons item items ih =>
    by_cases hq : q item = true
    · rw [List.filter_cons_of_pos hq, List.any_cons, List.any_cons, ih]
    · have hp : p item = false := by
        cases hp : p item with
        | false => rfl
        | true => exact absurd (h item hp) hq
      rw [List.filter_cons_of_neg hq, List.any_cons, hp, Bool.false_or, ih]

/-- A barrier answers no question. -/
theorem SameAnswers.any {ledger ledger' : List LedgerItem} (h : SameAnswers ledger ledger')
    {p : LedgerItem → Bool} (hp : ∀ seq, p ⟨seq, .barrier⟩ = false) :
    ledger.any p = ledger'.any p := by
  have hrelevant : ∀ item, p item = true → decide (item.entry ≠ .barrier) = true := by
    rintro ⟨seq, entry⟩ hitem
    rw [decide_eq_true_eq]
    rintro rfl
    rw [hp seq] at hitem
    exact nomatch hitem
  rw [any_eq_any_filter hrelevant, h.relevant, ← any_eq_any_filter hrelevant]

theorem SameAnswers.requests {ledger ledger' : List LedgerItem} (h : SameAnswers ledger ledger') :
    ledger.filterMap (·.request?) = ledger'.filterMap (·.request?) := by
  have hfilter : ∀ items : List LedgerItem, items.filterMap (·.request?)
      = (items.filter (·.entry ≠ .barrier)).filterMap (·.request?) := by
    intro items
    rw [List.filterMap_filter]
    refine List.filterMap_congr fun item _ => ?_
    obtain ⟨seq, entry⟩ := item
    cases entry <;> rfl
  rw [hfilter, h.relevant, ← hfilter]

theorem SameAnswers.view {ledger ledger' : List LedgerItem} (h : SameAnswers ledger ledger') :
    viewOf ledger = viewOf ledger' := by
  have hscan : ∀ request,
      scanWorkspace request none ledger = scanWorkspace request none ledger' := by
    intro request
    rw [scanWorkspace_eq_foldl, scanWorkspace_eq_foldl, h.scan]
  have hcompleted : ∀ request : PublicationRequest,
      ledger.any (·.completes request) = ledger'.any (·.completes request) := by
    rintro ⟨request, payload⟩
    refine h.any fun seq => ?_
    cases payload <;> simp [LedgerItem.completes]
  have hcancelled : ∀ request : Nat, ledger.any (·.cancels request)
      = ledger'.any (·.cancels request) := fun request => h.any fun _ => by
        simp [LedgerItem.cancels]
  have hlost : ∀ request : Nat, ledger.any (·.loses request) = ledger'.any (·.loses request) :=
    fun request => h.any fun _ => by simp [LedgerItem.loses]
  have hreleased : ∀ (request : Nat) (ref : Option String), ledger.any (·.releases request ref)
      = ledger'.any (·.releases request ref) := fun request ref => h.any fun _ => rfl
  unfold viewOf
  simp only [hscan, hcompleted, hcancelled, hlost, hreleased, h.requests]

theorem scanEvents_eq_scanWorkspace (request : Nat) (ref : Option String)
    (events : List PublicationLogEvent) :
    scanEvents request ref events = scanWorkspace request ref (events.map itemOf) := by
  induction events generalizing ref with
  | nil => rfl
  | cons event events ih =>
    have hevent := represents_itemOf event
    rw [scanEvents, List.map_cons, scanWorkspace, hevent.seq, hevent.workspaceRef, ih]

open DirectScan in
/-- The last open request, searched from the end as `findLast` does. -/
theorem latestUncompleted_eq (events : List PublicationLogEvent) :
    ∀ rest : List PublicationLogEvent, latestUncompleted events rest =
      (rest.filterMap (·.request?)).reverse.find? fun request =>
        !completed events request && !cancelled events request
  | [] => rfl
  | event :: rest => by
    rw [latestUncompleted, latestUncompleted_eq events rest]
    cases hrequest : event.request? with
    | none =>
      rw [List.filterMap_cons_none hrequest]
      cases (rest.filterMap (·.request?)).reverse.find? _ <;> rfl
    | some request =>
      rw [List.filterMap_cons_some hrequest, List.reverse_cons, List.find?_append]
      cases (rest.filterMap (·.request?)).reverse.find? _ with
      | some later => rfl
      | none =>
        rw [Option.none_or, List.find?_singleton]
        cases hc : completed events request <;> cases hx : cancelled events request <;>
          simp [hc, hx]

open DirectScan in
theorem any_unsettled (events rest : List PublicationLogEvent) :
    rest.any (unsettled events) =
      (rest.filterMap (·.request?)).any fun request => !settled events request := by
  rw [List.any_filterMap]
  refine List.any_congr rfl fun event => ?_
  unfold unsettled
  cases event.request? <;> rfl

open DirectScan in
/-- A ledger in which nothing is collapsed answers as the direct scan. -/
theorem viewOf_map_itemOf (events : List PublicationLogEvent) :
    viewOf (events.map itemOf) = directView events := by
  have hcompleted : ∀ request, (events.map itemOf).any (·.completes request) =
      completed events request := by
    intro request
    simp only [completed, List.any_map, Function.comp_def, (represents_itemOf _).completes]
  have hcancelled : ∀ request : PublicationRequest,
      (events.map itemOf).any (·.cancels request.seq) = cancelled events request := by
    intro request
    simp only [cancelled, List.any_map, Function.comp_def, (represents_itemOf _).cancels]
  have hreleased : ∀ request : PublicationRequest, (events.map itemOf).any
      (·.releases request.seq (scanWorkspace request.seq none (events.map itemOf))) =
        events.any (·.releases request.seq (scanEvents request.seq none events)) := by
    intro request
    simp only [List.any_map, Function.comp_def, (represents_itemOf _).releases,
      scanEvents_eq_scanWorkspace]
  have hrequests : (events.map itemOf).filterMap (·.request?) = events.filterMap (·.request?) := by
    simp only [List.filterMap_map, Function.comp_def, (represents_itemOf _).request]
  have hlost : ∀ request : PublicationRequest, (events.map itemOf).any (·.loses request.seq) =
      events.any (·.loses request.seq) := by
    intro request
    simp only [List.any_map, Function.comp_def, (represents_itemOf _).loses]
  unfold viewOf directView
  rw [any_unsettled, latestUncompleted_eq]
  simp only [hcompleted, hcancelled, hreleased, hrequests, hlost]
  generalize (events.filterMap (·.request?)).reverse.find? _ = latest
  cases latest <;> rfl

/-- **The ledger answers as the events do** that the catalog knows, in whatever order they stand and
however they were folded piece by piece. -/
theorem publicationState_lossless (known : String → Bool)
    (pieces : List (List PublicationLogEvent)) :
    viewOf (pieces.foldl (advanceLedger known) []) =
      directView (PublicationLogEvent.filterKnownEvents known pieces.flatten) := by
  have hflat : pieces.foldl (advanceLedger known) [] =
      foldLedger [] (PublicationLogEvent.filterKnownEvents known pieces.flatten) := by
    unfold advanceLedger foldLedger PublicationLogEvent.filterKnownEvents
    rw [List.filter_flatten, List.foldl_flatten, List.foldl_map]
  rw [hflat, (foldLedger_same _).view, viewOf_map_itemOf]

/-- A later event between two workspaces keeps the scan from the second: that of a request at 5,
released after it. -/
def replacedWorkspace (type : String) : List PublicationLogEvent :=
  [⟨1, .provisioned "first"⟩, ⟨10, .other type⟩, ⟨2, .provisioned "second"⟩,
    ⟨5, .requested (.finalize "a")⟩, ⟨6, .released (some "second")⟩]

example : (directView (replacedWorkspace "observation.recorded")).requestSettled
    ⟨5, .finalize "a"⟩ = false := by
  decide

/-- **An event of an unknown type stops the scan of the raw events only.** -/
theorem not_publicationState_lossless :
    let known := fun type => decide (type ≠ "observation.future")
    let events := replacedWorkspace "observation.future"
    (viewOf (advanceLedger known [] events)).requestSettled ⟨5, .finalize "a"⟩ = true ∧
      (directView events).requestSettled ⟨5, .finalize "a"⟩ = false := by
  decide

end Autobuild
