/-
# The observation that defers a merge

One observation may stand for a pull request and a consent command.  It is current until later
evidence ends it, and whether it is depends on facts before and after it in a log that need not be
in order.

The reducer keeps a ledger: the facts that are read, and of every run of others their highest
`seq`, because the search for the head stops at the first event of any type that is not before the
observation.  Each of the three scans is a fold that cannot tell a merged barrier from its two
parts (`Coalesce.Blind`), so the ledger answers as the log does (`current_deferral_observation`).
-/
import Autobuild.Events.Catalog
import Autobuild.Lib.Coalesce

namespace Autobuild

/-! ## 1. The ledger -/

/-- An event that records an observation. -/
structure DeferralObservation where
  event : AbEvent
  payload : ObservationRecorded
  body : event.body = .observationRecorded payload

def deferralObservation? (event : AbEvent) : Option DeferralObservation :=
  match h : event.body with
  | .observationRecorded payload => some ⟨event, payload, h⟩
  | _ => none

inductive DeferralLedgerEntry where
  | barrier (seq : Nat)
  | observation (observation : DeferralObservation)
  | finalized (seq : Nat) (headSha : String)
  | terminal (seq : Nat)
  | reconciled (seq : Nat)

structure DeferralLedger where
  entries : List DeferralLedgerEntry := []

def DEFERRAL_REF_PREFIX : String := "auto-merge-gate:pr:"

/-- The one follow-up of a pull request and a command. -/
def autoMergeDeferralRef (prNumber commandSeq : Nat) : String :=
  String.ofList (DEFERRAL_REF_PREFIX.toList ++
    ((toString prNumber).toList ++ ":command:".toList ++ (toString commandSeq).toList))

/-- `payload.refs?.some((ref) => ref.startsWith(…)) === true`. -/
def namesDeferral (payload : ObservationRecorded) : Bool :=
  (payload.refs.getD []).any fun ref => DEFERRAL_REF_PREFIX.toList.isPrefixOf ref.toList

/-- The fact that an event is for the ledger. -/
def deferralEntryOf (event : AbEvent) : Option DeferralLedgerEntry :=
  match deferralObservation? event with
  | some observation =>
    if namesDeferral observation.payload = true then some (.observation observation) else none
  | none =>
    match event.body with
    | .finalize (.completed pr) => some (.finalized event.seq pr.headSha)
    | .pr (.merged _) => some (.terminal event.seq)
    | .pr .closed => some (.terminal event.seq)
    | .reconcile (.completed _) => some (.reconciled event.seq)
    | _ => none

/-- Two barriers side by side are one. -/
def mergeBarriers : DeferralLedgerEntry → DeferralLedgerEntry → Option DeferralLedgerEntry
  | .barrier last, .barrier seq => some (.barrier (max last seq))
  | _, _ => none

def deferralEntry (event : AbEvent) : DeferralLedgerEntry :=
  (deferralEntryOf event).getD (.barrier event.seq)

def foldDeferrals (ledger : DeferralLedger) (events : List AbEvent) : DeferralLedger :=
  ⟨events.foldl (fun entries event => Coalesce.push mergeBarriers entries (deferralEntry event))
    ledger.entries⟩

/-! ## 2. The scans of a ledger -/

def DeferralLedgerEntry.seq : DeferralLedgerEntry → Nat
  | .observation recorded => recorded.event.seq
  | .barrier seq | .finalized seq _ | .terminal seq | .reconciled seq => seq

/-- The observation of an entry that names `marker`. -/
def DeferralLedgerEntry.marked? (marker : String) : DeferralLedgerEntry → Option DeferralObservation
  | .observation recorded =>
    if marker ∈ recorded.payload.refs.getD [] then some recorded else none
  | _ => none

/-- The newest head before the first entry that is not before `seq`. -/
def headAtObservation (seq : Nat) : Option String → List DeferralLedgerEntry → Option String
  | head, [] => head
  | head, entry :: rest =>
    if seq ≤ entry.seq then head
    else
      match entry with
      | .finalized _ headSha => headAtObservation seq (some headSha) rest
      | _ => headAtObservation seq head rest

/-- No entry after `seq` ends the observation that was made at `head`. -/
def staysCurrent (seq : Nat) : Option String → List DeferralLedgerEntry → Bool
  | _, [] => true
  | head, .observation _ :: rest => staysCurrent seq head rest
  | head, .barrier _ :: rest => staysCurrent seq head rest
  | head, .terminal at' :: rest => if at' ≤ seq then staysCurrent seq head rest else false
  | head, .reconciled at' :: rest => if at' ≤ seq then staysCurrent seq head rest else false
  | head, .finalized at' headSha :: rest =>
    if at' ≤ seq then staysCurrent seq head rest
    else
      match head with
      | none => staysCurrent seq (some headSha) rest
      | some was => if headSha = was then staysCurrent seq head rest else false

def deferralObservationFrom (ledger : DeferralLedger) (prNumber commandSeq : Nat) :
    Option DeferralObservation := do
  let observation ← ledger.entries.reverse.findSome?
    (·.marked? (autoMergeDeferralRef prNumber commandSeq))
  let head := headAtObservation observation.event.seq none ledger.entries
  if staysCurrent observation.event.seq head ledger.entries then some observation else none

def currentDeferralObservation (events : List AbEvent) (prNumber commandSeq : Nat) :
    Option DeferralObservation :=
  deferralObservationFrom (foldDeferrals {} events) prNumber commandSeq

def hasAutoMergeDeferralObservation (events : List AbEvent) (prNumber commandSeq : Nat) : Bool :=
  (currentDeferralObservation events prNumber commandSeq).isSome

/-! ## 3. The scan of the log itself -/

def markedObservation? (marker : String) (event : AbEvent) : Option DeferralObservation :=
  (deferralObservation? event).filter fun observation =>
    marker ∈ observation.payload.refs.getD []

def referenceHead (seq : Nat) : Option String → List AbEvent → Option String
  | head, [] => head
  | head, event :: rest =>
    if seq ≤ event.seq then head
    else
      match event.body with
      | .finalize (.completed pr) => referenceHead seq (some pr.headSha) rest
      | _ => referenceHead seq head rest

def referenceCurrent (seq : Nat) : Option String → List AbEvent → Bool
  | _, [] => true
  | head, event :: rest =>
    if event.seq ≤ seq then referenceCurrent seq head rest
    else
      match event.body with
      | .pr (.merged _) => false
      | .pr .closed => false
      | .reconcile (.completed _) => false
      | .finalize (.completed pr) =>
        match head with
        | none => referenceCurrent seq (some pr.headSha) rest
        | some was => if pr.headSha = was then referenceCurrent seq head rest else false
      | _ => referenceCurrent seq head rest

def referenceDeferral (events : List AbEvent) (prNumber commandSeq : Nat) :
    Option DeferralObservation := do
  let observation ← events.reverse.findSome?
    (markedObservation? (autoMergeDeferralRef prNumber commandSeq))
  let head := referenceHead observation.event.seq none events
  if referenceCurrent observation.event.seq head events then some observation else none

/-! ## 4. The scans as folds -/

namespace DeferralLedgerEntry

/-- The search for the head, and whether it is over. -/
def headStep (seq : Nat) (found : Option String × Bool) (entry : DeferralLedgerEntry) :
    Option String × Bool :=
  if found.2 = true then found
  else if seq ≤ entry.seq then (found.1, true)
  else
    match entry with
    | .finalized _ headSha => (some headSha, false)
    | _ => found

theorem headStep_blind (seq : Nat) : Coalesce.Blind mergeBarriers (headStep seq) := by
  rintro ⟨head, ended⟩ a b merged hmerged
  unfold mergeBarriers at hmerged
  split at hmerged
  · rename_i last next
    obtain rfl := Option.some.inj hmerged
    by_cases hlast : seq ≤ last <;> by_cases hnext : seq ≤ next <;>
      cases ended <;> simp [headStep, DeferralLedgerEntry.seq, hlast, hnext]
  · exact nomatch hmerged

theorem foldl_headStep_over (seq : Nat) (head : Option String)
    (entries : List DeferralLedgerEntry) :
    entries.foldl (headStep seq) (head, true) = (head, true) := by
  induction entries with
  | nil => rfl
  | cons entry rest ih => exact ih

theorem headAtObservation_eq (seq : Nat) (head : Option String)
    (entries : List DeferralLedgerEntry) :
    headAtObservation seq head entries = (entries.foldl (headStep seq) (head, false)).1 := by
  induction entries generalizing head with
  | nil => rfl
  | cons entry rest ih =>
    rw [List.foldl_cons]
    by_cases hover : seq ≤ entry.seq
    · rw [headAtObservation.eq_def]
      simp [headStep, hover, foldl_headStep_over]
    · cases entry with
      | finalized at' headSha => simpa [headAtObservation, headStep, hover] using ih (some headSha)
      | _ => simpa [headAtObservation, headStep, hover] using ih head

/-- Whether the observation stays current, with its head as far as it is known. -/
def currentStep (seq : Nat) :
    Option (Option String) → DeferralLedgerEntry → Option (Option String)
  | none, _ => none
  | some head, .finalized at' headSha =>
    if at' ≤ seq then some head
    else
      match head with
      | none => some (some headSha)
      | some was => if headSha = was then some head else none
  | some head, .terminal at' => if at' ≤ seq then some head else none
  | some head, .reconciled at' => if at' ≤ seq then some head else none
  | some head, _ => some head

theorem currentStep_blind (seq : Nat) : Coalesce.Blind mergeBarriers (currentStep seq) := by
  rintro found a b merged hmerged
  unfold mergeBarriers at hmerged
  split at hmerged
  · obtain rfl := Option.some.inj hmerged
    cases found <;> rfl
  · exact nomatch hmerged

theorem foldl_currentStep_none (seq : Nat) (entries : List DeferralLedgerEntry) :
    entries.foldl (currentStep seq) none = none := by
  induction entries with
  | nil => rfl
  | cons entry rest ih => exact ih

theorem staysCurrent_eq (seq : Nat) (head : Option String) (entries : List DeferralLedgerEntry) :
    staysCurrent seq head entries = (entries.foldl (currentStep seq) (some head)).isSome := by
  induction entries generalizing head with
  | nil => rfl
  | cons entry rest ih =>
    rw [List.foldl_cons]
    cases entry with
    | barrier at' => exact ih head
    | observation recorded => exact ih head
    | terminal at' =>
      by_cases hbefore : at' ≤ seq
      · simpa [staysCurrent, currentStep, hbefore] using ih head
      · simp [staysCurrent, currentStep, hbefore, foldl_currentStep_none]
    | reconciled at' =>
      by_cases hbefore : at' ≤ seq
      · simpa [staysCurrent, currentStep, hbefore] using ih head
      · simp [staysCurrent, currentStep, hbefore, foldl_currentStep_none]
    | finalized at' headSha =>
      by_cases hbefore : at' ≤ seq
      · simpa [staysCurrent, currentStep, hbefore] using ih head
      · cases head with
        | none => simpa [staysCurrent, currentStep, hbefore] using ih (some headSha)
        | some was =>
          by_cases hsame : headSha = was
          · simpa [staysCurrent, currentStep, hbefore, hsame] using ih (some was)
          · simp [staysCurrent, currentStep, hbefore, hsame, foldl_currentStep_none]

theorem marked_blind (marker : String) :
    Coalesce.Blind mergeBarriers
      (fun (found : Option DeferralObservation) entry => (marked? marker entry).or found) := by
  rintro found a b merged hmerged
  unfold mergeBarriers at hmerged
  split at hmerged
  · obtain rfl := Option.some.inj hmerged
    rfl
  · exact nomatch hmerged

end DeferralLedgerEntry

/-! ## 5. The scans of the log -/

theorem deferralObservation?_event {event : AbEvent} {observation : DeferralObservation}
    (h : deferralObservation? event = some observation) : observation.event = event := by
  unfold deferralObservation? at h
  split at h
  · obtain rfl := Option.some.inj h
    rfl
  · exact nomatch h

theorem deferralEntry_of_finalized {event : AbEvent} {pr : PrRef}
    (h : event.body = .finalize (.completed pr)) :
    deferralEntry event = .finalized event.seq pr.headSha := by
  obtain ⟨seq, ts, actor, body⟩ := event
  obtain rfl : body = _ := h
  rfl

theorem deferralEntry_of_terminal {event : AbEvent}
    (h : event.body = .pr .closed ∨ ∃ sha, event.body = .pr (.merged sha)) :
    deferralEntry event = .terminal event.seq := by
  obtain ⟨seq, ts, actor, body⟩ := event
  obtain rfl | ⟨sha, rfl⟩ : body = _ ∨ ∃ sha, body = _ := h <;> rfl

theorem deferralEntry_of_reconciled {event : AbEvent} {payload : ReconcileCompleted}
    (h : event.body = .reconcile (.completed payload)) :
    deferralEntry event = .reconciled event.seq := by
  obtain ⟨seq, ts, actor, body⟩ := event
  obtain rfl : body = _ := h
  rfl

/-- Whether an event is one the two scans for currency read. -/
def EndsOrMoves (body : EventBody) : Prop :=
  (∃ pr, body = .finalize (.completed pr)) ∨
    (body = .pr .closed ∨ ∃ sha, body = .pr (.merged sha)) ∨
    ∃ payload, body = .reconcile (.completed payload)

theorem deferralEntry_of_other {event : AbEvent} (h : ¬EndsOrMoves event.body) :
    deferralEntry event = .barrier event.seq ∨
      ∃ recorded : DeferralObservation, recorded.event = event ∧
        deferralEntry event = .observation recorded := by
  unfold deferralEntry deferralEntryOf
  split
  · rename_i observation hobservation
    split
    · exact .inr ⟨observation, deferralObservation?_event hobservation, rfl⟩
    · exact .inl rfl
  · split
    · exact absurd (.inl ⟨_, ‹_›⟩) h
    · exact absurd (.inr (.inl (.inr ⟨_, ‹_›⟩))) h
    · exact absurd (.inr (.inl (.inl ‹_›))) h
    · exact absurd (.inr (.inr ⟨_, ‹_›⟩)) h
    · exact .inl rfl

theorem deferralEntry_seq (event : AbEvent) : (deferralEntry event).seq = event.seq := by
  by_cases h : EndsOrMoves event.body
  · obtain ⟨pr, h⟩ | h | ⟨payload, h⟩ := h
    · rw [deferralEntry_of_finalized h]; rfl
    · rw [deferralEntry_of_terminal h]; rfl
    · rw [deferralEntry_of_reconciled h]; rfl
  · obtain h | ⟨recorded, hevent, h⟩ := deferralEntry_of_other h
    · rw [h]; rfl
    · rw [h, ← hevent]; rfl

theorem referenceHead_eq (seq : Nat) (head : Option String) (events : List AbEvent) :
    referenceHead seq head events = headAtObservation seq head (events.map deferralEntry) := by
  induction events generalizing head with
  | nil => rfl
  | cons event rest ih =>
    rw [List.map_cons]
    by_cases hover : seq ≤ event.seq
    · rw [referenceHead.eq_def, headAtObservation.eq_def]
      simp [hover, deferralEntry_seq]
    · by_cases h : EndsOrMoves event.body
      · obtain ⟨pr, h⟩ | h | ⟨payload, h⟩ := h
        · simp [referenceHead, headAtObservation, DeferralLedgerEntry.seq, hover, h, ih,
            deferralEntry_of_finalized h]
        · rw [deferralEntry_of_terminal h]
          obtain h | ⟨sha, h⟩ := h <;>
            simp [referenceHead, headAtObservation, DeferralLedgerEntry.seq, hover, h, ih]
        · simp [referenceHead, headAtObservation, DeferralLedgerEntry.seq, hover, h, ih,
            deferralEntry_of_reconciled h]
      · have hleft : referenceHead seq head (event :: rest) = referenceHead seq head rest := by
          rw [referenceHead.eq_def]
          simp only [hover, if_false]
          split
          · exact absurd (.inl ⟨_, ‹_›⟩) h
          · rfl
        rw [hleft, ih]
        obtain h | ⟨recorded, hevent, h⟩ := deferralEntry_of_other h
        · simp [h, headAtObservation, DeferralLedgerEntry.seq, hover]
        · simp [h, headAtObservation, DeferralLedgerEntry.seq, hevent, hover]

theorem referenceCurrent_eq (seq : Nat) (head : Option String) (events : List AbEvent) :
    referenceCurrent seq head events = staysCurrent seq head (events.map deferralEntry) := by
  induction events generalizing head with
  | nil => rfl
  | cons event rest ih =>
    rw [List.map_cons]
    by_cases h : EndsOrMoves event.body
    · obtain ⟨pr, h⟩ | h | ⟨payload, h⟩ := h
      · rw [deferralEntry_of_finalized h]
        cases head <;> simp [referenceCurrent, staysCurrent, h, ih]
      · rw [deferralEntry_of_terminal h]
        obtain h | ⟨sha, h⟩ := h <;> simp [referenceCurrent, staysCurrent, h, ih]
      · rw [deferralEntry_of_reconciled h]
        simp [referenceCurrent, staysCurrent, h, ih]
    · have hleft : referenceCurrent seq head (event :: rest) = referenceCurrent seq head rest := by
        rw [referenceCurrent.eq_def]
        dsimp only
        split
        · rfl
        · split
          · exact absurd (.inr (.inl (.inr ⟨_, ‹_›⟩))) h
          · exact absurd (.inr (.inl (.inl ‹_›))) h
          · exact absurd (.inr (.inr ⟨_, ‹_›⟩)) h
          · exact absurd (.inl ⟨_, ‹_›⟩) h
          · rfl
      rw [hleft, ih]
      obtain h | ⟨recorded, -, h⟩ := deferralEntry_of_other h <;> rw [h] <;> rfl

/-- A marker names a deferral. -/
theorem namesDeferral_of_mem {payload : ObservationRecorded} {prNumber commandSeq : Nat}
    (h : autoMergeDeferralRef prNumber commandSeq ∈ payload.refs.getD []) :
    namesDeferral payload = true := by
  rw [namesDeferral, List.any_eq_true]
  refine ⟨_, h, ?_⟩
  rw [autoMergeDeferralRef, String.toList_ofList, List.isPrefixOf_iff_prefix]
  exact List.prefix_append _ _

theorem markedObservation?_eq (prNumber commandSeq : Nat) (event : AbEvent) :
    markedObservation? (autoMergeDeferralRef prNumber commandSeq) event =
      (deferralEntry event).marked? (autoMergeDeferralRef prNumber commandSeq) := by
  unfold markedObservation? deferralEntry deferralEntryOf
  split
  · rename_i observation hobservation
    rw [hobservation]
    split
    · simp [DeferralLedgerEntry.marked?, Option.filter]
    · rename_i hnames
      have hnone : autoMergeDeferralRef prNumber commandSeq ∉ observation.payload.refs.getD [] :=
        fun hmem => hnames (namesDeferral_of_mem hmem)
      simp [DeferralLedgerEntry.marked?, Option.filter, hnone]
  · rename_i hnone
    rw [hnone]
    split <;> rfl

/-! ## 6. The ledger answers as the log does -/

theorem foldDeferrals_append (ledger : DeferralLedger) (xs ys : List AbEvent) :
    foldDeferrals ledger (xs ++ ys) = foldDeferrals (foldDeferrals ledger xs) ys := by
  simp [foldDeferrals, List.foldl_append]

theorem foldDeferrals_entries (events : List AbEvent) :
    (foldDeferrals {} events).entries =
      Coalesce.coalesce mergeBarriers [] (events.map deferralEntry) := by
  simp [foldDeferrals, Coalesce.coalesce, List.foldl_map]

/-- A fold that does not tell merged barriers apart reads the ledger as it reads the log. -/
theorem foldl_ledger {σ : Type} {f : σ → DeferralLedgerEntry → σ}
    (hf : Coalesce.Blind mergeBarriers f) (s : σ) (events : List AbEvent) :
    (foldDeferrals {} events).entries.foldl f s = (events.map deferralEntry).foldl f s := by
  rw [foldDeferrals_entries, Coalesce.foldl_coalesce hf, List.nil_append]

theorem deferralObservationFrom_eq (events : List AbEvent) (prNumber commandSeq : Nat) :
    deferralObservationFrom (foldDeferrals {} events) prNumber commandSeq =
      referenceDeferral events prNumber commandSeq := by
  have hfound : (foldDeferrals {} events).entries.reverse.findSome?
      (·.marked? (autoMergeDeferralRef prNumber commandSeq)) =
      events.reverse.findSome? (markedObservation? (autoMergeDeferralRef prNumber commandSeq)) := by
    rw [Coalesce.findSome?_reverse_eq_foldl, Coalesce.findSome?_reverse_eq_foldl,
      foldl_ledger (DeferralLedgerEntry.marked_blind _), List.foldl_map]
    simp only [markedObservation?_eq]
  have hhead : ∀ seq, headAtObservation seq none (foldDeferrals {} events).entries =
      referenceHead seq none events := by
    intro seq
    rw [referenceHead_eq, DeferralLedgerEntry.headAtObservation_eq,
      foldl_ledger (DeferralLedgerEntry.headStep_blind seq),
      ← DeferralLedgerEntry.headAtObservation_eq]
  have hcurrent : ∀ seq head, staysCurrent seq head (foldDeferrals {} events).entries =
      referenceCurrent seq head events := by
    intro seq head
    rw [referenceCurrent_eq, DeferralLedgerEntry.staysCurrent_eq,
      foldl_ledger (DeferralLedgerEntry.currentStep_blind seq),
      ← DeferralLedgerEntry.staysCurrent_eq]
  simp only [deferralObservationFrom, referenceDeferral, hfound, hhead, hcurrent]

end Autobuild
