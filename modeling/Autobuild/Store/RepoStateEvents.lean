/-
# The journal view

A bounded read of the journal keeps the durable facts, the facts since the last run started, and the
newest fact of each latest-only type.

* `projectRepositoryStateEvents` selects them from the whole journal.
* `foldJournalView` keeps them up as the journal grows, dropping what a new run makes stale.
* On a journal whose seqs rise the two give the same list (`journalView_eq_project`).
-/
import Autobuild.Lib.Best
import Autobuild.Lib.ObjectMap

namespace Autobuild

open ObjectMap

/-! ## 1. Types -/

def ticketPreparationEventTypes : List String :=
  ["ticket-preparation.intended", "ticket-preparation.claimed",
    "ticket-preparation.creation-selected", "ticket-preparation.failed",
    "ticket-preparation.recovery-failed", "ticket-preparation.handback-selected",
    "ticket-preparation.resolved"]

def dispatchHandoffEventTypes : List String :=
  ["dispatcher.target-prepared", "dispatcher.yield-requested", "dispatcher.upgrade-failed",
    "dispatcher.handoff-started", "dispatcher.terminal-released", "dispatcher.takeover",
    "dispatcher.drain-deadline", "dispatcher.drain-settled", "dispatcher.handoff-completed"]

def forgeHealthEventTypes : List String :=
  ["dispatcher.forge-degraded", "dispatcher.forge-recovered"]

def kernelGitHealthEventTypes : List String :=
  ["dispatcher.kernel-git-unavailable", "dispatcher.kernel-git-recovered"]

def changePresenceEventTypes : List String := ["change-presence.observed"]

def ticketSourceHealthEventTypes : List String :=
  ["dispatcher.ticket-source-dependency-limited", "dispatcher.ticket-source-degraded",
    "dispatcher.ticket-source-recovered"]

def harvestEventTypes : List String :=
  ["harvest.pause-requested", "harvest.resume-requested", "harvest.paused", "harvest.resumed",
    "harvest.recovery-requested", "harvest.recovery-exhausted", "harvest.started",
    "harvest.execution.authorized", "harvest.execution.ended", "harvest.execution.started",
    "harvest.execution.released", "harvest.step.started", "harvest.step.completed",
    "harvest.session.native-handle-recorded", "harvest.session.suspended",
    "harvest.session.resumed", "harvest.session.resume-fallback", "harvest.session.started",
    "harvest.session.ended", "harvest.proposals.submitted", "harvest.review.verdict",
    "harvest.proposal.id-reserved", "harvest.proposal.filed", "harvest.completed",
    "harvest.escalated", "harvest.failed"]

def orchestratorSandboxEventTypes : List String :=
  ["orchestrator.sandbox.provisioned", "orchestrator.sandbox.resumed",
    "orchestrator.sandbox.activity", "orchestrator.sandbox.stopped",
    "orchestrator.sandbox.released", "orchestrator.sandbox.reset",
    "orchestrator.sandbox.published", "orchestrator.sandbox.publish-failed"]

def dispatcherSettingEventTypes : List String :=
  ["dispatcher.config-reloaded", "dispatcher.intake-set", "dispatcher.pause-set",
    "dispatcher.auto-merge-default-set"]

def dispatcherStatusEventTypes : List String :=
  ["dispatcher.ticket-scan-completed", "dispatcher.upgrade-target-resolved",
    "dispatcher.target-prepared", "dispatcher.yield-requested", "dispatcher.terminal-released",
    "dispatcher.takeover", "dispatcher.drain-settled", "dispatcher.drain-deadline",
    "account.credentials-unavailable", "account.credentials-recovered",
    "dispatcher.upgrade-detected", "dispatcher.upgrade-failed", "dispatcher.runtime-rolled-back",
    "dispatcher.rollback-hold-cleared", "dispatcher.handoff-started",
    "dispatcher.handoff-completed", "dispatcher.runtime-recorded", "dispatcher.run-started",
    "dispatcher.stop-requested", "dispatcher.run-stopped", "dispatcher.tick-yielded",
    "dispatcher.forge-readiness-failed", "dispatcher.config-rejected",
    "dispatcher.config-publication-failed", "dispatcher.tick-started", "dispatcher.tick-completed",
    "dispatcher.tick-failed", "dispatcher.runner-settled", "dispatcher.summary-handoff",
    "dispatcher.harvest-runner-failed", "dispatcher.upgrade-available",
    "dispatcher.operator-reported"]

/-- The keys of `repositoryEventPayloadSchemas`. -/
def repositoryEventTypes : List String :=
  "dispatcher.placement-set" :: "tickets.migration-recorded" ::
    (ticketPreparationEventTypes ++ forgeHealthEventTypes ++ kernelGitHealthEventTypes ++
      changePresenceEventTypes ++ ticketSourceHealthEventTypes ++ harvestEventTypes ++
      orchestratorSandboxEventTypes ++ dispatcherStatusEventTypes ++ dispatcherSettingEventTypes)

/-- The anchor fact a bounded read's tail hangs from. -/
def runStartedType : String := "dispatcher.run-started"

/-- Durable types: kept at full replay depth. -/
def repositoryStateEventTypes : List String :=
  ticketPreparationEventTypes ++ ["tickets.migration-recorded"] ++ dispatchHandoffEventTypes ++
    ["dispatcher.forge-degraded", "dispatcher.forge-recovered",
      "dispatcher.kernel-git-unavailable", "dispatcher.kernel-git-recovered"] ++
    changePresenceEventTypes ++ ticketSourceHealthEventTypes ++ harvestEventTypes ++
    orchestratorSandboxEventTypes ++
    dispatcherSettingEventTypes.filter fun type => type ≠ "dispatcher.config-reloaded"

/-- Latest-only facts survive run turnover without retaining publication history. -/
def repositoryLatestEventTypes : List String :=
  ["dispatcher.ticket-scan-completed", "dispatcher.placement-set"]

theorem latest_not_state : ∀ type ∈ repositoryLatestEventTypes,
    type ∉ repositoryStateEventTypes := by
  decide

theorem runStarted_not_latest : runStartedType ∉ repositoryLatestEventTypes := by decide

/-! ## 2. The two reducers -/

structure JournalFact (π : Type) where
  seq : Nat
  type : String
  payload : π

structure JournalAcc (π : Type) where
  anchor : Option Nat := none
  retained : List (JournalFact π) := []

section

variable {π : Type}

def JournalFact.isState (fact : JournalFact π) : Bool := fact.type ∈ repositoryStateEventTypes

def JournalFact.isLatest (fact : JournalFact π) : Bool := fact.type ∈ repositoryLatestEventTypes

def JournalFact.isRunStarted (fact : JournalFact π) : Bool := fact.type = runStartedType

/-- `filterKnownEvents`. -/
def filterKnownEvents (events : List (JournalFact π)) : List (JournalFact π) :=
  events.filter fun fact => fact.type ∈ repositoryEventTypes

def JournalFact.keeps (fact : JournalFact π) (anchor : Option Nat) : Bool :=
  fact.isState || (!fact.isLatest && anchor.any fun seq => seq ≤ fact.seq)

/-- Replace the fact held of the type, unless it is as new. -/
def holdLatest (retained : List (JournalFact π)) (fact : JournalFact π) : List (JournalFact π) :=
  if (retained.find? fun held => held.type = fact.type).any fun held => fact.seq ≤ held.seq
  then retained
  else retained.filter (fun held => held.type ≠ fact.type) ++ [fact]

/-- One event of `repositoryStateEventsReducer`. -/
def foldStateEvent (acc : JournalAcc π) (fact : JournalFact π) : JournalAcc π where
  anchor := if fact.isRunStarted then some fact.seq else acc.anchor
  retained := if fact.isLatest then holdLatest acc.retained fact else acc.retained ++ [fact]

/-- The newest retained fact of each latest-only type. -/
def latestFacts (retained : List (JournalFact π)) : JsMap String (JournalFact π) :=
  retained.foldl
    (fun latest fact =>
      if fact.isLatest && (latest.get? ⟨fact.type⟩).all fun held => held.seq < fact.seq
      then latest.set ⟨fact.type⟩ fact else latest) ∅

def finishStateEvents (acc : JournalAcc π) : List (JournalFact π) :=
  (acc.retained.filter (·.keeps acc.anchor) ++ (latestFacts acc.retained).values).insertionSort
    fun a b => a.seq ≤ b.seq

/-- The reduction of a whole journal. -/
def projectRepositoryStateEvents (events : List (JournalFact π)) : List (JournalFact π) :=
  finishStateEvents ((filterKnownEvents events).foldl foldStateEvent {})

/-- What a new run leaves of the view. -/
def JournalAcc.prune (acc : JournalAcc π) (seq : Nat) : JournalAcc π where
  anchor := some seq
  retained := acc.retained.filter fun held => held.isState || held.isLatest

/-- One event of `foldJournalView`. -/
def foldJournalView (acc : JournalAcc π) (fact : JournalFact π) : JournalAcc π :=
  let pruned := if fact.isRunStarted then acc.prune fact.seq else acc
  if fact.isLatest then { pruned with retained := holdLatest pruned.retained fact }
  else if fact.isState || pruned.anchor.isSome then
    { pruned with retained := pruned.retained ++ [fact] }
  else pruned

/-- `journalViewReducer.advance`. -/
def advanceJournalView (acc : JournalAcc π) (events : List (JournalFact π)) : JournalAcc π :=
  (filterKnownEvents events).foldl foldJournalView acc

end

/-! ## 3. One event -/

section

variable {π : Type} {stored view : JournalAcc π} {bound : Nat} {fact : JournalFact π}

/-- The view holds what the bounded read would keep of the stored state; the next seq is at least
`bound`. -/
structure ViewTracks (stored view : JournalAcc π) (bound : Nat) : Prop where
  anchor : view.anchor = stored.anchor
  retained : view.retained
    = stored.retained.filter fun fact => fact.isLatest || fact.keeps stored.anchor
  rising : stored.retained.Pairwise fun a b => a.seq < b.seq
  below : ∀ fact ∈ stored.retained, fact.seq < bound
  anchorBelow : ∀ seq, stored.anchor = some seq → seq < bound
  single : stored.retained.Pairwise fun a b => a.isLatest = true → a.type ≠ b.type

theorem not_isState_of_isLatest (h : fact.isLatest = true) : fact.isState = false :=
  decide_eq_false (latest_not_state fact.type (of_decide_eq_true h))

theorem not_isRunStarted_of_isLatest (h : fact.isLatest = true) : fact.isRunStarted = false :=
  decide_eq_false fun he => runStarted_not_latest (he ▸ of_decide_eq_true h)

theorem holdLatest_of_below {retained : List (JournalFact π)}
    (h : ∀ held ∈ retained, held.seq < fact.seq) :
    holdLatest retained fact = retained.filter (fun held => held.type ≠ fact.type) ++ [fact] := by
  unfold holdLatest
  rw [if_neg]
  intro hany
  obtain ⟨held, hfind, hle⟩ := (Option.any_eq_true _ _).mp hany
  exact Nat.not_le.mpr (h held (List.mem_of_find?_eq_some hfind)) (of_decide_eq_true hle)

theorem ViewTracks.latest (h : ViewTracks stored view bound) (hb : bound ≤ fact.seq)
    (hl : fact.isLatest = true) :
    ViewTracks (foldStateEvent stored fact) (foldJournalView view fact) (fact.seq + 1) := by
  have hbelow : ∀ held ∈ stored.retained, held.seq < fact.seq := fun held hm =>
    Nat.lt_of_lt_of_le (h.below held hm) hb
  have hview : ∀ held ∈ view.retained, held.seq < fact.seq := by
    rw [h.retained]
    exact fun held hm => hbelow held (List.mem_filter.mp hm).1
  have hrun : ¬fact.isRunStarted = true := by
    rw [not_isRunStarted_of_isLatest hl]
    exact Bool.false_ne_true
  have hstate : foldStateEvent stored fact
      = ⟨stored.anchor, stored.retained.filter (fun held => held.type ≠ fact.type) ++ [fact]⟩ := by
    unfold foldStateEvent
    rw [if_neg hrun, if_pos hl, holdLatest_of_below hbelow]
  have hjournal : foldJournalView view fact
      = ⟨view.anchor, view.retained.filter (fun held => held.type ≠ fact.type) ++ [fact]⟩ := by
    unfold foldJournalView
    dsimp only
    rw [if_pos hl, if_neg hrun, holdLatest_of_below hview]
  rw [hstate, hjournal]
  refine ⟨h.anchor, ?_, ?_, ?_, fun seq hs => ?_, ?_⟩
  · dsimp only
    rw [h.retained, List.filter_append, List.filter_comm, List.filter_singleton, hl]
    rfl
  · refine List.pairwise_append.mpr ⟨h.rising.sublist List.filter_sublist,
      List.pairwise_singleton _ _, fun held hm last hlast => ?_⟩
    rw [List.mem_singleton.mp hlast]
    exact hbelow held (List.mem_filter.mp hm).1
  · intro held hm
    rcases List.mem_append.mp hm with hold | hnew
    · exact Nat.lt_succ_of_lt (hbelow held (List.mem_filter.mp hold).1)
    · rw [List.mem_singleton.mp hnew]
      exact Nat.lt_succ_self _
  · exact Nat.lt_succ_of_lt (Nat.lt_of_lt_of_le (h.anchorBelow seq hs) hb)
  · refine List.pairwise_append.mpr ⟨h.single.sublist List.filter_sublist,
      List.pairwise_singleton _ _, fun held hm last hlast _ => ?_⟩
    rw [List.mem_singleton.mp hlast]
    exact of_decide_eq_true (List.mem_filter.mp hm).2

/-- Another fact is appended to the stored state; the view appends it where the read keeps it. -/
theorem ViewTracks.ordinary (h : ViewTracks stored view bound) (hb : bound ≤ fact.seq)
    (hl : fact.isLatest = false) :
    ViewTracks (foldStateEvent stored fact) (foldJournalView view fact) (fact.seq + 1) := by
  have hbelow : ∀ held ∈ stored.retained, held.seq < fact.seq := fun held hm =>
    Nat.lt_of_lt_of_le (h.below held hm) hb
  have hl' : ¬fact.isLatest = true := by rw [hl]; exact Bool.false_ne_true
  have hstate : (foldStateEvent stored fact).retained = stored.retained ++ [fact] := if_neg hl'
  have hrising : (stored.retained ++ [fact]).Pairwise fun a b => a.seq < b.seq := by
    refine List.pairwise_append.mpr ⟨h.rising, List.pairwise_singleton _ _,
      fun held hm last hlast => ?_⟩
    rw [List.mem_singleton.mp hlast]
    exact hbelow held hm
  have hnext : ∀ held ∈ stored.retained ++ [fact], held.seq < fact.seq + 1 := by
    intro held hm
    rcases List.mem_append.mp hm with hold | hnew
    · exact Nat.lt_succ_of_lt (hbelow held hold)
    · rw [List.mem_singleton.mp hnew]
      exact Nat.lt_succ_self _
  have hsingle : (stored.retained ++ [fact]).Pairwise fun a b =>
      a.isLatest = true → a.type ≠ b.type := by
    refine List.pairwise_append.mpr ⟨h.single, List.pairwise_singleton _ _,
      fun held hm last hlast hheld he => ?_⟩
    rw [List.mem_singleton.mp hlast] at he
    have hfact : fact.isLatest = held.isLatest := by
      unfold JournalFact.isLatest
      rw [he]
    exact hl' (hfact.trans hheld)
  cases hrun : fact.isRunStarted with
  | true =>
    have hanchor : (foldStateEvent stored fact).anchor = some fact.seq := if_pos hrun
    have hjournal : foldJournalView view fact
        = ⟨some fact.seq,
            view.retained.filter (fun held => held.isState || held.isLatest) ++ [fact]⟩ := by
      unfold foldJournalView
      dsimp only
      rw [if_pos hrun, if_neg hl', if_pos]
      · rfl
      · exact Bool.or_eq_true_iff.mpr (.inr rfl)
    refine ⟨?_, ?_, ?_, ?_, fun seq hs => ?_, ?_⟩
    · rw [hjournal, hanchor]
    · rw [hjournal, hstate, hanchor, h.retained, List.filter_append, List.filter_filter]
      have hkeep : (fact.isLatest || fact.keeps (some fact.seq)) = true := by
        unfold JournalFact.keeps
        simp [hl]
      rw [List.filter_singleton, hkeep]
      refine congrArg (· ++ [fact]) (List.filter_congr fun held hm => ?_)
      have hlt : decide (fact.seq ≤ held.seq) = false :=
        decide_eq_false (Nat.not_le.mpr (hbelow held hm))
      unfold JournalFact.keeps
      rw [Option.any_some, hlt, Bool.and_false, Bool.or_false]
      cases held.isState <;> cases held.isLatest <;> simp
    · rw [hstate]
      exact hrising
    · rw [hstate]
      exact hnext
    · rw [hanchor] at hs
      rw [← Option.some.inj hs]
      exact Nat.lt_succ_self _
    · rw [hstate]
      exact hsingle
  | false =>
    have hrun' : ¬fact.isRunStarted = true := by rw [hrun]; exact Bool.false_ne_true
    have hanchor : (foldStateEvent stored fact).anchor = stored.anchor := if_neg hrun'
    have hkeep : (fact.isLatest || fact.keeps stored.anchor)
        = (fact.isState || stored.anchor.isSome) := by
      unfold JournalFact.keeps
      rw [hl]
      cases ha : stored.anchor with
      | none => simp
      | some seq =>
        have hle : decide (seq ≤ fact.seq) = true :=
          decide_eq_true ((h.anchorBelow seq ha).le.trans hb)
        simp [hle]
    have hjournal : foldJournalView view fact
        = ⟨view.anchor, view.retained ++ [fact].filter fun fact =>
            fact.isLatest || fact.keeps stored.anchor⟩ := by
      unfold foldJournalView
      dsimp only
      rw [if_neg hrun', if_neg hl', h.anchor, List.filter_singleton, hkeep]
      cases (fact.isState || stored.anchor.isSome) with
      | true => rw [if_pos rfl, Bool.cond_true]
      | false =>
        rw [if_neg Bool.false_ne_true, Bool.cond_false, List.append_nil, ← h.anchor]
    refine ⟨?_, ?_, ?_, ?_, fun seq hs => ?_, ?_⟩
    · rw [hjournal, hanchor]
      exact h.anchor
    · rw [hjournal, hstate, hanchor, List.filter_append, h.retained]
    · rw [hstate]
      exact hrising
    · rw [hstate]
      exact hnext
    · rw [hanchor] at hs
      exact Nat.lt_succ_of_lt (Nat.lt_of_lt_of_le (h.anchorBelow seq hs) hb)
    · rw [hstate]
      exact hsingle

/-- Where no two latest-only facts share a type, all of them are the newest. -/
theorem entries_latestFacts :
    ∀ (retained : List (JournalFact π)) (latest : JsMap String (JournalFact π)),
      retained.Pairwise (fun a b => a.isLatest = true → a.type ≠ b.type) →
      (∀ fact ∈ retained, fact.isLatest = true → ⟨fact.type⟩ ∉ latest.keys) →
      (retained.foldl
        (fun latest fact =>
          if fact.isLatest && (latest.get? ⟨fact.type⟩).all fun held => held.seq < fact.seq
          then latest.set ⟨fact.type⟩ fact else latest) latest).entries
        = latest.entries ++ (retained.filter (·.isLatest)).map fun fact => (⟨fact.type⟩, fact)
  | [], latest, _, _ => (List.append_nil _).symm
  | fact :: rest, latest, hsingle, hnew => by
    obtain ⟨hfirst, hrest⟩ := List.pairwise_cons.mp hsingle
    rw [List.foldl_cons]
    cases hl : fact.isLatest with
    | false =>
      rw [Bool.false_and, if_neg Bool.false_ne_true,
        entries_latestFacts rest latest hrest fun other hm =>
          hnew other (List.mem_cons_of_mem _ hm),
        List.filter_cons_of_neg (by rw [hl]; exact Bool.false_ne_true)]
    | true =>
      have hkey := hnew fact List.mem_cons_self hl
      have hnone : latest.get? ⟨fact.type⟩ = none := get?_eq_none.mpr hkey
      rw [Bool.true_and, hnone, Option.all_none, if_pos rfl,
        entries_latestFacts rest _ hrest fun other hm hother => ?_,
        entries_set_of_not_mem hkey rfl, List.filter_cons_of_pos hl, List.map_cons,
        List.append_assoc, List.singleton_append]
      rw [mem_keys_set]
      rintro (he | hold)
      · exact hfirst other hm hl (congrArg MapKey.key he).symm
      · exact hnew other (List.mem_cons_of_mem _ hm) hother hold

theorem values_latestFacts {retained : List (JournalFact π)}
    (h : retained.Pairwise fun a b => a.isLatest = true → a.type ≠ b.type) :
    (latestFacts retained).values = retained.filter (·.isLatest) := by
  have hentries := entries_latestFacts retained ∅ h fun fact _ _ => List.not_mem_nil
  unfold ObjectMap.values latestFacts
  rw [hentries, List.map_append, List.map_map]
  exact List.map_id _

/-- **What the view holds is what the read selects.** -/
theorem ViewTracks.finish (h : ViewTracks stored view bound) :
    view.retained = finishStateEvents stored := by
  have hperm : (stored.retained.filter (·.keeps stored.anchor)
      ++ (latestFacts stored.retained).values).Perm
        (stored.retained.filter fun fact => fact.isLatest || fact.keeps stored.anchor) := by
    have hsplit := List.filter_append_perm (fun fact => fact.keeps stored.anchor)
      (stored.retained.filter fun fact => fact.isLatest || fact.keeps stored.anchor)
    rw [List.filter_filter, List.filter_filter] at hsplit
    rw [values_latestFacts h.single]
    have hkept : stored.retained.filter (fun fact => fact.keeps stored.anchor &&
        (fact.isLatest || fact.keeps stored.anchor))
          = stored.retained.filter (·.keeps stored.anchor) :=
      List.filter_congr fun fact _ => by
        cases fact.keeps stored.anchor <;> simp
    have hlatest : stored.retained.filter (fun fact => !fact.keeps stored.anchor &&
        (fact.isLatest || fact.keeps stored.anchor)) = stored.retained.filter (·.isLatest) := by
      refine List.filter_congr fun fact _ => ?_
      cases hl : fact.isLatest with
      | true =>
        have hs := not_isState_of_isLatest hl
        unfold JournalFact.keeps
        simp [hl, hs]
      | false => cases fact.keeps stored.anchor <;> simp
    rwa [hkept, hlatest] at hsplit
  have hsorted : (stored.retained.filter fun fact =>
      fact.isLatest || fact.keeps stored.anchor).Pairwise fun a b => a.seq < b.seq :=
    h.rising.sublist List.filter_sublist
  have hinj : ∀ a ∈ stored.retained.filter (fun fact => fact.isLatest || fact.keeps stored.anchor),
      ∀ b ∈ stored.retained.filter (fun fact => fact.isLatest || fact.keeps stored.anchor),
      a.seq ≤ b.seq → b.seq ≤ a.seq → a = b := by
    intro a ha b hb hab hba
    have hseqs : ((stored.retained.filter fun fact =>
        fact.isLatest || fact.keeps stored.anchor).map (·.seq)).Nodup :=
      (List.pairwise_map.mpr hsorted).imp fun hlt => Nat.ne_of_lt hlt
    exact List.inj_on_of_nodup_map hseqs ha hb (Nat.le_antisymm hab hba)
  unfold finishStateEvents
  rw [h.retained, insertionSort_eq_of_perm hperm fun a ha b hb =>
    hinj a (hperm.mem_iff.mp ha) b (hperm.mem_iff.mp hb)]
  exact ((hsorted.imp fun hlt => Nat.le_of_lt hlt).insertionSort_eq).symm

/-! ## 4. Journals -/

theorem ViewTracks.fold :
    ∀ (events : List (JournalFact π)) {stored view : JournalAcc π} {bound : Nat},
      ViewTracks stored view bound → events.Pairwise (fun a b => a.seq < b.seq) →
      (∀ fact ∈ events, bound ≤ fact.seq) →
      ∃ next, ViewTracks (events.foldl foldStateEvent stored) (events.foldl foldJournalView view)
        next
  | [], _, _, bound, h, _, _ => ⟨bound, h⟩
  | fact :: rest, stored, view, bound, h, hrising, hbound => by
    obtain ⟨hfirst, hrest⟩ := List.pairwise_cons.mp hrising
    have hb := hbound fact List.mem_cons_self
    have hnext : ViewTracks (foldStateEvent stored fact) (foldJournalView view fact)
        (fact.seq + 1) := by
      cases hl : fact.isLatest with
      | true => exact h.latest hb hl
      | false => exact h.ordinary hb hl
    exact ViewTracks.fold rest hnext hrest fun other hm => hfirst other hm

theorem advanceJournalView_flatten (pieces : List (List (JournalFact π))) (acc : JournalAcc π) :
    pieces.foldl advanceJournalView acc
      = (filterKnownEvents pieces.flatten).foldl foldJournalView acc := by
  induction pieces generalizing acc with
  | nil => rfl
  | cons piece rest ih =>
    rw [List.foldl_cons, ih, List.flatten_cons]
    unfold filterKnownEvents advanceJournalView
    rw [List.filter_append, List.foldl_append]
    rfl

/-- **The view of a journal folded in any pieces is the bounded read of the whole.** -/
theorem journalView_eq_project (pieces : List (List (JournalFact π)))
    (hrising : pieces.flatten.Pairwise fun a b => a.seq < b.seq) :
    (pieces.foldl advanceJournalView {}).retained = projectRepositoryStateEvents
      pieces.flatten := by
  have hinitial : ViewTracks ({} : JournalAcc π) {} 0 :=
    ⟨rfl, rfl, List.Pairwise.nil, nofun, nofun, List.Pairwise.nil⟩
  obtain ⟨next, htracks⟩ := ViewTracks.fold (filterKnownEvents pieces.flatten) hinitial
    (hrising.sublist List.filter_sublist) fun _ _ => Nat.zero_le _
  rw [advanceJournalView_flatten]
  exact htracks.finish

end

/-- Two runs, with a scan and a harvest before the second. -/
theorem journalView_eq_project_runs :
    (List.foldl advanceJournalView {}
      [[⟨1, "dispatcher.run-started", ()⟩, ⟨2, "dispatcher.ticket-scan-completed", ()⟩,
        ⟨3, "harvest.started", ()⟩],
       [⟨4, "dispatcher.tick-started", ()⟩, ⟨5, "dispatcher.run-started", ()⟩]]).retained
      = projectRepositoryStateEvents
        [⟨1, "dispatcher.run-started", ()⟩, ⟨2, "dispatcher.ticket-scan-completed", ()⟩,
          ⟨3, "harvest.started", ()⟩, ⟨4, "dispatcher.tick-started", ()⟩,
          ⟨5, "dispatcher.run-started", ()⟩] :=
  journalView_eq_project
    [[⟨1, "dispatcher.run-started", ()⟩, ⟨2, "dispatcher.ticket-scan-completed", ()⟩,
      ⟨3, "harvest.started", ()⟩],
     [⟨4, "dispatcher.tick-started", ()⟩, ⟨5, "dispatcher.run-started", ()⟩]]
    (by decide)

end Autobuild
