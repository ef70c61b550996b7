/-
# What the read deferrals of a log say

The rules that a session's own failed reads follow, over every log in which a session is started
once:

* `Remembers`: the invariant of the fold.  What it remembers of a session is what the log says since
  the session's start, and its items have evidence and session of their own.
* `Evolves`: what one event can make of a pending item.  Ended and settled stay, and a recovery
  names the failure it is of.
* `Linked`: a continuation of a session that is still open.  The fold forgets the session that is
  continued, so that a chain has one item (`one_item_of_chain`).

A session whose item has ended is not inherited from: its continuation may hold an item beside it
(`chain_holds_two`).
-/
import Mathlib.Data.List.Induction
import Mathlib.Logic.Relation
import Autobuild.Kernel.ReadDeferrals

namespace Autobuild

open ObjectMap

/-! ## 1. Sessions in a log -/

def startOf (event : AbEvent) : Option SessionStarted :=
  match event.body with
  | .session (.started payload) => some payload
  | _ => none

def startedId (event : AbEvent) : Option String := (startOf event).map (·.session)

def endOf (event : AbEvent) : Option String :=
  match event.body with
  | .session (.ended payload) => some payload.session
  | _ => none

def failedReadOf (event : AbEvent) : Option SessionBuildReadFailed :=
  match event.body with
  | .session (.buildReadFailed payload) => some payload
  | _ => none

def recoveredReadOf (event : AbEvent) : Option SessionBuildReadRecovered :=
  match event.body with
  | .session (.buildReadRecovered payload) => some payload
  | _ => none

def deferralEscalatedOf (event : AbEvent) : Option PhaseDeferralEscalated :=
  match event.body with
  | .phase (.deferralEscalated payload) => some payload
  | _ => none

/-- The session is started with the phase and round, and `since` is what follows. -/
def StartedSince (events : List AbEvent) (session : String) (phase : Phase) (round : Nat)
    (since : List AbEvent) : Prop :=
  ∃ before start payload, events = before ++ start :: since ∧ startOf start = some payload ∧
    payload.session = session ∧ payload.phase = phase ∧ payload.round.getD 1 = round

def EndedIn (since : List AbEvent) (session : String) : Prop :=
  ∃ event ∈ since, endOf event = some session

/-- The event is the terminal one of the phase and round, by the kernel or the session, or a
boundary of the session itself. -/
def Finishes (event : AbEvent) (session : String) (phase : Phase) (round : Nat) : Prop :=
  finishesSession event session ⟨phase, round, false, false⟩ = true

/-- Session `t` continues `s`, in its phase and round and before it ends. -/
def Linked (events : List AbEvent) (s t : String) : Prop :=
  ∃ before start after payload continuation since, events = before ++ start :: after ∧
    startOf start = some payload ∧ payload.session = t ∧
      payload.continuation = some continuation ∧ continuation.predecessor = s ∧
        StartedSince before s payload.phase (payload.round.getD 1) since ∧ ¬EndedIn since s

/-- Where a list has a key once, it splits at it in one way. -/
theorem split_unique {α κ : Type} {f : α → Option κ} {k : κ} {x x' : α} {after after' : List α} :
    ∀ {before before' : List α}, ((before ++ x :: after).filterMap f).Nodup →
      before ++ x :: after = before' ++ x' :: after' → f x = some k → f x' = some k →
        x = x' ∧ after = after' := by
  intro before
  induction before with
  | nil =>
    intro before' hnodup hsplit hx hx'
    cases before' with
    | nil =>
      simp only [List.nil_append, List.cons.injEq] at hsplit
      exact hsplit
    | cons y before' =>
      simp only [List.nil_append, List.cons_append, List.cons.injEq] at hsplit
      obtain ⟨rfl, rfl⟩ := hsplit
      rw [List.nil_append, List.filterMap_cons_some hx, List.nodup_cons] at hnodup
      exact absurd (List.mem_filterMap.mpr ⟨x', by simp, hx'⟩) hnodup.1
  | cons y before ih =>
    intro before' hnodup hsplit hx hx'
    have htail : ((before ++ x :: after).filterMap f).Nodup :=
      hnodup.sublist ((List.sublist_cons_self _ _).filterMap f)
    cases before' with
    | nil =>
      simp only [List.nil_append, List.cons_append, List.cons.injEq] at hsplit
      obtain ⟨rfl, rfl⟩ := hsplit
      rw [List.cons_append, List.filterMap_cons_some hx', List.nodup_cons] at hnodup
      exact absurd (List.mem_filterMap.mpr ⟨x, by simp, hx⟩) hnodup.1
    | cons y' before' =>
      simp only [List.cons_append, List.cons.injEq] at hsplit
      exact ih htail hsplit.2 hx hx'

theorem StartedSince.mem {events : List AbEvent} {session : String} {phase : Phase} {round : Nat}
    {since : List AbEvent} (h : StartedSince events session phase round since) :
    session ∈ events.filterMap startedId := by
  obtain ⟨before, start, payload, rfl, hstart, rfl, -, -⟩ := h
  exact List.mem_filterMap.mpr ⟨start, by simp, by simp [startedId, hstart]⟩

theorem StartedSince.append {events : List AbEvent} {session : String} {phase : Phase} {round : Nat}
    {since : List AbEvent} (h : StartedSince events session phase round since) (event : AbEvent) :
    StartedSince (events ++ [event]) session phase round (since ++ [event]) := by
  obtain ⟨before, start, payload, rfl, hstart⟩ := h
  exact ⟨before, start, payload, by simp, hstart⟩

theorem StartedSince.unique {events : List AbEvent} (hnodup : (events.filterMap startedId).Nodup)
    {session : String} {phase phase' : Phase} {round round' : Nat} {since since' : List AbEvent}
    (h : StartedSince events session phase round since)
    (h' : StartedSince events session phase' round' since') :
    phase = phase' ∧ round = round' ∧ since = since' := by
  obtain ⟨before, start, payload, rfl, hstart, rfl, rfl, rfl⟩ := h
  obtain ⟨before', start', payload', hsplit, hstart', hsession, rfl, rfl⟩ := h'
  obtain ⟨rfl, rfl⟩ := split_unique hnodup hsplit (k := payload.session)
    (by simp [startedId, hstart]) (by simp [startedId, hstart', hsession])
  rw [hstart] at hstart'
  obtain rfl := Option.some.inj hstart'
  exact ⟨rfl, rfl, rfl⟩

theorem linked_append {events : List AbEvent} {event : AbEvent} {s t : String}
    (h : Linked (events ++ [event]) s t) :
    Linked events s t ∨ ∃ payload continuation since, startOf event = some payload ∧
      payload.session = t ∧ payload.continuation = some continuation ∧
        continuation.predecessor = s ∧
          StartedSince events s payload.phase (payload.round.getD 1) since ∧ ¬EndedIn since s := by
  obtain ⟨before, start, after, payload, continuation, since, hsplit, hstart, ht, hcontinuation, hs,
    hsince, hopen⟩ := h
  rcases List.eq_nil_or_concat after with rfl | ⟨front, last, rfl⟩
  · obtain ⟨rfl, hlast⟩ := List.append_inj' hsplit rfl
    cases hlast
    exact .inr ⟨payload, continuation, since, hstart, ht, hcontinuation, hs, hsince, hopen⟩
  · rw [List.concat_eq_append, ← List.cons_append, ← List.append_assoc] at hsplit
    obtain ⟨hevents, -⟩ := List.append_inj' hsplit rfl
    exact .inl ⟨before, start, front, payload, continuation, since, hevents, hstart, ht,
      hcontinuation, hs, hsince, hopen⟩

theorem Linked.started {events : List AbEvent} {s t : String} (h : Linked events s t) :
    s ∈ events.filterMap startedId := by
  obtain ⟨before, start, after, payload, -, since, rfl, -, -, -, -, hsince, -⟩ := h
  rw [List.filterMap_append]
  exact List.mem_append_left _ hsince.mem

/-! ## 2. What the fold remembers -/

structure Remembers (events : List AbEvent) (acc : ReadDeferralsAcc) : Prop where
  entry : ∀ s entry, acc.sessions.get? s = some entry →
    ∃ since, StartedSince events s entry.phase entry.round since ∧
      (entry.ended = true ↔ EndedIn since s) ∧
        (entry.ended = false → entry.terminal = false →
          ∀ event ∈ since, ¬Finishes event s entry.phase entry.round)
  item : ∀ item ∈ acc.pending, ∃ entry, acc.sessions.get? item.session = some entry ∧
    entry.phase = item.phase ∧ entry.round = item.round ∧ entry.ended = item.ended
  evidence : (acc.pending.map ReadDeferral.evidenceSeq).Nodup
  session : (acc.pending.map ReadDeferral.session).Nodup
  known : ∀ item ∈ acc.pending, ∃ event ∈ events, event.seq = item.evidenceSeq
  link : ∀ s t, Linked events s t → acc.sessions.get? s = none

theorem remembers_nil : Remembers [] initialReadDeferrals where
  entry _ _ h := nomatch h
  item _ h := absurd h List.not_mem_nil
  evidence := List.nodup_nil
  session := List.nodup_nil
  known _ h := absurd h List.not_mem_nil
  link _ _ h := absurd h.started List.not_mem_nil

/-- The key of an item, which most events leave. -/
def ReadDeferral.key (item : ReadDeferral) : Nat × String × Phase × Nat × Bool :=
  (item.evidenceSeq, item.session, item.phase, item.round, item.ended)

/-- The items are rewritten with their keys, and the sessions stay. -/
theorem Remembers.of_keys {events : List AbEvent} {acc acc' : ReadDeferralsAcc}
    (h : Remembers events acc) (hsessions : acc'.sessions = acc.sessions)
    (hkeys : acc'.pending.map ReadDeferral.key = acc.pending.map ReadDeferral.key) :
    Remembers events acc' := by
  have hold : ∀ item' ∈ acc'.pending, ∃ item ∈ acc.pending, item'.key = item.key := by
    intro item' hitem'
    have hmem := List.mem_map_of_mem (f := ReadDeferral.key) hitem'
    rw [hkeys] at hmem
    obtain ⟨item, hitem, hkey⟩ := List.mem_map.mp hmem
    exact ⟨item, hitem, hkey.symm⟩
  have hevidence : acc'.pending.map ReadDeferral.evidenceSeq =
      acc.pending.map ReadDeferral.evidenceSeq := by
    have hfst := congrArg (List.map Prod.fst) hkeys
    rwa [List.map_map, List.map_map] at hfst
  have hsession : acc'.pending.map ReadDeferral.session =
      acc.pending.map ReadDeferral.session := by
    have hsnd := congrArg (List.map fun key => key.2.1) hkeys
    rwa [List.map_map, List.map_map] at hsnd
  refine ⟨hsessions ▸ h.entry, ?_, hevidence ▸ h.evidence, hsession ▸ h.session, ?_,
    hsessions ▸ h.link⟩
  · intro item' hitem'
    obtain ⟨item, hitem, hkey⟩ := hold item' hitem'
    simp only [ReadDeferral.key, Prod.mk.injEq] at hkey
    obtain ⟨entry, hentry, hphase, hround, hended⟩ := h.item item hitem
    exact ⟨entry, by rw [hsessions, hkey.2.1, hentry], by rw [hphase, hkey.2.2.1],
      by rw [hround, hkey.2.2.2.1], by rw [hended, hkey.2.2.2.2]⟩
  · intro item' hitem'
    obtain ⟨item, hitem, hkey⟩ := hold item' hitem'
    simp only [ReadDeferral.key, Prod.mk.injEq] at hkey
    rw [hkey.1]
    exact h.known item hitem

/-- Items are dropped, and with them only sessions that no item is left of. -/
theorem Remembers.of_filter {events : List AbEvent} {acc acc' : ReadDeferralsAcc}
    (h : Remembers events acc) {keeps : ReadDeferral → Bool}
    (hpending : acc'.pending = acc.pending.filter keeps)
    (hsessions : ∀ s, acc'.sessions.get? s = none ∨ acc'.sessions.get? s = acc.sessions.get? s)
    (hkept : ∀ item ∈ acc'.pending,
      acc'.sessions.get? item.session = acc.sessions.get? item.session) :
    Remembers events acc' := by
  have hsub : acc'.pending.Sublist acc.pending := hpending ▸ List.filter_sublist
  refine ⟨?_, ?_, h.evidence.sublist (hsub.map _), h.session.sublist (hsub.map _),
    fun item hitem => h.known item (hsub.subset hitem), ?_⟩
  · intro s entry hentry
    rcases hsessions s with hnone | hsame
    · rw [hnone] at hentry
      cases hentry
    · exact h.entry s entry (hsame ▸ hentry)
  · intro item hitem
    obtain ⟨entry, hentry⟩ := h.item item (hsub.subset hitem)
    exact ⟨entry, (hkept item hitem).trans hentry.1, hentry.2⟩
  · intro s t hlink
    rcases hsessions s with hnone | hsame
    · exact hnone
    · exact hsame.trans (h.link s t hlink)

/-! ## 3. What an event does to what is remembered -/

section Remembers

variable {events : List AbEvent} {acc : ReadDeferralsAcc} {event : AbEvent}

theorem startOf_eq_some {payload : SessionStarted} :
    startOf event = some payload ↔ event.body = .session (.started payload) := by
  rw [startOf]
  split <;> simp_all

theorem endOf_eq_some {s : String} :
    endOf event = some s ↔ ∃ payload, event.body = .session (.ended payload) ∧
      payload.session = s := by
  rw [endOf]
  split <;> simp_all

theorem failedReadOf_eq_some {payload : SessionBuildReadFailed} :
    failedReadOf event = some payload ↔ event.body = .session (.buildReadFailed payload) := by
  rw [failedReadOf]
  split <;> simp_all

theorem deferralEscalatedOf_eq_some {payload : PhaseDeferralEscalated} :
    deferralEscalatedOf event = some payload ↔
      event.body = .phase (.deferralEscalated payload) := by
  rw [deferralEscalatedOf]
  split <;> simp_all

/-- No session event finishes a session. -/
theorem finishesSession_of_session {body : SessionEvent} (h : event.body = .session body)
    (id : String) (session : DeferralSession) : finishesSession event id session = false := by
  simp [finishesSession, h, completesSession, isAgentBoundary]

theorem finishesSession_of_phase {body : PhaseEvent} (h : event.body = .phase body)
    (id : String) (session : DeferralSession) : finishesSession event id session = false := by
  simp [finishesSession, h, completesSession, isAgentBoundary]

theorem finishesSession_of_start {payload : SessionStarted} (h : startOf event = some payload)
    (id : String) (session : DeferralSession) : finishesSession event id session = false :=
  finishesSession_of_session (startOf_eq_some.mp h) id session

theorem finishesSession_of_end {s : String} (h : endOf event = some s) (id : String)
    (session : DeferralSession) : finishesSession event id session = false := by
  obtain ⟨payload, hbody, -⟩ := endOf_eq_some.mp h
  exact finishesSession_of_session hbody id session

theorem EndedIn.append_iff {since : List AbEvent} {s : String} :
    EndedIn (since ++ [event]) s ↔ EndedIn since s ∨ endOf event = some s := by
  simp [EndedIn, or_and_right, exists_or]

/-- What is remembered of a session after an event that neither starts nor ends it, if its mark
follows whether the event finishes it. -/
theorem Remembers.entry_append (h : Remembers events acc) {s : String} {entry : DeferralSession}
    (hentry : acc.sessions.get? s = some entry) (hend : endOf event ≠ some s) {terminal : Bool}
    (hterminal : terminal = (entry.terminal || finishesSession event s entry)) :
    ∃ since, StartedSince (events ++ [event]) s entry.phase entry.round since ∧
      (entry.ended = true ↔ EndedIn since s) ∧
        (entry.ended = false → terminal = false →
          ∀ other ∈ since, ¬Finishes other s entry.phase entry.round) := by
  obtain ⟨since, hsince, hended, hfinishes⟩ := h.entry s entry hentry
  refine ⟨since ++ [event], hsince.append event, ?_, ?_⟩
  · rw [EndedIn.append_iff, hended]
    exact ⟨.inl, fun hor => hor.resolve_right hend⟩
  · intro hopen hmark other hother
    rw [hterminal, Bool.or_eq_false_iff] at hmark
    rcases List.mem_append.mp hother with hold | hnew
    · exact hfinishes hopen hmark.1 other hold
    · obtain rfl := List.mem_singleton.mp hnew
      intro hfinish
      have hsame : finishesSession other s entry =
          finishesSession other s ⟨entry.phase, entry.round, false, false⟩ := by
        simp only [finishesSession, hopen]
        rfl
      rw [Finishes, ← hsame, hmark.2] at hfinish
      cases hfinish

/-- What is remembered of a session that the log has open. -/
theorem Remembers.entry_open (h : Remembers events acc)
    (hnodup : (events.filterMap startedId).Nodup) {s : String} {entry : DeferralSession}
    (hentry : acc.sessions.get? s = some entry) {phase : Phase} {round : Nat}
    {since : List AbEvent} (hsince : StartedSince events s phase round since)
    (hopen : ¬EndedIn since s) :
    entry.phase = phase ∧ entry.round = round ∧ entry.ended = false := by
  obtain ⟨since', hsince', hended, -⟩ := h.entry s entry hentry
  obtain ⟨rfl, rfl, rfl⟩ := hsince.unique hnodup hsince'
  refine ⟨rfl, rfl, ?_⟩
  cases hcase : entry.ended with
  | false => rfl
  | true => exact absurd (hended.mp hcase) hopen

/-- An event that neither starts nor ends a session. -/
theorem Remembers.finish (h : Remembers events acc) (hstart : startOf event = none)
    (hend : endOf event = none) : Remembers (events ++ [event]) (finishSessions acc event) := by
  have hget : ∀ s, (finishSessions acc event).sessions.get? s =
      (acc.sessions.get? s).map fun entry =>
        { entry with terminal := entry.terminal || finishesSession event s entry } :=
    fun s => get?_mapValues _ _ _
  have hsub : (finishSessions acc event).pending.Sublist acc.pending := List.filter_sublist
  refine ⟨?_, ?_, h.evidence.sublist (hsub.map _), h.session.sublist (hsub.map _), ?_, ?_⟩
  · intro s entry' hentry'
    rw [hget, Option.map_eq_some_iff] at hentry'
    obtain ⟨entry, hentry, rfl⟩ := hentry'
    exact h.entry_append hentry (by simp [hend]) rfl
  · intro item hitem
    obtain ⟨entry, hentry, hphase, hround, hended⟩ := h.item item (hsub.subset hitem)
    exact ⟨{ entry with terminal := entry.terminal || finishesSession event item.session entry },
      by rw [hget, hentry, Option.map_some], hphase, hround, hended⟩
  · intro item hitem
    obtain ⟨other, hother, hseq⟩ := h.known item (hsub.subset hitem)
    exact ⟨other, List.mem_append_left _ hother, hseq⟩
  · intro s t hlink
    rcases linked_append hlink with hold | ⟨payload, -, -, hpayload, -⟩
    · rw [hget, h.link s t hold, Option.map_none]
    · rw [hstart] at hpayload
      cases hpayload

/-- The sessions once one ended: it stays while something of it is pending. -/
theorem sessions_endDeferralSession (acc : ReadDeferralsAcc) (s : String) :
    (endDeferralSession acc s).sessions =
      if acc.pending.any (fun item => item.session = s) then
        (acc.sessions.get? s).elim acc.sessions fun entry =>
          acc.sessions.set s { entry with ended := true }
      else ((acc.sessions.get? s).elim acc.sessions fun entry =>
        acc.sessions.set s { entry with ended := true }).erase s := by
  unfold endDeferralSession
  cases acc.sessions.get? s <;> rfl

/-- A session ends. -/
theorem Remembers.ended (h : Remembers events acc) {s : String} (hend : endOf event = some s) :
    Remembers (events ++ [event]) (endDeferralSession acc s) := by
  have hstart : startOf event = none := by
    obtain ⟨payload, hbody, -⟩ := endOf_eq_some.mp hend
    rw [startOf, hbody]
  -- What is remembered of a session that is still there.
  have hget : ∀ j entry', (endDeferralSession acc s).sessions.get? j = some entry' →
      ∃ entry, acc.sessions.get? j = some entry ∧
        entry' = if j = s then { entry with ended := true } else entry := by
    intro j entry' hentry'
    have hset : ∀ j found, ((acc.sessions.get? s).elim acc.sessions fun entry =>
          acc.sessions.set s { entry with ended := true }).get? j = some found →
        ∃ entry, acc.sessions.get? j = some entry ∧
          found = if j = s then { entry with ended := true } else entry := by
      intro j found hfound
      cases hs : acc.sessions.get? s with
      | none =>
        rw [hs, Option.elim_none] at hfound
        have hne : j ≠ s := by
          rintro rfl
          rw [hs] at hfound
          cases hfound
        exact ⟨found, hfound, (if_neg hne).symm⟩
      | some entry =>
        rw [hs, Option.elim_some, get?_set] at hfound
        split at hfound
        next hsame =>
          subst hsame
          exact ⟨entry, hs, by rw [if_pos rfl]; exact (Option.some.inj hfound).symm⟩
        next hne => exact ⟨found, hfound, (if_neg hne).symm⟩
    rw [sessions_endDeferralSession] at hentry'
    split at hentry'
    · exact hset j entry' hentry'
    · rw [get?_erase] at hentry'
      split at hentry'
      · cases hentry'
      · exact hset j entry' hentry'
  have hmap : (endDeferralSession acc s).pending = acc.pending.map fun item =>
      if item.session = s then { item with ended := true } else item := rfl
  have hevidence : ((endDeferralSession acc s).pending.map ReadDeferral.evidenceSeq) =
      acc.pending.map ReadDeferral.evidenceSeq := by
    rw [hmap, List.map_map]
    refine List.map_congr_left fun item _ => ?_
    simp only [Function.comp_apply]
    split <;> rfl
  have hsession : ((endDeferralSession acc s).pending.map ReadDeferral.session) =
      acc.pending.map ReadDeferral.session := by
    rw [hmap, List.map_map]
    refine List.map_congr_left fun item _ => ?_
    simp only [Function.comp_apply]
    split <;> rfl
  refine ⟨?_, ?_, hevidence ▸ h.evidence, hsession ▸ h.session, ?_, ?_⟩
  · intro j entry' hentry'
    obtain ⟨entry, hentry, rfl⟩ := hget j entry' hentry'
    by_cases hsame : j = s
    · subst hsame
      rw [if_pos rfl]
      obtain ⟨since, hsince, -, -⟩ := h.entry j entry hentry
      exact ⟨since ++ [event], hsince.append event,
        iff_of_true rfl (EndedIn.append_iff.mpr (.inr hend)),
        fun hopen => absurd hopen.symm Bool.false_ne_true⟩
    · rw [if_neg hsame]
      refine h.entry_append hentry (fun hother => hsame ?_) ?_
      · exact (Option.some.inj (hend.symm.trans hother)).symm
      · rw [finishesSession_of_end hend, Bool.or_false]
  · intro item' hitem'
    rw [hmap] at hitem'
    obtain ⟨item, hitem, rfl⟩ := List.mem_map.mp hitem'
    obtain ⟨entry, hentry, hphase, hround, hended⟩ := h.item item hitem
    by_cases hsame : item.session = s
    · rw [if_pos hsame]
      have hany : acc.pending.any (fun item => item.session = s) = true :=
        List.any_eq_true.mpr ⟨item, hitem, decide_eq_true hsame⟩
      refine ⟨{ entry with ended := true }, ?_, hphase, hround, rfl⟩
      rw [hsame] at hentry
      simp only [endDeferralSession, if_pos hany, hentry, hsame, get?_set_self]
    · rw [if_neg hsame]
      refine ⟨entry, ?_, hphase, hround, hended⟩
      have hset : ((acc.sessions.get? s).elim acc.sessions fun entry =>
          acc.sessions.set s { entry with ended := true }).get? item.session = some entry := by
        cases acc.sessions.get? s with
        | none => exact hentry
        | some other => rw [Option.elim_some, get?_set_ne _ _ hsame, hentry]
      rw [sessions_endDeferralSession]
      split
      · exact hset
      · rw [get?_erase, if_neg hsame]
        exact hset
  · intro item' hitem'
    rw [hmap] at hitem'
    obtain ⟨item, hitem, rfl⟩ := List.mem_map.mp hitem'
    obtain ⟨other, hother, hseq⟩ := h.known item hitem
    refine ⟨other, List.mem_append_left _ hother, ?_⟩
    split <;> exact hseq
  · intro j t hlink
    rcases linked_append hlink with hold | ⟨payload, -, -, hpayload, -⟩
    · refine Option.eq_none_iff_forall_not_mem.mpr fun entry' hentry' => ?_
      obtain ⟨entry, hentry, -⟩ := hget j entry' hentry'
      rw [h.link j t hold] at hentry
      cases hentry
    · rw [hstart] at hpayload
      cases hpayload

/-- The items a continuation takes over. -/
def inherits (payload : SessionStarted) (predecessor : String) (item : ReadDeferral) : Prop :=
  item.session = predecessor ∧ item.ended = false ∧ item.phase = payload.phase ∧
    item.round = payload.round.getD 1

instance (payload : SessionStarted) (predecessor : String) (item : ReadDeferral) :
    Decidable (inherits payload predecessor item) :=
  inferInstanceAs (Decidable (_ ∧ _ ∧ _ ∧ _))

/-- The items after a start. -/
def inherited (payload : SessionStarted) (predecessor : String) (item : ReadDeferral) :
    ReadDeferral :=
  if inherits payload predecessor item then { item with session := payload.session } else item

theorem startDeferralSession_pending (payload : SessionStarted) :
    (startDeferralSession acc payload).pending =
      match payload.continuation with
      | none => acc.pending
      | some continuation => acc.pending.map (inherited payload continuation.predecessor) := by
  rw [startDeferralSession, pending_setDeferralSession]
  cases payload.continuation <;> rfl

theorem get?_startDeferralSession {payload : SessionStarted}
    (hname : payload.session ≠ "__proto__") (s : String) :
    (startDeferralSession acc payload).sessions.get? s =
      if s = payload.session then some ⟨payload.phase, payload.round.getD 1, false, false⟩
      else
        match payload.continuation with
        | none => acc.sessions.get? s
        | some continuation =>
          if s = continuation.predecessor ∧
              ¬(acc.pending.map (inherited payload continuation.predecessor)).any
                (fun item => item.session = continuation.predecessor) = true then none
          else acc.sessions.get? s := by
  rw [startDeferralSession, setDeferralSession_of_ne hname]
  cases payload.continuation with
  | none => rw [get?_set]
  | some continuation =>
    simp only [get?_set, continueDeferral]
    split
    · rfl
    · split
      next hany =>
        rw [if_neg (fun hnot => hnot.2 hany)]
      next hany =>
        rw [get?_erase]
        by_cases hs : s = continuation.predecessor
        · rw [if_pos hs, if_pos ⟨hs, hany⟩]
        · rw [if_neg hs, if_neg (fun hnot => hs hnot.1)]

/-- Of the other sessions a start forgets at most the one it continues. -/
theorem get?_startDeferralSession_of_ne {payload : SessionStarted}
    (hname : payload.session ≠ "__proto__") {s : String} (hs : s ≠ payload.session) :
    (startDeferralSession acc payload).sessions.get? s = none ∨
      (startDeferralSession acc payload).sessions.get? s = acc.sessions.get? s := by
  rw [get?_startDeferralSession hname, if_neg hs]
  split
  · exact .inr rfl
  · split
    · exact .inl rfl
    · exact .inr rfl

/-- Every item is an old one, perhaps under the new session. -/
theorem startDeferralSession_moves (acc : ReadDeferralsAcc) (payload : SessionStarted) :
    ∃ f : ReadDeferral → ReadDeferral,
      (startDeferralSession acc payload).pending = acc.pending.map f ∧ ∀ item,
        f item = item ∨ (f item = { item with session := payload.session } ∧
          ∃ continuation, payload.continuation = some continuation ∧
            inherits payload continuation.predecessor item) := by
  rw [startDeferralSession_pending]
  cases hcontinuation : payload.continuation with
  | none => exact ⟨id, (List.map_id _).symm, fun _ => .inl rfl⟩
  | some continuation =>
    refine ⟨inherited payload continuation.predecessor, rfl, fun item => ?_⟩
    by_cases hinherits : inherits payload continuation.predecessor item
    · exact .inr ⟨if_pos hinherits, continuation, rfl, hinherits⟩
    · exact .inl (if_neg hinherits)

/-- A session that was continued is forgotten: it is open in the same phase and round, so its item
is taken over. -/
theorem Remembers.start_link (h : Remembers events acc) {payload : SessionStarted}
    (hstart : startOf event = some payload) (hname : payload.session ≠ "__proto__")
    (hnew : payload.session ∉ events.filterMap startedId)
    (hnodup : (events.filterMap startedId).Nodup) {s t : String}
    (hlink : Linked (events ++ [event]) s t) :
    (startDeferralSession acc payload).sessions.get? s = none := by
  rcases linked_append hlink with hold |
    ⟨payload', continuation, since, hpayload', -, hcontinuation, rfl, hsince, hopen⟩
  · have hs : s ≠ payload.session := fun hsame => hnew (hsame ▸ hold.started)
    rcases get?_startDeferralSession_of_ne hname hs with hnone | hsame
    · exact hnone
    · exact hsame.trans (h.link s t hold)
  · rw [hstart] at hpayload'
    obtain rfl := Option.some.inj hpayload'
    have hs : continuation.predecessor ≠ payload.session := fun hsame =>
      hnew (hsame ▸ hsince.mem)
    rw [get?_startDeferralSession hname, if_neg hs, hcontinuation]
    cases hentry : acc.sessions.get? continuation.predecessor with
    | none =>
      simp only
      split <;> rfl
    | some entry =>
      obtain ⟨hphase, hround, hentryOpen⟩ := h.entry_open hnodup hentry hsince hopen
      refine if_pos ⟨rfl, ?_⟩
      rw [List.any_eq_true]
      rintro ⟨item', hitem', hsession⟩
      obtain ⟨item, hitem, rfl⟩ := List.mem_map.mp hitem'
      rw [decide_eq_true_eq] at hsession
      by_cases hinherits : inherits payload continuation.predecessor item
      · rw [inherited, if_pos hinherits] at hsession
        exact hs hsession.symm
      · rw [inherited, if_neg hinherits] at hsession
        obtain ⟨entry', hentry', hphase', hround', hended'⟩ := h.item item hitem
        rw [hsession, hentry] at hentry'
        obtain rfl := Option.some.inj hentry'
        exact hinherits ⟨hsession, hended'.symm.trans hentryOpen, hphase'.symm.trans hphase,
          hround'.symm.trans hround⟩

/-- A session starts, and may continue another. -/
theorem Remembers.start (h : Remembers events acc) {payload : SessionStarted}
    (hstart : startOf event = some payload) (hname : payload.session ≠ "__proto__")
    (hnodup : ((events ++ [event]).filterMap startedId).Nodup) :
    Remembers (events ++ [event]) (startDeferralSession acc payload) := by
  have hend : endOf event = none := by
    rw [endOf, startOf_eq_some.mp hstart]
  rw [List.filterMap_append, List.nodup_append] at hnodup
  obtain ⟨hnodupOld, -, hfresh⟩ := hnodup
  have hnew : payload.session ∉ events.filterMap startedId := by
    intro hmem
    exact hfresh _ hmem payload.session (by simp [startedId, hstart]) rfl
  have hunknown : acc.sessions.get? payload.session = none := by
    refine Option.eq_none_iff_forall_not_mem.mpr fun entry hentry => ?_
    obtain ⟨since, hsince, -⟩ := h.entry _ entry hentry
    exact hnew hsince.mem
  have hother : ∀ item ∈ acc.pending, item.session ≠ payload.session := by
    intro item hitem hsame
    obtain ⟨entry, hentry, -⟩ := h.item item hitem
    rw [hsame, hunknown] at hentry
    cases hentry
  obtain ⟨f, hpending, hf⟩ := startDeferralSession_moves acc payload
  have hevidence : ∀ item, (f item).evidenceSeq = item.evidenceSeq := by
    intro item
    rcases hf item with hsame | ⟨hmoved, -⟩
    · rw [hsame]
    · rw [hmoved]
  refine ⟨?_, ?_, ?_, ?_, ?_, ?_⟩
  · intro s entry hentry
    by_cases hs : s = payload.session
    · rw [get?_startDeferralSession hname, if_pos hs] at hentry
      cases hentry
      refine ⟨[], ⟨events, event, payload, rfl, hstart, hs.symm, rfl, rfl⟩, ?_, ?_⟩
      · exact iff_of_false Bool.false_ne_true (by simp [EndedIn])
      · exact fun _ _ _ hmem => absurd hmem List.not_mem_nil
    · rcases get?_startDeferralSession_of_ne hname hs with hnone | hsame
      · rw [hnone] at hentry
        cases hentry
      · refine h.entry_append (hsame ▸ hentry) (by simp [hend]) ?_
        rw [finishesSession_of_start hstart, Bool.or_false]
  · intro item' hitem'
    have hitem'' := hitem'
    rw [hpending] at hitem''
    obtain ⟨item, hitem, rfl⟩ := List.mem_map.mp hitem''
    obtain ⟨entry, hentry, hphase, hround, hended⟩ := h.item item hitem
    rcases hf item with hsame | ⟨hmoved, continuation, -, -, hopen, hsamePhase, hsameRound⟩
    · rw [hsame] at hitem' ⊢
      refine ⟨entry, ?_, hphase, hround, hended⟩
      rw [get?_startDeferralSession hname, if_neg (hother item hitem)]
      rw [startDeferralSession_pending] at hitem'
      split
      · exact hentry
      next continuation hcontinuation =>
        rw [hcontinuation] at hitem'
        refine (if_neg ?_).trans hentry
        rintro ⟨hs, hany⟩
        exact hany (List.any_eq_true.mpr ⟨item, hitem', decide_eq_true hs⟩)
    · rw [hmoved]
      refine ⟨⟨payload.phase, payload.round.getD 1, false, false⟩, ?_, hsamePhase.symm,
        hsameRound.symm, hopen.symm⟩
      rw [get?_startDeferralSession hname, if_pos rfl]
  · rw [hpending, List.map_map]
    refine (List.map_congr_left fun item _ => ?_) ▸ h.evidence
    exact (hevidence item).symm
  · rw [hpending, List.map_map, List.Nodup, List.pairwise_map]
    refine (List.pairwise_map.mp h.session).imp_of_mem fun {a b} ha hb hne => ?_
    have hnea := hother a ha
    have hneb := hother b hb
    simp only [Function.comp_apply]
    rcases hf a with hsame | ⟨hmoved, continuation, hcontinuation, hpred, -⟩
    · rcases hf b with hsame' | ⟨hmoved', -⟩
      · rwa [hsame, hsame']
      · rw [hsame, hmoved']
        exact hnea
    · rcases hf b with hsame' | ⟨hmoved', continuation', hcontinuation', hpred', -⟩
      · rw [hmoved, hsame']
        exact hneb.symm
      · rw [hcontinuation] at hcontinuation'
        cases hcontinuation'
        exact absurd (hpred.trans hpred'.symm) hne
  · intro item' hitem'
    rw [hpending] at hitem'
    obtain ⟨item, hitem, rfl⟩ := List.mem_map.mp hitem'
    obtain ⟨other, hmem, hseq⟩ := h.known item hitem
    exact ⟨other, List.mem_append_left _ hmem, by rw [hevidence, hseq]⟩
  · exact fun s t hlink => h.start_link hstart hname hnew hnodupOld hlink

theorem mem_updateFirst {α : Type} {p : α → Bool} {f : α → α} {xs : List α} {x' : α}
    (h : x' ∈ updateFirst p f xs) : x' ∈ xs ∨ ∃ x ∈ xs, x' = f x := by
  induction xs with
  | nil => exact absurd h List.not_mem_nil
  | cons x xs ih =>
    rw [updateFirst] at h
    split at h
    · rcases List.mem_cons.mp h with rfl | h
      · exact .inr ⟨x, List.mem_cons_self, rfl⟩
      · exact .inl (List.mem_cons_of_mem _ h)
    · rcases List.mem_cons.mp h with rfl | h
      · exact .inl List.mem_cons_self
      · rcases ih h with h | ⟨y, hy, rfl⟩
        · exact .inl (List.mem_cons_of_mem _ h)
        · exact .inr ⟨y, List.mem_cons_of_mem _ hy, rfl⟩

theorem map_updateFirst {α β : Type} {p : α → Bool} {f : α → α} {g : α → β}
    (h : ∀ x, g (f x) = g x) (xs : List α) : (updateFirst p f xs).map g = xs.map g := by
  induction xs with
  | nil => rfl
  | cons x xs ih =>
    rw [updateFirst]
    split
    · rw [List.map_cons, h, List.map_cons]
    · rw [List.map_cons, ih, List.map_cons]

theorem key_renewDeferral (seq : Nat) (payload : SessionBuildReadFailed) (item : ReadDeferral) :
    (renewDeferral seq payload item).key = item.key := by
  rw [renewDeferral]
  split <;> rfl

/-- The session of a failed read may open an item. -/
def MayDefer (acc : ReadDeferralsAcc) (payload : SessionBuildReadFailed) : Prop :=
  deferralSession acc payload.session = some ⟨payload.phase, payload.round, false, false⟩ ∧
    ∀ item ∈ acc.pending, item.session ≠ payload.session

/-- A failed read renews the item of its session, opens one, or says nothing. -/
theorem noteReadFailure_cases (acc : ReadDeferralsAcc) (seq : Nat)
    (payload : SessionBuildReadFailed) :
    noteReadFailure acc seq payload = acc ∨
      noteReadFailure acc seq payload =
        { acc with
          pending := updateFirst (fun item => item.session = payload.session)
            (renewDeferral seq payload) acc.pending } ∨
      noteReadFailure acc seq payload =
          { acc with pending := acc.pending ++ [openDeferral seq payload] } ∧
        MayDefer acc payload := by
  rw [noteReadFailure]
  split
  · exact .inl rfl
  next session hsession =>
    split
    next hopen =>
      obtain ⟨hterminal, hended, hphase, hround⟩ := hopen
      split
      · exact .inr (.inl rfl)
      next hnone =>
        refine .inr (.inr ⟨rfl, ?_, ?_⟩)
        · obtain ⟨phase, round, ended, terminal⟩ := session
          simp only at hterminal hended hphase hround
          subst hterminal hended hphase hround
          exact hsession
        · intro item hitem hsame
          exact hnone (List.any_eq_true.mpr ⟨item, hitem, decide_eq_true hsame⟩)
    · exact .inl rfl

theorem Remembers.readFailure (h : Remembers events acc) (hown : acc.prototype = none) {seq : Nat}
    (payload : SessionBuildReadFailed)
    (hfresh : ∀ item ∈ acc.pending, item.evidenceSeq ≠ seq)
    (hknown : ∃ event ∈ events, event.seq = seq) :
    Remembers events (noteReadFailure acc seq payload) := by
  rcases noteReadFailure_cases acc seq payload with hsame | hrenewed | ⟨hopened, hsession, hnone⟩
  · rw [hsame]
    exact h
  · rw [hrenewed]
    exact h.of_keys rfl (map_updateFirst (key_renewDeferral seq payload) acc.pending)
  · rw [hopened]
    refine ⟨h.entry, ?_, ?_, ?_, ?_, h.link⟩
    · intro item hitem
      rcases List.mem_append.mp hitem with hold | hnew
      · exact h.item item hold
      · obtain rfl := List.mem_singleton.mp hnew
        exact ⟨_, get?_of_deferralSession hown hsession, rfl, rfl, rfl⟩
    · rw [List.map_append, List.nodup_append]
      refine ⟨h.evidence, List.nodup_singleton _, ?_⟩
      rintro a ha b hb rfl
      obtain ⟨item, hitem, hevidence⟩ := List.mem_map.mp ha
      exact hfresh item hitem (hevidence.trans (List.mem_singleton.mp hb))
    · rw [List.map_append, List.nodup_append]
      refine ⟨h.session, List.nodup_singleton _, ?_⟩
      rintro a ha b hb rfl
      obtain ⟨item, hitem, hsame⟩ := List.mem_map.mp ha
      exact hnone item hitem (hsame.trans (List.mem_singleton.mp hb))
    · intro item hitem
      rcases List.mem_append.mp hitem with hold | hnew
      · exact h.known item hold
      · obtain rfl := List.mem_singleton.mp hnew
        exact hknown

/-- Items with one session are one item. -/
theorem Remembers.same_session (h : Remembers events acc) {a b : ReadDeferral}
    (ha : a ∈ acc.pending) (hb : b ∈ acc.pending) (hsame : a.session = b.session) : a = b :=
  List.inj_on_of_nodup_map h.session ha hb hsame

theorem Remembers.same_evidence (h : Remembers events acc) {a b : ReadDeferral}
    (ha : a ∈ acc.pending) (hb : b ∈ acc.pending) (hsame : a.evidenceSeq = b.evidenceSeq) : a = b :=
  List.inj_on_of_nodup_map h.evidence ha hb hsame

theorem Remembers.retire (h : Remembers events acc) (actor : Actor) :
    Remembers events (retirePostStep acc actor) := by
  cases actor with
  | agent role id =>
    simp only [retirePostStep]
    split
    next hany =>
      refine h.of_filter rfl (fun s => ?_) (fun item hitem => ?_)
      · rw [get?_erase]
        split
        · exact .inl rfl
        · exact .inr rfl
      · obtain ⟨retired, hretired, hcheck⟩ := List.any_eq_true.mp hany
        obtain ⟨hmem, hkept⟩ := List.mem_filter.mp hitem
        rw [get?_erase]
        refine if_neg fun hsession => ?_
        have hid : retired.session = id := by
          simp only [Bool.and_eq_true, decide_eq_true_eq] at hcheck
          exact hcheck.1.1.1
        rw [← h.same_session hretired hmem (hid.trans hsession.symm), hcheck] at hkept
        cases hkept
    · exact h
  | _ => exact h

theorem get?_foldl_erase (items : List ReadDeferral) (s : String) :
    ∀ sessions : ObjectMap String DeferralSession,
      (items.foldl (fun sessions item => sessions.erase item.session) sessions).get? s =
        if ∃ item ∈ items, item.session = s then none else sessions.get? s := by
  induction items with
  | nil => simp
  | cons item items ih =>
    intro sessions
    rw [List.foldl_cons, ih, get?_erase]
    by_cases hrest : ∃ other ∈ items, other.session = s
    · obtain ⟨other, hother, hs⟩ := hrest
      rw [if_pos ⟨other, hother, hs⟩, if_pos ⟨other, List.mem_cons_of_mem _ hother, hs⟩]
    · rw [if_neg hrest]
      by_cases hs : s = item.session
      · rw [if_pos hs, if_pos ⟨item, List.mem_cons_self, hs.symm⟩]
      · rw [if_neg hs, if_neg]
        rintro ⟨other, hother, hsame⟩
        rcases List.mem_cons.mp hother with rfl | hother
        · exact hs hsame.symm
        · exact hrest ⟨other, hother, hsame⟩

theorem Remembers.answer (h : Remembers events acc) (id : String) :
    Remembers events (answerRaise acc id) := by
  rw [answerRaise]
  split
  · exact h
  next seq hseq =>
    refine h.of_filter rfl (fun s => ?_) (fun item hitem => ?_)
    · rw [get?_foldl_erase]
      split
      · exact .inl rfl
      · exact .inr rfl
    · obtain ⟨hmem, hkept⟩ := List.mem_filter.mp hitem
      rw [get?_foldl_erase]
      refine if_neg ?_
      rintro ⟨other, hother, hsame⟩
      obtain ⟨hother, hanswered⟩ := List.mem_filter.mp hother
      rw [h.same_session hother hmem hsame] at hanswered
      simp only [decide_eq_true_eq] at hkept hanswered
      exact hkept hanswered

/-- The rest of the fold, once the event is part of the log. -/
theorem Remembers.note (h : Remembers (events ++ [event]) acc) (hown : acc.prototype = none)
    (hend : endOf event = none) (hfresh : ∀ item ∈ acc.pending, item.evidenceSeq ≠ event.seq) :
    Remembers (events ++ [event]) (noteDeferral acc event) := by
  have hpending : ∀ f : ReadDeferral → ReadDeferral, (∀ item, (f item).key = item.key) →
      Remembers (events ++ [event]) { acc with pending := acc.pending.map f } := by
    intro f hf
    refine h.of_keys rfl ?_
    rw [List.map_map]
    exact List.map_congr_left fun item _ => hf item
  obtain ⟨seq, ts, actor, body⟩ := event
  cases body with
  | session body =>
    cases body with
    | buildReadFailed payload =>
      exact h.readFailure hown payload hfresh ⟨_, List.mem_append_right _ List.mem_cons_self, rfl⟩
    | buildReadRecovered payload =>
      refine hpending _ fun item => ?_
      split <;> rfl
    | ended payload => cases hend
    | _ => exact h
  | finalize body =>
    cases body with
    | stepCompleted _ => exact h.retire actor
    | _ => exact h
  | publication body =>
    cases body with
    | requested _ => exact h.retire actor
    | _ => exact h
  | phase body =>
    cases body with
    | deferred payload =>
      refine hpending _ fun item => ?_
      split <;> rfl
    | deferralEscalated payload =>
      simp only [noteDeferral, noteRaise]
      split
      · exact h.of_keys rfl rfl
      · exact h
    | _ => exact h
  | escalationAnswered payload => exact h.answer payload.id
  | _ => exact h

theorem foldReadDeferral_of_start {payload : SessionStarted}
    (hstart : startOf event = some payload) :
    foldReadDeferral acc event = startDeferralSession acc payload := by
  rw [foldReadDeferral, startOf_eq_some.mp hstart]
  simp only
  rw [finishSessions_of_not (finishesSession_of_start hstart), noteDeferral,
    startOf_eq_some.mp hstart]

theorem foldReadDeferral_of_not_start (hstart : startOf event = none) :
    foldReadDeferral acc event = noteDeferral (finishSessions acc event) event := by
  rw [foldReadDeferral]
  split
  next payload hbody =>
    rw [startOf_eq_some.mpr hbody] at hstart
    cases hstart
  next => rfl

theorem noteDeferral_of_end {s : String} (hend : endOf event = some s) :
    noteDeferral acc event = endDeferralSession acc s := by
  obtain ⟨payload, hbody, rfl⟩ := endOf_eq_some.mp hend
  rw [noteDeferral, hbody]

/-- An item's evidence is older than the next event. -/
theorem Remembers.fresh (h : Remembers events acc)
    (hrising : (events ++ [event]).Pairwise fun a b => a.seq < b.seq) {item : ReadDeferral}
    (hitem : item ∈ acc.pending) : item.evidenceSeq ≠ event.seq := by
  obtain ⟨other, hother, hseq⟩ := h.known item hitem
  have hlt := (List.pairwise_append.mp hrising).2.2 other hother event List.mem_cons_self
  omega

theorem prototype_retirePostStep (acc : ReadDeferralsAcc) (actor : Actor) :
    (retirePostStep acc actor).prototype = acc.prototype := by
  cases actor with
  | agent role id =>
    simp only [retirePostStep]
    split <;> rfl
  | _ => rfl

theorem prototype_noteReadFailure (acc : ReadDeferralsAcc) (seq : Nat)
    (payload : SessionBuildReadFailed) :
    (noteReadFailure acc seq payload).prototype = acc.prototype := by
  rcases noteReadFailure_cases acc seq payload with hsame | hrenewed | ⟨hopened, -⟩
  · rw [hsame]
  · rw [hrenewed]
  · rw [hopened]

/-- Only the start of a session `__proto__` gives the sessions another prototype. -/
theorem prototype_foldReadDeferral (hown : acc.prototype = none)
    (hname : startedId event ≠ some "__proto__") :
    (foldReadDeferral acc event).prototype = none := by
  cases hstart : startOf event with
  | some payload =>
    have hsession : payload.session ≠ "__proto__" := fun hsame =>
      hname (by rw [startedId, hstart, Option.map_some, hsame])
    rw [foldReadDeferral_of_start hstart, startDeferralSession, setDeferralSession_of_ne hsession]
    cases payload.continuation <;> exact hown
  | none =>
    rw [foldReadDeferral_of_not_start hstart]
    obtain ⟨seq, ts, actor, body⟩ := event
    cases body with
    | session body =>
      cases body with
      | buildReadFailed payload => exact (prototype_noteReadFailure _ seq payload).trans hown
      | ended payload =>
        simp only [noteDeferral, endDeferralSession, finishSessions, hown, Option.map_none,
          ite_self]
      | _ => exact hown
    | finalize body =>
      cases body with
      | stepCompleted _ => exact (prototype_retirePostStep _ actor).trans hown
      | _ => exact hown
    | publication body =>
      cases body with
      | requested _ => exact (prototype_retirePostStep _ actor).trans hown
      | _ => exact hown
    | phase body =>
      cases body with
      | deferralEscalated payload =>
        simp only [noteDeferral, noteRaise]
        split <;> exact hown
      | _ => exact hown
    | escalationAnswered payload =>
      simp only [noteDeferral, answerRaise]
      split <;> exact hown
    | _ => exact hown

theorem Remembers.step (h : Remembers events acc) (hown : acc.prototype = none)
    (hname : startedId event ≠ some "__proto__")
    (hrising : (events ++ [event]).Pairwise fun a b => a.seq < b.seq)
    (hnodup : ((events ++ [event]).filterMap startedId).Nodup) :
    Remembers (events ++ [event]) (foldReadDeferral acc event) := by
  cases hstart : startOf event with
  | some payload =>
    rw [foldReadDeferral_of_start hstart]
    refine h.start hstart (fun hsession => hname ?_) hnodup
    rw [startedId, hstart, Option.map_some, hsession]
  | none =>
    rw [foldReadDeferral_of_not_start hstart]
    cases hend : endOf event with
    | some s =>
      rw [finishSessions_of_not (finishesSession_of_end hend),
        noteDeferral_of_end hend]
      exact h.ended hend
    | none =>
      refine (h.finish hstart hend).note hown hend fun item hitem => ?_
      exact h.fresh hrising (List.filter_sublist.subset hitem)

end Remembers

/-! ## 4. What an event makes of an item -/

/-- The event reports the recovery of the item's latest failure. -/
def Recovers (event : AbEvent) (item : ReadDeferral) : Prop :=
  ∃ payload, recoveredReadOf event = some payload ∧ payload.evidenceSeq = item.evidenceSeq ∧
    payload.failureSeq = item.lastFailureSeq

structure Evolves (event : AbEvent) (item item' : ReadDeferral) : Prop where
  evidence : item'.evidenceSeq = item.evidenceSeq
  ended : item.ended = true → item'.ended = true
  settled : item.settled = true → item'.settled = true
  failure : (item'.lastFailureSeq = item.lastFailureSeq ∧
      (item'.recovered = true → item.recovered = true ∨ Recovers event item')) ∨
    (item'.lastFailureSeq = event.seq ∧ item'.recovered = false ∧
      ∃ payload, failedReadOf event = some payload)

theorem Evolves.refl (event : AbEvent) (item : ReadDeferral) : Evolves event item item :=
  ⟨rfl, id, id, .inl ⟨rfl, .inl⟩⟩

/-- The failed read opens the item. -/
def OpenedBy (acc : ReadDeferralsAcc) (event : AbEvent) (item : ReadDeferral) : Prop :=
  ∃ payload, failedReadOf event = some payload ∧ item = openDeferral event.seq payload ∧
    MayDefer acc payload

section Items

variable {acc : ReadDeferralsAcc} {event : AbEvent}

theorem startDeferralSession_items (payload : SessionStarted) {item' : ReadDeferral}
    (h : item' ∈ (startDeferralSession acc payload).pending) :
    ∃ item ∈ acc.pending, Evolves event item item' := by
  rw [startDeferralSession_pending] at h
  split at h
  · exact ⟨item', h, .refl event item'⟩
  · obtain ⟨item, hitem, rfl⟩ := List.mem_map.mp h
    refine ⟨item, hitem, ?_⟩
    rw [inherited]
    split
    · exact ⟨rfl, id, id, .inl ⟨rfl, .inl⟩⟩
    · exact .refl event item

theorem evolves_renewDeferral {payload : SessionBuildReadFailed}
    (h : failedReadOf event = some payload) (item : ReadDeferral) :
    Evolves event item (renewDeferral event.seq payload item) := by
  rw [renewDeferral]
  split
  · exact ⟨rfl, id, id, .inr ⟨rfl, rfl, payload, h⟩⟩
  · exact .refl event item

theorem noteDeferral_items {item' : ReadDeferral} (h : item' ∈ (noteDeferral acc event).pending) :
    (∃ item ∈ acc.pending, Evolves event item item') ∨ OpenedBy acc event item' := by
  have hrefl : item' ∈ acc.pending → (∃ item ∈ acc.pending, Evolves event item item') ∨
      OpenedBy acc event item' := fun hitem => .inl ⟨item', hitem, .refl event item'⟩
  have hmap : ∀ f : ReadDeferral → ReadDeferral, (∀ item, Evolves event item (f item)) →
      item' ∈ acc.pending.map f →
        (∃ item ∈ acc.pending, Evolves event item item') ∨ OpenedBy acc event item' := by
    intro f hf hmem
    obtain ⟨item, hitem, rfl⟩ := List.mem_map.mp hmem
    exact .inl ⟨item, hitem, hf item⟩
  have hretire : ∀ actor, item' ∈ (retirePostStep acc actor).pending → item' ∈ acc.pending := by
    intro actor hmem
    cases actor with
    | agent role id =>
      simp only [retirePostStep] at hmem
      split at hmem
      · exact List.filter_sublist.subset hmem
      · exact hmem
    | _ => exact hmem
  obtain ⟨seq, ts, actor, body⟩ := event
  cases body with
  | session body =>
    cases body with
    | buildReadFailed payload =>
      have hnote : item' ∈ (noteReadFailure acc seq payload).pending := h
      rcases noteReadFailure_cases acc seq payload with hsame | hrenewed | ⟨hopened, hmay⟩
      · rw [hsame] at hnote
        exact hrefl hnote
      · rw [hrenewed] at hnote
        rcases mem_updateFirst hnote with hold | ⟨item, hitem, rfl⟩
        · exact hrefl hold
        · exact .inl ⟨item, hitem, evolves_renewDeferral rfl item⟩
      · rw [hopened] at hnote
        rcases List.mem_append.mp hnote with hold | hnew
        · exact hrefl hold
        · exact .inr ⟨payload, rfl, List.mem_singleton.mp hnew, hmay⟩
    | buildReadRecovered payload =>
      refine hmap _ (fun item => ?_) h
      split
      next hnames =>
        exact ⟨rfl, id, id, .inl ⟨rfl, fun _ => .inr ⟨payload, rfl, hnames.2.2.2.1.symm,
          hnames.2.2.2.2.1.symm⟩⟩⟩
      next => exact .refl _ item
    | ended payload =>
      refine hmap _ (fun item => ?_) h
      split
      · exact ⟨rfl, fun _ => rfl, id, .inl ⟨rfl, .inl⟩⟩
      · exact .refl _ item
    | _ => exact hrefl h
  | finalize body =>
    cases body with
    | stepCompleted _ => exact hrefl (hretire actor h)
    | _ => exact hrefl h
  | publication body =>
    cases body with
    | requested _ => exact hrefl (hretire actor h)
    | _ => exact hrefl h
  | phase body =>
    cases body with
    | deferred payload =>
      refine hmap _ (fun item => ?_) h
      split
      · exact ⟨rfl, id, fun _ => rfl, .inl ⟨rfl, .inl⟩⟩
      · exact .refl _ item
    | deferralEscalated payload =>
      have hnote : item' ∈ (noteRaise acc payload).pending := h
      rw [noteRaise] at hnote
      split at hnote <;> exact hrefl hnote
    | _ => exact hrefl h
  | escalationAnswered payload =>
    have hnote : item' ∈ (answerRaise acc payload.id).pending := h
    rw [answerRaise] at hnote
    split at hnote
    · exact hrefl hnote
    · exact hrefl (List.filter_sublist.subset hnote)
  | _ => exact hrefl h

/-- Every item after an event is an item before it, or is opened by it. -/
theorem foldReadDeferral_items {item' : ReadDeferral}
    (h : item' ∈ (foldReadDeferral acc event).pending) :
    (∃ item ∈ acc.pending, Evolves event item item') ∨ OpenedBy acc event item' := by
  cases hstart : startOf event with
  | some payload =>
    rw [foldReadDeferral_of_start hstart] at h
    exact .inl (startDeferralSession_items payload h)
  | none =>
    rw [foldReadDeferral_of_not_start hstart] at h
    rcases noteDeferral_items h with ⟨item, hitem, hevolves⟩ | ⟨payload, hfailed, hitem', hmay⟩
    · exact .inl ⟨item, List.filter_sublist.subset hitem, hevolves⟩
    · have hsession := finishesSession_of_session (failedReadOf_eq_some.mp hfailed)
      rw [finishSessions_of_not hsession] at hmay
      exact .inr ⟨payload, hfailed, hitem', hmay⟩

end Items

/-! ## 5. The rules -/

/-- The pending items of a log. -/
def pendingOf (events : List AbEvent) : List ReadDeferral :=
  (foldReadDeferrals initialReadDeferrals events).pending

/-- What the pending items of a log and of its prefixes follow. -/
structure DeferralRules (events : List AbEvent) : Prop where
  /-- A chain has one item. -/
  chain : ∀ a ∈ pendingOf events, ∀ b ∈ pendingOf events,
    Relation.ReflTransGen (Linked events) a.session b.session → a = b
  /-- An item is created by a failed read of a session that is open and has finished nothing. -/
  created : ∀ before event after, events = before ++ event :: after →
    ∀ item ∈ pendingOf (before ++ [event]),
      (∀ old ∈ pendingOf before, old.evidenceSeq ≠ item.evidenceSeq) →
        ∃ payload since, failedReadOf event = some payload ∧ item = openDeferral event.seq payload ∧
          StartedSince before payload.session payload.phase payload.round since ∧
            ¬EndedIn since payload.session ∧
              ∀ other ∈ since, ¬Finishes other payload.session payload.phase payload.round
  /-- While its session is open, what finishes the session removes the item. -/
  finished : ∀ before event after, events = before ++ event :: after →
    ∀ item ∈ pendingOf before, ∀ since,
      StartedSince before item.session item.phase item.round since → ¬EndedIn since item.session →
        Finishes event item.session item.phase item.round →
          ∀ left ∈ pendingOf (before ++ [event]), left.evidenceSeq ≠ item.evidenceSeq
  /-- The answer to the escalation that its deferral raised removes the item, if the escalation was
  not raised again for other evidence (and its id is a key of a plain object). -/
  answered : ∀ before raise between answer after payload reply,
    events = before ++ raise :: between ++ answer :: after →
      deferralEscalatedOf raise = some payload →
        (∃ item ∈ pendingOf before, item.evidenceSeq = payload.evidenceSeq ∧
          item.session = payload.session ∧ item.phase = payload.phase ∧
            item.round = payload.round) → payload.id ≠ "__proto__" →
          (∀ other ∈ between, ∀ later, deferralEscalatedOf other = some later →
            later.id = payload.id → later.evidenceSeq = payload.evidenceSeq) →
            answer.body = .escalationAnswered reply → reply.id = payload.id →
              ∀ left ∈ pendingOf (before ++ raise :: between ++ [answer]),
                left.evidenceSeq ≠ payload.evidenceSeq
  /-- Ended and settled stay. -/
  kept : ∀ before between after, events = before ++ between ++ after →
    ∀ item ∈ pendingOf before, ∀ item' ∈ pendingOf (before ++ between),
      item'.evidenceSeq = item.evidenceSeq →
        (item.ended = true → item'.ended = true) ∧ (item.settled = true → item'.settled = true)
  /-- A recovered item has a recovery of its latest failure, after that failure. -/
  recovered : ∀ item ∈ pendingOf events, item.recovered = true →
    ∃ before event after, events = before ++ event :: after ∧ Recovers event item ∧
      ∃ failure ∈ before, failure.seq = item.lastFailureSeq ∧
        ∃ payload, failedReadOf failure = some payload
  /-- An item that was not pending is the item of a later failed read. -/
  returns : ∀ before between after, events = before ++ between ++ after →
    ∀ item ∈ pendingOf (before ++ between),
      (∀ old ∈ pendingOf before, old.evidenceSeq ≠ item.evidenceSeq) →
        ∃ failure ∈ between, failure.seq = item.evidenceSeq ∧
          ∃ payload, failedReadOf failure = some payload

/-- A log of one build: its seqs rise, no session is started twice, and each is a key of a plain
object. -/
structure SessionLog (events : List AbEvent) : Prop where
  rising : events.Pairwise fun a b => a.seq < b.seq
  started_once : (events.filterMap startedId).Nodup
  named : "__proto__" ∉ events.filterMap startedId

section Rules

variable {events before between after : List AbEvent} {event : AbEvent}

theorem SessionLog.of_append (h : SessionLog (before ++ after)) : SessionLog before where
  rising := h.rising.sublist (List.sublist_append_left _ _)
  started_once := h.started_once.sublist ((List.sublist_append_left _ _).filterMap _)
  named hmem := h.named (((List.sublist_append_left _ _).filterMap _).subset hmem)

theorem SessionLog.name (h : SessionLog (events ++ [event])) : startedId event ≠ some "__proto__" :=
  fun hname => h.named (List.mem_filterMap.mpr
    ⟨event, List.mem_append_right _ List.mem_cons_self, hname⟩)

theorem foldReadDeferrals_snoc (events : List AbEvent) (event : AbEvent) :
    foldReadDeferrals initialReadDeferrals (events ++ [event]) =
      foldReadDeferral (foldReadDeferrals initialReadDeferrals events) event := by
  rw [foldReadDeferrals, List.foldl_append]
  rfl

theorem SessionLog.own (h : SessionLog events) :
    (foldReadDeferrals initialReadDeferrals events).prototype = none := by
  induction events using List.reverseRecOn with
  | nil => rfl
  | append_singleton events event ih =>
    rw [foldReadDeferrals_snoc]
    exact prototype_foldReadDeferral (ih h.of_append) h.name

theorem SessionLog.remembers (h : SessionLog events) :
    Remembers events (foldReadDeferrals initialReadDeferrals events) := by
  induction events using List.reverseRecOn with
  | nil => exact remembers_nil
  | append_singleton events event ih =>
    rw [foldReadDeferrals_snoc]
    exact (ih h.of_append).step h.of_append.own h.name h.rising h.started_once

theorem SessionLog.items (item : ReadDeferral) (h : item ∈ pendingOf (events ++ [event])) :
    (∃ old ∈ pendingOf events, Evolves event old item) ∨
      OpenedBy (foldReadDeferrals initialReadDeferrals events) event item := by
  rw [pendingOf, foldReadDeferrals_snoc] at h
  exact foldReadDeferral_items h

/-- A continuation of an open session has the item to itself. -/
theorem one_item_of_chain (h : SessionLog events) {a b : ReadDeferral} (ha : a ∈ pendingOf events)
    (hb : b ∈ pendingOf events)
    (hchain : Relation.ReflTransGen (Linked events) a.session b.session) : a = b := by
  rcases Relation.ReflTransGen.cases_head hchain with hsame | ⟨t, hlink, -⟩
  · exact h.remembers.same_session ha hb hsame
  · obtain ⟨entry, hentry, -⟩ := h.remembers.item a ha
    rw [h.remembers.link a.session t hlink] at hentry
    cases hentry

theorem created_by_failedRead (h : SessionLog (before ++ [event])) {item : ReadDeferral}
    (hitem : item ∈ pendingOf (before ++ [event]))
    (hnew : ∀ old ∈ pendingOf before, old.evidenceSeq ≠ item.evidenceSeq) :
    ∃ payload since, failedReadOf event = some payload ∧ item = openDeferral event.seq payload ∧
      StartedSince before payload.session payload.phase payload.round since ∧
        ¬EndedIn since payload.session ∧
          ∀ other ∈ since, ¬Finishes other payload.session payload.phase payload.round := by
  rcases SessionLog.items item hitem with ⟨old, hold, hevolves⟩ | ⟨payload, hfailed, hopened, hmay⟩
  · exact absurd hevolves.evidence.symm (hnew old hold)
  · obtain ⟨since, hsince, hended, hfinishes⟩ := h.of_append.remembers.entry _ _
      (get?_of_deferralSession h.of_append.own hmay.1)
    refine ⟨payload, since, hfailed, hopened, hsince, ?_, hfinishes rfl rfl⟩
    exact fun hend => Bool.false_ne_true (hended.mpr hend)

theorem removed_by_finish (h : SessionLog (before ++ [event])) {item : ReadDeferral}
    (hitem : item ∈ pendingOf before) {since : List AbEvent}
    (hsince : StartedSince before item.session item.phase item.round since)
    (hopen : ¬EndedIn since item.session)
    (hfinishes : Finishes event item.session item.phase item.round) {left : ReadDeferral}
    (hleft : left ∈ pendingOf (before ++ [event])) : left.evidenceSeq ≠ item.evidenceSeq := by
  intro hsame
  have hremembers := h.of_append.remembers
  have hstart : startOf event = none := by
    refine Option.eq_none_iff_forall_not_mem.mpr fun payload hpayload => ?_
    rw [Finishes, finishesSession_of_start hpayload] at hfinishes
    cases hfinishes
  rw [pendingOf, foldReadDeferrals_snoc, foldReadDeferral_of_not_start hstart] at hleft
  rcases noteDeferral_items hleft with ⟨old, hold, hevolves⟩ | ⟨payload, -, rfl, -⟩
  · obtain ⟨hmem, hkept⟩ := List.mem_filter.mp hold
    have hitemOld : old = item :=
      hremembers.same_evidence hmem hitem (hevolves.evidence.symm.trans hsame)
    subst hitemOld
    obtain ⟨entry, hentry, hphase, hround, -⟩ := hremembers.item old hitem
    obtain ⟨-, -, hentryOpen⟩ :=
      hremembers.entry_open h.of_append.started_once hentry hsince hopen
    have hfinish : finishesSession event old.session entry = true := by
      rw [Finishes, ← hphase, ← hround] at hfinishes
      rw [← hfinishes]
      simp only [finishesSession, hentryOpen]
      rfl
    rw [Bool.not_eq_true', List.any_eq_false] at hkept
    exact hkept (old.session, entry) (get?_eq_some.mp hentry) (by simp [hfinish])
  · exact hremembers.fresh h.rising hitem hsame.symm

theorem kept_between (h : SessionLog (before ++ between)) {item item' : ReadDeferral}
    (hitem : item ∈ pendingOf before) (hitem' : item' ∈ pendingOf (before ++ between))
    (hsame : item'.evidenceSeq = item.evidenceSeq) :
    (item.ended = true → item'.ended = true) ∧ (item.settled = true → item'.settled = true) := by
  induction between using List.reverseRecOn generalizing item' with
  | nil =>
    rw [List.append_nil] at h hitem'
    rw [h.remembers.same_evidence hitem' hitem hsame]
    exact ⟨id, id⟩
  | append_singleton between event ih =>
    rw [← List.append_assoc] at h hitem'
    rcases SessionLog.items item' hitem' with ⟨old, hold, hevolves⟩ | ⟨payload, -, rfl, -⟩
    · obtain ⟨hended, hsettled⟩ := ih h.of_append hold (hevolves.evidence.symm.trans hsame)
      exact ⟨fun hcase => hevolves.ended (hended hcase),
        fun hcase => hevolves.settled (hsettled hcase)⟩
    · obtain ⟨other, hother, hseq⟩ := h.of_append.of_append.remembers.known item hitem
      have hlt := (List.pairwise_append.mp h.rising).2.2 other
        (List.mem_append_left _ hother) event List.mem_cons_self
      have hevidence : event.seq = item.evidenceSeq := hsame
      omega

theorem returns_by_failedRead (h : SessionLog (before ++ between)) {item : ReadDeferral}
    (hitem : item ∈ pendingOf (before ++ between))
    (hnew : ∀ old ∈ pendingOf before, old.evidenceSeq ≠ item.evidenceSeq) :
    ∃ failure ∈ between, failure.seq = item.evidenceSeq ∧
      ∃ payload, failedReadOf failure = some payload := by
  induction between using List.reverseRecOn generalizing item with
  | nil =>
    rw [List.append_nil] at hitem
    exact absurd rfl (hnew item hitem)
  | append_singleton between event ih =>
    rw [← List.append_assoc] at h hitem
    rcases SessionLog.items item hitem with ⟨old, hold, hevolves⟩ | ⟨payload, hfailed, rfl, -⟩
    · obtain ⟨failure, hfailure, hseq, hfailed⟩ := ih h.of_append hold
        (hevolves.evidence ▸ hnew)
      exact ⟨failure, List.mem_append_left _ hfailure, hseq.trans hevolves.evidence.symm, hfailed⟩
    · exact ⟨event, List.mem_append_right _ List.mem_cons_self, rfl, payload, hfailed⟩

/-- The latest failure of an item is in the log, and its recovery after it. -/
theorem recovered_after_failure {item : ReadDeferral} (hitem : item ∈ pendingOf events) :
    (∃ failure ∈ events, failure.seq = item.lastFailureSeq ∧
        ∃ payload, failedReadOf failure = some payload) ∧
      (item.recovered = true → ∃ before event after, events = before ++ event :: after ∧
        Recovers event item ∧ ∃ failure ∈ before, failure.seq = item.lastFailureSeq ∧
          ∃ payload, failedReadOf failure = some payload) := by
  induction events using List.reverseRecOn generalizing item with
  | nil => exact absurd hitem List.not_mem_nil
  | append_singleton events event ih =>
    have hevent : event ∈ events ++ [event] := List.mem_append_right _ List.mem_cons_self
    rcases SessionLog.items item hitem with ⟨old, hold, hevolves⟩ | ⟨payload, hfailed, rfl, -⟩
    · obtain ⟨⟨failure, hfailure, hseq, hread⟩, hrecovered⟩ := ih hold
      rcases hevolves.failure with ⟨hlast, hrecovers⟩ | ⟨hlast, hnot, payload, hfailed⟩
      · refine ⟨⟨failure, List.mem_append_left _ hfailure, hseq.trans hlast.symm, hread⟩, ?_⟩
        intro hmark
        rcases hrecovers hmark with hbefore | hnow
        · obtain ⟨front, recovery, rest, rfl, ⟨payload, hpayload, hnames, hfailureSeq⟩,
            hfailures⟩ := hrecovered hbefore
          refine ⟨front, recovery, rest ++ [event], by simp, ⟨payload, hpayload, ?_, ?_⟩, ?_⟩
          · rw [hnames, hevolves.evidence]
          · rw [hfailureSeq, hlast]
          · rw [hlast]
            exact hfailures
        · exact ⟨events, event, [], rfl, hnow, failure, hfailure, hseq.trans hlast.symm, hread⟩
      · refine ⟨⟨event, hevent, hlast.symm, payload, hfailed⟩, fun hmark => ?_⟩
        rw [hnot] at hmark
        cases hmark
    · exact ⟨⟨event, hevent, rfl, payload, hfailed⟩, fun hmark => nomatch hmark⟩

/-- The escalation is recorded for the evidence, or nothing is pending of it. -/
def RaiseHolds (acc : ReadDeferralsAcc) (id : String) (evidence : Nat) : Prop :=
  acc.raises.get? id = some evidence ∨ ∀ item ∈ acc.pending, item.evidenceSeq ≠ evidence

theorem raises_retirePostStep (acc : ReadDeferralsAcc) (actor : Actor) :
    (retirePostStep acc actor).raises = acc.raises := by
  cases actor with
  | agent role id =>
    simp only [retirePostStep]
    split <;> rfl
  | _ => rfl

theorem raises_noteReadFailure (acc : ReadDeferralsAcc) (seq : Nat)
    (payload : SessionBuildReadFailed) :
    (noteReadFailure acc seq payload).raises = acc.raises := by
  rcases noteReadFailure_cases acc seq payload with hsame | hrenewed | ⟨hopened, -⟩
  · rw [hsame]
  · rw [hrenewed]
  · rw [hopened]

theorem raises_startDeferralSession (acc : ReadDeferralsAcc) (payload : SessionStarted) :
    (startDeferralSession acc payload).raises = acc.raises := by
  rw [startDeferralSession, raises_setDeferralSession]
  cases payload.continuation <;> rfl

/-- An event that does not raise the escalation for other evidence. -/
theorem RaiseHolds.step {acc : ReadDeferralsAcc} {id : String} {evidence : Nat}
    (h : RaiseHolds acc id evidence)
    (hother : ∀ later, deferralEscalatedOf event = some later → later.id = id →
      later.evidenceSeq = evidence)
    (hfresh : event.seq ≠ evidence) : RaiseHolds (foldReadDeferral acc event) id evidence := by
  rcases h with hraised | hnone
  · have hkeeps : ∀ {acc' : ReadDeferralsAcc}, acc'.raises = acc.raises →
        RaiseHolds acc' id evidence := fun hsame => .inl (hsame ▸ hraised)
    cases hstart : startOf event with
    | some payload =>
      rw [foldReadDeferral_of_start hstart]
      exact hkeeps (raises_startDeferralSession acc payload)
    | none =>
      rw [foldReadDeferral_of_not_start hstart]
      generalize hacc : finishSessions acc event = finished
      have hfinished : finished.raises = acc.raises := by
        rw [← hacc]
        rfl
      obtain ⟨seq, ts, actor, body⟩ := event
      cases body with
      | session body =>
        cases body with
        | buildReadFailed payload =>
          exact hkeeps ((raises_noteReadFailure finished seq payload).trans hfinished)
        | _ => exact hkeeps hfinished
      | finalize body =>
        cases body with
        | stepCompleted _ => exact hkeeps ((raises_retirePostStep finished actor).trans hfinished)
        | _ => exact hkeeps hfinished
      | publication body =>
        cases body with
        | requested _ => exact hkeeps ((raises_retirePostStep finished actor).trans hfinished)
        | _ => exact hkeeps hfinished
      | phase body =>
        cases body with
        | deferralEscalated payload =>
          refine .inl ?_
          simp only [noteDeferral, noteRaise]
          split
          · rw [get?_set]
            split
            next hid => rw [hother payload rfl hid.symm]
            next => rw [hfinished, hraised]
          · rw [hfinished, hraised]
        | _ => exact hkeeps hfinished
      | escalationAnswered payload =>
        simp only [noteDeferral, answerRaise]
        by_cases hid : payload.id = id
        · rw [hid, hfinished, hraised]
          refine .inr fun item hitem => ?_
          simpa using (List.mem_filter.mp hitem).2
        · refine .inl ?_
          split
          · rw [hfinished, hraised]
          · rw [get?_erase, if_neg (Ne.symm hid), hfinished, hraised]
      | _ => exact hkeeps hfinished
  · refine .inr fun item hitem => ?_
    rcases foldReadDeferral_items hitem with ⟨old, hold, hevolves⟩ | ⟨payload, -, rfl, -⟩
    · rw [hevolves.evidence]
      exact hnone old hold
    · exact hfresh

/-- The deferral of a pending item records its escalation. -/
theorem raiseHolds_of_deferral {acc : ReadDeferralsAcc} {raise : AbEvent}
    {payload : PhaseDeferralEscalated} (hraise : deferralEscalatedOf raise = some payload)
    {item : ReadDeferral} (hitem : item ∈ acc.pending)
    (hnames : item.evidenceSeq = payload.evidenceSeq ∧ item.session = payload.session ∧
      item.phase = payload.phase ∧ item.round = payload.round) (hname : payload.id ≠ "__proto__") :
    RaiseHolds (foldReadDeferral acc raise) payload.id payload.evidenceSeq := by
  have hbody := deferralEscalatedOf_eq_some.mp hraise
  have hstart : startOf raise = none := by
    rw [startOf, hbody]
  have hany : acc.pending.any (fun item => item.evidenceSeq = payload.evidenceSeq
      ∧ item.session = payload.session ∧ item.phase = payload.phase
        ∧ item.round = payload.round) = true :=
    List.any_eq_true.mpr ⟨item, hitem, decide_eq_true hnames⟩
  refine .inl ?_
  rw [foldReadDeferral_of_not_start hstart, finishSessions_of_not (finishesSession_of_phase hbody),
    noteDeferral, hbody]
  simp only [noteRaise]
  rw [if_pos ⟨hname, hany⟩, get?_set_self]

theorem removed_by_answer {raise answer : AbEvent} {payload : PhaseDeferralEscalated}
    {reply : EscalationAnswered} (h : SessionLog (before ++ raise :: between ++ [answer]))
    (hraise : deferralEscalatedOf raise = some payload)
    (hpending : ∃ item ∈ pendingOf before, item.evidenceSeq = payload.evidenceSeq ∧
      item.session = payload.session ∧ item.phase = payload.phase ∧ item.round = payload.round)
    (hname : payload.id ≠ "__proto__")
    (hother : ∀ other ∈ between, ∀ later, deferralEscalatedOf other = some later →
      later.id = payload.id → later.evidenceSeq = payload.evidenceSeq)
    (hanswer : answer.body = .escalationAnswered reply) (hid : reply.id = payload.id)
    {left : ReadDeferral} (hleft : left ∈ pendingOf (before ++ raise :: between ++ [answer])) :
    left.evidenceSeq ≠ payload.evidenceSeq := by
  obtain ⟨item, hitem, hnames⟩ := hpending
  have hlater : ∀ event ∈ between ++ [answer], event.seq ≠ payload.evidenceSeq := by
    intro event hevent
    have hrising := h.rising
    rw [List.append_assoc, List.cons_append] at hrising
    have hbefore : SessionLog before := by
      have hprefix := h
      rw [List.append_assoc] at hprefix
      exact hprefix.of_append
    obtain ⟨other, hmem, hseq⟩ := hbefore.remembers.known item hitem
    have hlt := (List.pairwise_append.mp hrising).2.2 other hmem event
      (List.mem_cons_of_mem _ hevent)
    have hevidence := hnames.1
    omega
  have hholds : RaiseHolds (foldReadDeferrals initialReadDeferrals (before ++ raise :: between))
      payload.id payload.evidenceSeq := by
    have hrun : ∀ (rest : List AbEvent) (acc : ReadDeferralsAcc),
        (∀ event ∈ rest, (∀ later, deferralEscalatedOf event = some later →
          later.id = payload.id → later.evidenceSeq = payload.evidenceSeq) ∧
            event.seq ≠ payload.evidenceSeq) →
          RaiseHolds acc payload.id payload.evidenceSeq →
            RaiseHolds (rest.foldl foldReadDeferral acc) payload.id payload.evidenceSeq := by
      intro rest
      induction rest with
      | nil => exact fun _ _ hacc => hacc
      | cons event rest ih =>
        intro acc hrest hacc
        obtain ⟨hdifferent, hfresh⟩ := hrest event List.mem_cons_self
        exact ih _ (fun other hmem => hrest other (List.mem_cons_of_mem _ hmem))
          (hacc.step hdifferent hfresh)
    rw [foldReadDeferrals, List.foldl_append, List.foldl_cons]
    exact hrun between _ (fun event hmem => ⟨hother event hmem,
      hlater event (List.mem_append_left _ hmem)⟩)
        (raiseHolds_of_deferral hraise hitem hnames hname)
  rw [pendingOf, foldReadDeferrals_snoc] at hleft
  rcases hholds with hraised | hnone
  · have hfold : (foldReadDeferral (foldReadDeferrals initialReadDeferrals
          (before ++ raise :: between)) answer).pending =
        (answerRaise (finishSessions (foldReadDeferrals initialReadDeferrals
          (before ++ raise :: between)) answer) payload.id).pending := by
      obtain ⟨seq, ts, actor, body⟩ := answer
      cases hanswer
      rw [← hid]
      rfl
    rw [hfold, answerRaise] at hleft
    have hraised' : (finishSessions (foldReadDeferrals initialReadDeferrals
        (before ++ raise :: between)) answer).raises.get? payload.id =
          some payload.evidenceSeq := hraised
    rw [hraised'] at hleft
    simpa using (List.mem_filter.mp hleft).2
  · rcases foldReadDeferral_items hleft with ⟨old, hold, hevolves⟩ | ⟨_, hfailed, -⟩
    · rw [hevolves.evidence]
      exact hnone old hold
    · rw [failedReadOf, hanswer] at hfailed
      cases hfailed

/-- The rules hold of every log. -/
theorem read_deferral_rules (events : List AbEvent) (h : SessionLog events) :
    DeferralRules events where
  chain _ ha _ hb hchain := one_item_of_chain h ha hb hchain
  created := by
    rintro before event after rfl item hitem hnew
    rw [List.append_cons] at h
    exact created_by_failedRead h.of_append hitem hnew
  finished := by
    rintro before event after rfl item hitem since hsince hopen hfinishes left hleft
    rw [List.append_cons] at h
    exact removed_by_finish h.of_append hitem hsince hopen hfinishes hleft
  answered := by
    rintro before raise between answer after payload reply rfl hraise hpending hname hother hanswer
      hid left hleft
    rw [List.append_cons] at h
    exact removed_by_answer h.of_append hraise hpending hname hother hanswer hid hleft
  kept := by
    rintro before between after rfl item hitem item' hitem' hsame
    exact kept_between h.of_append hitem hitem' hsame
  recovered _ hitem := (recovered_after_failure hitem).2
  returns := by
    rintro before between after rfl item hitem hnew
    exact returns_by_failedRead h.of_append hitem hnew

end Rules

/-! ## 6. A session that is reclaimed and continued -/

/-- Session `t` continues `s` in its phase and round, whether or not `s` has ended. -/
def Continues (events : List AbEvent) (s t : String) : Prop :=
  ∃ before start after payload continuation since, events = before ++ start :: after ∧
    startOf start = some payload ∧ payload.session = t ∧
      payload.continuation = some continuation ∧ continuation.predecessor = s ∧
        StartedSince before s payload.phase (payload.round.getD 1) since

def startedEvent (seq : Nat) (session : String) (continuation : Option SessionContinuation) :
    AbEvent where
  seq := seq
  ts := 0
  actor := .kernel
  body := .session (.started
    { continuation, budgetMs := none, session, role := "reconcile", runner := "local",
      model := none, args := none, account := none, phase := .core .reconcile, round := none,
      stream := none, prompt := none })

def failedReadEvent (seq : Nat) (session : String) : AbEvent where
  seq := seq
  ts := 0
  actor := .agent "reconcile" session
  body := .session (.buildReadFailed ⟨session, .core .reconcile, 1, "unreadable"⟩)

def reclaimEvent (seq : Nat) (session : String) : AbEvent :=
  ⟨seq, 0, .kernel, .session (.ended (.reclaimed session "i" 1))⟩

def lostRunner (predecessor : String) : SessionContinuation where
  predecessor := predecessor
  root := predecessor
  handle := ⟨"local", "n", "h", "/ws", none, HandleKey.schemaOrder, .refl _⟩
  cause := .runnerLoss
  activeMs := 0
  budgetMs := 0

/-- The first session is reclaimed after a failed read, and its continuation fails again. -/
def reclaimedEvents : List AbEvent :=
  [startedEvent 1 "a" none, failedReadEvent 2 "a", reclaimEvent 3 "a",
    startedEvent 4 "b" (some (lostRunner "a")), failedReadEvent 5 "b"]

/-- The phase of the session is completed by the dispatcher before its read fails. -/
def dispatcherCompletedEvents : List AbEvent :=
  [startedEvent 1 "a" none,
    ⟨2, 0, .dispatcher, .reconcile (.completed (.merge "c" ⟨"report", 0⟩))⟩,
    failedReadEvent 3 "a"]

/-- The kernel completes the phase of a session that is no key of the plain object. -/
def prototypeEvents : List AbEvent :=
  [startedEvent 1 "__proto__" none, failedReadEvent 2 "__proto__",
    ⟨3, 0, .kernel, .reconcile (.completed (.merge "c" ⟨"report", 0⟩))⟩]

theorem read_deferral_rules_of_reclaimed : DeferralRules reclaimedEvents :=
  read_deferral_rules reclaimedEvents ⟨by decide, by decide, by decide⟩

/-- A chain with a session that ended holds two items, a completion that neither the kernel nor the
session recorded does not keep an item from being created, and the item of a session `__proto__`
survives its completion. -/
theorem chain_holds_two :
    SessionLog reclaimedEvents ∧ Continues reclaimedEvents "a" "b" ∧
      (pendingOf reclaimedEvents).map ReadDeferral.session = ["a", "b"] ∧
        SessionLog dispatcherCompletedEvents ∧
          (pendingOf dispatcherCompletedEvents).map ReadDeferral.session = ["a"] ∧
            (prototypeEvents.filterMap startedId).Nodup ∧
              (pendingOf prototypeEvents).map ReadDeferral.session = ["__proto__"] := by
  refine ⟨⟨by decide, by decide, by decide⟩, ?_, rfl, ⟨by decide, by decide, by decide⟩, rfl,
    by decide, rfl⟩
  exact ⟨[startedEvent 1 "a" none, failedReadEvent 2 "a", reclaimEvent 3 "a"],
    startedEvent 4 "b" (some (lostRunner "a")), [failedReadEvent 5 "b"], _, lostRunner "a",
    [failedReadEvent 2 "a", reclaimEvent 3 "a"], rfl, rfl, rfl, rfl, rfl, [],
    startedEvent 1 "a" none, _, rfl, rfl, rfl, rfl, rfl⟩

end Autobuild
