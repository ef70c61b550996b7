/-
# What the index says of the log

The index is a fold; here it is read back in terms of the events.

* The candidates of a log are those of its events, in order (`candidates_foldLogIndex`), and
  the restart boundary is the seq of its last revision.
* `LoopIndex.advance` is what a candidate does to one of the loops, so a loop is a fold of its
  own: it knows the highest round (`le_maxRound`) and the latest verdict of each round
  (`verdict_of_rounds`).
* The boundaries are the latest of their kind.
-/
import Autobuild.Kernel.LogIndex
import Mathlib.Data.List.Induction

namespace Autobuild

open ObjectMap

/-! ## 1. Candidates -/

/-- What an event adds to the candidates. -/
def candidatesOf (seq : Nat) : EventBody → List LogIndexCandidate
  | .plan (.started payload) => [.roundStart .plan seq payload.round]
  | .plan (.completed payload) => [.planCompleted seq payload]
  | .planReview (.started round) => [.roundTouch .plan seq round]
  | .planReview (.verdict payload) => [.verdict .plan seq payload]
  | .implement (.started payload) => [.roundStart .code seq payload.round]
  | .implement (.completed payload) =>
    [.roundCompleted .code seq payload.round, .implementCompleted seq]
  | .codeReview (.started round) => [.roundTouch .code seq round]
  | .codeReview (.verdict payload) => [.verdict .code seq payload]
  | .verify (.configCaptured _) => [.configSuperseded seq]
  | .verify (.configSuperseded _) => [.configSuperseded seq]
  | .verify (.started payload) => [.verifyStarted (LogIndexAcc.startRecord seq payload)]
  | .verify (.reconcilePolicyCaptured payload) => [.reconcilePolicy seq payload]
  | .verify (.completed payload) => [.verifyCompleted ⟨normalizeVerifyCompletion payload, seq⟩]
  | .finalize (.completed _) => [.finalizeCompleted seq]
  | .finalize (.stepCompleted payload) => [.finalizeStep seq payload.step]
  | .reconcile (.completed _) => [.reconcileCompleted seq]
  | _ => []

/-- The restart boundary after an event. -/
def restartAfter (restartSeq seq : Nat) : EventBody → Nat
  | .spec (.revised _ _) => seq
  | _ => restartSeq

theorem seq_of_mem_candidatesOf {seq : Nat} {body : EventBody} {c : LogIndexCandidate}
    (h : c ∈ candidatesOf seq body) : c.seq = seq := by
  unfold candidatesOf at h
  split at h <;> simp only [List.mem_cons, List.not_mem_nil, or_false] at h <;>
    rcases h with rfl | rfl <;> rfl

namespace LogIndexAcc

@[simp] theorem candidates_noteGuidanceStart (acc : LogIndexAcc) (occurrence : Occurrence)
    (feedback : Option Feedback) (seq : Nat) :
    (acc.noteGuidanceStart occurrence feedback seq).candidates = acc.candidates := by
  unfold noteGuidanceStart
  split <;> rfl

@[simp] theorem restartSeq_noteGuidanceStart (acc : LogIndexAcc) (occurrence : Occurrence)
    (feedback : Option Feedback) (seq : Nat) :
    (acc.noteGuidanceStart occurrence feedback seq).restartSeq = acc.restartSeq := by
  unfold noteGuidanceStart
  split <;> rfl

@[simp] theorem candidates_noteRound (acc : LogIndexAcc) (round : Nat) (loop : LoopName) :
    (acc.noteRound round loop).candidates = acc.candidates := by
  cases loop <;> rfl

@[simp] theorem restartSeq_noteRound (acc : LogIndexAcc) (round : Nat) (loop : LoopName) :
    (acc.noteRound round loop).restartSeq = acc.restartSeq := by
  cases loop <;> rfl

@[simp] theorem candidates_push (acc : LogIndexAcc) (c : LogIndexCandidate) :
    (acc.push c).candidates = acc.candidates ++ [c] := rfl

@[simp] theorem restartSeq_push (acc : LogIndexAcc) (c : LogIndexCandidate) :
    (acc.push c).restartSeq = acc.restartSeq := rfl

@[simp] theorem candidates_noteAttempt (acc : LogIndexAcc) (attempt : Nat) :
    (acc.noteAttempt attempt).candidates = acc.candidates := rfl

@[simp] theorem restartSeq_noteAttempt (acc : LogIndexAcc) (attempt : Nat) :
    (acc.noteAttempt attempt).restartSeq = acc.restartSeq := rfl

theorem deliverGuidance_candidates (acc : LogIndexAcc) (seq : Nat) (payload : SessionStarted) :
    (acc.deliverGuidance seq payload).candidates = acc.candidates ∧
      (acc.deliverGuidance seq payload).restartSeq = acc.restartSeq := by
  unfold deliverGuidance
  split
  · exact ⟨rfl, rfl⟩
  · split
    · exact ⟨rfl, rfl⟩
    · split <;> exact ⟨rfl, rfl⟩

theorem completeReconcile_candidates (acc : LogIndexAcc) (seq : Nat) :
    (acc.completeReconcile seq).candidates = acc.candidates ++ [.reconcileCompleted seq] ∧
      (acc.completeReconcile seq).restartSeq = acc.restartSeq := by
  unfold completeReconcile pairReconcile
  split <;> exact ⟨rfl, rfl⟩

end LogIndexAcc

/-- **An event appends its candidates, and a revision moves the boundary.** -/
theorem indexEvent_candidates (acc : LogIndexAcc) (event : AbEvent) :
    (indexEvent acc event).candidates = acc.candidates ++ candidatesOf event.seq event.body ∧
      (indexEvent acc event).restartSeq
        = restartAfter acc.restartSeq event.seq event.body := by
  obtain ⟨seq, ts, actor, body⟩ := event
  unfold indexEvent
  cases body with
  | spec body => cases body <;> exact ⟨(List.append_nil _).symm, rfl⟩
  | plan body => cases body <;> simp [indexBody, candidatesOf, restartAfter]
  | planReview body => cases body <;> simp [indexBody, candidatesOf, restartAfter]
  | implement body => cases body <;> simp [indexBody, candidatesOf, restartAfter]
  | codeReview body => cases body <;> simp [indexBody, candidatesOf, restartAfter]
  | verify body => cases body <;> simp [indexBody, candidatesOf, restartAfter]
  | session body =>
    cases body with
    | started payload =>
      obtain ⟨hc, hr⟩ := LogIndexAcc.deliverGuidance_candidates
        { acc with
          readDeferrals := foldReadDeferral acc.readDeferrals
            ⟨seq, ts, actor, .session (.started payload)⟩
          restack := advanceLeafRestackEvent acc.restack
            ⟨seq, ts, actor, .session (.started payload)⟩ } seq payload
      exact ⟨hc.trans (List.append_nil _).symm, hr⟩
    | _ => exact ⟨(List.append_nil _).symm, rfl⟩
  | finalize body => cases body <;> simp [indexBody, candidatesOf, restartAfter]
  | pr body => cases body <;> exact ⟨(List.append_nil _).symm, rfl⟩
  | reconcile body =>
    cases body with
    | completed payload => exact LogIndexAcc.completeReconcile_candidates _ seq
    | _ => exact ⟨(List.append_nil _).symm, rfl⟩
  | _ => exact ⟨(List.append_nil _).symm, rfl⟩

/-- The candidates of a log. -/
def candidatesOfLog (events : List AbEvent) : List LogIndexCandidate :=
  events.flatMap fun event => candidatesOf event.seq event.body

/-- The seq of the last revision of a log, else 0. -/
def lastRevised (events : List AbEvent) : Nat :=
  events.foldl (fun restartSeq event => restartAfter restartSeq event.seq event.body) 0

theorem candidates_foldLogIndex (events : List AbEvent) :
    (foldLogIndex initialLogIndexAcc events).candidates = candidatesOfLog events ∧
      (foldLogIndex initialLogIndexAcc events).restartSeq = lastRevised events := by
  induction events using List.reverseRecOn with
  | nil => exact ⟨rfl, rfl⟩
  | append_singleton events event ih =>
    have hstep := indexEvent_candidates (foldLogIndex initialLogIndexAcc events) event
    rw [ih.1, ih.2] at hstep
    unfold foldLogIndex candidatesOfLog lastRevised at *
    rw [List.foldl_append, List.flatMap_append, List.foldl_append, List.foldl_cons, List.foldl_nil,
      List.foldl_cons, List.foldl_nil, List.flatMap_singleton]
    exact hstep

theorem mem_candidatesOfLog {events : List AbEvent} {c : LogIndexCandidate} :
    c ∈ candidatesOfLog events ↔ ∃ event ∈ events, c ∈ candidatesOf event.seq event.body :=
  List.mem_flatMap

/-- Candidates come in the order of the log. -/
theorem candidatesOfLog_pairwise {events : List AbEvent}
    (h : events.Pairwise (fun a b => a.seq < b.seq)) :
    (candidatesOfLog events).Pairwise (fun c d => c.seq ≤ d.seq) := by
  unfold candidatesOfLog
  refine List.pairwise_flatMap.mpr ⟨fun event _ => ?_, h.imp fun hab c hc d hd => ?_⟩
  · refine List.pairwise_of_forall_mem_list fun c hc d hd => ?_
    rw [seq_of_mem_candidatesOf hc, seq_of_mem_candidatesOf hd]
  · rw [seq_of_mem_candidatesOf hc, seq_of_mem_candidatesOf hd]
    exact hab.le

/-- The candidates a finished index replays. -/
def candidatesSince (restartSeq : Nat) (events : List AbEvent) : List LogIndexCandidate :=
  (candidatesOfLog events).filter fun c => restartSeq < c.seq

theorem mem_candidatesSince {restartSeq : Nat} {events : List AbEvent} {c : LogIndexCandidate} :
    c ∈ candidatesSince restartSeq events ↔
      restartSeq < c.seq ∧ ∃ event ∈ events, c ∈ candidatesOf event.seq event.body := by
  unfold candidatesSince
  rw [List.mem_filter, mem_candidatesOfLog, decide_eq_true_iff, and_comm]

theorem candidatesSince_pairwise {events : List AbEvent}
    (h : events.Pairwise (fun a b => a.seq < b.seq)) (restartSeq : Nat) :
    (candidatesSince restartSeq events).Pairwise (fun c d => c.seq ≤ d.seq) :=
  (candidatesOfLog_pairwise h).filter _

theorem foldl_replayAfter (restartSeq : Nat) : ∀ (cs : List LogIndexCandidate)
    (replay : PostRestart),
    cs.foldl (PostRestart.replayAfter restartSeq) replay
      = (cs.filter fun c => restartSeq < c.seq).foldl PostRestart.replayCandidate replay
  | [], _ => rfl
  | c :: rest, replay => by
    rw [List.foldl_cons, foldl_replayAfter restartSeq rest, List.filter_cons]
    unfold PostRestart.replayAfter
    by_cases hc : c.seq ≤ restartSeq
    · simp [hc, Nat.not_lt.mpr hc]
    · have hlt : restartSeq < c.seq := Nat.lt_of_not_le hc
      simp [hlt, hc]

/-- What the replay starts from. -/
def LogIndexAcc.freshReplay (acc : LogIndexAcc) : PostRestart where
  plan := { maxRoundEver := acc.maxPlanRoundEver }
  code := { maxRoundEver := acc.maxCodeRoundEver }

/-- **The replayed part of the index is a fold of the candidates since the last revision.** -/
theorem indexLog_postRestart (events : List AbEvent) :
    (indexLog events).toPostRestart
      = (candidatesSince (lastRevised events) events).foldl PostRestart.replayCandidate
          (foldLogIndex initialLogIndexAcc events).freshReplay := by
  obtain ⟨hc, hr⟩ := candidates_foldLogIndex events
  show (foldLogIndex initialLogIndexAcc events).postRestart = _
  unfold LogIndexAcc.postRestart candidatesSince
  rw [foldl_replayAfter, hc, hr]
  rfl

theorem indexLog_restartSeq (events : List AbEvent) :
    (indexLog events).restartSeq = lastRevised events :=
  (candidates_foldLogIndex events).2

/-! ## 2. The loops -/

namespace LoopIndex

/-- What a candidate does to a loop. -/
def advance (name : LoopName) (loop : LoopIndex) : LogIndexCandidate → LoopIndex
  | .roundStart other seq round =>
    if other = name then loop.record round ({ · with startedSeq := some seq }) else loop
  | .planCompleted seq payload =>
    if .plan = name then
      loop.record payload.round fun record =>
        { record with
          completedSeq := some seq
          planCompletion := some ⟨seq, payload.artifact, payload.verifySteps⟩ }
    else loop
  | .roundTouch other _ round => if other = name then loop.record round id else loop
  | .roundCompleted other seq round =>
    if other = name then loop.record round ({ · with completedSeq := some seq }) else loop
  | .verdict other seq payload =>
    if other = name then loop.noteVerdict name seq payload else loop
  | _ => loop

theorem advance_verdict (name : LoopName) (loop : LoopIndex) (seq : Nat)
    (payload : ReviewVerdict) :
    loop.advance name (.verdict name seq payload) = loop.noteVerdict name seq payload :=
  if_pos rfl

end LoopIndex

theorem loop_replayCandidate (replay : PostRestart) (name : LoopName) (c : LogIndexCandidate) :
    (replay.replayCandidate c).loop name = (replay.loop name).advance name c := by
  cases c with
  | roundStart loop seq round => cases loop <;> cases name <;> rfl
  | planCompleted seq payload => cases name <;> rfl
  | roundTouch loop seq round => cases loop <;> cases name <;> rfl
  | roundCompleted loop seq round => cases loop <;> cases name <;> rfl
  | verdict loop seq payload => cases loop <;> cases name <;> rfl
  | _ => cases name <;> rfl

theorem loop_foldl_replayCandidate (name : LoopName) : ∀ (cs : List LogIndexCandidate)
    (replay : PostRestart),
    (cs.foldl PostRestart.replayCandidate replay).loop name
      = cs.foldl (LoopIndex.advance name) (replay.loop name)
  | [], _ => rfl
  | c :: rest, replay => by
    rw [List.foldl_cons, List.foldl_cons, loop_foldl_replayCandidate name rest,
      loop_replayCandidate]

/-- The round a candidate of a loop is about. -/
def LogIndexCandidate.round? (name : LoopName) : LogIndexCandidate → Option Nat
  | .roundStart loop _ round => if loop = name then some round else none
  | .planCompleted _ payload => if .plan = name then some payload.round else none
  | .roundTouch loop _ round => if loop = name then some round else none
  | .roundCompleted loop _ round => if loop = name then some round else none
  | .verdict loop _ payload => if loop = name then some payload.round else none
  | _ => none

theorem maxRound_advance (name : LoopName) (loop : LoopIndex) (c : LogIndexCandidate) :
    (loop.advance name c).maxRound = max loop.maxRound ((c.round? name).getD 0) := by
  unfold LoopIndex.advance LogIndexCandidate.round?
  split <;> first
    | (split <;> simp [LoopIndex.record, LoopIndex.noteVerdict])
    | simp

section Fold

variable (name : LoopName) (maxRoundEver : Nat)

/-- A loop after some candidates. -/
def loopAfter (cs : List LogIndexCandidate) : LoopIndex :=
  cs.foldl (LoopIndex.advance name) { maxRoundEver := maxRoundEver }

theorem loopAfter_snoc (cs : List LogIndexCandidate) (c : LogIndexCandidate) :
    loopAfter name maxRoundEver (cs ++ [c]) = (loopAfter name maxRoundEver cs).advance name c := by
  unfold loopAfter
  rw [List.foldl_append, List.foldl_cons, List.foldl_nil]

/-- The loop knows the highest of its rounds. -/
theorem le_maxRound {cs : List LogIndexCandidate} {c : LogIndexCandidate} {round : Nat}
    (hc : c ∈ cs) (hr : c.round? name = some round) :
    round ≤ (loopAfter name maxRoundEver cs).maxRound := by
  induction cs using List.reverseRecOn with
  | nil => exact absurd hc List.not_mem_nil
  | append_singleton cs last ih =>
    rw [loopAfter_snoc, maxRound_advance]
    rcases List.mem_append.mp hc with hc | hc
    · exact (ih hc).trans (le_max_left _ _)
    · rw [← List.mem_singleton.mp hc, hr]
      exact le_max_right _ _

/-- The latest verdict of a round among some candidates. -/
def LatestVerdict (cs : List LogIndexCandidate) (round : Nat) (v : VerdictRecord) : Prop :=
  ∃ seq payload, .verdict name seq payload ∈ cs ∧ payload.round = round ∧
    v = LoopIndex.verdictRecord seq payload ∧
    ∀ seq' payload', .verdict name seq' payload' ∈ cs → payload'.round = round → seq' ≤ seq

/-- A change of a record that leaves its verdict alone. -/
theorem verdict_record_of_keeps {loop : LoopIndex} {round : Nat}
    {f : RoundRecord → RoundRecord} (hf : ∀ record, (f record).verdict = record.verdict)
    (other : Nat) :
    (((loop.record round f).rounds.get? ⟨other⟩).bind (·.verdict))
      = (loop.rounds.get? ⟨other⟩).bind (·.verdict) := by
  unfold LoopIndex.record
  dsimp only
  rw [get?_set]
  split
  · rename_i h
    rw [h]
    cases loop.rounds.get? ⟨round⟩ with
    | none => exact hf {}
    | some record => exact hf record
  · rfl

/-- Any candidate but a verdict of the loop leaves the verdicts of the rounds alone. -/
theorem verdict_advance_of_ne {loop : LoopIndex} {c : LogIndexCandidate}
    (h : ∀ seq payload, c ≠ .verdict name seq payload) (other : Nat) :
    ((loop.advance name c).rounds.get? ⟨other⟩).bind (·.verdict)
      = (loop.rounds.get? ⟨other⟩).bind (·.verdict) := by
  unfold LoopIndex.advance
  split
  case h_5 loop' seq payload =>
    split
    · rename_i hl
      subst hl
      exact absurd rfl (h seq payload)
    · rfl
  all_goals first
    | rfl
    | split
      · exact verdict_record_of_keeps (fun _ => by rfl) other
      · rfl

theorem verdict_advance_self {loop : LoopIndex} {seq : Nat} {payload : ReviewVerdict}
    (other : Nat) :
    ((loop.advance name (.verdict name seq payload)).rounds.get? ⟨other⟩).bind (·.verdict)
      = if other = payload.round then some (LoopIndex.verdictRecord seq payload)
        else (loop.rounds.get? ⟨other⟩).bind (·.verdict) := by
  rw [LoopIndex.advance_verdict]
  unfold LoopIndex.noteVerdict LoopIndex.record
  dsimp only
  rw [get?_set]
  by_cases h : other = payload.round
  · rw [if_pos h, if_pos (by rw [h])]
    rfl
  · rw [if_neg h, if_neg (fun he => h (congrArg MapKey.key he))]

/-- **The record of a round keeps the latest verdict on it.** -/
theorem verdict_of_rounds {cs : List LogIndexCandidate}
    (hp : cs.Pairwise (fun c d => c.seq ≤ d.seq)) {round : Nat} {v : VerdictRecord}
    (h : ((loopAfter name maxRoundEver cs).rounds.get? ⟨round⟩).bind (·.verdict) = some v) :
    LatestVerdict name cs round v := by
  induction cs using List.reverseRecOn generalizing v with
  | nil => exact absurd h nofun
  | append_singleton cs c ih =>
    obtain ⟨hcs, -, hlast⟩ := List.pairwise_append.mp hp
    rw [loopAfter_snoc] at h
    by_cases hv : ∃ seq payload, c = .verdict name seq payload ∧ payload.round = round
    · obtain ⟨seq, payload, rfl, hr⟩ := hv
      rw [verdict_advance_self, if_pos hr.symm] at h
      refine ⟨seq, payload, by simp, hr, (Option.some.inj h).symm, ?_⟩
      intro seq' payload' hm _
      rcases List.mem_append.mp hm with hm | hm
      · exact hlast _ hm _ List.mem_cons_self
      · have he := List.mem_singleton.mp hm
        injection he with _ hs _
        exact hs.le
    · have hkeep : ((loopAfter name maxRoundEver cs).rounds.get? ⟨round⟩).bind (·.verdict)
          = some v := by
        by_cases hn : ∃ seq payload, c = .verdict name seq payload
        · obtain ⟨seq, payload, rfl⟩ := hn
          have hne : round ≠ payload.round := fun he => hv ⟨seq, payload, rfl, he.symm⟩
          rwa [verdict_advance_self, if_neg hne] at h
        · rwa [verdict_advance_of_ne name (fun seq payload he => hn ⟨seq, payload, he⟩)] at h
      obtain ⟨seq, payload, hm, hr, hve, hmax⟩ := ih hcs hkeep
      refine ⟨seq, payload, List.mem_append_left _ hm, hr, hve, ?_⟩
      intro seq' payload' hm' hr'
      rcases List.mem_append.mp hm' with hm' | hm'
      · exact hmax seq' payload' hm' hr'
      · exact absurd ⟨seq', payload', (List.mem_singleton.mp hm').symm, hr'⟩ hv

/-- The latest approval is at or after every approval. -/
theorem le_latestApproveSeq {cs : List LogIndexCandidate}
    (hp : cs.Pairwise (fun c d => c.seq ≤ d.seq)) {seq : Nat} {payload : ReviewVerdict}
    (hm : .verdict name seq payload ∈ cs) (ha : payload.verdict = .approve) :
    seq ≤ (loopAfter name maxRoundEver cs).latestApproveSeq := by
  induction cs using List.reverseRecOn with
  | nil => exact absurd hm List.not_mem_nil
  | append_singleton cs c ih =>
    obtain ⟨hcs, -, hlast⟩ := List.pairwise_append.mp hp
    rw [loopAfter_snoc]
    rcases List.mem_append.mp hm with hm | hm
    · have hle := ih hcs hm
      have hseq : seq ≤ c.seq := hlast _ hm _ List.mem_cons_self
      unfold LoopIndex.advance
      split
      · split <;> exact hle
      · split <;> exact hle
      · split <;> exact hle
      · split <;> exact hle
      · split
        · unfold LoopIndex.noteVerdict
          dsimp only
          split
          · exact hseq
          · exact hle
        · exact hle
      · exact hle
    · rw [← List.mem_singleton.mp hm, LoopIndex.advance_verdict]
      unfold LoopIndex.noteVerdict
      dsimp only
      rw [if_pos ha]

/-- The latest approval is the seq of an approval. -/
theorem latestApproveSeq_mem {cs : List LogIndexCandidate}
    (h : (loopAfter name maxRoundEver cs).latestApproveSeq ≠ 0) :
    ∃ payload, .verdict name (loopAfter name maxRoundEver cs).latestApproveSeq payload ∈ cs ∧
      payload.verdict = .approve := by
  induction cs using List.reverseRecOn with
  | nil => exact absurd rfl h
  | append_singleton cs c ih =>
    rw [loopAfter_snoc] at h ⊢
    by_cases hv : ∃ seq payload, c = .verdict name seq payload ∧ payload.verdict = .approve
    · obtain ⟨seq, payload, rfl, ha⟩ := hv
      refine ⟨payload, ?_, ha⟩
      rw [LoopIndex.advance_verdict]
      unfold LoopIndex.noteVerdict
      dsimp only
      rw [if_pos ha]
      simp
    · have hkeep : ((loopAfter name maxRoundEver cs).advance name c).latestApproveSeq
          = (loopAfter name maxRoundEver cs).latestApproveSeq := by
        unfold LoopIndex.advance
        split
        · split <;> rfl
        · split <;> rfl
        · split <;> rfl
        · split <;> rfl
        · rename_i loop' seq payload
          split
          · rename_i hl
            subst hl
            unfold LoopIndex.noteVerdict
            dsimp only
            rw [if_neg fun ha => hv ⟨seq, payload, rfl, ha⟩]
            rfl
          · rfl
        · rfl
      rw [hkeep] at h ⊢
      obtain ⟨payload, hm, ha⟩ := ih h
      exact ⟨payload, List.mem_append_left _ hm, ha⟩

end Fold

/-! ## 3. The boundaries and the results -/

namespace LogIndexCandidate

def completion? : LogIndexCandidate → Option VerifyRecord
  | .verifyCompleted record => some record
  | _ => none

def reconciled? : LogIndexCandidate → Option Nat
  | .reconcileCompleted seq => some seq
  | _ => none

def implemented? : LogIndexCandidate → Option Nat
  | .implementCompleted seq => some seq
  | _ => none

def reconfigured? : LogIndexCandidate → Option Nat
  | .configSuperseded seq => some seq
  | _ => none

end LogIndexCandidate

/-- What one candidate does to the fields beside the loops. -/
theorem replayCandidate_fields (replay : PostRestart) (c : LogIndexCandidate) :
    (replay.replayCandidate c).verifyCompleted
        = replay.verifyCompleted ++ c.completion?.toList ∧
      (replay.replayCandidate c).lastReconcileCompletedSeq
        = c.reconciled?.getD replay.lastReconcileCompletedSeq ∧
      (replay.replayCandidate c).lastImplementCompletedSeq
        = c.implemented?.getD replay.lastImplementCompletedSeq ∧
      (replay.replayCandidate c).verifyConfigBoundary
        = max replay.verifyConfigBoundary (c.reconfigured?.getD 0) := by
  have hn : replay.verifyCompleted = replay.verifyCompleted ++ [] := (List.append_nil _).symm
  have hm : replay.verifyConfigBoundary = max replay.verifyConfigBoundary 0 :=
    (Nat.max_zero _).symm
  cases c with
  | roundStart loop seq round => cases loop <;> exact ⟨hn, rfl, rfl, hm⟩
  | roundTouch loop seq round => cases loop <;> exact ⟨hn, rfl, rfl, hm⟩
  | roundCompleted loop seq round => cases loop <;> exact ⟨hn, rfl, rfl, hm⟩
  | verdict loop seq payload => cases loop <;> exact ⟨hn, rfl, rfl, hm⟩
  | verifyCompleted record => exact ⟨rfl, rfl, rfl, hm⟩
  | configSuperseded seq => exact ⟨hn, rfl, rfl, rfl⟩
  | _ => exact ⟨hn, rfl, rfl, hm⟩

section Latest

variable (pick : LogIndexCandidate → Option Nat)

/-- The value of the last candidate that has one, else 0. -/
def latestOf (cs : List LogIndexCandidate) : Nat := cs.foldl (fun old c => (pick c).getD old) 0

theorem latestOf_snoc (cs : List LogIndexCandidate) (c : LogIndexCandidate) :
    latestOf pick (cs ++ [c]) = (pick c).getD (latestOf pick cs) := by
  unfold latestOf
  rw [List.foldl_append, List.foldl_cons, List.foldl_nil]

variable {pick}

theorem le_latestOf (hpick : ∀ c s, pick c = some s → s = c.seq) {cs : List LogIndexCandidate}
    (hp : cs.Pairwise (fun c d => c.seq ≤ d.seq)) {c : LogIndexCandidate} {s : Nat} (hc : c ∈ cs)
    (hs : pick c = some s) : s ≤ latestOf pick cs := by
  induction cs using List.reverseRecOn with
  | nil => exact absurd hc List.not_mem_nil
  | append_singleton cs last ih =>
    obtain ⟨hcs, -, hlast⟩ := List.pairwise_append.mp hp
    rw [latestOf_snoc]
    rcases List.mem_append.mp hc with hc | hc
    · cases hl : pick last with
      | none => exact ih hcs hc
      | some t =>
        rw [hpick c s hs]
        exact (hlast c hc last List.mem_cons_self).trans (hpick last t hl).ge
    · rw [← List.mem_singleton.mp hc, hs]
      exact le_rfl

theorem latestOf_mem {cs : List LogIndexCandidate} (h : latestOf pick cs ≠ 0) :
    ∃ c ∈ cs, pick c = some (latestOf pick cs) := by
  induction cs using List.reverseRecOn with
  | nil => exact absurd rfl h
  | append_singleton cs last ih =>
    rw [latestOf_snoc] at h ⊢
    cases hl : pick last with
    | none =>
      rw [hl] at h
      obtain ⟨c, hc, hs⟩ := ih h
      exact ⟨c, List.mem_append_left _ hc, hs⟩
    | some t => exact ⟨last, by simp, hl⟩

end Latest

section Index

/-- The candidates since the last revision. -/
def fresh (events : List AbEvent) : List LogIndexCandidate :=
  candidatesSince (lastRevised events) events

theorem indexLog_loop (events : List AbEvent) (name : LoopName) :
    ∃ maxRoundEver, (indexLog events).loop name = loopAfter name maxRoundEver (fresh events) := by
  rw [indexLog_postRestart, loop_foldl_replayCandidate]
  cases name with
  | plan => exact ⟨_, rfl⟩
  | code => exact ⟨_, rfl⟩

/-- The fields beside the loops are folds of their own. -/
theorem foldl_replayCandidate_fields (cs : List LogIndexCandidate) (plan code : LoopIndex) :
    let replay := cs.foldl PostRestart.replayCandidate { plan := plan, code := code }
    replay.verifyCompleted = cs.filterMap (·.completion?) ∧
      replay.lastReconcileCompletedSeq = latestOf (·.reconciled?) cs ∧
      replay.lastImplementCompletedSeq = latestOf (·.implemented?) cs ∧
      (∀ c ∈ cs, ∀ s, c.reconfigured? = some s → s ≤ replay.verifyConfigBoundary) ∧
      (replay.verifyConfigBoundary ≠ 0 →
        ∃ c ∈ cs, c.reconfigured? = some replay.verifyConfigBoundary) := by
  induction cs using List.reverseRecOn with
  | nil => exact ⟨rfl, rfl, rfl, fun _ h => absurd h List.not_mem_nil, fun h => absurd rfl h⟩
  | append_singleton cs c ih =>
    obtain ⟨hv, hr, hi, hb, hm⟩ := ih
    dsimp only
    rw [List.foldl_append, List.foldl_cons, List.foldl_nil, List.filterMap_append, latestOf_snoc,
      latestOf_snoc]
    obtain ⟨hv', hr', hi', hb'⟩ := replayCandidate_fields
      (cs.foldl PostRestart.replayCandidate { plan := plan, code := code }) c
    refine ⟨?_, ?_, ?_, ?_, ?_⟩
    · rw [hv', hv]
      cases hc : c.completion? <;> simp [hc]
    · rw [hr', hr]
    · rw [hi', hi]
    · intro d hd s hs
      rw [hb']
      rcases List.mem_append.mp hd with hd | hd
      · exact (hb d hd s hs).trans (le_max_left _ _)
      · rw [← List.mem_singleton.mp hd, hs]
        exact le_max_right _ _
    · rw [hb']
      intro hne
      rcases max_choice (cs.foldl PostRestart.replayCandidate
        { plan := plan, code := code }).verifyConfigBoundary (c.reconfigured?.getD 0) with he | he
      · rw [he] at hne ⊢
        obtain ⟨d, hd, hs⟩ := hm hne
        exact ⟨d, List.mem_append_left _ hd, hs⟩
      · rw [he] at hne ⊢
        cases hc : c.reconfigured? with
        | none =>
          rw [hc] at hne
          exact absurd rfl hne
        | some s => exact ⟨c, by simp, hc⟩

theorem indexLog_fields (events : List AbEvent) :
    (indexLog events).verifyCompleted = (fresh events).filterMap (·.completion?) ∧
      (indexLog events).lastReconcileCompletedSeq = latestOf (·.reconciled?) (fresh events) ∧
      (indexLog events).lastImplementCompletedSeq = latestOf (·.implemented?) (fresh events) ∧
      (∀ c ∈ fresh events, ∀ s, c.reconfigured? = some s →
        s ≤ (indexLog events).verifyConfigBoundary) ∧
      ((indexLog events).verifyConfigBoundary ≠ 0 →
        ∃ c ∈ fresh events, c.reconfigured? = some (indexLog events).verifyConfigBoundary) := by
  rw [indexLog_postRestart]
  exact foldl_replayCandidate_fields _ _ _

end Index

/-! ## 4. In terms of the events -/

namespace LoopName

/-- The round an event of the loop is about. -/
def round? : LoopName → EventBody → Option Nat
  | .plan, .plan (.started payload) => some payload.round
  | .plan, .plan (.completed payload) => some payload.round
  | .plan, .planReview (.started round) => some round
  | .plan, .planReview (.verdict payload) => some payload.round
  | .code, .implement (.started payload) => some payload.round
  | .code, .implement (.completed payload) => some payload.round
  | .code, .codeReview (.started round) => some round
  | .code, .codeReview (.verdict payload) => some payload.round
  | _, _ => none

/-- The verdict of a reviewer of the loop. -/
def verdict? : LoopName → EventBody → Option ReviewVerdict
  | .plan, .planReview (.verdict payload) => some payload
  | .code, .codeReview (.verdict payload) => some payload
  | _, _ => none

end LoopName

/-- Verify results from before the event no longer count. -/
def opensCycle : EventBody → Bool
  | .codeReview (.verdict payload) => decide (payload.verdict = .approve)
  | .reconcile (.completed _) => true
  | .verify (.configCaptured _) => true
  | .verify (.configSuperseded _) => true
  | _ => false

/-- A round of the loop is one of its candidates. -/
theorem exists_candidate_of_round (seq : Nat) {name : LoopName} {round : Nat} {body : EventBody}
    (h : name.round? body = some round) :
    ∃ c ∈ candidatesOf seq body, c.round? name = some round := by
  unfold LoopName.round? at h
  split at h <;> cases h
  all_goals exact ⟨_, List.mem_cons_self, rfl⟩

theorem verdict_mem_candidatesOf {name : LoopName} {seq s : Nat} {body : EventBody}
    {payload : ReviewVerdict} :
    .verdict name s payload ∈ candidatesOf seq body ↔
      s = seq ∧ name.verdict? body = some payload := by
  constructor
  · intro h
    unfold candidatesOf at h
    split at h <;> simp at h
    all_goals
      obtain ⟨rfl, rfl, rfl⟩ := h
      exact ⟨rfl, rfl⟩
  · intro h
    obtain ⟨rfl, h⟩ := h
    unfold LoopName.verdict? at h
    split at h <;> cases h <;> exact List.mem_cons_self

theorem completion_mem_candidatesOf {seq : Nat} {body : EventBody} {record : VerifyRecord} :
    .verifyCompleted record ∈ candidatesOf seq body ↔
      ∃ payload, body = .verify (.completed payload) ∧
        record = ⟨normalizeVerifyCompletion payload, seq⟩ := by
  constructor
  · intro h
    unfold candidatesOf at h
    split at h <;> simp at h
    exact ⟨_, rfl, h⟩
  · intro h
    obtain ⟨payload, rfl, rfl⟩ := h
    exact List.mem_cons_self

/-- The boundaries are those of the events that open a cycle. -/
theorem opensCycle_iff (seq : Nat) {body : EventBody} :
    opensCycle body = true ↔
      (∃ payload, .verdict .code seq payload ∈ candidatesOf seq body ∧
        payload.verdict = .approve) ∨
      (∃ c ∈ candidatesOf seq body, c.reconciled? = some seq) ∨
      ∃ c ∈ candidatesOf seq body, c.reconfigured? = some seq := by
  unfold opensCycle candidatesOf
  split <;> simp_all [LogIndexCandidate.reconciled?, LogIndexCandidate.reconfigured?]
  split <;> simp_all

end Autobuild
