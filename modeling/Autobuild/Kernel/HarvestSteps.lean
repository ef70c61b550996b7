/-
# What one harvest event can do

The invariants of the reducer are about four things of a run: its snapshot, its reservations,
its failure and its recovery.  A workflow fact leaves them all (`workflowOf_custody`), and
`HarvestMove` says what is left to look at when an event is accepted.
-/
import Autobuild.Kernel.Harvest

namespace Autobuild

open ObjectMap Checked

/-! ## 1. Workflow facts -/

/-- A run without its steps, proposals, reviews and sessions. -/
def HarvestRunState.custody (run : HarvestRunState) : HarvestRunState :=
  { run with sessions := [], steps := [], proposals := [], reviews := [] }

theorem run_of_custody {before after : HarvestRunState} (h : after.custody = before.custody) :
    after.run = before.run := by
  show after.custody.run = before.custody.run
  rw [h]

theorem foldStepCompleted_custody (run : HarvestRunState) (payload : HarvestStepCompleted)
    (seq ts : Nat) : (foldStepCompleted run payload seq ts).custody = run.custody := by
  unfold foldStepCompleted
  dsimp only
  split <;> rfl

theorem foldHarvestSessionStarted_custody (run : HarvestRunState)
    (payload : HarvestSessionStarted) (seq ts : Nat) :
    (foldHarvestSessionStarted run payload seq ts).custody = run.custody := by
  unfold foldHarvestSessionStarted
  dsimp only
  split
  · rfl
  · split
    · rfl
    · split
      · rfl
      · split_ifs <;> rfl

/-- The fold of a workflow fact. -/
def HarvestWorkflow.fold : HarvestWorkflow → HarvestRunState → HarvestRunState
  | .required _ fold => fold
  | .tolerated _ fold => fold

theorem workflowOf_custody {seq ts : Nat} {event : HarvestEvent} {workflow : HarvestWorkflow}
    (h : workflowOf seq ts event = some workflow) (run : HarvestRunState) :
    (workflow.fold run).custody = run.custody := by
  unfold workflowOf at h
  split at h
  · rw [← Option.some.inj h]
    rfl
  · rw [← Option.some.inj h]
    exact foldStepCompleted_custody run _ seq ts
  · rw [← Option.some.inj h]
    rfl
  · rw [← Option.some.inj h]
    rfl
  · rw [← Option.some.inj h]
    exact foldHarvestSessionStarted_custody run _ seq ts
  · rw [← Option.some.inj h]
    rfl
  · exact absurd h nofun

/-! ## 2. Steps -/

def startOf? : RepositoryBody → Option HarvestStarted
  | .harvest (.started payload) => some payload
  | _ => none

def exhaustionOf? : RepositoryBody → Option HarvestRecoveryExhausted
  | .harvest (.recoveryExhausted payload) => some payload
  | _ => none

/-- An event that neither starts a run nor exhausts one. -/
def Ordinary (event : RepositoryEvent) : Prop :=
  startOf? event.body = none ∧ exhaustionOf? event.body = none

/-- What an event can do to one run while it moves no claim and no ledger. -/
inductive RunStep (seq : Nat) : HarvestRunState → HarvestRunState → Prop where
  | workflow {before after : HarvestRunState} (h : after.custody = before.custody) :
      RunStep seq before after
  | requested {before : HarvestRunState} (request : HarvestRecoveryRequest)
      (hstatus : before.status = .failed) (hexhaustion : before.recoveryExhaustion = none)
      (hacknowledged : before.recoveryRequests.any unacknowledged = false)
      (hattempt : request.attempt = before.recoveryRequests.length + 1)
      (happlied : ∀ first ∈ before.recoveryRequests.head?, request.limit = first.limit)
      (hlimit : request.attempt ≤ request.limit) :
      RunStep seq before { before with recoveryRequests := before.recoveryRequests ++ [request] }
  | reserved {before : HarvestRunState} (reservation : HarvestProposalReservation)
      (hseq : reservation.seq = seq)
      (hkey : ∀ entry ∈ before.reservations, entry.proposalKey ≠ reservation.proposalKey) :
      RunStep seq before { before with reservations := before.reservations ++ [reservation] }
  | filed {before : HarvestRunState} (payload : HarvestProposalFiled) :
      RunStep seq before (fileProposal before payload seq)
  | escalated {before : HarvestRunState} (escalation : HarvestEscalation) (ts : Nat) :
      RunStep seq before (escalateRun before escalation seq ts)
  | failed {before : HarvestRunState} (payload : HarvestFailed) :
      RunStep seq before (failRun before payload seq)

/-- Runs are kept under their own names. -/
def HarvestAcc.Named (acc : HarvestAcc) : Prop :=
  ∀ id run, acc.run? id = some run → run.run = id

/-- What an accepted event can do. -/
inductive HarvestMove (acc : HarvestAcc) (event : RepositoryEvent) (next : HarvestAcc) :
    Prop where
  | quiet (hbody : Ordinary event) (hruns : next.runs = acc.runs)
      (hclaimed : next.claimed = acc.claimed) (hledger : next.ledger = acc.ledger)
      (hseq : next.lastSeq = acc.lastSeq)
  | resumed (hbody : Ordinary event) (human : Bool)
      (hruns : next.runs
        = acc.runs.mapValues fun _ run => resumeRun human event.seq event.ts run)
      (hclaimed : next.claimed = acc.claimed) (hledger : next.ledger = acc.ledger)
      (hseq : next.lastSeq = acc.lastSeq)
  | changed (hbody : Ordinary event) (run after : HarvestRunState)
      (hrun : acc.run? run.run = some run) (hstep : RunStep event.seq run after)
      (hruns : next.runs = acc.runs.set ⟨run.run⟩ after)
      (hclaimed : next.claimed = acc.claimed) (hledger : next.ledger = acc.ledger)
      (hseq : next.lastSeq = acc.lastSeq)
  | completed (hbody : Ordinary event) (run : HarvestRunState)
      (dispositions : List HarvestDisposition) (report : ArtifactRef)
      (hrun : acc.run? run.run = some run) (hstatus : run.status = .running)
      (hruns : next.runs = acc.runs.set ⟨run.run⟩
        { run with
          status := .completed
          dispositions
          report := some report
          terminalSeq := some event.seq
          terminalAt := some event.ts })
      (hclaimed : next.claimed = acc.claimed)
      (hledger : next.ledger = acc.ledger ++ ledgerEntries dispositions run.run event.seq)
      (hseq : next.lastSeq = acc.lastSeq)
  | exhausted (run : HarvestRunState) (payload : HarvestRecoveryExhausted)
      (hbody : event.body = .harvest (.recoveryExhausted payload)) (hname : run.run = payload.run)
      (hrun : acc.run? run.run = some run)
      (hcheck : checkExhaustion run payload event.seq = .ok ())
      (hpartition : checkPartition run payload = .ok ())
      (hruns : next.runs = acc.runs.set ⟨run.run⟩ (exhaustRun run payload event.seq event.ts))
      (hclaimed : (payload.releasedObservations.map occurrenceKey).foldlM (releaseClaim run.run)
        acc.claimed = .ok next.claimed)
      (hledger : next.ledger
        = acc.ledger ++ ledgerEntries payload.committedDispositions run.run event.seq)
      (hseq : next.lastSeq = acc.lastSeq)
  | started (payload : HarvestStarted) (hbody : event.body = .harvest (.started payload))
      (hfresh : acc.run? payload.run = none)
      (hruns : next.runs = acc.runs.set ⟨payload.run⟩ (startedRun payload event.seq event.ts))
      (hclaimed : payload.observations.foldlM (claimOccurrence payload.run event.seq) acc.claimed
        = .ok next.claimed)
      (hledger : next.ledger = acc.ledger) (hseq : next.lastSeq = acc.lastSeq)

section

variable {acc next : HarvestAcc} {event : RepositoryEvent}

theorem requireRun_eq_ok {run : String} {fact : HarvestEvent} {seq : Nat}
    {state : HarvestRunState} (h : requireRun acc run fact seq = .ok state) :
    acc.run? run = some state := by
  unfold requireRun at h
  split at h
  · rename_i hr
    rw [hr, Except.ok.inj h]
  · exact absurd h nofun

theorem requireRun_ok {run : String} {fact : HarvestEvent} {seq : Nat}
    {state : HarvestRunState} (h : acc.run? run = some state) :
    requireRun acc run fact seq = .ok state := by
  unfold requireRun
  rw [h]

theorem foldRecoveryRequested_eq_ok {run : HarvestRunState} {attempt limit seq ts : Nat}
    (h : foldRecoveryRequested acc run attempt limit seq ts = .ok next) :
    ∃ after, RunStep seq run after ∧ after.run = run.run ∧ next = acc.write after := by
  unfold foldRecoveryRequested at h
  dsimp only at h
  split_ifs at h with hstatus hack hattempt happlied hlimit
  refine ⟨_, .requested { attempt, limit, seq, requestedAt := ts } ?_ ?_ ?_ ?_ ?_ ?_, rfl,
    (Except.ok.inj h).symm⟩
  · by_contra hs
    exact hstatus (Or.inl hs)
  · exact Option.not_isSome_iff_eq_none.mp fun hs => hstatus (Or.inr hs)
  · exact Bool.eq_false_of_not_eq_true hack
  · by_contra ha
    exact hattempt ha
  · intro first hfirst
    by_contra hl
    have hhead : run.recoveryRequests.head? = some first := hfirst
    refine happlied ⟨?_, ?_⟩
    · rw [hhead]
      exact nofun
    · rw [hhead]
      exact fun he => hl (Option.some.inj he)
  · exact Nat.le_of_not_gt hlimit

theorem foldIdReserved_eq_ok {run : HarvestRunState} {proposalKey id : String} {seq : Nat}
    (h : foldIdReserved acc run proposalKey id seq = .ok next) :
    next = acc ∨ ∃ after, RunStep seq run after ∧ after.run = run.run ∧ next = acc.write after := by
  unfold foldIdReserved at h
  split at h
  · split_ifs at h
    exact Or.inl (Except.ok.inj h).symm
  · rename_i hnone
    split at h
    · exact absurd h nofun
    · refine Or.inr ⟨_, .reserved ⟨proposalKey, id, seq⟩ rfl ?_, rfl, (Except.ok.inj h).symm⟩
      intro entry he hk
      exact absurd (List.find?_eq_none.mp hnone entry he) (by simp [hk])

/-- **What an accepted event can do**, whichever it is. -/
theorem foldHarvestFact_move {fact : HarvestEvent} (hnamed : acc.Named)
    (hbody : event.body = .harvest fact)
    (h : foldHarvestFact acc fact event.actor event.seq event.ts = .ok next) :
    HarvestMove acc event next := by
  have hordinary : (∀ payload, fact ≠ .started payload) →
      (∀ payload, fact ≠ .recoveryExhausted payload) → Ordinary event := by
    intro hs he
    unfold Ordinary
    rw [hbody]
    refine ⟨?_, ?_⟩
    · unfold startOf?
      split
      · rename_i payload hp
        cases hp
        exact absurd rfl (hs payload)
      · rfl
    · unfold exhaustionOf?
      split
      · rename_i payload hp
        cases hp
        exact absurd rfl (he payload)
      · rfl
  have hchanged : ∀ {id : String} {run after : HarvestRunState}, Ordinary event →
      acc.run? id = some run → RunStep event.seq run after → after.run = run.run →
      next = acc.write after → HarvestMove acc event next := by
    intro id run after ho hrun hstep hname hn
    refine .changed ho run after ?_ hstep ?_ (by rw [hn]; rfl) (by rw [hn]; rfl)
      (by rw [hn]; rfl)
    · rw [hnamed id run hrun]
      exact hrun
    · rw [hn, ← hname]
      rfl
  unfold foldHarvestFact at h
  split at h
  · rw [← Except.ok.inj h]
    exact .quiet (hordinary nofun nofun) rfl rfl rfl rfl
  · rw [← Except.ok.inj h]
    exact .quiet (hordinary nofun nofun) rfl rfl rfl rfl
  · rw [← Except.ok.inj h]
    exact .quiet (hordinary nofun nofun) rfl rfl rfl rfl
  · rw [← Except.ok.inj h]
    exact .resumed (hordinary nofun nofun) _ rfl rfl rfl rfl
  · obtain ⟨run, hrun, h⟩ := bind_eq_ok.mp h
    obtain ⟨after, hstep, hname, hn⟩ := foldRecoveryRequested_eq_ok h
    exact hchanged (hordinary nofun nofun) (requireRun_eq_ok hrun) hstep hname hn
  · rename_i payload
    obtain ⟨run, hrun, h⟩ := bind_eq_ok.mp h
    have hrun := requireRun_eq_ok hrun
    have hname := hnamed _ run hrun
    unfold foldRecoveryExhausted at h
    obtain ⟨_, hcheck, h⟩ := bind_eq_ok.mp h
    obtain ⟨_, hpartition, h⟩ := bind_eq_ok.mp h
    obtain ⟨claimed, hclaimed, h⟩ := bind_eq_ok.mp h
    rw [← Except.ok.inj h]
    exact .exhausted run payload hbody hname (by rw [hname]; exact hrun) hcheck hpartition rfl
      hclaimed rfl rfl
  · rename_i payload
    unfold foldStarted at h
    split_ifs at h with hfresh
    obtain ⟨claimed, hclaimed, h⟩ := map_eq_ok.mp h
    rw [← h]
    exact .started payload hbody (Option.not_isSome_iff_eq_none.mp hfresh) rfl hclaimed rfl rfl
  · obtain ⟨run, hrun, h⟩ := bind_eq_ok.mp h
    rcases foldIdReserved_eq_ok h with hn | ⟨after, hstep, hname, hn⟩
    · rw [hn]
      exact .quiet (hordinary nofun nofun) rfl rfl rfl rfl
    · exact hchanged (hordinary nofun nofun) (requireRun_eq_ok hrun) hstep hname hn
  · rename_i payload
    obtain ⟨run, hrun, h⟩ := bind_eq_ok.mp h
    refine hchanged (hordinary nofun nofun) (requireRun_eq_ok hrun) (.filed payload) ?_
      (Except.ok.inj h).symm
    unfold fileProposal
    split <;> rfl
  · rename_i id dispositions report
    obtain ⟨run, hrun, h⟩ := bind_eq_ok.mp h
    have hrun := requireRun_eq_ok hrun
    have h := (Except.ok.inj h).symm
    unfold foldCompleted at h
    by_cases hs : run.status = .running
    · rw [if_neg (not_not.mpr hs)] at h
      rw [h]
      refine .completed (hordinary nofun nofun) run dispositions report ?_ hs rfl rfl rfl rfl
      rw [hnamed _ run hrun]
      exact hrun
    · rw [if_pos hs] at h
      rw [h]
      exact .quiet (hordinary nofun nofun) rfl rfl rfl rfl
  · rename_i id source reason round
    obtain ⟨run, hrun, h⟩ := bind_eq_ok.mp h
    refine hchanged (hordinary nofun nofun) (requireRun_eq_ok hrun)
      (.escalated ⟨source, reason, round⟩ event.ts) ?_ (Except.ok.inj h).symm
    unfold escalateRun
    split <;> rfl
  · rename_i payload
    obtain ⟨run, hrun, h⟩ := bind_eq_ok.mp h
    refine hchanged (hordinary nofun nofun) (requireRun_eq_ok hrun) (.failed payload) ?_
      (Except.ok.inj h).symm
    unfold failRun
    split <;> rfl
  · have ho : Ordinary event := hordinary (by assumption) (by assumption)
    cases hw : workflowOf event.seq event.ts fact with
    | none =>
      rw [hw] at h
      rw [← Except.ok.inj h]
      exact .quiet ho rfl rfl rfl rfl
    | some workflow =>
      rw [hw] at h
      have hcustody := workflowOf_custody hw
      cases workflow with
      | required id fold =>
        obtain ⟨run, hrun, h⟩ := map_eq_ok.mp h
        exact hchanged ho (requireRun_eq_ok hrun) (.workflow (hcustody run))
          (run_of_custody (hcustody run)) h.symm
      | tolerated id fold =>
        unfold foldWorkflow at h
        dsimp only at h
        cases hr : acc.run? id with
        | none =>
          rw [hr] at h
          rw [← Except.ok.inj h]
          exact .quiet ho rfl rfl rfl rfl
        | some run =>
          rw [hr] at h
          exact hchanged ho hr (.workflow (hcustody run))
            (run_of_custody (hcustody run)) (Except.ok.inj h).symm

theorem foldHarvestEvent_move (hnamed : acc.Named) (h : foldHarvestEvent acc event = .ok next) :
    HarvestMove { acc with lastSeq := max acc.lastSeq event.seq } event next := by
  unfold foldHarvestEvent at h
  dsimp only at h
  split at h
  · rename_i fact hbody
    exact @foldHarvestFact_move { acc with lastSeq := max acc.lastSeq event.seq } next event
      fact hnamed hbody h
  · rename_i hbody
    rw [← Except.ok.inj h]
    refine .quiet ⟨?_, ?_⟩ rfl rfl rfl rfl
    · unfold startOf?
      split
      · rename_i payload hp
        exact absurd hp (hbody _)
      · rfl
    · unfold exhaustionOf?
      split
      · rename_i payload hp
        exact absurd hp (hbody _)
      · rfl

end

end Autobuild
