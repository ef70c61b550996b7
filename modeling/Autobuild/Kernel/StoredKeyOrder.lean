/-
# Advancing an accumulator that a store gave back

A log is folded, the accumulator is stored and given back with the keys of its objects in some
order, and the rest of the log is folded over it.

* Two things read the order of keys: what the rest ends with, through the order of the running
  members (`ShowAlike`), and `session.resumed`, through the text of a handle (`MarksAlike`).
* `OrderUnread` says that at the end the running members are shown alike, and that no session
  still there was left with another mark on the way.
* It is exactly when the advance over the rest gives the same state (`sameAdvance_iff`).
-/
import Autobuild.Kernel.ReducerKeyOrder
import Autobuild.Kernel.Incremental

namespace Autobuild

open ObjectMap Checked

variable {acc acc' : BuildAcc} {uneven : UnevenMarks}

/-! ## 1. What the end of a batch shows -/

def BuildAcc.runningMembers (acc : BuildAcc) : List VerifyMember :=
  runningVerifyMembers acc.verifyStage acc.verify.cycleSince

/-- The running members are shown alike: their steps in the same order, and the same last one
where it is shown as the phase in flight. -/
structure ShowAlike (acc acc' : BuildAcc) : Prop where
  steps : acc.runningMembers.map (·.payload.step) = acc'.runningMembers.map (·.payload.step)
  phase : yieldsToVerify acc.currentPhase = true →
    acc.shown.map memberContext = acc'.shown.map memberContext

/-- The end of a batch derives nothing that is kept by key. -/
theorem settle_keyed (acc : BuildAcc) : (settle acc).keyed = acc.keyed := by
  rw [settle_eq]
  rfl

theorem settledPhase_eq_iff {shown shown' : Option VerifyMember} {current : Option PhaseContext}
    (hs : shown.isSome = shown'.isSome) :
    settledPhase shown current = settledPhase shown' current ↔
      (yieldsToVerify current = true → shown.map memberContext = shown'.map memberContext) := by
  by_cases hy : yieldsToVerify current = true
  · cases shown with
    | none =>
      cases shown' with
      | none => exact ⟨fun _ _ => rfl, fun _ => rfl⟩
      | some member' => exact absurd hs nofun
    | some member =>
      cases shown' with
      | none => exact absurd hs nofun
      | some member' =>
        unfold settledPhase
        dsimp only
        rw [if_pos hy, if_pos hy]
        exact ⟨fun h _ => h, fun h => h hy⟩
  · rw [settledPhase_of_not_yields hy, settledPhase_of_not_yields hy]
    exact ⟨fun _ h => absurd h hy, fun _ => rfl⟩

/-- The same members run in both, in some order. -/
theorem SameAcc.runningMembers_perm (h : SameAcc uneven acc acc') :
    acc.runningMembers.Perm acc'.runningMembers := by
  have hc : acc'.verify.cycleSince = acc.verify.cycleSince := by rw [h.1]; rfl
  unfold BuildAcc.runningMembers runningVerifyMembers
  rw [hc, h.isRunning]
  exact ((sameEntries_iff_perm.mp h.2.members).filter _).map _

theorem SameAcc.shown_isSome (h : SameAcc uneven acc acc') :
    acc.shown.isSome = acc'.shown.isSome := by
  have hc : acc'.verifyStage.concurrent = acc.verifyStage.concurrent := by rw [h.1]; rfl
  have hl (xs : List VerifyMember) : xs.getLast?.isSome = !xs.isEmpty := by
    cases xs with
    | nil => rfl
    | cons x xs => rw [List.getLast?_cons]; rfl
  unfold BuildAcc.shown shownMember
  rw [hc]
  split
  · rw [hl, hl]
    exact congrArg (!·) h.runningMembers_perm.isEmpty_eq
  · rfl

/-- Cursors that agree are settled to cursors that agree. -/
theorem SameAcc.settle (h : SameAcc uneven acc acc') (hs : ShowAlike acc acc') :
    SameAcc uneven (Autobuild.settle acc) (Autobuild.settle acc') := by
  have hphase : settledPhase acc.shown acc.currentPhase
      = settledPhase acc'.shown acc.currentPhase :=
    (settledPhase_eq_iff h.shown_isSome).mpr hs.phase
  have hstep : acc.shown.map (·.payload.step) = acc'.shown.map (·.payload.step) := by
    have hc : acc'.verifyStage.concurrent = acc.verifyStage.concurrent := by rw [h.1]; rfl
    unfold BuildAcc.shown shownMember
    rw [hc]
    split
    · rw [← List.getLast?_map, ← List.getLast?_map]
      exact congrArg List.getLast? hs.steps
    · rfl
  have hsize : acc'.verifyStage.members.size = acc.verifyStage.members.size :=
    h.2.members.size_eq.symm
  have haside : settleAside acc' acc'.aside
      = { settleAside acc acc.aside with
          drainingExecutions := acc'.drainingExecutions
          endedExecutionInstances := acc'.endedExecutionInstances } := by
    unfold settleAside
    rw [hsize, show (runningVerifyMembers acc'.verifyStage acc'.verify.cycleSince).map
      (·.payload.step) = _ from hs.steps.symm, ← hstep]
    obtain ⟨k, rfl, hk⟩ := h.exists_keyed
    rw [show settledPhase (acc.withKeyed k).shown (acc.withKeyed k).aside.currentPhase
      = settledPhase acc.shown acc.currentPhase from hphase.symm]
    rfl
  refine ⟨?_, ?_⟩
  · rw [settle_keyed, settle_eq, settle_eq, haside]
    obtain ⟨k, rfl, hk⟩ := h.exists_keyed
    rfl
  · rw [settle_keyed, settle_keyed]
    exact h.2

/-- No session of an accumulator is uneven. -/
def UnevenMarks.Clear (uneven : UnevenMarks) (acc : BuildAcc) : Prop :=
  (∀ opened ∈ acc.openSessions, opened.session ∉ uneven.opened) ∧
    ∀ opened ∈ acc.suspendedSessions, opened.session ∉ uneven.suspended

/-- Accumulators that are the same finish as states that are, where no session is uneven. -/
theorem SameAcc.finishBuild_iff (h : SameAcc uneven acc acc') :
    SameState (finishBuild acc) (finishBuild acc') ↔ uneven.Clear acc := by
  have hseq : (acc'.lastEvent.map (·.seq)) = acc.lastEvent.map (·.seq) := by
    have hs (event : AbEvent) : event.canonical.seq = event.seq := by
      unfold AbEvent.canonical
      split <;> rfl
    have hl := congrArg (Option.map (·.seq)) h.2.lastEvent
    rw [Option.map_map, Option.map_map] at hl
    have hf : (fun event : AbEvent => event.seq) ∘ AbEvent.canonical = (·.seq) := funext hs
    rw [hf] at hl
    exact hl.symm
  constructor
  · intro hs
    exact ⟨h.2.openSessions.eq_iff.mp hs.2.openSessions,
      h.2.suspendedSessions.eq_iff.mp hs.2.suspendedSessions⟩
  · rintro ⟨hopen, hsuspended⟩
    have hopen' := h.2.openSessions.eq_iff.mpr hopen
    have hsuspended' := h.2.suspendedSessions.eq_iff.mpr hsuspended
    obtain ⟨k, rfl, hk⟩ := h.exists_keyed
    refine ⟨?_, { hk.toSameKeyed with
      openSessions := hopen'
      suspendedSessions := hsuspended'
      endedExecutionInstances := SameEntries.refl _ }⟩
    unfold Autobuild.finishBuild
    rw [hseq]
    rfl

/-- States that are the same show the running members alike. -/
theorem SameAcc.showAlike (h : SameAcc uneven acc acc')
    (hs : SameState (Autobuild.finishBuild (Autobuild.settle acc))
      (Autobuild.finishBuild (Autobuild.settle acc'))) : ShowAlike acc acc' := by
  rw [settle_eq, settle_eq] at hs
  have hphase : (settleAside acc' acc'.aside).currentPhase
      = (settleAside acc acc.aside).currentPhase :=
    congrArg (fun state : BuildState => state.currentPhase) hs.1
  have hrunning : (settleAside acc' acc'.aside).running
      = (settleAside acc acc.aside).running :=
    congrArg (fun state : BuildState => state.verify.running) hs.1
  refine ⟨?_, ?_⟩
  · by_cases hm : acc.verifyStage.members.size = 0
    · have hnil : acc.runningMembers = [] := by
        unfold BuildAcc.runningMembers runningVerifyMembers
        rw [List.eq_nil_of_length_eq_zero hm]
        rfl
      have hnil' : acc'.runningMembers = [] :=
        List.nil_perm.mp (by rw [← hnil]; exact h.runningMembers_perm)
      rw [hnil, hnil']
    · have hm' : ¬acc'.verifyStage.members.size = 0 := h.2.members.size_eq ▸ hm
      unfold settleAside at hrunning
      dsimp only at hrunning
      rw [if_neg hm, if_neg hm'] at hrunning
      exact (Option.some.inj hrunning).symm
  · refine (settledPhase_eq_iff h.shown_isSome).mp ?_
    have hc : acc'.currentPhase = acc.currentPhase := by rw [h.1]; rfl
    have he : settledPhase acc'.shown acc'.currentPhase
        = settledPhase acc.shown acc.currentPhase := hphase
    rw [hc] at he
    exact he.symm

/-- **The end of the log is the same exactly when the running members are shown alike and no
session is uneven.** -/
theorem SameAcc.finishBuild_settle_iff (h : SameAcc uneven acc acc') :
    SameState (Autobuild.finishBuild (Autobuild.settle acc))
      (Autobuild.finishBuild (Autobuild.settle acc')) ↔
      ShowAlike acc acc' ∧ uneven.Clear acc := by
  have hclear : uneven.Clear (Autobuild.settle acc) ↔ uneven.Clear acc := by
    unfold UnevenMarks.Clear
    rw [show (Autobuild.settle acc).openSessions = acc.openSessions from
        congrArg KeyedParts.openSessions (settle_keyed acc),
      show (Autobuild.settle acc).suspendedSessions = acc.suspendedSessions from
        congrArg KeyedParts.suspendedSessions (settle_keyed acc)]
  constructor
  · intro hs
    have hshow := h.showAlike hs
    exact ⟨hshow, hclear.mp ((h.settle hshow).finishBuild_iff.mp hs)⟩
  · rintro ⟨hshow, hc⟩
    exact (h.settle hshow).finishBuild_iff.mpr (hclear.mpr hc)

/-! ## 2. Along the rest of a log -/

/-- The states of two accumulators after the same events: the same up to the order of keys, or
the same error. -/
def SameAdvance (acc acc' : BuildAcc) (events : List StoredEvent) : Prop :=
  Related SameState ((foldBuild acc events).map finishBuild)
    ((foldBuild acc' events).map finishBuild)

/-- The rest ends with the running members shown alike, and leaves no session with another mark. -/
def OrderUnread (uneven : UnevenMarks) : BuildAcc → BuildAcc → List StoredEvent → Prop
  | acc, acc', [] => ShowAlike acc acc' ∧ uneven.Clear acc
  | acc, acc', stored :: rest =>
    ∀ next next', foldEvents acc [stored] = .ok next → foldEvents acc' [stored] = .ok next' →
      OrderUnread (uneven.afterStored acc acc' stored) next next' rest

theorem orderUnread_cons {next next' : BuildAcc} {stored : StoredEvent} {rest : List StoredEvent}
    (hn : foldEvents acc [stored] = .ok next) (hn' : foldEvents acc' [stored] = .ok next')
    (h : OrderUnread (uneven.afterStored acc acc' stored) next next' rest) :
    OrderUnread uneven acc acc' (stored :: rest) := by
  intro middle middle' he he'
  rw [← Except.ok.inj (hn.symm.trans he), ← Except.ok.inj (hn'.symm.trans he')]
  exact h

theorem foldBuild_eq (acc : BuildAcc) (events : List StoredEvent) :
    foldBuild acc events = (foldEvents acc events).map settle := by
  unfold foldBuild
  cases foldEvents acc events <;> rfl

theorem sameAdvance_nil_iff (h : SameAcc uneven acc acc') :
    SameAdvance acc acc' [] ↔ ShowAlike acc acc' ∧ uneven.Clear acc := by
  unfold SameAdvance
  rw [foldBuild_eq, foldBuild_eq, foldEvents_nil, foldEvents_nil]
  exact h.finishBuild_settle_iff

/-- After a first event the rest is an advance of what it left. -/
theorem sameAdvance_cons {acc acc' next next' : BuildAcc} {stored : StoredEvent}
    (h : foldEvents acc [stored] = .ok next) (h' : foldEvents acc' [stored] = .ok next')
    (rest : List StoredEvent) :
    SameAdvance acc acc' (stored :: rest) ↔ SameAdvance next next' rest := by
  have hc (acc next : BuildAcc) (h : foldEvents acc [stored] = .ok next) :
      foldEvents acc (stored :: rest) = foldEvents next rest := by
    rw [← List.singleton_append, foldEvents_append, h]
    rfl
  unfold SameAdvance
  rw [foldBuild_eq, foldBuild_eq, hc acc next h, hc acc' next' h', ← foldBuild_eq, ← foldBuild_eq]

/-- After a first event that throws, the rest throws. -/
theorem sameAdvance_cons_error {acc acc' : BuildAcc} {stored : StoredEvent} {message : String}
    (h : foldEvents acc [stored] = .error message)
    (h' : foldEvents acc' [stored] = .error message) (rest : List StoredEvent) :
    SameAdvance acc acc' (stored :: rest) := by
  have hc (acc : BuildAcc) (h : foldEvents acc [stored] = .error message) :
      foldEvents acc (stored :: rest) = .error message := by
    rw [← List.singleton_append, foldEvents_append, h]
    rfl
  unfold SameAdvance
  rw [foldBuild_eq, foldBuild_eq, hc acc h, hc acc' h']
  exact rfl

/-! ## 3. Every advance -/

/-- A log leaves an accumulator in which no session is open twice. -/
theorem SameAcc.of_reordered (hself : SameAcc {} acc acc) (h : Reordered acc acc') :
    SameAcc {} acc acc' :=
  ⟨h.1, { h.2 with distinct := hself.2.distinct }⟩

theorem SameAcc.self (h : SameAcc uneven acc acc') : SameAcc {} acc acc :=
  ⟨rfl, { SameKeyed.refl acc.keyed with distinct := h.2.distinct }⟩

theorem SameAcc.foldEvents_self : ∀ (events : List StoredEvent) {acc next : BuildAcc},
    SameAcc {} acc acc → foldEvents acc events = .ok next → SameAcc {} next next
  | [], acc, next, h, hn => by
    rw [← Except.ok.inj hn]
    exact h
  | stored :: rest, acc, next, h, hn => by
    rw [← List.singleton_append, foldEvents_append] at hn
    obtain ⟨middle, hm, hn⟩ := bind_eq_ok.mp hn
    have hs := h.foldEvents_singleton stored
    rw [hm] at hs
    exact SameAcc.foldEvents_self rest (SameAcc.self hs) hn

/-- The accumulators a log folded in pieces leaves. -/
theorem SameAcc.foldlM_foldBuild_self : ∀ (pieces : List (List StoredEvent)) {acc next : BuildAcc},
    SameAcc {} acc acc → pieces.foldlM foldBuild acc = .ok next → SameAcc {} next next
  | [], acc, next, h, hn => by
    rw [← Except.ok.inj hn]
    exact h
  | piece :: rest, acc, next, h, hn => by
    rw [List.foldlM_cons] at hn
    obtain ⟨settled, hs, hn⟩ := bind_eq_ok.mp hn
    obtain ⟨middle, hm, hs⟩ := bind_eq_ok.mp hs
    have hmiddle := SameAcc.foldEvents_self piece h hm
    refine SameAcc.foldlM_foldBuild_self rest ?_ hn
    rw [← Except.ok.inj hs]
    exact hmiddle.settle ⟨rfl, fun _ => rfl⟩

theorem sameAcc_initial : SameAcc {} initialBuildAcc initialBuildAcc :=
  ⟨rfl, { SameKeyed.refl _ with distinct := List.nodup_nil }⟩

/-- One event more: the marks it leaves uneven go with the rest. -/
theorem SameAcc.sameAdvance_iff : ∀ (rest : List StoredEvent) {uneven : UnevenMarks}
    {acc acc' : BuildAcc}, SameAcc uneven acc acc' →
      (SameAdvance acc acc' rest ↔ OrderUnread uneven acc acc' rest)
  | [], _, _, _, h => sameAdvance_nil_iff h
  | stored :: rest, uneven, acc, acc', h => by
    have hs := h.foldEvents_singleton stored
    cases hn : foldEvents acc [stored] with
    | error message =>
      cases hn' : foldEvents acc' [stored] with
      | error message' =>
        rw [hn, hn'] at hs
        obtain rfl : message = message' := hs
        refine iff_of_true (sameAdvance_cons_error hn hn' rest) fun next next' he => ?_
        rw [hn] at he
        cases he
      | ok next' =>
        rw [hn, hn'] at hs
        exact absurd hs id
    | ok next =>
      rw [hn] at hs
      obtain ⟨next', hn', hsame⟩ := hs.ok_left
      rw [sameAdvance_cons hn hn', SameAcc.sameAdvance_iff rest hsame]
      exact ⟨fun hrest => orderUnread_cons hn hn' hrest, fun hrest => hrest next next' hn hn'⟩

/-- **An accumulator given back with its keys in another order gives, after the rest of a log, the
same state exactly when the running members are shown alike at its end and no session of the end
was left with another mark by a resumption.** -/
theorem sameAdvance_reordered_iff {pieces : List (List StoredEvent)} {acc acc' : BuildAcc}
    (hacc : pieces.foldlM foldBuild initialBuildAcc = .ok acc) (hr : Reordered acc acc')
    (rest : List StoredEvent) :
    SameAdvance acc acc' rest ↔ OrderUnread {} acc acc' rest :=
  SameAcc.sameAdvance_iff rest
    (SameAcc.of_reordered (SameAcc.foldlM_foldBuild_self pieces sameAcc_initial hacc) hr)

/-! ## 4. What a `jsonb` column does -/

/-- A `jsonb` column orders properties by the length of their names. -/
def HandleKey.jsonbOrder : HandleOrder :=
  ⟨[.host, .runner, .version, .nativeId, .statePath, .workspacePath], by decide⟩

def OpenSession.stored (opened : OpenSession) : OpenSession :=
  { opened with
    nativeHandle := opened.nativeHandle.map ({ · with keyOrder := HandleKey.jsonbOrder }) }

/-- The handles of the open sessions are written in the order of the column. -/
def handlesStored (acc : BuildAcc) : BuildAcc :=
  acc.withKeyed { acc.keyed with openSessions := acc.openSessions.map OpenSession.stored }

theorem reordered_handlesStored (acc : BuildAcc) : Reordered acc (handlesStored acc) := by
  refine ⟨rfl, { SameKeyed.refl acc.keyed with openSessions := sameSessions_nil.mpr ?_ }⟩
  show acc.openSessions.map OpenSession.canonical
    = (acc.openSessions.map OpenSession.stored).map OpenSession.canonical
  rw [List.map_map]
  refine List.map_congr_left fun opened _ => ?_
  unfold Function.comp OpenSession.stored OpenSession.canonical
  cases opened.nativeHandle <;> rfl

/-- The members are listed last first. -/
def membersReversed (acc : BuildAcc) : BuildAcc :=
  acc.withKeyed { acc.keyed with members := acc.verifyStage.members.reverse }

theorem reordered_membersReversed (acc : BuildAcc) : Reordered acc (membersReversed acc) :=
  ⟨rfl, { SameKeyed.refl acc.keyed with members := sameEntries_reverse _ }⟩

/-- `session.started` that continues another session. -/
def continuedEvent (seq : Nat) (handle : NativeSessionHandle) : StoredEvent :=
  .known ⟨seq, 0, .kernel, .session (.started
    { continuation := some
        { predecessor := "first", root := "first", handle := handle, cause := .pause,
          activeMs := 0, budgetMs := 60000 }
      budgetMs := none
      session := "second"
      role := "implementer"
      runner := "codex"
      model := none
      args := none
      account := none
      phase := .core .implement
      round := some 1
      stream := none
      prompt := none })⟩

def resumedEvent (seq : Nat) (handle : NativeSessionHandle) : StoredEvent :=
  .known ⟨seq, 0, .kernel, .session (.resumed
    { session := "second", predecessor := "first", root := "first", handle := handle,
      cause := .pause, stale := false })⟩

def sampleHandle : NativeSessionHandle where
  runner := "codex"
  nativeId := "n1"
  host := "h1"
  workspacePath := "/w"
  statePath := none
  keyOrder := ⟨HandleKey.schemaOrder, List.Perm.refl _⟩

def endedEvent (seq : Nat) : StoredEvent :=
  .known ⟨seq, 0, .kernel, .session (.ended
    (.ended "second" none ⟨"transcript", 1⟩ ⟨10, 20, 1⟩))⟩

def memberPieces : List (List StoredEvent) :=
  [[verifyStartedEvent 1 "unit", verifyStartedEvent 2 "lint"]]

def sessionPieces : List (List StoredEvent) := [[continuedEvent 1 sampleHandle]]

/-- Members that run no longer at the end are not shown, and a session that one side marks
resumed and the other does not is over. -/
theorem sameAdvance_reordered_iff_continued :
    (∃ acc, memberPieces.foldlM foldBuild initialBuildAcc = .ok acc ∧
      SameAdvance acc (membersReversed acc)
        [verifyPassedEvent 3 "lint", verifyPassedEvent 4 "unit"]) ∧
    ∃ acc, sessionPieces.foldlM foldBuild initialBuildAcc = .ok acc ∧
      SameAdvance acc (handlesStored acc) [resumedEvent 2 sampleHandle, endedEvent 3] := by
  constructor
  · have hacc : memberPieces.foldlM foldBuild initialBuildAcc = .ok _ := rfl
    refine ⟨_, hacc, (sameAdvance_reordered_iff hacc (reordered_membersReversed _) _).mpr ?_⟩
    refine orderUnread_cons rfl rfl (orderUnread_cons rfl rfl ?_)
    exact ⟨⟨by decide +kernel, fun _ => by decide +kernel⟩, by decide +kernel, by decide +kernel⟩
  · have hacc : sessionPieces.foldlM foldBuild initialBuildAcc = .ok _ := rfl
    refine ⟨_, hacc, (sameAdvance_reordered_iff hacc (reordered_handlesStored _) _).mpr ?_⟩
    refine orderUnread_cons rfl rfl (orderUnread_cons rfl rfl ?_)
    exact ⟨⟨by decide +kernel, fun _ => by decide +kernel⟩, by decide +kernel, by decide +kernel⟩

section Observed

variable {α : Type} (f : BuildState → α)

/-- Something of the state after a log, from the accumulator kept and from the stored one. -/
def observeStored (stored : BuildAcc → BuildAcc) (before after : List StoredEvent) :
    Except String (α × α) := do
  let acc ← foldBuild initialBuildAcc before
  let next ← foldBuild acc after
  let next' ← foldBuild (stored acc) after
  return (f (finishBuild next), f (finishBuild next'))

/-- Where something that no key order changes comes out different, the advance differs. -/
theorem not_sameAdvance_of_observed
    (hf : ∀ state state', SameState state state' → f state = f state')
    {stored : BuildAcc → BuildAcc} (hs : ∀ acc, Reordered acc (stored acc))
    {before after : List StoredEvent} {a b : α}
    (h : (observeStored f stored before after).toOption = some (a, b)) (hab : a ≠ b) :
    ∃ acc, foldBuild initialBuildAcc before = .ok acc ∧ Reordered acc (stored acc) ∧
      ¬SameAdvance acc (stored acc) after := by
  unfold observeStored at h
  cases hacc : foldBuild initialBuildAcc before with
  | error message =>
    rw [hacc] at h
    exact absurd h nofun
  | ok acc =>
    refine ⟨acc, rfl, hs acc, fun hsame => ?_⟩
    rw [hacc, ok_bind] at h
    unfold SameAdvance at hsame
    cases hn : foldBuild acc after with
    | error message =>
      rw [hn] at h
      exact absurd h nofun
    | ok next =>
      cases hn' : foldBuild (stored acc) after with
      | error message =>
        rw [hn, hn'] at h
        exact absurd h nofun
      | ok next' =>
        rw [hn, hn'] at h hsame
        obtain ⟨rfl, rfl⟩ := Prod.mk.inj (Option.some.inj h)
        exact hab (hf _ _ hsame)

end Observed

/-- Two running members exchanged show another current step, and a handle given back is not
the one its session resumes with. -/
theorem not_sameAdvance_stored :
    (∃ acc, foldBuild initialBuildAcc [verifyStartedEvent 1 "unit", verifyStartedEvent 2 "lint"]
        = .ok acc ∧
      Reordered acc (membersReversed acc) ∧ ¬SameAdvance acc (membersReversed acc) []) ∧
    ∃ acc, foldBuild initialBuildAcc [continuedEvent 1 sampleHandle] = .ok acc ∧
      Reordered acc (handlesStored acc) ∧
      ¬SameAdvance acc (handlesStored acc) [resumedEvent 2 sampleHandle] := by
  constructor
  · refine not_sameAdvance_of_observed (·.verify.currentStep) (fun state state' h => ?_)
      reordered_membersReversed (a := some "lint") (b := some "unit") (by decide +kernel)
      (by decide)
    rw [h.1]
    rfl
  · refine not_sameAdvance_of_observed (·.openSessions.map (·.resumed)) (fun state state' h => ?_)
      reordered_handlesStored (a := [true]) (b := [false]) (by decide +kernel) (by decide)
    have hc := congrArg (List.map (·.resumed)) (sameSessions_nil.mp h.2.openSessions)
    rw [List.map_map, List.map_map] at hc
    exact hc

end Autobuild
