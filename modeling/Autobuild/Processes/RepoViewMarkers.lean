/-
# Markers of the repository view

What a marker guards: a write that resolved is shown by the cache, or marked, or about to be
read.

* `Harmless`: the condition on a step.  A failed read, or the start of a digests call, takes no
  marker away that still guards a write.
* `ViewHolds`: what the markers and the read in flight guarantee.
* `metadata_reflects`: in runs of harmless steps every answer reflects the writes before its call.
-/
import Autobuild.Processes.RepoViewMeta

namespace Autobuild

open ObjectMap

/-! ## 1. The condition -/

/-- A resolved write is shown by the records, or they are marked. -/
def RecordGuard (view : RepoMeta) (mark : Nat × MetaWrite) : Prop :=
  view.recordsDirty = true ∨ ShowsRecord view.records mark

/-- A resolved write is shown by the digests, or the digest is marked or missing. -/
def DigestGuard (view : RepoMeta) (mark : Nat × MetaWrite) : Prop :=
  mark.2.slug ∈ view.dirtyDigests ∨ ShowsDigest view.discovery mark ∨
    view.discovery.get? ⟨mark.2.slug⟩ = none

/-- A marked digest that does not show a write is that of a listed build. -/
def MarkListed (repo : String) (view : RepoMeta) (mark : Nat × MetaWrite) : Prop :=
  mark.2.slug ∈ view.dirtyDigests →
    (∃ record ∈ view.records, record.repo = repo ∧ record.slug = mark.2.slug) ∨
      ShowsDigest view.discovery mark ∨ view.discovery.get? ⟨mark.2.slug⟩ = none

/-- The condition on a step.  The view was not initialized, or the read that fails took no marker
that a resolved write still needs; and a digests call that starts drops no such marker. -/
def Harmless (repo : String) (system : MetaSystem) : MetaLabel → Prop
  | .fail =>
    match system.running with
    | some (.records, _) => ∀ mark ∈ system.resolved, RecordGuard system.view mark
    | some (.refreshRecords, _) => system.view.initialized = true →
      ∀ mark ∈ system.resolved, RecordGuard system.view mark ∧
        (mark.2.repo = repo → DigestGuard system.view mark)
    | some (.refreshDigests, _) => system.view.initialized = true →
      ∀ mark ∈ system.resolved, mark.2.repo = repo → DigestGuard system.view mark
    | _ => True
  | .start => ∀ head rest, system.chain = head :: rest → head.task = .digests →
      ∀ mark ∈ system.resolved, mark.2.repo = repo → MarkListed repo system.view mark
  | .other => True

/-- Runs whose steps all meet the condition. -/
def HarmlessRun (repo : String) (system : MetaSystem) : Prop :=
  Relation.ReflTransGen
    (fun before after => ∃ label, Harmless repo before label ∧ MetaStep repo before label after)
    {} system

theorem HarmlessRun.run {repo : String} {system : MetaSystem} (h : HarmlessRun repo system) :
    MetaRun repo system :=
  Relation.ReflTransGen.mono (fun _ _ ⟨label, _, hstep⟩ => ⟨label, hstep⟩) _ _ h

/-! ## 2. The view and its read in flight -/

/-- The build is among the records a read of digests asked for. -/
def AskedFor (repo : String) (asked : List ListedBuild) (mark : Nat × MetaWrite) : Prop :=
  ∃ record ∈ asked, record.repo = repo ∧ record.slug = mark.2.slug

/-- The records, once the read in flight is in. -/
def RecordHolds (view : RepoMeta) (running : Option (MetaRead × Nat)) (mark : Nat × MetaWrite) :
    Prop :=
  match running with
  | some (.refreshRecords, floor) => view.recordsDirty = true ∨ mark.1 < floor
  | some (.records, floor) => view.recordsDirty = true ∨ mark.1 < floor
  | _ => RecordGuard view mark

def AskedHolds (repo : String) (view : RepoMeta) (asked : List ListedBuild) (floor : Nat)
    (mark : Nat × MetaWrite) : Prop :=
  (AskedFor repo asked mark → mark.2.slug ∈ view.dirtyDigests ∨ mark.1 < floor) ∧
    (¬ AskedFor repo asked mark → DigestGuard view mark)

/-- The digests, once the read in flight is in. -/
def DigestHolds (repo : String) (view : RepoMeta) (running : Option (MetaRead × Nat))
    (mark : Nat × MetaWrite) : Prop :=
  match running with
  | some (.refreshRecords, _) => True
  | some (.refreshDigests, floor) => mark.2.slug ∈ view.dirtyDigests ∨ mark.1 < floor
  | some (.dirty asked, floor) => AskedHolds repo view asked floor mark
  | some (.missing asked, floor) => AskedHolds repo view asked floor mark
  | _ => DigestGuard view mark

/-- A refresh is in flight. -/
def Refreshing (running : Option (MetaRead × Nat)) : Prop :=
  ∃ floor, running = some (.refreshRecords, floor) ∨ running = some (.refreshDigests, floor)

structure ViewHolds (repo : String) (resolved : List (Nat × MetaWrite)) (view : RepoMeta)
    (running : Option (MetaRead × Nat)) : Prop where
  clean : view.initialized = true ∨ Refreshing running → view.discoveryDirty = false
  absent : ∀ asked floor, running = some (.missing asked, floor) → ∀ record ∈ asked,
    view.discovery.get? ⟨record.slug⟩ = none
  records : view.initialized = true ∨ Refreshing running → ∀ mark ∈ resolved,
    RecordHolds view running mark
  digests : view.initialized = true ∨ Refreshing running → ∀ mark ∈ resolved,
    mark.2.repo = repo → DigestHolds repo view running mark

theorem not_refreshing_none : ¬ Refreshing none := by
  rintro ⟨_, h | h⟩ <;> cases h

section View

variable {repo : String} {resolved : List (Nat × MetaWrite)} {view : RepoMeta}
  {running : Option (MetaRead × Nat)}

/-- A marked build needs no more than its marks. -/
theorem recordHolds_of_dirty (h : view.recordsDirty = true) (mark : Nat × MetaWrite) :
    RecordHolds view running mark := by
  unfold RecordHolds
  split
  · exact .inl h
  · exact .inl h
  · exact .inl h

theorem digestHolds_of_dirty {mark : Nat × MetaWrite} (h : mark.2.slug ∈ view.dirtyDigests) :
    DigestHolds repo view running mark := by
  unfold DigestHolds
  split
  · trivial
  · exact .inl h
  · exact ⟨fun _ => .inl h, fun _ => .inl h⟩
  · exact ⟨fun _ => .inl h, fun _ => .inl h⟩
  · exact .inl h

/-- More marks do no harm. -/
theorem DigestHolds.mark {mark : Nat × MetaWrite} (h : DigestHolds repo view running mark)
    {dirty : List String} (hdirty : ∀ slug ∈ view.dirtyDigests, slug ∈ dirty)
    {recordsDirty : Bool} :
    DigestHolds repo { view with recordsDirty := recordsDirty, dirtyDigests := dirty }
      running mark := by
  have hguard : DigestGuard view mark →
      DigestGuard { view with recordsDirty := recordsDirty, dirtyDigests := dirty } mark :=
    Or.imp_left (hdirty _)
  unfold DigestHolds at h ⊢
  split at h
  · trivial
  · exact h.imp_left (hdirty _)
  · exact ⟨fun ha => (h.1 ha).imp_left (hdirty _), fun ha => hguard (h.2 ha)⟩
  · exact ⟨fun ha => (h.1 ha).imp_left (hdirty _), fun ha => hguard (h.2 ha)⟩
  · exact hguard h

/-- Marking the records, and some digests. -/
theorem ViewHolds.mark (h : ViewHolds repo resolved view running) {dirty : List String}
    (hdirty : ∀ slug ∈ view.dirtyDigests, slug ∈ dirty) :
    ViewHolds repo resolved { view with recordsDirty := true, dirtyDigests := dirty } running where
  clean := h.clean
  absent := h.absent
  records _ mark _ := recordHolds_of_dirty rfl mark
  digests hactive mark hm hrepo := (h.digests hactive mark hm hrepo).mark hdirty

theorem dirtyDigests_invalidate (slug : Option String) :
    ∀ other ∈ view.dirtyDigests, other ∈ (view.invalidate slug).dirtyDigests := by
  intro other ho
  unfold RepoMeta.invalidate
  cases slug with
  | none => exact ho
  | some slug =>
    dsimp only
    split_ifs
    · exact ho
    · exact List.mem_cons_of_mem _ ho

theorem ViewHolds.invalidate (h : ViewHolds repo resolved view running) (slug : Option String) :
    ViewHolds repo resolved (view.invalidate slug) running :=
  h.mark (dirtyDigests_invalidate slug)

/-- A create or an append that resolves marks its build. -/
theorem ViewHolds.resolve (h : ViewHolds repo resolved view running) {position : Nat}
    {write : MetaWrite} (hslug : write.slug ≠ "") (hkind : write.kind ≠ .lease) :
    ViewHolds repo ((position, write) :: resolved) (view.resolved write) running := by
  have hold : ViewHolds repo resolved (view.resolved write) running := h.invalidate _
  have hmarked : write.slug ∈ (view.resolved write).dirtyDigests := by
    unfold RepoMeta.resolved RepoMeta.invalidate
    rw [if_neg hkind]
    dsimp only
    rw [if_neg hslug]
    exact List.mem_cons_self
  refine ⟨hold.clean, hold.absent, fun hactive => ?_, fun hactive => ?_⟩
  · exact List.forall_mem_cons.mpr ⟨recordHolds_of_dirty rfl _, hold.records hactive⟩
  · exact List.forall_mem_cons.mpr ⟨fun _ => digestHolds_of_dirty hmarked, hold.digests hactive⟩

/-! ## 3. The parts of a task -/

theorem get?_foldl_set_of_notMem : ∀ {entries : List (MapKey String × Nat)}
    {found : ListedDigests} {key : MapKey String}, key ∉ entries.map Prod.fst →
    (entries.foldl (fun found entry => found.set entry.1 entry.2) found).get? key = found.get? key
  | [], _, _, _ => rfl
  | (first, asOf) :: rest, found, key, h => by
    rw [List.map_cons, List.mem_cons, not_or] at h
    rw [List.foldl_cons, get?_foldl_set_of_notMem h.2, get?_set_ne _ _ h.1]

theorem get?_foldl_set_of_mem : ∀ {entries : List (MapKey String × Nat)} {found : ListedDigests}
    {key : MapKey String} {asOf : Nat}, (entries.map Prod.fst).Nodup → (key, asOf) ∈ entries →
    (entries.foldl (fun found entry => found.set entry.1 entry.2) found).get? key = some asOf
  | [], _, _, _, _, h => absurd h List.not_mem_nil
  | (first, value) :: rest, found, key, asOf, hnodup, h => by
    rw [List.map_cons, List.nodup_cons] at hnodup
    rw [List.foldl_cons]
    rcases List.mem_cons.mp h with he | h
    · cases he
      rw [get?_foldl_set_of_notMem hnodup.1, get?_set_self]
    · exact get?_foldl_set_of_mem hnodup.2 h

theorem get?_mergeDigests (digests : ListedDigests) (slug : String) :
    (view.mergeDigests digests).discovery.get? ⟨slug⟩
      = (digests.get? ⟨slug⟩).or (view.discovery.get? ⟨slug⟩) := by
  unfold RepoMeta.mergeDigests
  cases h : digests.get? ⟨slug⟩ with
  | some asOf => exact get?_foldl_set_of_mem digests.nodup (get?_eq_some.mp h)
  | none => exact get?_foldl_set_of_notMem (get?_eq_none.mp h)

theorem startTask_list_of_dirty (h : view.recordsDirty = true) :
    view.startTask repo .list = ({ view with recordsDirty := false }, some .records) :=
  if_pos h

theorem startTask_list_of_clean (h : ¬ view.recordsDirty = true) :
    view.startTask repo .list = (view, none) :=
  if_neg h

section Parts

variable {now : Nat} (hnow : ∀ mark ∈ resolved, mark.1 < now)

include hnow

/-- A refresh takes all marks, before it reads everything. -/
theorem ViewHolds.startRefresh :
    ViewHolds repo resolved (view.startTask repo .refresh).1 (some (.refreshRecords, now)) where
  clean _ := rfl
  absent _ _ h := by cases h
  records _ mark hm := .inr (hnow mark hm)
  digests _ _ _ _ := trivial

theorem ViewHolds.startList (h : ViewHolds repo resolved view none)
    (hinit : view.initialized = true) :
    ViewHolds repo resolved (view.startTask repo .list).1
      ((view.startTask repo .list).2.map (·, now)) := by
  by_cases hdirty : view.recordsDirty = true
  · rw [startTask_list_of_dirty hdirty]
    exact ⟨fun _ => h.clean (.inl hinit), fun _ _ he => (by cases he),
      fun _ mark hm => .inr (hnow mark hm), fun _ => h.digests (.inl hinit)⟩
  · rw [startTask_list_of_clean hdirty]
    exact h

theorem ViewHolds.readMissing (h : ViewHolds repo resolved view none)
    (hinit : view.initialized = true) :
    ViewHolds repo resolved (view.readMissing repo).1
      ((view.readMissing repo).2.map (·, now)) := by
  unfold RepoMeta.readMissing
  split_ifs with hnone
  · exact h
  · refine ⟨fun _ => h.clean (.inl hinit), ?_, fun _ => h.records (.inl hinit), ?_⟩
    · rintro asked floor ⟨⟩ record hr
      have hmissing := (List.mem_filter.mp hr).2
      simp only [decide_eq_true_eq] at hmissing
      exact Option.isNone_iff_eq_none.mp hmissing.2
    · exact fun _ mark hm hrepo =>
        ⟨fun _ => .inr (hnow mark hm), fun _ => h.digests (.inl hinit) mark hm hrepo⟩

/-- The marks of listed builds are taken, and no others that matter. -/
theorem ViewHolds.readDirty (h : ViewHolds repo resolved view none)
    (hinit : view.initialized = true)
    (hlisted : ∀ mark ∈ resolved, mark.2.repo = repo → MarkListed repo view mark) :
    ViewHolds repo resolved (view.readDirty repo).1 ((view.readDirty repo).2.map (·, now)) := by
  unfold RepoMeta.readDirty
  split_ifs with hnone
  · exact h.readMissing hnow hinit
  · refine ⟨fun _ => h.clean (.inl hinit), fun _ _ he => (by cases he),
      fun _ => h.records (.inl hinit), fun _ mark hm hrepo => ?_⟩
    refine ⟨fun _ => .inr (hnow mark hm), fun hnot => ?_⟩
    rcases h.digests (.inl hinit) mark hm hrepo with hmarked | hrest
    · rcases hlisted mark hm hrepo hmarked with ⟨record, hr, hrr, hrs⟩ | hrest
      · refine absurd ⟨record, ?_, hrr, hrs⟩ hnot
        exact List.mem_filter.mpr ⟨hr, by rw [hrs]; simpa using hmarked⟩
      · exact .inr hrest
    · exact .inr hrest

theorem ViewHolds.resumeRefresh {floor : Nat} {records : List ListedBuild}
    (h : ViewHolds repo resolved view (some (.refreshRecords, floor)))
    (hshows : ∀ mark ∈ resolved, mark.1 < floor → ShowsRecord records mark) :
    ViewHolds repo resolved { view with records := records } (some (.refreshDigests, now)) where
  clean _ := h.clean (.inr ⟨floor, .inl rfl⟩)
  absent _ _ he := by cases he
  records _ mark hm := (h.records (.inr ⟨floor, .inl rfl⟩) mark hm).imp_right (hshows mark hm)
  digests _ mark hm _ := .inr (hnow mark hm)

end Parts

theorem ViewHolds.resumeList {floor : Nat} {records : List ListedBuild}
    (h : ViewHolds repo resolved view (some (.records, floor)))
    (hinit : view.initialized = true)
    (hshows : ∀ mark ∈ resolved, mark.1 < floor → ShowsRecord records mark) :
    ViewHolds repo resolved { view with records := records } none where
  clean _ := h.clean (.inl hinit)
  absent _ _ he := by cases he
  records _ mark hm := (h.records (.inl hinit) mark hm).imp_right (hshows mark hm)
  digests _ := h.digests (.inl hinit)

theorem ViewHolds.endRefresh {floor : Nat} {digests : ListedDigests}
    (h : ViewHolds repo resolved view (some (.refreshDigests, floor)))
    (hshows : ∀ mark ∈ resolved, mark.2.repo = repo → mark.1 < floor → ShowsDigest digests mark) :
    ViewHolds repo resolved { view with discovery := digests, initialized := true } none where
  clean _ := h.clean (.inr ⟨floor, .inr rfl⟩)
  absent _ _ he := by cases he
  records _ := h.records (.inr ⟨floor, .inr rfl⟩)
  digests _ mark hm hrepo :=
    (h.digests (.inr ⟨floor, .inr rfl⟩) mark hm hrepo).imp_right
      fun hlt => .inl (hshows mark hm hrepo hlt)

/-- The answer shows what was asked for, and leaves the rest alone. -/
theorem showsDigest_merge {asked : List ListedBuild} {floor : Nat} {digests : ListedDigests}
    (hhonest : HonestPersisted repo asked floor digests) {mark : Nat × MetaWrite}
    (hasked : AskedFor repo asked mark) (hlt : mark.1 < floor) :
    ShowsDigest (view.mergeDigests digests).discovery mark := by
  obtain ⟨record, hr, hrr, hrs⟩ := hasked
  obtain ⟨asOf, hfound⟩ := hhonest.found record hr hrr
  rw [hrs] at hfound
  refine ⟨asOf, ?_, Nat.lt_of_lt_of_le hlt (hhonest.current _ _ hfound).1⟩
  rw [get?_mergeDigests, hfound]
  rfl

theorem get?_merge_of_not_asked (view : RepoMeta) {asked : List ListedBuild} {floor : Nat}
    {digests : ListedDigests} (hhonest : HonestPersisted repo asked floor digests)
    {mark : Nat × MetaWrite} (hasked : ¬ AskedFor repo asked mark) :
    (view.mergeDigests digests).discovery.get? ⟨mark.2.slug⟩
      = view.discovery.get? ⟨mark.2.slug⟩ := by
  rw [get?_mergeDigests]
  cases hfound : digests.get? ⟨mark.2.slug⟩ with
  | none => rfl
  | some asOf => exact absurd (hhonest.current _ _ hfound).2 hasked

theorem AskedHolds.merge {asked : List ListedBuild} {floor : Nat} {digests : ListedDigests}
    {mark : Nat × MetaWrite} (h : AskedHolds repo view asked floor mark)
    (hhonest : HonestPersisted repo asked floor digests) :
    DigestGuard (view.mergeDigests digests) mark := by
  by_cases hasked : AskedFor repo asked mark
  · exact (h.1 hasked).imp_right fun hlt => .inl (showsDigest_merge hhonest hasked hlt)
  · have hsame := get?_merge_of_not_asked view hhonest hasked
    rcases h.2 hasked with hmarked | ⟨asOf, hfound, hlt⟩ | hnone
    · exact .inl hmarked
    · exact .inr (.inl ⟨asOf, hsame.trans hfound, hlt⟩)
    · exact .inr (.inr (hsame.trans hnone))

theorem ViewHolds.merge {read : MetaRead} {asked : List ListedBuild} {floor : Nat}
    {digests : ListedDigests} (hread : read = .dirty asked ∨ read = .missing asked)
    (h : ViewHolds repo resolved view (some (read, floor))) (hinit : view.initialized = true)
    (hhonest : HonestPersisted repo asked floor digests) :
    ViewHolds repo resolved (view.mergeDigests digests) none := by
  refine ⟨fun _ => h.clean (.inl hinit), fun _ _ he => (by cases he), fun _ mark hm => ?_,
    fun _ mark hm hrepo => ?_⟩
  · have hguard := h.records (.inl hinit) mark hm
    rcases hread with rfl | rfl <;> exact hguard
  · have hholds := h.digests (.inl hinit) mark hm hrepo
    rcases hread with rfl | rfl <;> exact AskedHolds.merge hholds hhonest

end View

/-! ## 4. Calls -/

/-- A call whose records were read has the builds of its writes among them, and no listing that
may still replace them is older. -/
def Listed (view : RepoMeta) (running : Option (MetaRead × Nat)) (mark : Nat × MetaWrite) :
    Prop :=
  ShowsRecord view.records mark ∧
    ∀ read floor, running = some (read, floor) → read.isListing = true → mark.1 < floor

structure TaskHolds (resolved : List (Nat × MetaWrite)) (view : RepoMeta)
    (running : Option (MetaRead × Nat)) (call : MetaCall) (task : MetaTask) : Prop where
  initialized : task ≠ .refresh → view.initialized = true
  before : ∀ mark ∈ call.before, mark ∈ resolved
  listed : task = .digests → ∀ mark ∈ call.before, Listed view running mark

def StageHolds (resolved : List (Nat × MetaWrite)) (view : RepoMeta)
    (running : Option (MetaRead × Nat)) (call : MetaCall) : MetaStage → Prop
  | .journal => ∀ mark ∈ call.before, mark ∈ resolved
  | .next task => TaskHolds resolved view running call task

/-- What the task that runs makes sure of for its call. -/
def HeadHolds (repo : String) (view : RepoMeta) (head : ChainedTask) (floor : Nat) :
    MetaRead → Prop
  | .refreshRecords => head.task = .refresh
  | .refreshDigests => head.task = .refresh
  | .records => head.task = .list ∧ ∀ mark ∈ head.call.before, mark.1 < floor
  | .digests => False
  | .dirty asked => head.task = .digests ∧ ∀ mark ∈ head.call.before, mark.2.repo = repo →
      mark.1 < floor ∧ (AskedFor repo asked mark ∨ ShowsDigest view.discovery mark ∨
        view.discovery.get? ⟨mark.2.slug⟩ = none)
  | .missing asked => head.task = .digests ∧ ∀ mark ∈ head.call.before, mark.2.repo = repo →
      mark.1 < floor ∧ (AskedFor repo asked mark ∨ ShowsDigest view.discovery mark)

/-- What a task that ends has done for its call. -/
def FinishHolds (repo : String) (view : RepoMeta) (head : ChainedTask) : Prop :=
  match head.task with
  | .refresh => view.initialized = true
  | .list => view.initialized = true ∧ ∀ mark ∈ head.call.before, ShowsRecord view.records mark
  | .digests => ∀ mark ∈ head.call.before, mark.2.repo = repo → ShowsDigest view.discovery mark

structure MetaHolds (repo : String) (system : MetaSystem) : Prop where
  committed : ∀ mark ∈ system.resolved, system.committed[mark.1]? = some mark.2
  slugs : ∀ write ∈ system.committed, write.slug ≠ ""
  view : ViewHolds repo system.resolved system.view system.running
  waiting : ∀ waits ∈ system.waiting,
    StageHolds system.resolved system.view system.running waits.1 waits.2
  chain : ∀ chained ∈ system.chain,
    TaskHolds system.resolved system.view system.running chained.call chained.task
  head : ∀ read floor, system.running = some (read, floor) → ∃ head rest,
    system.chain = head :: rest ∧ HeadHolds repo system.view head floor read
  answered : ∀ answer ∈ system.answered, Reflects repo answer.1 answer.2

section Calls

variable {repo : String} {resolved resolved' : List (Nat × MetaWrite)} {view view' : RepoMeta}
  {running running' : Option (MetaRead × Nat)} {call : MetaCall}

theorem TaskHolds.imp {task : MetaTask} (h : TaskHolds resolved view running call task)
    (hinit : view.initialized = true → view'.initialized = true)
    (hresolved : ∀ mark ∈ resolved, mark ∈ resolved')
    (hlisted : ∀ mark ∈ resolved, Listed view running mark → Listed view' running' mark) :
    TaskHolds resolved' view' running' call task where
  initialized htask := hinit (h.initialized htask)
  before mark hm := hresolved mark (h.before mark hm)
  listed htask mark hm := hlisted mark (h.before mark hm) (h.listed htask mark hm)

theorem StageHolds.imp {stage : MetaStage} (h : StageHolds resolved view running call stage)
    (hinit : view.initialized = true → view'.initialized = true)
    (hresolved : ∀ mark ∈ resolved, mark ∈ resolved')
    (hlisted : ∀ mark ∈ resolved, Listed view running mark → Listed view' running' mark) :
    StageHolds resolved' view' running' call stage := by
  cases stage with
  | journal => exact fun mark hm => hresolved mark (h mark hm)
  | next task => exact TaskHolds.imp h hinit hresolved hlisted

/-- The head of a digests task that goes on to the missing digests, or ends. -/
theorem readMissing_head {head : ChainedTask} {now : Nat} (htask : head.task = .digests)
    (hnow : ∀ mark ∈ head.call.before, mark.1 < now)
    (hshows : ∀ mark ∈ head.call.before, ShowsRecord view.records mark)
    (hdigests : ∀ mark ∈ head.call.before, mark.2.repo = repo →
      ShowsDigest view.discovery mark ∨ view.discovery.get? ⟨mark.2.slug⟩ = none) :
    (∀ read, (view.readMissing repo).2 = some read →
      HeadHolds repo (view.readMissing repo).1 head now read) ∧
      ((view.readMissing repo).2 = none → FinishHolds repo (view.readMissing repo).1 head) := by
  have hmissing : ∀ mark ∈ head.call.before, mark.2.repo = repo →
      AskedFor repo (view.missingRecords repo) mark ∨ ShowsDigest view.discovery mark := by
    intro mark hm hrepo
    refine (hdigests mark hm hrepo).symm.imp_left fun hnone => ?_
    obtain ⟨record, hr, hrs, hrr, -⟩ := hshows mark hm
    refine ⟨record, List.mem_filter.mpr ⟨hr, ?_⟩, hrr.trans hrepo, hrs⟩
    rw [hrs, hnone]
    simpa using hrr.trans hrepo
  unfold RepoMeta.readMissing
  split_ifs with hnone
  · refine ⟨fun _ h => (by cases h), fun _ => ?_⟩
    unfold FinishHolds
    rw [htask]
    intro mark hm hrepo
    refine (hmissing mark hm hrepo).resolve_left ?_
    rintro ⟨record, hr, -⟩
    rw [hnone] at hr
    exact absurd hr List.not_mem_nil
  · refine ⟨?_, fun h => (by cases h)⟩
    rintro _ ⟨⟩
    exact ⟨htask, fun mark hm hrepo => ⟨hnow mark hm, hmissing mark hm hrepo⟩⟩

/-- The head of a digests task that starts. -/
theorem readDirty_head {head : ChainedTask} {now : Nat} (htask : head.task = .digests)
    (hnow : ∀ mark ∈ head.call.before, mark.1 < now)
    (hshows : ∀ mark ∈ head.call.before, ShowsRecord view.records mark)
    (hdigests : ∀ mark ∈ head.call.before, mark.2.repo = repo → DigestGuard view mark) :
    (∀ read, (view.readDirty repo).2 = some read →
      HeadHolds repo (view.readDirty repo).1 head now read) ∧
      ((view.readDirty repo).2 = none → FinishHolds repo (view.readDirty repo).1 head) := by
  unfold RepoMeta.readDirty
  split_ifs with hnone
  · refine readMissing_head htask hnow hshows fun mark hm hrepo => ?_
    refine (hdigests mark hm hrepo).resolve_left ?_
    rw [hnone]
    exact List.not_mem_nil
  · refine ⟨?_, fun h => (by cases h)⟩
    rintro _ ⟨⟩
    refine ⟨htask, fun mark hm hrepo => ⟨hnow mark hm, ?_⟩⟩
    refine (hdigests mark hm hrepo).imp_left fun hmarked => ?_
    obtain ⟨record, hr, hrs, hrr, -⟩ := hshows mark hm
    refine ⟨record, List.mem_filter.mpr ⟨hr, ?_⟩, hrr.trans hrepo, hrs⟩
    rw [hrs]
    simpa using hmarked

end Calls

/-! ## 5. Steps and runs -/

section Steps

variable {repo : String} {system system' : MetaSystem}

theorem MetaHolds.lt (h : MetaHolds repo system) :
    ∀ mark ∈ system.resolved, mark.1 < system.committed.length := fun mark hm => by
  obtain ⟨hlt, -⟩ := List.getElem?_eq_some_iff.mp (h.committed mark hm)
  exact hlt

/-- The end of a task. -/
theorem MetaHolds.finish (h : MetaHolds repo system) {head : ChainedTask}
    {rest : List ChainedTask} (hchain : system.chain = head :: rest) {view : RepoMeta}
    (hview : ViewHolds repo system.resolved view none)
    (hinit : system.view.initialized = true → view.initialized = true)
    (hlisted : ∀ mark ∈ system.resolved, Listed system.view system.running mark →
      ShowsRecord view.records mark)
    (hfinish : FinishHolds repo view head) :
    MetaHolds repo (system.finish view head rest) := by
  have hlisted' : ∀ mark ∈ system.resolved, Listed system.view system.running mark →
      Listed view none mark :=
    fun mark hm hl => ⟨hlisted mark hm hl, fun _ _ he => by cases he⟩
  have hbefore := (h.chain head (by rw [hchain]; exact List.mem_cons_self)).before
  have hwaiting : ∀ waits ∈ system.waiting,
      StageHolds system.resolved view none waits.1 waits.2 :=
    fun waits hw => (h.waiting waits hw).imp hinit (fun _ hm => hm) hlisted'
  have hrest : ∀ chained ∈ rest,
      TaskHolds system.resolved view none chained.call chained.task :=
    fun chained hc => (h.chain chained (by rw [hchain]; exact List.mem_cons_of_mem _ hc)).imp
      hinit (fun _ hm => hm) hlisted'
  have hdone : MetaHolds repo { system with view := view, chain := rest, running := none } :=
    ⟨h.committed, h.slugs, hview, hwaiting, hrest, fun _ _ he => (by cases he), h.answered⟩
  obtain ⟨call, task⟩ := head
  obtain ⟨kind, before⟩ := call
  unfold FinishHolds at hfinish
  unfold MetaSystem.finish
  cases task with
  | refresh =>
    have hnext : TaskHolds system.resolved view none ⟨kind, before⟩ .list :=
      ⟨fun _ => hfinish, hbefore, fun ht => (by cases ht)⟩
    cases kind with
    | refresh => exact hdone
    | list =>
      exact { hdone with waiting := List.forall_mem_cons.mpr ⟨hnext, hwaiting⟩ }
    | digests =>
      exact { hdone with waiting := List.forall_mem_cons.mpr ⟨hnext, hwaiting⟩ }
  | list =>
    have hnext : TaskHolds system.resolved view none ⟨kind, before⟩ .digests :=
      ⟨fun _ => hfinish.1, hbefore, fun _ mark hm =>
        ⟨hfinish.2 mark hm, fun _ _ he => by cases he⟩⟩
    have hanswer : Reflects repo ⟨kind, before⟩ (.listed view.records) := hfinish.2
    cases kind with
    | refresh =>
      exact { hdone with answered := List.forall_mem_cons.mpr ⟨hanswer, h.answered⟩ }
    | list =>
      exact { hdone with answered := List.forall_mem_cons.mpr ⟨hanswer, h.answered⟩ }
    | digests =>
      exact { hdone with waiting := List.forall_mem_cons.mpr ⟨hnext, hwaiting⟩ }
  | digests =>
    have hanswer : Reflects repo ⟨kind, before⟩ (.digests view.discovery) := hfinish
    cases kind <;>
      exact { hdone with answered := List.forall_mem_cons.mpr ⟨hanswer, h.answered⟩ }

/-- On to the next await, or to the end. -/
theorem MetaHolds.proceed (h : MetaHolds repo system) {head : ChainedTask}
    {rest : List ChainedTask} (hchain : system.chain = head :: rest)
    {out : RepoMeta × Option MetaRead}
    (hview : ViewHolds repo system.resolved out.1 (out.2.map (·, system.committed.length)))
    (hinit : system.view.initialized = true → out.1.initialized = true)
    (hlisted : ∀ mark ∈ system.resolved, Listed system.view system.running mark →
      ShowsRecord out.1.records mark)
    (hhead : (∀ read, out.2 = some read →
      HeadHolds repo out.1 head system.committed.length read) ∧
        (out.2 = none → FinishHolds repo out.1 head)) :
    MetaHolds repo (system.proceed head rest out) := by
  obtain ⟨view, next⟩ := out
  cases next with
  | none => exact h.finish hchain hview hinit hlisted (hhead.2 rfl)
  | some read =>
    have hlisted' : ∀ mark ∈ system.resolved, Listed system.view system.running mark →
        Listed view (some (read, system.committed.length)) mark := by
      intro mark hm hl
      refine ⟨hlisted mark hm hl, fun _ _ he _ => ?_⟩
      cases he
      exact h.lt mark hm
    exact ⟨h.committed, h.slugs, hview,
      fun waits hw => (h.waiting waits hw).imp hinit (fun _ hm => hm) hlisted',
      fun chained hc => (h.chain chained hc).imp hinit (fun _ hm => hm) hlisted',
      fun _ _ he => by
        cases he
        exact ⟨head, rest, hchain, hhead.1 read rfl⟩,
      h.answered⟩

/-- Marks change neither the records nor the digests. -/
theorem HeadHolds.remark {view view' : RepoMeta} {head : ChainedTask} {floor : Nat}
    {read : MetaRead} (h : HeadHolds repo view head floor read)
    (hdiscovery : view'.discovery = view.discovery) : HeadHolds repo view' head floor read := by
  unfold HeadHolds at h ⊢
  rw [hdiscovery]
  exact h

theorem MetaHolds.remark (h : MetaHolds repo system) {view : RepoMeta}
    {resolved : List (Nat × MetaWrite)}
    (hcommitted : ∀ mark ∈ resolved, system.committed[mark.1]? = some mark.2)
    (hresolved : ∀ mark ∈ system.resolved, mark ∈ resolved)
    (hview : ViewHolds repo resolved view system.running)
    (hinit : view.initialized = system.view.initialized)
    (hrecords : view.records = system.view.records)
    (hdiscovery : view.discovery = system.view.discovery) :
    MetaHolds repo { system with view := view, resolved := resolved } := by
  have hinit' : system.view.initialized = true → view.initialized = true := fun hi => by
    rw [hinit, hi]
  have hlisted : ∀ mark ∈ system.resolved, Listed system.view system.running mark →
      Listed view system.running mark := by
    rintro mark - ⟨hshows, hfloor⟩
    exact ⟨by rw [hrecords]; exact hshows, hfloor⟩
  refine ⟨hcommitted, h.slugs, hview,
    fun waits hw => (h.waiting waits hw).imp hinit' hresolved hlisted,
    fun chained hc => (h.chain chained hc).imp hinit' hresolved hlisted,
    fun read floor he => ?_, h.answered⟩
  obtain ⟨head, rest, hchain, hhead⟩ := h.head read floor he
  exact ⟨head, rest, hchain, hhead.remark hdiscovery⟩

theorem MetaHolds.start (h : MetaHolds repo system) {head : ChainedTask}
    {rest : List ChainedTask} (hrunning : system.running = none)
    (hchain : system.chain = head :: rest) (hharmless : Harmless repo system .start) :
    MetaHolds repo (system.proceed head rest (system.view.startTask repo head.task)) := by
  have hview := h.view
  rw [hrunning] at hview
  have htask := h.chain head (by rw [hchain]; exact List.mem_cons_self)
  have hbefore : ∀ mark ∈ head.call.before, mark.1 < system.committed.length :=
    fun mark hm => h.lt mark (htask.before mark hm)
  cases hkind : head.task with
  | refresh =>
    refine h.proceed hchain (ViewHolds.startRefresh h.lt) (fun hi => hi)
      (fun mark _ hl => hl.1) ⟨?_, fun hn => by cases hn⟩
    rintro _ ⟨⟩
    exact hkind
  | list =>
    have hinit := htask.initialized (by rw [hkind]; decide)
    refine h.proceed hchain (hview.startList h.lt hinit) ?_ ?_ ?_
    · intro hi
      unfold RepoMeta.startTask
      dsimp only
      split_ifs <;> exact hi
    · intro mark _ hl
      unfold RepoMeta.startTask
      dsimp only
      split_ifs <;> exact hl.1
    · by_cases hdirty : system.view.recordsDirty = true
      · rw [startTask_list_of_dirty hdirty]
        refine ⟨?_, fun hn => by cases hn⟩
        rintro _ ⟨⟩
        exact ⟨hkind, hbefore⟩
      · rw [startTask_list_of_clean hdirty]
        refine ⟨fun _ hn => (by cases hn), fun _ => ?_⟩
        unfold FinishHolds
        rw [hkind]
        exact ⟨hinit, fun mark hm =>
          (hview.records (.inl hinit) mark (htask.before mark hm)).resolve_left hdirty⟩
  | digests =>
    have hinit := htask.initialized (by rw [hkind]; decide)
    have hclean : ¬ system.view.discoveryDirty = true := by
      rw [hview.clean (.inl hinit)]
      exact Bool.false_ne_true
    have hstart : system.view.startTask repo .digests = system.view.readDirty repo :=
      if_neg hclean
    have hdigests : ∀ mark ∈ head.call.before, mark.2.repo = repo →
        DigestGuard system.view mark :=
      fun mark hm hrepo => hview.digests (.inl hinit) mark (htask.before mark hm) hrepo
    have hshows : ∀ mark ∈ head.call.before, ShowsRecord system.view.records mark :=
      fun mark hm => (htask.listed hkind mark hm).1
    have hframe : (system.view.readDirty repo).1.initialized = system.view.initialized ∧
        (system.view.readDirty repo).1.records = system.view.records := by
      unfold RepoMeta.readDirty RepoMeta.readMissing
      split_ifs <;> exact ⟨rfl, rfl⟩
    rw [hstart]
    refine h.proceed hchain
      (hview.readDirty h.lt hinit (hharmless head rest hchain hkind)) (fun hi => ?_)
      (fun mark _ hl => ?_) (readDirty_head hkind hbefore hshows hdigests)
    · rw [hframe.1, hi]
    · rw [hframe.2]
      exact hl.1

/-- An honest listing shows what was committed before it was asked for. -/
theorem MetaHolds.shows_listing (h : MetaHolds repo system) {floor : Nat}
    {records : List ListedBuild} (hhonest : HonestListing system.committed floor records) :
    ∀ mark ∈ system.resolved, mark.1 < floor → ShowsRecord records mark := by
  intro mark hm hlt
  obtain ⟨record, hr, hrs, hrr, hasOf⟩ := hhonest mark.1 mark.2 (h.committed mark hm) hlt
  exact ⟨record, hr, hrs, hrr, Nat.lt_of_lt_of_le hlt hasOf⟩

theorem MetaHolds.shows_digests (h : MetaHolds repo system) {floor : Nat}
    {digests : ListedDigests} (hhonest : HonestDigests repo system.committed floor digests) :
    ∀ mark ∈ system.resolved, mark.2.repo = repo → mark.1 < floor →
      ShowsDigest digests mark := by
  intro mark hm hrepo hlt
  obtain ⟨asOf, hfound, hasOf⟩ := hhonest mark.1 mark.2 (h.committed mark hm) hlt hrepo
  exact ⟨asOf, hfound, Nat.lt_of_lt_of_le hlt hasOf⟩

theorem MetaHolds.listed (h : MetaHolds repo system) {head : ChainedTask}
    {rest : List ChainedTask} {read : MetaRead} {floor : Nat} {records : List ListedBuild}
    (hrunning : system.running = some (read, floor)) (hchain : system.chain = head :: rest)
    (hread : read.isListing = true) (hhonest : HonestListing system.committed floor records) :
    MetaHolds repo (system.proceed head rest (system.view.resumeListed records read)) := by
  have hview := h.view
  rw [hrunning] at hview
  have hshows := h.shows_listing hhonest
  have htask := h.chain head (by rw [hchain]; exact List.mem_cons_self)
  have hlisted : ∀ mark ∈ system.resolved, Listed system.view system.running mark →
      ShowsRecord records mark :=
    fun mark hm hl => hshows mark hm (hl.2 read floor hrunning hread)
  obtain ⟨head', rest', hchain', hhead⟩ := h.head read floor hrunning
  obtain ⟨rfl, rfl⟩ := List.cons.inj (hchain.symm.trans hchain')
  cases read with
  | refreshRecords =>
    refine h.proceed hchain (hview.resumeRefresh h.lt hshows) (fun hi => hi) hlisted
      ⟨?_, fun hn => by cases hn⟩
    rintro _ ⟨⟩
    exact hhead
  | records =>
    have hinit := htask.initialized (by rw [hhead.1]; decide)
    refine h.proceed hchain (hview.resumeList hinit hshows) (fun hi => hi) hlisted
      ⟨fun _ hn => (by cases hn), fun _ => ?_⟩
    unfold FinishHolds
    rw [hhead.1]
    exact ⟨hinit, fun mark hm => hshows mark (htask.before mark hm) (hhead.2 mark hm)⟩
  | _ => cases hread

theorem MetaHolds.digests (h : MetaHolds repo system) {head : ChainedTask}
    {rest : List ChainedTask} {read : MetaRead} {floor : Nat} {digests : ListedDigests}
    (hrunning : system.running = some (read, floor)) (hchain : system.chain = head :: rest)
    (hhonest : HonestReply repo system.committed floor digests read) :
    MetaHolds repo (system.proceed head rest (system.view.resumeDigests repo digests read)) := by
  have hview := h.view
  rw [hrunning] at hview
  have htask := h.chain head (by rw [hchain]; exact List.mem_cons_self)
  obtain ⟨head', rest', hchain', hhead⟩ := h.head read floor hrunning
  obtain ⟨rfl, rfl⟩ := List.cons.inj (hchain.symm.trans hchain')
  cases read with
  | refreshRecords => exact hhonest.elim
  | records => exact hhonest.elim
  | digests => exact hhead.elim
  | refreshDigests =>
    refine h.proceed hchain (hview.endRefresh (h.shows_digests hhonest)) (fun _ => rfl)
      (fun mark _ hl => hl.1) ⟨fun _ hn => (by cases hn), fun _ => ?_⟩
    unfold FinishHolds
    rw [show head.task = .refresh from hhead]
    rfl
  | dirty asked =>
    have hinit := htask.initialized (by rw [hhead.1]; decide)
    have hmerged := hview.merge (.inl rfl) hinit hhonest
    have hframe : ((system.view.mergeDigests digests).readMissing repo).1
        = system.view.mergeDigests digests := by
      unfold RepoMeta.readMissing
      split_ifs <;> rfl
    refine h.proceed hchain (hmerged.readMissing h.lt hinit) (fun hi => ?_) (fun mark _ hl => ?_)
      (readMissing_head hhead.1 (fun mark hm => h.lt mark (htask.before mark hm))
        (fun mark hm => (htask.listed hhead.1 mark hm).1) fun mark hm hrepo => ?_)
    · show ((system.view.mergeDigests digests).readMissing repo).1.initialized = true
      rw [hframe]
      exact hi
    · show ShowsRecord ((system.view.mergeDigests digests).readMissing repo).1.records mark
      rw [hframe]
      exact hl.1
    · obtain ⟨hlt, hshown⟩ := hhead.2 mark hm hrepo
      by_cases hasked : AskedFor repo asked mark
      · exact .inl (showsDigest_merge hhonest hasked hlt)
      · have hsame := get?_merge_of_not_asked system.view hhonest hasked
        rcases hshown.resolve_left hasked with ⟨asOf, hfound, hasOf⟩ | hnone
        · exact .inl ⟨asOf, hsame.trans hfound, hasOf⟩
        · exact .inr (hsame.trans hnone)
  | missing asked =>
    have hinit := htask.initialized (by rw [hhead.1]; decide)
    refine h.proceed hchain (hview.merge (.inr rfl) hinit hhonest) (fun hi => hi)
      (fun mark _ hl => hl.1) ⟨fun _ hn => (by cases hn), fun _ => ?_⟩
    unfold FinishHolds
    rw [hhead.1]
    intro mark hm hrepo
    obtain ⟨hlt, hshown⟩ := hhead.2 mark hm hrepo
    by_cases hasked : AskedFor repo asked mark
    · exact showsDigest_merge hhonest hasked hlt
    · obtain ⟨asOf, hfound, hasOf⟩ := hshown.resolve_left hasked
      exact ⟨asOf, (get?_merge_of_not_asked _ hhonest hasked).trans hfound, hasOf⟩

/-- What a failed read leaves behind still guards every write. -/
theorem ViewHolds.fail {resolved : List (Nat × MetaWrite)} {view : RepoMeta} {read : MetaRead}
    {floor : Nat} (h : ViewHolds repo resolved view (some (read, floor)))
    (hrecords : read.isListing = true → view.initialized = true → ∀ mark ∈ resolved,
      RecordGuard view mark)
    (hdigests : read = .refreshRecords ∨ read = .refreshDigests → view.initialized = true →
      ∀ mark ∈ resolved, mark.2.repo = repo → DigestGuard view mark) :
    ViewHolds repo resolved (view.failRead read) none := by
  have hactive : view.initialized = true ∨ Refreshing none → view.initialized = true :=
    fun ha => ha.resolve_right not_refreshing_none
  cases read with
  | refreshRecords =>
    exact ⟨fun ha => h.clean (.inl (hactive ha)), fun _ _ he => (by cases he),
      fun ha => hrecords rfl (hactive ha), fun ha => hdigests (.inl rfl) (hactive ha)⟩
  | refreshDigests =>
    exact ⟨fun ha => h.clean (.inl (hactive ha)), fun _ _ he => (by cases he),
      fun ha => h.records (.inl (hactive ha)), fun ha => hdigests (.inr rfl) (hactive ha)⟩
  | records =>
    exact ⟨fun ha => h.clean (.inl (hactive ha)), fun _ _ he => (by cases he),
      fun ha => hrecords rfl (hactive ha), fun ha => h.digests (.inl (hactive ha))⟩
  | digests =>
    exact ⟨fun ha => h.clean (.inl (hactive ha)), fun _ _ he => (by cases he),
      fun ha => h.records (.inl (hactive ha)), fun ha => h.digests (.inl (hactive ha))⟩
  | dirty asked =>
    refine ⟨fun ha => h.clean (.inl (hactive ha)), fun _ _ he => (by cases he),
      fun ha => h.records (.inl (hactive ha)), fun ha mark hm hrepo => ?_⟩
    obtain ⟨-, hother⟩ := h.digests (.inl (hactive ha)) mark hm hrepo
    by_cases hasked : AskedFor repo asked mark
    · obtain ⟨record, hr, -, hrs⟩ := hasked
      refine .inl (List.mem_append_left _ ?_)
      rw [← hrs]
      exact List.mem_map_of_mem hr
    · exact (hother hasked).imp_left (List.mem_append_right _)
  | missing asked =>
    refine ⟨fun ha => h.clean (.inl (hactive ha)), fun _ _ he => (by cases he),
      fun ha => h.records (.inl (hactive ha)), fun ha mark hm hrepo => ?_⟩
    obtain ⟨-, hother⟩ := h.digests (.inl (hactive ha)) mark hm hrepo
    by_cases hasked : AskedFor repo asked mark
    · obtain ⟨record, hr, -, hrs⟩ := hasked
      refine .inr (.inr ?_)
      rw [← hrs]
      exact h.absent asked floor rfl record hr
    · exact hother hasked

theorem MetaHolds.fail (h : MetaHolds repo system) {head : ChainedTask}
    {rest : List ChainedTask} {read : MetaRead} {floor : Nat}
    (hrunning : system.running = some (read, floor)) (hchain : system.chain = head :: rest)
    (hharmless : Harmless repo system .fail) :
    MetaHolds repo
      { system with view := system.view.failRead read, chain := rest, running := none } := by
  have hview := h.view
  rw [hrunning] at hview
  unfold Harmless at hharmless
  rw [hrunning] at hharmless
  have hframe : (system.view.failRead read).initialized = system.view.initialized ∧
      (system.view.failRead read).records = system.view.records := by
    cases read <;> exact ⟨rfl, rfl⟩
  have hinit : system.view.initialized = true →
      (system.view.failRead read).initialized = true := fun hi => by rw [hframe.1, hi]
  have hlisted : ∀ mark ∈ system.resolved, Listed system.view system.running mark →
      Listed (system.view.failRead read) none mark := by
    rintro mark - ⟨hshows, -⟩
    exact ⟨by rw [hframe.2]; exact hshows, fun _ _ he => by cases he⟩
  refine ⟨h.committed, h.slugs, hview.fail ?_ ?_,
    fun waits hw => (h.waiting waits hw).imp hinit (fun _ hm => hm) hlisted,
    fun chained hc => (h.chain chained (by rw [hchain]; exact List.mem_cons_of_mem _ hc)).imp
      hinit (fun _ hm => hm) hlisted,
    fun _ _ he => (by cases he), h.answered⟩
  · intro hread hi mark hm
    cases read with
    | refreshRecords => exact (hharmless hi mark hm).1
    | records => exact hharmless mark hm
    | _ => cases hread
  · rintro (rfl | rfl) hi mark hm hrepo
    · exact (hharmless hi mark hm).2 hrepo
    · exact hharmless hi mark hm hrepo

/-- **A harmless step keeps every write guarded.** -/
theorem MetaHolds.step (h : MetaHolds repo system) {label : MetaLabel}
    (hharmless : Harmless repo system label) (hstep : MetaStep repo system label system') :
    MetaHolds repo system' := by
  have hsame : ∀ mark ∈ system.resolved, Listed system.view system.running mark →
      Listed system.view system.running mark := fun _ _ hl => hl
  cases hstep with
  | commit write hslug =>
    refine { h with committed := fun mark hm => ?_, slugs := fun other ho => ?_ }
    · rw [List.getElem?_append_left (h.lt mark hm)]
      exact h.committed mark hm
    · rcases List.mem_append.mp ho with ho | ho
      · exact h.slugs other ho
      · rw [List.mem_singleton.mp ho]
        exact hslug
  | @resolve position write hat =>
    have hframe : (system.view.resolved write).initialized = system.view.initialized ∧
        (system.view.resolved write).records = system.view.records ∧
        (system.view.resolved write).discovery = system.view.discovery := ⟨rfl, rfl, rfl⟩
    by_cases hlease : write.kind = .lease
    · rw [if_pos hlease]
      exact h.remark h.committed (fun _ hm => hm) (h.view.invalidate _) hframe.1 hframe.2.1
        hframe.2.2
    · rw [if_neg hlease]
      refine h.remark (List.forall_mem_cons.mpr ⟨hat, h.committed⟩)
        (fun _ hm => List.mem_cons_of_mem _ hm)
        (h.view.resolve (h.slugs write (List.mem_of_getElem? hat)) hlease) hframe.1 hframe.2.1
        hframe.2.2
  | lost slug =>
    exact h.remark h.committed (fun _ hm => hm) (h.view.invalidate _) rfl rfl rfl
  | call kind =>
    refine { h with waiting := List.forall_mem_cons.mpr ⟨?_, h.waiting⟩ }
    dsimp only
    split_ifs with hready
    · exact ⟨fun _ => hready.2, fun _ hm => hm, fun ht => (by cases ht)⟩
    · exact fun _ hm => hm
  | journal hwaiting =>
    have hcall := h.waiting _ (hwaiting.mem_iff.mpr List.mem_cons_self)
    have hrest := fun waits hw =>
      h.waiting waits (hwaiting.mem_iff.mpr (List.mem_cons_of_mem _ hw))
    refine { h with waiting := List.forall_mem_cons.mpr ⟨?_, hrest⟩ }
    exact ⟨fun ht => absurd rfl ht, hcall, fun ht => (by cases ht)⟩
  | journalFailed hwaiting =>
    exact { h with
      waiting := fun waits hw =>
        h.waiting waits (hwaiting.mem_iff.mpr (List.mem_cons_of_mem _ hw)) }
  | @enqueue call task rest hwaiting =>
    refine { h with
      waiting := fun waits hw =>
        h.waiting waits (hwaiting.mem_iff.mpr (List.mem_cons_of_mem _ hw))
      chain := fun chained hc => ?_
      head := fun read floor he => ?_ }
    · rcases List.mem_append.mp hc with hc | hc
      · exact h.chain chained hc
      · rw [List.mem_singleton.mp hc]
        exact h.waiting _ (hwaiting.mem_iff.mpr List.mem_cons_self)
    · obtain ⟨head, rest', hchain, hhead⟩ := h.head read floor he
      exact ⟨head, rest' ++ [⟨call, task⟩], by rw [hchain]; rfl, hhead⟩
  | start hrunning hchain => exact h.start hrunning hchain hharmless
  | listed hrunning hchain hread hhonest => exact h.listed hrunning hchain hread hhonest
  | digests hrunning hchain hhonest => exact h.digests hrunning hchain hhonest
  | fail hrunning hchain => exact h.fail hrunning hchain hharmless

theorem MetaHolds.initial (repo : String) : MetaHolds repo {} where
  committed _ hm := absurd hm List.not_mem_nil
  slugs _ hm := absurd hm List.not_mem_nil
  view := ⟨fun ha => ha.elim (fun hi => by cases hi) fun hr => absurd hr not_refreshing_none,
    fun _ _ he => (by cases he), fun _ _ hm => absurd hm List.not_mem_nil,
    fun _ _ hm => absurd hm List.not_mem_nil⟩
  waiting _ hm := absurd hm List.not_mem_nil
  chain _ hm := absurd hm List.not_mem_nil
  head _ _ he := by cases he
  answered _ hm := absurd hm List.not_mem_nil

end Steps

/-! ## 6. Runs -/

/-- **Metadata survives where no needed marker is lost**: whatever calls, writes and failed reads
interleave, in a run whose steps all meet the condition every `listBuilds` and every
`getRepoBuildDigests` that succeeds reflects every create and append that had resolved through
the view before the call. -/
theorem metadata_reflects {repo : String} {system : MetaSystem} (h : HarmlessRun repo system) :
    ∀ answer ∈ system.answered, Reflects repo answer.1 answer.2 := by
  have hholds : MetaHolds repo system := by
    induction h with
    | refl => exact MetaHolds.initial repo
    | tail _ hstep ih =>
      obtain ⟨label, hharmless, hstep⟩ := hstep
      exact ih.step hharmless hstep
  exact hholds.answered

/-- A build is created through the view once a first `listBuilds` refreshed it, and `listBuilds`
is called again. -/
def listedAfterCreate : MetaSystem where
  committed := [⟨.create, "a", "repo"⟩]
  resolved := [(0, ⟨.create, "a", "repo"⟩)]
  view := ⟨true, [], true, ∅, ["a"], false⟩
  waiting := [(⟨.list, [(0, ⟨.create, "a", "repo"⟩)]⟩, .next .list)]
  answered := [(⟨.list, []⟩, .listed [])]

theorem harmless_start_of_ne {repo : String} {system : MetaSystem} {head : ChainedTask}
    {rest : List ChainedTask} (hchain : system.chain = head :: rest)
    (hne : head.task ≠ .digests) : Harmless repo system .start := by
  intro head' rest' hchain' ht
  rw [hchain] at hchain'
  cases hchain'
  exact absurd ht hne

theorem listedAfterCreate_harmless : HarmlessRun "repo" listedAfterCreate := by
  have hcalled : HarmlessRun "repo" { waiting := [(⟨.list, []⟩, .journal)] } :=
    .single ⟨.other, trivial, .call .list⟩
  have hjournal : HarmlessRun "repo" { waiting := [(⟨.list, []⟩, .next .refresh)] } :=
    hcalled.tail ⟨.other, trivial, .journal (.refl _)⟩
  have hchained : HarmlessRun "repo" { chain := [⟨⟨.list, []⟩, .refresh⟩] } :=
    hjournal.tail ⟨.other, trivial, .enqueue (.refl _)⟩
  have hstarted : HarmlessRun "repo" {
      view := ⟨false, [], false, ∅, [], false⟩
      chain := [⟨⟨.list, []⟩, .refresh⟩]
      running := some (.refreshRecords, 0) } :=
    hchained.tail ⟨.start, harmless_start_of_ne rfl (by decide),
      @MetaStep.start _ _ ⟨⟨.list, []⟩, .refresh⟩ [] rfl rfl⟩
  have hlisted : HarmlessRun "repo" {
      view := ⟨false, [], false, ∅, [], false⟩
      chain := [⟨⟨.list, []⟩, .refresh⟩]
      running := some (.refreshDigests, 0) } :=
    hstarted.tail ⟨.other, trivial,
      @MetaStep.listed _ _ ⟨⟨.list, []⟩, .refresh⟩ [] .refreshRecords 0 [] rfl rfl rfl
        fun _ _ _ hlt => absurd hlt (Nat.not_lt_zero _)⟩
  have hrefreshed : HarmlessRun "repo" {
      view := ⟨true, [], false, ∅, [], false⟩
      waiting := [(⟨.list, []⟩, .next .list)] } :=
    hlisted.tail ⟨.other, trivial,
      @MetaStep.digests _ _ ⟨⟨.list, []⟩, .refresh⟩ [] .refreshDigests 0 ∅ rfl rfl
        fun _ _ _ hlt => absurd hlt (Nat.not_lt_zero _)⟩
  have hnext : HarmlessRun "repo" {
      view := ⟨true, [], false, ∅, [], false⟩
      chain := [⟨⟨.list, []⟩, .list⟩] } :=
    hrefreshed.tail ⟨.other, trivial, .enqueue (.refl _)⟩
  have hanswered : HarmlessRun "repo" {
      view := ⟨true, [], false, ∅, [], false⟩
      answered := [(⟨.list, []⟩, .listed [])] } :=
    hnext.tail ⟨.start, harmless_start_of_ne rfl (by decide),
      @MetaStep.start _ _ ⟨⟨.list, []⟩, .list⟩ [] rfl rfl⟩
  have hcommitted : HarmlessRun "repo" {
      committed := [⟨.create, "a", "repo"⟩]
      view := ⟨true, [], false, ∅, [], false⟩
      answered := [(⟨.list, []⟩, .listed [])] } :=
    hanswered.tail ⟨.other, trivial, .commit ⟨.create, "a", "repo"⟩ (by decide)⟩
  have hresolved : HarmlessRun "repo" {
      committed := [⟨.create, "a", "repo"⟩]
      resolved := [(0, ⟨.create, "a", "repo"⟩)]
      view := ⟨true, [], true, ∅, ["a"], false⟩
      answered := [(⟨.list, []⟩, .listed [])] } :=
    hcommitted.tail ⟨.other, trivial,
      @MetaStep.resolve _ _ 0 ⟨.create, "a", "repo"⟩ rfl⟩
  exact hresolved.tail ⟨.other, trivial, .call .list⟩

/-- The second `listBuilds` asks for the records, and clears their marker. -/
def listingAfterCreate : MetaSystem :=
  { listedAfterCreate with
    view := ⟨true, [], false, ∅, ["a"], false⟩
    waiting := []
    chain := [⟨⟨.list, [(0, ⟨.create, "a", "repo"⟩)]⟩, .list⟩]
    running := some (.records, 1) }

theorem listingAfterCreate_harmless : HarmlessRun "repo" listingAfterCreate := by
  have hchained : HarmlessRun "repo" { listedAfterCreate with
      waiting := []
      chain := [⟨⟨.list, [(0, ⟨.create, "a", "repo"⟩)]⟩, .list⟩] } :=
    listedAfterCreate_harmless.tail ⟨.other, trivial, .enqueue (.refl _)⟩
  exact hchained.tail ⟨.start, harmless_start_of_ne rfl (by decide),
    @MetaStep.start _ _ ⟨⟨.list, [(0, ⟨.create, "a", "repo"⟩)]⟩, .list⟩ [] rfl rfl⟩

/-- Where that read is answered, the second answer shows the create. -/
theorem metadata_reflects_create : ∃ system : MetaSystem,
    system.answered.length = 2 ∧
      ∀ answer ∈ system.answered, Reflects "repo" answer.1 answer.2 := by
  have hhonest : HonestListing [⟨.create, "a", "repo"⟩] 1 [⟨"a", "repo", 1⟩] := by
    intro position write hat hlt
    obtain rfl : position = 0 := by omega
    cases hat
    exact ⟨_, List.mem_singleton_self _, rfl, rfl, Nat.le_refl _⟩
  have hanswered : HarmlessRun "repo" _ := listingAfterCreate_harmless.tail ⟨.other, trivial,
    @MetaStep.listed _ _ ⟨⟨.list, [(0, ⟨.create, "a", "repo"⟩)]⟩, .list⟩ [] .records 1 _
      rfl rfl rfl hhonest⟩
  exact ⟨_, rfl, metadata_reflects hanswered⟩

/-- Where that read fails, the marker stays cleared: a third `listBuilds` answers the records from
before the create. -/
theorem failed_listing_loses_create : ∃ system : MetaSystem, MetaRun "repo" system ∧
    ∃ answer ∈ system.answered, ¬ Reflects "repo" answer.1 answer.2 := by
  have hfailed : MetaRun "repo" { listedAfterCreate with
      view := ⟨true, [], false, ∅, ["a"], false⟩
      waiting := [] } :=
    listingAfterCreate_harmless.run.tail ⟨.fail,
      @MetaStep.fail _ _ ⟨⟨.list, [(0, ⟨.create, "a", "repo"⟩)]⟩, .list⟩ [] .records 1 rfl rfl⟩
  have hcalled : MetaRun "repo" { listedAfterCreate with
      view := ⟨true, [], false, ∅, ["a"], false⟩ } :=
    hfailed.tail ⟨.other, .call .list⟩
  have hchained : MetaRun "repo" { listingAfterCreate with running := none } :=
    hcalled.tail ⟨.other, .enqueue (.refl _)⟩
  have hanswered : MetaRun "repo" _ := hchained.tail ⟨.start,
    @MetaStep.start _ _ ⟨⟨.list, [(0, ⟨.create, "a", "repo"⟩)]⟩, .list⟩ [] rfl rfl⟩
  refine ⟨_, hanswered, _, List.mem_cons_self, fun hreflects => ?_⟩
  obtain ⟨_, hmem, -⟩ := hreflects _ (List.mem_singleton_self _)
  exact absurd hmem List.not_mem_nil

end Autobuild
