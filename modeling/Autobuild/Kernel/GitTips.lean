/-
# The commits a build's log needs

A commit that some event names must not be collected while the build runs.  A publication that is
only intended names one until its candidate is retired; every other fact names one for good.

An event is its type and its payload as JSON, because the commits of a payload are searched for by
the names of its properties, whatever its type.  The fold reads an event through the catalog: it
drops the types that the catalog does not know and the properties that a type does not have.  The
scan of a log does not.

* `TipAcc.refs` and `sourcesAt` are what either side knows of why a commit is needed.
* `TipsMatch`: the two know the same of every commit.  Every event keeps it (`TipsMatch.step`).
* `git_tips_agree`: the fold keeps what the scan of the projected log finds.
-/
import Mathlib.Data.Finset.Dedup
import Mathlib.Data.List.Induction
import Autobuild.Lib.Checked
import Autobuild.Lib.Json
import Autobuild.Lib.ObjectMap

namespace Autobuild

/-! ## 1. The commits of one event -/

structure HistoryEvent where
  type : String
  payload : Json

/-- `/^(workspace\.provisioned|implement\.completed|…|pr\.)/`. -/
def GIT_HISTORY_EVENTS : List String :=
  ["workspace.provisioned", "implement.completed", "code-review.", "restack.", "reconcile.",
    "finalize.", "pr."]

def referencesGitHistory (type : String) : Bool :=
  GIT_HISTORY_EVENTS.any fun start => start.toList.isPrefixOf type.toList

def TIP_KEYS : List String :=
  ["sha", "base", "head", "baseSha", "headSha", "mergeCommit", "oldHead", "oldBase", "targetBase",
    "changeSha", "workspaceHead", "localBranchHead", "observedHead"]

/-- `/^(?:[0-9a-f]{40}|[0-9a-f]{64})$/`. -/
def isOid (text : String) : Bool :=
  (text.toList.length = 40 ∨ text.toList.length = 64) ∧
    text.toList.all fun c => c.isDigit || (decide ('a' ≤ c) && decide (c ≤ 'f'))

mutual

/-- `visit`, with the property a value stands at. -/
def visitTips (key : String) : Json → List String
  | .str value => if key ∈ TIP_KEYS ∧ isOid value = true then [value] else []
  | .arr items => visitItems items
  | .obj properties => visitProperties properties
  | _ => []

def visitItems : List Json → List String
  | [] => []
  | item :: items => visitTips "" item ++ visitItems items

def visitProperties : List (String × Json) → List String
  | [] => []
  | property :: properties => visitProperty property ++ visitProperties properties

def visitProperty : String × Json → List String
  | (key, value) => visitTips key value

end

/-- A `Set` in the order it was filled. -/
def payloadTips (payload : Json) : List String := (visitTips "" payload).eraseDups

/-- `${payload[name]}`. -/
def payloadText (payload : Json) (name : String) : String :=
  match payload with
  | .obj properties =>
    match properties.find? (·.1 = name) with
    | some (_, .str value) => value
    | _ => "undefined"
  | _ => "undefined"

/-- The name a publication gives a commit. -/
def candidateSource (operation id : String) : String :=
  String.ofList (operation.toList ++ ':' :: id.toList)

/-- `type.split('.')[0]`. -/
def operationOf (type : String) : String := String.ofList (type.toList.takeWhile (· ≠ '.'))

/-- Why an event needs a commit. -/
def tipSource (event : HistoryEvent) (tip : String) : String :=
  if (event.type = "reconcile.publish-intended" ∨ event.type = "restack.publish-intended") ∧
      payloadText event.payload "headSha" = tip then
    candidateSource (operationOf event.type) (payloadText event.payload "id")
  else "proven"

/-- The commit that a retired candidate has, and its source. -/
def retired? (event : HistoryEvent) : Option (String × String) :=
  if event.type = "publication.candidate-retired" then
    some (payloadText event.payload "sha",
      candidateSource (payloadText event.payload "operation") (payloadText event.payload "id"))
  else none

/-! ## 2. The commits of a log -/

/-- `set.add`. -/
def addSource (refs : List String) (source : String) : List String :=
  if source ∈ refs then refs else refs ++ [source]

abbrev TipSources := JsMap String (List String)

/-- The sources of a commit, none where it has no set. -/
def sourcesAt (sources : TipSources) (tip : String) : List String :=
  (sources.get? ⟨tip⟩).getD []

def addTip (event : HistoryEvent) (sources : TipSources) (tip : String) : TipSources :=
  sources.set ⟨tip⟩ (addSource (sourcesAt sources tip) (tipSource event tip))

def retireSource (sources : TipSources) (sha source : String) : TipSources :=
  match sources.get? ⟨sha⟩ with
  | some refs => sources.set ⟨sha⟩ (refs.filter (· ≠ source))
  | none => sources

def noteTips (sources : TipSources) (event : HistoryEvent) : TipSources :=
  let sources := match retired? event with
    | some (sha, source) => retireSource sources sha source
    | none => sources
  if referencesGitHistory event.type = true then
    (payloadTips event.payload).foldl (addTip event) sources
  else sources

def referencedGitTips (events : List HistoryEvent) : List String :=
  let sources := events.foldl noteTips ∅
  ((sources.entries.filter fun entry => entry.2 ≠ []).map (·.1.key)).mergeSort

/-! ## 3. The fold of the read facts -/

structure TipAcc where
  tipSources : ObjectMap String (List String) := ∅
  gitTips : List String := []

def TipAcc.refs (acc : TipAcc) (tip : String) : List String := (acc.tipSources.get? tip).getD []

def TipAcc.retire (acc : TipAcc) (sha source : String) : TipAcc :=
  match acc.tipSources.get? sha with
  | some refs =>
    if refs.filter (· ≠ source) = [] then
      ⟨acc.tipSources.erase sha, acc.gitTips.filter (· ≠ sha)⟩
    else { acc with tipSources := acc.tipSources.set sha (refs.filter (· ≠ source)) }
  | none => acc

def TipAcc.add (event : HistoryEvent) (acc : TipAcc) (tip : String) : TipAcc :=
  let acc := match acc.tipSources.get? tip with
    | some _ => acc
    | none => ⟨acc.tipSources.set tip [], acc.gitTips ++ [tip]⟩
  if tipSource event tip ∈ acc.refs tip then acc
  else { acc with tipSources := acc.tipSources.set tip (acc.refs tip ++ [tipSource event tip]) }

def foldTips (acc : TipAcc) (event : HistoryEvent) : TipAcc :=
  let acc := match retired? event with
    | some (sha, source) => acc.retire sha source
    | none => acc
  if referencesGitHistory event.type = true then
    (referencedGitTips [event]).foldl (TipAcc.add event) acc
  else acc

/-- `decodeStoredEvent`: nothing for a type that the catalog does not know, the payload without the
properties added to its schema, and an exception where the payload does not validate. -/
abbrev HistoryDecoder := HistoryEvent → Except String (Option HistoryEvent)

/-- `projectEvents`. -/
def HistoryDecoder.projectEvents (decode : HistoryDecoder) (events : List HistoryEvent) :
    Except String (List HistoryEvent) :=
  (events.mapM decode).map (·.filterMap id)

/-- The fold of the read facts over one piece of a log. -/
def foldProjected (decode : HistoryDecoder) (acc : TipAcc) (events : List HistoryEvent) :
    Except String TipAcc :=
  (decode.projectEvents events).map (·.foldl foldTips acc)

/-- The pieces of a log one after another. -/
def foldTipPieces (decode : HistoryDecoder) (pieces : List (List HistoryEvent)) :
    Except String TipAcc :=
  pieces.foldlM (foldProjected decode) {}

/-! ## 4. What the scan knows of a commit -/

theorem mem_addSource {refs : List String} {source other : String} :
    other ∈ addSource refs source ↔ other ∈ refs ∨ other = source := by
  rw [addSource]
  split
  · rename_i hmem
    exact ⟨.inl, fun h => h.elim id fun heq => heq ▸ hmem⟩
  · simp

theorem addSource_addSource (refs : List String) (source : String) :
    addSource (addSource refs source) source = addSource refs source :=
  if_pos (mem_addSource.mpr (.inr rfl))

theorem addSource_ne_nil (refs : List String) (source : String) : addSource refs source ≠ [] :=
  List.ne_nil_of_mem (mem_addSource.mpr (.inr rfl))

theorem sourcesAt_addTip (event : HistoryEvent) (sources : TipSources) (tip t : String) :
    sourcesAt (addTip event sources tip) t =
      if t = tip then addSource (sourcesAt sources tip) (tipSource event tip)
      else sourcesAt sources t := by
  rw [addTip, sourcesAt, ObjectMap.get?_set]
  by_cases h : t = tip
  · simp [h]
  · simp [h, sourcesAt]

theorem sourcesAt_retireSource (sources : TipSources) (sha source t : String) :
    sourcesAt (retireSource sources sha source) t =
      if t = sha then (sourcesAt sources sha).filter (· ≠ source) else sourcesAt sources t := by
  rw [retireSource]
  cases hget : sources.get? ⟨sha⟩ with
  | none =>
    by_cases h : t = sha
    · subst h
      simp [sourcesAt, hget]
    · rw [if_neg h]
  | some refs =>
    dsimp only
    rw [sourcesAt, ObjectMap.get?_set]
    by_cases h : t = sha
    · simp [h, sourcesAt, hget]
    · simp [h, sourcesAt]

/-- What a run over commits leaves of one, whatever the order and the repetitions. -/
theorem refs_foldl {σ : Type} {add : σ → String → σ} {refs : σ → String → List String}
    {source : String → String}
    (hadd : ∀ s tip t, refs (add s tip) t =
      if t = tip then addSource (refs s tip) (source tip) else refs s t)
    (s : σ) (tips : List String) (t : String) :
    refs (tips.foldl add s) t = if t ∈ tips then addSource (refs s t) (source t) else refs s t := by
  induction tips generalizing s with
  | nil => simp
  | cons tip rest ih =>
    rw [List.foldl_cons, ih, hadd]
    by_cases htip : t = tip
    · subst htip
      simp [addSource_addSource]
    · simp [htip]

theorem mem_referencedGitTips {events : List HistoryEvent} {tip : String} :
    tip ∈ referencedGitTips events ↔ sourcesAt (events.foldl noteTips ∅) tip ≠ [] := by
  rw [referencedGitTips, List.mem_mergeSort, List.mem_map]
  generalize events.foldl noteTips ∅ = sources
  constructor
  · rintro ⟨⟨⟨key⟩, refs⟩, hentry, rfl⟩
    obtain ⟨hentry, hrefs⟩ := List.mem_filter.mp hentry
    rw [sourcesAt, ObjectMap.get?_eq_some.mpr hentry]
    exact of_decide_eq_true hrefs
  · intro hrefs
    cases hget : sources.get? ⟨tip⟩ with
    | none =>
      rw [sourcesAt, hget] at hrefs
      exact absurd rfl hrefs
    | some refs =>
      rw [sourcesAt, hget] at hrefs
      refine ⟨(⟨tip⟩, refs), List.mem_filter.mpr ⟨ObjectMap.get?_eq_some.mp hget, ?_⟩, rfl⟩
      exact decide_eq_true hrefs

/-- The sources of a commit after an event. -/
theorem sourcesAt_noteTips (sources : TipSources) (event : HistoryEvent) (t : String) :
    sourcesAt (noteTips sources event) t =
      let retiredRefs := match retired? event with
        | some (sha, source) =>
          if t = sha then (sourcesAt sources sha).filter (· ≠ source) else sourcesAt sources t
        | none => sourcesAt sources t
      if referencesGitHistory event.type = true ∧ t ∈ payloadTips event.payload then
        addSource retiredRefs (tipSource event t)
      else retiredRefs := by
  have hretired : ∀ sources', (sources' = match retired? event with
        | some (sha, source) => retireSource sources sha source
        | none => sources) → sourcesAt sources' t = match retired? event with
        | some (sha, source) =>
          if t = sha then (sourcesAt sources sha).filter (· ≠ source) else sourcesAt sources t
        | none => sourcesAt sources t := by
    rintro sources' rfl
    cases retired? event with
    | none => rfl
    | some pair => exact sourcesAt_retireSource sources pair.1 pair.2 t
  rw [noteTips]
  dsimp only
  by_cases hreads : referencesGitHistory event.type = true
  · rw [if_pos hreads, refs_foldl (sourcesAt_addTip event), hretired _ rfl]
    simp only [hreads, true_and]
  · rw [if_neg hreads, hretired _ rfl]
    simp only [hreads, Bool.false_eq_true, false_and, if_false]

/-- The commits of one event. -/
theorem mem_referencedGitTips_singleton {event : HistoryEvent} {tip : String} :
    tip ∈ referencedGitTips [event] ↔
      referencesGitHistory event.type = true ∧ tip ∈ payloadTips event.payload := by
  rw [mem_referencedGitTips, List.foldl_cons, List.foldl_nil, sourcesAt_noteTips]
  have hempty : ∀ t, sourcesAt ∅ t = [] := fun _ => rfl
  have hretired : (match retired? event with
      | some (sha, source) =>
        if tip = sha then (sourcesAt ∅ sha).filter (· ≠ source) else sourcesAt ∅ tip
      | none => sourcesAt ∅ tip) = [] := by
    cases retired? event with
    | none => rfl
    | some pair =>
      dsimp only
      split <;> rfl
  dsimp only
  rw [hretired]
  split
  · rename_i hnames
    exact ⟨fun _ => hnames, fun _ => addSource_ne_nil _ _⟩
  · rename_i hnames
    exact ⟨fun h => absurd rfl h, fun h => absurd h hnames⟩

/-! ## 5. What the fold knows of a commit -/

/-- The list of commits has those with a source, and only sets with one are kept. -/
structure TipAcc.Tidy (acc : TipAcc) : Prop where
  listed : ∀ tip, tip ∈ acc.gitTips ↔ acc.refs tip ≠ []
  kept : ∀ tip, acc.tipSources.get? tip ≠ some []

namespace TipAcc

variable {acc : TipAcc}

theorem refs_of_get? {tip : String} {refs : List String}
    (h : acc.tipSources.get? tip = some refs) : acc.refs tip = refs := by
  rw [TipAcc.refs, h]
  rfl

theorem get?_add (event : HistoryEvent) (acc : TipAcc) (tip t : String) :
    (acc.add event tip).tipSources.get? t =
      if t = tip then some (addSource (acc.refs tip) (tipSource event tip))
      else acc.tipSources.get? t := by
  unfold TipAcc.add
  cases hget : acc.tipSources.get? tip with
  | some refs =>
    have hrefs := refs_of_get? hget
    dsimp only
    rw [hrefs, addSource]
    by_cases hmem : tipSource event tip ∈ refs
    · rw [if_pos hmem, if_pos hmem]
      split
      · rename_i h
        rw [h, hget]
      · rfl
    · rw [if_neg hmem, if_neg hmem]
      exact ObjectMap.get?_set _ _ _ _
  | none =>
    have hrefs : acc.refs tip = [] := by rw [TipAcc.refs, hget]; rfl
    have hnew : TipAcc.refs ⟨acc.tipSources.set tip [], acc.gitTips ++ [tip]⟩ tip = [] :=
      refs_of_get? (ObjectMap.get?_set_self _ _ _)
    dsimp only
    rw [hnew, hrefs, addSource, if_neg List.not_mem_nil, if_neg List.not_mem_nil,
      ObjectMap.get?_set]
    by_cases h : t = tip
    · rw [if_pos h, if_pos h]
    · rw [if_neg h, if_neg h, ObjectMap.get?_set_ne _ _ h]

theorem refs_add (event : HistoryEvent) (acc : TipAcc) (tip t : String) :
    (acc.add event tip).refs t =
      if t = tip then addSource (acc.refs tip) (tipSource event tip) else acc.refs t := by
  rw [TipAcc.refs, get?_add]
  split <;> rfl

theorem gitTips_add (event : HistoryEvent) (acc : TipAcc) (tip : String) :
    (acc.add event tip).gitTips =
      match acc.tipSources.get? tip with
      | some _ => acc.gitTips
      | none => acc.gitTips ++ [tip] := by
  unfold TipAcc.add
  cases acc.tipSources.get? tip <;> dsimp only <;> split <;> rfl

theorem Tidy.add (h : acc.Tidy) (event : HistoryEvent) (tip : String) :
    (acc.add event tip).Tidy := by
  constructor
  · intro t
    rw [refs_add, gitTips_add]
    by_cases ht : t = tip
    · subst ht
      rw [if_pos rfl]
      refine ⟨fun _ => addSource_ne_nil _ _, fun _ => ?_⟩
      cases hget : acc.tipSources.get? t with
      | none => exact List.mem_append_right _ (List.mem_singleton.mpr rfl)
      | some refs =>
        rw [h.listed, refs_of_get? hget]
        rintro rfl
        exact h.kept t hget
    · rw [if_neg ht, ← h.listed]
      cases acc.tipSources.get? tip <;> simp [ht]
  · intro t
    rw [get?_add]
    split
    · exact fun hnil => addSource_ne_nil _ _ (Option.some.inj hnil)
    · exact h.kept t

theorem Tidy.foldl_add (h : acc.Tidy) (event : HistoryEvent) (tips : List String) :
    (tips.foldl (TipAcc.add event) acc).Tidy := by
  induction tips generalizing acc with
  | nil => exact h
  | cons tip rest ih => exact ih (h.add event tip)

theorem refs_retire (acc : TipAcc) (sha source t : String) :
    (acc.retire sha source).refs t =
      if t = sha then (acc.refs sha).filter (· ≠ source) else acc.refs t := by
  unfold TipAcc.retire
  cases hget : acc.tipSources.get? sha with
  | none =>
    have hrefs : acc.refs sha = [] := by rw [TipAcc.refs, hget]; rfl
    by_cases h : t = sha
    · rw [if_pos h, h, hrefs]
      rfl
    · rw [if_neg h]
  | some refs =>
    rw [refs_of_get? hget]
    dsimp only
    split
    · rename_i hnil
      rw [TipAcc.refs, ObjectMap.get?_erase, hnil]
      split <;> rfl
    · rw [TipAcc.refs, ObjectMap.get?_set]
      split <;> rfl

theorem Tidy.retire (h : acc.Tidy) (sha source : String) : (acc.retire sha source).Tidy := by
  constructor
  · intro t
    rw [refs_retire]
    unfold TipAcc.retire
    cases hget : acc.tipSources.get? sha with
    | none =>
      have hrefs : acc.refs sha = [] := by rw [TipAcc.refs, hget]; rfl
      by_cases ht : t = sha
      · rw [if_pos ht, hrefs, h.listed, ht, hrefs]
        rfl
      · rw [if_neg ht]
        exact h.listed t
    | some refs =>
      rw [refs_of_get? hget]
      dsimp only
      by_cases hnil : refs.filter (· ≠ source) = []
      · rw [if_pos hnil, hnil]
        by_cases ht : t = sha <;> simp [ht, h.listed]
      · rw [if_neg hnil]
        by_cases ht : t = sha
        · rw [if_pos ht, h.listed, ht, refs_of_get? hget]
          refine ⟨fun _ => hnil, ?_⟩
          rintro - rfl
          exact hnil rfl
        · rw [if_neg ht]
          exact h.listed t
  · intro t
    unfold TipAcc.retire
    split
    · split
      · rw [ObjectMap.get?_erase]
        split
        · exact nofun
        · exact h.kept t
      · rename_i hne
        rw [ObjectMap.get?_set]
        split
        · exact fun hnil => hne (Option.some.inj hnil)
        · exact h.kept t
    · exact h.kept t

end TipAcc

/-! ## 6. The fold and the scan -/

/-- Both sides know the same of every commit. -/
structure TipsMatch (acc : TipAcc) (sources : TipSources) : Prop where
  tidy : acc.Tidy
  refs : ∀ tip, acc.refs tip = sourcesAt sources tip

theorem TipsMatch.step {acc : TipAcc} {sources : TipSources} (h : TipsMatch acc sources)
    (event : HistoryEvent) : TipsMatch (foldTips acc event) (noteTips sources event) := by
  have hretired : ∀ acc', (acc' = match retired? event with
      | some (sha, source) => acc.retire sha source
      | none => acc) → acc'.Tidy ∧ ∀ t, acc'.refs t = match retired? event with
        | some (sha, source) =>
          if t = sha then (sourcesAt sources sha).filter (· ≠ source) else sourcesAt sources t
        | none => sourcesAt sources t := by
    rintro acc' rfl
    cases retired? event with
    | none => exact ⟨h.tidy, h.refs⟩
    | some pair =>
      refine ⟨h.tidy.retire _ _, fun t => ?_⟩
      dsimp only
      rw [TipAcc.refs_retire, h.refs, h.refs]
  obtain ⟨htidy, hrefs⟩ := hretired _ rfl
  constructor
  · rw [foldTips]
    split
    · exact htidy.foldl_add event _
    · exact htidy
  · intro tip
    rw [foldTips, sourcesAt_noteTips]
    dsimp only
    by_cases hreads : referencesGitHistory event.type = true
    · rw [if_pos hreads, refs_foldl (TipAcc.refs_add event), hrefs]
      simp only [mem_referencedGitTips_singleton]
    · rw [if_neg hreads, hrefs]
      simp only [hreads, Bool.false_eq_true, false_and, if_false]

theorem tipsMatch_fold (events : List HistoryEvent) :
    TipsMatch (events.foldl foldTips {}) (events.foldl noteTips ∅) := by
  induction events using List.reverseRecOn with
  | nil =>
    refine ⟨⟨fun tip => ?_, fun tip => nofun⟩, fun tip => rfl⟩
    exact ⟨fun hmem => absurd hmem List.not_mem_nil, fun hrefs => absurd rfl hrefs⟩
  | append_singleton events event ih =>
    rw [List.foldl_append, List.foldl_append]
    exact ih.step event

theorem HistoryDecoder.projectEvents_append (decode : HistoryDecoder)
    (events more : List HistoryEvent) :
    decode.projectEvents (events ++ more) = (do
      let known ← decode.projectEvents events
      let next ← decode.projectEvents more
      pure (known ++ next)) := by
  unfold HistoryDecoder.projectEvents
  rw [List.mapM_append]
  cases events.mapM decode with
  | error message => rfl
  | ok known =>
    cases more.mapM decode with
    | error message => rfl
    | ok next => exact congrArg Except.ok List.filterMap_append

/-- The pieces are folded as the projection of the whole log is. -/
theorem foldlM_foldProjected (decode : HistoryDecoder) :
    ∀ (pieces : List (List HistoryEvent)) (acc : TipAcc),
      pieces.foldlM (foldProjected decode) acc =
        (decode.projectEvents pieces.flatten).map (·.foldl foldTips acc)
  | [], acc => rfl
  | piece :: pieces, acc => by
    rw [List.foldlM_cons, List.flatten_cons, HistoryDecoder.projectEvents_append, foldProjected]
    cases decode.projectEvents piece with
    | error message => rfl
    | ok known =>
      show pieces.foldlM (foldProjected decode) (known.foldl foldTips acc) = _
      rw [foldlM_foldProjected decode pieces]
      cases decode.projectEvents pieces.flatten with
      | error message => rfl
      | ok next => exact congrArg Except.ok (List.foldl_append ..).symm

def intendedTip : String := "aaaaaaaaaaaaaaaaaaaaaaaaaaaaaaaaaaaaaaaa"

def publishedTip : String := "bbbbbbbbbbbbbbbbbbbbbbbbbbbbbbbbbbbbbbbb"

/-- A candidate is intended over a published commit, and retired. -/
def retiredCandidate : List HistoryEvent :=
  [⟨"reconcile.publish-intended",
      .obj [("id", .str "r1"), ("headSha", .str intendedTip), ("base", .str publishedTip)]⟩,
    ⟨"publication.candidate-retired",
      .obj [("operation", .str "reconcile"), ("id", .str "r1"), ("sha", .str intendedTip)]⟩]

example : (intendedTip ∈ referencedGitTips (retiredCandidate.take 1)) ∧
    intendedTip ∉ referencedGitTips retiredCandidate ∧
    publishedTip ∈ referencedGitTips retiredCandidate := by
  simp only [mem_referencedGitTips]
  decide +kernel

/-- The catalog of a reader that has no `pr.future-fact`. -/
def presentCatalog : HistoryDecoder := fun event =>
  .ok (if event.type = "pr.future-fact" then none else some event)

end Autobuild
