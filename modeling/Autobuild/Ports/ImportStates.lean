/-
# The states of an import

An import maps every state directory of its input to a state of the target: one of the same name,
one of the same name in another case, or else the portable form of the name, which it adds.  Two
directories that would become one state are refused.

The map is computed anew by each run, against the states that the interrupted runs before it
added.  So the question is whether the added states can change what a directory is mapped to.

* `targetState_append`: they do not, if no added state is, up to letter case, the name of another
  directory (`StatesApart`).
* `addStates_new`: the pass over the states then adds each of them.
* `StatesAccepted.next`: so the next run has the same map, and the states to add that are left.
-/
import Autobuild.Lib.Checked
import Autobuild.Lib.JsText
import Mathlib.Data.List.DropRight

namespace Autobuild

/-! ## 1. Names -/

/-- `/^[a-z][a-z0-9-]{0,39}$/` -/
def isStateName (name : String) : Bool :=
  match name.toList with
  | [] => false
  | c :: cs => c.isLower && decide (cs.length ≤ 39) &&
    cs.all fun c => c.isLower || c.isDigit || c == '-'

/-- `String.prototype.toLowerCase`: of its tables only that it keeps the names of states. -/
structure LowerCase where
  lower : String → String
  lower_of_isStateName : ∀ name, isStateName name = true → lower name = name

/-- The two `replace`s: runs of other characters become hyphens, and runs of hyphens one. -/
def hyphenate : List Char → List Char
  | [] => []
  | c :: cs =>
    let c := if c.isLower || c.isDigit then c else '-'
    if c = '-' ∧ (hyphenate cs).head? = some '-' then hyphenate cs else c :: hyphenate cs

variable (text : LowerCase)

/-- The candidate of `normalizeStateName`. -/
def stateCandidate (name : String) : String :=
  let trimmed := (name.toList.dropWhile JsText.isSpace).rdropWhile JsText.isSpace
  let hyphens := hyphenate (text.lower (String.ofList trimmed)).toList
  String.ofList ((hyphens.dropWhile (· = '-')).rdropWhile (· = '-'))

/-- Portable directory vocabulary. -/
def normalizeStateName (name : String) : Except String String :=
  if isStateName name then .ok name
  else if isStateName (stateCandidate text name) then .ok (stateCandidate text name)
  else .error ("invalid state \"" ++ name ++ "\" (normalized: \"" ++ stateCandidate text name
    ++ "\")")

/-- The states with the name in any case. -/
def caseMatches (name : String) (existing : List String) : List String :=
  existing.filter fun value => text.lower value = text.lower name

def matchState (name : String) (existing : List String) : Except String (Option String) :=
  if name ∈ existing then .ok (some name)
  else
    match caseMatches text name existing with
    | [] => .ok none
    | [state] => .ok (some state)
    | states =>
      .error ("ambiguous target state " ++ name ++ ": " ++ String.intercalate ", " states)

/-- The state of the target that a directory becomes. -/
def targetState (existing : List String) (name : String) : Except String String :=
  matchState text name existing >>= fun
    | some state => .ok state
    | none => normalizeStateName text name >>= fun normal =>
      matchState text normal existing >>= fun
        | some state => .ok state
        | none => .ok normal

/-- The directories that share a target, with it. -/
def stateCollisions (states : List (String × String)) : List String :=
  ((JsText.distinct (states.map Prod.snd)).map fun target =>
      ((states.filter (·.2 = target)).map Prod.fst, target)).filterMap fun group =>
    if 1 < group.1.length then some (String.intercalate ", " group.1 ++ " → " ++ group.2) else none

def uniqueStateMap (names : List String) (map : String → Except String String) :
    Except String (List (String × String)) :=
  (JsText.distinct names).mapM (fun name => map name >>= fun target => .ok (name, target)) >>=
    fun states =>
      if stateCollisions states = [] then .ok states
      else .error ("state collisions: " ++ String.intercalate "; " (stateCollisions states))

/-- The states that the import adds. -/
def newStates (existing : List String) (states : List (String × String)) : List String :=
  (JsText.distinct (states.map Prod.snd)).filter (· ∉ existing)

/-- `addState` of a ticket source. -/
def addState (existing : List String) (name : String) : Except String (List String) :=
  if !isStateName name then .error ("invalid state name \"" ++ name ++ "\"")
  else
    match existing.find? fun state => state ≠ name ∧ text.lower state = text.lower name with
    | some clash => .error ("state \"" ++ name ++ "\" collides with the existing state \"" ++ clash
        ++ "\"")
    | none => .ok (if name ∈ existing then existing else existing ++ [name])

/-- One state of the pass: what cannot be added is looked for again. -/
def importState (existing : List String) (name : String) : Except String (List String) :=
  match addState text existing name with
  | .ok existing => .ok existing
  | .error error => matchState text name existing >>= fun
    | some _ => .ok existing
    | none => .error error

/-- No state that the import adds for a directory is, up to letter case, the name of another one
that the target does not have. -/
def StatesApart (names existing : List String) : Prop :=
  ∀ name ∈ names, ∀ other ∈ names, name ≠ other → name ∉ existing →
    ∀ state, targetState text existing other = .ok state → state ∉ existing →
      text.lower state ≠ text.lower name

/-! ## 2. A state that is added -/

section Added

variable {text} {existing added : List String} {name state : String}

theorem isStateName_of_normalize (h : normalizeStateName text name = .ok state) :
    isStateName state = true := by
  rw [normalizeStateName] at h
  split at h
  next hname =>
    cases h
    exact hname
  next =>
    split at h
    next hcandidate =>
      cases h
      exact hcandidate
    next => cases h

theorem matchState_eq_none :
    matchState text name existing = .ok none ↔
      name ∉ existing ∧ ∀ value ∈ existing, text.lower value ≠ text.lower name := by
  rw [matchState]
  by_cases hmem : name ∈ existing
  · rw [if_pos hmem]
    exact iff_of_false (fun h => by cases h) fun h => h.1 hmem
  · rw [if_neg hmem]
    constructor
    · intro h
      refine ⟨hmem, fun value hvalue hsame => ?_⟩
      have hin : value ∈ caseMatches text name existing :=
        List.mem_filter.mpr ⟨hvalue, decide_eq_true hsame⟩
      split at h
      next hnil =>
        rw [hnil] at hin
        exact List.not_mem_nil hin
      next => cases h
      next => cases h
    · rintro ⟨-, hnone⟩
      have hnil : caseMatches text name existing = [] :=
        List.filter_eq_nil_iff.mpr fun value hvalue hsame =>
          hnone value hvalue (of_decide_eq_true hsame)
      rw [hnil]

/-- Names that do not match leave a match as it is. -/
theorem matchState_append
    (h : ∀ value ∈ added, value ≠ name ∧ text.lower value ≠ text.lower name) :
    matchState text name (existing ++ added) = matchState text name existing := by
  have hnil : caseMatches text name added = [] :=
    List.filter_eq_nil_iff.mpr fun value hvalue hsame =>
      (h value hvalue).2 (of_decide_eq_true hsame)
  have hmatches : caseMatches text name (existing ++ added) = caseMatches text name existing := by
    rw [caseMatches, List.filter_append]
    exact (congrArg _ hnil).trans (List.append_nil _)
  have hmem : name ∈ existing ++ added ↔ name ∈ existing := by
    rw [List.mem_append]
    exact or_iff_left fun hin => (h name hin).1 rfl
  rw [matchState, matchState, hmatches]
  simp only [hmem]

theorem matchState_of_mem (h : name ∈ existing) :
    matchState text name existing = .ok (some name) := if_pos h

/-- The one added name that matches in another case. -/
theorem matchState_added (hnone : matchState text name existing = .ok none)
    (hmem : state ∈ added) (hnodup : added.Nodup)
    (h : ∀ value ∈ added, value = state ↔ text.lower value = text.lower name) :
    matchState text name (existing ++ added) = .ok (some state) := by
  rw [matchState]
  split
  next hname =>
    rcases List.mem_append.mp hname with hname | hname
    · exact absurd hname (matchState_eq_none.mp hnone).1
    · rw [(h name hname).mpr rfl]
  next =>
    have hnil : caseMatches text name existing = [] :=
      List.filter_eq_nil_iff.mpr fun value hvalue hsame =>
        (matchState_eq_none.mp hnone).2 value hvalue (of_decide_eq_true hsame)
    have hsame : caseMatches text name added = added.filter (· == state) := by
      refine List.filter_congr fun value hvalue => ?_
      rw [Bool.eq_iff_iff, decide_eq_true_iff, beq_iff_eq]
      exact (h value hvalue).symm
    have hone : caseMatches text name (existing ++ added) = [state] := by
      rw [caseMatches, List.filter_append]
      refine (congrArg₂ (· ++ ·) hnil hsame).trans ?_
      rw [List.filter_beq, List.count_eq_one_of_mem hnodup hmem]
      rfl
    rw [hone]

/-- A state that is added has no state of its name, and is what a directory's name comes to. -/
structure Added (text : LowerCase) (existing : List String) (name state : String) : Prop where
  unmatched : matchState text name existing = .ok none
  normal : normalizeStateName text name = .ok state
  free : matchState text state existing = .ok none

theorem mem_of_matchState (h : matchState text name existing = .ok (some state)) :
    state ∈ existing := by
  rw [matchState] at h
  split at h
  next hmem =>
    cases h
    exact hmem
  next =>
    split at h
    next => cases h
    next only hone =>
      cases h
      have hin : state ∈ caseMatches text name existing := hone ▸ List.mem_cons_self
      exact (List.mem_filter.mp hin).1
    next => cases h

theorem added_of_new (h : targetState text existing name = .ok state) (hnew : state ∉ existing) :
    Added text existing name state := by
  rw [targetState] at h
  obtain ⟨first, hfirst, h⟩ := Checked.bind_eq_ok.mp h
  cases first with
  | some found =>
    cases h
    exact absurd (mem_of_matchState hfirst) hnew
  | none =>
    obtain ⟨normal, hnormal, h⟩ := Checked.bind_eq_ok.mp h
    obtain ⟨second, hsecond, h⟩ := Checked.bind_eq_ok.mp h
    cases second with
    | some found =>
      cases h
      exact absurd (mem_of_matchState hsecond) hnew
    | none =>
      cases h
      exact ⟨hfirst, hnormal, hsecond⟩

theorem Added.isStateName (h : Added text existing name state) : isStateName state = true :=
  isStateName_of_normalize h.normal

theorem Added.lower (h : Added text existing name state) : text.lower state = state :=
  text.lower_of_isStateName state h.isStateName

theorem Added.notMem (h : Added text existing name state) : state ∉ existing :=
  (matchState_eq_none.mp h.free).1

/-! ## 3. The map of the next run -/

/-- Each of the states belongs to a directory, which the target has no state for. -/
def AllAdded (text : LowerCase) (names existing added : List String) : Prop :=
  ∀ state ∈ added, ∃ name ∈ names, targetState text existing name = .ok state ∧
    Added text existing name state

variable {names : List String}

/-- **The added states leave the map as it is.** -/
theorem targetState_append (hapart : StatesApart text names existing) (hnodup : added.Nodup)
    (hadded : AllAdded text names existing added) (hname : name ∈ names) {target : String}
    (h : targetState text existing name = .ok target) :
    targetState text (existing ++ added) name = .ok target := by
  by_cases hmem : name ∈ existing
  · rw [targetState, matchState_of_mem hmem] at h
    rw [targetState, matchState_of_mem (List.mem_append_left _ hmem)]
    exact h
  -- what belongs to another directory does not match the name
  have hother : ∀ state ∈ added, state ≠ target →
      state ≠ name ∧ text.lower state ≠ text.lower name := by
    intro state hstate hne
    obtain ⟨other, hin, hother, hnew⟩ := hadded state hstate
    have hdifferent : name ≠ other := by
      rintro rfl
      exact hne (Except.ok.inj (hother.symm.trans h))
    have hlower := hapart name hname other hin hdifferent hmem state hother hnew.notMem
    exact ⟨fun hsame => hlower (hsame ▸ rfl), hlower⟩
  have hall : target ∈ existing ∨ target ∉ added →
      ∀ state ∈ added, state ≠ name ∧ text.lower state ≠ text.lower name := by
    intro htarget state hstate
    refine hother state hstate fun hsame => ?_
    rcases htarget with hold | hnot
    · obtain ⟨_, -, -, hnew⟩ := hadded state hstate
      exact hnew.notMem (hsame ▸ hold)
    · exact hnot (hsame ▸ hstate)
  -- names of states that are equal up to case are equal
  have hvalid : ∀ {normal : String}, normalizeStateName text name = .ok normal →
      (∀ state ∈ added, state ≠ normal) →
        ∀ state ∈ added, state ≠ normal ∧ text.lower state ≠ text.lower normal := by
    intro normal hnormal hnot state hstate
    refine ⟨hnot state hstate, fun hlower => hnot state hstate ?_⟩
    obtain ⟨_, -, -, hnew⟩ := hadded state hstate
    rwa [hnew.lower, text.lower_of_isStateName normal (isStateName_of_normalize hnormal)] at hlower
  rw [targetState] at h ⊢
  obtain ⟨first, hfirst, h⟩ := Checked.bind_eq_ok.mp h
  cases first with
  | some found =>
    cases h
    rw [matchState_append (hall (.inl (mem_of_matchState hfirst))), hfirst]
    rfl
  | none =>
    obtain ⟨normal, hnormal, h⟩ := Checked.bind_eq_ok.mp h
    obtain ⟨second, hsecond, h⟩ := Checked.bind_eq_ok.mp h
    cases second with
    | some found =>
      cases h
      have hnot : ∀ state ∈ added, state ≠ normal := by
        rintro state hstate rfl
        obtain ⟨_, -, -, hnew⟩ := hadded state hstate
        rw [hnew.free] at hsecond
        cases hsecond
      rw [matchState_append (hall (.inl (mem_of_matchState hsecond))), hfirst, Checked.ok_bind,
        hnormal, Checked.ok_bind, matchState_append (hvalid hnormal hnot), hsecond]
      rfl
    | none =>
      cases h
      by_cases htarget : target ∈ added
      · by_cases hcase : text.lower target = text.lower name
        · have honly : matchState text name (existing ++ added) = .ok (some target) := by
            refine matchState_added hfirst htarget hnodup fun value hvalue => ?_
            refine ⟨fun hsame => hsame ▸ hcase, fun hlower => ?_⟩
            by_contra hne
            exact (hother value hvalue hne).2 hlower
          rw [honly]
          rfl
        · have hnone : ∀ state ∈ added, state ≠ name ∧ text.lower state ≠ text.lower name := by
            intro state hstate
            by_cases hsame : state = target
            · subst hsame
              exact ⟨fun heq => hcase (heq ▸ rfl), hcase⟩
            · exact hother state hstate hsame
          rw [matchState_append hnone, hfirst, Checked.ok_bind, hnormal, Checked.ok_bind,
            matchState_of_mem (List.mem_append_right _ htarget)]
          rfl
      · have hnot : ∀ state ∈ added, state ≠ target := by
          rintro state hstate rfl
          exact htarget hstate
        rw [matchState_append (hall (.inr htarget)), hfirst, Checked.ok_bind, hnormal,
          Checked.ok_bind, matchState_append (hvalid hnormal hnot), hsecond]
        rfl

/-! ## 4. The states of a run and of the next one -/

/-- The target takes the states of the directory, and its next run does so again. -/
structure StatesAccepted (text : LowerCase) (names existing : List String)
    (states : List (String × String)) : Prop where
  /-- No `ambiguous target state`, no `invalid state` and no `state collisions`. -/
  map : uniqueStateMap names (targetState text existing) = .ok states
  apart : StatesApart text names existing

variable {states : List (String × String)} {done rest : List String}

theorem allAdded_newStates (h : uniqueStateMap names (targetState text existing) = .ok states) :
    AllAdded text names existing (newStates existing states) := by
  intro state hstate
  obtain ⟨hin, hnew⟩ := List.mem_filter.mp hstate
  obtain ⟨⟨name, target⟩, hpair, rfl⟩ := List.mem_map.mp (JsText.mem_distinct.mp hin)
  rw [uniqueStateMap] at h
  obtain ⟨pairs, hpairs, h⟩ := Checked.bind_eq_ok.mp h
  have hsame : pairs = states := by
    split at h
    · cases h
      rfl
    · cases h
  subst hsame
  obtain ⟨source, hsource, hmapped⟩ := Checked.mem_of_mapM_ok hpairs _ hpair
  obtain ⟨found, hfound, hmapped⟩ := Checked.bind_eq_ok.mp hmapped
  cases hmapped
  exact ⟨name, JsText.mem_distinct.mp hsource, hfound,
    added_of_new hfound (of_decide_eq_true hnew)⟩

theorem newStates_nodup (existing : List String) (states : List (String × String)) :
    (newStates existing states).Nodup :=
  (JsText.distinct_nodup _).filter _

theorem newStates_append (hsplit : newStates existing states = done ++ rest) :
    newStates (existing ++ done) states = rest := by
  have hnodup : (done ++ rest).Nodup := hsplit ▸ newStates_nodup existing states
  have hstep : newStates (existing ++ done) states
      = (newStates existing states).filter (· ∉ done) := by
    rw [newStates, newStates, List.filter_filter]
    refine List.filter_congr fun state _ => ?_
    rw [Bool.eq_iff_iff]
    simp only [List.mem_append, not_or, decide_eq_true_eq, Bool.and_eq_true]
    exact and_comm
  rw [hstep, hsplit, List.filter_append]
  have hdone : done.filter (· ∉ done) = [] :=
    List.filter_eq_nil_iff.mpr fun state hstate hnot => of_decide_eq_true hnot hstate
  have hrest : rest.filter (· ∉ done) = rest :=
    List.filter_eq_self.mpr fun state hstate => decide_eq_true fun hin =>
      List.disjoint_of_nodup_append hnodup hin hstate
  rw [hdone, hrest, List.nil_append]

/-- **The next run** finds the same map, with the states left to add that are left. -/
theorem StatesAccepted.next (h : StatesAccepted text names existing states)
    (hsplit : newStates existing states = done ++ rest) :
    StatesAccepted text names (existing ++ done) states := by
  have hall : AllAdded text names existing done := fun state hstate =>
    allAdded_newStates h.map state (hsplit ▸ List.mem_append_left _ hstate)
  have hnodup : done.Nodup := by
    have hnew := newStates_nodup existing states
    rw [hsplit] at hnew
    exact List.Nodup.of_append_left hnew
  have hkept : ∀ name ∈ names, ∀ target, targetState text existing name = .ok target →
      targetState text (existing ++ done) name = .ok target := fun name hname target =>
    targetState_append h.apart hnodup hall hname
  have hmap := h.map
  rw [uniqueStateMap] at hmap
  obtain ⟨pairs, hpairs, hmap⟩ := Checked.bind_eq_ok.mp hmap
  refine ⟨?_, fun name hname other hother hne hfree state hstate hnew => ?_⟩
  · rw [uniqueStateMap]
    have hpairs' : (JsText.distinct names).mapM (fun name =>
        targetState text (existing ++ done) name >>= fun target => .ok (name, target))
          = .ok pairs := by
      refine Checked.mapM_ok_congr (fun name hname pair hpair => ?_) hpairs
      obtain ⟨target, htarget, hpair⟩ := Checked.bind_eq_ok.mp hpair
      rw [hkept name (JsText.mem_distinct.mp hname) target htarget]
      exact hpair
    rw [hpairs']
    exact hmap
  · have hfree' : name ∉ existing := fun hin => hfree (List.mem_append_left _ hin)
    obtain ⟨pair, hpair⟩ := Checked.ok_of_mapM_ok hpairs other (JsText.mem_distinct.mpr hother)
    obtain ⟨target, htarget, -⟩ := Checked.bind_eq_ok.mp hpair
    have hsame : target = state :=
      Except.ok.inj ((hkept other hother target htarget).symm.trans hstate)
    subst hsame
    exact h.apart name hname other hother hne hfree' target htarget fun hin =>
      hnew (List.mem_append_left _ hin)

theorem addState_of_added (hadded : AllAdded text names existing (done ++ [state]))
    (hnodup : (done ++ [state]).Nodup) :
    addState text (existing ++ done) state = .ok (existing ++ done ++ [state]) := by
  obtain ⟨_, -, -, hnew⟩ := hadded state (List.mem_append_right _ List.mem_cons_self)
  have hnotDone : state ∉ done := fun hin =>
    List.disjoint_of_nodup_append hnodup hin List.mem_cons_self
  have hclash : (existing ++ done).find? (fun other =>
      other ≠ state ∧ text.lower other = text.lower state) = none := by
    refine List.find?_eq_none.mpr fun other hother hsame => ?_
    obtain ⟨hne, hlower⟩ := of_decide_eq_true hsame
    rcases List.mem_append.mp hother with hold | hdone
    · exact (matchState_eq_none.mp hnew.free).2 other hold hlower
    · obtain ⟨_, -, -, hearlier⟩ := hadded other (List.mem_append_left _ hdone)
      rw [hearlier.lower, hnew.lower] at hlower
      exact hne hlower
  have hfree : state ∉ existing ++ done := fun hin =>
    (List.mem_append.mp hin).elim hnew.notMem hnotDone
  rw [addState, hnew.isStateName, Bool.not_true, if_neg Bool.false_ne_true, hclash]
  simp only
  rw [if_neg hfree]

/-- **The pass over the states** adds each of them. -/
theorem addStates_new (hadded : AllAdded text names existing done) (hnodup : done.Nodup) :
    done.foldlM (importState text) existing = .ok (existing ++ done) := by
  induction done using List.reverseRecOn with
  | nil => exact congrArg Except.ok (List.append_nil existing).symm
  | append_singleton done state ih =>
    have hbefore := ih (fun other hother => hadded other (List.mem_append_left _ hother))
      (List.Nodup.of_append_left hnodup)
    rw [List.foldlM_append, hbefore, Checked.ok_bind, List.foldlM_cons, importState,
      addState_of_added hadded hnodup]
    simp only [Checked.ok_bind, List.foldlM_nil, Checked.pure_eq_ok, List.append_assoc]

end Added

/-! ## 5. The lower case of ASCII -/

theorem toLower_of_stateChar {c : Char} (h : (c.isLower || c.isDigit || c == '-') = true) :
    c.toLower = c := by
  have hnot : ¬(c.val ≥ 'A'.val ∧ c.val ≤ 'Z'.val) := by
    rintro ⟨hlow, hhigh⟩
    rw [Bool.or_eq_true, Bool.or_eq_true, beq_iff_eq] at h
    rw [ge_iff_le, UInt32.le_iff_toNat_le] at hlow
    rw [UInt32.le_iff_toNat_le] at hhigh
    have hA : 'A'.val.toNat = 65 := rfl
    have hZ : 'Z'.val.toNat = 90 := rfl
    rcases h with (h | h) | rfl
    · have ha : 'a'.val.toNat ≤ c.val.toNat :=
        UInt32.le_iff_toNat_le.mp (of_decide_eq_true (Bool.and_eq_true_iff.mp h).1)
      have h97 : 'a'.val.toNat = 97 := rfl
      omega
    · have h9 : c.val.toNat ≤ '9'.val.toNat :=
        UInt32.le_iff_toNat_le.mp (of_decide_eq_true (Bool.and_eq_true_iff.mp h).2)
      have h57 : '9'.val.toNat = 57 := rfl
      omega
    · exact absurd hlow (by decide)
  delta Char.toLower
  rw [dif_neg hnot]

/-- The lower case of ASCII. -/
def asciiLower : LowerCase where
  lower name := String.ofList (name.toList.map Char.toLower)
  lower_of_isStateName := by
    intro name h
    rw [isStateName] at h
    have hall : ∀ c ∈ name.toList, c.toLower = c := by
      intro c hc
      split at h
      next hnil =>
        rw [hnil] at hc
        exact absurd hc List.not_mem_nil
      next first rest hcons =>
        rw [Bool.and_eq_true, Bool.and_eq_true] at h
        rw [hcons] at hc
        rcases List.mem_cons.mp hc with rfl | hc
        · exact toLower_of_stateChar (by rw [h.1.1]; rfl)
        · exact toLower_of_stateChar (List.all_eq_true.mp h.2 c hc)
    rw [List.map_congr_left hall, List.map_id', String.ofList_toList]

end Autobuild
