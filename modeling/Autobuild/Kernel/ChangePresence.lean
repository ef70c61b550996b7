/-
# Change presence: the compact probe

A destination's head holds some changes, and blockers ask which.  The full answer needs the
whole reachable history of the head (`PresenceWitness`).  What is persisted is a probe: only
the commits and trailers in the reverse proof closure of the questions (`presenceNeeds`).

The loss-free argument:

* `mem_projectPresence`: an identity is present when it is direct evidence, or when landings
  carry it from an identity the history proves (`Carries`, forward).
* `mem_presenceNeeds`: what is kept is everything from which `Carries` leads to a question.
* `projectPresence_sandwich`: evidence that lies between "what the questions need" and "the
  full witness" answers every question as the full witness does.  The probe just taken and a
  probe reused under later landings (`answers`) are both such evidence.
-/
import Autobuild.Lib.Checked
import Autobuild.Lib.JsText
import Autobuild.Lib.ObjectMap
import Autobuild.Lib.Worklist
import Mathlib.Data.List.Basic
import Mathlib.Logic.Relation

namespace Autobuild
namespace ChangePresence

/-! ## 1. Identities, landings, aliases -/

/-- `build:${slug}` or `foreign:${sha}`. -/
inductive ChangeIdentity where
  | build (slug : String)
  | foreign (sha : String)
  deriving DecidableEq, Repr

def ChangeIdentity.text : ChangeIdentity → String
  | .build slug => "build:" ++ slug
  | .foreign sha => "foreign:" ++ sha

def normalizeIdentities (ids : List ChangeIdentity) : List ChangeIdentity :=
  JsText.sortedSet ChangeIdentity.text ids

structure LandingEvidence where
  slug : String
  sha : String
  /-- A node landing transports its completed owned contribution. -/
  contribution : Option (List ChangeIdentity)
  deriving DecidableEq, Repr

/-- Confirmed foreign replay aliases, from a commit to the one it replays. -/
abbrev Aliases := ObjectMap String String

/-- The loop of `originalForeign`, `none` when the fuel runs out. -/
def chaseForeign (aliases : Aliases) : Nat → List String → String → Option (Except String String)
  | fuel, seen, sha =>
    match aliases.get? sha with
    | none => some (.ok sha)
    | some original =>
      if original = sha then some (.ok sha)
      else if sha ∈ seen then some (.error "cyclic foreign identity evidence")
      else
        match fuel with
        | 0 => none
        | fuel + 1 => chaseForeign aliases fuel (sha :: seen) original

/-- Every commit seen is a different alias key, so the loop ends. -/
theorem chaseForeign_isSome (aliases : Aliases) :
    ∀ (fuel : Nat) (seen : List String) (sha : String),
      seen.Nodup → seen ⊆ aliases.keys → aliases.size ≤ seen.length + fuel →
        (chaseForeign aliases fuel seen sha).isSome = true := by
  intro fuel
  induction fuel with
  | zero =>
    intro seen sha hnd hsub hlen
    unfold chaseForeign
    split
    · rfl
    · rename_i original hget
      split
      · rfl
      · split
        · rfl
        · rename_i hseen
          have hkey : sha ∈ aliases.keys := ObjectMap.isSome_get?.mp (by rw [hget]; rfl)
          have hsub' : sha :: seen ⊆ aliases.keys := List.cons_subset.mpr ⟨hkey, hsub⟩
          have hnd' : (sha :: seen).Nodup := List.nodup_cons.mpr ⟨hseen, hnd⟩
          have hle := (List.subperm_of_subset hnd' hsub').length_le
          rw [List.length_cons, ObjectMap.keys, List.length_map] at hle
          rw [ObjectMap.size] at hlen
          omega
  | succ fuel ih =>
    intro seen sha hnd hsub hlen
    unfold chaseForeign
    split
    · rfl
    · rename_i original hget
      split
      · rfl
      · split
        · rfl
        · rename_i hseen
          have hkey : sha ∈ aliases.keys := ObjectMap.isSome_get?.mp (by rw [hget]; rfl)
          refine ih _ _ (List.nodup_cons.mpr ⟨hseen, hnd⟩) (List.cons_subset.mpr ⟨hkey, hsub⟩) ?_
          rw [List.length_cons]
          omega

def originalForeign (sha : String) (aliases : Aliases) : Except String String :=
  (chaseForeign aliases aliases.size [] sha).get
    (chaseForeign_isSome aliases _ [] sha List.nodup_nil (List.nil_subset _) (by simp))

theorem originalForeign_of_get?_none {sha : String} {aliases : Aliases}
    (h : aliases.get? sha = none) : originalForeign sha aliases = .ok sha := by
  have hc : chaseForeign aliases aliases.size [] sha = some (.ok sha) := by
    unfold chaseForeign
    rw [h]
  simp only [originalForeign, hc, Option.get_some]

/-! ## 2. Expanding landings -/

def transportedBy (landing : LandingEvidence) : List ChangeIdentity :=
  landing.contribution.getD [.build landing.slug]

/-- The two identities a landing is found under. -/
def keysOfLanding (landing : LandingEvidence) : List ChangeIdentity :=
  [.build landing.slug, .foreign landing.sha]

/-- What the landings found under `identity` transport. -/
def transportedFrom (landings : List LandingEvidence) (identity : ChangeIdentity) :
    List ChangeIdentity :=
  (landings.filter (fun landing => identity ∈ keysOfLanding landing)).flatMap transportedBy

/-- The keys of the landings that transport `identity`. -/
def transportersOf (landings : List LandingEvidence) (identity : ChangeIdentity) :
    List ChangeIdentity :=
  (landings.filter (fun landing => identity ∈ transportedBy landing)).flatMap keysOfLanding

theorem mem_transportedFrom {landings : List LandingEvidence} {x y : ChangeIdentity} :
    y ∈ transportedFrom landings x ↔
      ∃ l ∈ landings, x ∈ keysOfLanding l ∧ y ∈ transportedBy l := by
  simp [transportedFrom, and_assoc]

theorem mem_transportersOf {landings : List LandingEvidence} {x y : ChangeIdentity} :
    y ∈ transportersOf landings x ↔ x ∈ transportedFrom landings y := by
  rw [mem_transportedFrom]
  simp only [transportersOf, List.mem_flatMap, List.mem_filter, decide_eq_true_eq]
  constructor
  · rintro ⟨l, ⟨hl, hx⟩, hy⟩
    exact ⟨l, hl, hy, hx⟩
  · rintro ⟨l, hl, hy, hx⟩
    exact ⟨l, ⟨hl, hx⟩, hy⟩

/-- Landings read forward: from a proved identity to what they transport. -/
def forward (landings : List LandingEvidence) : Worklist.Graph ChangeIdentity where
  next := transportedFrom landings
  sources := landings.flatMap keysOfLanding
  mem_sources := by
    intro x y h
    obtain ⟨l, hl, hx, -⟩ := mem_transportedFrom.mp h
    exact List.mem_flatMap.mpr ⟨l, hl, hx⟩

/-- Landings read backward: from a queried identity to what would prove it. -/
def backward (landings : List LandingEvidence) : Worklist.Graph ChangeIdentity where
  next := transportersOf landings
  sources := landings.flatMap transportedBy
  mem_sources := by
    intro x y h
    obtain ⟨l, hl, -, hx⟩ := mem_transportedFrom.mp (mem_transportersOf.mp h)
    exact List.mem_flatMap.mpr ⟨l, hl, hx⟩

/-- A landing found under `x` transports `y`. -/
def Carries (landings : List LandingEvidence) (x y : ChangeIdentity) : Prop :=
  y ∈ transportedFrom landings x

/-- `expandLandings`: the given identities and everything the landings transport from them or
from the proofs.  The stack holds the last element on top. -/
def expandLandings (identities proofs : List ChangeIdentity) (landings : List LandingEvidence) :
    List ChangeIdentity :=
  normalizeIdentities <|
    Worklist.explore (forward landings)
      (fun result identity => result ++ transportedFrom landings identity)
      identities (identities ++ proofs).reverse

theorem mem_foldl_append {α β : Type} {f : α → List β} {b : β} :
    ∀ (xs : List α) (acc : List β),
      b ∈ xs.foldl (fun result x => result ++ f x) acc ↔ b ∈ acc ∨ ∃ x ∈ xs, b ∈ f x
  | [], acc => by simp
  | x :: xs, acc => by
    rw [List.foldl_cons, mem_foldl_append xs, List.mem_append]
    simp only [List.mem_cons, exists_eq_or_imp, or_assoc]

theorem mem_expandLandings {identities proofs : List ChangeIdentity}
    {landings : List LandingEvidence} {id : ChangeIdentity} :
    id ∈ expandLandings identities proofs landings ↔
      id ∈ identities ∨ ∃ s, (s ∈ identities ∨ s ∈ proofs) ∧
        Relation.TransGen (Carries landings) s id := by
  obtain ⟨xs, he, hxs⟩ := Worklist.explore_eq_foldl (forward landings)
    (fun result identity => result ++ transportedFrom landings identity) identities
    (identities ++ proofs).reverse
  rw [expandLandings, normalizeIdentities, JsText.mem_sortedSet, he, mem_foldl_append]
  refine or_congr_right ?_
  constructor
  · rintro ⟨x, hx, hid⟩
    obtain ⟨s, hs, hsx⟩ := (hxs x).mp hx
    rw [List.mem_reverse, List.mem_append] at hs
    exact ⟨s, hs, Relation.TransGen.tail' hsx hid⟩
  · rintro ⟨s, hs, hsid⟩
    obtain ⟨x, hsx, hid⟩ := Relation.TransGen.tail'_iff.mp hsid
    refine ⟨x, (hxs x).mpr ⟨s, ?_, hsx⟩, hid⟩
    rw [List.mem_reverse, List.mem_append]
    exact hs

/-! ## 3. The full witness -/

/-- Full reachable history of a sampled head: its commits, and the slugs of the build
identities its trailers name. -/
structure PresenceWitness where
  commits : List String
  identities : List String
  deriving DecidableEq, Repr

/-- Every commit of the history with the original it replays. -/
def originalsOf (commits : List String) (aliases : Aliases) :
    Except String (List (String × String)) :=
  commits.mapM fun sha => do return (sha, ← originalForeign sha aliases)

/-- The foreign identities some landing's contribution names. -/
def relevantForeign (landings : List LandingEvidence) : List ChangeIdentity :=
  (landings.flatMap (fun landing => landing.contribution.getD [])).filter
    (fun id => match id with | .foreign _ => true | .build _ => false)

def projectPresence (witness : PresenceWitness) (landings : List LandingEvidence)
    (aliases : Aliases) (includeForeign : Bool) : Except String (List ChangeIdentity) := do
  let originals ← originalsOf witness.commits aliases
  let proofs := originals.flatMap fun (sha, original) => [.foreign original, .foreign sha]
  let direct := originals.filterMap fun (sha, original) =>
    if includeForeign || aliases.has sha
        || decide (ChangeIdentity.foreign original ∈ relevantForeign landings)
    then some (.foreign original) else none
  return expandLandings (witness.identities.map .build ++ direct) proofs landings

section
variable {aliases : Aliases} {orig : String → String}

theorem originalsOf_ok (h : ∀ sha, originalForeign sha aliases = .ok (orig sha))
    (commits : List String) :
    originalsOf commits aliases = .ok (commits.map fun sha => (sha, orig sha)) :=
  Checked.mapM_ok fun sha _ => by rw [h sha]; rfl

/-- The identities a history gives directly. -/
def Direct (landings : List LandingEvidence) (aliases : Aliases) (orig : String → String)
    (witness : PresenceWitness) (id : ChangeIdentity) : Prop :=
  (∃ slug ∈ witness.identities, id = .build slug) ∨
    ∃ sha ∈ witness.commits, id = .foreign (orig sha) ∧
      (aliases.has sha = true ∨ ChangeIdentity.foreign (orig sha) ∈ relevantForeign landings)

/-- The identities a history proves without naming them. -/
def Proved (orig : String → String) (witness : PresenceWitness) (id : ChangeIdentity) : Prop :=
  ∃ sha ∈ witness.commits, id = .foreign (orig sha) ∨ id = .foreign sha

/-- **What the full projection answers.** -/
theorem mem_projectPresence (h : ∀ sha, originalForeign sha aliases = .ok (orig sha))
    (witness : PresenceWitness) (landings : List LandingEvidence) :
    ∃ ids, projectPresence witness landings aliases false = .ok ids ∧
      ∀ id, id ∈ ids ↔ Direct landings aliases orig witness id ∨
        ∃ s, (Direct landings aliases orig witness s ∨ Proved orig witness s) ∧
          Relation.TransGen (Carries landings) s id := by
  refine ⟨_, by rw [projectPresence, originalsOf_ok h]; rfl, ?_⟩
  intro id
  rw [mem_expandLandings]
  have hd : ∀ s, (s ∈ witness.identities.map ChangeIdentity.build ++
      (witness.commits.map fun sha => (sha, orig sha)).filterMap fun (sha, original) =>
        if false || aliases.has sha
            || decide (ChangeIdentity.foreign original ∈ relevantForeign landings)
        then some (ChangeIdentity.foreign original) else none) ↔
      Direct landings aliases orig witness s := by
    intro s
    rw [List.mem_append, List.mem_map, List.filterMap_map, List.mem_filterMap, Direct]
    refine or_congr ?_ ?_
    · simp only [eq_comm]
    · refine exists_congr fun sha => and_congr_right fun _ => ?_
      simp only [Function.comp_apply, Bool.false_or, Option.ite_none_right_eq_some,
        Bool.or_eq_true, decide_eq_true_eq, Option.some.injEq]
      rw [and_comm, eq_comm]
  have hp : ∀ s, (s ∈ (witness.commits.map fun sha => (sha, orig sha)).flatMap
      fun (sha, original) => [ChangeIdentity.foreign original, ChangeIdentity.foreign sha]) ↔
      Proved orig witness s := by
    intro s
    simp only [List.flatMap_map, List.mem_flatMap, List.mem_cons, List.not_mem_nil, or_false,
      Proved]
  simp only [hd, hp]

end

/-! ## 4. The probe -/

structure PresenceProbe where
  /-- Sorted unique identities this observation answers. -/
  questions : List ChangeIdentity
  /-- Sorted unique SHAs whose reachability from head was tested. -/
  commits : List String
  /-- Sorted subset of `commits` reachable from head. -/
  reachable : List String
  /-- Sorted slugs of the build identities whose direct trailer was tested. -/
  builds : List String
  /-- Sorted subset of `builds` found as trailers in head's history. -/
  trailers : List String
  deriving DecidableEq, Repr

structure PresenceNeeds where
  commits : List String
  builds : List String
  deriving DecidableEq, Repr

/-- The alias keys that replay `sha`. -/
def aliasKeysOf (originals : List (String × String)) (sha : String) : List String :=
  originals.filterMap fun (key, original) => if original = sha then some key else none

/-- One identity of the closure: a build asks for its trailer, a foreign commit for itself and
for every commit that replays it. -/
def askFor (originals : List (String × String)) (needs : PresenceNeeds) :
    ChangeIdentity → PresenceNeeds
  | .build slug => { needs with builds := needs.builds ++ [slug] }
  | .foreign sha => { needs with commits := needs.commits ++ sha :: aliasKeysOf originals sha }

/-- The reverse proof closure of `query`. -/
def presenceNeeds (query : List ChangeIdentity) (landings : List LandingEvidence)
    (aliases : Aliases) : Except String PresenceNeeds := do
  let originals ← originalsOf aliases.keys aliases
  let needs := Worklist.explore (backward landings) (askFor originals) ⟨[], []⟩ query.reverse
  return {
    commits := JsText.sortedSet id needs.commits
    builds := JsText.sortedSet (fun slug => "build:" ++ slug) needs.builds }

def covers (probe : PresenceProbe) (needs : PresenceNeeds) : Bool :=
  needs.commits.all (fun sha => sha ∈ probe.commits) &&
    needs.builds.all (fun slug => slug ∈ probe.builds)

/-- Whether a stored probe can answer `query` under the current landings. -/
def answers (probe : PresenceProbe) (query : List ChangeIdentity)
    (landings : List LandingEvidence) (aliases : Aliases) : Except String Bool := do
  if query.any (fun id => id ∉ probe.questions) then return false
  return covers probe (← presenceNeeds probe.questions landings aliases)

def compactProbe (witness : PresenceWitness) (questions : List ChangeIdentity)
    (landings : List LandingEvidence) (aliases : Aliases) : Except String PresenceProbe := do
  let normalized := normalizeIdentities questions
  let needs ← presenceNeeds normalized landings aliases
  return {
    questions := normalized
    commits := needs.commits
    reachable := needs.commits.filter (fun sha => sha ∈ witness.commits)
    builds := needs.builds
    trailers := needs.builds.filter (fun slug => slug ∈ witness.identities) }

/-- Presence answers for only the probe's questions. -/
def projectProbe (probe : PresenceProbe) (landings : List LandingEvidence)
    (aliases : Aliases) : Except String (List ChangeIdentity) := do
  let present ← projectPresence ⟨probe.reachable, probe.trailers⟩ landings aliases false
  return normalizeIdentities (probe.questions.filter (fun id => id ∈ present))

/-! ## 5. The reverse closure -/

/-- `Carries` leads from `x` to a queried identity. -/
def Asked (landings : List LandingEvidence) (query : List ChangeIdentity)
    (x : ChangeIdentity) : Prop :=
  ∃ q ∈ query, Relation.ReflTransGen (Carries landings) x q

theorem reaches_backward_iff {landings : List LandingEvidence} {query : List ChangeIdentity}
    {x : ChangeIdentity} :
    (backward landings).Reaches query.reverse x ↔ Asked landings query x := by
  have hswap : (backward landings).Step = Function.swap (Carries landings) := by
    funext a b
    exact propext mem_transportersOf
  simp only [Worklist.Graph.Reaches, Asked, List.mem_reverse, hswap, Relation.reflTransGen_swap]

theorem foldl_askFor (originals : List (String × String)) :
    ∀ (xs : List ChangeIdentity) (needs : PresenceNeeds),
      (∀ slug, slug ∈ (xs.foldl (askFor originals) needs).builds ↔
        slug ∈ needs.builds ∨ ChangeIdentity.build slug ∈ xs) ∧
      ∀ sha, sha ∈ (xs.foldl (askFor originals) needs).commits ↔
        sha ∈ needs.commits ∨ ∃ o, ChangeIdentity.foreign o ∈ xs ∧
          (sha = o ∨ sha ∈ aliasKeysOf originals o)
  | [], needs => by simp
  | .build b :: xs, needs => by
    obtain ⟨hb, hc⟩ := foldl_askFor originals xs (askFor originals needs (.build b))
    refine ⟨fun slug => ?_, fun sha => ?_⟩
    · rw [List.foldl_cons, hb]
      simp only [askFor, List.mem_append, List.mem_cons, List.not_mem_nil, or_false,
        ChangeIdentity.build.injEq, or_assoc]
    · rw [List.foldl_cons, hc]
      simp only [askFor, List.mem_cons, reduceCtorEq, false_or]
  | .foreign f :: xs, needs => by
    obtain ⟨hb, hc⟩ := foldl_askFor originals xs (askFor originals needs (.foreign f))
    refine ⟨fun slug => ?_, fun sha => ?_⟩
    · rw [List.foldl_cons, hb]
      simp only [askFor, List.mem_cons, reduceCtorEq, false_or]
    · rw [List.foldl_cons, hc]
      simp only [askFor, List.mem_append, List.mem_cons, ChangeIdentity.foreign.injEq, or_assoc]
      refine or_congr_right ?_
      constructor
      · rintro (h | h | ⟨o, ho, h⟩)
        · exact ⟨f, Or.inl rfl, Or.inl h⟩
        · exact ⟨f, Or.inl rfl, Or.inr h⟩
        · exact ⟨o, Or.inr ho, h⟩
      · rintro ⟨o, rfl | ho, h⟩
        · exact h.imp id Or.inl
        · exact Or.inr (Or.inr ⟨o, ho, h⟩)

/-- A commit is asked for by itself, or as an alias of one that is. -/
theorem mem_aliasKeysOf {aliases : Aliases} {orig : String → String} {key sha : String} :
    key ∈ aliasKeysOf (aliases.keys.map fun k => (k, orig k)) sha ↔
      aliases.has key = true ∧ orig key = sha := by
  simp only [aliasKeysOf, List.filterMap_map, List.mem_filterMap, Function.comp_apply,
    Option.ite_none_right_eq_some, Option.some.injEq, ObjectMap.has, decide_eq_true_eq]
  constructor
  · rintro ⟨k, hk, ho, rfl⟩
    exact ⟨hk, ho⟩
  · rintro ⟨hk, ho⟩
    exact ⟨key, hk, ho, rfl⟩

/-- **What the probe keeps**: everything from which a queried identity could be derived. -/
theorem mem_presenceNeeds {aliases : Aliases} {orig : String → String}
    (h : ∀ sha, originalForeign sha aliases = .ok (orig sha))
    (query : List ChangeIdentity) (landings : List LandingEvidence) :
    ∃ needs, presenceNeeds query landings aliases = .ok needs ∧
      (∀ slug, slug ∈ needs.builds ↔ Asked landings query (.build slug)) ∧
      ∀ sha, sha ∈ needs.commits ↔ Asked landings query (.foreign sha) ∨
        (aliases.has sha = true ∧ Asked landings query (.foreign (orig sha))) := by
  refine ⟨_, by rw [presenceNeeds, originalsOf_ok h]; rfl, ?_, ?_⟩
  · intro slug
    obtain ⟨xs, he, hxs⟩ := Worklist.explore_eq_foldl (backward landings)
      (askFor (aliases.keys.map fun k => (k, orig k))) ⟨[], []⟩ query.reverse
    rw [JsText.mem_sortedSet, he, (foldl_askFor _ xs _).1, hxs, reaches_backward_iff]
    simp
  · intro sha
    obtain ⟨xs, he, hxs⟩ := Worklist.explore_eq_foldl (backward landings)
      (askFor (aliases.keys.map fun k => (k, orig k))) ⟨[], []⟩ query.reverse
    rw [JsText.mem_sortedSet, he, (foldl_askFor _ xs _).2]
    simp only [hxs, reaches_backward_iff, mem_aliasKeysOf, List.not_mem_nil, false_or]
    constructor
    · rintro ⟨o, ho, rfl | ⟨hk, rfl⟩⟩
      · exact Or.inl ho
      · exact Or.inr ⟨hk, ho⟩
    · rintro (ho | ⟨hk, ho⟩)
      · exact ⟨sha, ho, Or.inl rfl⟩
      · exact ⟨orig sha, ho, Or.inr ⟨hk, rfl⟩⟩

/-! ## 6. Nothing is lost -/

section
variable {aliases : Aliases} {orig : String → String} {landings : List LandingEvidence}

theorem Direct.mono {w w' : PresenceWitness} (hc : w.commits ⊆ w'.commits)
    (hi : w.identities ⊆ w'.identities) {id : ChangeIdentity}
    (h : Direct landings aliases orig w id) : Direct landings aliases orig w' id :=
  h.imp (fun ⟨slug, hs, he⟩ => ⟨slug, hi hs, he⟩) (fun ⟨sha, hs, he⟩ => ⟨sha, hc hs, he⟩)

theorem Proved.mono {w w' : PresenceWitness} (hc : w.commits ⊆ w'.commits)
    {id : ChangeIdentity} (h : Proved orig w id) : Proved orig w' id :=
  h.imp fun _ ⟨hs, he⟩ => ⟨hc hs, he⟩

/-- The evidence `w'` has the part of the history `w` that the questions need. -/
structure Suffices (landings : List LandingEvidence) (aliases : Aliases)
    (orig : String → String) (query : List ChangeIdentity) (w w' : PresenceWitness) : Prop where
  builds : ∀ slug ∈ w.identities, Asked landings query (.build slug) → slug ∈ w'.identities
  commits : ∀ sha ∈ w.commits, (Asked landings query (.foreign sha) ∨
    (aliases.has sha = true ∧ Asked landings query (.foreign (orig sha)))) → sha ∈ w'.commits

/-- A commit is needed as soon as its original is asked for: either it is an alias key, or it
is its own original. -/
theorem Suffices.commit_of_orig (horig : ∀ sha, originalForeign sha aliases = .ok (orig sha))
    {query : List ChangeIdentity} {w w' : PresenceWitness}
    (hs : Suffices landings aliases orig query w w') {sha : String} (hm : sha ∈ w.commits)
    (ha : Asked landings query (.foreign (orig sha))) : sha ∈ w'.commits := by
  refine hs.commits sha hm ?_
  by_cases hk : aliases.has sha = true
  · exact Or.inr ⟨hk, ha⟩
  · have hnone : aliases.get? sha = none := by
      rw [ObjectMap.has_eq_isSome, Option.not_isSome_iff_eq_none] at hk
      exact hk
    have ho : orig sha = sha := by
      have hr := horig sha
      rw [originalForeign_of_get?_none hnone, Except.ok.injEq] at hr
      exact hr.symm
    exact Or.inl (ho ▸ ha)

theorem Direct.transfer (horig : ∀ sha, originalForeign sha aliases = .ok (orig sha))
    {query : List ChangeIdentity} {w w' : PresenceWitness}
    (hs : Suffices landings aliases orig query w w') {id : ChangeIdentity}
    (ha : Asked landings query id) (h : Direct landings aliases orig w id) :
    Direct landings aliases orig w' id := by
  rcases h with ⟨slug, hm, rfl⟩ | ⟨sha, hm, rfl, hr⟩
  · exact Or.inl ⟨slug, hs.builds slug hm ha, rfl⟩
  · exact Or.inr ⟨sha, hs.commit_of_orig horig hm ha, rfl, hr⟩

theorem Proved.transfer (horig : ∀ sha, originalForeign sha aliases = .ok (orig sha))
    {query : List ChangeIdentity} {w w' : PresenceWitness}
    (hs : Suffices landings aliases orig query w w') {id : ChangeIdentity}
    (ha : Asked landings query id) (h : Proved orig w id) : Proved orig w' id := by
  obtain ⟨sha, hm, rfl | rfl⟩ := h
  · exact ⟨sha, hs.commit_of_orig horig hm ha, Or.inl rfl⟩
  · exact ⟨sha, hs.commits sha hm (Or.inl ha), Or.inr rfl⟩

/-- Evidence between "what the questions need" and the full history answers every question as
the full history does. -/
theorem projectPresence_sandwich
    (horig : ∀ sha, originalForeign sha aliases = .ok (orig sha))
    {query : List ChangeIdentity} {w w' : PresenceWitness}
    (hs : Suffices landings aliases orig query w w')
    (hc : w'.commits ⊆ w.commits) (hi : w'.identities ⊆ w.identities) :
    ∃ full ids, projectPresence w landings aliases false = .ok full ∧
      projectPresence w' landings aliases false = .ok ids ∧
      ∀ q ∈ query, q ∈ ids ↔ q ∈ full := by
  obtain ⟨full, hfull, hmf⟩ := mem_projectPresence horig w landings
  obtain ⟨ids, hids, hmi⟩ := mem_projectPresence horig w' landings
  refine ⟨full, ids, hfull, hids, fun q hq => ?_⟩
  rw [hmf, hmi]
  have hself : Asked landings query q := ⟨q, hq, Relation.ReflTransGen.refl⟩
  constructor
  · rintro (h | ⟨s, h, hsq⟩)
    · exact Or.inl (h.mono hc hi)
    · exact Or.inr ⟨s, h.imp (Direct.mono hc hi) (Proved.mono hc), hsq⟩
  · rintro (h | ⟨s, h, hsq⟩)
    · exact Or.inl (h.transfer horig hs hself)
    · have ha : Asked landings query s := ⟨q, hq, hsq.to_reflTransGen⟩
      exact Or.inr ⟨s, h.imp (Direct.transfer horig hs ha) (Proved.transfer horig hs ha), hsq⟩

end

/-- Only an alias key can send `originalForeign` into a cycle. -/
theorem originalForeign_ok_of_keys {aliases : Aliases}
    (h : ∀ key ∈ aliases.keys, ∃ original, originalForeign key aliases = .ok original)
    (sha : String) : ∃ original, originalForeign sha aliases = .ok original := by
  by_cases hk : sha ∈ aliases.keys
  · exact h sha hk
  · exact ⟨sha, originalForeign_of_get?_none (ObjectMap.get?_eq_none.mpr hk)⟩

/-- Reading the aliases for their originals returned, so no commit has a cyclic alias. -/
theorem originalForeign_ok_of_presenceNeeds {query : List ChangeIdentity}
    {landings : List LandingEvidence} {aliases : Aliases} {needs : PresenceNeeds}
    (h : presenceNeeds query landings aliases = .ok needs) (sha : String) :
    ∃ original, originalForeign sha aliases = .ok original := by
  obtain ⟨originals, ho, -⟩ := Checked.bind_eq_ok.mp h
  refine originalForeign_ok_of_keys (fun key hkey => ?_) sha
  obtain ⟨pair, hp⟩ := Checked.ok_of_mapM_ok ho key hkey
  obtain ⟨original, hoo, -⟩ := Checked.bind_eq_ok.mp hp
  exact ⟨original, hoo⟩

/-- A probe of `w` that covers the needs of its questions answers them as `w` does. -/
theorem projectProbe_of_covers {w : PresenceWitness} {questions : List ChangeIdentity}
    {landings : List LandingEvidence} {aliases : Aliases} {probe : PresenceProbe}
    {needs : PresenceNeeds} (hq : probe.questions = normalizeIdentities questions)
    (hr : probe.reachable = probe.commits.filter (fun sha => sha ∈ w.commits))
    (ht : probe.trailers = probe.builds.filter (fun slug => slug ∈ w.identities))
    (hn : presenceNeeds probe.questions landings aliases = .ok needs)
    (hc : covers probe needs = true) :
    ∃ full, projectPresence w landings aliases false = .ok full ∧
      projectProbe probe landings aliases
        = .ok ((normalizeIdentities questions).filter (fun id => id ∈ full)) := by
  choose orig horig using originalForeign_ok_of_presenceNeeds hn
  obtain ⟨needs', hn', hb, hcm⟩ := mem_presenceNeeds horig probe.questions landings
  obtain rfl : needs' = needs := by rw [hn, Except.ok.injEq] at hn'; exact hn'.symm
  simp only [covers, Bool.and_eq_true, List.all_eq_true, decide_eq_true_eq] at hc
  have hs : Suffices landings aliases orig probe.questions w ⟨probe.reachable, probe.trailers⟩ := by
    refine ⟨fun slug hm ha => ?_, fun sha hm ha => ?_⟩
    · rw [ht, List.mem_filter, decide_eq_true_eq]
      exact ⟨hc.2 slug ((hb slug).mpr ha), hm⟩
    · rw [hr, List.mem_filter, decide_eq_true_eq]
      exact ⟨hc.1 sha ((hcm sha).mpr ha), hm⟩
  obtain ⟨full, ids, hfull, hids, hmem⟩ := projectPresence_sandwich horig hs
    (by rw [hr]; exact fun sha h => of_decide_eq_true (List.mem_filter.mp h).2)
    (by rw [ht]; exact fun slug h => of_decide_eq_true (List.mem_filter.mp h).2)
  refine ⟨full, hfull, ?_⟩
  have hf : probe.questions.filter (fun id => decide (id ∈ ids))
      = (normalizeIdentities questions).filter (fun id => decide (id ∈ full)) := by
    rw [← hq]
    exact List.filter_congr fun q hqm => by rw [decide_eq_decide]; exact hmem q hqm
  rw [projectProbe, hids, Checked.ok_bind, hf]
  exact congrArg Except.ok (JsText.sortedSet_filter_sortedSet _ _ _)

/-- **Compact probes lose nothing.**  The probe of a full witness answers each question as the
witness does; and so it does under later landings and aliases for which `answers` accepts it,
for every identity then asked. -/
theorem compactProbe_lossless (witness : PresenceWitness) (questions : List ChangeIdentity)
    (landings : List LandingEvidence) (aliases : Aliases)
    (h : ∀ sha, ∃ original, originalForeign sha aliases = .ok original) :
    ∃ probe, compactProbe witness questions landings aliases = .ok probe ∧
      (∃ full, projectPresence witness landings aliases false = .ok full ∧
        projectProbe probe landings aliases
          = .ok ((normalizeIdentities questions).filter (fun id => id ∈ full))) ∧
      ∀ query later laterAliases, answers probe query later laterAliases = .ok true →
        (∀ id ∈ query, id ∈ questions) ∧
        ∃ full, projectPresence witness later laterAliases false = .ok full ∧
          projectProbe probe later laterAliases
            = .ok ((normalizeIdentities questions).filter (fun id => id ∈ full)) := by
  choose orig horig using h
  obtain ⟨needs, hn, -, -⟩ := mem_presenceNeeds horig (normalizeIdentities questions) landings
  refine ⟨_, by rw [compactProbe, hn]; rfl, ?_, ?_⟩
  · refine projectProbe_of_covers rfl rfl rfl hn ?_
    simp [covers]
  · intro query later laterAliases ha
    rw [answers] at ha
    split at ha
    · simp at ha
    · rename_i hall
      obtain ⟨needs', hn', hcov⟩ := Checked.bind_eq_ok.mp ha
      refine ⟨fun id hid => ?_, projectProbe_of_covers rfl rfl rfl hn' (Except.ok.inj hcov)⟩
      have hnot : ¬ decide (id ∉ normalizeIdentities questions) = true := fun hd =>
        hall (List.any_eq_true.mpr ⟨id, hid, hd⟩)
      rw [decide_eq_true_eq, not_not, normalizeIdentities, JsText.mem_sortedSet] at hnot
      exact hnot

/-- A head with two commits, one of them a replay, under one node landing. -/
theorem compactProbe_lossless_replay :
    let aliases : Aliases := ObjectMap.empty.set "c2" "c1"
    let node : LandingEvidence := ⟨"node", "c1", some [.foreign "c0", .build "leaf"]⟩
    ∃ probe, compactProbe ⟨["c2", "c3"], ["top"]⟩ [.build "leaf", .build "gone"] [node] aliases
        = .ok probe ∧
      projectProbe probe [node] aliases = .ok [.build "leaf"] := by
  intro aliases node
  have h : ∀ sha, ∃ original, originalForeign sha aliases = .ok original := by
    refine originalForeign_ok_of_keys ?_
    intro key hkey
    have hk : key = "c2" := by simpa [aliases] using ObjectMap.mem_keys_set.mp hkey
    subst hk
    exact ⟨"c1", by decide⟩
  obtain ⟨probe, hp, ⟨full, hf, hpp⟩, -⟩ :=
    compactProbe_lossless ⟨["c2", "c3"], ["top"]⟩ [.build "leaf", .build "gone"] [node] aliases h
  have hfull : full = [.build "leaf", .build "top", .foreign "c0", .foreign "c1"] := by
    have he : projectPresence ⟨["c2", "c3"], ["top"]⟩ [node] aliases false
        = .ok [.build "leaf", .build "top", .foreign "c0", .foreign "c1"] := by decide
    rw [he, Except.ok.injEq] at hf
    exact hf.symm
  refine ⟨probe, hp, hpp.trans ?_⟩
  rw [hfull]
  decide

end ChangePresence
end Autobuild
