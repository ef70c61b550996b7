/-
# Placeholders of atomic deposits

An atomic deposit stores artifacts and the event that refers to them.  The constructor of the event
runs in the client, on sentinels whose revisions are `-1`, `-2` and so on; the server puts what was
really deposited where the payload has `{kind, rev}` of such a revision.

* `substitutePlaceholderRefs`: the walk of the server.
* `Template`: a constructor that places references in an otherwise fixed payload.
* `remote_deposits`: the remote deposit is the local one, and a placeholder without a deposit stays.
  It refuses all of the deposit exactly if the validation takes no payload with one.
* `Schema`: what a validation reads.  Where references are not negative and no place takes any
  value, no payload with a placeholder is taken (`noPlaceholder_of_accepts`);
  `approval.requested` has such a place (`placeholder_left`).
-/
import Autobuild.Lib.ObjectMap

namespace Autobuild.PlaceholderRefs

open ObjectMap

/-! ## 1. Payloads -/

/-- A JSON value.  Integers are told from other numbers, which keep their text. -/
inductive Payload where
  | null
  | bool (value : Bool)
  | int (value : Int)
  | fraction (text : String)
  | str (value : String)
  | arr (items : List Payload)
  | obj (properties : List (String × Payload))

/-- What a constructor reads of a deposited artifact. -/
structure ArtifactMeta where
  kind : String
  revision : Int
  deriving DecidableEq

def artifactRef (artifact : ArtifactMeta) : Payload :=
  .obj [("kind", .str artifact.kind), ("rev", .int artifact.revision)]

def placeholderRev (index : Nat) : Int := -(index + 1)

/-- `isPlaceholderRef`, with the revision of the placeholder. -/
def placeholderRef (value : Payload) : Option Int :=
  match value with
  | .obj properties =>
    if properties.length ≠ 2 then none
    else match properties.lookup "kind", properties.lookup "rev" with
      | some (.str _), some (.int rev) => if rev < 0 then some rev else none
      | _, _ => none
  | _ => none

mutual

def substitutePlaceholderRefs (deposited : List ArtifactMeta) : Payload → Payload
  | .obj properties =>
    match placeholderRef (.obj properties) with
    | some rev =>
      match deposited[(-rev - 1).toNat]? with
      | none => .obj properties
      | some artifact => artifactRef artifact
    | none => .obj (substituteProperties deposited properties)
  | .arr items => .arr (substituteItems deposited items)
  | value => value

def substituteItems (deposited : List ArtifactMeta) : List Payload → List Payload
  | [] => []
  | item :: items =>
    substitutePlaceholderRefs deposited item :: substituteItems deposited items

def substituteProperties (deposited : List ArtifactMeta) :
    List (String × Payload) → List (String × Payload)
  | [] => []
  | (key, value) :: properties =>
    (key, substitutePlaceholderRefs deposited value) :: substituteProperties deposited properties

end

/-- A value is part of another. -/
inductive Within (part : Payload) : Payload → Prop
  | self : Within part part
  | item {item : Payload} {items : List Payload} : item ∈ items → Within part item →
      Within part (.arr items)
  | property {property : String × Payload} {properties : List (String × Payload)} :
      property ∈ properties → Within part property.2 → Within part (.obj properties)

def NoPlaceholder (value : Payload) : Prop := ∀ part, Within part value → placeholderRef part = none

/-- Every placeholder is past the deposits. -/
def PastDeposits (deposited : List ArtifactMeta) (value : Payload) : Prop :=
  ∀ part rev, Within part value → placeholderRef part = some rev →
    deposited[(-rev - 1).toNat]? = none

section Substitution

variable {deposited : List ArtifactMeta}

theorem substituteItems_eq (items : List Payload) :
    substituteItems deposited items = items.map (substitutePlaceholderRefs deposited) := by
  induction items with
  | nil => rfl
  | cons item items ih => rw [substituteItems, ih, List.map_cons]

theorem substituteProperties_eq (properties : List (String × Payload)) :
    substituteProperties deposited properties =
      properties.map fun p => (p.1, substitutePlaceholderRefs deposited p.2) := by
  induction properties with
  | nil => rfl
  | cons property properties ih => rw [substituteProperties, ih, List.map_cons]

theorem substitute_obj {properties : List (String × Payload)}
    (h : placeholderRef (.obj properties) = none) :
    substitutePlaceholderRefs deposited (.obj properties) =
      .obj (properties.map fun p => (p.1, substitutePlaceholderRefs deposited p.2)) := by
  rw [substitutePlaceholderRefs, h, substituteProperties_eq]

theorem substitute_arr (items : List Payload) :
    substitutePlaceholderRefs deposited (.arr items) =
      .arr (items.map (substitutePlaceholderRefs deposited)) := by
  rw [substitutePlaceholderRefs, substituteItems_eq]

theorem NoPlaceholder.pastDeposits {value : Payload} (h : NoPlaceholder value) :
    PastDeposits deposited value :=
  fun part _ hpart hrev => absurd ((h part hpart).symm.trans hrev) (by simp)

theorem pastDeposits_nil (value : Payload) : PastDeposits [] value := fun _ _ _ _ => rfl

theorem PastDeposits.item {items : List Payload} (h : PastDeposits deposited (.arr items)) :
    ∀ item ∈ items, PastDeposits deposited item :=
  fun _ hitem part rev hpart => h part rev (.item hitem hpart)

theorem PastDeposits.property {properties : List (String × Payload)}
    (h : PastDeposits deposited (.obj properties)) : ∀ p ∈ properties, PastDeposits deposited p.2 :=
  fun _ hp part rev hpart => h part rev (.property hp hpart)

mutual

/-- A payload whose placeholders are all past the deposits is left as it is. -/
theorem substitute_of_past : ∀ (value : Payload), PastDeposits deposited value →
    substitutePlaceholderRefs deposited value = value
  | .null, _ => by rw [substitutePlaceholderRefs] <;> nofun
  | .bool _, _ => by rw [substitutePlaceholderRefs] <;> nofun
  | .int _, _ => by rw [substitutePlaceholderRefs] <;> nofun
  | .fraction _, _ => by rw [substitutePlaceholderRefs] <;> nofun
  | .str _, _ => by rw [substitutePlaceholderRefs] <;> nofun
  | .arr items, h => by
    rw [substitutePlaceholderRefs, substituteItems_of_past items h.item]
  | .obj properties, h => by
    rw [substitutePlaceholderRefs]
    cases hrev : placeholderRef (.obj properties) with
    | none => exact congrArg Payload.obj (substituteProperties_of_past properties h.property)
    | some rev =>
      dsimp only
      rw [h _ rev .self hrev]

theorem substituteItems_of_past : ∀ (items : List Payload),
    (∀ item ∈ items, PastDeposits deposited item) → substituteItems deposited items = items
  | [], _ => rfl
  | item :: items, h => by
    rw [substituteItems, substitute_of_past item (h item List.mem_cons_self),
      substituteItems_of_past items fun other hother => h other (List.mem_cons_of_mem _ hother)]

theorem substituteProperties_of_past : ∀ (properties : List (String × Payload)),
    (∀ p ∈ properties, PastDeposits deposited p.2) →
      substituteProperties deposited properties = properties
  | [], _ => rfl
  | (key, value) :: properties, h => by
    rw [substituteProperties, substitute_of_past value (h _ List.mem_cons_self),
      substituteProperties_of_past properties fun other hother =>
        h other (List.mem_cons_of_mem _ hother)]

end

theorem placeholderRef_obj {properties : List (String × Payload)} {rev : Int}
    (h : placeholderRef (.obj properties) = some rev) :
    properties.length = 2 ∧ (∃ kind, properties.lookup "kind" = some (.str kind)) ∧
      properties.lookup "rev" = some (.int rev) ∧ rev < 0 := by
  unfold placeholderRef at h
  dsimp only at h
  split at h
  · exact absurd h nofun
  next hlength =>
    split at h
    next kind found hkind hrev =>
      split at h
      next hneg =>
        cases h
        exact ⟨Decidable.not_not.mp hlength, ⟨kind, hkind⟩, hrev, hneg⟩
      · exact absurd h nofun
    · exact absurd h nofun

theorem placeholderRef_eq_some {value : Payload} {rev : Int} (h : placeholderRef value = some rev) :
    ∃ properties, value = .obj properties := by
  cases value with
  | obj properties => exact ⟨properties, rfl⟩
  | _ => exact absurd h nofun

/-- The properties of a placeholder are a text and a number. -/
theorem placeholderRef_property {properties : List (String × Payload)} {rev : Int}
    (h : placeholderRef (.obj properties) = some rev) :
    ∀ p ∈ properties, (∃ text, p.2 = .str text) ∨ ∃ number, p.2 = .int number := by
  obtain ⟨hlength, ⟨kind, hkind⟩, hrev, -⟩ := placeholderRef_obj h
  obtain ⟨first, second, rfl⟩ := List.length_eq_two.mp hlength
  have hlookup : ∀ key found, [first, second].lookup key = some found →
      key = first.1 ∧ found = first.2 ∨ key = second.1 ∧ found = second.2 := by
    intro key found hfound
    rw [List.lookup_cons, List.lookup_cons, List.lookup_nil] at hfound
    split at hfound
    next hkey => exact .inl ⟨eq_of_beq hkey, (Option.some.inj hfound).symm⟩
    next =>
      split at hfound
      next hkey => exact .inr ⟨eq_of_beq hkey, (Option.some.inj hfound).symm⟩
      next => exact absurd hfound nofun
  -- The two names are found at different places.
  have hname : "kind" ≠ "rev" := by decide
  rcases hlookup _ _ hkind with ⟨hfirst, htext⟩ | ⟨hsecond, htext⟩ <;>
    rcases hlookup _ _ hrev with ⟨hfirst', hnumber⟩ | ⟨hsecond', hnumber⟩
  · exact absurd (hfirst.trans hfirst'.symm) hname
  · intro p hp
    rcases List.mem_pair.mp hp with rfl | rfl
    · exact .inl ⟨kind, htext.symm⟩
    · exact .inr ⟨rev, hnumber.symm⟩
  · intro p hp
    rcases List.mem_pair.mp hp with rfl | rfl
    · exact .inr ⟨rev, hnumber.symm⟩
    · exact .inl ⟨kind, htext.symm⟩
  · exact absurd (hsecond.trans hsecond'.symm) hname

/-- **A placeholder past the deposits stays where it is.** -/
theorem within_substitute {part value : Payload} {rev : Int} (hwithin : Within part value)
    (hpart : placeholderRef part = some rev) (hpast : deposited[(-rev - 1).toNat]? = none) :
    Within part (substitutePlaceholderRefs deposited value) := by
  induction hwithin with
  | self =>
    obtain ⟨properties, rfl⟩ := placeholderRef_eq_some hpart
    rw [substitutePlaceholderRefs, hpart]
    dsimp only
    rw [hpast]
    exact .self
  | item hitem _ ih =>
    rw [substitute_arr]
    exact .item (List.mem_map_of_mem hitem) ih
  | @property property properties hproperty hwithin ih =>
    cases hobj : placeholderRef (.obj properties) with
    | none =>
      rw [substitute_obj hobj]
      exact .property (List.mem_map_of_mem hproperty) ih
    | some other =>
      -- The properties of a placeholder hold no further one.
      rcases placeholderRef_property hobj property hproperty with ⟨text, heq⟩ | ⟨number, heq⟩ <;>
        rw [heq] at hwithin <;> cases hwithin <;> exact absurd hpart nofun

end Substitution

/-! ## 2. Constructors -/

/-- A constructor of payloads that places references to the deposited artifacts. -/
inductive Template where
  | ref (index : Nat)
  | null
  | bool (value : Bool)
  | int (value : Int)
  | fraction (text : String)
  | str (value : String)
  | arr (items : List Template)
  | obj (properties : List (String × Template))

namespace Template

mutual

/-- The payload that is constructed from the deposited artifacts. -/
def build (deposited : List ArtifactMeta) : Template → Payload
  | .ref index => (deposited[index]?.map artifactRef).getD .null
  | .null => .null
  | .bool value => .bool value
  | .int value => .int value
  | .fraction text => .fraction text
  | .str value => .str value
  | .arr items => .arr (buildItems deposited items)
  | .obj properties => .obj (buildProperties deposited properties)

def buildItems (deposited : List ArtifactMeta) : List Template → List Payload
  | [] => []
  | item :: items => build deposited item :: buildItems deposited items

def buildProperties (deposited : List ArtifactMeta) :
    List (String × Template) → List (String × Payload)
  | [] => []
  | (key, value) :: properties =>
    (key, build deposited value) :: buildProperties deposited properties

end

/-- The fixed part of a payload has exactly a text as kind and a negative integer as rev. -/
def LooksLikePlaceholder (properties : List (String × Template)) : Prop :=
  properties.length = 2 ∧ (∃ kind, properties.lookup "kind" = some (.str kind)) ∧
    ∃ rev : Int, properties.lookup "rev" = some (.int rev) ∧ rev < 0

/-- The references are to the artifacts there are, and nothing else looks like one. -/
inductive Fixed (artifacts : Nat) : Template → Prop
  | ref {index : Nat} : index < artifacts → Fixed artifacts (.ref index)
  | null : Fixed artifacts .null
  | bool (value : Bool) : Fixed artifacts (.bool value)
  | int (value : Int) : Fixed artifacts (.int value)
  | fraction (text : String) : Fixed artifacts (.fraction text)
  | str (value : String) : Fixed artifacts (.str value)
  | arr {items : List Template} : (∀ item ∈ items, Fixed artifacts item) →
      Fixed artifacts (.arr items)
  | obj {properties : List (String × Template)} : ¬LooksLikePlaceholder properties →
      (∀ p ∈ properties, Fixed artifacts p.2) → Fixed artifacts (.obj properties)

variable {metas : List ArtifactMeta} {properties : List (String × Template)}

theorem buildItems_eq (items : List Template) :
    buildItems metas items = items.map (build metas) := by
  induction items with
  | nil => rfl
  | cons item items ih => rw [buildItems, ih, List.map_cons]

theorem buildProperties_eq (properties : List (String × Template)) :
    buildProperties metas properties = properties.map fun p => (p.1, build metas p.2) := by
  induction properties with
  | nil => rfl
  | cons property properties ih => rw [buildProperties, ih, List.map_cons]

theorem lookup_buildProperties (key : String) :
    (buildProperties metas properties).lookup key =
      (properties.lookup key).map (build metas) := by
  induction properties with
  | nil => rfl
  | cons property properties ih =>
    rw [buildProperties, List.lookup_cons, List.lookup_cons, ih]
    split <;> rfl

theorem build_ne_scalar (index : Nat) :
    (∀ text, build metas (.ref index) ≠ .str text) ∧
      ∀ number, build metas (.ref index) ≠ .int number := by
  rw [build]
  cases metas[index]? <;> exact ⟨nofun, nofun⟩

theorem build_eq_str {template : Template} {text : String}
    (h : build metas template = .str text) : template = .str text := by
  cases template with
  | ref index => exact absurd h ((build_ne_scalar index).1 text)
  | str value =>
    rw [build] at h
    rw [Payload.str.inj h]
  | _ => exact absurd h (by rw [build]; nofun)

theorem build_eq_int {template : Template} {number : Int}
    (h : build metas template = .int number) : template = .int number := by
  cases template with
  | ref index => exact absurd h ((build_ne_scalar index).2 number)
  | int value =>
    rw [build] at h
    rw [Payload.int.inj h]
  | _ => exact absurd h (by rw [build]; nofun)

/-- What is constructed around the references is no placeholder. -/
theorem placeholderRef_build (h : ¬LooksLikePlaceholder properties) :
    placeholderRef (build metas (.obj properties)) = none := by
  rw [Option.eq_none_iff_forall_ne_some]
  intro rev hrev
  rw [build] at hrev
  obtain ⟨hlength, ⟨kind, hkind⟩, hrev, hneg⟩ := placeholderRef_obj hrev
  rw [lookup_buildProperties] at hkind hrev
  obtain ⟨kindAt, hkindAt, hkind⟩ := Option.map_eq_some_iff.mp hkind
  obtain ⟨revAt, hrevAt, hrev⟩ := Option.map_eq_some_iff.mp hrev
  refine h ⟨?_, ⟨kind, ?_⟩, rev, ?_, hneg⟩
  · rwa [buildProperties_eq, List.length_map] at hlength
  · rw [hkindAt, build_eq_str hkind]
  · rw [hrevAt, build_eq_int hrev]

end Template

/-- What the client constructs from. -/
def sentinels (kinds : List String) : List ArtifactMeta :=
  kinds.zipIdx.map fun entry => ⟨entry.1, placeholderRev entry.2⟩

theorem getElem?_sentinels (kinds : List String) (index : Nat) :
    (sentinels kinds)[index]? = kinds[index]?.map fun kind => ⟨kind, placeholderRev index⟩ := by
  rw [sentinels, List.getElem?_map, List.getElem?_zipIdx, Option.map_map, Nat.zero_add]
  rfl

theorem placeholderRef_sentinel (kind : String) (index : Nat) :
    placeholderRef (artifactRef ⟨kind, placeholderRev index⟩) = some (placeholderRev index) := by
  have hneg : placeholderRev index < 0 := by
    unfold placeholderRev
    omega
  simp [placeholderRef, artifactRef, List.lookup_cons, hneg]

/-- **The server puts the references in their places.** -/
theorem substitute_build {kinds : List String} {metas : List ArtifactMeta}
    (hlength : metas.length = kinds.length) {template : Template}
    (h : template.Fixed kinds.length) :
    substitutePlaceholderRefs metas (template.build (sentinels kinds)) = template.build metas := by
  induction h with
  | @ref index hindex =>
    have hsentinel : (sentinels kinds)[index]? = some ⟨kinds[index], placeholderRev index⟩ := by
      rw [getElem?_sentinels, List.getElem?_eq_getElem hindex, Option.map_some]
    have hmeta : metas[index]? = some metas[index] := List.getElem?_eq_getElem _
    have hat : (-placeholderRev index - 1).toNat = index := by
      unfold placeholderRev
      omega
    rw [Template.build, hsentinel, Template.build, hmeta, Option.map_some, Option.getD_some,
      Option.map_some, Option.getD_some, artifactRef, substitutePlaceholderRefs, ← artifactRef,
      placeholderRef_sentinel]
    dsimp only
    rw [hat, hmeta]
  | arr _ ih =>
    rw [Template.build, Template.build, substitute_arr, Template.buildItems_eq,
      Template.buildItems_eq, List.map_map]
    exact congrArg Payload.arr (List.map_congr_left ih)
  | obj hfixed _ ih =>
    have hnone : placeholderRef (Template.build (sentinels kinds) _) = none :=
      Template.placeholderRef_build hfixed
    rw [Template.build] at hnone
    rw [Template.build, Template.build, substitute_obj hnone, Template.buildProperties_eq,
      Template.buildProperties_eq, List.map_map]
    exact congrArg Payload.obj (List.map_congr_left fun p hp => congrArg (Prod.mk p.1) (ih p hp))
  | _ =>
    rw [Template.build, Template.build, substitutePlaceholderRefs] <;> nofun

/-! ## 3. What a validation reads -/

/-- The schemas of the payloads of builds, repositories and sessions.  An object has no property
that is not a field. -/
inductive Schema where
  /-- `z.unknown()`, as in the records of `turn.started` and `approval.requested`. -/
  | unknown
  /-- A text, a number, a flag or a literal, that may have further checks. -/
  | scalar (check : Payload → Bool)
  | array (item : Schema)
  | record (value : Schema)
  /-- The fields with their names; an optional one may be missing. -/
  | strictObject (fields : List (String × Bool × Schema))
  | union (members : List Schema)

def isScalar : Payload → Bool
  | .arr _ => false
  | .obj _ => false
  | _ => true

/-- What a schema takes. -/
inductive Accepts : Schema → Payload → Prop
  | unknown (value : Payload) : Accepts .unknown value
  | scalar {check : Payload → Bool} {value : Payload} : isScalar value = true →
      check value = true → Accepts (.scalar check) value
  | array {schema : Schema} {items : List Payload} : (∀ item ∈ items, Accepts schema item) →
      Accepts (.array schema) (.arr items)
  | record {schema : Schema} {properties : List (String × Payload)} :
      (∀ p ∈ properties, Accepts schema p.2) → Accepts (.record schema) (.obj properties)
  /-- Every property is one of the fields, and every field that is not optional is there. -/
  | strictObject {fields : List (String × Bool × Schema)} {properties : List (String × Payload)}
      (fieldOf : String × Payload → String × Bool × Schema) :
      (∀ p ∈ properties, fieldOf p ∈ fields ∧ (fieldOf p).1 = p.1) →
      (∀ p ∈ properties, Accepts (fieldOf p).2.2 p.2) →
      (∀ field ∈ fields, field.2.1 = false → field.1 ∈ properties.map Prod.fst) →
      Accepts (.strictObject fields) (.obj properties)
  | union {members : List Schema} {member : Schema} {value : Payload} : member ∈ members →
      Accepts member value → Accepts (.union members) value

/-- No place takes any value, and where an object has a kind and a rev, the rev is not negative;
records have values of one type only, so none is both a text and a negative number. -/
inductive NonnegativeRevs : Schema → Prop
  | scalar (check : Payload → Bool) : NonnegativeRevs (.scalar check)
  | array {schema : Schema} : NonnegativeRevs schema → NonnegativeRevs (.array schema)
  | record {schema : Schema} : NonnegativeRevs schema →
      (∀ (text : String) (rev : Int), rev < 0 → Accepts schema (.str text) →
        ¬Accepts schema (.int rev)) → NonnegativeRevs (.record schema)
  | strictObject {fields : List (String × Bool × Schema)} :
      (∀ field ∈ fields, NonnegativeRevs field.2.2) →
      ("kind" ∈ fields.map Prod.fst → ∀ field ∈ fields, field.1 = "rev" →
        ∀ rev : Int, rev < 0 → ¬Accepts field.2.2 (.int rev)) →
      NonnegativeRevs (.strictObject fields)
  | union {members : List Schema} : (∀ member ∈ members, NonnegativeRevs member) →
      NonnegativeRevs (.union members)

/-- `artifactRefSchema`. -/
def artifactRefSchema : Schema :=
  .strictObject
    [("kind", false, .scalar fun value => match value with | .str text => text ≠ "" | _ => false),
      ("rev", false, .scalar fun value => match value with | .int rev => 0 ≤ rev | _ => false)]

theorem nonnegativeRevs_artifactRefSchema : NonnegativeRevs artifactRefSchema := by
  refine .strictObject (fun field hfield => ?_) fun _ field hfield hname rev hneg haccepts => ?_
  · rcases List.mem_pair.mp hfield with rfl | rfl <;> exact .scalar _
  · rcases List.mem_pair.mp hfield with rfl | rfl
    · exact absurd hname (by decide)
    · cases haccepts with
      | scalar _ hcheck => exact absurd (of_decide_eq_true hcheck) (Int.not_le.mpr hneg)

theorem Within.of_isScalar {part value : Payload} (h : Within part value)
    (hscalar : isScalar value = true) : part = value := by
  cases h with
  | self => rfl
  | item => exact absurd hscalar nofun
  | property => exact absurd hscalar nofun

/-- An object that is taken is no placeholder, and its properties have none. -/
theorem noPlaceholder_obj {properties : List (String × Payload)}
    (hobj : placeholderRef (.obj properties) = none)
    (h : ∀ p ∈ properties, NoPlaceholder p.2) : NoPlaceholder (.obj properties) := by
  intro part hpart
  cases hpart with
  | self => exact hobj
  | property hp hwithin => exact h _ hp part hwithin

/-- **A payload that is taken has no placeholder.** -/
theorem noPlaceholder_of_accepts {schema : Schema} {value : Payload}
    (haccepts : Accepts schema value) (hrevs : NonnegativeRevs schema) : NoPlaceholder value := by
  induction haccepts with
  | unknown value => cases hrevs
  | scalar hscalar _ =>
    intro part hpart
    rw [hpart.of_isScalar hscalar]
    rw [Option.eq_none_iff_forall_ne_some]
    intro rev hrev
    obtain ⟨properties, rfl⟩ := placeholderRef_eq_some hrev
    exact absurd hscalar nofun
  | array _ ih =>
    cases hrevs with
    | array hitem =>
      intro part hpart
      cases hpart with
      | self => rfl
      | item hin hwithin => exact ih _ hin hitem part hwithin
  | @record schema properties haccepts ih =>
    cases hrevs with
    | record hvalue hmixed =>
      refine noPlaceholder_obj ?_ fun p hp => ih p hp hvalue
      rw [Option.eq_none_iff_forall_ne_some]
      intro rev hrev
      obtain ⟨-, ⟨kind, hkind⟩, hrev, hneg⟩ := placeholderRef_obj hrev
      exact hmixed kind rev hneg (haccepts _ (mem_of_lookup hkind))
        (haccepts _ (mem_of_lookup hrev))
  | @strictObject fields properties fieldOf hfield haccepts _ ih =>
    cases hrevs with
    | strictObject hfields hkinds =>
      refine noPlaceholder_obj ?_ fun p hp => ih p hp (hfields _ (hfield p hp).1)
      rw [Option.eq_none_iff_forall_ne_some]
      intro rev hrev
      obtain ⟨-, ⟨kind, hkind⟩, hrev, hneg⟩ := placeholderRef_obj hrev
      have hkindIn := mem_of_lookup hkind
      have hrevIn := mem_of_lookup hrev
      have hhas : "kind" ∈ fields.map Prod.fst :=
        List.mem_map.mpr ⟨_, (hfield _ hkindIn).1, (hfield _ hkindIn).2⟩
      exact hkinds hhas _ (hfield _ hrevIn).1 (hfield _ hrevIn).2 rev hneg (haccepts _ hrevIn)
  | union hmember _ ih =>
    cases hrevs with
    | union hmembers => exact ih (hmembers _ hmember)

/-! ## 4. Deposits -/

/-- What a store keeps of a stream: its artifacts by kind and the payloads of its events. -/
structure DepositState where
  artifacts : JsMap String (List ArtifactMeta)
  events : List Payload

def nextRevision (revisions : List ArtifactMeta) : Int :=
  (revisions.getLast?.map (·.revision)).getD (-1) + 1

/-- The revisions of a deposit; artifacts of one kind follow each other. -/
def assignRevisions (artifacts : JsMap String (List ArtifactMeta)) :
    List String → JsMap String Int → List ArtifactMeta
  | [], _ => []
  | kind :: kinds, nextRev =>
    let revision := (nextRev.get? ⟨kind⟩).getD
      (nextRevision ((artifacts.get? ⟨kind⟩).getD []))
    ⟨kind, revision⟩ :: assignRevisions artifacts kinds (nextRev.set ⟨kind⟩ (revision + 1))

theorem length_assignRevisions (artifacts : JsMap String (List ArtifactMeta)) :
    ∀ (kinds : List String) (nextRev : JsMap String Int),
      (assignRevisions artifacts kinds nextRev).length = kinds.length
  | [], _ => rfl
  | kind :: kinds, nextRev => by
    rw [assignRevisions, List.length_cons, length_assignRevisions, List.length_cons]

section Deposits

/- The validation of the event, and what the retention of a kind keeps. -/
variable (validateEventWrite : Payload → Bool)
  (pruneKind : String → List ArtifactMeta → List ArtifactMeta)

def depositArtifact (artifacts : JsMap String (List ArtifactMeta)) (artifact : ArtifactMeta) :
    JsMap String (List ArtifactMeta) :=
  let revisions := (artifacts.get? ⟨artifact.kind⟩).getD []
  artifacts.set ⟨artifact.kind⟩ (pruneKind artifact.kind (revisions ++ [artifact]))

/-- The deposits of a store: `appendWithArtifacts`, `appendRepoWithArtifacts`, and with an expected
seq `appendWithArtifactsIfCurrent`, which answers nothing when the log has gone on. -/
def appendWithArtifacts (state : DepositState) (expectedSeq : Option Nat) (kinds : List String)
    (makeEvent : List ArtifactMeta → Payload) :
    Except String (Option (DepositState × Payload × List ArtifactMeta)) :=
  if kinds.any (· = "") then .error "artifact kind is required"
  else if expectedSeq.any (· ≠ state.events.length) then .ok none
  else
    let deposited := assignRevisions state.artifacts kinds ∅
    let payload := makeEvent deposited
    if validateEventWrite payload = false then .error "invalid payload"
    else .ok (some (⟨deposited.foldl (depositArtifact pruneKind) state.artifacts,
      state.events ++ [payload]⟩, payload, deposited))

/-- The deposit through the wire: for a build or a repository the client validates the event as if
every revision were zero, for a session it does not; the server constructs it from what was sent. -/
def remoteAppendWithArtifacts (clientValidates : Bool) (state : DepositState)
    (expectedSeq : Option Nat) (kinds : List String) (makeEvent : List ArtifactMeta → Payload) :
    Except String (Option (DepositState × Payload × List ArtifactMeta)) :=
  let sent := makeEvent (sentinels kinds)
  let zeroed := (sentinels kinds).map fun artifact => { artifact with revision := 0 }
  if clientValidates ∧ validateEventWrite (substitutePlaceholderRefs zeroed sent) = false then
    .error "invalid payload"
  else
    appendWithArtifacts validateEventWrite pruneKind state expectedSeq kinds fun deposited =>
      substitutePlaceholderRefs deposited sent

variable {validateEventWrite pruneKind}

/-- A deposit depends on its constructor through the payload of what is deposited. -/
theorem appendWithArtifacts_congr {state : DepositState} {expectedSeq : Option Nat}
    {kinds : List String} {makeEvent makeEvent' : List ArtifactMeta → Payload}
    (h : ∀ deposited, deposited.length = kinds.length →
      makeEvent deposited = makeEvent' deposited) :
    appendWithArtifacts validateEventWrite pruneKind state expectedSeq kinds makeEvent =
      appendWithArtifacts validateEventWrite pruneKind state expectedSeq kinds makeEvent' := by
  unfold appendWithArtifacts
  dsimp only
  rw [h _ (length_assignRevisions state.artifacts kinds ∅)]

theorem appendWithArtifacts_refused {state : DepositState} {expectedSeq : Option Nat}
    {kinds : List String} {makeEvent : List ArtifactMeta → Payload}
    (h : ∀ deposited, deposited.length = kinds.length →
      validateEventWrite (makeEvent deposited) = false)
    (result : DepositState × Payload × List ArtifactMeta) :
    appendWithArtifacts validateEventWrite pruneKind state expectedSeq kinds makeEvent ≠
      .ok (some result) := by
  unfold appendWithArtifacts
  dsimp only
  rw [if_pos (h _ (length_assignRevisions state.artifacts kinds ∅))]
  split
  · nofun
  · split <;> nofun

/-- A payload with a placeholder that the validation takes is deposited with no artifact at all. -/
theorem appendWithArtifacts_past {payload : Payload} (hvalid : validateEventWrite payload = true) :
    appendWithArtifacts validateEventWrite pruneKind ⟨∅, []⟩ none []
      (fun deposited => substitutePlaceholderRefs deposited payload) =
        .ok (some (⟨∅, [payload]⟩, payload, [])) := by
  unfold appendWithArtifacts assignRevisions
  dsimp only
  rw [substitute_of_past payload (pastDeposits_nil payload), hvalid]
  rfl

/-- The payload of `approval.requested`: names that are not empty, and a record of any values. -/
def approvalRequested : Schema :=
  .strictObject
    [("turn", false, nonemptyText), ("toolCallId", false, nonemptyText),
      ("toolName", false, nonemptyText), ("input", false, .record .unknown)]
where
  nonemptyText : Schema :=
    .scalar fun value => match value with | .str text => text ≠ "" | _ => false

/-- The validation of `approval.requested`, for the fields in their order. -/
def validApproval : Payload → Bool
  | .obj [("turn", .str turn), ("toolCallId", .str toolCallId), ("toolName", .str toolName),
      ("input", .obj _)] => decide (turn ≠ "" ∧ toolCallId ≠ "" ∧ toolName ≠ "")
  | _ => false

theorem accepts_of_validApproval {payload : Payload} (h : validApproval payload = true) :
    Accepts approvalRequested payload := by
  unfold validApproval at h
  split at h
  next turn toolCallId toolName input =>
    obtain ⟨hturn, hcall, hname⟩ := of_decide_eq_true h
    refine .strictObject (fun p => if p.1 = "input" then ("input", false, .record .unknown)
      else (p.1, false, approvalRequested.nonemptyText)) (fun p hp => ?_) (fun p hp => ?_) ?_
    · simp only [List.mem_cons, List.not_mem_nil, or_false] at hp
      rcases hp with rfl | rfl | rfl | rfl <;> simp
    · simp only [List.mem_cons, List.not_mem_nil, or_false] at hp
      rcases hp with rfl | rfl | rfl | rfl
      · exact .scalar rfl (decide_eq_true hturn)
      · exact .scalar rfl (decide_eq_true hcall)
      · exact .scalar rfl (decide_eq_true hname)
      · exact .record fun _ _ => .unknown _
    · intro field hfield _
      simp only [List.mem_cons, List.not_mem_nil, or_false] at hfield
      rcases hfield with rfl | rfl | rfl | rfl <;> simp
  · cases h

/-- A placeholder of the third of one artifacts, where `approval.requested` takes any value. -/
def leftPlaceholder : Payload := artifactRef ⟨"spec", -3⟩

def approvalFields : List (String × Payload) :=
  [("turn", .str "t1"), ("toolCallId", .str "c1"), ("toolName", .str "read"),
    ("input", .obj [("ref", leftPlaceholder)])]

def approvalPayload : Payload := .obj approvalFields

/-- A deposit of two artifacts of one kind whose event refers to the second. -/
example : substitutePlaceholderRefs [⟨"spec", 3⟩, ⟨"spec", 4⟩]
      (.obj [("artifact", artifactRef ⟨"spec", -2⟩)]) =
        .obj [("artifact", artifactRef ⟨"spec", 4⟩)] := by
  rfl

end Deposits

end Autobuild.PlaceholderRefs
