/-
# Property-ordered maps

A JavaScript object used as a dictionary is a finite map that also has an order: the keys
that are array indices first, ascending, then every other key in the order it was first
written.  Reading, writing and deleting by key never look at that order; `Object.keys`,
`Object.entries` and `JSON.stringify` do.

* `ObjectMap κ ν` is the list of properties in that order, with the proof that no key
  occurs twice, so a map with a doubled key cannot be built.
* `get?_set`, `get?_erase`: the two equations every proof about one key uses.
* `SameEntries`: two maps that differ in their order only (`sameEntries_iff_perm`).  Every
  operation by key respects it; what does not is exactly what reads `entries`.
-/
import Mathlib.Data.List.Perm.Basic
import Mathlib.Data.List.Nodup
import Mathlib.Data.List.Dedup

universe u v w

/-- Which keys are array indices.  Those are listed first and ascending, whatever the order
they were written in. -/
class PropertyKey (κ : Type u) where
  index? : κ → Option Nat

/-- The array index a string is, if it is one: a decimal below `2 ^ 32 - 1` without leading
zeros. -/
def arrayIndex? (s : String) : Option Nat :=
  let digits := s.toList
  if digits = [] ∨ digits.all Char.isDigit = false ∨ (digits.head? = some '0' ∧ digits ≠ ['0'])
  then none
  else
    let n := digits.foldl (fun n c => 10 * n + (c.toNat - 48)) 0
    if n < 4294967295 then some n else none

instance : PropertyKey String := ⟨arrayIndex?⟩

instance : PropertyKey Nat := ⟨fun n => if n < 4294967295 then some n else none⟩

/-- The key of a JavaScript `Map`, which is listed in the order it was written whatever it
is. -/
structure MapKey (κ : Type u) where
  key : κ
  deriving DecidableEq, Repr

instance {κ : Type u} : PropertyKey (MapKey κ) := ⟨fun _ => none⟩

/-- Finite maps from `κ` to `ν` with the order in which their properties are listed. -/
structure ObjectMap (κ : Type u) (ν : Type v) where
  entries : List (κ × ν)
  nodup : (entries.map Prod.fst).Nodup

/-- What a plain object reads as a function although it was never written.  It reads its
prototype as `__proto__`. -/
def inheritedNames : List String :=
  ["constructor", "hasOwnProperty", "isPrototypeOf", "propertyIsEnumerable", "toLocaleString",
    "toString", "valueOf", "__defineGetter__", "__defineSetter__", "__lookupGetter__",
    "__lookupSetter__"]

/-- A JavaScript `Map`. -/
abbrev JsMap (κ : Type u) (ν : Type v) := ObjectMap (MapKey κ) ν

namespace ObjectMap

variable {κ : Type u} {ν : Type v} {ω : Type w}

/-! ## 1. Operations -/

/-- The empty object. -/
def empty : ObjectMap κ ν := ⟨[], List.nodup_nil⟩

instance : Inhabited (ObjectMap κ ν) := ⟨empty⟩

instance : EmptyCollection (ObjectMap κ ν) := ⟨empty⟩

instance [DecidableEq κ] [DecidableEq ν] : DecidableEq (ObjectMap κ ν) := fun a b =>
  decidable_of_iff (a.entries = b.entries) (by cases a; cases b; simp)

/-- `Object.keys`. -/
def keys (m : ObjectMap κ ν) : List κ := m.entries.map Prod.fst

/-- `Object.values`. -/
def values (m : ObjectMap κ ν) : List ν := m.entries.map Prod.snd

/-- A new property `k` is listed before the property `j`. -/
def goesBefore [PropertyKey κ] (k j : κ) : Bool :=
  match PropertyKey.index? k, PropertyKey.index? j with
  | some a, some b => decide (a < b)
  | some _, none => true
  | none, _ => false

/-- Put a property that is not there yet at its place. -/
def place [PropertyKey κ] (e : κ × ν) : List (κ × ν) → List (κ × ν)
  | [] => [e]
  | x :: xs => if goesBefore e.1 x.1 then e :: x :: xs else x :: place e xs

theorem place_perm [PropertyKey κ] (e : κ × ν) :
    ∀ xs : List (κ × ν), (place e xs).Perm (e :: xs)
  | [] => List.Perm.refl _
  | x :: xs => by
    rw [place]
    split
    · exact List.Perm.refl _
    · exact ((place_perm e xs).cons x).trans (List.Perm.swap e x xs)

/-- A key that is no array index goes to the end. -/
theorem place_eq_append [PropertyKey κ] {e : κ × ν} (h : PropertyKey.index? e.1 = none) :
    ∀ xs : List (κ × ν), place e xs = xs ++ [e]
  | [] => rfl
  | x :: xs => by
    have hb : goesBefore e.1 x.1 = false := by simp [goesBefore, h]
    rw [place, hb, if_neg Bool.false_ne_true, place_eq_append h xs, List.cons_append]

/-- Overwrite the value at `k`, where it is. -/
def overwrite [DecidableEq κ] (k : κ) (v : ν) (xs : List (κ × ν)) : List (κ × ν) :=
  xs.map (fun e => if e.1 = k then (k, v) else e)

theorem map_fst_overwrite [DecidableEq κ] (k : κ) (v : ν) (xs : List (κ × ν)) :
    (overwrite k v xs).map Prod.fst = xs.map Prod.fst := by
  rw [overwrite, List.map_map]
  refine List.map_congr_left ?_
  rintro ⟨j, w⟩ -
  by_cases hj : j = k <;> simp [hj]

/-- `key in object`, `map.has`. -/
def has [DecidableEq κ] (m : ObjectMap κ ν) (k : κ) : Bool := decide (k ∈ m.keys)

/-- `object[key]`, `map.get`. -/
def get? [DecidableEq κ] (m : ObjectMap κ ν) (k : κ) : Option ν :=
  (m.entries.find? (fun e => e.1 = k)).map Prod.snd

/-- `object[key] = value`: overwritten where it is, else put at its place. -/
def set [DecidableEq κ] [PropertyKey κ] (m : ObjectMap κ ν) (k : κ) (v : ν) :
    ObjectMap κ ν where
  entries := if k ∈ m.keys then overwrite k v m.entries else place (k, v) m.entries
  nodup := by
    split
    · rw [map_fst_overwrite]; exact m.nodup
    · rename_i h
      rw [((place_perm (k, v) m.entries).map Prod.fst).nodup_iff]
      exact List.nodup_cons.mpr ⟨h, m.nodup⟩

/-- `delete object[key]`. -/
def erase [DecidableEq κ] (m : ObjectMap κ ν) (k : κ) : ObjectMap κ ν where
  entries := m.entries.filter (fun e => e.1 ≠ k)
  nodup := m.nodup.sublist (List.filter_sublist.map _)

/-- Keep the properties that pass a test, in their order. -/
def filter (p : κ × ν → Bool) (m : ObjectMap κ ν) : ObjectMap κ ν where
  entries := m.entries.filter p
  nodup := m.nodup.sublist (List.filter_sublist.map _)

/-- Change every value by a function of its property. -/
def mapValues (f : κ → ν → ω) (m : ObjectMap κ ν) : ObjectMap κ ω where
  entries := m.entries.map (fun e => (e.1, f e.1 e.2))
  nodup := by rw [List.map_map]; exact m.nodup

/-- The same properties, the last one first. -/
def reverse (m : ObjectMap κ ν) : ObjectMap κ ν where
  entries := m.entries.reverse
  nodup := by rw [List.map_reverse]; exact List.nodup_reverse.mpr m.nodup

/-- `Object.keys(object).length`. -/
def size (m : ObjectMap κ ν) : Nat := m.entries.length

theorem size_eq_length_keys (m : ObjectMap κ ν) : m.size = m.keys.length :=
  (List.length_map Prod.fst).symm

/-! ## 2. Reading after writing -/

theorem mem_keys {m : ObjectMap κ ν} {k : κ} : k ∈ m.keys ↔ ∃ v, (k, v) ∈ m.entries := by
  simp [keys]

@[simp] theorem keys_empty : (empty : ObjectMap κ ν).keys = [] := rfl

section
variable [DecidableEq κ]

/-- The value a map holds at `k` is the value of the one property `k`. -/
theorem get?_eq_some {m : ObjectMap κ ν} {k : κ} {v : ν} :
    m.get? k = some v ↔ (k, v) ∈ m.entries := by
  obtain ⟨xs, hnd⟩ := m
  simp only [get?]
  induction xs with
  | nil => simp
  | cons x xs ih =>
    obtain ⟨j, w⟩ := x
    simp only [List.map_cons, List.nodup_cons] at hnd
    by_cases hj : j = k
    · subst hj
      have hne : (j, v) ∉ xs := fun hm => hnd.1 (List.mem_map.mpr ⟨_, hm, rfl⟩)
      simp [hne, eq_comm]
    · have hne : ¬ (k, v) = (j, w) := fun e => hj (congrArg Prod.fst e).symm
      rw [List.find?_cons_of_neg (by simpa using hj), ih hnd.2, List.mem_cons]
      exact ⟨Or.inr, fun h => h.resolve_left hne⟩

theorem get?_eq_none {m : ObjectMap κ ν} {k : κ} : m.get? k = none ↔ k ∉ m.keys := by
  rw [mem_keys, not_exists]
  constructor
  · intro h v hv
    rw [get?_eq_some.mpr hv] at h
    exact Option.some_ne_none v h
  · intro h
    cases hv : m.get? k with
    | none => rfl
    | some v => exact absurd (get?_eq_some.mp hv) (h v)

theorem isSome_get? {m : ObjectMap κ ν} {k : κ} : (m.get? k).isSome = true ↔ k ∈ m.keys := by
  rw [Option.isSome_iff_ne_none, ne_eq, get?_eq_none, not_not]

theorem has_eq_isSome (m : ObjectMap κ ν) (k : κ) : m.has k = (m.get? k).isSome := by
  rw [Bool.eq_iff_iff, isSome_get?, has, decide_eq_true_iff]

@[simp] theorem get?_empty (k : κ) : (empty : ObjectMap κ ν).get? k = none := rfl

theorem mem_entries_set [PropertyKey κ] {m : ObjectMap κ ν} {k j : κ} {v w : ν} :
    (j, w) ∈ (m.set k v).entries ↔ (j = k ∧ w = v) ∨ (j ≠ k ∧ (j, w) ∈ m.entries) := by
  simp only [set]
  split
  · rename_i hk
    simp only [overwrite, List.mem_map, Prod.exists]
    constructor
    · rintro ⟨i, x, hm, he⟩
      by_cases hi : i = k
      · rw [if_pos hi, Prod.mk.injEq] at he
        exact Or.inl ⟨he.1.symm, he.2.symm⟩
      · rw [if_neg hi, Prod.mk.injEq] at he
        obtain ⟨rfl, rfl⟩ := he
        exact Or.inr ⟨hi, hm⟩
    · rintro (⟨rfl, rfl⟩ | ⟨hne, hm⟩)
      · obtain ⟨x, hx⟩ := mem_keys.mp hk
        exact ⟨_, x, hx, if_pos rfl⟩
      · exact ⟨j, w, hm, if_neg hne⟩
  · rename_i hk
    rw [(place_perm (k, v) m.entries).mem_iff, List.mem_cons, Prod.mk.injEq]
    constructor
    · rintro (h | h)
      · exact Or.inl h
      · exact Or.inr ⟨fun e => hk (mem_keys.mpr ⟨w, e ▸ h⟩), h⟩
    · rintro (h | ⟨-, h⟩)
      · exact Or.inl h
      · exact Or.inr h

/-- **Reading after a write.** -/
@[grind =] theorem get?_set [PropertyKey κ] (m : ObjectMap κ ν) (k j : κ) (v : ν) :
    (m.set k v).get? j = if j = k then some v else m.get? j := by
  ext w
  rw [get?_eq_some, mem_entries_set]
  split
  · rename_i h; simp [h, eq_comm]
  · rename_i h; simp [h, get?_eq_some]

@[simp] theorem get?_set_self [PropertyKey κ] (m : ObjectMap κ ν) (k : κ) (v : ν) :
    (m.set k v).get? k = some v := by
  rw [get?_set, if_pos rfl]

theorem get?_set_ne [PropertyKey κ] (m : ObjectMap κ ν) {k j : κ} (v : ν) (h : j ≠ k) :
    (m.set k v).get? j = m.get? j := by
  rw [get?_set, if_neg h]

/-- **Reading after a deletion.** -/
@[grind =] theorem get?_erase (m : ObjectMap κ ν) (k j : κ) :
    (m.erase k).get? j = if j = k then none else m.get? j := by
  ext w
  rw [get?_eq_some, erase, List.mem_filter]
  split
  · rename_i h; simp [h]
  · rename_i h; simp [h, get?_eq_some]

theorem get?_filter (m : ObjectMap κ ν) (p : κ × ν → Bool) (k : κ) :
    (m.filter p).get? k = (m.get? k).filter (fun v => p (k, v)) := by
  ext w
  rw [get?_eq_some, filter, List.mem_filter, Option.filter_eq_some_iff, get?_eq_some]

theorem get?_mapValues (m : ObjectMap κ ν) (f : κ → ν → ω) (k : κ) :
    (m.mapValues f).get? k = (m.get? k).map (f k) := by
  ext w
  rw [get?_eq_some, mapValues, Option.map_eq_some_iff, List.mem_map]
  constructor
  · rintro ⟨⟨j, x⟩, hm, he⟩
    rw [Prod.mk.injEq] at he
    obtain ⟨rfl, rfl⟩ := he
    exact ⟨x, get?_eq_some.mpr hm, rfl⟩
  · rintro ⟨x, hx, rfl⟩
    exact ⟨(k, x), get?_eq_some.mp hx, rfl⟩

theorem mem_values {m : ObjectMap κ ν} {v : ν} : v ∈ m.values ↔ ∃ k, m.get? k = some v := by
  simp only [values, List.mem_map, Prod.exists, exists_eq_right, get?_eq_some]

theorem mem_keys_set [PropertyKey κ] {m : ObjectMap κ ν} {k j : κ} {v : ν} :
    j ∈ (m.set k v).keys ↔ j = k ∨ j ∈ m.keys := by
  simp only [← isSome_get?, get?_set]
  split <;> simp_all

/-- A map that was written is not empty. -/
theorem size_set_ne_zero [PropertyKey κ] (m : ObjectMap κ ν) (k : κ) (v : ν) :
    (m.set k v).size ≠ 0 := by
  intro h
  have hk : k ∈ (m.set k v).keys := mem_keys_set.mpr (Or.inl rfl)
  rw [keys, List.eq_nil_of_length_eq_zero h] at hk
  exact absurd hk List.not_mem_nil

theorem keys_erase (m : ObjectMap κ ν) (k : κ) : (m.erase k).keys = m.keys.erase k := by
  have hnodup : m.keys.Nodup := m.nodup
  rw [hnodup.erase_eq_filter]
  unfold erase keys
  rw [List.filter_map]
  refine congrArg _ (List.filter_congr fun entry _ => ?_)
  exact decide_not.trans (congrArg _ (beq_eq_decide entry.1 k).symm)

/-- An erased property leaves one less. -/
theorem size_erase {m : ObjectMap κ ν} {k : κ} (h : k ∈ m.keys) :
    (m.erase k).size + 1 = m.size := by
  rw [size_eq_length_keys, size_eq_length_keys, keys_erase, List.length_erase_of_mem h]
  exact Nat.sub_add_cancel (List.length_pos_of_mem h)

theorem size_erase_le (m : ObjectMap κ ν) (k : κ) : (m.erase k).size ≤ m.size :=
  List.length_filter_le _ _

/-- A written property is one more at most. -/
theorem size_set_le [PropertyKey κ] (m : ObjectMap κ ν) (k : κ) (v : ν) :
    (m.set k v).size ≤ m.size + 1 := by
  unfold set size
  dsimp only
  split
  · rw [overwrite, List.length_map]
    exact Nat.le_succ _
  · rw [(place_perm (k, v) m.entries).length_eq]
    exact Nat.le_refl _

theorem entries_set_of_mem [PropertyKey κ] {m : ObjectMap κ ν} {k : κ} {v : ν}
    (h : k ∈ m.keys) : (m.set k v).entries = overwrite k v m.entries :=
  if_pos h

/-- A fresh key that is no array index is written at the end. -/
theorem entries_set_of_not_mem [PropertyKey κ] {m : ObjectMap κ ν} {k : κ} {v : ν}
    (h : k ∉ m.keys) (hi : PropertyKey.index? k = none) :
    (m.set k v).entries = m.entries ++ [(k, v)] := by
  simp only [set, if_neg h]
  exact place_eq_append hi _

end

/-! ## 3. The same properties in another order -/

section
variable [DecidableEq κ]

/-- The two maps hold the same properties, perhaps in another order. -/
def SameEntries (m m' : ObjectMap κ ν) : Prop := ∀ k, m.get? k = m'.get? k

theorem SameEntries.refl (m : ObjectMap κ ν) : SameEntries m m := fun _ => rfl

theorem SameEntries.symm {m m' : ObjectMap κ ν} (h : SameEntries m m') : SameEntries m' m :=
  fun k => (h k).symm

theorem SameEntries.trans {m₁ m₂ m₃ : ObjectMap κ ν} (h : SameEntries m₁ m₂)
    (h' : SameEntries m₂ m₃) : SameEntries m₁ m₃ :=
  fun k => (h k).trans (h' k)

/-- Holding the same properties is being a permutation of the property list. -/
theorem sameEntries_iff_perm {m m' : ObjectMap κ ν} :
    SameEntries m m' ↔ m.entries.Perm m'.entries := by
  constructor
  · intro h
    refine (List.perm_ext_iff_of_nodup (m.nodup.of_map) (m'.nodup.of_map)).mpr ?_
    rintro ⟨k, v⟩
    rw [← get?_eq_some, ← get?_eq_some, h k]
  · intro h k
    ext v
    rw [get?_eq_some, get?_eq_some, h.mem_iff]

theorem sameEntries_reverse (m : ObjectMap κ ν) : SameEntries m m.reverse :=
  sameEntries_iff_perm.mpr (List.reverse_perm m.entries).symm

theorem SameEntries.has_eq {m m' : ObjectMap κ ν} (h : SameEntries m m') (k : κ) :
    m.has k = m'.has k := by
  rw [has_eq_isSome, has_eq_isSome, h k]

theorem SameEntries.set [PropertyKey κ] {m m' : ObjectMap κ ν} (h : SameEntries m m') (k : κ)
    (v : ν) : SameEntries (m.set k v) (m'.set k v) := by
  intro j
  rw [get?_set, get?_set, h j]

theorem SameEntries.erase {m m' : ObjectMap κ ν} (h : SameEntries m m') (k : κ) :
    SameEntries (m.erase k) (m'.erase k) := by
  intro j
  rw [get?_erase, get?_erase, h j]

theorem SameEntries.mapValues {m m' : ObjectMap κ ν} (h : SameEntries m m')
    (f : κ → ν → ω) : SameEntries (m.mapValues f) (m'.mapValues f) := by
  intro j
  rw [get?_mapValues, get?_mapValues, h j]

theorem SameEntries.size_eq {m m' : ObjectMap κ ν} (h : SameEntries m m') :
    m.size = m'.size :=
  (sameEntries_iff_perm.mp h).length_eq

end

/-- What a list of properties is read as is one of them. -/
theorem mem_of_lookup {ν : Type v} {properties : List (String × ν)} {name : String} {value : ν}
    (h : properties.lookup name = some value) : (name, value) ∈ properties := by
  obtain ⟨before, after, rfl, -⟩ := List.lookup_eq_some_iff.mp h
  exact List.mem_append_right _ List.mem_cons_self

end ObjectMap

/-! ## 4. Maps kept as the array of their values

A `Map` whose values name their own key can be stored as the array of its values; each
operation then looks the key up in the array. -/

namespace Keyed

variable {α : Type u} {κ : Type v} [DecidableEq κ] (key : α → κ)

/-- `map.get(k)`. -/
def find? (k : κ) (xs : List α) : Option α := xs.find? (fun x => key x = k)

/-- `map.set(key(x), x)`: replaced where it is, else at the end. -/
def put (x : α) (xs : List α) : List α :=
  if xs.any (fun y => key y = key x) then xs.map (fun y => if key y = key x then x else y)
  else xs ++ [x]

/-- `map.delete(k)`. -/
def erase (k : κ) (xs : List α) : List α := xs.filter (fun x => key x ≠ k)

section

variable {key}

theorem key_of_find? {k : κ} {xs : List α} {x : α} (h : find? key k xs = some x) : key x = k := by
  simpa using List.find?_some h

theorem mem_of_find? {k : κ} {xs : List α} {x : α} (h : find? key k xs = some x) : x ∈ xs :=
  List.mem_of_find?_eq_some h

theorem map_key_put (x : α) (xs : List α) :
    (put key x xs).map key = if key x ∈ xs.map key then xs.map key else xs.map key ++ [key x] := by
  unfold put
  by_cases hm : key x ∈ xs.map key
  · have ha : xs.any (fun y => key y = key x) = true := by
      obtain ⟨y, hy, he⟩ := List.mem_map.mp hm
      exact List.any_eq_true.mpr ⟨y, hy, by simpa using he⟩
    rw [if_pos hm, if_pos ha, List.map_map]
    refine List.map_congr_left fun y _ => ?_
    by_cases he : key y = key x
    · simp [he]
    · simp [he]
  · have ha : ¬xs.any (fun y => key y = key x) = true := by
      intro ha
      obtain ⟨y, hy, he⟩ := List.any_eq_true.mp ha
      exact hm (List.mem_map.mpr ⟨y, hy, by simpa using he⟩)
    rw [if_neg hm, if_neg ha, List.map_append]
    rfl

theorem nodup_put {x : α} {xs : List α} (h : (xs.map key).Nodup) :
    ((put key x xs).map key).Nodup := by
  rw [map_key_put]
  split
  · exact h
  · rename_i hm
    refine List.nodup_append.mpr ⟨h, List.nodup_singleton _, ?_⟩
    intro a ha b hb he
    rw [List.mem_singleton] at hb
    exact hm (hb ▸ he ▸ ha)

theorem nodup_erase {k : κ} {xs : List α} (h : (xs.map key).Nodup) :
    ((erase key k xs).map key).Nodup :=
  h.sublist (List.filter_sublist.map _)

/-- Writing back what is there changes nothing. -/
theorem put_of_mem {x : α} {xs : List α} (h : (xs.map key).Nodup) (hx : x ∈ xs) :
    put key x xs = xs := by
  unfold put
  have ha : xs.any (fun y => key y = key x) = true :=
    List.any_eq_true.mpr ⟨x, hx, by simp⟩
  rw [if_pos ha]
  conv_rhs => rw [← List.map_id xs]
  refine List.map_congr_left fun y hy => ?_
  split
  · rename_i he
    exact (List.inj_on_of_nodup_map h hy hx he).symm
  · rfl

end

/-! A change of the values that keeps their keys commutes with each operation. -/

section

variable {key} {f : α → α} (hf : ∀ x, key (f x) = key x)

include hf

theorem map_find? (k : κ) (xs : List α) : (find? key k xs).map f = find? key k (xs.map f) := by
  unfold find?
  rw [List.find?_map]
  simp only [Function.comp_def, hf]

theorem map_put (x : α) (xs : List α) : (put key x xs).map f = put key (f x) (xs.map f) := by
  unfold put
  simp only [List.any_map, Function.comp_def, hf]
  split
  · rw [List.map_map, List.map_map]
    refine List.map_congr_left fun y _ => ?_
    simp only [Function.comp_apply, hf]
    split <;> rfl
  · rw [List.map_append]
    rfl

theorem map_erase (k : κ) (xs : List α) : (erase key k xs).map f = erase key k (xs.map f) := by
  unfold erase
  rw [List.filter_map]
  simp only [Function.comp_def, hf]

/-- Only the values under other keys matter to a value put. -/
theorem put_map_congr {g : α → α} (hg : ∀ x, key (g x) = key x) (x : α) {xs : List α}
    (h : ∀ y ∈ xs, key y ≠ key x → f y = g y) :
    put key x (xs.map f) = put key x (xs.map g) := by
  unfold put
  simp only [List.any_map, Function.comp_def, hf, hg]
  split
  · rw [List.map_map, List.map_map]
    refine List.map_congr_left fun y hy => ?_
    simp only [Function.comp_apply, hf, hg]
    split
    · rfl
    next hne => exact h y hy hne
  next ha =>
    refine congrArg (· ++ [x]) (List.map_congr_left fun y hy => h y hy fun he => ha ?_)
    exact List.any_eq_true.mpr ⟨y, hy, decide_eq_true he⟩

end

end Keyed
