/-
# JavaScript strings: their order, sorting, and sets of them

`Array.prototype.sort` without a comparator and `<` on strings compare UTF-16 code units, not
code points, and the sort is stable.  `new Set(xs)` keeps the first occurrence of each
element.

* `codeUnits_injective`: two strings with the same code units are the same string, so the
  order is antisymmetric.
* `sortOn_of_sorted`, `distinct_of_nodup`: what is normalised already stays as it is.
-/
import Mathlib.Data.List.Sort
import Mathlib.Data.List.Nodup
import Mathlib.Order.Defs.LinearOrder
import Mathlib.Data.String.Basic

universe u v

namespace JsText

/-! ## 1. Code units -/

/-- One code point in UTF-16. -/
def unitsOf (c : Char) : List Nat :=
  if c.toNat < 0x10000 then [c.toNat]
  else [0xD800 + (c.toNat - 0x10000) / 0x400, 0xDC00 + (c.toNat - 0x10000) % 0x400]

/-- A string in UTF-16. -/
def codeUnits (s : String) : List Nat := s.toList.flatMap unitsOf

theorem char_valid (c : Char) : c.toNat < 0xD800 ∨ (0xDFFF < c.toNat ∧ c.toNat < 0x110000) :=
  c.valid

/-- UTF-16 is a prefix code: the first code point can be read off the units. -/
theorem unitsOf_append_inj {c d : Char} {r s : List Nat}
    (h : unitsOf c ++ r = unitsOf d ++ s) : c = d ∧ r = s := by
  have hc := char_valid c
  have hd := char_valid d
  suffices hn : c.toNat = d.toNat ∧ r = s from ⟨Char.toNat_inj.mp hn.1, hn.2⟩
  simp only [unitsOf] at h
  split at h <;> split at h <;>
    simp only [List.cons_append, List.nil_append, List.cons.injEq] at h
  · exact h
  · omega
  · omega
  · obtain ⟨h1, h2, h3⟩ := h
    exact ⟨by omega, h3⟩

theorem flatMap_unitsOf_injective :
    ∀ cs ds : List Char, cs.flatMap unitsOf = ds.flatMap unitsOf → cs = ds
  | [], [], _ => rfl
  | [], d :: ds, h => by
    simp only [List.flatMap_nil, List.flatMap_cons, unitsOf] at h
    split at h <;> simp at h
  | c :: cs, [], h => by
    simp only [List.flatMap_nil, List.flatMap_cons, unitsOf] at h
    split at h <;> simp at h
  | c :: cs, d :: ds, h => by
    rw [List.flatMap_cons, List.flatMap_cons] at h
    obtain ⟨rfl, hr⟩ := unitsOf_append_inj h
    rw [flatMap_unitsOf_injective cs ds hr]

theorem codeUnits_injective : Function.Injective codeUnits := fun _ _ h =>
  String.toList_inj.mp (flatMap_unitsOf_injective _ _ h)

/-! ## 2. Order and sorting -/

/-- The order of `Array.prototype.sort()` on strings. -/
def Le (a b : String) : Prop := codeUnits a ≤ codeUnits b

instance : DecidableRel Le := fun a b => inferInstanceAs (Decidable (codeUnits a ≤ codeUnits b))

theorem Le.total (a b : String) : Le a b ∨ Le b a := le_total (codeUnits a) (codeUnits b)

theorem Le.trans {a b c : String} (h : Le a b) (h' : Le b c) : Le a c :=
  le_trans (α := List Nat) h h'

theorem Le.antisymm {a b : String} (h : Le a b) (h' : Le b a) : a = b :=
  codeUnits_injective (le_antisymm (α := List Nat) h h')

/-- `<` on strings. -/
def Lt (a b : String) : Prop := ¬ Le b a

instance : DecidableRel Lt := fun a b => inferInstanceAs (Decidable (¬ Le b a))

section
variable {α : Type u} {β : Type v} (text : α → String)

/-- The elements compared by their text. -/
def LeOn (a b : α) : Prop := Le (text a) (text b)

instance : DecidableRel (LeOn text) := fun a b =>
  inferInstanceAs (Decidable (Le (text a) (text b)))

instance : Std.Total (LeOn text) := ⟨fun a b => Le.total (text a) (text b)⟩

instance : IsTrans α (LeOn text) := ⟨fun _ _ _ => Le.trans⟩

/-- `sort()` of elements that are compared by their text; stable, as insertion is. -/
def sortOn (xs : List α) : List α := xs.insertionSort (LeOn text)

theorem sortOn_perm (xs : List α) : (sortOn text xs).Perm xs :=
  List.perm_insertionSort (LeOn text) xs

@[simp] theorem mem_sortOn {xs : List α} {a : α} : a ∈ sortOn text xs ↔ a ∈ xs :=
  (sortOn_perm text xs).mem_iff

theorem sortOn_pairwise (xs : List α) : (sortOn text xs).Pairwise (LeOn text) :=
  List.pairwise_insertionSort (LeOn text) xs

theorem sortOn_of_sorted {xs : List α} (h : xs.Pairwise (LeOn text)) : sortOn text xs = xs :=
  h.insertionSort_eq

end

/-! ## 3. Sets in insertion order -/

section
variable {α : Type u} [DecidableEq α]

/-- `[...new Set(xs)]`: the first occurrence of each element. -/
def distinct (xs : List α) : List α := xs.eraseDups

@[simp] theorem mem_distinct {xs : List α} {a : α} : a ∈ distinct xs ↔ a ∈ xs :=
  List.mem_eraseDups

theorem distinct_cons (a : α) (xs : List α) :
    distinct (a :: xs) = a :: distinct (xs.filter (· ≠ a)) := by
  rw [distinct, distinct, List.eraseDups_cons]
  congr 2
  refine List.filter_congr ?_
  intro b _
  by_cases h : b = a <;> simp [h]

theorem distinct_of_nodup : ∀ {xs : List α}, xs.Nodup → distinct xs = xs
  | [], _ => rfl
  | a :: xs, h => by
    have hf : xs.filter (· ≠ a) = xs := by
      refine List.filter_eq_self.mpr ?_
      intro b hb
      have hne : b ≠ a := fun e => (List.nodup_cons.mp h).1 (e ▸ hb)
      simp [hne]
    rw [distinct_cons, hf, distinct_of_nodup (List.nodup_cons.mp h).2]

theorem distinct_nodup (xs : List α) : (distinct xs).Nodup := by
  induction hn : xs.length using Nat.strong_induction_on generalizing xs with
  | h n ih =>
    cases xs with
    | nil => exact List.nodup_nil
    | cons a xs =>
      rw [distinct_cons]
      refine List.nodup_cons.mpr ⟨?_, ?_⟩
      · simp
      · have hl : (xs.filter (· ≠ a)).length ≤ xs.length := List.length_filter_le _ _
        exact ih _ (by rw [List.length_cons] at hn; omega) _ rfl

/-- `[...new Set(xs)].sort()` on elements with a text of their own. -/
def sortedSet (text : α → String) (xs : List α) : List α := sortOn text (distinct xs)

@[simp] theorem mem_sortedSet {text : α → String} {xs : List α} {a : α} :
    a ∈ sortedSet text xs ↔ a ∈ xs := by
  rw [sortedSet, mem_sortOn, mem_distinct]

theorem sortedSet_nodup (text : α → String) (xs : List α) : (sortedSet text xs).Nodup :=
  (sortOn_perm text _).nodup_iff.mpr (distinct_nodup xs)

/-- A part of a sorted set is normalised already. -/
theorem sortedSet_filter_sortedSet (text : α → String) (xs : List α) (p : α → Bool) :
    sortedSet text ((sortedSet text xs).filter p) = (sortedSet text xs).filter p := by
  have hs : ((sortedSet text xs).filter p).Sublist (sortedSet text xs) := List.filter_sublist
  rw [sortedSet, distinct_of_nodup ((sortedSet_nodup text xs).sublist hs)]
  exact sortOn_of_sorted text ((sortOn_pairwise text _).sublist hs)

end

/-! ## 4. Blank texts -/

/-- What `trim` takes off: white space and line terminators. -/
def isSpace (c : Char) : Bool :=
  c.toNat ∈ [0x09, 0x0A, 0x0B, 0x0C, 0x0D, 0x20, 0xA0, 0x1680, 0x2028, 0x2029, 0x202F, 0x205F,
    0x3000, 0xFEFF] || (0x2000 ≤ c.toNat && c.toNat ≤ 0x200A)

/-- `!text.trim()` -/
def isBlank (text : String) : Bool := text.toList.all isSpace

/-! ## 5. Numbered names -/

/-- The last separator splits a text in one way. -/
theorem append_cons_inj_of_notMem {α : Type u} {sep : α} :
    ∀ {xs ys ds es : List α}, sep ∉ ds → sep ∉ es → xs ++ sep :: ds = ys ++ sep :: es →
      xs = ys ∧ ds = es := by
  intro xs ys ds es hd he h
  rcases List.append_eq_append_iff.mp h with ⟨zs, hy, hz⟩ | ⟨zs, hx, hz⟩
  · cases zs with
    | nil => exact ⟨by simpa using hy.symm, by simpa using hz⟩
    | cons z zs =>
      obtain ⟨-, hz⟩ := List.cons.inj hz
      exact absurd (hz ▸ List.mem_append_right _ List.mem_cons_self) hd
  · cases zs with
    | nil => exact ⟨by simpa using hx, by simpa using hz.symm⟩
    | cons z zs =>
      obtain ⟨-, hz⟩ := List.cons.inj hz
      exact absurd (hz ▸ List.mem_append_right _ List.mem_cons_self) he

theorem colon_notMem_toDigits (n : Nat) : ':' ∉ Nat.toDigits 10 n :=
  fun h => absurd (Nat.isDigit_of_mem_toDigits (by decide) (by decide) h) (by decide)

/-- `a:1` names one text and one number. -/
theorem numbered_inj {a b : String} {m n : Nat} (h : s!"{a}:{m}" = s!"{b}:{n}") :
    a = b ∧ m = n := by
  have h : (a ++ ":" ++ m.repr).toList = (b ++ ":" ++ n.repr).toList := congrArg String.toList h
  rw [String.toList_append, String.toList_append, String.toList_append, String.toList_append,
    Nat.toList_repr, Nat.toList_repr, List.append_assoc, List.append_assoc] at h
  obtain ⟨ha, hm⟩ := append_cons_inj_of_notMem (colon_notMem_toDigits m)
    (colon_notMem_toDigits n) h
  refine ⟨String.toList_injective ha, ?_⟩
  rw [← Nat.ofDigitChars_ten_toDigits (n := m), hm, Nat.ofDigitChars_ten_toDigits]

/-! ## 6. Numbers -/

/-- `Number.MAX_SAFE_INTEGER` -/
def MAX_SAFE_INTEGER : Nat := 2 ^ 53 - 1

end JsText
