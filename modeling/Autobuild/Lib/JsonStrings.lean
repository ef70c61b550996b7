/-
# Strings are read back from their literals

* `readChar_escape`, `readString_escape`: what `parse` makes of an escaped string, whatever follows.
* `stringify_strings_inj`: the text of an array of strings tells the strings.
-/
import Autobuild.Lib.Json
import Mathlib.Data.List.Basic

namespace Json

/-! ## 1. Literals -/

theorem hexValue_hexDigit_all : ∀ n < 16, hexValue? (hexDigit n) = some n := by decide

theorem readHex4_escape {n : Nat} (hn : n < 32) (cs : List Char) :
    readHex4 ('0' :: '0' :: hexDigit (n / 16) :: hexDigit (n % 16) :: cs) = some (n, cs) := by
  have hhigh := hexValue_hexDigit_all (n / 16) (by omega)
  have hlow := hexValue_hexDigit_all (n % 16) (by omega)
  have hzero : hexValue? '0' = some 0 := by decide
  unfold readHex4 hex4?
  dsimp only
  rw [hzero, hhigh, hlow]
  simp only [Option.bind_eq_bind, Option.bind_some, pure, Option.map_some]
  congr 2
  omega

theorem readUnit_escape {n : Nat} (hn : n < 32) (cs : List Char) :
    readUnit ('\\' :: 'u' :: '0' :: '0' :: hexDigit (n / 16) :: hexDigit (n % 16) :: cs)
      = some (n, cs) := by
  unfold readUnit
  dsimp only
  rw [if_pos ⟨rfl, rfl⟩, readHex4_escape hn]

theorem readUnit_of_ne {e : Char} (he : e ≠ 'u') (cs : List Char) :
    readUnit ('\\' :: e :: cs) = none := by
  unfold readUnit
  exact if_neg fun h => he h.2

/-- A backslash and a letter. -/
theorem readChar_letter {e c : Char} (he : e ≠ 'u') (hc : unescape? e = some c) (cs : List Char) :
    readChar ('\\' :: e :: cs) = some (c, cs) := by
  unfold readChar
  dsimp only
  rw [if_neg (by decide), if_neg (by decide), readUnit_of_ne he]
  dsimp only
  rw [hc]
  rfl

/-- **A character is read back from its escape**, whatever follows it. -/
theorem readChar_escape (c : Char) (cs : List Char) :
    readChar (escape c ++ cs) = some (c, cs) := by
  have hchar : ∀ n, c.toNat = n → c = Char.ofNat n := by
    intro n hn
    rw [← hn, Char.ofNat_toNat]
  unfold escape
  split_ifs with hquote hslash h8 h9 h10 h12 h13 hlow
  · exact readChar_letter (by decide) (by rw [hquote]; rfl) cs
  · exact readChar_letter (by decide) (by rw [hslash]; rfl) cs
  · exact readChar_letter (by decide) (by rw [hchar 8 h8]; rfl) cs
  · exact readChar_letter (by decide) (by rw [hchar 9 h9]; rfl) cs
  · exact readChar_letter (by decide) (by rw [hchar 10 h10]; rfl) cs
  · exact readChar_letter (by decide) (by rw [hchar 12 h12]; rfl) cs
  · exact readChar_letter (by decide) (by rw [hchar 13 h13]; rfl) cs
  · -- a control character is no surrogate, so it joins nothing that follows
    have hunit : consUnit c.toNat none = c := by
      unfold consUnit
      dsimp only
      rw [if_neg (by omega), Char.ofNat_toNat]
    have hhigh : isHigh c.toNat = false := by
      unfold isHigh
      exact decide_eq_false (by omega)
    simp only [List.cons_append, List.nil_append]
    unfold readChar
    dsimp only
    rw [if_neg (by decide), if_neg (by decide), readUnit_escape hlow]
    dsimp only
    split
    · rw [hhigh, hunit]
      rfl
    · rw [hunit]
  · simp only [List.cons_append, List.nil_append]
    unfold readChar
    dsimp only
    rw [if_neg hlow, if_pos hslash]

theorem escape_ne_quote (c : Char) : ∃ e cs, escape c = e :: cs ∧ e ≠ '"' := by
  unfold escape
  split_ifs with hquote
  all_goals first | exact ⟨_, _, rfl, by decide⟩ | exact ⟨_, _, rfl, hquote⟩

theorem length_escape_pos (c : Char) : 0 < (escape c).length := by
  obtain ⟨e, cs, he, -⟩ := escape_ne_quote c
  rw [he]
  exact Nat.succ_pos _

/-- A string literal, after its opening quote. -/
def literal (s : List Char) : List Char := s.flatMap escape ++ ['"']

theorem literal_cons (c : Char) (s : List Char) : literal (c :: s) = escape c ++ literal s := by
  unfold literal
  rw [List.flatMap_cons, List.append_assoc]

/-- **A string is read back from its literal.** -/
theorem readString_escape : ∀ (s : List Char) {fuel : Nat} (rest : List Char),
    (literal s).length ≤ fuel → readString fuel (literal s ++ rest) = some (s, rest)
  | [], 0, _, h => absurd h (by simp [literal])
  | [], _ + 1, _, _ => rfl
  | c :: s, 0, _, h => by
    rw [literal_cons, List.length_append] at h
    have hpos := length_escape_pos c
    omega
  | c :: s, fuel + 1, rest, h => by
    obtain ⟨e, cs, he, hne⟩ := escape_ne_quote c
    have hpos := length_escape_pos c
    rw [literal_cons, List.length_append] at h
    have hread := readChar_escape c (literal s ++ rest)
    have hrest := readString_escape s rest (show (literal s).length ≤ fuel by omega)
    rw [literal_cons, List.append_assoc]
    rw [he] at hread ⊢
    rw [List.cons_append] at hread ⊢
    unfold readString
    rw [if_neg hne, hread]
    simp only [Option.bind_eq_bind, Option.bind_some, hrest, pure]

/-- The literal tells the string, and where it ends. -/
theorem literal_append_inj {s s' rest rest' : List Char}
    (h : literal s ++ rest = literal s' ++ rest') : s = s' ∧ rest = rest' := by
  have hread := readString_escape s rest (Nat.le_max_left _ (literal s').length)
  rw [h, readString_escape s' rest' (Nat.le_max_right (literal s).length _)] at hread
  cases hread
  exact ⟨rfl, rfl⟩

/-! ## 2. Arrays of strings -/

/-- The rest of an array of strings, after one of them. -/
def moreStrings : List String → List Char
  | [] => [']']
  | s :: rest => ',' :: '"' :: (literal s.toList ++ moreStrings rest)

theorem chars_quote (s : String) : (quote s).toList = '"' :: literal s.toList := by
  unfold quote literal
  simp

theorem chars_strings (s : String) (rest : List String) :
    (stringify (.arr ((s :: rest).map .str))).toList
      = '[' :: '"' :: (literal s.toList ++ moreStrings rest) := by
  have hjoin : ∀ (rest : List String) (s : String),
      (joinComma (stringifyItems ((s :: rest).map .str))).toList ++ [']']
        = '"' :: (literal s.toList ++ moreStrings rest) := by
    intro rest
    unfold joinComma
    induction rest with
    | nil =>
      intro s
      rw [String.toList_intercalate]
      simp [stringifyItems, stringify, chars_quote, moreStrings]
    | cons next rest ih =>
      intro s
      have hrest := ih next
      rw [String.toList_intercalate] at hrest ⊢
      simp only [List.map_cons, stringifyItems, stringify] at hrest ⊢
      rw [List.intercalate_cons_cons, List.append_assoc, List.append_assoc, hrest, chars_quote]
      simp [moreStrings]
  have htext := hjoin rest s
  unfold stringify
  simp only [String.toList_append, List.append_assoc]
  exact congrArg ('[' :: ·) htext

theorem moreStrings_inj : ∀ {xs ys : List String}, moreStrings xs = moreStrings ys → xs = ys
  | [], [], _ => rfl
  | [], _ :: _, h => by cases h
  | _ :: _, [], h => by cases h
  | x :: xs, y :: ys, h => by
    obtain ⟨hx, hrest⟩ := literal_append_inj (List.cons.inj (List.cons.inj h).2).2
    rw [String.toList_injective hx, moreStrings_inj hrest]

/-- **The text of an array of strings tells the strings.** -/
theorem stringify_strings_inj {x y : String} {xs ys : List String}
    (h : stringify (.arr ((x :: xs).map .str)) = stringify (.arr ((y :: ys).map .str))) :
    x :: xs = y :: ys := by
  have hchars := congrArg String.toList h
  rw [chars_strings, chars_strings] at hchars
  obtain ⟨hx, hrest⟩ := literal_append_inj (List.cons.inj (List.cons.inj hchars).2).2
  rw [String.toList_injective hx, moreStrings_inj hrest]

end Json
