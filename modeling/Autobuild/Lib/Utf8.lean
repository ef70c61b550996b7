/-
# UTF-8 of strings with lone surrogates

A JavaScript string is the list of its code points, where a surrogate that is not one of a pair is
a code point of its own.  `TextEncoder` writes U+FFFD for such a surrogate; `TextDecoder` drops a
byte order mark at the beginning.

* `decode_encode`: what a text becomes on its way through the two.
* `cutBack_encode`: going back from a byte to one that begins a code point leaves the longest
  prefix that fits.
-/
import Mathlib.Data.List.Infix
import Mathlib.Algebra.Order.Group.Nat
import Mathlib.Algebra.BigOperators.Group.List.Basic
import Mathlib.Algebra.Ring.Nat

namespace Utf8

abbrev CodePoint := Fin 0x110000

/-- There are code points, so numbers wrap around to one. -/
instance neZero_codePoints : NeZero 0x110000 := ⟨Nat.succ_ne_zero _⟩

/-- A string, by its code points. -/
abbrev Text := List CodePoint

def isSurrogate (c : CodePoint) : Bool := 0xD800 ≤ c.val && c.val < 0xE000

/-- U+FFFD. -/
def replacement : CodePoint := ⟨0xFFFD, by decide⟩

/-- U+FEFF. -/
def byteOrderMark : CodePoint := ⟨0xFEFF, by decide⟩

/-- The code point that is written. -/
def scalar (c : CodePoint) : CodePoint := if isSurrogate c then replacement else c

/-! ## 1. Writing -/

def encodeNat (n : Nat) : List Nat :=
  if n < 0x80 then [n]
  else if n < 0x800 then [0xC0 + n / 64, 0x80 + n % 64]
  else if n < 0x10000 then [0xE0 + n / 4096, 0x80 + n / 64 % 64, 0x80 + n % 64]
  else [0xF0 + n / 262144, 0x80 + n / 4096 % 64, 0x80 + n / 64 % 64, 0x80 + n % 64]

def encodePoint (c : CodePoint) : List Nat := encodeNat (scalar c).val

/-- `new TextEncoder().encode(text)`. -/
def encode (text : Text) : List Nat := text.flatMap encodePoint

/-- `(byte & 0xc0) === 0x80`. -/
def isContinuation (byte : Nat) : Bool := 0x80 ≤ byte && byte < 0xC0

@[simp] theorem encode_nil : encode [] = [] := rfl

@[simp] theorem encode_cons (c : CodePoint) (text : Text) :
    encode (c :: text) = encodePoint c ++ encode text := List.flatMap_cons

@[simp] theorem encode_append (xs ys : Text) : encode (xs ++ ys) = encode xs ++ encode ys :=
  List.flatMap_append

/-- A code point is a byte that begins one, and bytes that continue it. -/
theorem encodeNat_eq (n : Nat) (h : n < 0x110000) :
    ∃ first rest, encodeNat n = first :: rest ∧ isContinuation first = false ∧
      (∀ byte ∈ rest, isContinuation byte = true) ∧ rest.length ≤ 3 := by
  have hcontinuation : ∀ m, isContinuation (0x80 + m % 64) = true := by
    intro m
    simp only [isContinuation, Bool.and_eq_true, decide_eq_true_eq]
    omega
  unfold encodeNat
  split_ifs
  · refine ⟨_, [], rfl, ?_, by simp, by simp⟩
    simp only [isContinuation, Bool.and_eq_false_iff, decide_eq_false_iff_not]
    omega
  all_goals
    refine ⟨_, _, rfl, ?_, by simp [hcontinuation], by simp⟩
    simp only [isContinuation, Bool.and_eq_false_iff, decide_eq_false_iff_not]
    omega

/-! ## 2. Cutting -/

/-- `while (cut > 0 && isContinuation(bytes[cut])) cut -= 1`. -/
def cutBack (bytes : List Nat) : Nat → Nat
  | 0 => 0
  | cut + 1 =>
    match bytes[cut + 1]? with
    | some byte => if isContinuation byte then cutBack bytes cut else cut + 1
    | none => cut + 1

theorem cutBack_of_continuation {bytes : List Nat} {cut : Nat}
    (h : ∀ i, 0 < i → i ≤ cut → ∃ byte, bytes[i]? = some byte ∧ isContinuation byte = true) :
    cutBack bytes cut = 0 := by
  induction cut with
  | zero => rfl
  | succ cut ih =>
    obtain ⟨byte, hget, hbyte⟩ := h (cut + 1) (Nat.succ_pos cut) le_rfl
    rw [cutBack, hget]
    dsimp only
    rw [if_pos hbyte]
    exact ih fun i hpos hle => h i hpos (Nat.le_succ_of_le hle)

theorem cutBack_append {front bytes : List Nat} {first : Nat} {rest : List Nat}
    (hbytes : bytes = first :: rest) (hfirst : isContinuation first = false)
    (hfront : front ≠ []) (cut : Nat) :
    cutBack (front ++ bytes) (front.length + cut) = front.length + cutBack bytes cut := by
  induction cut with
  | zero =>
    obtain ⟨n, hn⟩ := Nat.exists_eq_succ_of_ne_zero
      (Nat.ne_of_gt (List.length_pos_of_ne_nil hfront))
    have hget : (front ++ bytes)[n + 1]? = some first := by
      rw [← Nat.succ_eq_add_one, ← hn, List.getElem?_append_right le_rfl, Nat.sub_self, hbytes]
      rfl
    rw [Nat.add_zero, hn, Nat.succ_eq_add_one, show cutBack bytes 0 = 0 from rfl, cutBack, hget]
    dsimp only
    rw [hfirst]
    rfl
  | succ cut ih =>
    have hget : (front ++ bytes)[front.length + cut + 1]? = bytes[cut + 1]? := by
      rw [List.getElem?_append_right (by omega)]
      congr 1
      omega
    rw [← Nat.add_assoc, cutBack, hget, cutBack]
    cases bytes[cut + 1]? with
    | none => rfl
    | some byte =>
      dsimp only
      split
      · exact ih
      · rfl

/-- The longest prefix of a text of at most so many bytes that ends between code points. -/
def fit : Text → Nat → Text
  | [], _ => []
  | c :: text, maxBytes =>
    if (encodePoint c).length ≤ maxBytes then c :: fit text (maxBytes - (encodePoint c).length)
    else []

theorem fit_isPrefix (text : Text) (maxBytes : Nat) : fit text maxBytes <+: text := by
  induction text generalizing maxBytes with
  | nil => exact List.nil_prefix
  | cons c text ih =>
    rw [fit]
    split
    · exact List.cons_prefix_cons.mpr ⟨rfl, ih _⟩
    · exact List.nil_prefix

theorem length_encode_fit_le (text : Text) (maxBytes : Nat) :
    (encode (fit text maxBytes)).length ≤ maxBytes := by
  induction text generalizing maxBytes with
  | nil => exact Nat.zero_le _
  | cons c text ih =>
    rw [fit]
    split
    · have hrest := ih (maxBytes - (encodePoint c).length)
      rw [encode_cons, List.length_append]
      omega
    · exact Nat.zero_le _

theorem encodePoint_ne_nil (c : CodePoint) : encodePoint c ≠ [] := by
  obtain ⟨first, rest, hpoint, -⟩ := encodeNat_eq (scalar c).val (scalar c).isLt
  rw [encodePoint, hpoint]
  exact List.cons_ne_nil _ _

/-- **Going back** from a byte within a text leaves the prefix that fits. -/
theorem cutBack_encode {text : Text} {cut : Nat} (h : cut < (encode text).length) :
    cutBack (encode text) cut = (encode (fit text cut)).length := by
  induction text generalizing cut with
  | nil => exact absurd h (Nat.not_lt_zero cut)
  | cons c text ih =>
    obtain ⟨first, rest, hpoint, -, hrest, -⟩ := encodeNat_eq (scalar c).val (scalar c).isLt
    rw [encode_cons] at h ⊢
    rw [fit]
    by_cases hcut : (encodePoint c).length ≤ cut
    · rw [if_pos hcut]
      obtain ⟨more, rfl⟩ := Nat.exists_eq_add_of_le hcut
      rw [List.length_append] at h
      obtain ⟨next, after, rfl⟩ : ∃ next after, text = next :: after := by
        cases text with
        | nil => exact absurd h (by simp)
        | cons next after => exact ⟨next, after, rfl⟩
      obtain ⟨byte, bytes, hnext, hbyte, -, -⟩ := encodeNat_eq (scalar next).val (scalar next).isLt
      have hlist : encode (next :: after) = byte :: (bytes ++ encode after) := by
        rw [encode_cons, encodePoint, hnext, List.cons_append]
      rw [cutBack_append hlist hbyte (encodePoint_ne_nil c), encode_cons c, List.length_append,
        Nat.add_sub_cancel_left, ih (by omega)]
    · -- the byte is one of the first code point
      rw [if_neg hcut, encode_nil, List.length_nil]
      refine cutBack_of_continuation fun i hpos hle => ?_
      obtain ⟨j, rfl⟩ := Nat.exists_eq_succ_of_ne_zero (Nat.ne_of_gt hpos)
      have hlt : j < rest.length := by
        rw [encodePoint, hpoint, List.length_cons] at hcut
        omega
      refine ⟨rest[j], ?_, hrest _ (List.getElem_mem hlt)⟩
      rw [List.getElem?_append_left (by omega), encodePoint, hpoint, Nat.succ_eq_add_one,
        List.getElem?_cons_succ, List.getElem?_eq_getElem hlt]

/-! ## 3. Reading -/

/-- How many bytes of a code point are to come, the bounds of the next, and what came. -/
structure Decoder where
  needed : Nat
  lower : Nat
  upper : Nat
  point : Nat
  deriving DecidableEq, Repr

namespace Decoder

def start : Decoder := ⟨0, 0x80, 0xBF, 0⟩

/-- A byte between code points. -/
def first (byte : Nat) : List CodePoint × Decoder :=
  if byte < 0x80 then ([Fin.ofNat 0x110000 byte], start)
  else if 0xC2 ≤ byte ∧ byte ≤ 0xDF then ([], ⟨1, 0x80, 0xBF, byte - 0xC0⟩)
  else if 0xE0 ≤ byte ∧ byte ≤ 0xEF then
    ([], ⟨2, if byte = 0xE0 then 0xA0 else 0x80, if byte = 0xED then 0x9F else 0xBF, byte - 0xE0⟩)
  else if 0xF0 ≤ byte ∧ byte ≤ 0xF4 then
    ([], ⟨3, if byte = 0xF0 then 0x90 else 0x80, if byte = 0xF4 then 0x8F else 0xBF, byte - 0xF0⟩)
  else ([replacement], start)

/-- A byte that does not continue a code point ends it, and is read again. -/
def step (decoder : Decoder) (byte : Nat) : List CodePoint × Decoder :=
  if decoder.needed = 0 then first byte
  else if decoder.lower ≤ byte ∧ byte ≤ decoder.upper then
    let point := decoder.point * 64 + (byte - 0x80)
    if decoder.needed = 1 then ([Fin.ofNat 0x110000 point], start)
    else ([], ⟨decoder.needed - 1, 0x80, 0xBF, point⟩)
  else (replacement :: (first byte).1, (first byte).2)

end Decoder

def decodeFrom (decoder : Decoder) : List Nat → Text
  | [] => if decoder.needed = 0 then [] else [replacement]
  | byte :: bytes =>
    (decoder.step byte).1 ++ decodeFrom (decoder.step byte).2 bytes

def dropMark : Text → Text
  | [] => []
  | c :: text => if c = byteOrderMark then text else c :: text

/-- `new TextDecoder().decode(bytes)`. -/
def decode (bytes : List Nat) : Text := dropMark (decodeFrom .start bytes)

theorem decodeFrom_start (byte : Nat) (bytes : List Nat) :
    decodeFrom .start (byte :: bytes) =
      (Decoder.first byte).1 ++ decodeFrom (Decoder.first byte).2 bytes := rfl

theorem decodeFrom_continue {needed lower upper point byte : Nat} (bytes : List Nat)
    (hlower : lower ≤ byte) (hupper : byte ≤ upper) :
    decodeFrom ⟨needed + 2, lower, upper, point⟩ (byte :: bytes) =
      decodeFrom ⟨needed + 1, 0x80, 0xBF, point * 64 + (byte - 0x80)⟩ bytes := by
  rw [decodeFrom, Decoder.step, if_neg (by simp), if_pos ⟨hlower, hupper⟩]
  rfl

theorem decodeFrom_last {lower upper point byte : Nat} (bytes : List Nat)
    (hlower : lower ≤ byte) (hupper : byte ≤ upper) :
    decodeFrom ⟨1, lower, upper, point⟩ (byte :: bytes) =
      Fin.ofNat 0x110000 (point * 64 + (byte - 0x80)) :: decodeFrom .start bytes := by
  rw [decodeFrom, Decoder.step, if_neg (by simp), if_pos ⟨hlower, hupper⟩]
  rfl

theorem ofNat_eq {c : CodePoint} {n : Nat} (h : n = c.val) : Fin.ofNat 0x110000 n = c := by
  subst h
  exact Fin.ext (Nat.mod_eq_of_lt c.isLt)

/-- A code point that is not a surrogate is read as it was written. -/
theorem decodeFrom_encodeNat {c : CodePoint} (h : isSurrogate c = false) (bytes : List Nat) :
    decodeFrom .start (encodeNat c.val ++ bytes) = c :: decodeFrom .start bytes := by
  have hlt := c.isLt
  simp only [isSurrogate, Bool.and_eq_false_iff, decide_eq_false_iff_not] at h
  unfold encodeNat
  split_ifs with h1 h2 h3
  · rw [List.singleton_append, decodeFrom_start, Decoder.first, if_pos h1]
    exact congrArg (· :: _) (ofNat_eq rfl)
  · rw [List.cons_append, decodeFrom_start, Decoder.first,
      if_neg (by omega), if_pos (by omega), List.nil_append, List.singleton_append,
      decodeFrom_last bytes (by omega) (by omega)]
    exact congrArg (· :: _) (ofNat_eq (by omega))
  · rw [List.cons_append, decodeFrom_start, Decoder.first,
      if_neg (by omega), if_neg (by omega), if_pos (by omega), List.nil_append, List.cons_append,
      List.singleton_append,
      decodeFrom_continue _ (by split_ifs <;> omega) (by split_ifs <;> omega),
      decodeFrom_last bytes (by omega) (by omega)]
    exact congrArg (· :: _) (ofNat_eq (by omega))
  · rw [List.cons_append, decodeFrom_start, Decoder.first,
      if_neg (by omega), if_neg (by omega), if_neg (by omega), if_pos (by omega), List.nil_append,
      List.cons_append, List.cons_append, List.singleton_append,
      decodeFrom_continue _ (by split_ifs <;> omega) (by split_ifs <;> omega),
      decodeFrom_continue _ (by omega) (by omega),
      decodeFrom_last bytes (by omega) (by omega)]
    exact congrArg (· :: _) (ofNat_eq (by omega))

theorem isSurrogate_scalar (c : CodePoint) : isSurrogate (scalar c) = false := by
  unfold scalar
  split
  · rfl
  · rename_i h
    exact Bool.eq_false_of_not_eq_true h

/-- **Reading what was written**: lone surrogates are replaced, and a mark is dropped. -/
theorem decode_encode (text : Text) : decode (encode text) = dropMark (text.map scalar) := by
  have hfrom : decodeFrom .start (encode text) = text.map scalar := by
    induction text with
    | nil => rfl
    | cons c text ih =>
      rw [encode_cons, encodePoint, decodeFrom_encodeNat (isSurrogate_scalar c), ih,
        List.map_cons]
  rw [decode, hfrom]

end Utf8
