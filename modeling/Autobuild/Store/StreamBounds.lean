/-
# The bound on a stream part

The writer of a session stream cuts what a part carries to `STREAM_PART_MAX_BYTES` bytes of UTF-8,
and a store takes batches of at most `STREAM_BATCH_MAX_BYTES` bytes of JSON.  JSON writes at most
six bytes for one of the text, so a part whose other fields take no more than half of a batch fits
one (`boundPart_fits`).

What is kept goes through `TextDecoder`, which drops a byte order mark at the beginning; and it
went through `TextEncoder`, which replaces lone surrogates.  It is a prefix of the text, and the
bytes that are reported are those that were omitted, exactly for the texts that neither changes
(`keepsText_iff`).
-/
import Mathlib.Data.Nat.Digits.Lemmas
import Autobuild.Lib.Utf8

namespace Autobuild

open Utf8

/-! ## 1. JSON of any string -/

def points (s : String) : Text :=
  s.toList.map fun c => ⟨c.toNat, by
    have := c.valid
    unfold UInt32.isValidChar Nat.isValidChar at this
    exact this.elim (fun h => lt_trans h (by decide)) fun h => h.2⟩

inductive StreamJson where
  | null
  | bool (value : Bool)
  | num (text : String)
  | str (value : Text)
  | arr (items : List StreamJson)
  | obj (fields : List (Text × StreamJson))

/-- The fields of an object in their order. -/
abbrev StreamFields := List (Text × StreamJson)

namespace StreamJson

def hexPoint (n : Nat) : CodePoint := Fin.ofNat 0x110000 (if n < 10 then 48 + n else 87 + n)

/-- `\uXXXX`. -/
def unicodeEscape (n : Nat) : Text :=
  points "\\u" ++ [hexPoint (n / 4096 % 16), hexPoint (n / 256 % 16), hexPoint (n / 16 % 16),
    hexPoint (n % 16)]

def escape (c : CodePoint) : Text :=
  if c.val = 8 then points "\\b"
  else if c.val = 9 then points "\\t"
  else if c.val = 10 then points "\\n"
  else if c.val = 12 then points "\\f"
  else if c.val = 13 then points "\\r"
  else if c.val = 34 then points "\\\""
  else if c.val = 92 then points "\\\\"
  else if c.val < 32 then unicodeEscape c.val
  else if isSurrogate c then unicodeEscape c.val
  else [c]

def quote (text : Text) : Text := points "\"" ++ text.flatMap escape ++ points "\""

def joinComma : List Text → Text
  | [] => []
  | [text] => text
  | text :: texts => text ++ points "," ++ joinComma texts

mutual

/-- `JSON.stringify`. -/
def stringify : StreamJson → Text
  | .null => points "null"
  | .bool true => points "true"
  | .bool false => points "false"
  | .num text => points text
  | .str value => quote value
  | .arr items => points "[" ++ joinComma (stringifyItems items) ++ points "]"
  | .obj fields => points "\x7b" ++ joinComma (stringifyFields fields) ++ points "\x7d"

def stringifyItems : List StreamJson → List Text
  | [] => []
  | item :: items => stringify item :: stringifyItems items

def stringifyFields : StreamFields → List Text
  | [] => []
  | (key, value) :: fields => (quote key ++ points ":" ++ stringify value) :: stringifyFields fields

end

end StreamJson

open StreamJson

/-- `record[key]`. -/
def fieldOf (fields : StreamFields) (key : String) : Option StreamJson :=
  (fields.find? fun entry => entry.1 = points key).map Prod.snd

/-- `{ ...record, [key]: value }`. -/
def setField : StreamFields → String → StreamJson → StreamFields
  | [], key, value => [(points key, value)]
  | (key', value') :: fields, key, value =>
    if key' = points key then (points key, value) :: fields
    else (key', value') :: setField fields key value

/-! ## 2. Bounding a part -/

def STREAM_PART_MAX_BYTES : Nat := 65536

def STREAM_BATCH_MAX_BYTES : Nat := 1048576

/-- The bytes of a text. -/
def size (text : Text) : Nat := (encode text).length

def serializedBatchSize (parts : List StreamFields) : Nat :=
  size (stringify (.arr (parts.map .obj)))

/-- What is kept of a text, and the number of bytes that are omitted. -/
def truncateUtf8 (text : Text) (maxBytes : Nat) : Text × Nat :=
  let bytes := encode text
  if bytes.length ≤ maxBytes then (text, 0)
  else
    let cut := cutBack bytes maxBytes
    (decode (bytes.take cut), bytes.length - cut)

def truncationPart (omittedBytes : Nat) : StreamFields :=
  [(points "type", .str (points "data-ab-truncation")),
    (points "data", .obj [(points "omittedBytes", .num (toString omittedBytes))])]

/-- A part with its text cut, and a note of what was omitted. -/
def boundText (record : StreamFields) (text : Text) (replaced : Text → StreamFields) :
    List StreamFields :=
  let (kept, omitted) := truncateUtf8 text STREAM_PART_MAX_BYTES
  if omitted = 0 then [record] else [replaced kept, truncationPart omitted]

def partType (record : StreamFields) : Text :=
  match fieldOf record "type" with
  | some (.str type) => type
  | _ => []

def boundDelta (record : StreamFields) : List StreamFields :=
  match fieldOf record "delta" with
  | some (.str delta) => boundText record delta fun kept =>
    setField (setField record "type" (.str (partType record))) "delta" (.str kept)
  | _ => [record]

/-- A string stays a string; the text of any other value is put into an object. -/
def boundTool (record : StreamFields) (key : String) : List StreamFields :=
  match fieldOf record key with
  | none => [record]
  | some (.str value) => boundText record value fun kept =>
    setField (setField record "type" (.str (partType record))) key (.str kept)
  | some value => boundText record (stringify value) fun kept =>
    setField (setField record "type" (.str (partType record))) key
      (.obj [(points "truncated", .str kept)])

def boundPrompt (record : StreamFields) : List StreamFields :=
  match fieldOf record "data" with
  | some (.obj data) =>
    match fieldOf data "text" with
    | some (.str text) => boundText record text fun kept =>
      setField (setField record "type" (.str (partType record))) "data"
        (.obj (setField data "text" (.str kept)))
    | _ => [record]
  | _ => [record]

def boundPart (record : StreamFields) : List StreamFields :=
  if partType record = points "text-delta" ∨ partType record = points "reasoning-delta" then
    boundDelta record
  else if partType record = points "tool-input-available" then boundTool record "input"
  else if partType record = points "tool-output-available" then boundTool record "output"
  else if partType record = points "data-ab-prompt" then boundPrompt record
  else [record]

/-! ## 3. The size of JSON -/

@[simp] theorem size_nil : size [] = 0 := rfl

@[simp] theorem size_append (xs ys : Text) : size (xs ++ ys) = size xs + size ys := by
  rw [size, encode_append, List.length_append, size, size]

theorem size_cons (c : CodePoint) (text : Text) : size (c :: text) = size [c] + size text :=
  size_append [c] text

theorem size_hexPoint (n : Nat) : size [hexPoint (n % 16)] = 1 := by
  have hall : ∀ m < 16, size [hexPoint m] = 1 := by decide
  exact hall _ (Nat.mod_lt n (by decide))

theorem size_unicodeEscape (n : Nat) : size (unicodeEscape n) = 6 := by
  rw [unicodeEscape, size_append, size_cons _ [_, _, _], size_cons _ [_, _], size_cons _ [_],
    size_hexPoint, size_hexPoint, size_hexPoint, size_hexPoint]
  rfl

theorem one_le_size (c : CodePoint) : 1 ≤ size [c] := by
  rw [size, encode_cons, encode_nil, List.append_nil]
  exact List.length_pos_of_ne_nil (encodePoint_ne_nil c)

/-- JSON writes at most six bytes for one. -/
theorem size_escape_le (c : CodePoint) : size (escape c) ≤ 6 * size [c] := by
  have hone := one_le_size c
  have hpair : ∀ s : String, size (points s) = 2 → size (points s) ≤ 6 * size [c] := by
    intro s hs
    omega
  unfold escape
  split_ifs
  · exact hpair _ rfl
  · exact hpair _ rfl
  · exact hpair _ rfl
  · exact hpair _ rfl
  · exact hpair _ rfl
  · exact hpair _ rfl
  · exact hpair _ rfl
  · rw [size_unicodeEscape]
    omega
  · rw [size_unicodeEscape]
    omega
  · omega

theorem size_quote_le (text : Text) : size (quote text) ≤ 6 * size text + 2 := by
  have hbody : size (text.flatMap escape) ≤ 6 * size text := by
    induction text with
    | nil => exact le_rfl
    | cons c text ih =>
      have hc := size_escape_le c
      rw [List.flatMap_cons, size_append, size_cons c text]
      omega
  have hmark : size (points "\"") = 1 := rfl
  rw [quote, size_append, size_append, hmark]
  omega

theorem joinComma_cons (text : Text) (texts : List Text) :
    size (joinComma (text :: texts)) =
      size text + if texts = [] then 0 else 1 + size (joinComma texts) := by
  cases texts with
  | nil => rfl
  | cons next texts =>
    have hcomma : size (points ",") = 1 := rfl
    rw [if_neg (List.cons_ne_nil next texts)]
    change size (text ++ points "," ++ joinComma (next :: texts)) = _
    rw [size_append, size_append, hcomma]
    omega

theorem size_joinComma_insert_le (before after : List Text) (text : Text) :
    size (joinComma (before ++ text :: after)) ≤
      size (joinComma (before ++ after)) + size text + 1 := by
  induction before with
  | nil =>
    rw [List.nil_append, List.nil_append, joinComma_cons]
    split <;> omega
  | cons first before ih =>
    rw [List.cons_append, List.cons_append, joinComma_cons, joinComma_cons,
      if_neg (List.append_ne_nil_of_right_ne_nil before (List.cons_ne_nil text after))]
    split
    · rename_i hnil
      obtain ⟨rfl, rfl⟩ := List.append_eq_nil_iff.mp hnil
      change _ + (1 + (size (joinComma [text]))) ≤ _
      rw [joinComma_cons, if_pos rfl]
      omega
    · omega

theorem size_joinComma_replace (before after : List Text) (text text' : Text) :
    size (joinComma (before ++ text :: after)) + size text' =
      size (joinComma (before ++ text' :: after)) + size text := by
  induction before with
  | nil =>
    rw [List.nil_append, List.nil_append, joinComma_cons, joinComma_cons]
    omega
  | cons first before ih =>
    rw [List.cons_append, List.cons_append, joinComma_cons, joinComma_cons,
      if_neg (List.append_ne_nil_of_right_ne_nil before (List.cons_ne_nil text after)),
      if_neg (List.append_ne_nil_of_right_ne_nil before (List.cons_ne_nil text' after))]
    omega

theorem stringifyFields_append (xs ys : StreamFields) :
    stringifyFields (xs ++ ys) = stringifyFields xs ++ stringifyFields ys := by
  induction xs with
  | nil => rfl
  | cons entry xs ih =>
    rw [List.cons_append, stringifyFields, stringifyFields, ih, List.cons_append]

/-- The bytes of an object. -/
def fieldsSize (fields : StreamFields) : Nat := size (stringify (.obj fields))

theorem fieldsSize_eq (fields : StreamFields) :
    fieldsSize fields = size (joinComma (stringifyFields fields)) + 2 := by
  have hopen : size (points "\x7b") = 1 := rfl
  have hclose : size (points "\x7d") = 1 := rfl
  rw [fieldsSize, stringify, size_append, size_append, hopen, hclose]
  omega

theorem serializedBatchSize_singleton (part : StreamFields) :
    serializedBatchSize [part] = fieldsSize part + 2 := by
  have hopen : size (points "[") = 1 := rfl
  have hclose : size (points "]") = 1 := rfl
  rw [serializedBatchSize, List.map_singleton, stringify, stringifyItems, stringifyItems,
    joinComma, size_append, size_append, hopen, hclose, fieldsSize]
  omega

theorem size_entry (key : Text) (value : StreamJson) :
    size (quote key ++ points ":" ++ stringify value) =
      size (quote key) + 1 + size (stringify value) := by
  rw [size_append, size_append]
  rfl

theorem fieldsSize_insert_le (before after : StreamFields) (key : Text) (value : StreamJson) :
    fieldsSize (before ++ (key, value) :: after) ≤
      fieldsSize (before ++ after) + (size (quote key) + 2 + size (stringify value)) := by
  have hinsert := size_joinComma_insert_le (stringifyFields before) (stringifyFields after)
    (quote key ++ points ":" ++ stringify value)
  rw [size_entry] at hinsert
  rw [fieldsSize_eq, fieldsSize_eq, stringifyFields_append, stringifyFields_append,
    stringifyFields]
  omega

theorem fieldsSize_replace (before after : StreamFields) (key : Text) (value value' : StreamJson) :
    fieldsSize (before ++ (key, value) :: after) + size (stringify value') =
      fieldsSize (before ++ (key, value') :: after) + size (stringify value) := by
  have hreplace := size_joinComma_replace (stringifyFields before) (stringifyFields after)
    (quote key ++ points ":" ++ stringify value) (quote key ++ points ":" ++ stringify value')
  rw [size_entry, size_entry] at hreplace
  rw [fieldsSize_eq, fieldsSize_eq, stringifyFields_append, stringifyFields_append,
    stringifyFields, stringifyFields]
  omega

/-! ## 4. Where the text is -/

/-- The fields without the first of a key. -/
def eraseField : StreamFields → String → StreamFields
  | [], _ => []
  | entry :: fields, key => if entry.1 = points key then fields else entry :: eraseField fields key

theorem fieldOf_split {fields : StreamFields} {key : String} {value : StreamJson}
    (h : fieldOf fields key = some value) :
    ∃ before after, fields = before ++ (points key, value) :: after ∧
      eraseField fields key = before ++ after ∧
      ∀ value', setField fields key value' = before ++ (points key, value') :: after := by
  induction fields with
  | nil => cases h
  | cons entry fields ih =>
    obtain ⟨key', value'⟩ := entry
    by_cases hkey : key' = points key
    · subst hkey
      simp only [fieldOf, List.find?_cons, decide_true] at h
      cases h
      refine ⟨[], fields, rfl, ?_, fun _ => ?_⟩
      · rw [eraseField, if_pos rfl, List.nil_append]
      · rw [setField, if_pos rfl, List.nil_append]
    · simp only [fieldOf, List.find?_cons, hkey, decide_false] at h
      obtain ⟨before, after, rfl, herase, hset⟩ := ih h
      refine ⟨(key', value') :: before, after, rfl, ?_, fun value'' => ?_⟩
      · rw [eraseField, if_neg hkey, herase, List.cons_append]
      · rw [setField, if_neg hkey, hset, List.cons_append]

/-- The type of a part is written where it was. -/
theorem setField_type {record : StreamFields} (h : partType record ≠ []) :
    setField record "type" (.str (partType record)) = record := by
  unfold partType at h ⊢
  split
  · rename_i type htype
    obtain ⟨before, after, hrecord, -, hset⟩ := fieldOf_split htype
    rw [hset, ← hrecord]
  · rename_i hother
    split at h
    · rename_i type htype
      exact absurd htype (hother type)
    · exact absurd rfl h

/-! ## 5. What is kept -/

/-- The prefix that fits survives its way through bytes. -/
def Survives (text : Text) : Prop :=
  text.head? ≠ some byteOrderMark ∧ ∀ c ∈ text, isSurrogate c = false

/-- The kept text is a prefix of at most the bound, and the rest is reported. -/
def KeepsText (text : Text) : Prop :=
  (truncateUtf8 text STREAM_PART_MAX_BYTES).1 <+: text ∧
    size (truncateUtf8 text STREAM_PART_MAX_BYTES).1 ≤ STREAM_PART_MAX_BYTES ∧
    size (truncateUtf8 text STREAM_PART_MAX_BYTES).1 +
      (truncateUtf8 text STREAM_PART_MAX_BYTES).2 = size text

theorem truncateUtf8_of_le {text : Text} {maxBytes : Nat} (h : size text ≤ maxBytes) :
    truncateUtf8 text maxBytes = (text, 0) := if_pos h

theorem truncateUtf8_of_lt {text : Text} {maxBytes : Nat} (h : maxBytes < size text) :
    truncateUtf8 text maxBytes =
      (dropMark ((fit text maxBytes).map scalar), size text - size (fit text maxBytes)) := by
  obtain ⟨rest, hrest⟩ := fit_isPrefix text maxBytes
  have htake : (encode text).take (encode (fit text maxBytes)).length =
      encode (fit text maxBytes) := by
    rw [← List.prefix_iff_eq_take.mp]
    nth_rewrite 2 [← hrest]
    rw [encode_append]
    exact List.prefix_append _ _
  have hlt : ¬ (encode text).length ≤ maxBytes := Nat.not_le.mpr h
  unfold truncateUtf8
  dsimp only
  rw [if_neg hlt, cutBack_encode h, htake, decode_encode]
  rfl

theorem scalar_of_not_surrogate {c : CodePoint} (h : isSurrogate c = false) : scalar c = c := by
  rw [scalar, h]
  rfl

theorem scalar_eq_mark {c : CodePoint} : scalar c = byteOrderMark ↔ c = byteOrderMark := by
  unfold scalar
  split
  · rename_i h
    refine iff_of_false (by decide) ?_
    rintro rfl
    exact absurd h (by decide)
  · rfl

theorem size_map_scalar (text : Text) : size (text.map scalar) = size text := by
  induction text with
  | nil => rfl
  | cons c text ih =>
    have hc : size [scalar c] = size [c] := by
      rw [size, size, encode_cons, encode_cons, encodePoint, encodePoint,
        scalar_of_not_surrogate (isSurrogate_scalar c)]
    rw [List.map_cons, size_cons, size_cons c, ih, hc]

theorem size_le_of_isPrefix {part text : Text} (h : part <+: text) : size part ≤ size text := by
  obtain ⟨rest, rfl⟩ := h
  rw [size_append]
  exact Nat.le_add_right _ _

/-- **What is kept**: a text that is cut keeps a prefix of itself if what fits survives. -/
theorem keepsText_iff (text : Text) :
    KeepsText text ↔ size text ≤ STREAM_PART_MAX_BYTES ∨
      Survives (fit text STREAM_PART_MAX_BYTES) := by
  unfold KeepsText
  by_cases hle : size text ≤ STREAM_PART_MAX_BYTES
  · rw [truncateUtf8_of_le hle]
    exact iff_of_true ⟨List.prefix_rfl, hle, rfl⟩ (.inl hle)
  · rw [truncateUtf8_of_lt (Nat.lt_of_not_le hle)]
    dsimp only
    have hfit := fit_isPrefix text STREAM_PART_MAX_BYTES
    have hfits : size (fit text STREAM_PART_MAX_BYTES) ≤ STREAM_PART_MAX_BYTES :=
      length_encode_fit_le text STREAM_PART_MAX_BYTES
    have hsize := size_le_of_isPrefix hfit
    generalize fit text STREAM_PART_MAX_BYTES = kept at hfit hfits hsize
    rw [or_iff_right hle]
    constructor
    · rintro ⟨hkept, -, htotal⟩
      cases kept with
      | nil => exact ⟨nofun, nofun⟩
      | cons c kept =>
        by_cases hmark : c = byteOrderMark
        · -- the mark is dropped, and is neither kept nor reported
          subst hmark
          have hdrop : dropMark ((byteOrderMark :: kept).map scalar) = kept.map scalar := rfl
          have hthree : size [byteOrderMark] = 3 := rfl
          rw [hdrop, size_map_scalar] at htotal
          rw [size_cons, hthree] at hsize htotal
          omega
        · have hdrop : dropMark ((c :: kept).map scalar) = (c :: kept).map scalar := by
            rw [List.map_cons, dropMark, if_neg (mt scalar_eq_mark.mp hmark)]
          rw [hdrop] at hkept
          have hsame : (c :: kept).map scalar = c :: kept :=
            (List.prefix_of_prefix_length_le hkept hfit (List.length_map scalar).le).eq_of_length
              (List.length_map scalar)
          refine ⟨fun h => hmark (Option.some.inj h), fun d hd => ?_⟩
          have hscalar : scalar d = d :=
            List.map_inj_left.mp (hsame.trans (List.map_id _).symm) d hd
          rw [← hscalar]
          exact isSurrogate_scalar d
    · rintro ⟨hmark, hsurrogate⟩
      have hsame : kept.map scalar = kept :=
        (List.map_congr_left fun c hc => scalar_of_not_surrogate (hsurrogate c hc)).trans
          (List.map_id kept)
      have hdrop : dropMark (kept.map scalar) = kept := by
        rw [hsame]
        cases kept with
        | nil => rfl
        | cons c kept => exact if_neg fun h => hmark (congrArg some h)
      rw [hdrop]
      exact ⟨hfit, hfits, by omega⟩

theorem size_truncate_le (text : Text) :
    size (truncateUtf8 text STREAM_PART_MAX_BYTES).1 ≤ STREAM_PART_MAX_BYTES := by
  by_cases hle : size text ≤ STREAM_PART_MAX_BYTES
  · rwa [truncateUtf8_of_le hle]
  · have hfits : size (fit text STREAM_PART_MAX_BYTES) ≤ STREAM_PART_MAX_BYTES :=
      length_encode_fit_le text STREAM_PART_MAX_BYTES
    have hdrop : ∀ kept : Text, size (dropMark kept) ≤ size kept := by
      intro kept
      cases kept with
      | nil => exact le_rfl
      | cons c kept =>
        rw [dropMark, size_cons]
        split
        · omega
        · rw [size_cons]
    rw [truncateUtf8_of_lt (Nat.lt_of_not_le hle)]
    refine (hdrop _).trans ?_
    rwa [size_map_scalar]

theorem truncate_omitted_le (text : Text) :
    (truncateUtf8 text STREAM_PART_MAX_BYTES).2 ≤ size text := by
  unfold truncateUtf8
  dsimp only
  split
  · exact Nat.zero_le _
  · exact Nat.sub_le _ _

/-! ## 6. Every bounded part fits a batch -/

/-- What a part takes beside its other fields, at most. -/
def CARRIED_MAX : Nat := 6 * STREAM_PART_MAX_BYTES + 64

/-- A part carries a text: with the text, and with what is kept of one, it takes no more than its
other fields and that. -/
structure Carries (record others : StreamFields) (text : Text)
    (replaced : Text → StreamFields) : Prop where
  whole : size text ≤ STREAM_PART_MAX_BYTES → fieldsSize record ≤ fieldsSize others + CARRIED_MAX
  cut : ∀ kept, size kept ≤ STREAM_PART_MAX_BYTES →
    fieldsSize (replaced kept) ≤ fieldsSize others + CARRIED_MAX

/-- The length of a string is below `2 ^ 53`. -/
def MAX_STRING_LENGTH : Nat := 2 ^ 53 - 1

theorem size_le_length (text : Text) : size text ≤ 4 * text.length := by
  induction text with
  | nil => exact le_rfl
  | cons c text ih =>
    obtain ⟨first, rest, hpoint, -, -, hrest⟩ := encodeNat_eq (scalar c).val (scalar c).isLt
    have hc : size [c] ≤ 4 := by
      rw [size, encode_cons, encode_nil, List.append_nil, encodePoint, hpoint, List.length_cons]
      omega
    rw [size_cons, List.length_cons]
    omega

theorem size_points_le (s : String) : size (points s) ≤ 4 * s.length := by
  have hlength : (points s).length = s.length := List.length_map _
  rw [← hlength]
  exact size_le_length _

/-- The note of what was omitted fits a batch of its own. -/
theorem truncationPart_fits {omitted : Nat} (h : omitted < 10 ^ 20) :
    serializedBatchSize [truncationPart omitted] ≤ STREAM_BATCH_MAX_BYTES := by
  have hdigits : (toString omitted).length ≤ 20 := (Nat.length_repr_le_iff (by decide)).mpr h
  have hnum := size_points_le (toString omitted)
  have hdata : fieldsSize [(points "omittedBytes", .num (toString omitted))] ≤ 100 := by
    have hinsert := fieldsSize_insert_le [] [] (points "omittedBytes") (.num (toString omitted))
    have hempty : fieldsSize [] = 2 := rfl
    have hkey : size (quote (points "omittedBytes")) = 14 := rfl
    rw [List.append_nil, hempty, hkey, stringify] at hinsert
    rw [List.nil_append] at hinsert
    omega
  have hinsert := fieldsSize_insert_le [(points "type", .str (points "data-ab-truncation"))] []
    (points "data") (.obj [(points "omittedBytes", .num (toString omitted))])
  have htype : fieldsSize [(points "type", .str (points "data-ab-truncation"))] = 29 := rfl
  have hkey : size (quote (points "data")) = 6 := rfl
  rw [List.append_nil, htype, hkey] at hinsert
  rw [serializedBatchSize_singleton]
  change fieldsSize (truncationPart omitted) ≤ _ at hinsert
  change fieldsSize [(points "omittedBytes", .num (toString omitted))] ≤ 100 at hdata
  unfold fieldsSize at hdata
  unfold STREAM_BATCH_MAX_BYTES
  omega

theorem boundText_fits {record others : StreamFields} {text : Text}
    {replaced : Text → StreamFields} (h : Carries record others text replaced)
    (hothers : fieldsSize others ≤ STREAM_BATCH_MAX_BYTES / 2)
    (hlength : text.length ≤ MAX_STRING_LENGTH) :
    ∀ part ∈ boundText record text replaced,
      serializedBatchSize [part] ≤ STREAM_BATCH_MAX_BYTES := by
  have hroom : ∀ part : StreamFields, fieldsSize part ≤ fieldsSize others + CARRIED_MAX →
      serializedBatchSize [part] ≤ STREAM_BATCH_MAX_BYTES := by
    intro part hpart
    rw [serializedBatchSize_singleton]
    unfold STREAM_BATCH_MAX_BYTES at hothers ⊢
    unfold CARRIED_MAX STREAM_PART_MAX_BYTES at hpart
    omega
  intro part hpart
  unfold boundText at hpart
  dsimp only at hpart
  split at hpart
  · rename_i hnone
    rw [List.mem_singleton.mp hpart]
    refine hroom _ (h.whole ?_)
    by_contra hlong
    rw [truncateUtf8_of_lt (Nat.lt_of_not_le hlong)] at hnone
    have hfits : size (fit text STREAM_PART_MAX_BYTES) ≤ STREAM_PART_MAX_BYTES :=
      length_encode_fit_le text STREAM_PART_MAX_BYTES
    dsimp only at hnone
    omega
  · obtain rfl | hpart := List.mem_cons.mp hpart
    · exact hroom _ (h.cut _ (size_truncate_le text))
    · rw [List.mem_singleton.mp hpart]
      refine truncationPart_fits ?_
      have homitted := truncate_omitted_le text
      have hsize := size_le_length text
      unfold MAX_STRING_LENGTH at hlength
      omega

theorem carries_string {record : StreamFields} {key : String} {text : Text}
    (htype : partType record ≠ []) (hkey : size (quote (points key)) ≤ 16)
    (h : fieldOf record key = some (.str text)) :
    Carries record (eraseField record key) text fun kept =>
      setField (setField record "type" (.str (partType record))) key (.str kept) := by
  obtain ⟨before, after, hrecord, herase, hset⟩ := fieldOf_split h
  have hroom : ∀ kept, size kept ≤ STREAM_PART_MAX_BYTES →
      fieldsSize (before ++ (points key, .str kept) :: after) ≤
        fieldsSize (before ++ after) + CARRIED_MAX := by
    intro kept hkept
    have hinsert := fieldsSize_insert_le before after (points key) (.str kept)
    have hquote := size_quote_le kept
    rw [stringify] at hinsert
    unfold CARRIED_MAX
    omega
  constructor
  · intro hle
    rw [herase]
    nth_rewrite 1 [hrecord]
    exact hroom text hle
  · intro kept hkept
    rw [setField_type htype, hset, herase]
    exact hroom kept hkept

theorem carries_object {record : StreamFields} {key : String} {value : StreamJson}
    (htype : partType record ≠ []) (hkey : size (quote (points key)) ≤ 16)
    (h : fieldOf record key = some value) :
    Carries record (eraseField record key) (stringify value) fun kept =>
      setField (setField record "type" (.str (partType record))) key
        (.obj [(points "truncated", .str kept)]) := by
  obtain ⟨before, after, hrecord, herase, hset⟩ := fieldOf_split h
  constructor
  · intro hle
    have hinsert := fieldsSize_insert_le before after (points key) value
    rw [herase]
    nth_rewrite 1 [hrecord]
    unfold CARRIED_MAX
    omega
  · intro kept hkept
    have hinsert := fieldsSize_insert_le before after (points key)
      (.obj [(points "truncated", .str kept)])
    have hinner := fieldsSize_insert_le [] [] (points "truncated") (.str kept)
    have hempty : fieldsSize [] = 2 := rfl
    have htruncated : size (quote (points "truncated")) = 11 := rfl
    have hquote := size_quote_le kept
    rw [List.append_nil, hempty, htruncated, List.nil_append, stringify] at hinner
    change fieldsSize _ ≤ _ + (_ + 2 + fieldsSize [(points "truncated", .str kept)]) at hinsert
    rw [setField_type htype, hset, herase]
    unfold CARRIED_MAX
    omega

/-- The text within `data`: the other fields are those of the part with the others of `data`. -/
theorem carries_data {record data : StreamFields} {text : Text}
    (htype : partType record ≠ []) (h : fieldOf record "data" = some (.obj data))
    (hdata : fieldOf data "text" = some (.str text)) :
    Carries record (setField record "data" (.obj (eraseField data "text"))) text fun kept =>
      setField (setField record "type" (.str (partType record))) "data"
        (.obj (setField data "text" (.str kept))) := by
  obtain ⟨before, after, hrecord, -, hset⟩ := fieldOf_split h
  obtain ⟨before', after', hdata', herase, hset'⟩ := fieldOf_split hdata
  have hroom : ∀ kept, size kept ≤ STREAM_PART_MAX_BYTES →
      fieldsSize (before ++ (points "data",
          .obj (before' ++ (points "text", .str kept) :: after')) :: after) ≤
        fieldsSize (before ++ (points "data", .obj (before' ++ after')) :: after) +
          CARRIED_MAX := by
    intro kept hkept
    have hinner := fieldsSize_insert_le before' after' (points "text") (.str kept)
    have hkey : size (quote (points "text")) = 6 := rfl
    have houter := fieldsSize_replace before after (points "data")
      (.obj (before' ++ (points "text", .str kept) :: after')) (.obj (before' ++ after'))
    have hquote := size_quote_le kept
    rw [hkey, stringify] at hinner
    change _ + fieldsSize _ = _ + fieldsSize _ at houter
    unfold CARRIED_MAX
    omega
  constructor
  · intro hle
    rw [hset, herase]
    nth_rewrite 1 [hrecord]
    rw [hdata']
    exact hroom text hle
  · intro kept hkept
    rw [setField_type htype, hset, hset, herase, hset']
    exact hroom kept hkept

/-! ## 7. Exactly when a part is bounded as it should be -/

def carriedString (record : StreamFields) (key : String) : Option (Text × StreamFields) :=
  match fieldOf record key with
  | some (.str text) => some (text, eraseField record key)
  | _ => none

def carriedTool (record : StreamFields) (key : String) : Option (Text × StreamFields) :=
  match fieldOf record key with
  | none => none
  | some (.str text) => some (text, eraseField record key)
  | some value => some (stringify value, eraseField record key)

def carriedData (record : StreamFields) : Option (Text × StreamFields) :=
  match fieldOf record "data" with
  | some (.obj data) =>
    match fieldOf data "text" with
    | some (.str text) => some (text, setField record "data" (.obj (eraseField data "text")))
    | _ => none
  | _ => none

/-- The text that a part carries, and its other fields. -/
def carried (record : StreamFields) : Option (Text × StreamFields) :=
  if partType record = points "text-delta" ∨ partType record = points "reasoning-delta" then
    carriedString record "delta"
  else if partType record = points "tool-input-available" then carriedTool record "input"
  else if partType record = points "tool-output-available" then carriedTool record "output"
  else if partType record = points "data-ab-prompt" then carriedData record
  else none

def otherFields (record : StreamFields) : StreamFields :=
  (carried record).elim record Prod.snd

/-- How a part is bounded. -/
def BoundedAs (record : StreamFields) (parts : List StreamFields) :
    Option (Text × StreamFields) → Prop
  | none => parts = [record]
  | some (text, others) =>
    ∃ replaced, parts = boundText record text replaced ∧ Carries record others text replaced

theorem boundDelta_as {record : StreamFields} (htype : partType record ≠ []) :
    BoundedAs record (boundDelta record) (carriedString record "delta") := by
  unfold boundDelta carriedString
  split
  · rename_i text h
    exact ⟨_, rfl, carries_string htype (by decide) h⟩
  · rfl

theorem boundTool_as {record : StreamFields} {key : String} (htype : partType record ≠ [])
    (hkey : size (quote (points key)) ≤ 16) :
    BoundedAs record (boundTool record key) (carriedTool record key) := by
  unfold boundTool carriedTool
  split
  · rfl
  · rename_i text h
    exact ⟨_, rfl, carries_string htype hkey h⟩
  · rename_i value _ h
    exact ⟨_, rfl, carries_object htype hkey h⟩

theorem boundPrompt_as {record : StreamFields} (htype : partType record ≠ []) :
    BoundedAs record (boundPrompt record) (carriedData record) := by
  unfold boundPrompt carriedData
  split
  · rename_i data h
    split
    · rename_i text hdata
      exact ⟨_, rfl, carries_data htype h hdata⟩
    · rfl
  · rfl

/-- **Each type** bounds the text it carries. -/
theorem boundPart_as (record : StreamFields) :
    BoundedAs record (boundPart record) (carried record) := by
  have hne : ∀ {type : Text}, partType record = type → type ≠ [] → partType record ≠ [] :=
    fun h hne => h ▸ hne
  unfold boundPart carried
  split_ifs with hdelta hinput houtput hprompt
  · obtain h | h := hdelta
    · exact boundDelta_as (hne h (by decide))
    · exact boundDelta_as (hne h (by decide))
  · exact boundTool_as (hne hinput (by decide)) (by decide)
  · exact boundTool_as (hne houtput (by decide)) (by decide)
  · exact boundPrompt_as (hne hprompt (by decide))
  · rfl

theorem boundPart_fits {record : StreamFields}
    (hothers : fieldsSize (otherFields record) ≤ STREAM_BATCH_MAX_BYTES / 2)
    (hlength : ∀ text others, carried record = some (text, others) →
      text.length ≤ MAX_STRING_LENGTH) :
    ∀ part ∈ boundPart record, serializedBatchSize [part] ≤ STREAM_BATCH_MAX_BYTES := by
  have has := boundPart_as record
  unfold otherFields at hothers
  cases hcarried : carried record with
  | none =>
    rw [hcarried] at has hothers
    intro part hpart
    rw [show boundPart record = [record] from has, List.mem_singleton] at hpart
    rw [hpart, serializedBatchSize_singleton]
    change fieldsSize record ≤ _ at hothers
    unfold STREAM_BATCH_MAX_BYTES at hothers ⊢
    omega
  | some pair =>
    obtain ⟨text, others⟩ := pair
    rw [hcarried] at has hothers
    obtain ⟨replaced, hparts, hcarries⟩ := has
    rw [hparts]
    exact boundText_fits hcarries hothers (hlength text others hcarried)

/-- **A bounded part** fits a batch always, and keeps a prefix of what it carries with a true
count of the rest exactly when that is not cut, or what fits of it has neither a byte order mark
at its beginning nor a lone surrogate. -/
theorem boundPart_bounds_iff {record : StreamFields}
    (hothers : fieldsSize (otherFields record) ≤ STREAM_BATCH_MAX_BYTES / 2)
    (hlength : ∀ text others, carried record = some (text, others) →
      text.length ≤ MAX_STRING_LENGTH) :
    ((∀ part ∈ boundPart record, serializedBatchSize [part] ≤ STREAM_BATCH_MAX_BYTES) ∧
        ∀ text others, carried record = some (text, others) → KeepsText text) ↔
      ∀ text others, carried record = some (text, others) →
        size text ≤ STREAM_PART_MAX_BYTES ∨ Survives (fit text STREAM_PART_MAX_BYTES) := by
  rw [and_iff_right (boundPart_fits hothers hlength)]
  simp only [keepsText_iff]

/-- A delta of a text. -/
def deltaPart (delta : Text) : StreamFields :=
  [(points "type", .str (points "text-delta")), (points "delta", .str delta)]

theorem carried_deltaPart (delta : Text) :
    carried (deltaPart delta) = some (delta, [(points "type", .str (points "text-delta"))]) := by
  rfl

/-- One point more than a part holds. -/
def longText : Text := List.replicate (STREAM_PART_MAX_BYTES + 1) ⟨97, by decide⟩

theorem boundPart_bounds_iff_cut :
    (∀ part ∈ boundPart (deltaPart longText),
        serializedBatchSize [part] ≤ STREAM_BATCH_MAX_BYTES) ∧
      ∀ text others, carried (deltaPart longText) = some (text, others) → KeepsText text := by
  have hothers : fieldsSize (otherFields (deltaPart longText)) ≤ STREAM_BATCH_MAX_BYTES / 2 := by
    rw [otherFields, carried_deltaPart]
    decide
  refine (boundPart_bounds_iff hothers ?_).mpr ?_
  · intro text others h
    rw [carried_deltaPart] at h
    cases h
    rw [longText, List.length_replicate]
    decide
  · intro text others h
    rw [carried_deltaPart] at h
    cases h
    have hpoint : ∀ c ∈ fit longText STREAM_PART_MAX_BYTES, c = ⟨97, by decide⟩ := fun c hc =>
      List.eq_of_mem_replicate ((fit_isPrefix longText STREAM_PART_MAX_BYTES).subset hc)
    refine .inr ⟨fun hmark => ?_, fun c hc => by rw [hpoint c hc]; decide⟩
    exact absurd (hpoint _ (List.mem_of_head? hmark)) (by decide)

/-- A byte order mark before more than a part holds. -/
def markedText : Text := byteOrderMark :: List.replicate STREAM_PART_MAX_BYTES ⟨97, by decide⟩

/-- The mark is gone from what is kept, and is not counted as omitted. -/
theorem not_boundPart_bounds :
    ¬ ∀ text others, carried (deltaPart markedText) = some (text, others) → KeepsText text := by
  intro h
  have hsize : ∀ n, size (byteOrderMark :: List.replicate n ⟨97, by decide⟩) = n + 3 := by
    intro n
    induction n with
    | zero => rfl
    | succ n ih =>
      have hone : size [(⟨97, by decide⟩ : CodePoint)] = 1 := rfl
      rw [size_cons] at ih
      rw [List.replicate_succ, size_cons, size_cons _ (List.replicate n _), hone]
      omega
  have hmarked : size markedText = STREAM_PART_MAX_BYTES + 3 := hsize STREAM_PART_MAX_BYTES
  have hkeeps := (keepsText_iff markedText).mp (h _ _ (carried_deltaPart markedText))
  obtain hle | ⟨hmark, -⟩ := hkeeps
  · rw [hmarked] at hle
    omega
  · refine hmark ?_
    have hpoint : (encodePoint byteOrderMark).length ≤ STREAM_PART_MAX_BYTES :=
      (show _ ≤ 3 from le_of_eq rfl).trans (by unfold STREAM_PART_MAX_BYTES; omega)
    rw [markedText, fit, if_pos hpoint, List.head?_cons]

end Autobuild
