/-
# The size of a ticket asset's request

A store whose requests carry at most `maxRequestBytes` publishes a limit on the bytes of an
asset's files, which leaves room for the JSON around them: an envelope, and for each of a thousand
entries a path of the longest kind with its keys, quotes, comma and the padding of its base64.

* `plainBytes`: the bytes of the request if its paths were written as they are.  Within the
  limits these always fit (`plainBytes_le`).
* `pathGrowth`: the bytes that JSON adds to a path by escaping, which the constants leave out.
  `size_requestText`: the request has the two together.

An accepted asset therefore fits the request exactly if the escapes of its paths fit into what the
plain request leaves (`request_fits_iff`).
-/
import Mathlib.Algebra.Order.BigOperators.Group.List
import Autobuild.Lib.ObjectMap
import Autobuild.Store.StreamBounds

namespace Autobuild

open Utf8 StreamJson

/-! ## 1. Limits -/

def TICKET_ASSET_MAX_BYTES : Nat := 25 * 1024 * 1024

def TICKET_ASSET_MAX_ENTRIES : Nat := 1000

def TICKET_ASSET_MAX_PATH_BYTES : Nat := 256

def TICKET_ASSET_MAX_SEGMENT_BYTES : Nat := 128

def TICKET_ASSET_MAX_LABEL_LENGTH : Nat := 64

def WIRE_ENVELOPE_BYTES : Nat := 1024

def WIRE_ENTRY_BYTES : Nat := TICKET_ASSET_MAX_PATH_BYTES + 64

structure TicketAssetLimits where
  maxBytes : Nat
  maxEntries : Nat

/-- The difference of natural numbers is the `Math.max(0, …)` of the source. -/
def effectiveTicketAssetLimits (maxRequestBytes : Nat) : TicketAssetLimits :=
  let overhead := WIRE_ENVELOPE_BYTES + TICKET_ASSET_MAX_ENTRIES * WIRE_ENTRY_BYTES
  { maxBytes := min TICKET_ASSET_MAX_BYTES ((maxRequestBytes - overhead) * 3 / 4)
    maxEntries := TICKET_ASSET_MAX_ENTRIES }

/-! ## 2. The validator -/

inductive TicketAssetLayout where
  | file
  | tree
  deriving DecidableEq

inductive AssetEntryType where
  | file
  | dir
  deriving DecidableEq

abbrev Bytes := List (Fin 256)

/-- There are bytes, so numbers wrap around to one. -/
instance neZero_bytes : NeZero 256 := ⟨Nat.succ_ne_zero _⟩

inductive TicketAssetEntryInput where
  | file (path : Text) (content : Bytes)
  | dir (path : Text)

namespace TicketAssetEntryInput

def path : TicketAssetEntryInput → Text
  | .file path _ => path
  | .dir path => path

def type : TicketAssetEntryInput → AssetEntryType
  | .file _ _ => .file
  | .dir _ => .dir

/-- The bytes of its file. -/
def size : TicketAssetEntryInput → Nat
  | .file _ content => content.length
  | .dir _ => 0

end TicketAssetEntryInput

structure TicketAssetInput where
  kind : Text
  name : Text
  layout : TicketAssetLayout
  entries : List TicketAssetEntryInput

/-- What the validator refuses, with what its message names. -/
inductive TicketAssetError where
  | labelRequired (field : String)
  | labelTooLong (field : String)
  | labelPattern (field : String) (value : Text)
  | notOneFile
  | notAFilename
  | tooManyEntries (count limit : Nat)
  | pathRequired
  | pathHasNul (path : Text)
  | pathHasBackslash (path : Text)
  | pathTooLong (path : Text)
  | pathNotRelative (path : Text)
  | pathSegment (path : Text)
  | segmentTooLong (path : Text)
  | duplicatePath (path : Text)
  | fileAncestor (path ancestor : Text)
  | tooManyBytes (size limit : Nat)

/-- White space of JavaScript. -/
def isWhiteSpace (c : CodePoint) : Bool :=
  (9 ≤ c.val && c.val ≤ 13) || (0x2000 ≤ c.val && c.val ≤ 0x200A) ||
    c.val ∈ [0x20, 0xA0, 0x1680, 0x2028, 0x2029, 0x202F, 0x205F, 0x3000, 0xFEFF]

/-- `value.length`. -/
def utf16Length (text : Text) : Nat := (text.map fun c => if c.val < 0x10000 then 1 else 2).sum

/-- `[A-Za-z0-9._-]`. -/
def isLabelPoint (c : CodePoint) : Bool :=
  (65 ≤ c.val && c.val ≤ 90) || (97 ≤ c.val && c.val ≤ 122) || (48 ≤ c.val && c.val ≤ 57) ||
    c.val = 46 || c.val = 95 || c.val = 45

def validateTicketAssetLabel (field : String) (value : Text) : Except TicketAssetError Unit :=
  if value.all isWhiteSpace = true then .error (.labelRequired field)
  else if TICKET_ASSET_MAX_LABEL_LENGTH < utf16Length value then .error (.labelTooLong field)
  else if value.all isLabelPoint = false ∨ value = points "." ∨ value = points ".." then
    .error (.labelPattern field value)
  else .ok ()

def slash : CodePoint := ⟨47, by decide⟩

/-- `path.split('/')`. -/
def segmentsOf (path : Text) : List Text := path.splitOn slash

/-- The segments of a path, in their order. -/
def validateSegments (path : Text) : List Text → Except TicketAssetError Unit
  | [] => .ok ()
  | segment :: rest =>
    if segment = [] ∨ segment = points "." ∨ segment = points ".." then .error (.pathSegment path)
    else if TICKET_ASSET_MAX_SEGMENT_BYTES < size segment then .error (.segmentTooLong path)
    else validateSegments path rest

def validateTicketAssetPath (path : Text) : Except TicketAssetError Unit :=
  if path = [] then .error .pathRequired
  else if path.any (·.val = 0) = true then .error (.pathHasNul path)
  else if path.any (·.val = 92) = true then .error (.pathHasBackslash path)
  else if TICKET_ASSET_MAX_PATH_BYTES < size path then .error (.pathTooLong path)
  else if path.head? = some slash then .error (.pathNotRelative path)
  else validateSegments path (segmentsOf path)

abbrev AssetKinds := JsMap Text AssetEntryType

/-- The loop over the entries: the types of their paths, and the bytes of their files. -/
def validateEntries (kinds : AssetKinds) (size : Nat) :
    List TicketAssetEntryInput → Except TicketAssetError (AssetKinds × Nat)
  | [] => .ok (kinds, size)
  | entry :: rest =>
    match validateTicketAssetPath entry.path with
    | .error error => .error error
    | .ok () =>
      if kinds.has ⟨entry.path⟩ = true then .error (.duplicatePath entry.path)
      else validateEntries (kinds.set ⟨entry.path⟩ entry.type) (size + entry.size) rest

/-- `segments.slice(0, end).join('/')` for every `end` before the last. -/
def ancestorsOf (path : Text) : List Text :=
  let segments := segmentsOf path
  (List.range (segments.length - 1)).map fun i => [slash].intercalate (segments.take (i + 1))

/-- The paths that have a file as an ancestor, the first of them. -/
def fileAncestor? (kinds : AssetKinds) : Option (Text × Text) :=
  kinds.keys.findSome? fun key =>
    ((ancestorsOf key.key).find? fun ancestor => kinds.get? ⟨ancestor⟩ = some .file).map
      fun ancestor => (key.key, ancestor)

def validateTicketAssetStructure (input : TicketAssetInput) (limits : TicketAssetLimits) :
    Except TicketAssetError Nat := do
  validateTicketAssetLabel "kind" input.kind
  validateTicketAssetLabel "name" input.name
  let files := input.entries.filter fun entry => entry.type = .file
  if input.layout = .file ∧ (input.entries.length ≠ 1 ∨ files.length ≠ 1) then
    throw .notOneFile
  if input.layout = .file ∧ files.any (fun entry => slash ∈ entry.path) = true then
    throw .notAFilename
  if limits.maxEntries < input.entries.length then
    throw (.tooManyEntries input.entries.length limits.maxEntries)
  let (kinds, size) ← validateEntries ∅ 0 input.entries
  match fileAncestor? kinds with
  | some (path, ancestor) => throw (.fileAncestor path ancestor)
  | none =>
    if limits.maxBytes < size then throw (.tooManyBytes size limits.maxBytes)
    return size

/-- An entry with its content has the size of it. -/
def validateTicketAssetInput (input : TicketAssetInput) (limits : TicketAssetLimits) :
    Except TicketAssetError Nat :=
  validateTicketAssetStructure input limits

/-! ## 3. The request -/

/-- A digit of base64. -/
def base64Point (n : Nat) : CodePoint :=
  Fin.ofNat 0x110000
    (if n < 26 then 65 + n else if n < 52 then 71 + n else if n < 62 then n - 4
      else if n = 62 then 43 else 47)

def base64Padding : CodePoint := ⟨61, by decide⟩

/-- `Buffer.from(bytes).toString('base64')`. -/
def encodeBase64 : Bytes → Text
  | a :: b :: c :: rest =>
    base64Point (a.val / 4) :: base64Point (a.val % 4 * 16 + b.val / 16) ::
      base64Point (b.val % 16 * 4 + c.val / 64) :: base64Point (c.val % 64) :: encodeBase64 rest
  | [a, b] =>
    [base64Point (a.val / 4), base64Point (a.val % 4 * 16 + b.val / 16),
      base64Point (b.val % 16 * 4), base64Padding]
  | [a] => [base64Point (a.val / 4), base64Point (a.val % 4 * 16), base64Padding, base64Padding]
  | [] => []

def TicketAssetLayout.text : TicketAssetLayout → Text
  | .file => points "file"
  | .tree => points "tree"

def entryJson : TicketAssetEntryInput → StreamJson
  | .dir path => .obj [(points "type", .str (points "dir")), (points "path", .str path)]
  | .file path content =>
    .obj [(points "type", .str (points "file")), (points "path", .str path),
      (points "contentBase64", .str (encodeBase64 content))]

/-- The text that `putTicketAsset` sends. -/
def requestText (asset : TicketAssetInput) : Text :=
  stringify (.obj [(points "kind", .str asset.kind), (points "name", .str asset.name),
    (points "layout", .str asset.layout.text),
    (points "entries", .arr (asset.entries.map entryJson))])

/-- The exact check before the request: whether it is refused. -/
def refusesRequest (asset : TicketAssetInput) (maxRequestBytes : Nat) : Bool :=
  decide (maxRequestBytes < size (requestText asset))

/-! ## 4. What escaping adds -/

/-- The bytes that JSON adds to a code point. -/
def escapeGrowth (c : CodePoint) : Nat :=
  if c.val ∈ [8, 9, 10, 12, 13, 34, 92] then 1
  else if c.val < 32 then 5
  else if isSurrogate c then 3
  else 0

/-- The bytes that escaping adds to a path. -/
def pathGrowth (path : Text) : Nat := (path.map escapeGrowth).sum

/-- The bytes that escaping adds to the paths of an asset. -/
def assetGrowth (asset : TicketAssetInput) : Nat :=
  (asset.entries.map fun entry => pathGrowth entry.path).sum

theorem size_point_of_lt {c : CodePoint} (h : c.val < 128) : size [c] = 1 := by
  have hscalar : scalar c = c := by
    refine if_neg ?_
    simp only [isSurrogate, Bool.and_eq_true, decide_eq_true_eq, not_and]
    omega
  rw [size, encode_cons, encode_nil, List.append_nil, encodePoint, hscalar, encodeNat, if_pos h]
  rfl

theorem size_surrogate {c : CodePoint} (h : isSurrogate c = true) : size [c] = 3 := by
  rw [size, encode_cons, encode_nil, List.append_nil, encodePoint, scalar, if_pos h]
  rfl

theorem size_escape (c : CodePoint) : size (escape c) = size [c] + escapeGrowth c := by
  by_cases hshort : c.val ∈ [8, 9, 10, 12, 13, 34, 92]
  · rw [escapeGrowth, if_pos hshort]
    obtain ⟨n, hn⟩ := c
    simp only [List.mem_cons, List.not_mem_nil, or_false] at hshort
    obtain rfl | rfl | rfl | rfl | rfl | rfl | rfl := hshort <;> rfl
  · rw [escapeGrowth, if_neg hshort]
    simp only [List.mem_cons, List.not_mem_nil, or_false, not_or] at hshort
    obtain ⟨h8, h9, h10, h12, h13, h34, h92⟩ := hshort
    rw [escape, if_neg h8, if_neg h9, if_neg h10, if_neg h12, if_neg h13, if_neg h34, if_neg h92]
    by_cases hcontrol : c.val < 32
    · rw [if_pos hcontrol, if_pos hcontrol, size_unicodeEscape, size_point_of_lt (by omega)]
    · rw [if_neg hcontrol, if_neg hcontrol]
      by_cases hsurrogate : isSurrogate c = true
      · rw [if_pos hsurrogate, if_pos hsurrogate, size_unicodeEscape, size_surrogate hsurrogate]
      · rw [if_neg hsurrogate, if_neg hsurrogate, Nat.add_zero]

theorem size_quote (text : Text) : size (quote text) = size text + pathGrowth text + 2 := by
  have hbody : size (text.flatMap escape) = size text + pathGrowth text := by
    induction text with
    | nil => rfl
    | cons c text ih =>
      rw [List.flatMap_cons, size_append, size_cons c text, ih, size_escape, pathGrowth, pathGrowth,
        List.map_cons, List.sum_cons]
      omega
  have hmark : size (points "\"") = 1 := rfl
  rw [quote, size_append, size_append, hmark, hbody]
  omega

/-- A text whose code points are written as they are, with a byte for each. -/
def Plain (text : Text) : Prop := ∀ c ∈ text, 34 < c.val ∧ c.val < 127 ∧ c.val ≠ 92

theorem Plain.size_eq {text : Text} (h : Plain text) : size text = text.length := by
  induction text with
  | nil => rfl
  | cons c text ih =>
    obtain ⟨-, hlt, -⟩ := h c List.mem_cons_self
    rw [size_cons, size_point_of_lt (by omega), ih fun d hd => h d (List.mem_cons_of_mem _ hd),
      List.length_cons]
    omega

theorem escapeGrowth_of_plain {c : CodePoint} (h : 34 < c.val ∧ c.val < 127 ∧ c.val ≠ 92) :
    escapeGrowth c = 0 := by
  obtain ⟨hlow, hhigh, hslash⟩ := h
  have hsurrogate : ¬isSurrogate c = true := by
    simp only [isSurrogate, Bool.and_eq_true, decide_eq_true_eq, not_and]
    omega
  have hcontrol : ¬c.val < 32 := by omega
  have hshort : c.val ∉ [8, 9, 10, 12, 13, 34, 92] := by
    simp only [List.mem_cons, List.not_mem_nil, or_false, not_or]
    omega
  rw [escapeGrowth, if_neg hshort, if_neg hcontrol, if_neg hsurrogate]

theorem Plain.growth {text : Text} (h : Plain text) : pathGrowth text = 0 := by
  refine List.sum_eq_zero fun growth hgrowth => ?_
  obtain ⟨c, hc, rfl⟩ := List.mem_map.mp hgrowth
  exact escapeGrowth_of_plain (h c hc)

theorem Plain.quote {text : Text} (h : Plain text) :
    size (StreamJson.quote text) = text.length + 2 := by
  rw [size_quote, h.size_eq, h.growth]

theorem plain_base64Point {n : Nat} (h : n < 64) :
    34 < (base64Point n).val ∧ (base64Point n).val < 127 ∧ (base64Point n).val ≠ 92 := by
  have hall : ∀ m : Fin 64, 34 < (base64Point m).val ∧ (base64Point m).val < 127 ∧
      (base64Point m).val ≠ 92 := by decide
  exact hall ⟨n, h⟩

theorem plain_encodeBase64 (bytes : Bytes) : Plain (encodeBase64 bytes) := by
  have hpadding : 34 < base64Padding.val ∧ base64Padding.val < 127 ∧ base64Padding.val ≠ 92 := by
    decide
  have hfirst : ∀ a : Fin 256, a.val / 4 < 64 := fun a => by omega
  have hsecond : ∀ a b : Fin 256, a.val % 4 * 16 + b.val / 16 < 64 := fun a b => by omega
  have hthird : ∀ b c : Fin 256, b.val % 16 * 4 + c.val / 64 < 64 := fun b c => by omega
  intro point hpoint
  induction bytes using encodeBase64.induct with
  | case1 a b c rest ih =>
    simp only [encodeBase64, List.mem_cons] at hpoint
    obtain rfl | rfl | rfl | rfl | hrest := hpoint
    · exact plain_base64Point (hfirst a)
    · exact plain_base64Point (hsecond a b)
    · exact plain_base64Point (hthird b c)
    · exact plain_base64Point (Nat.mod_lt _ (by decide))
    · exact ih hrest
  | case2 a b =>
    simp only [encodeBase64, List.mem_cons, List.not_mem_nil, or_false] at hpoint
    obtain rfl | rfl | rfl | rfl := hpoint
    · exact plain_base64Point (hfirst a)
    · exact plain_base64Point (hsecond a b)
    · exact plain_base64Point (by omega)
    · exact hpadding
  | case3 a =>
    simp only [encodeBase64, List.mem_cons, List.not_mem_nil, or_false] at hpoint
    obtain rfl | rfl | rfl | rfl := hpoint
    · exact plain_base64Point (hfirst a)
    · exact plain_base64Point (by omega)
    · exact hpadding
    · exact hpadding
  | case4 => exact absurd hpoint List.not_mem_nil

theorem length_encodeBase64 (bytes : Bytes) :
    (encodeBase64 bytes).length = 4 * ((bytes.length + 2) / 3) := by
  induction bytes using encodeBase64.induct with
  | case1 a b c rest ih =>
    simp only [encodeBase64, List.length_cons, ih]
    omega
  | case2 a b => simp [encodeBase64]
  | case3 a => simp [encodeBase64]
  | case4 => rfl

/-! ## 5. The size of the request -/

/-- The bytes of an entry with its path written as it is. -/
def entryPlainBytes : TicketAssetEntryInput → Nat
  | .dir path => 24 + size path
  | .file path content => 44 + size path + 4 * ((content.length + 2) / 3)

/-- The bytes of the request with its paths written as they are. -/
def plainBytes (asset : TicketAssetInput) : Nat :=
  50 + size asset.kind + size asset.name + (asset.entries.map entryPlainBytes).sum +
    (asset.entries.length - 1)

theorem size_joinComma (texts : List Text) :
    size (joinComma texts) = (texts.map size).sum + (texts.length - 1) := by
  induction texts with
  | nil => rfl
  | cons text texts ih =>
    rw [joinComma_cons, List.map_cons, List.sum_cons, List.length_cons, Nat.add_sub_cancel]
    by_cases hnil : texts = []
    · simp [hnil]
    · have hpos := List.length_pos_of_ne_nil hnil
      rw [if_neg hnil, ih]
      omega

theorem stringifyItems_eq (items : List StreamJson) :
    stringifyItems items = items.map stringify := by
  induction items with
  | nil => rfl
  | cons item items ih => rw [stringifyItems, ih, List.map_cons]

theorem size_object (fields : StreamFields) :
    size (stringify (.obj fields)) =
      ((stringifyFields fields).map size).sum + (fields.length - 1) + 2 := by
  have hlength : (stringifyFields fields).length = fields.length := by
    induction fields with
    | nil => rfl
    | cons field fields ih => rw [stringifyFields, List.length_cons, ih, List.length_cons]
  rw [← fieldsSize, fieldsSize_eq, size_joinComma, hlength]

theorem size_entryJson (entry : TicketAssetEntryInput) :
    size (stringify (entryJson entry)) = entryPlainBytes entry + pathGrowth entry.path := by
  have htype : size (quote (points "type")) = 6 := rfl
  have hpath : size (quote (points "path")) = 6 := rfl
  have hdir : size (quote (points "dir")) = 5 := rfl
  have hfile : size (quote (points "file")) = 6 := rfl
  have hcontent : size (quote (points "contentBase64")) = 15 := rfl
  cases entry with
  | dir path =>
    rw [entryJson, size_object]
    simp only [stringifyFields, List.map_cons, List.map_nil, List.sum_cons, List.sum_nil,
      size_entry, List.length_cons, List.length_nil]
    simp only [stringify, htype, hpath, hdir, size_quote path, entryPlainBytes,
      TicketAssetEntryInput.path]
    omega
  | file path content =>
    rw [entryJson, size_object]
    simp only [stringifyFields, List.map_cons, List.map_nil, List.sum_cons, List.sum_nil,
      size_entry, List.length_cons, List.length_nil]
    simp only [stringify, htype, hpath, hfile, hcontent, size_quote path,
      (plain_encodeBase64 content).quote, length_encodeBase64, entryPlainBytes,
      TicketAssetEntryInput.path]
    omega

theorem size_requestText {asset : TicketAssetInput} (hkind : Plain asset.kind)
    (hname : Plain asset.name) :
    size (requestText asset) = plainBytes asset + assetGrowth asset := by
  have hkey : size (quote (points "kind")) = 6 := rfl
  have hnameKey : size (quote (points "name")) = 6 := rfl
  have hlayoutKey : size (quote (points "layout")) = 8 := rfl
  have hentriesKey : size (quote (points "entries")) = 9 := rfl
  have hlayout : size (quote asset.layout.text) = 6 := by
    cases asset.layout <;> rfl
  have hitems : size (stringify (.arr (asset.entries.map entryJson))) =
      (asset.entries.map entryPlainBytes).sum + assetGrowth asset + (asset.entries.length - 1) +
        2 := by
    have hopen : size (points "[") = 1 := rfl
    have hclose : size (points "]") = 1 := rfl
    have hsum : ((asset.entries.map entryJson).map fun item => size (stringify item)).sum =
        (asset.entries.map entryPlainBytes).sum + assetGrowth asset := by
      rw [assetGrowth, ← List.sum_map_add, List.map_map]
      exact congrArg List.sum (List.map_congr_left fun entry _ => size_entryJson entry)
    rw [stringify, size_append, size_append, hopen, hclose, size_joinComma, stringifyItems_eq,
      List.map_map, List.length_map, List.length_map]
    simp only [Function.comp_def]
    rw [hsum]
    omega
  rw [requestText, size_object]
  simp only [stringifyFields, List.map_cons, List.map_nil, List.sum_cons, List.sum_nil, size_entry,
    List.length_cons, List.length_nil, hkey, hnameKey, hlayoutKey, hentriesKey, hitems]
  simp only [stringify, hkind.quote, hname.quote, hlayout, plainBytes, hkind.size_eq, hname.size_eq]
  omega

/-! ## 6. What an accepted asset keeps -/

/-- What the validator checks of the sizes. -/
structure WithinLimits (asset : TicketAssetInput) (limits : TicketAssetLimits) : Prop where
  kind_plain : Plain asset.kind
  kind_length : asset.kind.length ≤ 64
  name_plain : Plain asset.name
  name_length : asset.name.length ≤ 64
  entries_length : asset.entries.length ≤ limits.maxEntries
  path_size : ∀ entry ∈ asset.entries, size entry.path ≤ 256
  bytes : (asset.entries.map TicketAssetEntryInput.size).sum ≤ limits.maxBytes

theorem plain_of_isLabelPoint {c : CodePoint} (h : isLabelPoint c = true) :
    34 < c.val ∧ c.val < 127 ∧ c.val ≠ 92 := by
  simp only [isLabelPoint, Bool.or_eq_true, Bool.and_eq_true, decide_eq_true_eq] at h
  omega

theorem plain_of_validateTicketAssetLabel {field : String} {value : Text}
    (h : validateTicketAssetLabel field value = .ok ()) : Plain value ∧ value.length ≤ 64 := by
  simp only [validateTicketAssetLabel] at h
  split at h
  · cases h
  split at h
  · cases h
  next hlong =>
  split at h
  · cases h
  next hpattern =>
  simp only [not_or, Bool.not_eq_false] at hpattern
  have hplain : Plain value := fun c hc =>
    plain_of_isLabelPoint (List.all_eq_true.mp hpattern.1 c hc)
  have hutf16 : utf16Length value = value.length := by
    have hones : (value.map fun c => if c.val < 0x10000 then 1 else 2) = value.map fun _ => 1 :=
      List.map_congr_left fun c hc => if_pos (by have := hplain c hc; omega)
    rw [utf16Length, hones, List.map_const', List.sum_replicate_nat, Nat.mul_one]
  have hlimit : TICKET_ASSET_MAX_LABEL_LENGTH = 64 := rfl
  exact ⟨hplain, by omega⟩

theorem size_of_validateTicketAssetPath {path : Text} (h : validateTicketAssetPath path = .ok ()) :
    size path ≤ 256 := by
  simp only [validateTicketAssetPath] at h
  split at h
  · cases h
  split at h
  · cases h
  split at h
  · cases h
  split at h
  · cases h
  next hlong => exact not_lt.mp hlong

theorem of_validateEntries {entries : List TicketAssetEntryInput} :
    ∀ {kinds kinds' : AssetKinds} {bytes bytes' : Nat},
      validateEntries kinds bytes entries = .ok (kinds', bytes') →
        (∀ entry ∈ entries, size entry.path ≤ 256) ∧
          bytes' = bytes + (entries.map TicketAssetEntryInput.size).sum := by
  induction entries with
  | nil =>
    intro kinds kinds' bytes bytes' h
    cases h
    exact ⟨fun _ hentry => absurd hentry List.not_mem_nil, rfl⟩
  | cons entry rest ih =>
    intro kinds kinds' bytes bytes' h
    simp only [validateEntries] at h
    split at h
    · cases h
    next hpath =>
    split at h
    · cases h
    obtain ⟨hrest, hbytes⟩ := ih h
    refine ⟨?_, ?_⟩
    · intro other hother
      rcases List.mem_cons.mp hother with rfl | hother
      · exact size_of_validateTicketAssetPath hpath
      · exact hrest other hother
    · rw [hbytes, List.map_cons, List.sum_cons, Nat.add_assoc]

/-- What an accepted asset has passed. -/
theorem of_validateTicketAssetInput {asset : TicketAssetInput} {limits : TicketAssetLimits}
    {bytes : Nat} (h : validateTicketAssetInput asset limits = .ok bytes) :
    validateTicketAssetLabel "kind" asset.kind = .ok () ∧
      validateTicketAssetLabel "name" asset.name = .ok () ∧
        asset.entries.length ≤ limits.maxEntries ∧
          (∃ kinds, validateEntries ∅ 0 asset.entries = .ok (kinds, bytes)) ∧
            bytes ≤ limits.maxBytes := by
  simp only [validateTicketAssetInput, validateTicketAssetStructure] at h
  rcases hkind : validateTicketAssetLabel "kind" asset.kind with _ | ⟨⟩
  · rw [hkind] at h
    cases h
  rcases hname : validateTicketAssetLabel "name" asset.name with _ | ⟨⟩
  · rw [hkind, hname] at h
    cases h
  rw [hkind, hname] at h
  simp only [bind, Except.bind, pure, Except.pure, throw, throwThe, MonadExceptOf.throw] at h
  split at h
  · cases h
  split at h
  · cases h
  split at h
  · cases h
  next hmany =>
  rcases hentries : validateEntries ∅ 0 asset.entries with _ | ⟨kinds, total⟩
  · rw [hentries] at h
    cases h
  rw [hentries] at h
  simp only at h
  split at h
  · cases h
  split at h
  · cases h
  next hbytes =>
  cases h
  exact ⟨rfl, rfl, not_lt.mp hmany, ⟨kinds, rfl⟩, not_lt.mp hbytes⟩

theorem withinLimits_of_validateTicketAssetInput {asset : TicketAssetInput}
    {limits : TicketAssetLimits} {bytes : Nat}
    (h : validateTicketAssetInput asset limits = .ok bytes) : WithinLimits asset limits := by
  obtain ⟨hkind, hname, hcount, ⟨kinds, hentries⟩, hbytes⟩ := of_validateTicketAssetInput h
  obtain ⟨hpaths, htotal⟩ := of_validateEntries hentries
  obtain ⟨hkindPlain, hkindLength⟩ := plain_of_validateTicketAssetLabel hkind
  obtain ⟨hnamePlain, hnameLength⟩ := plain_of_validateTicketAssetLabel hname
  rw [Nat.zero_add] at htotal
  exact ⟨hkindPlain, hkindLength, hnamePlain, hnameLength, hcount, hpaths, htotal ▸ hbytes⟩

/-! ## 7. The bound -/

theorem entryPlainBytes_le (entry : TicketAssetEntryInput) (h : size entry.path ≤ 256) :
    3 * entryPlainBytes entry ≤ 908 + 4 * entry.size := by
  cases entry with
  | dir path =>
    simp only [TicketAssetEntryInput.path] at h
    simp only [entryPlainBytes, TicketAssetEntryInput.size]
    omega
  | file path content =>
    simp only [TicketAssetEntryInput.path] at h
    simp only [entryPlainBytes, TicketAssetEntryInput.size]
    omega

theorem sum_entryPlainBytes_le {entries : List TicketAssetEntryInput}
    (h : ∀ entry ∈ entries, size entry.path ≤ 256) :
    3 * (entries.map entryPlainBytes).sum ≤
      908 * entries.length + 4 * (entries.map TicketAssetEntryInput.size).sum := by
  induction entries with
  | nil => simp
  | cons entry entries ih =>
    have hentry := entryPlainBytes_le entry (h entry List.mem_cons_self)
    have hrest := ih fun other hother => h other (List.mem_cons_of_mem _ hother)
    simp only [List.map_cons, List.sum_cons, List.length_cons]
    omega

/-- The constants leave room for a request whose paths need no escape. -/
theorem plainBytes_le {asset : TicketAssetInput} {maxRequestBytes : Nat}
    (hlimit : 0 < (effectiveTicketAssetLimits maxRequestBytes).maxBytes)
    (hasset : WithinLimits asset (effectiveTicketAssetLimits maxRequestBytes)) :
    plainBytes asset ≤ maxRequestBytes := by
  have hsum := sum_entryPlainBytes_le hasset.path_size
  have hbytes := hasset.bytes
  have hcount := hasset.entries_length
  have hkind := hasset.kind_length
  have hname := hasset.name_length
  rw [← hasset.kind_plain.size_eq] at hkind
  rw [← hasset.name_plain.size_eq] at hname
  simp only [effectiveTicketAssetLimits, WIRE_ENVELOPE_BYTES, TICKET_ASSET_MAX_ENTRIES,
    WIRE_ENTRY_BYTES, TICKET_ASSET_MAX_PATH_BYTES] at hlimit hbytes hcount
  rw [plainBytes]
  omega

/-- Within the published limits, the exact check of the request accepts an asset exactly if the
escapes of its paths fit beside the rest. -/
theorem request_fits_iff (maxRequestBytes : Nat) (asset : TicketAssetInput) (bytes : Nat)
    (hlimit : 0 < (effectiveTicketAssetLimits maxRequestBytes).maxBytes)
    (hvalid : validateTicketAssetInput asset (effectiveTicketAssetLimits maxRequestBytes) =
      .ok bytes) :
    plainBytes asset ≤ maxRequestBytes ∧
      (refusesRequest asset maxRequestBytes = false ↔
        assetGrowth asset ≤ maxRequestBytes - plainBytes asset) := by
  have hasset := withinLimits_of_validateTicketAssetInput hvalid
  have hplain := plainBytes_le hlimit hasset
  refine ⟨hplain, ?_⟩
  rw [refusesRequest, size_requestText hasset.kind_plain hasset.name_plain, decide_eq_false_iff_not]
  omega

/-- A directory with a file of three bytes, where the limit leaves three; the names are escaped. -/
def escapedNotes : TicketAssetInput where
  kind := points "notes"
  name := points "plan"
  layout := .tree
  entries := [.dir (points "a\x01"), .file (points "a\x01/plan.md") [1, 2, 3]]

theorem request_fits_of_notes :
    assetGrowth escapedNotes = 10 ∧ refusesRequest escapedNotes 321028 = false :=
  ⟨by decide, (request_fits_iff 321028 escapedNotes 3 (by decide) rfl).2.mpr (by decide)⟩

/-! ## 8. Paths of control characters -/

/-- A path of one segment, with no point that the validator refuses. -/
structure FlatPath (path : Text) : Prop where
  points_allowed : ∀ c ∈ path, c.val ≠ 0 ∧ c.val ≠ 92 ∧ c ≠ slash
  long : 2 < path.length
  short : size path ≤ 128

theorem FlatPath.segments {path : Text} (h : FlatPath path) : segmentsOf path = [path] := by
  refine List.splitOnP_eq_singleton fun c hc => ?_
  simpa using (h.points_allowed c hc).2.2

theorem FlatPath.valid {path : Text} (h : FlatPath path) :
    validateTicketAssetPath path = .ok () := by
  have hlong := h.long
  have hshort := h.short
  have hne : ∀ other : Text, other.length ≤ 2 → path ≠ other := by
    rintro other hother rfl
    omega
  have hnul : ¬path.any (·.val = 0) = true := by
    simp only [List.any_eq_true, decide_eq_true_eq, not_exists, not_and]
    exact fun c hc => (h.points_allowed c hc).1
  have hback : ¬path.any (·.val = 92) = true := by
    simp only [List.any_eq_true, decide_eq_true_eq, not_exists, not_and]
    exact fun c hc => (h.points_allowed c hc).2.1
  have hsize : ¬TICKET_ASSET_MAX_PATH_BYTES < size path := by
    simp only [TICKET_ASSET_MAX_PATH_BYTES]
    omega
  have hhead : path.head? ≠ some slash := fun hslash =>
    (h.points_allowed slash (List.mem_of_head? hslash)).2.2 rfl
  have hsegment : ¬TICKET_ASSET_MAX_SEGMENT_BYTES < size path := by
    simp only [TICKET_ASSET_MAX_SEGMENT_BYTES]
    omega
  have hdots : ¬(path = [] ∨ path = points "." ∨ path = points "..") := by
    simp only [not_or]
    exact ⟨hne _ (by decide), hne _ (by decide), hne _ (by decide)⟩
  rw [validateTicketAssetPath, if_neg (hne _ (by decide)), if_neg hnul, if_neg hback, if_neg hsize,
    if_neg hhead, h.segments, validateSegments, if_neg hdots, if_neg hsegment, validateSegments]

theorem FlatPath.ancestors {path : Text} (h : FlatPath path) : ancestorsOf path = [] := by
  rw [ancestorsOf, h.segments]
  rfl

theorem validateEntries_of_flat {entries : List TicketAssetEntryInput} :
    ∀ {kinds : AssetKinds} {bytes : Nat}, (∀ entry ∈ entries, FlatPath entry.path) →
      (entries.map TicketAssetEntryInput.path).Nodup →
        (∀ entry ∈ entries, (⟨entry.path⟩ : MapKey Text) ∉ kinds.keys) →
          (∀ key ∈ kinds.keys, FlatPath key.key) →
            ∃ kinds' : AssetKinds, validateEntries kinds bytes entries =
              .ok (kinds', bytes + (entries.map TicketAssetEntryInput.size).sum) ∧
                ∀ key ∈ kinds'.keys, FlatPath key.key := by
  induction entries with
  | nil => exact fun _ _ _ hkinds => ⟨_, rfl, hkinds⟩
  | cons entry rest ih =>
    intro kinds bytes hflat hnodup hfresh hkinds
    rw [List.map_cons, List.nodup_cons] at hnodup
    have hentry := hflat entry List.mem_cons_self
    have hnew : ¬kinds.has ⟨entry.path⟩ = true := by
      simpa [ObjectMap.has] using hfresh entry List.mem_cons_self
    obtain ⟨kinds', hresult, hkinds'⟩ :=
      @ih (kinds.set ⟨entry.path⟩ entry.type) (bytes + entry.size)
        (fun other hother => hflat other (List.mem_cons_of_mem _ hother)) hnodup.2
        (fun other hother hmem => by
          rcases ObjectMap.mem_keys_set.mp hmem with hsame | hmem
          · exact hnodup.1 (List.mem_map.mpr ⟨other, hother, congrArg MapKey.key hsame⟩)
          · exact hfresh other (List.mem_cons_of_mem _ hother) hmem)
        (fun key hkey => by
          rcases ObjectMap.mem_keys_set.mp hkey with rfl | hkey
          · exact hentry
          · exact hkinds key hkey)
    refine ⟨kinds', ?_, hkinds'⟩
    rw [validateEntries, hentry.valid]
    simp only [if_neg hnew]
    rw [hresult, List.map_cons, List.sum_cons, Nat.add_assoc]

/-- A tree of such paths is accepted, whatever else they are made of. -/
theorem validateTicketAssetInput_of_flat {asset : TicketAssetInput} {limits : TicketAssetLimits}
    (hkind : validateTicketAssetLabel "kind" asset.kind = .ok ())
    (hname : validateTicketAssetLabel "name" asset.name = .ok ()) (htree : asset.layout = .tree)
    (hcount : asset.entries.length ≤ limits.maxEntries)
    (hflat : ∀ entry ∈ asset.entries, FlatPath entry.path)
    (hnodup : (asset.entries.map TicketAssetEntryInput.path).Nodup)
    (hbytes : (asset.entries.map TicketAssetEntryInput.size).sum ≤ limits.maxBytes) :
    validateTicketAssetInput asset limits =
      .ok (asset.entries.map TicketAssetEntryInput.size).sum := by
  obtain ⟨kinds, hentries, hkinds⟩ := @validateEntries_of_flat asset.entries ∅ 0 hflat hnodup
    (fun _ _ hmem => List.not_mem_nil hmem) (fun _ hmem => absurd hmem List.not_mem_nil)
  have hancestor : fileAncestor? kinds = none := by
    rw [fileAncestor?, List.findSome?_eq_none_iff]
    intro key hkey
    rw [(hkinds key hkey).ancestors]
    rfl
  rw [Nat.zero_add] at hentries
  simp only [validateTicketAssetInput, validateTicketAssetStructure, hkind, hname, htree,
    hentries, hancestor, bind, Except.bind, pure, Except.pure, reduceCtorEq, false_and, if_false,
    if_neg hcount.not_gt, if_neg hbytes.not_gt]

/-- A hundred and twenty code points that JSON writes as `\\u0001`, and one of its own. -/
def controlPath (i : Fin 500) : Text :=
  List.replicate 120 ⟨1, by decide⟩ ++ [⟨0x4E00 + i.val, by omega⟩]

def controlAsset : TicketAssetInput :=
  ⟨points "notes", points "plan", .tree, (List.finRange 500).map fun i => .dir (controlPath i)⟩

theorem size_replicate (n : Nat) (c : CodePoint) : size (List.replicate n c) = n * size [c] := by
  induction n with
  | zero => simp
  | succ n ih => rw [List.replicate_succ, size_cons, ih, Nat.succ_mul, Nat.add_comm]

theorem size_ideograph (n : Nat) (h : 0x4E00 + n < 0xD800) :
    size [(⟨0x4E00 + n, by omega⟩ : CodePoint)] = 3 := by
  have hscalar : scalar (⟨0x4E00 + n, by omega⟩ : CodePoint) = ⟨0x4E00 + n, by omega⟩ := by
    refine if_neg ?_
    simp only [isSurrogate, Bool.and_eq_true, decide_eq_true_eq, not_and]
    omega
  rw [size, encode_cons, encode_nil, List.append_nil, encodePoint, hscalar]
  dsimp only
  rw [encodeNat, if_neg (by omega), if_neg (by omega), if_pos (by omega)]
  rfl

theorem size_controlPath (i : Fin 500) : size (controlPath i) = 123 := by
  have hone : size [(⟨1, by decide⟩ : CodePoint)] = 1 := rfl
  rw [controlPath, size_append, size_replicate, hone, size_ideograph i.val (by omega)]

theorem flatPath_controlPath (i : Fin 500) : FlatPath (controlPath i) where
  points_allowed := by
    intro c hc
    rcases List.mem_append.mp hc with hc | hc
    · rw [List.eq_of_mem_replicate hc]
      decide
    · rw [List.mem_singleton.mp hc, ne_eq, ne_eq, ne_eq, Fin.ext_iff, slash]
      dsimp only
      omega
  long := by
    rw [controlPath, List.length_append, List.length_replicate]
    omega
  short := by
    rw [size_controlPath]
    decide

theorem pathGrowth_controlPath (i : Fin 500) : 600 ≤ pathGrowth (controlPath i) := by
  have hone : escapeGrowth ⟨1, by decide⟩ = 5 := rfl
  rw [pathGrowth, controlPath, List.map_append, List.sum_append, List.map_replicate,
    List.sum_replicate_nat, hone]
  omega

theorem controlPath_injective : Function.Injective controlPath := by
  intro i j h
  have hlast := List.append_cancel_left h
  simp only [List.cons.injEq, and_true, Fin.mk.injEq] at hlast
  omega

/-- The published limit is three bytes, the asset has no byte of content at all, and its request
is refused. -/
theorem request_refused_of_control :
    (effectiveTicketAssetLimits 321028).maxBytes = 3 ∧
      validateTicketAssetInput controlAsset (effectiveTicketAssetLimits 321028) = .ok 0 ∧
        refusesRequest controlAsset 321028 = true := by
  have hsizes : (controlAsset.entries.map TicketAssetEntryInput.size).sum = 0 := by
    refine List.sum_eq_zero fun bytes hbytes => ?_
    simp only [controlAsset, List.map_map, List.mem_map] at hbytes
    obtain ⟨i, -, rfl⟩ := hbytes
    rfl
  have hvalid : validateTicketAssetInput controlAsset (effectiveTicketAssetLimits 321028) =
      .ok 0 := by
    rw [← hsizes]
    refine validateTicketAssetInput_of_flat rfl rfl rfl ?_ ?_ ?_ ?_
    · simp [controlAsset, effectiveTicketAssetLimits, TICKET_ASSET_MAX_ENTRIES]
    · intro entry hentry
      simp only [controlAsset, List.mem_map] at hentry
      obtain ⟨i, -, rfl⟩ := hentry
      exact flatPath_controlPath i
    · have hpaths : controlAsset.entries.map TicketAssetEntryInput.path =
          (List.finRange 500).map controlPath := by
        rw [controlAsset, List.map_map]
        rfl
      rw [hpaths]
      exact List.Nodup.map controlPath_injective (List.nodup_finRange 500)
    · rw [hsizes]
      exact Nat.zero_le _
  have hasset := withinLimits_of_validateTicketAssetInput hvalid
  have hgrowth : 500 * 600 ≤ assetGrowth controlAsset := by
    have hsum := List.card_nsmul_le_sum
      (controlAsset.entries.map fun entry => pathGrowth entry.path) 600 (by
        intro growth hgrowth
        simp only [controlAsset, List.map_map, List.mem_map] at hgrowth
        obtain ⟨i, -, rfl⟩ := hgrowth
        exact pathGrowth_controlPath i)
    simpa [assetGrowth, controlAsset] using hsum
  have hplain : 500 * 147 ≤ plainBytes controlAsset := by
    have hsum := List.card_nsmul_le_sum (controlAsset.entries.map entryPlainBytes) 147 (by
      intro bytes hbytes
      simp only [controlAsset, List.map_map, List.mem_map] at hbytes
      obtain ⟨i, -, rfl⟩ := hbytes
      simp only [Function.comp_def, entryPlainBytes, size_controlPath]
      exact le_rfl)
    have hsum' : 500 * 147 ≤ (controlAsset.entries.map entryPlainBytes).sum := by
      simpa [controlAsset] using hsum
    rw [plainBytes]
    omega
  refine ⟨by decide, hvalid, ?_⟩
  rw [refusesRequest, size_requestText hasset.kind_plain hasset.name_plain, decide_eq_true_eq]
  omega

end Autobuild
