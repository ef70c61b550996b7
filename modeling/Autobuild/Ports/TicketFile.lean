/-
# Ticket files

A ticket file is a TOML frontmatter between two `+++` fences and a body.  The closing fence is
found by a search of the text, and the fields of the frontmatter are written by rules of their
own.

* `cutAtFence_lines`: no line that TOML writes starts like the fence, so the search stops at the
  one that was written.
* `frontmatterFields_data`: the schema reads back what is written, but for the values that stand
  for absence (`Frontmatter.normalize`).
* `parse_serialize`: the round trip.

The TOML library is a parameter.  A parser may list the keys of a table in another order than
they were written in, so what it returns is compared by `Same`.
-/
import Autobuild.Events.Payloads
import Autobuild.Store.TicketAssets

namespace Autobuild.TicketFile

open Utf8
open JsText (MAX_SAFE_INTEGER)

/-! ## 1. TOML -/

/-- A TOML value; `other` is one of a type that no field has. -/
inductive Toml where
  | str (text : Text)
  | int (n : Int)
  | other (text : Text)
  | arr (items : List Toml)
  | table (fields : List (String × Toml))

abbrev Table := List (String × Toml)

/-- Equal but for the order of keys. -/
inductive Same : Toml → Toml → Prop where
  | str (text : Text) : Same (.str text) (.str text)
  | int (n : Int) : Same (.int n) (.int n)
  | other (text : Text) : Same (.other text) (.other text)
  | arr {xs ys : List Toml} (length : xs.length = ys.length)
      (items : ∀ (i : Nat) x y, xs[i]? = some x → ys[i]? = some y → Same x y) :
      Same (.arr xs) (.arr ys)
  | table {xs ys : Table}
      (keys : ∀ key, (xs.lookup key).isSome = (ys.lookup key).isSome)
      (fields : ∀ key x y, xs.lookup key = some x → ys.lookup key = some y → Same x y) :
      Same (.table xs) (.table ys)

theorem Same.refl : ∀ value, Same value value
  | .str text => .str text
  | .int n => .int n
  | .other text => .other text
  | .arr items => .arr rfl fun i x y hx hy => by
    have hsame := Option.some.inj (hx.symm.trans hy)
    have := List.sizeOf_lt_of_mem (List.mem_of_getElem? hx)
    exact hsame ▸ Same.refl x
  | .table fields => .table (fun _ => rfl) fun key x y hx hy => by
    have hsame := Option.some.inj (hx.symm.trans hy)
    obtain ⟨before, after, hfields, -⟩ := List.lookup_eq_some_iff.mp hx
    have hsize : sizeOf (key, x) = 1 + sizeOf key + sizeOf x := rfl
    have := List.sizeOf_lt_of_mem
      (hfields ▸ List.mem_append_right before List.mem_cons_self : (key, x) ∈ fields)
    exact hsame ▸ Same.refl x

structure TomlLibrary where
  stringify : Table → Text
  parse : Text → Except Text Toml

def newline : CodePoint := ⟨10, by decide⟩

/-- What a line of TOML can start with: a bare key, a quoted key or the bracket of a header. -/
def startsLine (c : CodePoint) : Bool :=
  (65 ≤ c.val && c.val ≤ 90) || (97 ≤ c.val && c.val ≤ 122) || (48 ≤ c.val && c.val ≤ 57) ||
    c.val ∈ [45, 95, 34, 39, 91]

/-- The lines of a document, each with its end. -/
def document (lines : List Text) : Text := lines.flatMap (· ++ [newline])

/-- What the codec relies on, for one table: every key is written on a line of its own with its
value, and the document is parsed again, also without the end of its last line. -/
structure TomlLibrary.RoundTrips (toml : TomlLibrary) (table : Table) : Prop where
  lines : ∃ lines, lines ≠ [] ∧ toml.stringify table = document lines ∧
    ∀ line ∈ lines, newline ∉ line ∧ ∀ c ∈ line.head?, startsLine c = true
  parses : ∀ text, toml.stringify table = text ++ [newline] →
    ∃ parsed, toml.parse text = .ok parsed ∧ Same parsed (.table table)

/-! ## 2. The schema -/

inductive TicketKind where
  | work
  | node
  deriving DecidableEq

inductive TicketPriority where
  | urgent
  | normal
  deriving DecidableEq

structure TicketComment where
  body : Text
  createdAt : Text
  author : Option Text
  deriving DecidableEq

inductive PortableEntry where
  | dir (path : Text)
  | file (path base64 : Text)
  deriving DecidableEq

structure PortableAsset where
  kind : Text
  name : Text
  layout : TicketAssetLayout
  entries : List PortableEntry
  deriving DecidableEq

structure FileIssueLink where
  issue : Int
  intent : LinkIntent
  deriving DecidableEq

structure Frontmatter where
  kind : Option TicketKind
  target : Option Text
  comments : Option (List TicketComment)
  attachments : Option (List PortableAsset)
  id : Text
  title : Text
  labels : List Text
  blockedBy : Option (List Text)
  issueLinks : Option (List FileIssueLink)
  priority : Option TicketPriority
  idempotencyKey : Option Text
  deriving DecidableEq

/-- The value of a digit of base64. -/
def base64Digit (c : CodePoint) : Option Nat :=
  if 65 ≤ c.val ∧ c.val ≤ 90 then some (c.val - 65)
  else if 97 ≤ c.val ∧ c.val ≤ 122 then some (c.val - 71)
  else if 48 ≤ c.val ∧ c.val ≤ 57 then some (c.val + 4)
  else if c.val = 43 then some 62
  else if c.val = 47 then some 63
  else none

/-- The pattern of `base64`: groups of four digits, the last one may be padded. -/
def isBase64 : Text → Bool
  | [] => true
  | [a, b, c, d] =>
    (base64Digit a).isSome && (base64Digit b).isSome &&
      ((base64Digit c).isSome && (base64Digit d).isSome ||
        (base64Digit c).isSome && d = base64Padding || c = base64Padding && d = base64Padding)
  | a :: b :: c :: d :: rest => [a, b, c, d].all (fun x => (base64Digit x).isSome) && isBase64 rest
  | _ => false

def base64Byte (n : Nat) : Fin 256 := Fin.ofNat 256 n

/-- `Buffer.from(text, 'base64')` of a text with that pattern. -/
def decodeBase64 : Text → Bytes
  | a :: b :: c :: d :: rest =>
    let value := fun x => (base64Digit x).getD 0
    let first := base64Byte (value a * 4 + value b / 16)
    let second := base64Byte (value b * 16 + value c / 4)
    let third := base64Byte (value c * 64 + value d)
    if c = base64Padding then [first]
    else if d = base64Padding then [first, second]
    else first :: second :: third :: decodeBase64 rest
  | _ => []

def decodePortableAsset (asset : PortableAsset) : TicketAssetInput where
  kind := asset.kind
  name := asset.name
  layout := asset.layout
  entries := asset.entries.map fun
    | .dir path => .dir path
    | .file path base64 => .file path (decodeBase64 base64)

def DEFAULT_TICKET_ASSET_LIMITS : TicketAssetLimits :=
  ⟨TICKET_ASSET_MAX_BYTES, TICKET_ASSET_MAX_ENTRIES⟩

/-- The checks of `portableAssetSchema`. -/
def PortableAsset.valid (asset : PortableAsset) : Bool :=
  asset.entries.all (fun
    | .dir _ => true
    | .file _ base64 => isBase64 base64) &&
  (validateTicketAssetInput (decodePortableAsset asset) DEFAULT_TICKET_ASSET_LIMITS).toBool

/-- The checks of `frontmatterSchema` on the values of the fields. -/
def Frontmatter.valid (front : Frontmatter) : Bool :=
  front.target.all (fun target => !target.all isWhiteSpace) &&
    front.attachments.all (fun assets =>
      assets.all PortableAsset.valid &&
        decide (assets.map fun asset => asset.kind ++ slash :: asset.name).Nodup) &&
    decide (front.id ≠ []) && decide (front.title ≠ []) &&
    front.issueLinks.all (fun links =>
      links.all (fun link => decide (0 < link.issue ∧ link.issue ≤ MAX_SAFE_INTEGER)) &&
        decide (links.map (·.issue)).Nodup) &&
    front.idempotencyKey.all (fun key => decide (key ≠ []))

/-! ### Reading values -/

abbrev Reader (α : Type) := Toml → Option α

def readText : Reader Text
  | .str text => some text
  | _ => none

def readInt : Reader Int
  | .int n => some n
  | _ => none

def readEnum {α : Type} (cases : List (Text × α)) : Reader α := fun value =>
  (readText value).bind fun text => cases.lookup text

def readArray {α : Type} (read : Reader α) : Reader (List α)
  | .arr items => items.mapM read
  | _ => none

/-- `z.strictObject`: a table without keys that are not known. -/
def strictObject {α : Type} (known : List String) (fields : Table → Option α) : Reader α
  | .table properties =>
    if properties.all fun property => decide (property.1 ∈ known) then fields properties else none
  | _ => none

def required {α : Type} (read : Reader α) (properties : Table) (key : String) : Option α :=
  (properties.lookup key).bind read

def optional {α : Type} (read : Reader α) (properties : Table) (key : String) :
    Option (Option α) :=
  match properties.lookup key with
  | none => some none
  | some value => (read value).map some

def readKind : Reader TicketKind := readEnum [(points "work", .work), (points "node", .node)]

def readPriority : Reader TicketPriority :=
  readEnum [(points "urgent", .urgent), (points "normal", .normal)]

def readIntent : Reader LinkIntent := readEnum [(points "closes", .closes), (points "refs", .refs)]

def readLayout : Reader TicketAssetLayout :=
  readEnum [(points "file", .file), (points "tree", .tree)]

def readComment : Reader TicketComment :=
  strictObject ["body", "createdAt", "author"] fun properties => do
    let body ← required readText properties "body"
    let createdAt ← required readText properties "createdAt"
    let author ← optional readText properties "author"
    return { body, createdAt, author }

def readIssueLink : Reader FileIssueLink :=
  strictObject ["issue", "intent"] fun properties => do
    let issue ← required readInt properties "issue"
    let intent ← required readIntent properties "intent"
    return { issue, intent }

def readDirEntry : Reader PortableEntry :=
  strictObject ["type", "path"] fun properties =>
    (required readText properties "path").map .dir

def readFileEntry : Reader PortableEntry :=
  strictObject ["type", "path", "base64"] fun properties => do
    let path ← required readText properties "path"
    let base64 ← required readText properties "base64"
    return .file path base64

/-- `z.discriminatedUnion('type', …)`. -/
def readEntry : Reader PortableEntry
  | .table properties => do
    let type ← required (readEnum [(points "dir", AssetEntryType.dir), (points "file", .file)])
      properties "type"
    match type with
    | .dir => readDirEntry (.table properties)
    | .file => readFileEntry (.table properties)
  | _ => none

def readAsset : Reader PortableAsset :=
  strictObject ["kind", "name", "layout", "entries"] fun properties => do
    let kind ← required readText properties "kind"
    let name ← required readText properties "name"
    let layout ← required readLayout properties "layout"
    let entries ← required (readArray readEntry) properties "entries"
    return { kind, name, layout, entries }

def frontmatterFields : Reader Frontmatter :=
  strictObject ["id", "title", "kind", "target", "labels", "blockedBy", "issueLinks", "priority",
      "idempotencyKey", "comments", "attachments"] fun properties => do
    let kind ← optional readKind properties "kind"
    let target ← optional readText properties "target"
    let comments ← optional (readArray readComment) properties "comments"
    let attachments ← optional (readArray readAsset) properties "attachments"
    let id ← required readText properties "id"
    let title ← required readText properties "title"
    let labels ← optional (readArray readText) properties "labels"
    let blockedBy ← optional (readArray readText) properties "blockedBy"
    let issueLinks ← optional (readArray readIssueLink) properties "issueLinks"
    let priority ← optional readPriority properties "priority"
    let idempotencyKey ← optional readText properties "idempotencyKey"
    return { kind, target, comments, attachments, id, title, labels := labels.getD [], blockedBy,
             issueLinks, priority, idempotencyKey }

def frontmatterSchema : Reader Frontmatter := fun value =>
  (frontmatterFields value).filter Frontmatter.valid

/-! ## 3. The codec -/

def OPEN_FENCE : Text := points "+++\n"

def CLOSE_FENCE : Text := points "\n+++\n"

/-- `TicketFileValidationError`, by what its message says of the file. -/
inductive TicketFileValidationError where
  | missingOpeningFence (path : String)
  | missingClosingFence (path : String)
  | malformedToml (path : String) (message : Text)
  | invalidFrontmatter (path : String)
  deriving DecidableEq

/-- The texts before and after the first closing fence. -/
def cutAtFence : Text → Option (Text × Text)
  | [] => none
  | c :: rest =>
    if CLOSE_FENCE.isPrefixOf (c :: rest) then some ([], (c :: rest).drop CLOSE_FENCE.length)
    else (cutAtFence rest).map fun parts => (c :: parts.1, parts.2)

structure ParsedTicketFile where
  front : Frontmatter
  body : Text
  deriving DecidableEq

def parseTicketFile (toml : TomlLibrary) (path : String) (raw : Text) :
    Except TicketFileValidationError ParsedTicketFile :=
  if !OPEN_FENCE.isPrefixOf raw then .error (.missingOpeningFence path)
  else
    match cutAtFence (raw.drop OPEN_FENCE.length) with
    | none => .error (.missingClosingFence path)
    | some (text, body) =>
      match toml.parse text with
      | .error message => .error (.malformedToml path message)
      | .ok parsed =>
        match frontmatterSchema parsed with
        | none => .error (.invalidFrontmatter path)
        | some front => .ok ⟨front, body⟩

/-! ### Writing values -/

/-- The properties that are there. -/
def present (properties : List (String × Option Toml)) : Table :=
  properties.filterMap fun property => property.2.map fun value => (property.1, value)

def textsToml (texts : List Text) : Toml := .arr (texts.map .str)

def TicketComment.toml (comment : TicketComment) : Toml :=
  .table (present [("body", some (.str comment.body)),
    ("createdAt", some (.str comment.createdAt)), ("author", comment.author.map .str)])

def intentText : LinkIntent → Text
  | .closes => points "closes"
  | .refs => points "refs"

def FileIssueLink.toml (link : FileIssueLink) : Toml :=
  .table (present [("issue", some (.int link.issue)),
    ("intent", some (.str (intentText link.intent)))])

def PortableEntry.toml : PortableEntry → Toml
  | .dir path => .table (present [("type", some (.str (points "dir"))), ("path", some (.str path))])
  | .file path base64 =>
    .table (present [("type", some (.str (points "file"))), ("path", some (.str path)),
      ("base64", some (.str base64))])

def PortableAsset.properties (asset : PortableAsset) : List (String × Option Toml) :=
  [("kind", some (.str asset.kind)), ("name", some (.str asset.name)),
    ("layout", some (.str asset.layout.text)),
    ("entries", some (.arr (asset.entries.map PortableEntry.toml)))]

def PortableAsset.toml (asset : PortableAsset) : Toml := .table (present asset.properties)

/-- What `serializeTicketFile` puts into its `data`, each under its condition. -/
def Frontmatter.properties (front : Frontmatter) : List (String × Option Toml) :=
  [ ("id", some (.str front.id)),
    ("title", some (.str front.title)),
    ("kind", if front.kind = some .node then some (.str (points "node")) else none),
    ("target", front.target.map .str),
    ("labels", if 0 < front.labels.length then some (textsToml front.labels) else none),
    ("blockedBy", (front.blockedBy.filter fun ids => 0 < ids.length).map textsToml),
    ("issueLinks", (front.issueLinks.filter fun links => 0 < links.length).map
      fun links => .arr (links.map FileIssueLink.toml)),
    ("priority", if front.priority = some .urgent then some (.str (points "urgent")) else none),
    ("idempotencyKey", front.idempotencyKey.map .str),
    ("comments", front.comments.map fun comments => .arr (comments.map TicketComment.toml)),
    ("attachments", front.attachments.map fun assets => .arr (assets.map PortableAsset.toml))]

/-- The `data` of `serializeTicketFile`. -/
def Frontmatter.data (front : Frontmatter) : Table := present front.properties

def serializeTicketFile (toml : TomlLibrary) (front : Frontmatter) (body : Text) : Text :=
  OPEN_FENCE ++ toml.stringify front.data ++ points "+++\n" ++ body

/-- Without the values that stand for absence. -/
def Frontmatter.normalize (front : Frontmatter) : Frontmatter :=
  { front with
    kind := front.kind.filter fun kind => kind = .node
    blockedBy := front.blockedBy.filter fun ids => 0 < ids.length
    issueLinks := front.issueLinks.filter fun links => 0 < links.length
    priority := front.priority.filter fun priority => priority = .urgent }

/-! ## 4. The closing fence -/

theorem cutAtFence_cons {c : CodePoint} {rest : Text}
    (h : CLOSE_FENCE.isPrefixOf (c :: rest) = false) :
    cutAtFence (c :: rest) = (cutAtFence rest).map fun parts => (c :: parts.1, parts.2) := by
  rw [cutAtFence, h, if_neg Bool.false_ne_true]

/-- The fence does not begin inside a line. -/
theorem cutAtFence_line {rest : Text} : ∀ {line : Text}, newline ∉ line →
    cutAtFence (line ++ rest) = (cutAtFence rest).map fun parts => (line ++ parts.1, parts.2)
  | [], _ => by
    rw [List.nil_append]
    cases cutAtFence rest <;> rfl
  | c :: line, hline => by
    obtain ⟨hc, hline⟩ := not_or.mp (mt List.mem_cons.mpr hline)
    have hfence : CLOSE_FENCE.isPrefixOf (c :: (line ++ rest)) = false := by
      refine Bool.eq_false_iff.mpr fun h => hc ?_
      obtain ⟨after, hafter⟩ := List.isPrefixOf_iff_prefix.mp h
      exact (List.cons.inj hafter).1
    rw [List.cons_append, cutAtFence_cons hfence, cutAtFence_line hline, Option.map_map]
    rfl

theorem cutAtFence_fence (body : Text) : cutAtFence (CLOSE_FENCE ++ body) = some ([], body) := by
  have hprefix : CLOSE_FENCE.isPrefixOf (CLOSE_FENCE ++ body) = true :=
    List.isPrefixOf_iff_prefix.mpr (List.prefix_append _ _)
  obtain ⟨c, rest, hcons⟩ : ∃ c rest, CLOSE_FENCE ++ body = c :: rest := ⟨_, _, rfl⟩
  rw [hcons, cutAtFence, ← hcons, hprefix, if_pos rfl, List.drop_left]

/-- A line that TOML writes is not the fence. -/
theorem not_fence_of_startsLine {line rest : Text} (hstart : ∀ c ∈ line.head?, startsLine c = true)
    (hrest : line = [] → rest.head? = some newline) :
    CLOSE_FENCE.isPrefixOf (newline :: (line ++ rest)) = false := by
  refine Bool.eq_false_iff.mpr fun h => ?_
  obtain ⟨after, hafter⟩ := List.isPrefixOf_iff_prefix.mp h
  have hplus : (line ++ rest).head? = some ⟨43, by decide⟩ := by
    rw [← (List.cons.inj hafter).2]
    rfl
  cases line with
  | nil =>
    rw [List.nil_append, hrest rfl] at hplus
    exact absurd hplus (by decide)
  | cons c line =>
    rw [List.cons_append, List.head?_cons, Option.some_inj] at hplus
    have := hstart c rfl
    rw [hplus] at this
    exact absurd this (by decide)

theorem document_cons (line : Text) (lines : List Text) :
    document (line :: lines) = line ++ newline :: document lines := by
  rw [document, List.flatMap_cons, List.append_assoc]
  rfl

theorem closeFence_eq : CLOSE_FENCE = newline :: points "+++\n" := rfl

/-- **The search finds the fence that was written.** -/
theorem cutAtFence_lines (body : Text) : ∀ {lines : List Text}, lines ≠ [] →
    (∀ line ∈ lines, newline ∉ line ∧ ∀ c ∈ line.head?, startsLine c = true) →
      ∃ text, document lines = text ++ [newline] ∧
        cutAtFence (document lines ++ points "+++\n" ++ body) = some (text, body)
  | [], hne, _ => absurd rfl hne
  | [line], _, hlines => by
    obtain ⟨hline, -⟩ := hlines line List.mem_cons_self
    refine ⟨line, document_cons line [], ?_⟩
    have hsplit : document [line] ++ points "+++\n" ++ body = line ++ (CLOSE_FENCE ++ body) := by
      rw [document_cons, closeFence_eq]
      simp only [document, List.flatMap_nil, List.append_assoc, List.cons_append, List.nil_append]
    rw [hsplit, cutAtFence_line hline, cutAtFence_fence, Option.map_some, List.append_nil]
  | line :: next :: lines, _, hlines => by
    obtain ⟨text, htext, hcut⟩ := cutAtFence_lines body (List.cons_ne_nil next lines)
      fun other hother => hlines other (List.mem_cons_of_mem _ hother)
    obtain ⟨hline, -⟩ := hlines line List.mem_cons_self
    obtain ⟨-, hnext⟩ := hlines next (List.mem_cons_of_mem _ List.mem_cons_self)
    refine ⟨line ++ newline :: text, ?_, ?_⟩
    · rw [document_cons, htext, List.append_assoc]
      rfl
    have hfence : CLOSE_FENCE.isPrefixOf
        (newline :: (document (next :: lines) ++ points "+++\n" ++ body)) = false := by
      rw [document_cons, List.append_assoc, List.append_assoc]
      exact not_fence_of_startsLine hnext fun _ => rfl
    rw [document_cons, List.append_assoc, List.append_assoc, List.cons_append,
      cutAtFence_line hline, ← List.append_assoc, cutAtFence_cons hfence, hcut]
    rfl

/-! ## 5. Reading does not depend on the order of keys -/

def Respects {α : Type} (read : Reader α) : Prop := ∀ {a b}, Same a b → read a = read b

theorem mem_keys_iff {ν : Type} {properties : List (String × ν)} {key : String} :
    (∃ value, (key, value) ∈ properties) ↔ (properties.lookup key).isSome = true := by
  induction properties with
  | nil => simp
  | cons property rest ih =>
    rw [List.lookup_cons]
    by_cases h : key = property.1
    · rw [beq_iff_eq.mpr h]
      exact ⟨fun _ => rfl, fun _ => ⟨property.2, h ▸ List.mem_cons_self⟩⟩
    · rw [beq_eq_false_iff_ne.mpr h, ← ih]
      refine exists_congr fun value => ⟨fun hmem => ?_, List.mem_cons_of_mem _⟩
      rcases List.mem_cons.mp hmem with heq | hmem
      · exact absurd (congrArg Prod.fst heq) h
      · exact hmem

theorem allKnown_iff {known : List String} {properties : Table} :
    (properties.all fun property => decide (property.1 ∈ known)) = true ↔
      ∀ key, (properties.lookup key).isSome = true → key ∈ known := by
  rw [List.all_eq_true]
  constructor
  · intro h key hkey
    obtain ⟨value, hmem⟩ := mem_keys_iff.mpr hkey
    exact of_decide_eq_true (h _ hmem)
  · intro h property hmem
    exact decide_eq_true (h _ (mem_keys_iff.mp ⟨property.2, hmem⟩))

theorem respects_readText : Respects readText := by
  intro a b h
  cases h <;> rfl

theorem respects_readInt : Respects readInt := by
  intro a b h
  cases h <;> rfl

theorem respects_readEnum {α : Type} (cases : List (Text × α)) : Respects (readEnum cases) := by
  intro a b h
  rw [readEnum, readEnum, respects_readText h]

theorem respects_readArray {α : Type} {read : Reader α} (hread : Respects read) :
    Respects (readArray read) := by
  have hitems : ∀ xs ys : List Toml, xs.length = ys.length →
      (∀ (i : Nat) x y, xs[i]? = some x → ys[i]? = some y → Same x y) →
        xs.mapM read = ys.mapM read := by
    intro xs
    induction xs with
    | nil =>
      intro ys hlength _
      rw [List.length_eq_zero_iff.mp hlength.symm]
    | cons x xs ih =>
      intro ys hlength hsame
      cases ys with
      | nil => exact absurd hlength (by simp)
      | cons y ys =>
        have hrest := ih ys (Nat.succ.inj hlength) fun i a b ha hb =>
          hsame (i + 1) a b (by rwa [List.getElem?_cons_succ]) (by rwa [List.getElem?_cons_succ])
        rw [List.mapM_cons, List.mapM_cons, hread (hsame 0 x y rfl rfl), hrest]
  intro a b h
  cases h with
  | arr hlength hsame => exact hitems _ _ hlength hsame
  | _ => rfl

theorem respects_strictObject {α : Type} {known : List String} {fields : Table → Option α}
    (hfields : ∀ {xs ys : Table}, Same (.table xs) (.table ys) → fields xs = fields ys) :
    Respects (strictObject known fields) := by
  intro a b h
  have hab := h
  cases h with
  | table hkeys _ =>
    rw [strictObject, strictObject, hfields hab]
    refine if_congr ?_ rfl rfl
    rw [allKnown_iff, allKnown_iff]
    exact forall_congr' fun key => by rw [hkeys key]
  | _ => rfl

theorem lookup_of_same {xs ys : Table} (h : Same (.table xs) (.table ys)) (key : String) :
    (xs.lookup key = none ∧ ys.lookup key = none) ∨
      ∃ x y, xs.lookup key = some x ∧ ys.lookup key = some y ∧ Same x y := by
  cases h with
  | table hkeys hfields =>
    have hkey := hkeys key
    cases hx : xs.lookup key with
    | none =>
      rw [hx] at hkey
      exact .inl ⟨rfl, Option.isNone_iff_eq_none.mp (Option.isSome_eq_false_iff.mp hkey.symm)⟩
    | some x =>
      rw [hx] at hkey
      obtain ⟨y, hy⟩ := Option.isSome_iff_exists.mp hkey.symm
      exact .inr ⟨x, y, rfl, hy, hfields key x y hx hy⟩

section Fields

variable {α : Type} {read : Reader α} (hread : Respects read) {xs ys : Table}
  (h : Same (.table xs) (.table ys))

include hread h

theorem required_congr (key : String) : required read xs key = required read ys key := by
  rw [required, required]
  rcases lookup_of_same h key with ⟨hx, hy⟩ | ⟨x, y, hx, hy, hsame⟩
  · rw [hx, hy]
  · rw [hx, hy]
    exact hread hsame

theorem optional_congr (key : String) : optional read xs key = optional read ys key := by
  rw [optional, optional]
  rcases lookup_of_same h key with ⟨hx, hy⟩ | ⟨x, y, hx, hy, hsame⟩
  · rw [hx, hy]
  · rw [hx, hy]
    exact congrArg (Option.map some) (hread hsame)

end Fields

theorem respects_readComment : Respects readComment :=
  respects_strictObject fun h => by
    simp only [required_congr respects_readText h, optional_congr respects_readText h]

theorem respects_readIssueLink : Respects readIssueLink :=
  respects_strictObject fun h => by
    simp only [required_congr respects_readInt h, readIntent,
      required_congr (respects_readEnum _) h]

theorem respects_readDirEntry : Respects readDirEntry :=
  respects_strictObject fun h => by simp only [required_congr respects_readText h]

theorem respects_readFileEntry : Respects readFileEntry :=
  respects_strictObject fun h => by simp only [required_congr respects_readText h]

theorem respects_readEntry : Respects readEntry := by
  intro a b h
  have hab := h
  cases h with
  | table _ _ =>
    simp only [readEntry, required_congr (respects_readEnum _) hab, respects_readDirEntry hab,
      respects_readFileEntry hab]
  | _ => rfl

theorem respects_readAsset : Respects readAsset :=
  respects_strictObject fun h => by
    simp only [required_congr respects_readText h, readLayout,
      required_congr (respects_readEnum _) h,
      required_congr (respects_readArray respects_readEntry) h]

theorem respects_frontmatterFields : Respects frontmatterFields :=
  respects_strictObject fun h => by
    simp only [required_congr respects_readText h, optional_congr respects_readText h, readKind,
      readPriority, optional_congr (respects_readEnum _) h,
      optional_congr (respects_readArray respects_readComment) h,
      optional_congr (respects_readArray respects_readAsset) h,
      optional_congr (respects_readArray respects_readText) h,
      optional_congr (respects_readArray respects_readIssueLink) h]

theorem respects_frontmatterSchema : Respects frontmatterSchema := by
  intro a b h
  rw [frontmatterSchema, frontmatterSchema, respects_frontmatterFields h]

/-! ## 6. Reading what was written -/

section Present

variable {α : Type} {properties : List (String × Option Toml)} {known : List String}

theorem strictObject_present {fields : Table → Option α} (h : properties.map Prod.fst = known) :
    strictObject known fields (.table (present properties)) = fields (present properties) := by
  rw [strictObject, if_pos]
  refine List.all_eq_true.mpr fun property hmem => decide_eq_true ?_
  obtain ⟨source, hsource, hproperty⟩ := List.mem_filterMap.mp hmem
  obtain ⟨value, -, rfl⟩ := Option.map_eq_some_iff.mp hproperty
  exact h ▸ List.mem_map_of_mem hsource

theorem lookup_present (hnodup : (properties.map Prod.fst).Nodup) (key : String) :
    (present properties).lookup key = (properties.lookup key).join := by
  induction properties with
  | nil => rfl
  | cons property rest ih =>
    obtain ⟨name, value⟩ := property
    obtain ⟨hname, hrest⟩ := List.nodup_cons.mp hnodup
    have ih := ih hrest
    rw [List.lookup_cons]
    cases value with
    | none =>
      have hskip : present ((name, none) :: rest) = present rest := rfl
      rw [hskip, ih]
      by_cases h : key = name
      · rw [beq_iff_eq.mpr h]
        cases hfound : rest.lookup key with
        | none => rfl
        | some found =>
          obtain ⟨value, hmem⟩ := mem_keys_iff.mpr (hfound ▸ rfl : (rest.lookup key).isSome = true)
          exact absurd (List.mem_map_of_mem hmem) (h ▸ hname)
      · rw [beq_eq_false_iff_ne.mpr h]
    | some value =>
      have hkeep : present ((name, some value) :: rest) = (name, value) :: present rest := rfl
      rw [hkeep, List.lookup_cons, ih]
      cases key == name <;> rfl

theorem required_present {read : Reader α} {key : String} {value : Toml} {x : α}
    (hnodup : (properties.map Prod.fst).Nodup) (hfound : properties.lookup key = some (some value))
    (hread : read value = some x) : required read (present properties) key = some x := by
  rw [required, lookup_present hnodup, hfound]
  exact hread

theorem optional_present {read : Reader α} {key : String} {value : Option α} {write : α → Toml}
    (hnodup : (properties.map Prod.fst).Nodup)
    (hfound : properties.lookup key = some (value.map write))
    (hread : ∀ x ∈ value, read (write x) = some x) :
    optional read (present properties) key = some value := by
  rw [optional, lookup_present hnodup, hfound]
  cases value with
  | none => rfl
  | some x => exact congrArg (Option.map some) (hread x rfl)

end Present

theorem mapM_map_of_read {α : Type} {read : Reader α} {write : α → Toml}
    (h : ∀ x, read (write x) = some x) : ∀ xs : List α, (xs.map write).mapM read = some xs
  | [] => rfl
  | x :: xs => by
    rw [List.map_cons, List.mapM_cons, h, mapM_map_of_read h xs]
    rfl

theorem readComment_toml (comment : TicketComment) : readComment comment.toml = some comment := by
  rcases comment with ⟨body, createdAt, _ | author⟩ <;> rfl

theorem readIssueLink_toml (link : FileIssueLink) : readIssueLink link.toml = some link := by
  rcases link with ⟨issue, _ | _⟩ <;> rfl

theorem readEntry_toml (entry : PortableEntry) : readEntry entry.toml = some entry := by
  cases entry <;> rfl

theorem readAsset_toml (asset : PortableAsset) : readAsset asset.toml = some asset := by
  have hnodup : (asset.properties.map Prod.fst).Nodup := by
    show ["kind", "name", "layout", "entries"].Nodup
    decide
  have hkind : required readText (present asset.properties) "kind" = some asset.kind :=
    required_present hnodup rfl rfl
  have hname : required readText (present asset.properties) "name" = some asset.name :=
    required_present hnodup rfl rfl
  have hlayout : required readLayout (present asset.properties) "layout" = some asset.layout :=
    required_present hnodup rfl (by cases asset.layout <;> rfl)
  have hentries : required (readArray readEntry) (present asset.properties) "entries" =
      some asset.entries :=
    required_present hnodup rfl (mapM_map_of_read readEntry_toml asset.entries)
  rw [readAsset, PortableAsset.toml, strictObject_present]
  · simp only [hkind, hname, hlayout, hentries]
    rfl
  · rfl

theorem readTexts_toml (texts : List Text) : readArray readText (textsToml texts) = some texts :=
  @mapM_map_of_read _ readText .str (fun _ => rfl) texts

/-- **The schema reads what was written**, with the values that stand for absence gone. -/
theorem frontmatterFields_data (front : Frontmatter) :
    frontmatterFields (.table front.data) = some front.normalize := by
  have hnodup : (front.properties.map Prod.fst).Nodup := by
    show ["id", "title", "kind", "target", "labels", "blockedBy", "issueLinks", "priority",
      "idempotencyKey", "comments", "attachments"].Nodup
    decide
  have hkind : optional readKind (present front.properties) "kind" =
      some front.normalize.kind := by
    rw [optional, lookup_present hnodup]
    rcases front with ⟨_ | _ | _⟩ <;> rfl
  have htarget : optional readText (present front.properties) "target" = some front.target :=
    optional_present hnodup rfl fun _ _ => rfl
  have hcomments : optional (readArray readComment) (present front.properties) "comments" =
      some front.comments :=
    optional_present hnodup rfl fun comments _ => mapM_map_of_read readComment_toml comments
  have hattachments : optional (readArray readAsset) (present front.properties) "attachments" =
      some front.attachments :=
    optional_present hnodup rfl fun assets _ => mapM_map_of_read readAsset_toml assets
  have hid : required readText (present front.properties) "id" = some front.id :=
    required_present hnodup rfl rfl
  have htitle : required readText (present front.properties) "title" = some front.title :=
    required_present hnodup rfl rfl
  have hlabels : optional (readArray readText) (present front.properties) "labels" =
      some (if 0 < front.labels.length then some front.labels else none) := by
    refine optional_present hnodup ?_ fun labels _ => readTexts_toml labels
    refine congrArg some ?_
    split <;> rfl
  have hblockedBy : optional (readArray readText) (present front.properties) "blockedBy" =
      some front.normalize.blockedBy :=
    optional_present hnodup rfl fun ids _ => readTexts_toml ids
  have hissueLinks : optional (readArray readIssueLink) (present front.properties) "issueLinks" =
      some front.normalize.issueLinks :=
    optional_present hnodup rfl fun links _ => mapM_map_of_read readIssueLink_toml links
  have hpriority : optional readPriority (present front.properties) "priority" =
      some front.normalize.priority := by
    rw [optional, lookup_present hnodup]
    rcases front with ⟨_, _, _, _, _, _, _, _, _, _ | _ | _, _⟩ <;> rfl
  have hidempotencyKey : optional readText (present front.properties) "idempotencyKey" =
      some front.idempotencyKey :=
    optional_present hnodup rfl fun _ _ => rfl
  have hnone : (if 0 < front.labels.length then some front.labels else none).getD [] =
      front.labels := by
    split
    · rfl
    next h => exact (List.length_eq_zero_iff.mp (Nat.eq_zero_of_not_pos h)).symm
  rw [frontmatterFields, Frontmatter.data, strictObject_present]
  · simp only [hkind, htarget, hcomments, hattachments, hid, htitle, hlabels, hblockedBy,
      hissueLinks, hpriority, hidempotencyKey]
    exact congrArg (fun labels => some { front.normalize with labels }) hnone
  · rfl

theorem valid_normalize {front : Frontmatter} (h : front.valid = true) :
    front.normalize.valid = true := by
  simp only [Frontmatter.valid, Bool.and_eq_true] at h ⊢
  obtain ⟨⟨⟨⟨⟨htarget, hassets⟩, hid⟩, htitle⟩, hlinks⟩, hkey⟩ := h
  refine ⟨⟨⟨⟨⟨htarget, hassets⟩, hid⟩, htitle⟩, ?_⟩, hkey⟩
  rw [Option.all_eq_true] at hlinks ⊢
  exact fun links hin => hlinks links (Option.mem_filter_iff.mp hin).1

theorem properties_normalize (front : Frontmatter) :
    front.normalize.properties = front.properties := by
  have hblocked : front.normalize.blockedBy.filter (fun ids => 0 < ids.length) =
      front.blockedBy.filter fun ids => 0 < ids.length := by
    simp only [Frontmatter.normalize, Option.filter_filter, Bool.and_self]
  have hlinks : front.normalize.issueLinks.filter (fun links => 0 < links.length) =
      front.issueLinks.filter fun links => 0 < links.length := by
    simp only [Frontmatter.normalize, Option.filter_filter, Bool.and_self]
  rw [Frontmatter.properties, hblocked, hlinks]
  rcases front with ⟨_ | _ | _, _, _, _, _, _, _, _, _, _ | _ | _, _⟩ <;> rfl

/-- **A ticket file is read back as it was written.** -/
theorem parse_serialize (toml : TomlLibrary) (path : String) (front : Frontmatter) (body : Text)
    (hvalid : front.valid = true) (htoml : toml.RoundTrips front.data) :
    parseTicketFile toml path (serializeTicketFile toml front body) =
        .ok ⟨front.normalize, body⟩ ∧
      serializeTicketFile toml front.normalize body = serializeTicketFile toml front body := by
  constructor
  · obtain ⟨lines, hne, hdocument, hlines⟩ := htoml.lines
    obtain ⟨text, htext, hcut⟩ := cutAtFence_lines body hne hlines
    obtain ⟨parsed, hparsed, hsame⟩ := htoml.parses text (hdocument.trans htext)
    have hschema : frontmatterSchema parsed = some front.normalize := by
      rw [respects_frontmatterSchema hsame, frontmatterSchema, frontmatterFields_data,
        Option.filter_some, valid_normalize hvalid, if_pos rfl]
    have hopen : OPEN_FENCE.isPrefixOf (serializeTicketFile toml front body) = true := by
      rw [serializeTicketFile, List.append_assoc, List.append_assoc]
      exact List.isPrefixOf_iff_prefix.mpr (List.prefix_append _ _)
    have hdrop : (serializeTicketFile toml front body).drop OPEN_FENCE.length =
        document lines ++ points "+++\n" ++ body := by
      rw [serializeTicketFile, List.append_assoc, List.append_assoc, List.drop_left, hdocument,
        List.append_assoc]
    rw [parseTicketFile, hopen, Bool.not_true, if_neg Bool.false_ne_true, hdrop, hcut]
    dsimp only
    rw [hparsed]
    dsimp only
    rw [hschema]
  · rw [serializeTicketFile, serializeTicketFile, Frontmatter.data, properties_normalize,
      Frontmatter.data]

/-! A ticket with two fields, and a body with a fence of its own. -/

def shortFront : Frontmatter where
  kind := some .work
  target := none
  comments := none
  attachments := none
  id := points "T-1"
  title := points "Fix the codec"
  labels := []
  blockedBy := some []
  issueLinks := none
  priority := some .normal
  idempotencyKey := none

def shortTable : Table :=
  [("id", .str (points "T-1")), ("title", .str (points "Fix the codec"))]

/-- TOML of a table of strings, and its parser for one document. -/
def stringTables : TomlLibrary where
  stringify table := document (table.map fun field =>
    match field.2 with
    | .str text => points field.1 ++ points " = " ++ StreamJson.quote text
    | _ => points field.1)
  parse text :=
    if text = points "id = \"T-1\"\ntitle = \"Fix the codec\"" then .ok (.table shortTable)
    else .error (points "not this document")

theorem roundTrips_short : stringTables.RoundTrips shortFront.data where
  lines := by
    refine ⟨[points "id = \"T-1\"", points "title = \"Fix the codec\""], List.cons_ne_nil _ _,
      by decide, fun line hline => ?_⟩
    rcases List.mem_pair.mp hline with rfl | rfl
    · exact ⟨by decide, fun c hc => by cases hc; rfl⟩
    · exact ⟨by decide, fun c hc => by cases hc; rfl⟩
  parses text h := by
    have htext : text = points "id = \"T-1\"\ntitle = \"Fix the codec\"" :=
      (List.append_inj_left' (h.symm.trans (by decide)) rfl)
    refine ⟨.table shortTable, ?_, Same.refl _⟩
    exact if_pos htext

theorem parse_serialize_short :
    parseTicketFile stringTables "T-1.md"
        (serializeTicketFile stringTables shortFront (points "Body\n+++\n")) =
        .ok ⟨{ shortFront with kind := none, blockedBy := none, priority := none },
          points "Body\n+++\n"⟩ ∧
      serializeTicketFile stringTables shortFront.normalize (points "Body\n+++\n") =
        serializeTicketFile stringTables shortFront (points "Body\n+++\n") :=
  parse_serialize stringTables "T-1.md" shortFront (points "Body\n+++\n") (by decide)
    roundTrips_short

end Autobuild.TicketFile
