/-
# Redaction of account values

`AccountRedactor` writes `[REDACTED]` over the values of the accounts' credentials, and over what
JSON makes of them, in all that is stored.  A stream stores its deltas as they come: of every
text the redactor keeps back the end that may begin a secret, until the next delta or the end of
the text.

Strings are their UTF-16 code units: a delta may end within a surrogate pair.  What one delta
releases and keeps is a step of `Redaction.Safe`; `stream_safe` follows the text of one id through
the parts of all.
-/
import Mathlib.Data.List.Sort
import Autobuild.Lib.JsText
import Autobuild.Lib.ObjectMap
import Autobuild.Lib.Redaction

namespace Autobuild

open Redaction

/-- A string, by its UTF-16 code units. -/
abbrev Units := List Nat

/-! ## 1. Secrets -/

/-- The digit of a unit, in lower case. -/
def hexUnit (n : Nat) : Nat := if n < 10 then 48 + n else 87 + n

/-- `\uXXXX`. -/
def unitEscape (unit : Nat) : Units :=
  [92, 117, hexUnit (unit / 4096 % 16), hexUnit (unit / 256 % 16), hexUnit (unit / 16 % 16),
    hexUnit (unit % 16)]

def isHighSurrogate (unit : Nat) : Bool := 0xD800 ≤ unit && unit < 0xDC00

def isLowSurrogate (unit : Nat) : Bool := 0xDC00 ≤ unit && unit < 0xE000

def escapeUnit (unit : Nat) : Units :=
  if unit = 8 then [92, 98]
  else if unit = 9 then [92, 116]
  else if unit = 10 then [92, 110]
  else if unit = 12 then [92, 102]
  else if unit = 13 then [92, 114]
  else if unit = 34 then [92, 34]
  else if unit = 92 then [92, 92]
  else if unit < 32 then unitEscape unit
  else [unit]

/-- `JSON.stringify(value).slice(1, -1)`: a surrogate that is not one of a pair is escaped. -/
def jsonEscape : Units → Units
  | [] => []
  | [unit] =>
    if isHighSurrogate unit || isLowSurrogate unit then unitEscape unit else escapeUnit unit
  | unit :: next :: rest =>
    if isHighSurrogate unit && isLowSurrogate next then unit :: next :: jsonEscape rest
    else if isHighSurrogate unit || isLowSurrogate unit then
      unitEscape unit ++ jsonEscape (next :: rest)
    else escapeUnit unit ++ jsonEscape (next :: rest)

/-- The values that were observed and what JSON makes of them, the longest first. -/
def secrets (source : List (Option Units)) : List Units :=
  let observed := (source.filterMap fun value => value.filter (· ≠ [])).eraseDups
  (observed.flatMap fun value => [value, jsonEscape value]).eraseDups.insertionSort
    fun a b => b.length ≤ a.length

/-- `[REDACTED]`. -/
def redactedMarker : Units := JsText.codeUnits "[REDACTED]"

/-- `AccountRedactor.text`. -/
def redactText (source : List (Option Units)) (value : Units) : Units :=
  (secrets source).foldl (fun value secret => replaceAll redactedMarker secret value) value

/-! ## 2. Streams -/

inductive DeltaKind where
  | text
  | reasoning
  deriving DecidableEq, Repr

/-- A part of a stream: `text-delta` and `reasoning-delta` with a string, `text-end` and
`reasoning-end`, and all others. -/
inductive StreamPart where
  | delta (kind : DeltaKind) (id : Units) (delta : Units)
  | finish (kind : DeltaKind) (id : Units)
  | other (type : Units)
  deriving DecidableEq, Repr

/-- What is stored: a delta, or what `value` makes of another part, which is no delta. -/
inductive StoredPart where
  | delta (kind : DeltaKind) (id : Units) (delta : Units)
  | value (part : StreamPart)
  deriving DecidableEq, Repr

/-- `${part.type}:${record.id}` with what is kept of its text. -/
abbrev Tails := JsMap (DeltaKind × Units) Units

/-- The lengths of the beginnings of secrets that a text ends with. -/
def begunLengths (secrets : List Units) (text : Units) : List Nat :=
  secrets.flatMap fun secret =>
    (List.range secret.length).filter fun n =>
      1 ≤ n ∧ n ≤ text.length ∧ secret.take n <:+ text

def retainedLength (secrets : List Units) (text : Units) : Nat :=
  (begunLengths secrets text).foldl max 0

def tailOf (tails : Tails) (kind : DeltaKind) (id : Units) : Units :=
  (tails.get? ⟨kind, id⟩).getD []

/-- The body of the loop of `AccountRedactor.stream`. -/
def streamPart (source : List (Option Units)) (tails : Tails) :
    StreamPart → Tails × List StoredPart
  | .delta kind id delta =>
    let text := redactText source (tailOf tails kind id ++ delta)
    let released := text.length - retainedLength (secrets source) text
    (tails.set ⟨kind, id⟩ (text.drop released), [.delta kind id (text.take released)])
  | .finish kind id =>
    let tail := tailOf tails kind id
    (tails.erase ⟨kind, id⟩,
      (if tail ≠ [] then [.delta kind id tail] else []) ++ [.value (.finish kind id)])
  | .other type => (tails, [.value (.other type)])

def stream (source : List (Option Units)) :
    Tails → List StreamPart → Tails × List StoredPart
  | tails, [] => (tails, [])
  | tails, part :: parts =>
    let (tails, stored) := streamPart source tails part
    let (tails, rest) := stream source tails parts
    (tails, stored ++ rest)

/-- The batches of a stream, each with the tails the one before left. -/
def streamBatches (source : List (Option Units)) :
    Tails → List (List StreamPart) → Tails × List StoredPart
  | tails, [] => (tails, [])
  | tails, parts :: batches =>
    let (tails, stored) := stream source tails parts
    let (tails, rest) := streamBatches source tails batches
    (tails, stored ++ rest)

/-- The text that came for an id. -/
def textOf (kind : DeltaKind) (id : Units) (parts : List StreamPart) : Units :=
  parts.flatMap fun
    | .delta kind' id' delta => if kind' = kind ∧ id' = id then delta else []
    | _ => []

/-- The text that was stored for an id. -/
def storedText (kind : DeltaKind) (id : Units) (stored : List StoredPart) : Units :=
  stored.flatMap fun
    | .delta kind' id' delta => if kind' = kind ∧ id' = id then delta else []
    | _ => []

/-! ## 3. What is kept back -/

theorem foldl_max_le_iff {bound : Nat} : ∀ {xs : List Nat} {first : Nat},
    xs.foldl max first ≤ bound ↔ first ≤ bound ∧ ∀ x ∈ xs, x ≤ bound
  | [], first => by simp
  | x :: xs, first => by
    rw [List.foldl_cons, @foldl_max_le_iff bound xs, max_le_iff, List.forall_mem_cons, and_assoc]

theorem retainedLength_le (secrets : List Units) (text : Units) :
    retainedLength secrets text ≤ text.length := by
  refine foldl_max_le_iff.mpr ⟨Nat.zero_le _, fun n hn => ?_⟩
  obtain ⟨secret, -, hn⟩ := List.mem_flatMap.mp hn
  exact (of_decide_eq_true (List.mem_filter.mp hn).2).2.1

/-- Every beginning of a secret at the end of a text is kept back. -/
theorem le_retainedLength {secrets : List Units} {secret part text : Units}
    (hsecret : secret ∈ secrets) (hpart : part <+: secret) (hne : part ≠ secret)
    (hsuffix : part <:+ text) : part.length ≤ retainedLength secrets text := by
  by_cases hnil : part = []
  · rw [hnil]
    exact Nat.zero_le _
  · refine (foldl_max_le_iff.mp le_rfl).2 _ (List.mem_flatMap.mpr ⟨secret, hsecret, ?_⟩)
    have hproper : part.length < secret.length :=
      lt_of_le_of_ne hpart.length_le fun h => hne (hpart.eq_of_length h)
    refine List.mem_filter.mpr ⟨List.mem_range.mpr hproper, decide_eq_true ⟨?_, ?_, ?_⟩⟩
    · exact List.length_pos_of_ne_nil hnil
    · exact hsuffix.length_le
    · rwa [← List.prefix_iff_eq_take.mp hpart]

section
variable {source : List (Option Units)} {kind : DeltaKind} {id : Units} {tails : Tails}

/-! ## 4. One part -/

theorem tailOf_set_self (tail : Units) : tailOf (tails.set ⟨kind, id⟩ tail) kind id = tail := by
  rw [tailOf, ObjectMap.get?_set_self, Option.getD_some]

theorem tailOf_set_ne {kind' : DeltaKind} {id' : Units} (h : ¬ (kind' = kind ∧ id' = id))
    (tail : Units) : tailOf (tails.set ⟨kind', id'⟩ tail) kind id = tailOf tails kind id := by
  rw [tailOf, tailOf, ObjectMap.get?_set_ne]
  rintro ⟨⟩
  exact h ⟨rfl, rfl⟩

theorem tailOf_erase_self : tailOf (tails.erase ⟨kind, id⟩) kind id = [] := by
  rw [tailOf, ObjectMap.get?_erase, if_pos rfl, Option.getD_none]

theorem tailOf_erase_ne {kind' : DeltaKind} {id' : Units} (h : ¬ (kind' = kind ∧ id' = id)) :
    tailOf (tails.erase ⟨kind', id'⟩) kind id = tailOf tails kind id := by
  rw [tailOf, tailOf, ObjectMap.get?_erase, if_neg]
  rintro ⟨⟩
  exact h ⟨rfl, rfl⟩

@[simp] theorem storedText_nil : storedText kind id [] = [] := rfl

@[simp] theorem storedText_append (xs ys : List StoredPart) :
    storedText kind id (xs ++ ys) = storedText kind id xs ++ storedText kind id ys :=
  List.flatMap_append

@[simp] theorem storedText_value (part : StreamPart) : storedText kind id [.value part] = [] := rfl

@[simp] theorem storedText_delta (kind' : DeltaKind) (id' delta : Units) :
    storedText kind id [.delta kind' id' delta] = if kind' = kind ∧ id' = id then delta else [] :=
  List.append_nil _

theorem textOf_cons (part : StreamPart) (parts : List StreamPart) :
    textOf kind id (part :: parts) = textOf kind id [part] ++ textOf kind id parts := by
  rw [textOf, List.flatMap_cons, textOf, textOf, List.flatMap_singleton]

@[simp] theorem textOf_delta (kind' : DeltaKind) (id' delta : Units) :
    textOf kind id [.delta kind' id' delta] = if kind' = kind ∧ id' = id then delta else [] :=
  List.append_nil _

/-- A part that is not about an id stores nothing of it and keeps its tail. -/
theorem streamPart_other (source : List (Option Units)) (tails : Tails) {part : StreamPart}
    (hdelta : ∀ delta, part ≠ .delta kind id delta) (hfinish : part ≠ .finish kind id) :
    tailOf (streamPart source tails part).1 kind id = tailOf tails kind id ∧
      storedText kind id (streamPart source tails part).2 = [] ∧ textOf kind id [part] = [] := by
  cases part with
  | delta kind' id' delta =>
    have hne : ¬ (kind' = kind ∧ id' = id) := by
      rintro ⟨rfl, rfl⟩
      exact hdelta delta rfl
    refine ⟨tailOf_set_ne hne _, ?_, ?_⟩
    · simp [streamPart, hne]
    · simp [hne]
  | finish kind' id' =>
    have hne : ¬ (kind' = kind ∧ id' = id) := by
      rintro ⟨rfl, rfl⟩
      exact hfinish rfl
    refine ⟨tailOf_erase_ne hne, ?_, rfl⟩
    rw [streamPart, storedText_append, storedText_value, List.append_nil]
    split
    · rw [storedText_delta, if_neg hne]
    · rfl
  | other type => exact ⟨rfl, rfl, rfl⟩

theorem streamPart_delta (source : List (Option Units)) (kind : DeltaKind) (id : Units)
    (tails : Tails) (delta : Units) :
    storedText kind id (streamPart source tails (.delta kind id delta)).2 ++
        tailOf (streamPart source tails (.delta kind id delta)).1 kind id =
      redactText source (tailOf tails kind id ++ delta) := by
  rw [streamPart, storedText_delta, if_pos ⟨rfl, rfl⟩, tailOf_set_self, List.take_append_drop]

theorem storedText_finish (tails : Tails) :
    storedText kind id (streamPart source tails (.finish kind id)).2 = tailOf tails kind id := by
  rw [streamPart, storedText_append, storedText_value, List.append_nil]
  split
  · rw [storedText_delta, if_pos ⟨rfl, rfl⟩]
  · rename_i h
    exact (not_not.mp h).symm

theorem tailOf_finish :
    tailOf (streamPart source tails (.finish kind id)).1 kind id = [] := tailOf_erase_self

/-- **One part** keeps what was released and what is kept of an id safe. -/
theorem streamPart_safe (hapart : ∀ secret ∈ secrets source, Apart redactedMarker secret)
    {out : Units} (h : Safe (secrets source) out (tailOf tails kind id)) {part : StreamPart}
    (hopen : part ≠ .finish kind id) :
    Safe (secrets source) (out ++ storedText kind id (streamPart source tails part).2)
      (tailOf (streamPart source tails part).1 kind id) := by
  by_cases hdelta : ∀ delta, part ≠ .delta kind id delta
  · obtain ⟨htail, hstored, -⟩ := streamPart_other source tails hdelta hopen
    rw [htail, hstored, List.append_nil]
    exact h
  · simp only [not_forall, not_not] at hdelta
    obtain ⟨delta, rfl⟩ := hdelta
    have hsplit := streamPart_delta source kind id tails delta
    have hredacts := redacts hapart (tailOf tails kind id ++ delta)
    change Redacts _ _ _ (redactText source _) at hredacts
    rw [← hsplit] at hredacts
    refine h.step hredacts hapart fun secret hsecret part hpart hne hsuffix => ?_
    rw [hsplit] at hsuffix
    have hle := le_retainedLength hsecret hpart hne hsuffix
    have hlength := retainedLength_le (secrets source)
      (redactText source (tailOf tails kind id ++ delta))
    rw [streamPart, tailOf_set_self, List.length_drop]
    omega

/-! ## 5. A stream -/

theorem stream_append (xs ys : List StreamPart) (tails : Tails) :
    stream source tails (xs ++ ys) =
      ((stream source (stream source tails xs).1 ys).1,
        (stream source tails xs).2 ++ (stream source (stream source tails xs).1 ys).2) := by
  induction xs generalizing tails with
  | nil => rfl
  | cons part xs ih => simp only [List.cons_append, stream, ih, List.append_assoc]

/-- Where a batch ends makes no difference. -/
theorem streamBatches_eq (batches : List (List StreamPart)) (tails : Tails) :
    streamBatches source tails batches = stream source tails batches.flatten := by
  induction batches generalizing tails with
  | nil => rfl
  | cons parts batches ih =>
    rw [List.flatten_cons, stream_append, streamBatches]
    simp only [ih]

/-- **A run** of parts up to the end of a text. -/
theorem stream_safe (hapart : ∀ secret ∈ secrets source, Apart redactedMarker secret)
    {parts : List StreamPart} (hopen : .finish kind id ∉ parts) {out : Units} {tails : Tails}
    (h : Safe (secrets source) out (tailOf tails kind id)) :
    Safe (secrets source) (out ++ storedText kind id (stream source tails parts).2)
      (tailOf (stream source tails parts).1 kind id) := by
  induction parts generalizing out tails with
  | nil => rwa [stream, storedText_nil, List.append_nil]
  | cons part parts ih =>
    obtain ⟨hpart, hopen⟩ := not_or.mp fun h => hopen (List.mem_cons.mpr h)
    rw [stream, storedText_append, ← List.append_assoc]
    exact ih hopen (streamPart_safe hapart h (Ne.symm hpart))

/-- Of a text without a secret everything is released or kept. -/
theorem stream_same {parts : List StreamPart} (hopen : .finish kind id ∉ parts) {tails : Tails}
    (hclean : ∀ secret ∈ secrets source,
      ¬ secret <:+: tailOf tails kind id ++ textOf kind id parts) :
    storedText kind id (stream source tails parts).2 ++
        tailOf (stream source tails parts).1 kind id =
      tailOf tails kind id ++ textOf kind id parts := by
  induction parts generalizing tails with
  | nil => exact (List.append_nil _).symm
  | cons part parts ih =>
    obtain ⟨hpart, hopen⟩ := not_or.mp fun h => hopen (List.mem_cons.mpr h)
    have hone : storedText kind id (streamPart source tails part).2 ++
        tailOf (streamPart source tails part).1 kind id =
          tailOf tails kind id ++ textOf kind id [part] := by
      by_cases hdelta : ∀ delta, part ≠ .delta kind id delta
      · obtain ⟨htail, hstored, htext⟩ :=
          streamPart_other source tails hdelta (Ne.symm hpart)
        rw [htail, hstored, htext, List.nil_append, List.append_nil]
      · simp only [not_forall, not_not] at hdelta
        obtain ⟨delta, rfl⟩ := hdelta
        rw [streamPart_delta, textOf_delta, if_pos ⟨rfl, rfl⟩]
        refine redact_of_clean fun secret hsecret hin => hclean secret hsecret ?_
        rw [textOf_cons, textOf_delta, if_pos ⟨rfl, rfl⟩, ← List.append_assoc]
        exact List.infix_append_of_infix_left hin
    rw [textOf_cons, ← List.append_assoc, ← hone] at hclean ⊢
    have hrest := @ih hopen (streamPart source tails part).1 fun secret hsecret hin =>
      hclean secret hsecret (by
        rw [List.append_assoc]
        exact List.infix_append_of_infix_right hin)
    rw [stream, storedText_append, List.append_assoc, List.append_assoc]
    exact congrArg _ hrest

/-- After the end of a text nothing more of it is stored. -/
theorem stream_ended {parts : List StreamPart} (hdelta : ∀ delta, .delta kind id delta ∉ parts)
    {tails : Tails} (htail : tailOf tails kind id = []) :
    storedText kind id (stream source tails parts).2 = [] := by
  induction parts generalizing tails with
  | nil => rfl
  | cons part parts ih =>
    have hpart : ∀ delta, part ≠ .delta kind id delta :=
      fun delta h => hdelta delta (h ▸ List.mem_cons_self)
    have hrest := fun delta h => hdelta delta (List.mem_cons_of_mem part h)
    rw [stream, storedText_append]
    by_cases hfinish : part = .finish kind id
    · subst hfinish
      rw [ih hrest tailOf_finish, storedText_finish, htail, List.append_nil]
    · obtain ⟨hsame, hstored, -⟩ :=
        streamPart_other source tails hpart hfinish
      rw [ih hrest (hsame.trans htail), hstored, List.append_nil]

/-- What a whole text stores is what was released and what was kept at its end. -/
theorem storedText_whole {batches : List (List StreamPart)} {parts after : List StreamPart}
    (hbatches : batches.flatten = parts ++ .finish kind id :: after)
    (hafter : ∀ delta, .delta kind id delta ∉ after) :
    storedText kind id (streamBatches source tails batches).2 =
      storedText kind id (stream source tails parts).2 ++
        tailOf (stream source tails parts).1 kind id := by
  rw [streamBatches_eq, hbatches, stream_append, storedText_append, stream, storedText_append,
    storedText_finish, stream_ended hafter tailOf_finish, List.append_nil]

end

/-- **Redaction in a stream.**  However the text of an id is cut into deltas and batches among
those of others, what is stored of it to its end has no secret, and is the text if that has
none. -/
theorem stream_redacted {source : List (Option Units)}
    (hapart : ∀ secret ∈ secrets source, Apart redactedMarker secret)
    {kind : DeltaKind} {id : Units} {tails : Tails} (hstart : tailOf tails kind id = [])
    {batches : List (List StreamPart)} {parts after : List StreamPart}
    (hbatches : batches.flatten = parts ++ .finish kind id :: after)
    (hopen : .finish kind id ∉ parts) (hafter : ∀ delta, .delta kind id delta ∉ after) :
    (∀ secret ∈ secrets source,
        ¬ secret <:+: storedText kind id (streamBatches source tails batches).2) ∧
      ((∀ secret ∈ secrets source, ¬ secret <:+: textOf kind id parts) →
        storedText kind id (streamBatches source tails batches).2 = textOf kind id parts) := by
  rw [storedText_whole hbatches hafter]
  constructor
  · have hnil : Safe (secrets source) [] (tailOf tails kind id) := by
      rw [hstart]
      exact Safe.nil fun secret hsecret => (hapart secret hsecret).ne_nil
    have hsafe := stream_safe hapart hopen hnil
    rw [List.nil_append] at hsafe
    exact hsafe.clean
  · intro hclean
    have hsame := @stream_same source kind id parts hopen tails (by rwa [hstart])
    rwa [hstart, List.nil_append] at hsame

/-- The secret `key` in two deltas, with a text of another id between them. -/
theorem stream_redacted_key :
    let key : Units := JsText.codeUnits "key"
    let one : Units := JsText.codeUnits "1"
    let two : Units := JsText.codeUnits "2"
    ∀ secret ∈ secrets [some key], ¬ secret <:+: storedText .text one
      (streamBatches [some key] ∅ [[.delta .text one (JsText.codeUnits "a k"),
        .delta .text two (JsText.codeUnits "e")],
        [.delta .text one (JsText.codeUnits "ey"), .finish .text one]]).2 := by
  intro key one two
  let parts : List StreamPart := [.delta .text one (JsText.codeUnits "a k"),
    .delta .text two (JsText.codeUnits "e"), .delta .text one (JsText.codeUnits "ey")]
  have hbatches : [[.delta .text one (JsText.codeUnits "a k"),
      .delta .text two (JsText.codeUnits "e")],
      [.delta .text one (JsText.codeUnits "ey"), .finish .text one]].flatten =
        parts ++ .finish .text one :: [] := rfl
  refine (stream_redacted ?_ rfl hbatches (by decide) fun _ => List.not_mem_nil).1
  have hsecrets : ∀ secret ∈ secrets [some key], secret = key := by decide
  intro secret hsecret
  rw [hsecrets secret hsecret]
  exact Apart.of_disjoint (by decide) (by decide) (by decide)

end Autobuild
