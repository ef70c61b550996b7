/-
# The identity of a build in a commit message

A landed commit names its build by a git trailer, `Autobuild-Build: slug`.  Trailers count in the
last paragraph of a message only, after the subject, and there only if all of it are trailers, or
one of them is a signoff and they are a quarter of it.

A message is the list of its lines, `split('\n')`; `prefix + rest` on messages is `concat`.

* `readTrailers_groups`: a paragraph is read as its groups, a line with those that continue it.
* `splitTrailers_stamped`: the paragraph that a stamped message ends with.
* `reads_iff`: a stamp is read where its paragraph counts as trailers.

Stamping takes every old `Autobuild-Build` out.  In a paragraph that mixes prose and trailers that
may leave too few trailers, and then the stamp does not count (`stamp_iff`).
-/
import Mathlib.Data.List.Infix
import Mathlib.Data.List.DropRight
import Autobuild.Lib.JsText
import Autobuild.Lib.Json

namespace Autobuild

open JsText (isSpace)

abbrev Line := List Char

/-! ## 1. Lines -/

/-- `[ \t]`. -/
def isTab (c : Char) : Bool := c = ' ' || c = '\t'

/-- `[A-Za-z0-9-]`. -/
def isKeyChar (c : Char) : Bool := c.isAlphanum || c = '-'

/-- What `.` does not match. -/
def isTerminator (c : Char) : Bool :=
  c = '\n' || c = '\r' || c.toNat = 0x2028 || c.toNat = 0x2029

def trim (text : Line) : Line := (text.dropWhile isSpace).rdropWhile isSpace

/-- ASCII, as keys are. -/
def lower (text : Line) : Line := text.map Char.toLower

/-- `[ \t]*\r?`, a whole line. -/
def isBlank (line : Line) : Bool := line.dropWhile isTab = [] || line.dropWhile isTab = ['\r']

/-- One `\r` less at the end. -/
def dropReturn (line : Line) : Line :=
  if line.getLast? = some '\r' then line.dropLast else line

/-- `/^([A-Za-z0-9-]+)[ \t]*:[ \t]*(.*)\r?$/`, with its two groups. -/
def matchTrailer (line : Line) : Option (Line × Line) :=
  match (line.dropWhile isKeyChar).dropWhile isTab with
  | ':' :: rest =>
    let key := line.takeWhile isKeyChar
    let value := dropReturn (rest.dropWhile isTab)
    if key ≠ [] ∧ (value.all fun c => !isTerminator c) = true then some (key, value) else none
  | _ => none

/-- `/^[ \t]+\S/`. -/
def isContinuation (line : Line) : Bool :=
  (line.head?.any isTab) && ((line.dropWhile isTab).head?.any fun c => !isSpace c)

/-- The message without the newlines at its end: `\r?\n` as long as there is one. -/
def stripNewlines : List Line → List Line
  | [] => []
  | [line] => [line]
  | line :: next :: rest =>
    match stripNewlines (next :: rest) with
    | [[]] => [dropReturn line]
    | rest => line :: rest

/-- The lines behind the first, up to the last blank one that a line follows, and the rest. -/
def splitBlank : List Line → List Line × List Line
  | [] => ([], [])
  | [line] => ([], [line])
  | line :: next :: rest =>
    match splitBlank (next :: rest) with
    | ([], last) => if isBlank line then ([line], last) else ([], line :: last)
    | (before, last) => (line :: before, last)

/-- The message at its last `\r?\n(?:[ \t]*\r?\n)+`: a line, and blank ones after it. -/
def splitParagraph : List Line → List Line × List Line
  | [] => ([], [])
  | first :: rest =>
    match splitBlank rest with
    | ([], last) => ([], first :: last)
    | (before, last) => (first :: before, last)

/-- `xs + ys` on texts. -/
def concat : List Line → List Line → List Line
  | [], ys => ys
  | [x], [] => [x]
  | [x], y :: ys => (x ++ y) :: ys
  | x :: next :: xs, ys => x :: concat (next :: xs) ys

/-! ## 2. Trailers -/

/-- `raw` by its lines. -/
structure Trailer where
  key : Line
  value : Line
  raw : List Line
  deriving DecidableEq

def KEY : Line := "Autobuild-Build".toList

def startTrailer (line : Line) : Trailer :=
  match matchTrailer line with
  | some (key, value) => ⟨key, trim value, [line]⟩
  | none => ⟨[], [], [line]⟩

def Trailer.extend (last : Trailer) (line : Line) : Trailer :=
  { last with value := last.value ++ '\n' :: trim line, raw := last.raw ++ [line] }

/-- One line, after the trailers so far with the last of them first. -/
def pushLine (trailers : List Trailer) (line : Line) : List Trailer :=
  match matchTrailer line, trailers with
  | none, last :: before =>
    if isContinuation line then last.extend line :: before else startTrailer line :: trailers
  | _, _ => startTrailer line :: trailers

def readTrailers (lines : List Line) : List Trailer := (lines.foldl pushLine []).reverse

/-- Git accepts a mixed paragraph only when a signoff is present and trailers make up at least a
quarter of it. -/
def countsAsTrailers (trailers : List Trailer) : Bool :=
  let entries := trailers.filter fun entry => entry.key ≠ []
  entries.length = trailers.length ||
    ((entries.any fun entry => lower entry.key = "signed-off-by".toList) &&
      trailers.length ≤ entries.length * 4)

/-- `prefix` and `trailers`. -/
def splitTrailers (message : List Line) (allowStandalone : Bool) : List Line × List Trailer :=
  let content := stripNewlines message
  let (before, last) := splitParagraph content
  if before = [] ∧ allowStandalone = false then (content, [])
  else
    let trailers := readTrailers last
    if countsAsTrailers trailers then (before ++ [[]], trailers) else (content, [])

def Trailer.isBuild (entry : Trailer) : Bool := lower entry.key = lower KEY

def buildTrailers (message : List Line) : List Line :=
  ((splitTrailers message false).2.filter Trailer.isBuild).map Trailer.value

/-- `/^[a-z0-9]+(?:-[a-z0-9]+)*$/`. -/
def validBuildSlug (slug : Line) : Bool :=
  (slug.all fun c => c.isLower || c.isDigit || c = '-') && (slug.splitOn '-').all (· ≠ [])

def validateBuildSlug (slug : Line) : Except String Unit :=
  if validBuildSlug slug then .ok ()
  else .error ("invalid build slug: " ++ Json.quote (String.ofList slug))

def hasBuildTrailer (message : List Line) (slug : Line) : Except String Bool := do
  validateBuildSlug slug
  return slug ∈ buildTrailers message

/-- `trailers.map(raw).join('\n')`. -/
def rawText (trailers : List Trailer) : List Line :=
  if trailers = [] then [[]] else trailers.flatMap Trailer.raw

/-- `/(?:\r?\n)[ \t]*(?:\r?\n)$/`. -/
def endsBlank (text : List Line) : Bool :=
  match text.reverse with
  | [] :: line :: _ :: _ => isBlank line
  | _ => false

/-- `${KEY}: ${slug}`. -/
def buildLine (slug : Line) : Line := KEY ++ ": ".toList ++ slug

/-- What stands before the stamp. -/
def stampedBody (before : List Line) (kept : List Trailer) (includesSubject : Bool) : List Line :=
  let body := concat before (rawText kept)
  if kept ≠ [] then concat body [[], []]
  else if (body ≠ [[]] ∨ includesSubject = true) ∧ endsBlank body = false then
    concat body [[], [], []]
  else body

def withBuildTrailer (message : List Line) (slug : Line) (includesSubject : Bool) :
    Except String (List Line) := do
  validateBuildSlug slug
  let (before, trailers) := splitTrailers message !includesSubject
  let kept := trailers.filter fun entry => !entry.isBuild
  return concat (stampedBody before kept includesSubject) [buildLine slug, []]

/-! ## 3. Paragraphs -/

theorem concat_append (xs : List Line) (x y : Line) (ys : List Line) :
    concat (xs ++ [x]) (y :: ys) = xs ++ (x ++ y) :: ys := by
  induction xs with
  | nil => rfl
  | cons first xs ih =>
    cases xs with
    | nil => rfl
    | cons next xs => exact congrArg (first :: ·) ih

/-- The newline at the end of a message goes, and the line before it stays. -/
theorem stripNewlines_append {line : Line} (hne : line ≠ []) (hreturn : dropReturn line = line)
    (before : List Line) : stripNewlines (before ++ [line, []]) = before ++ [line] := by
  induction before with
  | nil => exact congrArg ([·]) hreturn
  | cons first before ih =>
    obtain ⟨next, rest, hrest⟩ : ∃ next rest, before ++ [line, []] = next :: rest := by
      cases before with
      | nil => exact ⟨line, [[]], rfl⟩
      | cons next rest => exact ⟨next, rest ++ [line, []], rfl⟩
    rw [List.cons_append, hrest, stripNewlines, ← hrest, ih]
    split
    · rename_i hnil
      obtain ⟨-, hline⟩ | ⟨-, hbad⟩ := List.append_eq_singleton_iff.mp hnil
      · exact absurd (List.singleton_inj.mp hline) hne
      · exact absurd hbad (List.cons_ne_nil line [])
    · rfl

/-- A message without newlines at its end does not end with one. -/
theorem stripNewlines_last {message before : List Line}
    (h : stripNewlines message = before ++ [[]]) : before = [] := by
  induction message generalizing before with
  | nil => exact absurd h.symm (List.append_ne_nil_of_right_ne_nil _ (List.cons_ne_nil _ _))
  | cons line rest ih =>
    cases rest with
    | nil =>
      obtain ⟨hnil, -⟩ | ⟨-, hbad⟩ := List.append_eq_singleton_iff.mp h.symm
      · exact hnil
      · exact absurd hbad (List.cons_ne_nil _ _)
    | cons next rest =>
      rw [stripNewlines] at h
      split at h
      · obtain ⟨hnil, -⟩ | ⟨-, hbad⟩ := List.append_eq_singleton_iff.mp h.symm
        · exact hnil
        · exact absurd hbad (List.cons_ne_nil _ _)
      · rename_i rest' hstrip
        cases before with
        | nil => rfl
        | cons first before =>
          obtain ⟨-, htail⟩ := List.cons_eq_cons.mp h
          have hnil := ih htail
          subst hnil
          exact absurd htail hstrip

theorem stripNewlines_ne_nil {message : List Line} (h : message ≠ []) :
    stripNewlines message ≠ [] := by
  cases message with
  | nil => exact absurd rfl h
  | cons line rest =>
    cases rest with
    | nil => exact List.cons_ne_nil _ _
    | cons next rest =>
      rw [stripNewlines]
      split <;> exact List.cons_ne_nil _ _

theorem endsBlank_stripNewlines (message : List Line) :
    endsBlank (stripNewlines message) = false := by
  unfold endsBlank
  split
  · rename_i line first rest hreverse
    have hcontent := congrArg List.reverse hreverse
    rw [List.reverse_reverse, List.reverse_cons] at hcontent
    have hnil := stripNewlines_last hcontent
    simp at hnil
  · rfl

/-- A paragraph: no line of it is blank but maybe the last. -/
def Solid (lines : List Line) : Prop := ∀ line ∈ lines.dropLast, isBlank line = false

theorem splitBlank_of_solid {lines : List Line} (h : Solid lines) :
    splitBlank lines = ([], lines) := by
  induction lines with
  | nil => rfl
  | cons line rest ih =>
    cases rest with
    | nil => rfl
    | cons next rest =>
      have hline : isBlank line = false := h line List.mem_cons_self
      have hrest : Solid (next :: rest) := fun l hl => h l (List.mem_cons_of_mem line hl)
      rw [splitBlank, ih hrest]
      dsimp only
      rw [hline]
      rfl

theorem splitBlank_append {before last : List Line} {blank : Line} (hblank : isBlank blank = true)
    (hne : last ≠ []) (h : Solid last) :
    splitBlank (before ++ blank :: last) = (before ++ [blank], last) := by
  obtain ⟨next, rest, rfl⟩ := List.exists_cons_of_ne_nil hne
  induction before with
  | nil =>
    rw [List.nil_append, splitBlank, splitBlank_of_solid h]
    dsimp only
    rw [hblank]
    rfl
  | cons line before ih =>
    cases before with
    | nil =>
      rw [List.cons_append, List.nil_append] at *
      rw [splitBlank, ih]
      rfl
    | cons next' before =>
      rw [List.cons_append, List.cons_append] at *
      rw [splitBlank, ih]
      rfl

/-- **A message splits** after its last blank line. -/
theorem splitParagraph_append {first : Line} {before last : List Line} {blank : Line}
    (hblank : isBlank blank = true) (hne : last ≠ []) (h : Solid last) :
    splitParagraph (first :: before ++ blank :: last) = (first :: before ++ [blank], last) := by
  rw [List.cons_append, splitParagraph, splitBlank_append hblank hne h]
  cases before <;> rfl

theorem splitBlank_spec {lines before last : List Line} (h : splitBlank lines = (before, last)) :
    lines = before ++ last ∧ Solid last ∧ (lines ≠ [] → last ≠ []) ∧
      (before ≠ [] → ∃ front blank, before = front ++ [blank] ∧ isBlank blank = true) := by
  induction lines generalizing before last with
  | nil =>
    cases h
    exact ⟨rfl, nofun, fun h => absurd rfl h, fun h => absurd rfl h⟩
  | cons line rest ih =>
    cases rest with
    | nil =>
      cases h
      exact ⟨rfl, nofun, fun _ => List.cons_ne_nil _ _, fun h => absurd rfl h⟩
    | cons next rest =>
      obtain ⟨before', last', hrest⟩ : ∃ before' last',
          splitBlank (next :: rest) = (before', last') := ⟨_, _, rfl⟩
      obtain ⟨happend, hsolid, hne, hblank⟩ := ih hrest
      have hlast := hne (List.cons_ne_nil next rest)
      rw [splitBlank, hrest] at h
      cases before' with
      | nil =>
        dsimp only at h
        by_cases hline : isBlank line = true
        · rw [if_pos hline] at h
          cases h
          exact ⟨congrArg (line :: ·) happend, hsolid, fun _ => hlast, fun _ =>
            ⟨[], line, rfl, hline⟩⟩
        · rw [if_neg hline] at h
          cases h
          refine ⟨congrArg (line :: ·) happend, ?_, fun _ => List.cons_ne_nil _ _, fun h =>
            absurd rfl h⟩
          obtain ⟨first, others, rfl⟩ := List.exists_cons_of_ne_nil hlast
          intro l hl
          rw [List.dropLast_cons_of_ne_nil (List.cons_ne_nil first others)] at hl
          obtain rfl | hl := List.mem_cons.mp hl
          · exact Bool.eq_false_of_not_eq_true hline
          · exact hsolid l hl
      | cons first' before' =>
        cases h
        refine ⟨congrArg (line :: ·) happend, hsolid, fun _ => hlast, fun _ => ?_⟩
        obtain ⟨front, blank, hbefore, hb⟩ := hblank (List.cons_ne_nil first' before')
        exact ⟨line :: front, blank, congrArg (line :: ·) hbefore, hb⟩

/-- Lines that end with a blank one, which is not the first. -/
def EndsParagraph (before : List Line) : Prop :=
  ∃ first front blank, before = first :: front ++ [blank] ∧ isBlank blank = true

theorem splitParagraph_spec {content before last : List Line}
    (h : splitParagraph content = (before, last)) (hne : before ≠ []) :
    content = before ++ last ∧ Solid last ∧ last ≠ [] ∧ EndsParagraph before := by
  cases content with
  | nil =>
    cases h
    exact absurd rfl hne
  | cons first rest =>
    obtain ⟨before', last', hrest⟩ : ∃ before' last', splitBlank rest = (before', last') :=
      ⟨_, _, rfl⟩
    obtain ⟨happend, hsolid, hlast, hblank⟩ := splitBlank_spec hrest
    rw [splitParagraph, hrest] at h
    cases before' with
    | nil =>
      cases h
      exact absurd rfl hne
    | cons line before' =>
      cases h
      obtain ⟨front, blank, hbefore, hb⟩ := hblank (List.cons_ne_nil _ _)
      refine ⟨congrArg (first :: ·) happend, hsolid, hlast ?_, first, front, blank,
        congrArg (first :: ·) hbefore, hb⟩
      rw [happend]
      exact List.cons_ne_nil _ _

theorem EndsParagraph.split {before last : List Line} (h : EndsParagraph before) (hne : last ≠ [])
    (hsolid : Solid last) : splitParagraph (before ++ last) = (before, last) := by
  obtain ⟨first, front, blank, rfl, hblank⟩ := h
  rw [List.append_assoc, List.singleton_append]
  exact splitParagraph_append hblank hne hsolid

/-! ## 4. A paragraph by its groups -/

/-- A line that begins a trailer wherever it stands. -/
def Starts (line : Line) : Prop := matchTrailer line ≠ none ∨ isContinuation line = false

/-- A line, and the lines that continue it. -/
abbrev Group := Line × List Line

def entryOf (group : Group) : Trailer := group.2.foldl Trailer.extend (startTrailer group.1)

def Continued (group : Group) : Prop := ∀ line ∈ group.2, isContinuation line = true

/-- The first line of a paragraph begins a trailer in any case. -/
def Grouped : List Group → Prop
  | [] => True
  | group :: groups => Continued group ∧ ∀ group ∈ groups, Starts group.1 ∧ Continued group

def groupLines (groups : List Group) : List Line := groups.flatMap fun group => group.1 :: group.2

theorem matchTrailer_of_continuation {line : Line} (h : isContinuation line = true) :
    matchTrailer line = none := by
  cases line with
  | nil => rfl
  | cons c rest =>
    have htab : isTab c = true := (Bool.and_eq_true_iff.mp h).1
    have hkey : isKeyChar c = false := by
      obtain hc | hc := Bool.or_eq_true_iff.mp htab <;>
      · rw [of_decide_eq_true hc]
        rfl
    have hnil : (c :: rest).takeWhile isKeyChar = [] := by
      rw [List.takeWhile_cons, hkey]
      rfl
    unfold matchTrailer
    split
    · dsimp only
      rw [hnil, if_neg fun h => h.1 rfl]
    · rfl

theorem pushLine_starts {line : Line} (h : Starts line) (trailers : List Trailer) :
    pushLine trailers line = startTrailer line :: trailers := by
  unfold pushLine
  split
  · rename_i hnone
    rw [if_neg]
    rw [h.resolve_left (not_not.mpr hnone)]
    exact Bool.false_ne_true
  · rfl

theorem pushLine_nil (line : Line) : pushLine [] line = [startTrailer line] := by
  unfold pushLine
  split
  · rename_i h
    cases h
  · rfl

theorem foldl_pushLine_continued {lines : List Line}
    (h : ∀ line ∈ lines, isContinuation line = true) (last : Trailer) (before : List Trailer) :
    lines.foldl pushLine (last :: before) = lines.foldl Trailer.extend last :: before := by
  induction lines generalizing last with
  | nil => rfl
  | cons line lines ih =>
    obtain ⟨hline, hlines⟩ := List.forall_mem_cons.mp h
    have hpush : pushLine (last :: before) line = last.extend line :: before := by
      unfold pushLine
      rw [matchTrailer_of_continuation hline]
      exact if_pos hline
    rw [List.foldl_cons, hpush, ih hlines, List.foldl_cons]

theorem foldl_pushLine_groups {groups : List Group}
    (h : ∀ group ∈ groups, Starts group.1 ∧ Continued group) (before : List Trailer) :
    (groupLines groups).foldl pushLine before = (groups.map entryOf).reverse ++ before := by
  induction groups generalizing before with
  | nil => rfl
  | cons group groups ih =>
    obtain ⟨⟨hstarts, hcontinued⟩, hrest⟩ := List.forall_mem_cons.mp h
    rw [groupLines, List.flatMap_cons, List.cons_append, List.foldl_cons, pushLine_starts hstarts,
      List.foldl_append, foldl_pushLine_continued hcontinued]
    have htail := ih hrest (entryOf group :: before)
    rw [groupLines] at htail
    rw [List.map_cons, List.reverse_cons, List.append_assoc]
    exact htail

/-- **A paragraph is read** by its groups. -/
theorem readTrailers_groups {groups : List Group} (h : Grouped groups) :
    readTrailers (groupLines groups) = groups.map entryOf := by
  cases groups with
  | nil => rfl
  | cons group groups =>
    obtain ⟨hcontinued, hrest⟩ := h
    have htail := foldl_pushLine_groups hrest [entryOf group]
    rw [readTrailers, groupLines, List.flatMap_cons, List.cons_append, List.foldl_cons,
      pushLine_nil, List.foldl_append, foldl_pushLine_continued hcontinued]
    change ((groupLines groups).foldl pushLine [entryOf group]).reverse = _
    rw [htail, List.reverse_append, List.reverse_reverse]
    rfl

/-- Every paragraph is one of groups. -/
theorem exists_groups (lines : List Line) : ∃ groups, Grouped groups ∧ groupLines groups
    = lines := by
  induction lines with
  | nil => exact ⟨[], trivial, rfl⟩
  | cons line lines ih =>
    obtain ⟨groups, hgrouped, rfl⟩ := ih
    cases groups with
    | nil => exact ⟨[(line, [])], ⟨nofun, nofun⟩, rfl⟩
    | cons group groups =>
      obtain ⟨hcontinued, hrest⟩ := hgrouped
      by_cases hstarts : Starts group.1
      · refine ⟨(line, []) :: group :: groups, ⟨nofun, ?_⟩, rfl⟩
        exact List.forall_mem_cons.mpr ⟨⟨hstarts, hcontinued⟩, hrest⟩
      · -- the line is continued by the first group
        have hline : isContinuation group.1 = true :=
          Bool.eq_true_of_not_eq_false fun h => hstarts (.inr h)
        refine ⟨(line, group.1 :: group.2) :: groups, ⟨?_, hrest⟩, rfl⟩
        exact List.forall_mem_cons.mpr ⟨hline, hcontinued⟩

theorem Grouped.filter {groups : List Group} (h : Grouped groups) (p : Group → Bool) :
    Grouped (groups.filter p) := by
  have hstarts : ∀ groups : List Group, (∀ group ∈ groups, Starts group.1 ∧ Continued group) →
      Grouped groups := by
    intro groups hall
    cases groups with
    | nil => trivial
    | cons group groups =>
      obtain ⟨hfirst, hrest⟩ := List.forall_mem_cons.mp hall
      exact ⟨hfirst.2, hrest⟩
  cases groups with
  | nil => trivial
  | cons group groups =>
    have hrest : ∀ g ∈ groups.filter p, Starts g.1 ∧ Continued g :=
      fun g hg => h.2 g (List.mem_of_mem_filter hg)
    rw [List.filter_cons]
    split
    · exact ⟨h.1, hrest⟩
    · exact hstarts _ hrest

theorem Grouped.append {groups : List Group} (h : Grouped groups) {line : Line}
    (hline : Starts line) : Grouped (groups ++ [(line, [])]) := by
  cases groups with
  | nil => exact ⟨nofun, nofun⟩
  | cons group groups =>
    refine ⟨h.1, fun g hg => ?_⟩
    obtain hg | hg := List.mem_append.mp hg
    · exact h.2 g hg
    · rw [List.mem_singleton.mp hg]
      exact ⟨hline, nofun⟩

theorem entryOf_raw (group : Group) : (entryOf group).raw = group.1 :: group.2 := by
  have hextend : ∀ (lines : List Line) (last : Trailer),
      (lines.foldl Trailer.extend last).raw = last.raw ++ lines := by
    intro lines
    induction lines with
    | nil => exact fun _ => (List.append_nil _).symm
    | cons line lines ih =>
      intro last
      rw [List.foldl_cons, ih, Trailer.extend, List.append_assoc]
      rfl
  have hstart : (startTrailer group.1).raw = [group.1] := by
    unfold startTrailer
    split <;> rfl
  rw [entryOf, hextend, hstart]
  rfl

theorem flatMap_raw (groups : List Group) :
    (groups.map entryOf).flatMap Trailer.raw = groupLines groups := by
  rw [List.flatMap_map, groupLines]
  exact List.flatMap_congr fun group _ => entryOf_raw group

/-! ## 5. The line of a build -/

theorem validBuildSlug_mem {slug : Line} (h : validBuildSlug slug = true) {c : Char}
    (hc : c ∈ slug) : isTab c = false ∧ isSpace c = false ∧ isTerminator c = false ∧ c ≠ '\r' := by
  have hclass := List.all_eq_true.mp (Bool.and_eq_true_iff.mp h).1 c hc
  have hrange : 45 ≤ c.toNat ∧ c.toNat ≤ 122 := by
    simp only [Bool.or_eq_true, decide_eq_true_eq] at hclass
    obtain (hlower | hdigit) | rfl := hclass
    · replace hlower : (decide (c.val ≥ 'a'.val) && decide (c.val ≤ 'z'.val)) = true := hlower
      simp only [Bool.and_eq_true, decide_eq_true_eq] at hlower
      have h1 : 97 ≤ c.toNat := hlower.1
      have h2 : c.toNat ≤ 122 := hlower.2
      omega
    · simp only [Char.isDigit, Bool.and_eq_true, decide_eq_true_eq] at hdigit
      have h1 : 48 ≤ c.toNat := hdigit.1
      have h2 : c.toNat ≤ 57 := hdigit.2
      omega
    · decide
  have hne : ∀ d : Char, d.toNat < 45 → c ≠ d := by
    rintro d hd rfl
    omega
  refine ⟨?_, ?_, ?_, hne _ (by decide)⟩
  · simp [isTab, hne ' ' (by decide), hne '\t' (by decide)]
  · simp only [isSpace, Bool.or_eq_false_iff, Bool.and_eq_false_iff, decide_eq_false_iff_not,
      List.mem_cons, List.not_mem_nil, or_false]
    omega
  · simp only [isTerminator, Bool.or_eq_false_iff, decide_eq_false_iff_not]
    refine ⟨⟨⟨hne _ (by decide), hne _ (by decide)⟩, ?_⟩, ?_⟩ <;> omega

theorem dropReturn_of_mem {line : Line} (h : ∀ c ∈ line, c ≠ '\r') : dropReturn line = line :=
  if_neg fun hlast => h _ (List.mem_of_getLast? hlast) rfl

theorem dropReturn_buildLine {slug : Line} (h : validBuildSlug slug = true) :
    dropReturn (buildLine slug) = buildLine slug := by
  have hkeys : ((KEY ++ ": ".toList).all fun c => c ≠ '\r') = true := by decide
  refine dropReturn_of_mem fun c hc => ?_
  obtain hkey | hslug := List.mem_append.mp hc
  · exact of_decide_eq_true (List.all_eq_true.mp hkeys c hkey)
  · exact (validBuildSlug_mem h hslug).2.2.2

theorem trim_slug {slug : Line} (h : validBuildSlug slug = true) : trim slug = slug := by
  have hspace : ∀ c ∈ slug, ¬ isSpace c = true := fun c hc => by
    rw [(validBuildSlug_mem h hc).2.1]
    exact Bool.false_ne_true
  have hdrop : slug.dropWhile isSpace = slug := by
    cases slug with
    | nil => rfl
    | cons c rest => exact List.dropWhile_cons_of_neg (hspace c List.mem_cons_self)
  rw [trim, hdrop, List.rdropWhile_eq_self_iff]
  exact fun hne => hspace _ (List.getLast_mem hne)

theorem matchTrailer_buildLine {slug : Line} (h : validBuildSlug slug = true) :
    matchTrailer (buildLine slug) = some (KEY, slug) := by
  have hdrop : ((buildLine slug).dropWhile isKeyChar).dropWhile isTab = ':' :: ' ' :: slug := rfl
  have htake : (buildLine slug).takeWhile isKeyChar = KEY := rfl
  have hrest : (' ' :: slug).dropWhile isTab = slug := by
    rw [List.dropWhile_cons_of_pos rfl]
    cases slug with
    | nil => rfl
    | cons c rest =>
      refine List.dropWhile_cons_of_neg ?_
      rw [(validBuildSlug_mem h List.mem_cons_self).1]
      exact Bool.false_ne_true
  have hreturn : dropReturn slug = slug :=
    dropReturn_of_mem fun c hc => (validBuildSlug_mem h hc).2.2.2
  have hall : (slug.all fun c => !isTerminator c) = true := by
    refine List.all_eq_true.mpr fun c hc => ?_
    rw [(validBuildSlug_mem h hc).2.2.1]
    rfl
  unfold matchTrailer
  rw [hdrop]
  change (if (buildLine slug).takeWhile isKeyChar ≠ [] ∧
      ((dropReturn ((' ' :: slug).dropWhile isTab)).all fun c => !isTerminator c) = true then
    some ((buildLine slug).takeWhile isKeyChar, dropReturn ((' ' :: slug).dropWhile isTab))
    else none) = _
  rw [htake, hrest, hreturn, if_pos ⟨by decide, hall⟩]

def buildEntry (slug : Line) : Trailer := ⟨KEY, slug, [buildLine slug]⟩

theorem entryOf_buildLine {slug : Line} (h : validBuildSlug slug = true) :
    entryOf (buildLine slug, []) = buildEntry slug := by
  unfold entryOf startTrailer
  rw [matchTrailer_buildLine h]
  dsimp only [List.foldl_nil]
  rw [trim_slug h]
  rfl

theorem starts_buildLine {slug : Line} (h : validBuildSlug slug = true) :
    Starts (buildLine slug) := by
  left
  rw [matchTrailer_buildLine h]
  exact Option.some_ne_none _

theorem readTrailers_append {groups : List Group} (hgrouped : Grouped groups) {slug : Line}
    (h : validBuildSlug slug = true) :
    readTrailers (groupLines groups ++ [buildLine slug]) =
      groups.map entryOf ++ [buildEntry slug] := by
  have hread := readTrailers_groups (hgrouped.append (starts_buildLine h))
  rw [groupLines, List.flatMap_append, List.flatMap_singleton, List.map_append,
    List.map_singleton, entryOf_buildLine h] at hread
  exact hread

/-! ## 6. A message with its stamp -/

/-- The split of a message that begins with a subject. -/
inductive SplitsAs (message : List Line) : Prop
  | whole : splitTrailers message false = (stripNewlines message, []) → SplitsAs message
  | block (before : List Line) (groups : List Group) : EndsParagraph before → Grouped groups →
      groups ≠ [] → stripNewlines message = before ++ groupLines groups →
      Solid (groupLines groups) →
      splitTrailers message false = (before ++ [[]], groups.map entryOf) → SplitsAs message

theorem splitsAs (message : List Line) : SplitsAs message := by
  obtain ⟨before, last, hsplit⟩ : ∃ before last,
      splitParagraph (stripNewlines message) = (before, last) := ⟨_, _, rfl⟩
  by_cases hnil : before = []
  · refine .whole ?_
    unfold splitTrailers
    dsimp only
    rw [hsplit]
    exact if_pos ⟨hnil, rfl⟩
  · obtain ⟨hcontent, hsolid, hlast, hends⟩ := splitParagraph_spec hsplit hnil
    obtain ⟨groups, hgrouped, rfl⟩ := exists_groups last
    by_cases hcounts : countsAsTrailers (groups.map entryOf) = true
    · refine .block before groups hends hgrouped ?_ hcontent hsolid ?_
      · rintro rfl
        exact hlast rfl
      · unfold splitTrailers
        dsimp only
        rw [hsplit]
        dsimp only
        rw [if_neg fun h => hnil h.1, readTrailers_groups hgrouped, if_pos hcounts]
    · refine .whole ?_
      unfold splitTrailers
      dsimp only
      rw [hsplit]
      dsimp only
      rw [if_neg fun h => hnil h.1, readTrailers_groups hgrouped, if_neg hcounts]

/-- The trailers that a stamp keeps. -/
def keptTrailers (message : List Line) : List Trailer :=
  (splitTrailers message false).2.filter fun entry => !entry.isBuild

theorem concat_nil_line {xs : List Line} (h : xs ≠ []) : concat xs [[]] = xs := by
  obtain ⟨front, line, rfl⟩ : ∃ front line, xs = front ++ [line] :=
    ⟨_, _, (List.dropLast_append_getLast h).symm⟩
  rw [concat_append, List.append_nil]

theorem concat_newline {xs : List Line} (h : xs ≠ []) (ys : List Line) :
    concat xs ([] :: ys) = xs ++ ys := by
  obtain ⟨front, line, rfl⟩ : ∃ front line, xs = front ++ [line] :=
    ⟨_, _, (List.dropLast_append_getLast h).symm⟩
  rw [concat_append, List.append_nil, List.append_assoc, List.singleton_append]

theorem concat_opened (xs : List Line) (y : Line) (ys : List Line) :
    concat (xs ++ [[]]) (y :: ys) = xs ++ y :: ys := concat_append xs [] y ys

theorem withBuildTrailer_eq {message : List Line} {slug : Line}
    (hslug : validBuildSlug slug = true) :
    withBuildTrailer message slug true =
      .ok (concat (stampedBody (splitTrailers message false).1 (keptTrailers message) true)
        [buildLine slug, []]) := by
  unfold withBuildTrailer validateBuildSlug
  rw [if_pos hslug]
  rfl

/-- A paragraph that is no block of trailers is followed by one of the stamp. -/
theorem stamp_whole {message : List Line} {slug : Line} (hmessage : message ≠ [])
    (hslug : validBuildSlug slug = true)
    (h : splitTrailers message false = (stripNewlines message, [])) :
    withBuildTrailer message slug true =
      .ok (stripNewlines message ++ [[]] ++ [buildLine slug, []]) := by
  have hne := stripNewlines_ne_nil hmessage
  have hbody : stampedBody (stripNewlines message) [] true =
      stripNewlines message ++ [[], []] := by
    unfold stampedBody rawText
    dsimp only
    rw [if_neg (by simp), if_pos rfl, concat_nil_line hne,
      if_pos ⟨.inr rfl, endsBlank_stripNewlines message⟩, concat_newline hne]
  rw [withBuildTrailer_eq hslug, keptTrailers, h]
  change Except.ok (concat (stampedBody _ [] true) _) = _
  rw [hbody, ← List.singleton_append, ← List.append_assoc, concat_opened]

/-- A block of trailers is followed by the stamp. -/
theorem stamp_block {message before : List Line} {groups : List Group} {slug : Line}
    (hslug : validBuildSlug slug = true) (hbefore : EndsParagraph before)
    (h : splitTrailers message false = (before ++ [[]], groups.map entryOf)) :
    withBuildTrailer message slug true =
      .ok (before ++ groupLines (groups.filter fun group => !(entryOf group).isBuild) ++
        [buildLine slug, []]) := by
  have hkept : keptTrailers message =
      (groups.filter fun group => !(entryOf group).isBuild).map entryOf := by
    rw [keptTrailers, h, List.filter_map]
    rfl
  rw [withBuildTrailer_eq hslug, hkept, h]
  generalize groups.filter (fun group => !(entryOf group).isBuild) = kept
  cases kept with
  | nil =>
    have hblank : endsBlank (before ++ [[]]) = true := by
      obtain ⟨first, front, blank, rfl, hblank⟩ := hbefore
      unfold endsBlank
      rw [List.reverse_append, List.reverse_append]
      cases hfront : (first :: front).reverse with
      | nil => exact absurd (congrArg List.length hfront) (by simp)
      | cons line rest => exact hblank
    have hbody : stampedBody (before ++ [[]]) [] true = before ++ [[]] := by
      unfold stampedBody rawText
      dsimp only
      rw [if_neg (by simp), if_pos rfl, concat_nil_line (by simp), if_neg]
      rw [hblank]
      exact fun h => absurd h.2.symm Bool.false_ne_true
    change Except.ok (concat (stampedBody _ [] true) _) = _
    rw [hbody, concat_opened, groupLines, List.flatMap_nil, List.append_nil]
  | cons group kept =>
    have hraw : rawText ((group :: kept).map entryOf) = groupLines (group :: kept) := by
      rw [rawText, if_neg (by simp), flatMap_raw]
    have hbody : stampedBody (before ++ [[]]) ((group :: kept).map entryOf) true =
        before ++ groupLines (group :: kept) ++ [[]] := by
      unfold stampedBody
      dsimp only
      rw [if_pos (by simp), hraw, groupLines, List.flatMap_cons, List.cons_append,
        concat_opened, concat_newline (by simp)]
    rw [hbody, concat_opened]

/-! ## 7. What a stamped message is read as -/

theorem buildLine_ne_nil (slug : Line) : buildLine slug ≠ [] := by
  unfold buildLine
  exact List.append_ne_nil_of_left_ne_nil (by decide) slug

theorem isBuild_buildEntry (slug : Line) : (buildEntry slug).isBuild = true := by
  unfold Trailer.isBuild buildEntry
  exact decide_eq_true rfl

/-- **What a stamped message ends with.** -/
theorem splitTrailers_stamped {before : List Line} {groups : List Group} {slug : Line}
    (hslug : validBuildSlug slug = true) (hbefore : EndsParagraph before)
    (hgrouped : Grouped groups)
    (hblank : ∀ line ∈ groupLines groups, isBlank line = false) :
    splitTrailers (before ++ groupLines groups ++ [buildLine slug, []]) false =
      if countsAsTrailers (groups.map entryOf ++ [buildEntry slug]) then
        (before ++ [[]], (groups ++ [(buildLine slug, [])]).map entryOf)
      else (before ++ groupLines groups ++ [buildLine slug], []) := by
  have hcontent : stripNewlines (before ++ groupLines groups ++ [buildLine slug, []]) =
      before ++ (groupLines groups ++ [buildLine slug]) := by
    rw [stripNewlines_append (buildLine_ne_nil slug) (dropReturn_buildLine hslug),
      List.append_assoc]
  have hsolid : Solid (groupLines groups ++ [buildLine slug]) := by
    intro line hline
    rw [List.dropLast_concat] at hline
    exact hblank line hline
  have hsplit := hbefore.split (List.append_ne_nil_of_right_ne_nil _ (List.cons_ne_nil _ _)) hsolid
  have hends : before ≠ [] := by
    obtain ⟨first, front, blank, rfl, -⟩ := hbefore
    exact List.cons_ne_nil _ _
  unfold splitTrailers
  dsimp only
  rw [hcontent, hsplit]
  dsimp only
  rw [if_neg fun h => hends h.1, readTrailers_append hgrouped hslug, List.map_append,
    List.map_singleton, entryOf_buildLine hslug, List.append_assoc]

/-- What the identities of a stamped message are, and that its stamp is not moved again. -/
structure Reads (message : List Line) (slug : Line) : Prop where
  build : buildTrailers message = [slug]
  other : ∀ other, validBuildSlug other = true → other ≠ slug →
    hasBuildTrailer message other = .ok false
  again : withBuildTrailer message slug true = .ok message

theorem hasBuildTrailer_of_build {message : List Line} {slug : Line}
    (h : buildTrailers message = [slug]) {other : Line} (hother : validBuildSlug other = true)
    (hne : other ≠ slug) : hasBuildTrailer message other = .ok false := by
  unfold hasBuildTrailer validateBuildSlug
  rw [if_pos hother, h]
  exact congrArg Except.ok (decide_eq_false fun hmem => hne (List.mem_singleton.mp hmem))

theorem filter_stamped {groups : List Group} {slug : Line} (hslug : validBuildSlug slug = true)
    (hkept : ∀ group ∈ groups, (entryOf group).isBuild = false) :
    (groups ++ [(buildLine slug, [])]).filter (fun group => !(entryOf group).isBuild) = groups := by
  rw [List.filter_append, List.filter_eq_self.mpr fun group hgroup => by
    rw [hkept group hgroup]; rfl,
    List.filter_eq_nil_iff.mpr, List.append_nil]
  intro group hgroup
  rw [List.mem_singleton.mp hgroup, entryOf_buildLine hslug, isBuild_buildEntry]
  exact Bool.false_ne_true

/-- **A stamp is read** where its paragraph counts as trailers, and nowhere else. -/
theorem reads_iff {before : List Line} {groups : List Group} {slug : Line}
    (hslug : validBuildSlug slug = true) (hbefore : EndsParagraph before)
    (hgrouped : Grouped groups)
    (hblank : ∀ line ∈ groupLines groups, isBlank line = false)
    (hkept : ∀ group ∈ groups, (entryOf group).isBuild = false) :
    Reads (before ++ groupLines groups ++ [buildLine slug, []]) slug ↔
      countsAsTrailers (groups.map entryOf ++ [buildEntry slug]) = true := by
  have hsplit := splitTrailers_stamped hslug hbefore hgrouped hblank
  have hnone : (groups.map entryOf).filter Trailer.isBuild = [] := by
    refine List.filter_eq_nil_iff.mpr fun entry hentry => ?_
    obtain ⟨group, hgroup, rfl⟩ := List.mem_map.mp hentry
    rw [hkept group hgroup]
    exact Bool.false_ne_true
  constructor
  · intro h
    by_contra hcounts
    rw [if_neg hcounts] at hsplit
    have hbuild := h.build
    rw [buildTrailers, hsplit] at hbuild
    exact absurd hbuild.symm (List.cons_ne_nil _ _)
  · intro hcounts
    rw [if_pos hcounts] at hsplit
    have hbuild : buildTrailers (before ++ groupLines groups ++ [buildLine slug, []]) = [slug] := by
      rw [buildTrailers, hsplit]
      dsimp only
      rw [List.map_append, List.map_singleton, entryOf_buildLine hslug, List.filter_append, hnone,
        List.filter_cons_of_pos (isBuild_buildEntry slug)]
      rfl
    refine ⟨hbuild, fun other => hasBuildTrailer_of_build hbuild, ?_⟩
    rw [stamp_block hslug hbefore hsplit, filter_stamped hslug hkept]

/-! ## 8. Blank lines -/

theorem not_continuation_of_blank {line : Line} (h : isBlank line = true) :
    isContinuation line = false := by
  unfold isContinuation
  obtain hnil | hreturn := Bool.or_eq_true_iff.mp h
  · rw [of_decide_eq_true hnil]
    exact Bool.and_false _
  · rw [of_decide_eq_true hreturn]
    exact Bool.and_false _

theorem not_trailer_of_blank {line : Line} (h : isBlank line = true) :
    matchTrailer line = none := by
  have hkeys : line.dropWhile isKeyChar = line := by
    cases line with
    | nil => rfl
    | cons c rest =>
      refine List.dropWhile_cons_of_neg fun hkey => ?_
      have htab : isTab c = false := by
        refine Bool.eq_false_of_not_eq_true fun htab => ?_
        obtain hc | hc := Bool.or_eq_true_iff.mp htab <;>
        · rw [of_decide_eq_true hc] at hkey
          exact absurd hkey (by decide)
      have hdrop : (c :: rest).dropWhile isTab = c :: rest :=
        List.dropWhile_cons_of_neg (by rw [htab]; exact Bool.false_ne_true)
      unfold isBlank at h
      rw [hdrop] at h
      obtain hnil | hreturn := Bool.or_eq_true_iff.mp h
      · exact absurd (of_decide_eq_true hnil) (List.cons_ne_nil _ _)
      · rw [(List.cons_eq_cons.mp (of_decide_eq_true hreturn)).1] at hkey
        exact absurd hkey (by decide)
  unfold matchTrailer
  rw [hkeys]
  split
  · rename_i rest hrest
    unfold isBlank at h
    rw [hrest] at h
    obtain hnil | hreturn := Bool.or_eq_true_iff.mp h
    · exact absurd (of_decide_eq_true hnil) (List.cons_ne_nil _ _)
    · exact absurd (List.cons_eq_cons.mp (of_decide_eq_true hreturn)).1 (by decide)
  · rfl

theorem blank_kept {line : Line} (h : isBlank line = true) :
    (entryOf (line, [])).isBuild = false := by
  unfold entryOf startTrailer
  rw [not_trailer_of_blank h]
  rfl

/-- A blank line at the end of a paragraph is an entry of its own. -/
theorem groupLines_blank {groups : List Group} (hgrouped : Grouped groups) {front : List Line}
    {blank : Line} (hlines : groupLines groups = front ++ [blank]) (hblank : isBlank blank = true) :
    ∃ init, groups = init ++ [(blank, [])] := by
  obtain rfl | ⟨init, group, rfl⟩ := List.eq_nil_or_concat' groups
  · exact absurd hlines.symm (List.append_ne_nil_of_right_ne_nil _ (List.cons_ne_nil _ _))
  · have hcontinued : Continued group := by
      cases init with
      | nil => exact hgrouped.1
      | cons _ _ => exact (hgrouped.2 group (List.mem_append_right _ List.mem_cons_self)).2
    obtain ⟨first, continued⟩ := group
    rw [groupLines, List.flatMap_append, List.flatMap_singleton] at hlines
    obtain rfl | ⟨others, last, rfl⟩ := List.eq_nil_or_concat' continued
    · have hlast : [first] = [blank] := List.append_inj_right' hlines rfl
      rw [List.singleton_inj.mp hlast]
      exact ⟨init, rfl⟩
    · rw [← List.cons_append, ← List.append_assoc] at hlines
      have hlast := List.singleton_inj.mp (List.append_inj_right' hlines rfl)
      have hline : isContinuation last = true :=
        hcontinued last (List.mem_append_right _ List.mem_cons_self)
      rw [hlast, not_continuation_of_blank hblank] at hline
      exact absurd hline Bool.false_ne_true

/-- The message ends with a line of blanks and tabs, behind which it has no newline. -/
def EndsWithBlank (message : List Line) : Prop :=
  ∃ front blank, stripNewlines message = front ++ [blank] ∧ isBlank blank = true

theorem groupLines_append (xs ys : List Group) :
    groupLines (xs ++ ys) = groupLines xs ++ groupLines ys := List.flatMap_append

theorem endsWithBlank_iff {message before : List Line} {groups : List Group} (hne : groups ≠ [])
    (h : stripNewlines message = before ++ groupLines groups) :
    EndsWithBlank message ↔
      ∃ front blank, groupLines groups = front ++ [blank] ∧ isBlank blank = true := by
  have hlines : groupLines groups ≠ [] := by
    obtain ⟨group, rest, rfl⟩ := List.exists_cons_of_ne_nil hne
    rw [groupLines, List.flatMap_cons]
    exact List.cons_ne_nil _ _
  obtain ⟨front, last, hlast⟩ : ∃ front last, groupLines groups = front ++ [last] :=
    ⟨_, _, (List.dropLast_append_getLast hlines).symm⟩
  rw [EndsWithBlank, h, hlast, ← List.append_assoc]
  constructor
  · rintro ⟨front', blank, heq, hblank⟩
    rw [← List.singleton_inj.mp (List.append_inj_right' heq rfl)] at hblank
    exact ⟨front, last, rfl, hblank⟩
  · rintro ⟨front', blank, heq, hblank⟩
    rw [← List.singleton_inj.mp (List.append_inj_right' heq rfl)] at hblank
    exact ⟨before ++ front, last, rfl, hblank⟩

theorem not_blank_of_solid {lines : List Line} (hsolid : Solid lines)
    (hlast : ¬ ∃ front blank, lines = front ++ [blank] ∧ isBlank blank = true) :
    ∀ line ∈ lines, isBlank line = false := by
  intro line hline
  obtain rfl | ⟨front, last, rfl⟩ := List.eq_nil_or_concat' lines
  · exact absurd hline List.not_mem_nil
  · obtain hfront | hline := List.mem_append.mp hline
    · exact hsolid line (by rw [List.dropLast_concat]; exact hfront)
    · rw [List.mem_singleton.mp hline]
      exact Bool.eq_false_of_not_eq_true fun hblank => hlast ⟨front, last, rfl, hblank⟩

/-! ## 9. The round trip -/

/-- The lines of the message stand in the stamped one, in their order, but those of the trailers
that were taken out and the newlines at the end. -/
def KeepsLines (message : List Line) (slug : Line) (stamped : List Line) : Prop :=
  ∃ before separator,
    stripNewlines message = before ++ (splitTrailers message false).2.flatMap Trailer.raw ∧
    (separator = [] ∨ separator = [[]]) ∧
    stamped = before ++ (keptTrailers message).flatMap Trailer.raw ++ separator ++
      [buildLine slug, []]

def RoundTrips (message : List Line) (slug : Line) : Prop :=
  ∃ stamped, withBuildTrailer message slug true = .ok stamped ∧ Reads stamped slug ∧
    KeepsLines message slug stamped

theorem roundTrips_iff {message stamped : List Line} {slug : Line}
    (hstamp : withBuildTrailer message slug true = .ok stamped)
    (hlines : KeepsLines message slug stamped) : RoundTrips message slug ↔ Reads stamped slug := by
  constructor
  · rintro ⟨stamped', hstamp', hreads, -⟩
    rw [hstamp] at hstamp'
    cases hstamp'
    exact hreads
  · exact fun hreads => ⟨stamped, hstamp, hreads, hlines⟩

/-- A stamp in a paragraph of its own is read. -/
theorem reads_alone {before : List Line} {slug : Line} (hslug : validBuildSlug slug = true)
    (hbefore : EndsParagraph before) : Reads (before ++ [buildLine slug, []]) slug := by
  have h := (@reads_iff before [] slug hslug hbefore trivial nofun nofun).mpr rfl
  rw [groupLines, List.flatMap_nil, List.append_nil] at h
  exact h

theorem roundTrips_whole {message : List Line} {slug : Line} (hmessage : message ≠ [])
    (hslug : validBuildSlug slug = true)
    (h : splitTrailers message false = (stripNewlines message, [])) : RoundTrips message slug := by
  obtain ⟨first, front, hcontent⟩ := List.exists_cons_of_ne_nil (stripNewlines_ne_nil hmessage)
  refine ⟨_, stamp_whole hmessage hslug h, reads_alone hslug ⟨first, front, [], ?_, rfl⟩, ?_⟩
  · rw [hcontent]
  · refine ⟨stripNewlines message, [[]], ?_, .inr rfl, ?_⟩
    · rw [h]
      exact (List.append_nil _).symm
    · rw [keptTrailers, h]
      exact congrArg (· ++ _) (congrArg (· ++ _) (List.append_nil _).symm)

section

variable {message before : List Line} {groups : List Group} {slug : Line}

theorem keptTrailers_block
    (h : splitTrailers message false = (before ++ [[]], groups.map entryOf)) :
    keptTrailers message =
      (groups.filter fun group => !(entryOf group).isBuild).map entryOf := by
  rw [keptTrailers, h, List.filter_map]
  rfl

theorem keepsLines_block (hcontent : stripNewlines message = before ++ groupLines groups)
    (h : splitTrailers message false = (before ++ [[]], groups.map entryOf)) :
    KeepsLines message slug
      (before ++ groupLines (groups.filter fun group => !(entryOf group).isBuild) ++
        [buildLine slug, []]) := by
  refine ⟨before, [], ?_, .inl rfl, ?_⟩
  · rw [h, hcontent]
    dsimp only
    rw [flatMap_raw]
  · rw [keptTrailers_block h, flatMap_raw, List.append_nil]

/-- **A stamp in a block of trailers is read**, unless it is the end of a paragraph that no longer
counts as trailers. -/
theorem reads_block (hslug : validBuildSlug slug = true) (hbefore : EndsParagraph before)
    (hgrouped : Grouped groups) (hne : groups ≠ [])
    (hcontent : stripNewlines message = before ++ groupLines groups)
    (hsolid : Solid (groupLines groups))
    (h : splitTrailers message false = (before ++ [[]], groups.map entryOf)) :
    Reads (before ++ groupLines (groups.filter fun group => !(entryOf group).isBuild) ++
        [buildLine slug, []]) slug ↔
      keptTrailers message = [] ∨ EndsWithBlank message ∨
        countsAsTrailers (keptTrailers message ++ [buildEntry slug]) = true := by
  have hends := endsWithBlank_iff hne hcontent
  rw [keptTrailers_block h]
  by_cases hlast : EndsWithBlank message
  · -- the blank line is kept, and begins a paragraph of the stamp alone
    refine iff_of_true ?_ (.inr (.inl hlast))
    obtain ⟨front, blank, hlines, hblank⟩ := hends.mp hlast
    obtain ⟨init, rfl⟩ := groupLines_blank hgrouped hlines hblank
    rw [List.filter_append, List.filter_cons_of_pos (by rw [blank_kept hblank]; rfl),
      List.filter_nil, groupLines_append, ← List.append_assoc]
    obtain ⟨first, rest, last, rfl, -⟩ := hbefore
    refine reads_alone hslug ⟨first, rest ++ [last] ++
      groupLines (init.filter fun group => !(entryOf group).isBuild), blank, ?_, hblank⟩
    rw [List.cons_append, List.cons_append]
    rfl
  · have hkept : ∀ group ∈ groups.filter (fun group => !(entryOf group).isBuild),
        (entryOf group).isBuild = false := by
      intro group hgroup
      have hnot : (!(entryOf group).isBuild) = true :=
        List.of_mem_filter (p := fun group => !(entryOf group).isBuild) hgroup
      rwa [Bool.not_eq_true'] at hnot
    have hsub : ∀ line ∈ groupLines (groups.filter fun group => !(entryOf group).isBuild),
        isBlank line = false := by
      intro line hline
      obtain ⟨group, hgroup, hmem⟩ := List.mem_flatMap.mp hline
      exact not_blank_of_solid hsolid (fun hb => hlast (hends.mpr hb)) line
        (List.mem_flatMap.mpr ⟨group, List.mem_of_mem_filter hgroup, hmem⟩)
    rw [reads_iff hslug hbefore (hgrouped.filter _) hsub hkept]
    refine ⟨fun hcounts => .inr (.inr hcounts), ?_⟩
    rintro (hnil | hbad | hcounts)
    · rw [hnil]
      rfl
    · exact absurd hbad hlast
    · exact hcounts

end

/-- A stamp makes the round trip **if and only if** the trailers kept are none, or the message ends
with a blank line, or what is kept still counts as trailers with the stamp. -/
theorem stamp_iff {message : List Line} {slug : Line} (hmessage : message ≠ [])
    (hslug : validBuildSlug slug = true) :
    RoundTrips message slug ↔
      keptTrailers message = [] ∨ EndsWithBlank message ∨
        countsAsTrailers (keptTrailers message ++ [buildEntry slug]) = true := by
  cases splitsAs message with
  | whole h =>
    refine iff_of_true (roundTrips_whole hmessage hslug h) (.inl ?_)
    rw [keptTrailers, h]
    rfl
  | block before groups hbefore hgrouped hne hcontent hsolid h =>
    rw [roundTrips_iff (stamp_block hslug hbefore h) (keepsLines_block hcontent h)]
    exact reads_block hslug hbefore hgrouped hne hcontent hsolid h

/-- A subject, and a paragraph of a signoff with two builds and nine lines of prose. -/
def landedTwice : List Line :=
  ["Fix".toList, [], "Signed-off-by: x".toList, "Autobuild-Build: a".toList,
    "Autobuild-Build: b".toList] ++ List.replicate 9 "and".toList

/-- A landed change with a signoff is stamped for another build. -/
theorem stamp_iff_landed :
    RoundTrips ["Fix".toList, [], "Signed-off-by: x".toList, "Autobuild-Build: b".toList]
      "a".toList :=
  (stamp_iff (List.cons_ne_nil _ _) (by decide)).mpr (.inr (.inr (by decide)))

/-- With one build for two, the paragraph has two trailers in eleven. -/
theorem not_stamp : landedTwice ≠ [] ∧ validBuildSlug "a".toList = true ∧
    buildTrailers landedTwice = ["a".toList, "b".toList] ∧ ¬ RoundTrips landedTwice "a".toList := by
  refine ⟨List.cons_ne_nil _ _, by decide, by decide, ?_⟩
  rintro ⟨stamped, hstamp, hreads, -⟩
  obtain ⟨stamped', hstamp', hbuild⟩ : ∃ stamped', withBuildTrailer landedTwice "a".toList true =
      .ok stamped' ∧ buildTrailers stamped' = [] := ⟨_, rfl, by decide⟩
  rw [hstamp] at hstamp'
  cases hstamp'
  rw [hreads.build] at hbuild
  exact List.cons_ne_nil _ _ hbuild

end Autobuild
