/-
# JSON values and texts

`Json` keeps the order of an object's properties, because `JSON.stringify` writes them in
that order: two objects with the same properties in another order have different texts.

* `stringify` is `JSON.stringify`, `parse` is `JSON.parse` (`none` where it throws).
* `canonical` writes properties sorted by name, so its text does not depend on their order.

Numbers keep the text they are written with.
-/
import Autobuild.Lib.JsText

inductive Json where
  | null
  | bool (value : Bool)
  | num (text : String)
  | str (value : String)
  | arr (items : List Json)
  | obj (properties : List (String × Json))

namespace Json

def nat (n : Nat) : Json := .num (toString n)

/-! ## 1. Writing -/

def hexDigit (n : Nat) : Char :=
  if n < 10 then Char.ofNat (48 + n) else Char.ofNat (87 + n)

/-- One character of a string literal. -/
def escape (c : Char) : List Char :=
  if c = '"' then ['\\', '"']
  else if c = '\\' then ['\\', '\\']
  else if c.toNat = 8 then ['\\', 'b']
  else if c.toNat = 9 then ['\\', 't']
  else if c.toNat = 10 then ['\\', 'n']
  else if c.toNat = 12 then ['\\', 'f']
  else if c.toNat = 13 then ['\\', 'r']
  else if c.toNat < 32 then ['\\', 'u', '0', '0', hexDigit (c.toNat / 16), hexDigit (c.toNat % 16)]
  else [c]

def quote (s : String) : String :=
  "\"" ++ String.ofList (s.toList.flatMap escape) ++ "\""

def joinComma (texts : List String) : String := String.intercalate "," texts

mutual

/-- `JSON.stringify`. -/
def stringify : Json → String
  | .null => "null"
  | .bool true => "true"
  | .bool false => "false"
  | .num text => text
  | .str value => quote value
  | .arr items => "[" ++ joinComma (stringifyItems items) ++ "]"
  | .obj properties => "\x7b" ++ joinComma (stringifyProperties properties) ++ "\x7d"

def stringifyItems : List Json → List String
  | [] => []
  | item :: items => stringify item :: stringifyItems items

def stringifyProperties : List (String × Json) → List String
  | [] => []
  | property :: properties => stringifyProperty property :: stringifyProperties properties

def stringifyProperty : String × Json → String
  | (key, value) => quote key ++ ":" ++ stringify value

end

/-- `a.localeCompare(b) <= 0` on words of ASCII letters: case counts only between words that
differ in nothing else. -/
def localeLe (a b : String) : Bool :=
  let folded := fun (s : String) => s.toList.map (fun c => c.toLower.toNat)
  decide (folded a < folded b) || (decide (folded a = folded b) && decide (b.toList ≤ a.toList))

mutual

/-- The text with the properties of every object sorted by name. -/
def canonical : Json → String
  | .arr items => "[" ++ joinComma (canonicalItems items) ++ "]"
  | .obj properties =>
    let texts := (canonicalProperties properties).insertionSort (fun a b => localeLe a.1 b.1)
    "\x7b" ++ joinComma (texts.map (fun text => quote text.1 ++ ":" ++ text.2)) ++ "\x7d"
  | value => stringify value

def canonicalItems : List Json → List String
  | [] => []
  | item :: items => canonical item :: canonicalItems items

def canonicalProperties : List (String × Json) → List (String × String)
  | [] => []
  | property :: properties => canonicalProperty property :: canonicalProperties properties

def canonicalProperty : String × Json → String × String
  | (key, value) => (key, canonical value)

end

/-! ## 2. Reading -/

def skipSpace : List Char → List Char
  | [] => []
  | c :: cs => if c = ' ' ∨ c = '\t' ∨ c = '\n' ∨ c = '\r' then skipSpace cs else c :: cs

def hexValue? (c : Char) : Option Nat :=
  if c.isDigit then some (c.toNat - 48)
  else if 'a' ≤ c ∧ c ≤ 'f' then some (c.toNat - 87)
  else if 'A' ≤ c ∧ c ≤ 'F' then some (c.toNat - 55)
  else none

def hex4? (a b c d : Char) : Option Nat := do
  return (((← hexValue? a) * 16 + (← hexValue? b)) * 16 + (← hexValue? c)) * 16 + (← hexValue? d)

/-- A code unit written with `\u` before the characters already read; it joins a low surrogate
that follows it, and a surrogate left alone is read as U+FFFD. -/
def consUnit (unit : Nat) (low : Option Nat) : Char :=
  match low with
  | some low => Char.ofNat (0x10000 + (unit - 0xD800) * 0x400 + (low - 0xDC00))
  | none => if 0xD800 ≤ unit ∧ unit ≤ 0xDFFF then Char.ofNat 0xFFFD else Char.ofNat unit

def isHigh (unit : Nat) : Bool := decide (0xD800 ≤ unit ∧ unit < 0xDC00)

def isLow (unit : Nat) : Bool := decide (0xDC00 ≤ unit ∧ unit < 0xE000)

/-- The four digits after `\u`. -/
def readHex4 : List Char → Option (Nat × List Char)
  | a :: b :: c :: d :: cs => (hex4? a b c d).map (fun unit => (unit, cs))
  | _ => none

/-- `\u` and four digits. -/
def readUnit : List Char → Option (Nat × List Char)
  | c :: e :: cs => if c = '\\' ∧ e = 'u' then readHex4 cs else none
  | _ => none

/-- What the character after a backslash stands for. -/
def unescape? (e : Char) : Option Char :=
  if e = '"' ∨ e = '\\' ∨ e = '/' then some e
  else if e = 'b' then some (Char.ofNat 8)
  else if e = 'f' then some (Char.ofNat 12)
  else if e = 'n' then some (Char.ofNat 10)
  else if e = 'r' then some (Char.ofNat 13)
  else if e = 't' then some (Char.ofNat 9)
  else none

/-- One character of a string literal that is no quote. -/
def readChar : List Char → Option (Char × List Char)
  | [] => none
  | c :: cs =>
    if c.toNat < 32 then none
    else if c ≠ '\\' then some (c, cs)
    else
      match readUnit (c :: cs) with
      | some (unit, rest) =>
        match readUnit rest with
        | some (low, rest') =>
          if isHigh unit && isLow low then some (consUnit unit (some low), rest')
          else some (consUnit unit none, rest)
        | none => some (consUnit unit none, rest)
      | none =>
        match cs with
        | e :: rest => (unescape? e).map (fun c => (c, rest))
        | [] => none

/-- The rest of a string literal after its opening quote. -/
def readString : Nat → List Char → Option (List Char × List Char)
  | 0, _ => none
  | _ + 1, [] => none
  | fuel + 1, c :: cs =>
    if c = '"' then some ([], cs)
    else do
      let (head, rest) ← readChar (c :: cs)
      let (text, rest) ← readString fuel rest
      return (head :: text, rest)

def spanDigits (cs : List Char) : List Char × List Char := cs.span Char.isDigit

/-- One or more digits. -/
def readDigits (cs : List Char) : Option (List Char × List Char) :=
  match spanDigits cs with
  | ([], _) => none
  | result => some result

/-- The exponent of a number, with what it was read from. -/
def readExponent : List Char → Option (List Char × List Char)
  | e :: cs =>
    if e = 'e' ∨ e = 'E' then
      match cs with
      | s :: cs' =>
        if s = '+' ∨ s = '-' then do
          let (digits, rest) ← readDigits cs'
          return (e :: s :: digits, rest)
        else do
          let (digits, rest) ← readDigits cs
          return (e :: digits, rest)
      | [] => none
    else some ([], e :: cs)
  | [] => some ([], [])

def readFraction : List Char → Option (List Char × List Char)
  | [] => some ([], [])
  | c :: cs =>
    if c = '.' then do
      let (digits, rest) ← readDigits cs
      return (c :: digits, rest)
    else some ([], c :: cs)

/-- A number without its sign. -/
def readUnsigned (cs : List Char) : Option (List Char × List Char) := do
  let (whole, rest) ← if cs.head? = some '0' then some (['0'], cs.tail) else readDigits cs
  let (fraction, rest) ← readFraction rest
  let (exponent, rest) ← readExponent rest
  return (whole ++ fraction ++ exponent, rest)

/-- A later property of the same name replaces the value of the first. -/
def setProperty (key : String) (value : Json) : List (String × Json) → List (String × Json)
  | [] => [(key, value)]
  | (k, v) :: rest => if k = key then (k, value) :: rest else (k, v) :: setProperty key value rest

/-- The words that are values. -/
def readWord (cs : List Char) : Option (Json × List Char) :=
  if cs.take 4 = "null".toList then some (.null, cs.drop 4)
  else if cs.take 4 = "true".toList then some (.bool true, cs.drop 4)
  else if cs.take 5 = "false".toList then some (.bool false, cs.drop 5)
  else none

def readNumber (cs : List Char) : Option (Json × List Char) := do
  let sign := if cs.head? = some '-' then ['-'] else []
  let (text, rest) ← readUnsigned (cs.drop sign.length)
  return (.num (String.ofList (sign ++ text)), rest)

mutual

def readValue : Nat → List Char → Option (Json × List Char)
  | 0, _ => none
  | fuel + 1, cs =>
    match skipSpace cs with
    | [] => none
    | c :: rest =>
      if c = '"' then do
        let (text, rest) ← readString fuel rest
        return (.str (String.ofList text), rest)
      else if c = '[' then
        if (skipSpace rest).head? = some ']' then some (.arr [], (skipSpace rest).tail)
        else do
          let (items, rest) ← readItems fuel rest
          return (.arr items, rest)
      else if c = '\x7b' then
        if (skipSpace rest).head? = some '\x7d' then some (.obj [], (skipSpace rest).tail)
        else do
          let (properties, rest) ← readProperties fuel [] rest
          return (.obj properties, rest)
      else (readWord (c :: rest)).orElse (fun _ => readNumber (c :: rest))

def readItems : Nat → List Char → Option (List Json × List Char)
  | 0, _ => none
  | fuel + 1, cs => do
    let (item, rest) ← readValue fuel cs
    match skipSpace rest with
    | [] => none
    | c :: rest =>
      if c = ',' then do
        let (items, rest) ← readItems fuel rest
        return (item :: items, rest)
      else if c = ']' then some ([item], rest)
      else none

def readProperties : Nat → List (String × Json) → List Char →
    Option (List (String × Json) × List Char)
  | 0, _, _ => none
  | fuel + 1, properties, cs => do
    if (skipSpace cs).head? ≠ some '"' then none
    let (key, rest) ← readString fuel (skipSpace cs).tail
    if (skipSpace rest).head? ≠ some ':' then none
    let (value, rest) ← readValue fuel (skipSpace rest).tail
    let properties := setProperty (String.ofList key) value properties
    match skipSpace rest with
    | [] => none
    | c :: rest =>
      if c = ',' then readProperties fuel properties rest
      else if c = '\x7d' then some (properties, rest)
      else none

end

/-- `JSON.parse`, `none` where it throws.  Every call reads a character or ends, so the length
of the text is fuel enough. -/
def parse (text : String) : Option Json := do
  let cs := text.toList
  let (value, rest) ← readValue (cs.length + 2) cs
  if skipSpace rest = [] then some value else none

/-- `value?.key`, `undefined` on what is no object. -/
def property? (key : String) : Json → Option Json
  | .obj properties => (properties.find? (fun p => p.1 = key)).map Prod.snd
  | _ => none

def isArray : Json → Bool
  | .arr _ => true
  | _ => false

example : (parse "\x7b\"verify\": \x7b\"stages\": [[\"a\"]]\x7d\x7d").map stringify
    = some "\x7b\"verify\":\x7b\"stages\":[[\"a\"]]\x7d\x7d" := by decide +kernel

end Json
