import ErrorAnalysis.Json.Number

/-!
# Reading JSON

A reader for JSON texts. It is strict about their form: one value with blanks around it and nothing
else, and no control characters inside strings. A value of good form may still denote nothing: half
a surrogate pair is no character, and arrays and objects go at most 127 levels deep. Such a value
is read as `Json.unreadable`, and it is up to its place whether that matters.

## Main definitions

* `Json.readUnits?`: the inside of a string and what follows its closing quote.
* `Json.joinPairs?`: the text of the inside of a string.
* `Json.readValue?`: a value at the start of a text and what follows it.
* `Json.parse?`: the value that a whole text denotes.
-/

namespace ErrorAnalysis

namespace Json

/-! ### Strings -/

/-- The value of a hexadecimal digit. -/
def hexDigit? (c : Char) : Option Nat :=
  if '0' ≤ c ∧ c ≤ '9' then some (c.toNat - '0'.toNat)
  else if 'a' ≤ c ∧ c ≤ 'f' then some (c.toNat - 'a'.toNat + 10)
  else if 'A' ≤ c ∧ c ≤ 'F' then some (c.toNat - 'A'.toNat + 10)
  else none

/-- The value of four hexadecimal digits. -/
def hexUnit? (a b c d : Char) : Option Nat := do
  pure (((← hexDigit? a) * 16 + (← hexDigit? b)) * 256 + (← hexDigit? c) * 16 + (← hexDigit? d))

/-- The character that an escape of one letter stands for. -/
def escape? (c : Char) : Option Char :=
  if c = '"' then some '"'
  else if c = '\\' then some '\\'
  else if c = '/' then some '/'
  else if c = 'b' then some '\x08'
  else if c = 'f' then some '\x0c'
  else if c = 'n' then some '\n'
  else if c = 'r' then some '\r'
  else if c = 't' then some '\t'
  else none

/-- Whether a UTF-16 unit opens a pair. -/
def isHighSurrogate (u : Nat) : Bool :=
  decide (0xD800 ≤ u ∧ u ≤ 0xDBFF)

/-- Whether a UTF-16 unit closes a pair. -/
def isLowSurrogate (u : Nat) : Bool :=
  decide (0xDC00 ≤ u ∧ u ≤ 0xDFFF)

/-- The inside of a string up to its closing quote, and what follows the quote. An escape by a
number stands for a UTF-16 unit, which may be half a pair; every other part is a character. -/
def readUnits? : List Char → Option (List Nat × List Char)
  | [] => none
  | '"' :: rest => some ([], rest)
  | '\\' :: 'u' :: a :: b :: c :: d :: rest => do
    let unit ← hexUnit? a b c d
    let (units, rest) ← readUnits? rest
    pure (unit :: units, rest)
  | ['\\'] => none
  | '\\' :: c :: rest => do
    let x ← escape? c
    let (units, rest) ← readUnits? rest
    pure (x.toNat :: units, rest)
  | c :: rest => do
    if c.toNat < 0x20 then none
    let (units, rest) ← readUnits? rest
    pure (c.toNat :: units, rest)

/-- The character of a surrogate pair. -/
def pairChar (high low : Nat) : Char :=
  Char.ofNat (0x10000 + (high - 0xD800) * 0x400 + (low - 0xDC00))

/-- The text of the inside of a string; `none` if a surrogate has no partner. -/
def joinPairs? : List Nat → Option (List Char)
  | [] => some []
  | unit :: units =>
    if isLowSurrogate unit then none
    else if isHighSurrogate unit then
      match units with
      | [] => none
      | low :: units =>
        if isLowSurrogate low then (joinPairs? units).map (pairChar unit low :: ·) else none
    else
      (joinPairs? units).map (Char.ofNat unit :: ·)

/-- A string from its first character on: its text, if it has one, and what follows it. -/
def readString? (cs : List Char) : Option (Option String × List Char) := do
  let (units, rest) ← readUnits? cs
  pure ((joinPairs? units).map String.ofList, rest)

/-! ### Values -/

/-- Whether a character may stand between the tokens of a JSON text. -/
def isSpace (c : Char) : Bool :=
  c == ' ' || c == '\n' || c == '\t' || c == '\r'

/-- A text without the spaces at its start. -/
def skipSpaces (cs : List Char) : List Char :=
  cs.dropWhile isSpace

/-- A text that may be missing. -/
def ofText : Option String → Json
  | none => .unreadable
  | some s => .str s

/-- An object of fields whose names may be missing. -/
def ofFields (fields : List (Option String × Json)) : Json :=
  match fields.mapM fun f : Option String × Json => f.1.map (·, f.2) with
  | none => .unreadable
  | some fields => .obj fields

/-- An array or an object where `depth` levels are left. -/
def atDepth (depth : Nat) (j : Json) : Json :=
  if depth = 0 then .unreadable else j

mutual

/-- A value at the start of a text, and what follows it. Each step spends fuel, and `depth`
is the number of levels that arrays and objects may still take. -/
def readValue? : Nat → Nat → List Char → Option (Json × List Char)
  | 0, _, _ => none
  | fuel + 1, depth, cs =>
    match skipSpaces cs with
    | 'n' :: 'u' :: 'l' :: 'l' :: rest => some (.null, rest)
    | 't' :: 'r' :: 'u' :: 'e' :: rest => some (.bool true, rest)
    | 'f' :: 'a' :: 'l' :: 's' :: 'e' :: rest => some (.bool false, rest)
    | '"' :: rest => do
      let (text, rest) ← readString? rest
      pure (ofText text, rest)
    | '[' :: rest =>
      match skipSpaces rest with
      | ']' :: rest => some (atDepth depth (.arr []), rest)
      | rest => do
        let (items, rest) ← readItems? fuel (depth - 1) rest
        pure (atDepth depth (.arr items), rest)
    | '\x7b' :: rest =>
      match skipSpaces rest with
      | '\x7d' :: rest => some (atDepth depth (.obj []), rest)
      | rest => do
        let (fields, rest) ← readFields? fuel (depth - 1) rest
        pure (atDepth depth (ofFields fields), rest)
    | rest => readNumber? rest

/-- The items of an array from the first one on, up to the closing bracket. -/
def readItems? : Nat → Nat → List Char → Option (List Json × List Char)
  | 0, _, _ => none
  | fuel + 1, depth, cs => do
    let (item, rest) ← readValue? fuel depth cs
    match skipSpaces rest with
    | ']' :: rest => pure ([item], rest)
    | ',' :: rest =>
      let (items, rest) ← readItems? fuel depth rest
      pure (item :: items, rest)
    | _ => none

/-- The fields of an object from the first one on, up to the closing brace. -/
def readFields? : Nat → Nat → List Char → Option (List (Option String × Json) × List Char)
  | 0, _, _ => none
  | fuel + 1, depth, cs =>
    match skipSpaces cs with
    | '"' :: rest => do
      let (name, rest) ← readString? rest
      match skipSpaces rest with
      | ':' :: rest =>
        let (value, rest) ← readValue? fuel depth rest
        match skipSpaces rest with
        | '\x7d' :: rest => pure ([(name, value)], rest)
        | ',' :: rest =>
          let (fields, rest) ← readFields? fuel depth rest
          pure ((name, value) :: fields, rest)
        | _ => none
      | _ => none
    | _ => none

end

/-- How far arrays and objects may be nested. -/
def maxDepth : Nat := 127

/-- The value that a text denotes. Every two steps of the reader take at least one character, so
twice the length of the text is fuel enough. -/
def parse? (s : String) : Option Json := do
  let cs := s.toList
  let (value, rest) ← readValue? (2 * cs.length + 2) maxDepth cs
  if (skipSpaces rest).isEmpty then some value else none

end Json

end ErrorAnalysis
