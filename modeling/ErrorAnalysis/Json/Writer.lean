import ErrorAnalysis.Json.Number

/-!
# Writing JSON

Two layouts: `Json.compact` has no blanks at all, and `Json.pretty` puts every item and field on a
line of its own, indented by two spaces for each level.

## Main definitions

* `Json.quote`: a JSON string.
* `Json.compact`, `Json.pretty`: the text of a value.
-/

namespace ErrorAnalysis

namespace Json

/-! ### Scalars -/

/-- A control character by its code point, as four hexadecimal digits. -/
def controlEscape (c : Char) : List Char :=
  let digits := Nat.toDigits 16 c.toNat
  ['\\', 'u'] ++ List.replicate (4 - digits.length) '0' ++ digits

/-- A character inside a JSON string. -/
def quoteChar (c : Char) : List Char :=
  if c = '"' then ['\\', '"']
  else if c = '\\' then ['\\', '\\']
  else if c = '\x08' then ['\\', 'b']
  else if c = '\x0c' then ['\\', 'f']
  else if c = '\n' then ['\\', 'n']
  else if c = '\r' then ['\\', 'r']
  else if c = '\t' then ['\\', 't']
  else if c.toNat < 0x20 then controlEscape c
  else [c]

/-- A JSON string. -/
def quote (s : String) : List Char :=
  '"' :: (s.toList.flatMap quoteChar ++ ['"'])

/-- An integer. -/
def integerText (i : Int) : List Char :=
  (if i < 0 then ['-'] else []) ++ digitsOf i.natAbs

/-- A number that is not an integer; one without a decimal text is null. -/
def floatText (x : Number) : List Char :=
  (x.render .json).getD ['n', 'u', 'l', 'l']

/-! ### Layouts -/

mutual

/-- The characters of a value without blanks. -/
def compactChars : Json → List Char
  | .null | .unreadable => ['n', 'u', 'l', 'l']
  | .bool true => ['t', 'r', 'u', 'e']
  | .bool false => ['f', 'a', 'l', 's', 'e']
  | .int i => integerText i
  | .float x => floatText x
  | .str s => quote s
  | .arr [] => ['[', ']']
  | .arr (item :: items) => '[' :: (compactChars item ++ compactItems items)
  | .obj [] => ['\x7b', '\x7d']
  | .obj ((name, value) :: fields) =>
    '\x7b' :: (quote name ++ ':' :: (compactChars value ++ compactFields fields))

/-- The items after the first, and the closing bracket. -/
def compactItems : List Json → List Char
  | [] => [']']
  | item :: items => ',' :: (compactChars item ++ compactItems items)

/-- The fields after the first, and the closing brace. -/
def compactFields : List (String × Json) → List Char
  | [] => ['\x7d']
  | (name, value) :: fields =>
    ',' :: (quote name ++ ':' :: (compactChars value ++ compactFields fields))

end

/-- A line break and the indentation of a level. -/
def newline (level : Nat) : List Char :=
  '\n' :: List.replicate (2 * level) ' '

mutual

/-- The characters of a value at a level of nesting, one line for each item and field. -/
def prettyChars (level : Nat) : Json → List Char
  | .null | .unreadable => ['n', 'u', 'l', 'l']
  | .bool true => ['t', 'r', 'u', 'e']
  | .bool false => ['f', 'a', 'l', 's', 'e']
  | .int i => integerText i
  | .float x => floatText x
  | .str s => quote s
  | .arr [] => ['[', ']']
  | .arr (item :: items) =>
    '[' :: (newline (level + 1) ++ prettyChars (level + 1) item ++ prettyItems level items)
  | .obj [] => ['\x7b', '\x7d']
  | .obj ((name, value) :: fields) =>
    '\x7b' :: (newline (level + 1) ++ quote name ++ ':' :: ' ' ::
      (prettyChars (level + 1) value ++ prettyFields level fields))

/-- The items after the first, and the closing bracket at `level`. -/
def prettyItems (level : Nat) : List Json → List Char
  | [] => newline level ++ [']']
  | item :: items =>
    ',' :: (newline (level + 1) ++ prettyChars (level + 1) item ++ prettyItems level items)

/-- The fields after the first, and the closing brace at `level`. -/
def prettyFields (level : Nat) : List (String × Json) → List Char
  | [] => newline level ++ ['\x7d']
  | (name, value) :: fields =>
    ',' :: (newline (level + 1) ++ quote name ++ ':' :: ' ' ::
      (prettyChars (level + 1) value ++ prettyFields level fields))

end

/-- The text of a value without blanks. -/
def compact (j : Json) : String :=
  String.ofList (compactChars j)

/-- The text of a value over several lines. -/
def pretty (j : Json) : String :=
  String.ofList (prettyChars 0 j)

end Json

end ErrorAnalysis
