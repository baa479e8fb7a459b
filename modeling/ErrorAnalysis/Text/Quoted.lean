import ErrorAnalysis.Text.Printable

/-!
# Quoted text

Two ways of quoting. `escapeLiteral` writes a string literal of the query language, in which a
quote, a backslash, a line feed and a tab are escaped and everything else stands for itself;
`unescape?` reads it back. `visible` shows any text so that each of its characters can be told:
characters without a visible form of their own are written by their code points.

## Main definitions

* `escapeLiteral`, `quoteLiteral`: the inside of a string literal, and the whole of it.
* `unescapeLiteral?`: the inside of a string literal up to its closing quote, and the rest.
* `visible`: a text between quotes with invisible characters spelled out.
-/

namespace ErrorAnalysis

/-! ### String literals -/

/-- A character inside a string literal. -/
def escapeChar (c : Char) : List Char :=
  if c = '"' then ['\\', '"']
  else if c = '\\' then ['\\', '\\']
  else if c = '\n' then ['\\', 'n']
  else if c = '\t' then ['\\', 't']
  else [c]

/-- A text inside a string literal. -/
def escapeLiteral (cs : List Char) : List Char :=
  cs.flatMap escapeChar

/-- A string literal. -/
def quoteLiteral (s : String) : String :=
  String.ofList ('"' :: (escapeLiteral s.toList ++ ['"']))

/-- The character that a backslash and `c` stand for. -/
def unescapeChar? (c : Char) : Option Char :=
  if c = '\\' then some '\\'
  else if c = '"' then some '"'
  else if c = 'n' then some '\n'
  else if c = 't' then some '\t'
  else none

/-- Reads the inside of a string literal up to and including its closing quote: the text it
stands for, and what follows. `none` if it does not end or holds an escape that means nothing. -/
def unescapeLiteral? : List Char → Option (List Char × List Char)
  | [] => none
  | '"' :: rest => some ([], rest)
  | ['\\'] => none
  | '\\' :: c :: rest => do
    let x ← unescapeChar? c
    let (text, rest) ← unescapeLiteral? rest
    pure (x :: text, rest)
  | c :: rest => do
    let (text, rest) ← unescapeLiteral? rest
    pure (c :: text, rest)

/-! ### Visible text -/

/-- A character by its code point: `\u` and the hexadecimal digits in braces. -/
def codePoint (c : Char) : List Char :=
  ['\\', 'u', '\x7b'] ++ Nat.toDigits 16 c.toNat ++ ['\x7d']

/-- A character of a visible text. -/
def visibleChar (c : Char) : List Char :=
  if c = '\x00' then ['\\', '0']
  else if c = '\t' then ['\\', 't']
  else if c = '\r' then ['\\', 'r']
  else if c = '\n' then ['\\', 'n']
  else if c = '"' then ['\\', '"']
  else if c = '\\' then ['\\', '\\']
  else if isVisible c then [c]
  else codePoint c

/-- A text between quotes, with invisible characters spelled out. -/
def visible (s : String) : String :=
  String.ofList ('"' :: (s.toList.flatMap visibleChar ++ ['"']))

end ErrorAnalysis
