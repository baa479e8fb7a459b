import ErrorAnalysis.Number.Notation
import ErrorAnalysis.Text.Quoted

/-!
# Tokens

The tokens of the query language. Blanks between tokens are tokens too, so that a command is the
concatenation of the texts of its tokens.

## Main definitions

* `Keyword`, `Operator`, `Delimiter`: the reserved words and marks.
* `BlockKind`: the two kinds of named blocks that a query can refer to.
* `Token`: the tokens.
* `Token.text`: how a token is shown in messages.
-/

namespace ErrorAnalysis

/-- The reserved words. -/
inductive Keyword where
  | not
  | and
  | or
  | in
  | true
  | false
  | null
deriving DecidableEq, Repr

/-- The text of a reserved word. -/
def Keyword.text : Keyword → String
  | .not => "not"
  | .and => "and"
  | .or => "or"
  | .in => "in"
  | .true => "true"
  | .false => "false"
  | .null => "None"

/-- The reserved word that a name is. `None` and `in` are reserved in this spelling only, the
others in any mixture of small and capital letters. -/
def Keyword.ofName? (name : String) : Option Keyword :=
  if name = "None" then some .null
  else if name = "in" then some .in
  else
    match String.ofList (name.toList.map Char.toLower) with
    | "not" => some .not
    | "and" => some .and
    | "or" => some .or
    | "true" => some .true
    | "false" => some .false
    | _ => none

/-- The operators. -/
inductive Operator where
  | eq
  | ne
  | le
  | ge
  | lt
  | gt
  | plus
  | minus
  | times
  | divide
  | modulo
  | assign
  | caret
  | tilde
  | ampersand
  | pipe
deriving DecidableEq, Repr

/-- The text of an operator. -/
def Operator.text : Operator → String
  | .eq => "=="
  | .ne => "!="
  | .le => "<="
  | .ge => ">="
  | .lt => "<"
  | .gt => ">"
  | .plus => "+"
  | .minus => "-"
  | .times => "*"
  | .divide => "/"
  | .modulo => "%"
  | .assign => "="
  | .caret => "^"
  | .tilde => "~"
  | .ampersand => "&"
  | .pipe => "|"

/-- The brackets and the comma. -/
inductive Delimiter where
  | openParen
  | closeParen
  | openBracket
  | closeBracket
  | comma
deriving DecidableEq, Repr

/-- The text of a delimiter. -/
def Delimiter.text : Delimiter → String
  | .openParen => "("
  | .closeParen => ")"
  | .openBracket => "["
  | .closeBracket => "]"
  | .comma => ","

/-- The kinds of named blocks: an attribute gives each instance a value, a group is a set of
instances. -/
inductive BlockKind where
  | attr
  | group
deriving DecidableEq, Repr

/-- The text of a kind of blocks. -/
def BlockKind.text : BlockKind → String
  | .attr => "attr"
  | .group => "group"

/-- A token. -/
inductive Token where
  | keyword (k : Keyword)
  | identifier (name : String)
  /-- The mark in front of the name of a block. -/
  | blockMark (kind : BlockKind)
  | operator (o : Operator)
  | delimiter (d : Delimiter)
  | number (x : Number)
  | str (s : String)
  /-- A run of spaces and tabs. -/
  | blank (run : String)
deriving DecidableEq

namespace Token

/-- Whether a token is a run of blanks. -/
def isBlank : Token → Bool
  | .blank _ => true
  | _ => false

/-- How a token is shown in messages. -/
def text : Token → String
  | .keyword k => k.text
  | .identifier name => name
  | .blockMark kind => kind.text ++ ":"
  | .operator o => o.text
  | .delimiter d => d.text
  | .number x => x.text
  | .str s => visible s
  | .blank run => run

end Token

end ErrorAnalysis
