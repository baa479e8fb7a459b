import ErrorAnalysis.Expr.Basic
import ErrorAnalysis.Parser

/-!
# The grammar of expressions

The grammar as a parser, from the operators that bind weakest to the atoms. Binary operators
associate to the left, comparisons do not chain, and `not` and the signs may be repeated.

## Main definitions

* `Grammar.expression`: an expression at a position of a sequence of tokens.
-/

namespace ErrorAnalysis

namespace Grammar

open ErrorAnalysis.Parser

/-- Parsers over tokens. -/
abbrev Rule (α : Type) := Parser Token α

/-! ### Tokens -/

/-- A given token. -/
def token (t : Token) : Rule Token :=
  equal Token.text t

/-- A token in place of which `value` is taken. -/
def mark {α : Type} (t : Token) (value : α) : Rule α :=
  (token t).map fun _ => value

/-- An operator in place of which `value` is taken. -/
def operator {α : Type} (o : Operator) (value : α) : Rule α :=
  mark (.operator o) value

/-- A reserved word in place of which `value` is taken. -/
def keyword {α : Type} (k : Keyword) (value : α) : Rule α :=
  mark (.keyword k) value

/-- A name. -/
def identifier : Rule String :=
  named "identifier" <| satisfy fun
    | .identifier name => some name
    | _ => none

/-- A comma. -/
def comma : Rule Token :=
  named "comma" (token (.delimiter .comma))

/-- A parser in round brackets. -/
def parenthesized {α : Type} (p : Rule α) : Rule α :=
  between (token (.delimiter .openParen)) p (token (.delimiter .closeParen))

/-! ### Operators -/

/-- Disjunction. -/
def orOp : Rule BinaryOp :=
  choice [keyword .or .or, operator .pipe .or]

/-- Conjunction. -/
def andOp : Rule BinaryOp :=
  choice [keyword .and .and, operator .ampersand .and]

/-- Negation of a truth value. -/
def notOp : Rule UnaryOp :=
  named "not operator" <|
    (choice [token (.keyword .not), token (.operator .caret), token (.operator .tilde)]).map
      fun _ => .not

/-- A comparison. -/
def comparisonOp : Rule BinaryOp :=
  named "comparison operator" <| choice
    [operator .eq .eq,
      operator .ne .ne,
      operator .lt .lt,
      operator .le .le,
      operator .gt .gt,
      operator .ge .ge,
      keyword .in .in,
      (pair (token (.keyword .not)) (token (.keyword .in))).map fun _ => .notIn]

/-- A sum or a difference. -/
def additiveOp : Rule BinaryOp :=
  choice [operator .plus .add, operator .minus .sub]

/-- A product, a quotient or a remainder. -/
def multiplicativeOp : Rule BinaryOp :=
  choice [operator .times .mul, operator .divide .div, operator .modulo .mod]

/-- A sign. -/
def signOp : Rule UnaryOp :=
  choice [operator .minus .neg, operator .plus .pos]

/-! ### Atoms -/

/-- A constant. -/
def literal : Rule Literal :=
  named "literal" <| satisfy fun
    | .number x => some (.num x)
    | .str s => some (.str s)
    | .keyword .true => some (.bool true)
    | .keyword .false => some (.bool false)
    | .keyword .null => some .none
    | _ => none

/-- A named block. -/
def block : Rule Expr :=
  named "built block reference" <|
    (pair
      (satisfy fun
        | .blockMark kind => some kind
        | _ => none)
      identifier).map fun (kind, name) => .block kind name

/-- A list in square brackets. -/
def list (expression : Rule Expr) : Rule Expr :=
  named "list" <|
    (between (token (.delimiter .openBracket))
      (separatedBy comma expression)
      (token (.delimiter .closeBracket))).map .list

/-- An argument of a call: a name, an equals sign and an expression, or an expression. -/
def argument (expression : Rule Expr) : Rule Arg :=
  named "argument" <| choice
    [(triple identifier (token (.operator .assign)) expression).map
        fun (name, _, value) => .named name value,
      expression.map .positional]

/-- A call of a function. -/
def call (expression : Rule Expr) : Rule Expr :=
  named "function call" <|
    (pair identifier (parenthesized (separatedBy comma (argument expression)))).map
      fun (function, args) => .mkCall function args

/-- An expression without operators outside brackets. -/
def atom (expression : Rule Expr) : Rule Expr :=
  named "atom" <| choice
    [literal.map .literal,
      block,
      list expression,
      call expression,
      identifier.map .ident,
      parenthesized expression]

/-! ### Expressions -/

/-- Operators and operands applied to the first operand from left to right. -/
def foldLeft (first : Expr) (rest : List (BinaryOp × Expr)) : Expr :=
  rest.foldl (fun left (op, right) => .binary op left right) first

/-- Operands with operators between them that associate to the left. -/
def leftAssociative (op : Rule BinaryOp) (operand : Rule Expr) : Rule Expr :=
  (pair operand (many (pair op operand))).map fun (first, rest) => foldLeft first rest

/-- Signs in front of an atom. -/
def signed (expression : Rule Expr) : Rule Expr :=
  fix fun self =>
    named "unary" <| choice
      [(pair signOp self).map fun (op, operand) => .unary op operand,
        atom expression]

/-- Products, quotients and remainders. -/
def multiplicative (expression : Rule Expr) : Rule Expr :=
  named "multiplicative" (leftAssociative multiplicativeOp (signed expression))

/-- Sums and differences. -/
def additive (expression : Rule Expr) : Rule Expr :=
  named "additive" (leftAssociative additiveOp (multiplicative expression))

/-- At most one comparison. -/
def comparison (expression : Rule Expr) : Rule Expr :=
  named "comparison" <|
    (pair (additive expression) (optional (pair comparisonOp (additive expression)))).map
      fun
        | (left, some (op, right)) => .binary op left right
        | (left, none) => left

/-- Negations in front of a comparison. -/
def negation (expression : Rule Expr) : Rule Expr :=
  fix fun self =>
    named "logical not" <| choice
      [(pair notOp self).map fun (op, operand) => .unary op operand,
        comparison expression]

/-- Conjunctions. -/
def conjunction (expression : Rule Expr) : Rule Expr :=
  named "logical and" (leftAssociative andOp (negation expression))

/-- Disjunctions. -/
def disjunction (expression : Rule Expr) : Rule Expr :=
  named "logical or" (leftAssociative orOp (conjunction expression))

/-- An expression. -/
def expression : Rule Expr :=
  fix fun self => named "expression" (disjunction self)

end Grammar

end ErrorAnalysis
