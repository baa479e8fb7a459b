import ErrorAnalysis.Number.Basic
import ErrorAnalysis.Token.Basic

/-!
# Expressions

The trees that queries are read into.

## Main definitions

* `Expr`, `Arg`: expressions and the arguments of calls.
* `Expr.mkCall`: a call, with the edit that it asks for taken out of its arguments.
* `Expr.beq`: equality of trees, in which numbers are compared by value.
* `Expr.blockRefs`: the blocks that a tree refers to.
-/

namespace ErrorAnalysis

/-- The unary operators. -/
inductive UnaryOp where
  | not
  | neg
  | pos
deriving DecidableEq, Repr

/-- The text of a unary operator. -/
def UnaryOp.text : UnaryOp → String
  | .not => "not"
  | .neg => "-"
  | .pos => "+"

/-- Whether a unary operator is a sign. -/
def UnaryOp.isSign : UnaryOp → Bool
  | .not => false
  | .neg | .pos => true

/-- The binary operators. -/
inductive BinaryOp where
  | or
  | and
  | eq
  | ne
  | lt
  | le
  | gt
  | ge
  | in
  | notIn
  | add
  | sub
  | mul
  | div
  | mod
deriving DecidableEq, Repr

namespace BinaryOp

/-- The text of a binary operator. -/
def text : BinaryOp → String
  | .or => "or"
  | .and => "and"
  | .eq => "=="
  | .ne => "!="
  | .lt => "<"
  | .le => "<="
  | .gt => ">"
  | .ge => ">="
  | .in => "in"
  | .notIn => "not in"
  | .add => "+"
  | .sub => "-"
  | .mul => "*"
  | .div => "/"
  | .mod => "%"

/-- Whether an operator compares its operands. -/
def isComparison : BinaryOp → Bool
  | .eq | .ne | .lt | .le | .gt | .ge | .in | .notIn => true
  | _ => false

end BinaryOp

/-- The constants. -/
inductive Literal where
  | num (x : Number)
  | str (s : String)
  | bool (b : Bool)
  | none
deriving DecidableEq

/-- Equality of constants; numbers are compared by value, and a NaN differs from itself. -/
def Literal.beq : Literal → Literal → Bool
  | .num x, .num y => x == y
  | .str s, .str t => s == t
  | .bool a, .bool b => a == b
  | .none, .none => true
  | _, _ => false

mutual

/-- An expression. -/
inductive Expr where
  /-- The tree of a command that could not be read. -/
  | noOp
  | literal (l : Literal)
  | list (items : List Expr)
  /-- A named block. -/
  | block (kind : BlockKind) (name : String)
  | unary (op : UnaryOp) (operand : Expr)
  | binary (op : BinaryOp) (left right : Expr)
  /-- An entry of the instance, or else the name itself as a text. -/
  | ident (name : String)
  /-- A call of a function, for the variant that `edit?` made if there is one. -/
  | call (function : String) (args : List Arg) (edit? : Option String)

/-- An argument of a call. -/
inductive Arg where
  | positional (value : Expr)
  | named (name : String) (value : Expr)

end

instance : Inhabited Arg := ⟨.positional .noOp⟩

/-- The edit that an argument asks for: a text or a bare name under the keyword for edits. -/
def Arg.edit? : Arg → Option String
  | .named "rewrite" (.literal (.str s)) => some s
  | .named "rewrite" (.ident s) => some s
  | _ => none

namespace Expr

instance : Inhabited Expr := ⟨.noOp⟩

/-- Whether a tree is that of a command that could not be read. -/
def isNoOp : Expr → Bool
  | .noOp => true
  | _ => false

/-- A call with its arguments as they are written. Those that ask for an edit are taken out,
and the last of them is heard. -/
def mkCall (function : String) (args : List Arg) : Expr :=
  .call function (args.filter fun a => a.edit?.isNone)
    (args.filterMap Arg.edit?).getLast?

/-! ### Equality -/

mutual

/-- Equality of trees. -/
protected def beq : Expr → Expr → Bool
  | .noOp, .noOp => true
  | .literal k, .literal l => k.beq l
  | .list xs, .list ys => listEq xs ys
  | .block k m, .block l n => k == l && m == n
  | .unary o x, .unary p y => o == p && Expr.beq x y
  | .binary o x y, .binary p z w => o == p && Expr.beq x z && Expr.beq y w
  | .ident m, .ident n => m == n
  | .call f as r, .call g bs s => f == g && argsEq as bs && r == s
  | _, _ => false

/-- Equality of lists of trees. -/
def listEq : List Expr → List Expr → Bool
  | [], [] => true
  | x :: xs, y :: ys => Expr.beq x y && listEq xs ys
  | _, _ => false

/-- Equality of arguments. -/
def argEq : Arg → Arg → Bool
  | .positional x, .positional y => Expr.beq x y
  | .named m x, .named n y => m == n && Expr.beq x y
  | _, _ => false

/-- Equality of lists of arguments. -/
def argsEq : List Arg → List Arg → Bool
  | [], [] => true
  | a :: as, b :: bs => argEq a b && argsEq as bs
  | _, _ => false

end

instance : BEq Expr := ⟨Expr.beq⟩

/-! ### Blocks -/

mutual

/-- The blocks that a tree refers to, from left to right. -/
def blockRefs : Expr → List (BlockKind × String)
  | .noOp | .literal _ | .ident _ => []
  | .list items => listBlockRefs items
  | .block kind name => [(kind, name)]
  | .unary _ x => blockRefs x
  | .binary _ x y => blockRefs x ++ blockRefs y
  | .call _ args _ => argsBlockRefs args

/-- The blocks that the items of a list refer to. -/
def listBlockRefs : List Expr → List (BlockKind × String)
  | [] => []
  | x :: xs => blockRefs x ++ listBlockRefs xs

/-- The blocks that an argument refers to. -/
def argBlockRefs : Arg → List (BlockKind × String)
  | .positional x => blockRefs x
  | .named _ x => blockRefs x

/-- The blocks that arguments refer to. -/
def argsBlockRefs : List Arg → List (BlockKind × String)
  | [] => []
  | a :: as => argBlockRefs a ++ argsBlockRefs as

end

end Expr

/-- The value of an argument. -/
def Arg.value : Arg → Expr
  | .positional x => x
  | .named _ x => x

/-- Whether an argument is positional. -/
def Arg.isPositional : Arg → Bool
  | .positional _ => true
  | .named _ _ => false

/-- The name of a keyword argument. -/
def Arg.name? : Arg → Option String
  | .positional _ => none
  | .named name _ => some name

end ErrorAnalysis
