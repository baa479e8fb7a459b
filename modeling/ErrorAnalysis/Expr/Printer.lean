import ErrorAnalysis.Expr.Basic
import ErrorAnalysis.Value.Compare

/-!
# Printing expressions

An expression is printed with as few parentheses as its reading needs: around an operand that
binds weaker than its place demands. Two more rules keep the text readable as the same tree.
Comparisons do not chain, so a comparison inside a comparison stands in parentheses on either
side. And a signed operand of a sign does, because two signs in a row would be hard to tell from
one operator.

## Main definitions

* `Expr.precedence`: how strongly a tree holds together.
* `Expr.text`: the text of a tree.
-/

namespace ErrorAnalysis

/-- How strongly the operands of an operator are bound. -/
def BinaryOp.precedence : BinaryOp → Nat
  | .or => 1
  | .and => 2
  | .eq | .ne | .lt | .le | .gt | .ge | .in | .notIn => 4
  | .add | .sub => 5
  | .mul | .div | .mod => 6

/-- The text of a constant. -/
def Literal.text : Literal → String
  | .num x => x.text
  | .str s => quoteLiteral s
  | .bool true => "true"
  | .bool false => "false"
  | .none => "None"

namespace Expr

/-- How strongly a tree holds together: trees of a higher number need no parentheses where one of
a lower number would do. -/
def precedence : Expr → Nat
  | .binary op _ _ => op.precedence
  | .unary .not _ => 3
  | .unary _ _ => 7
  | _ => 8

/-- Whether the text of a tree starts with a sign of its own. -/
def startsWithSign : Expr → Bool
  | .unary op _ => op.isSign
  | .literal (.num x) => x.isNegative
  | _ => false

/-- Whether the operand of a unary operator stands in parentheses. -/
def operandNeedsParens (op : UnaryOp) (operand : Expr) : Bool :=
  match op with
  | .not => decide (operand.precedence < 3)
  | .neg | .pos => operand.startsWithSign || decide (operand.precedence < 7)

/-- Whether the left operand of a binary operator stands in parentheses. -/
def leftNeedsParens (op : BinaryOp) (left : Expr) : Bool :=
  if op.isComparison then decide (left.precedence ≤ op.precedence)
  else decide (left.precedence < op.precedence)

/-- Whether the right operand of a binary operator stands in parentheses. -/
def rightNeedsParens (op : BinaryOp) (right : Expr) : Bool :=
  decide (right.precedence ≤ op.precedence)

/-- A text, in parentheses if it needs them. -/
def inParens (needed : Bool) (s : String) : String :=
  if needed then "(" ++ s ++ ")" else s

/-- A unary operator in front of its operand. -/
def unaryText (op : UnaryOp) (operand : String) : String :=
  match op with
  | .not => "not " ++ operand
  | .neg | .pos => op.text ++ operand

mutual

/-- The text of a tree. -/
def text : Expr → String
  | .noOp => ""
  | .literal l => l.text
  | .list items => "[" ++ joinWith ", " (texts items) ++ "]"
  | .block kind name => kind.text ++ ":" ++ name
  | .unary op x => unaryText op (inParens (operandNeedsParens op x) (text x))
  | .binary op x y =>
    inParens (leftNeedsParens op x) (text x) ++ " " ++ op.text ++ " "
      ++ inParens (rightNeedsParens op y) (text y)
  | .ident name => name
  | .call function args edit? =>
    let keyword := match edit? with
      | none => []
      | some rid => ["rewrite=" ++ quoteLiteral rid]
    function ++ "(" ++ joinWith ", " (argTexts args ++ keyword) ++ ")"

/-- The texts of trees. -/
def texts : List Expr → List String
  | [] => []
  | x :: xs => text x :: texts xs

/-- The text of an argument. -/
def argText : Arg → String
  | .positional x => text x
  | .named name x => name ++ "=" ++ text x

/-- The texts of arguments. -/
def argTexts : List Arg → List String
  | [] => []
  | a :: as => argText a :: argTexts as

end

end Expr

end ErrorAnalysis
