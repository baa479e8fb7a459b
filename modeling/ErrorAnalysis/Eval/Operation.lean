import ErrorAnalysis.Eval.Error
import ErrorAnalysis.Value.Compare

/-!
# Operations on values

What the operators do with values that have been computed. Numbers and truth values take part in
arithmetic and are ordered together; texts are joined and ordered; lists are joined. Any two
values can be compared for equality, and a comparison that makes no sense does not hold.

## Main definitions

* `Value.apply`: a binary operator on two values.
* `Value.contains`: whether a value is in another.
* `Value.applyUnary`: a unary operator on a value.
-/

namespace ErrorAnalysis

namespace Number

/-- The quotient's floor taken out as often as the divisor fits: the result has the sign of the
divisor. -/
def floorMod (x y : Number) : Number :=
  x - y * (x / y).floor

/-- How two numbers are ordered; none if one of them is a NaN. -/
def order? (x y : Number) : Option Ordering :=
  if x < y then some .lt else if y < x then some .gt else if x == y then some .eq else none

end Number

namespace Value

/-! ### Binary operators -/

/-- Equality as the operators see it: truth values equal the numbers that they count as. -/
def same (v w : Value) : Bool :=
  match v.number?, w.number? with
  | some x, some y => x == y
  | _, _ => v == w

/-- Whether an ordering is the one that an operator asks for. -/
def holds (op : BinaryOp) (o : Ordering) : Bool :=
  match op with
  | .lt => o == .lt
  | .le => o != .gt
  | .gt => o == .gt
  | .ge => o != .lt
  | _ => false

/-- Whether an operator asks for an ordering. -/
def isOrdering : BinaryOp → Bool
  | .lt | .le | .gt | .ge => true
  | _ => false

/-- Arithmetic; `none` for operators that are not arithmetic. -/
def arithmetic (op : BinaryOp) (x y : Number) : Option (Except Mismatch Number) :=
  match op with
  | .add => some (.ok (x + y))
  | .sub => some (.ok (x - y))
  | .mul => some (.ok (x * y))
  | .div => some (if y == 0 then .error .divisionByZero else .ok (x / y))
  | .mod => some (if y == 0 then .error .moduloByZero else .ok (x.floorMod y))
  | _ => none

/-- An operator on two numbers, if it has a meaning for them. -/
def applyNumbers (op : BinaryOp) (x y : Number) : Option (Except Mismatch Value) :=
  if isOrdering op then
    some (.ok (.bool ((x.order? y).any (holds op))))
  else
    (arithmetic op x y).map (·.map Value.num)

/-- An operator on two values of given kinds, if it has a meaning for them. -/
def applyKinds (op : BinaryOp) (v w : Value) : Option (Except Mismatch Value) :=
  match v.number?, w.number? with
  | some x, some y => applyNumbers op x y
  | _, _ =>
    match v, w with
    | .str s, .str t =>
      if isOrdering op then some (.ok (.bool (holds op (compare s t))))
      else if op = .add then some (.ok (.str (s ++ t)))
      else none
    | .list xs, .list ys => if op = .add then some (.ok (.list (xs ++ ys))) else none
    | _, _ => none

/-- A binary operator on two values. Logical operators and containment have no meaning here. -/
def apply (op : BinaryOp) (v w : Value) : Except EvalError Value :=
  match op with
  | .eq => .ok (.bool (same v w))
  | .ne => .ok (.bool (!same v w))
  | _ =>
    match applyKinds op v w with
    | some r => r.mapError .mismatch
    | none =>
      if op.isComparison then .ok (.bool false)
      else .error (.mismatch (.unsupported op v.tag w.tag))

/-! ### Containment -/

/-- Whether a text occurs in another. -/
def occursIn (needle : List Char) : List Char → Bool
  | [] => needle.isEmpty
  | c :: cs => needle.isPrefixOf (c :: cs) || occursIn needle cs

/-- Whether `element` is in `container`: an item of a list, or a part of a text or of the text of
a document. -/
def contains (container element : Value) : Except EvalError Bool :=
  match container, element with
  | .list items, v => .ok (items.any (· == v))
  | .str s, .str t => .ok (occursIn t.toList s.toList)
  | .doc d, .str t => .ok (occursIn t.toList d.text.toList)
  | c, e => .error (.mismatch (.containment e.tag c.tag))

/-! ### Unary operators -/

/-- A unary operator on a value. -/
def applyUnary (op : UnaryOp) (v : Value) : Except EvalError Value :=
  match op, v with
  | .not, .null => .ok (.bool false)
  | .not, v => .ok (.bool (!v.truthy))
  | op, .null => .error (.missingOperand op)
  | .neg, .num x => .ok (.num (-x))
  | .pos, .num x => .ok (.num x)
  | op, v => .error (.mismatch (.operand op v.tag))

end Value

end ErrorAnalysis
