import ErrorAnalysis.Builtin.Basic

/-!
# Operations on plain values

Membership, counting, and numbers in texts.

## Main definitions

* `Plain.hasAny`, `Plain.hasAll`, `Plain.count`: lists.
* `Plain.numberOf?`: the number that a value shows.
* `Plain.digitize`, `Plain.truncate`, `Plain.absNum`: operations on it.
-/

namespace ErrorAnalysis

namespace Plain

/-- The argument itself. -/
def apply (args : Args) : Except EvalError Value :=
  .ok (args.get "func")

/-! ### Lists -/

/-- Whether a list has an item that equals a value. -/
def hasItem (container : List Value) (v : Value) : Bool :=
  container.any (· == v)

/-- Whether any of several values is in a list. -/
def hasAny (args : Args) : Except EvalError Value :=
  let container := (args.get "container").toItems
  .ok (.bool ((args.get "contained").toItems.any (hasItem container)))

/-- Whether all of several values are in a list. -/
def hasAll (args : Args) : Except EvalError Value :=
  let container := (args.get "container").toItems
  .ok (.bool ((args.get "contained").toItems.all (hasItem container)))

/-- The number of items. -/
def count (args : Args) : Except EvalError Value :=
  .ok (.ofNat (args.get "vars").toItems.length)

/-! ### Numbers -/

/-- The number that a value shows: a number itself, a numeral between blanks, or a document of a
single word that is a numeral. -/
def numberOf? (v : Value) : Option Number :=
  match v with
  | .num x => some x
  | .str s => Number.ofNumeral? (String.ofList (trim s.toList))
  | v =>
    match v.doc?.map (·.words) with
    | some [w] => Number.ofNumeral? w.text
    | _ => none

/-- Whether a value shows a number, or any item of a list does. -/
def isDigit (args : Args) : Except EvalError Value :=
  match args.get "target" with
  | .null => .error (args.invalid .nothing)
  | .list items => .ok (.bool (items.any fun v => (numberOf? v).isSome))
  | v => .ok (.bool (numberOf? v).isSome)

/-- Of two numbers the one that is farther from zero, `best` if both are as far. -/
def farther (best x : Number) : Number :=
  if x.abs ≤ best.abs then best else x

/-- The number that a value shows, or of the items of a list the number farthest from zero. -/
def digitize (args : Args) : Except EvalError Value :=
  let found? :=
    match args.get "target" with
    | .list items =>
      match items.filterMap numberOf? with
      | [] => none
      | x :: xs => some (xs.foldl farther x)
    | v => numberOf? v
  .ok (found?.elim .null .num)

/-- The number that a parameter shows. -/
def numeric (args : Args) (parameter : String) : Except EvalError Number :=
  let v := args.get parameter
  (numberOf? v).elim (.error (args.invalid (.notNumeric v.text))) .ok

/-- A number put between two bounds. -/
def truncate (args : Args) : Except EvalError Value :=
  if (args.get "value").isNull then .ok .null
  else do
    let x ← numeric args "value"
    let low := args.get "min_value"
    let high := args.get "max_value"
    match numberOf? low, numberOf? high with
    | some lo, some hi => pure (.num (if hi < x then hi else if x < lo then lo else x))
    | _, _ => .error (args.invalid (.notRange low.text high.text))

/-- A number without its sign. -/
def absNum (args : Args) : Except EvalError Value :=
  (numeric args "number").map fun x => .num x.abs

end Plain

end ErrorAnalysis
