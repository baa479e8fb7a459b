import ErrorAnalysis.Eval.Operation
import ErrorAnalysis.Eval.Scope
import ErrorAnalysis.Function.Binding
import ErrorAnalysis.Registry

/-!
# Evaluation

The value of an expression in a scope. Evaluation goes down the tree, with one exception: an
attribute that was not computed for the instance in question is evaluated from its own tree.
`Registry.evaluateWith` leaves open how that is done, `Registry.evaluateAt` allows it to a certain
depth, and `Registry.evaluate` to the depth that can be reached when no attribute refers to itself.
All of it is for any kind of computation that can ask for patterns.

## Main definitions

* `Registry.evaluateWith`: evaluation on one level of attributes.
* `Registry.evaluate`: evaluation.
-/

namespace ErrorAnalysis

/-! ### Parts -/

/-- A constant as a value. -/
def Literal.value : Literal → Value
  | .num x => .num x
  | .str s => .str s
  | .bool b => .bool b
  | .none => .null

/-- Whether an operator is decided by its left operand alone if it can. -/
def BinaryOp.isLogical : BinaryOp → Bool
  | .or | .and => true
  | _ => false

/-- A binary operator on two values, containment included. -/
def Value.applyBinary (op : BinaryOp) (v w : Value) : Except EvalError Value :=
  match op with
  | .in => (w.contains v).map .bool
  | .notIn => (w.contains v).map fun b => .bool !b
  | op => v.apply op w

/-- Whether the left operand decides a logical operator. A null decides all of them. -/
def Value.decides (op : BinaryOp) (v : Value) : Bool :=
  match op with
  | .and => !v.truthy
  | _ => v.isNull || v.truthy

/-- An evaluated argument of a call. -/
structure Given where
  name? : Option String
  value : Sourced

/-- The keyword whose bare name is always a text. -/
def literalKeyword : String := "target_type"

/-- The text that a keyword argument is if it is not evaluated. -/
def literalArgument? (name : String) : Expr → Option String
  | .ident s => if name = literalKeyword then some s else none
  | _ => none

namespace Registry

/-- An entry of the instance in question, or else the name itself. -/
def identifier (r : Registry) (name : String) (s : Scope) : Sourced :=
  match s.instance? with
  | none => .null
  | some i =>
    match i.get? name r.ambient.defaultModel? with
    | some v => .ofInstance i v
    | none => ⟨.str name, []⟩

/-- How the tree of an attribute is evaluated: from its name, its tree, and the scope. -/
abbrev Expansion (m : Type → Type) := String → Expr → Scope → Eval m Sourced

variable {m : Type → Type} [Monad m] [AsksPatterns m]

/-- The value of an attribute for the instance in question, or the members of a group. -/
def block (r : Registry) (expand : Expansion m) (kind : BlockKind) (name : String) (s : Scope) :
    Eval m Sourced :=
  match kind with
  | .attr =>
    match Assoc.find? r.attributes name with
    | none => throw (.unknownBlock .attr name)
    | some a =>
      match s.instance? with
      | none => pure .null
      | some i =>
        match Assoc.find? a.values i.key with
        | some v => pure (.ofInstance i v)
        | none => do
          let v ← expand name a.query.root { s with edit := i.rid }
          pure (.ofInstance i v.value)
  | .group =>
    match Assoc.find? r.groups name with
    | none => throw (.unknownBlock .group name)
    | some g =>
      match s.instance? with
      | none => pure .null
      | some i => pure (.ofInstance i (.list (g.members.map .key)))

/-- A function on evaluated arguments, for an instance. -/
def call (r : Registry) (f : Function) (i : Instance) (given : List Given) : Eval m Sourced := do
  let positional := (given.filter (·.name?.isNone)).map (·.value.value)
  let named := given.filterMap fun g => g.name?.map (·, g.value.value)
  let (args, fromEntry) ←
    f.bind positional named fun name => i.get? name r.ambient.defaultModel?
  let sources := Sourced.sourcesOf (given.map (·.value))
  let value ← f.body.run args r.ambient
  pure ⟨value, if fromEntry then SortedSet.insert sources i.key else sources⟩

/-! ### Expressions -/

mutual

/-- The value of an expression in a scope, with attributes expanded by `expand`. -/
def evaluateWith (r : Registry) (expand : Expansion m) : Expr → Scope → Eval m Sourced
  | .noOp, _ => pure .null
  | .literal l, _ => pure ⟨l.value, []⟩
  | .list items, s => do
    let vs ← evaluateAll r expand items s
    pure ⟨.list (vs.map (·.value)), Sourced.sourcesOf vs⟩
  | .block kind name, s => r.block expand kind name s
  | .unary op x, s => do
    let v ← evaluateWith r expand x s
    let value ← v.value.applyUnary op
    pure { v with value }
  | .binary op x y, s => do
    let v ← evaluateWith r expand x s
    if op.isLogical && v.value.decides op then
      pure { v with value := .bool v.value.truthy }
    else do
      let w ← evaluateWith r expand y s
      let value ←
        if op.isLogical then pure (.bool w.value.truthy)
        else liftM (v.value.applyBinary op w.value)
      pure ⟨value, v.sources.union w.sources⟩
  | .ident name, s => pure (r.identifier name s)
  | .call function args edit?, s => do
    let f ← r.functions.get function
    let s := s.forCall r.ambient f edit?
    match s.instance? with
    | none => pure .null
    | some i => do
      let given ← evaluateArgs r expand args s
      r.call f i given

/-- The values of expressions, from left to right. -/
def evaluateAll (r : Registry) (expand : Expansion m) : List Expr → Scope → Eval m (List Sourced)
  | [], _ => pure []
  | x :: xs, s => do
    let v ← evaluateWith r expand x s
    let vs ← evaluateAll r expand xs s
    pure (v :: vs)

/-- The value of an argument. -/
def evaluateArg (r : Registry) (expand : Expansion m) : Arg → Scope → Eval m Given
  | .positional x, s => do
    let value ← evaluateWith r expand x s
    pure ⟨none, value⟩
  | .named name x, s =>
    match literalArgument? name x with
    | some text => pure ⟨some name, .str text, []⟩
    | none => do
      let value ← evaluateWith r expand x s
      pure ⟨some name, value⟩

/-- The values of arguments, from left to right. -/
def evaluateArgs (r : Registry) (expand : Expansion m) : List Arg → Scope → Eval m (List Given)
  | [], _ => pure []
  | a :: as, s => do
    let g ← evaluateArg r expand a s
    let gs ← evaluateArgs r expand as s
    pure (g :: gs)

end

/-- The value of an expression in a scope, if no more than `depth` attributes are expanded inside
of each other. -/
def evaluateAt (r : Registry) : Nat → Expr → Scope → Eval m Sourced
  | 0 => r.evaluateWith fun name _ _ => throw (.circular name)
  | depth + 1 => r.evaluateWith fun _ => r.evaluateAt depth

/-- How many attributes can be expanded inside of each other if none of them refers to itself for
the same variant: all of them for the unedited variant, and then again for an edited one. -/
def maxDepth (r : Registry) : Nat :=
  2 * r.attributes.length

/-- The value of an expression in a scope. -/
def evaluate (r : Registry) (x : Expr) (s : Scope) : Eval m Sourced :=
  r.evaluateAt r.maxDepth x s

/-- The value of an expression on the unedited variant of an item. -/
def valueOn (r : Registry) (x : Expr) (item : Item) : Eval m Value := do
  pure (← r.evaluate x ⟨item, Instance.noEdit⟩).value

end Registry

end ErrorAnalysis
