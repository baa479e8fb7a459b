import ErrorAnalysis.Error
import ErrorAnalysis.Registry

/-!
# Compiling queries

A query is compiled once: it is read, and the parts are found that make it depend on what is
selected. These are the names that stand for the selected model and edit, written out or left
to the default of a parameter, and the blocks that depend on them.

## Main definitions

* `Registry.dependencies`: the dependencies of a tree.
* `Registry.compile`: the compiled query of a command.
-/

namespace ErrorAnalysis

/-- The dependencies of a name. -/
def Dependencies.ofName (name : String) : Dependencies :=
  if name = Ambient.anchor then { model := true }
  else if name = Ambient.selected then { edit := true }
  else {}

/-- The dependencies of several parts together. -/
def Dependencies.mergeAll (ds : List Dependencies) : Dependencies :=
  ds.foldl Dependencies.merge {}

namespace Registry

/-- The dependencies of a block; a name without a block has none. -/
def blockDependencies (r : Registry) (kind : BlockKind) (name : String) : Dependencies :=
  match kind with
  | .attr => ((Assoc.find? r.attributes name).map (·.query.deps)).getD {}
  | .group => ((Assoc.find? r.groups name).map (·.query.deps)).getD {}

/-- The parameters of a function that a call leaves to their defaults. A call that asks for an
edit has given the parameter for it. -/
def omittedParams (f : Function) (args : List Arg) (asksEdit : Bool) : List Param :=
  let positional := (args.filter Arg.isPositional).length
  (f.slots.drop positional).filter fun p =>
    !((args.filterMap Arg.name?).contains p.name || (asksEdit && p.name == "rewrite"))

/-- The dependencies of the defaults that a call leaves parameters to. -/
def defaultDependencies (f : Function) (args : List Arg) (asksEdit : Bool) : Dependencies :=
  .mergeAll <|
    ((omittedParams f args asksEdit).filterMap fun p => p.default?.bind Value.str?).map
      Dependencies.ofName

/-- The dependencies of a call, those of its arguments aside. -/
def callDependencies (r : Registry) (function : String) (args : List Arg)
    (edit? : Option String) : Dependencies :=
  let asked := edit?.elim {} Dependencies.ofName
  match r.functions.get function with
  | .ok f => asked.merge (defaultDependencies f args edit?.isSome)
  | .error _ => asked

mutual

/-- The dependencies of a tree. -/
def dependencies (r : Registry) : Expr → Dependencies
  | .noOp => {}
  | .literal (.str s) => .ofName s
  | .literal _ => {}
  | .ident name => .ofName name
  | .block kind name => r.blockDependencies kind name
  | .list items => allDependencies r items
  | .unary _ x => dependencies r x
  | .binary _ x y => (dependencies r x).merge (dependencies r y)
  | .call function args edit? =>
    (r.callDependencies function args edit?).merge (argsDependencies r args)

/-- The dependencies of trees. -/
def allDependencies (r : Registry) : List Expr → Dependencies
  | [] => {}
  | x :: xs => (dependencies r x).merge (allDependencies r xs)

/-- The dependencies of an argument. -/
def argDependencies (r : Registry) : Arg → Dependencies
  | .positional x => dependencies r x
  | .named _ x => dependencies r x

/-- The dependencies of arguments. -/
def argsDependencies (r : Registry) : List Arg → Dependencies
  | [] => {}
  | a :: as => (argDependencies r a).merge (argsDependencies r as)

end

/-- The compiled query of a command. -/
def compile (r : Registry) (cmd : String) : Except AnalysisError Query.Compiled :=
  match Query.parse cmd with
  | .error e => .error (.malformed cmd e)
  | .ok root => .ok ⟨cmd, root, r.dependencies root⟩

end Registry

end ErrorAnalysis
