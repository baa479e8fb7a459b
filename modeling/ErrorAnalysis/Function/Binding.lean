import ErrorAnalysis.Function.Basic

/-!
# Binding arguments

How the parameters of a function get their values when it is called. A fixed value comes first;
then the entry of the parameter's name, if the instance has one; then what the caller gives by
position, over the parameters that are not bound to entries; then what the caller gives by name;
then the entry to fall back on; and the default last.

## Main definitions

* `Function.bind`: the arguments of a call, and whether the instance gave any of them.
-/

namespace ErrorAnalysis

namespace Function

/-- The parameters that entries of their names give values to. -/
def entryValues (f : Function) (lookup : String → Option Value) : List (String × Value) :=
  f.visible.filterMap fun p =>
    match f.binding p.name with
    | .entry name => (lookup name).map (p.name, ·)
    | _ => none

/-- The parameters that values are given to by position. -/
def positionalValues (f : Function) (positional : List Value) :
    Except EvalError (List (String × Value)) :=
  if f.slots.length < positional.length then
    .error (.invalidArgument f.name .tooManyPositional)
  else
    .ok ((f.slots.map (·.name)).zip positional)

/-- Puts entries into a map one after the other. -/
def putAll (m : Assoc String Value) (entries : List (String × Value)) : Assoc String Value :=
  entries.foldl (fun m e => Assoc.insert m e.1 e.2) m

/-- Binds an argument that is given by name. A parameter that has a value keeps it, but one that
was given by position cannot be given again. -/
def bindNamed (f : Function) (given : List String) (m : Assoc String Value)
    (argument : String × Value) : Except EvalError (Assoc String Value) :=
  if f.visible.all fun p => p.name != argument.1 then
    .error (.invalidArgument f.name (.unexpectedKeyword argument.1))
  else if given.contains argument.1 then
    .error (.invalidArgument f.name (.multipleValues argument.1))
  else if Assoc.contains m argument.1 then .ok m
  else .ok (Assoc.insert m argument.1 argument.2)

/-- The value of the entry that a parameter falls back on. -/
def fallbackValue? (f : Function) (lookup : String → Option Value) (p : Param) : Option Value :=
  match f.binding p.name with
  | .fallback name => lookup name
  | _ => none

/-- Gives a value to a parameter that has none. The flag tells whether an entry gave any value. -/
def fill (f : Function) (lookup : String → Option Value) (bound : Assoc String Value × Bool)
    (p : Param) : Except EvalError (Assoc String Value × Bool) :=
  if Assoc.contains bound.1 p.name then .ok bound
  else
    match f.fallbackValue? lookup p with
    | some v => .ok (Assoc.insert bound.1 p.name v, true)
    | none =>
      match p.default? with
      | some v => .ok (Assoc.insert bound.1 p.name v, bound.2)
      | none => .error (.missingArgument f.name p.name)

/-- The arguments of a call, and whether an entry gave any of them. -/
def bind (f : Function) (positional : List Value) (named : List (String × Value))
    (lookup : String → Option Value) : Except EvalError (Args × Bool) := do
  let entries := f.entryValues lookup
  let given ← f.positionalValues positional
  let start := putAll (putAll (Assoc.ofList f.fixed) entries) given
  let supplied ← named.foldlM (f.bindNamed (given.map (·.1))) start
  let (values, fromEntry) ← f.visible.foldlM (f.fill lookup) (supplied, !entries.isEmpty)
  .ok (⟨f.name, values⟩, fromEntry)

end Function

end ErrorAnalysis
