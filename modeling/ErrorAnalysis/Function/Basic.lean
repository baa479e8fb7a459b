import ErrorAnalysis.Function.Args

/-!
# Functions of the query language

A function is a name for one of the built-in operations, with parameters. An alias is a function
that fixes the values of some parameters of another one.

## Main definitions

* `Builtin`: the built-in operations.
* `Param`, `Binding`: parameters and where their values come from.
* `Function`: the functions.
* `FunctionTable`: functions by their names, with `register` and `registerAlias`.
-/

namespace ErrorAnalysis

/-- The built-in operations. -/
inductive Builtin where
  | length
  | overlap
  | perform
  | prediction
  | apply
  | hasAny
  | hasAll
  | count
  | string
  | label
  | linguistic
  | token
  | hasPattern
  | boundaryWith
  | answerOffset
  | sentence
  | depDistance
  | freq
  | questionType
  | answerType
  | isDigit
  | digitize
  | truncate
  | absNum
  | getMeta
deriving DecidableEq, Repr

/-! ### Parameters -/

/-- A parameter of a function. -/
structure Param where
  name : String
  default? : Option Value := none
  /-- The entry that the parameter is bound to if the caller leaves it out. -/
  fallback? : Option String := none

/-- Where the value of a parameter comes from. -/
inductive Binding where
  /-- From the entry of the same name if there is one, and never by position. -/
  | entry (name : String)
  /-- From the caller, and otherwise from an entry. -/
  | fallback (entry : String)
  /-- From the caller. -/
  | literal
deriving DecidableEq, Repr

/-- Whether a binding is to the entry of the same name. -/
def Binding.isEntry : Binding → Bool
  | .entry _ => true
  | _ => false

/-- Where the value of a parameter comes from, if `entryNames` are the entries. -/
def Param.binding (entryNames : List String) (p : Param) : Binding :=
  if entryNames.contains p.name then .entry p.name
  else p.fallback?.elim .literal .fallback

/-! ### Functions -/

/-- A function of the query language. -/
structure Function where
  name : String
  /-- The function that an alias stands for. -/
  base? : Option String := none
  params : List Param
  /-- The parameters with fixed values. -/
  fixed : List (String × Value) := []
  /-- Where the values of the parameters come from. -/
  bindings : Assoc String Binding
  /-- What is done with the arguments. This is one of the built-in operations: a host program can attach
  operations of its own as well, and such a function cannot be expressed here. -/
  body : Builtin

namespace Function

/-- A function in a table whose entries are `entryNames`. -/
def ofParams (entryNames : List String) (name : String) (params : List Param) (body : Builtin) :
    Function where
  name
  params
  bindings := Assoc.ofList (params.map fun p => (p.name, p.binding entryNames))
  body

/-- The parameters that a caller can give; the fixed ones are hidden. -/
def visible (f : Function) : List Param :=
  f.params.filter fun p => f.fixed.all fun e => e.1 != p.name

/-- Where the value of a parameter comes from. -/
def binding (f : Function) (parameter : String) : Binding :=
  (Assoc.find? f.bindings parameter).getD .literal

/-- Whether a parameter is bound to the entry of its name. -/
def bindsEntry (f : Function) (p : Param) : Bool :=
  (f.binding p.name).isEntry

/-- The parameters that can be given by position. -/
def slots (f : Function) : List Param :=
  f.visible.filter fun p => !f.bindsEntry p

/-- The parameter with a name. -/
def param? (f : Function) (name : String) : Option Param :=
  f.params.find? fun p => p.name == name

/-- A parameter as it is shown to callers. -/
def paramText (p : Param) : String :=
  match p.default? with
  | none => p.name
  | some (.str s) => p.name ++ "=\"" ++ s ++ "\""
  | some v => p.name ++ "=" ++ v.text

/-- The parameters as they are shown to callers. -/
def signature (f : Function) : List String :=
  f.slots.map paramText

/-- The function with a parameter fixed, under a new name. -/
def fix (f : Function) (name parameter : String) (v : Value) : Function :=
  { f with
    name
    base? := some (f.base?.getD f.name)
    fixed := (f.fixed.filter fun e => e.1 != parameter) ++ [(parameter, v)] }

end Function

/-! ### Tables of functions -/

/-- Functions by their names. -/
structure FunctionTable where
  functions : Assoc String Function := []
  /-- The entries that parameters are bound to by their names. -/
  entryNames : List String

namespace FunctionTable

/-- The entries that are there whatever the settings are. -/
def derivedEntries : List String := ["prediction", "groundtruth"]

/-- A table without functions. -/
def empty (entryNames : List String) : FunctionTable where
  entryNames := entryNames ++ derivedEntries

/-- Whether parameters are bound to an entry by its name. -/
def isEntry (t : FunctionTable) (name : String) : Bool :=
  t.entryNames.contains name

/-- Adds a function, in place of the one with its name. -/
def register (t : FunctionTable) (name : String) (params : List Param) (body : Builtin) :
    FunctionTable :=
  { t with
    functions := Assoc.insert t.functions name (Function.ofParams t.entryNames name params body) }

/-- The function of a name. -/
def get (t : FunctionTable) (name : String) : Except EvalError Function :=
  (Assoc.find? t.functions name).elim (.error (.unknownFunction name)) .ok

/-- Whether there is a function of a name. -/
def contains (t : FunctionTable) (name : String) : Bool :=
  Assoc.contains t.functions name

/-- Adds an alias of a function that fixes one of its parameters. -/
def registerAlias (t : FunctionTable) (base name parameter : String) (v : Value) :
    Except EvalError FunctionTable := do
  let f ← t.get base
  if (f.param? parameter).isNone then
    .error (.invalidArgument base (.unknownParameter parameter))
  else
    .ok { t with functions := Assoc.insert t.functions name (f.fix name parameter v) }

/-- The names of the functions in order. -/
def names (t : FunctionTable) : List String :=
  Assoc.keys t.functions

/-- The parameters of all functions as they are shown to callers. -/
def signatures (t : FunctionTable) : List (String × List String) :=
  t.functions.map fun e => (e.1, e.2.signature)

end FunctionTable

end ErrorAnalysis
