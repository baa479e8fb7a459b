import ErrorAnalysis.Eval.Error
import ErrorAnalysis.Value.Compare

/-!
# Bound arguments

The values that the parameters of a function are bound to when it runs.

## Main definitions

* `Args`: the type.
* `Args.get`: the value of a parameter.
* `Args.text`, `Args.number`, `Args.flag`: the value as what a function needs.
-/

namespace ErrorAnalysis

/-- The values that the parameters of a function are bound to. -/
structure Args where
  /-- The name under which the function was called. -/
  function : String
  values : Assoc String Value := []

namespace Args

/-- The value of a parameter; null if it is bound to nothing. -/
def get (args : Args) (parameter : String) : Value :=
  (Assoc.find? args.values parameter).getD .null

/-- The error that an argument is not what the function needs. -/
def invalid (args : Args) (problem : ArgumentProblem) : EvalError :=
  .invalidArgument args.function problem

/-- The value of a parameter as a text, if it is one. -/
def text? (args : Args) (parameter : String) : Option String :=
  (args.get parameter).str?

/-- The value of a parameter that has to be a text. -/
def text (args : Args) (parameter : String) : Except EvalError String :=
  (args.text? parameter).elim (.error (args.invalid (.notString parameter))) .ok

/-- The value of a parameter that has to be a number. -/
def number (args : Args) (parameter : String) : Except EvalError Number :=
  (args.get parameter).number?.elim (.error (args.invalid (.notNumber parameter))) .ok

/-- Whether the value of a parameter counts as true. -/
def flag (args : Args) (parameter : String) : Bool :=
  (args.get parameter).truthy

end Args

end ErrorAnalysis
