/-!
# Options on a command line

Reading the arguments of a command by a list of the options that it knows. An option has a long
name after two dashes, and may have a short one of a single character after one dash. Short
options can stand together behind one dash. The value of an option is the next argument, or is
written into the same one, after an equals sign or, behind a short name, right away. After two
dashes by themselves all arguments are positional.

## Main definitions

* `OptionSpec`: an option that a command knows.
* `Arguments`: the options that were given, and the positional arguments.
* `Arguments.read?`: reading arguments.
-/

namespace ErrorAnalysis

/-- An option that a command knows. -/
structure OptionSpec where
  long : String
  short? : Option Char := none
  takesValue : Bool := true

/-- What was given to a command: options by their long names, with their values or empty texts,
and positional arguments. -/
structure Arguments where
  options : List (String × String) := []
  positional : List String := []

namespace Arguments

/-! ### Parts -/

/-- The value of an option, if it was given. -/
def value? (a : Arguments) (long : String) : Option String :=
  (a.options.find? fun o => o.1 == long).map (·.2)

/-- Whether an option was given. -/
def has (a : Arguments) (long : String) : Bool :=
  (a.value? long).isSome

/-- Whether an option was given more than once. -/
def repeats (a : Arguments) : Bool :=
  decide (¬(a.options.map (·.1)).Nodup)

/-! ### Reading -/

/-- Whether an argument is not positional: it starts with a dash and goes on. -/
def isOption (argument : String) : Bool :=
  match argument.toList with
  | '-' :: _ :: _ => true
  | _ => false

/-- The part before the first equals sign, and the part after it if there is one. -/
def splitEquals (cs : List Char) : List Char × Option (List Char) :=
  match cs.dropWhile (· != '=') with
  | [] => (cs, none)
  | _ :: value => (cs.takeWhile (· != '='), some value)

/-- The options in an argument: those that are complete, and one that waits for a value. -/
abbrev Found := List (String × String) × Option String

/-- The option of a long name with what follows the name in the same argument. -/
def readLong? (specs : List OptionSpec) (cs : List Char) : Option Found := do
  let (name, value?) := splitEquals cs
  let spec ← specs.find? fun spec => spec.long.toList == name
  match spec.takesValue, value? with
  | true, some value => some ([(spec.long, String.ofList value)], none)
  | true, none => some ([], some spec.long)
  | false, some _ => none
  | false, none => some ([(spec.long, "")], none)

/-- The options of short names behind one dash. -/
def readShort? (specs : List OptionSpec) : List Char → Option Found
  | [] => some ([], none)
  | c :: cs => do
    let spec ← specs.find? fun spec => spec.short? == some c
    if spec.takesValue then
      match cs with
      | [] => some ([], some spec.long)
      | '=' :: value => some ([(spec.long, String.ofList value)], none)
      | value => some ([(spec.long, String.ofList value)], none)
    else do
      let (options, waiting?) ← readShort? specs cs
      some ((spec.long, "") :: options, waiting?)

/-- The options in an argument that is not positional. -/
def readOption? (specs : List OptionSpec) (argument : String) : Option Found :=
  match argument.toList with
  | '-' :: '-' :: cs => readLong? specs cs
  | cs => readShort? specs (cs.drop 1)

/-- Puts options and positional arguments in front of others. -/
def prepend (options : List (String × String)) (positional : List String) (a : Arguments) :
    Arguments :=
  ⟨options ++ a.options, positional ++ a.positional⟩

/-- Reads arguments; `waiting?` is the option whose value comes next. An option cannot be a
value. -/
def readFrom? (specs : List OptionSpec) (waiting? : Option String) :
    List String → Option Arguments
  | [] => if waiting?.isNone then some {} else none
  | argument :: arguments =>
    match waiting? with
    | some long =>
      if isOption argument then none
      else (readFrom? specs none arguments).map (prepend [(long, argument)] [])
    | none =>
      if argument = "--" then some { positional := arguments }
      else if isOption argument then do
        let (options, waiting?) ← readOption? specs argument
        (readFrom? specs waiting? arguments).map (prepend options [])
      else
        (readFrom? specs none arguments).map (prepend [] [argument])

/-- The arguments of a command that knows the options `specs`; none of them can be repeated. -/
def read? (specs : List OptionSpec) (arguments : List String) : Option Arguments :=
  (readFrom? specs none arguments).filter fun a => !a.repeats

/-- Splits arguments before the first positional one, given the options before it. -/
def splitFrom (specs : List OptionSpec) (waiting : Bool) :
    List String → List String × List String
  | [] => ([], [])
  | argument :: arguments =>
    if !waiting && !isOption argument then ([], argument :: arguments)
    else
      let waits :=
        !waiting && ((readOption? specs argument).bind (·.2)).isSome
      let (front, rest) := splitFrom specs waits arguments
      (argument :: front, rest)

/-- The arguments before the first positional one, and the others. -/
def splitAtPositional (specs : List OptionSpec) (arguments : List String) :
    List String × List String :=
  splitFrom specs false arguments

end Arguments

end ErrorAnalysis
