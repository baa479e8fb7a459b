import ErrorAnalysis.Expr.Basic
import ErrorAnalysis.Value.Basic

/-!
# Evaluation errors

Why a well-formed expression has no value for an instance. Errors are causes; their wording is in
the `message` functions, and values appear in them as they are shown.

## Main definitions

* `Mismatch`: operands of the wrong kind.
* `PatternProblem`: why a text is no pattern.
* `ArgumentProblem`: what is wrong with an argument of a function.
* `EvalError`: the errors.
-/

namespace ErrorAnalysis

/-- Operands of the wrong kind. -/
inductive Mismatch where
  | unsupported (op : BinaryOp) (left right : Value.Tag)
  | divisionByZero
  | moduloByZero
  | operand (op : UnaryOp) (tag : Value.Tag)
  | containment (element container : Value.Tag)
deriving DecidableEq, Repr

/-- The message of a mismatch. -/
def Mismatch.message : Mismatch → String
  | .unsupported op left right =>
    "unsupported operand types for [ " ++ op.text ++ " ]: " ++ left.name ++ " and " ++ right.name
  | .divisionByZero => "division by zero"
  | .moduloByZero => "modulo by zero"
  | .operand op tag => "bad operand type for unary [ " ++ op.text ++ " ]: " ++ tag.name
  | .containment element container =>
    "[ in ] is not supported between " ++ element.name ++ " and " ++ container.name

/-- Why a text is no pattern. -/
inductive PatternProblem where
  | nested
  | unbalanced
  | emptyAlternatives
  | empty
deriving DecidableEq, Repr

/-- The message of a problem with a pattern. -/
def PatternProblem.message : PatternProblem → String
  | .nested => "nested alternatives"
  | .unbalanced => "unbalanced parenthesis"
  | .emptyAlternatives => "empty alternatives"
  | .empty => "empty pattern"

/-- What is wrong with an argument of a function. Values are given as they are shown. -/
inductive ArgumentProblem where
  | notString (parameter : String)
  | notNumber (parameter : String)
  | tooManyPositional
  | unexpectedKeyword (name : String)
  | multipleValues (name : String)
  | unknownParameter (name : String)
  | pattern (problem : PatternProblem) (source : String)
  | notPattern (shown : String)
  | nothingValid
  | nothing
  | notValid (shown : String)
  | notValidTarget (shown : String)
  | notDocument (shown : String)
  | noDocument
  | noText (shown : String)
  | notLabel (shown : String)
  | notIndex (shown : String)
  | notIndexRange (shown : String)
  | noFrequencies (targetType : String)
  | unknownTarget (shown : String)
  | noModel (shown : String)
  | noPredictions
  | noPredictionOf (model : String)
  | notComparable (groundtruths predictions context : String)
  | notContext (shown : String)
  | notAnswerIn (shown : String)
  | notShift (shown : String)
  | notAnswer (shown : String)
  | noQuestionType (shown : String)
  | noAnswerType (shown : String)
  | noAnswerTypes
  | notTarget (shown : String)
  | noMeta (shown name : String)
  | notNumeric (shown : String)
  | notRange (low high : String)
deriving DecidableEq, Repr

/-- The message of a problem with an argument. -/
def ArgumentProblem.message : ArgumentProblem → String
  | .notString parameter => "[ " ++ parameter ++ " ] must be a string"
  | .notNumber parameter => "[ " ++ parameter ++ " ] must be a number"
  | .tooManyPositional => "too many positional arguments"
  | .unexpectedKeyword name => "unexpected keyword [ " ++ name ++ " ]"
  | .multipleValues name => "multiple values for [ " ++ name ++ " ]"
  | .unknownParameter name => "cannot alias unknown parameter [ " ++ name ++ " ]"
  | .pattern problem source => problem.message ++ ": [ " ++ source ++ " ]"
  | .notPattern shown => "[ " ++ shown ++ " ] is not a valid pattern"
  | .nothingValid => "no valid input"
  | .nothing => "no input"
  | .notValid shown => "no valid input: " ++ shown
  | .notValidTarget shown => "not a valid input: " ++ shown
  | .notDocument shown => "[ " ++ shown ++ " ] is not a document"
  | .noDocument => "no document to match"
  | .noText shown => "[ " ++ shown ++ " ] has no text"
  | .notLabel shown => "[ " ++ shown ++ " ] is not a label"
  | .notIndex shown => "[ " ++ shown ++ " ] is not an index"
  | .notIndexRange shown => "[ " ++ shown ++ " ] is not a valid index range"
  | .noFrequencies targetType => "no training frequency for [ " ++ targetType ++ " ]"
  | .unknownTarget shown => "unknown target [ " ++ shown ++ " ]"
  | .noModel shown => "no valid model: " ++ shown
  | .noPredictions => "no prediction input"
  | .noPredictionOf model => "cannot find [ model: " ++ model ++ " ]'s predictions"
  | .notComparable groundtruths predictions context =>
    "no valid input: " ++ groundtruths ++ ", " ++ predictions ++ ", " ++ context
  | .notContext shown => "cannot get the sentence of an invalid context: [ " ++ shown ++ " ]"
  | .notAnswerIn shown => "cannot get the sentence of an invalid answer: [ " ++ shown ++ " ]"
  | .notShift shown => "[ " ++ shown ++ " ] is not a valid shift"
  | .notAnswer shown => "[ " ++ shown ++ " ] is not an answer"
  | .noQuestionType shown => "[ " ++ shown ++ " ] does not have a question type"
  | .noAnswerType shown => "[ " ++ shown ++ " ] does not have an answer type"
  | .noAnswerTypes => "no answer type"
  | .notTarget shown => "[ " ++ shown ++ " ] is not a target"
  | .noMeta shown name => "[ " ++ shown ++ " ] has no meta [ " ++ name ++ " ]"
  | .notNumeric shown => "invalid value input: " ++ shown
  | .notRange low high => "invalid range input: " ++ low ++ ", " ++ high

/-- Why an expression has no value. -/
inductive EvalError where
  | unknownFunction (name : String)
  | unknownBlock (kind : BlockKind) (name : String)
  /-- The operand of a sign is null. -/
  | missingOperand (op : UnaryOp)
  | missingArgument (function parameter : String)
  | mismatch (m : Mismatch)
  | invalidArgument (function : String) (problem : ArgumentProblem)
  /-- An attribute was reached again while it was being evaluated. Such an evaluation never ends; this
  marks that it does not, and is no error that anyone gets to see. -/
  | circular (name : String)
deriving DecidableEq, Repr

/-- The message of an evaluation error. -/
def EvalError.message : EvalError → String
  | .unknownFunction name => "Unknown function: [ " ++ name ++ " ]"
  | .unknownBlock kind name => "Unknown " ++ kind.text ++ ": [ " ++ name ++ " ]"
  | .missingOperand op => "Missing operand for [ " ++ op.text ++ " ]"
  | .missingArgument function parameter =>
    "Missing argument [ " ++ parameter ++ " ] for [ " ++ function ++ " ]"
  | .mismatch m => "Type mismatch: " ++ m.message
  | .invalidArgument function problem =>
    "Invalid argument to [ " ++ function ++ " ]: " ++ problem.message
  | .circular name => "Circular attribute: [ " ++ name ++ " ]"

end ErrorAnalysis
