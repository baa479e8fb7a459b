import ErrorAnalysis.Config
import ErrorAnalysis.Eval.Error
import ErrorAnalysis.Query

/-!
# Errors of an analysis

Why a request as a whole fails: its query is malformed or has no value, the settings make no
sense, something that it refers to does not exist, or a file cannot be read.

## Main definitions

* `AnalysisError`: the errors.
* `AnalysisError.message`: their wording.
-/

namespace ErrorAnalysis

/-- Why a request fails. -/
inductive AnalysisError where
  | malformed (cmd : String) (e : SyntaxError)
  | eval (e : EvalError)
  | config (problem : ConfigProblem)
  /-- An attribute has to have a query. -/
  | emptyCommand (kind : BlockKind) (name : String)
  | notRegistered (kind : BlockKind) (name : String)
  | unknownQuestion (qid : String)
  /-- A text is not the JSON that it should be. -/
  | unreadable
  | missingFile

namespace AnalysisError

/-- The message of an error of the settings, or of what a request refers to; `none` for other
errors. -/
def configurationMessage? : AnalysisError → Option String
  | .config problem => some problem.message
  | .emptyCommand kind name => some (kind.text ++ ":" ++ name ++ " needs a non-empty cmd")
  | .notRegistered kind name => some (kind.text ++ ":" ++ name ++ " is not registered")
  | .unknownQuestion qid => some ("unknown qid " ++ qid)
  | _ => none

/-- The message of an error. -/
def message (e : AnalysisError) : String :=
  match e with
  | .malformed cmd e => "Parse error: " ++ e.message ++ " (cmd: " ++ cmd ++ ")"
  | .eval e => "Value error: " ++ e.message
  | .unreadable => "Serialization error: malformed JSON"
  | .missingFile => "IO error: No such file or directory (os error 2)"
  | e => "Configuration error: " ++ e.configurationMessage?.getD ""

end AnalysisError

/-- Settings from the text of their JSON, which have to make sense. -/
def Config.ofText (s : String) : Except AnalysisError Config :=
  match (Json.parse? s).bind Config.ofJson? with
  | none => .error .unreadable
  | some c =>
    match c.problem? with
    | some problem => .error (.config problem)
    | none => .ok c

end ErrorAnalysis
