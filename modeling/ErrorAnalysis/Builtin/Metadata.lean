import ErrorAnalysis.Builtin.Basic

/-!
# Metadata

Reading the metadata of documents and labels.

## Main definitions

* `Metadata.get`: metadata by name.
* `Metadata.questionType`: the type of a question.
* `Metadata.answerType`: the type that most answers have.
-/

namespace ErrorAnalysis

namespace Metadata

/-- Metadata of a document or a label by name. -/
def find? (v : Value) (name : String) : Option Value :=
  match v with
  | .label l => l.getMeta? name
  | .doc d => d.getMeta? name
  | _ => none

/-- The type of a question. -/
def questionType (args : Args) : Except EvalError Value :=
  let target := args.get "target"
  (find? target "question_type").elim (.error (args.invalid (.noQuestionType target.text))) .ok

/-- The type of an answer. -/
def typeOf (args : Args) (v : Value) : Except EvalError String :=
  ((find? v "answer_type").bind Value.str?).elim
    (.error (args.invalid (.noAnswerType v.text))) .ok

/-- How much an answer counts: as many times as it was given, and once at least. -/
def weight (v : Value) : Number :=
  match (v.label?.bind (·.getMeta? "count")).bind Value.number? with
  | some n => if 1 < n then n else 1
  | none => 1

/-- The votes with another one added. -/
def addVote (votes : List (String × Number)) (vote : String × Number) : List (String × Number) :=
  match votes with
  | [] => [vote]
  | (type, total) :: votes =>
    if type = vote.1 then (type, total + vote.2) :: votes else (type, total) :: addVote votes vote

/-- The type that most answers have, each of them weighted; of several the one seen first. -/
def answerType (args : Args) : Except EvalError Value := do
  let target := args.get "target"
  if target.truthy then
    let votes ← target.toItems.mapM fun v => (typeOf args v).map fun type => (type, weight v)
    match firstBest? (fun a best => decide (best.2 < a.2)) (votes.foldl addVote []) with
    | some (type, _) => pure (.str type)
    | none => .error (args.invalid .noAnswerTypes)
  else
    .error (args.invalid (.notValidTarget target.text))

/-- Metadata by name. -/
def get (args : Args) : Except EvalError Value := do
  let target := args.get "target"
  let name ← args.text "meta_name"
  match target with
  | .doc _ | .label _ =>
    (find? target name).elim (.error (args.invalid (.noMeta target.text name))) .ok
  | _ => .error (args.invalid (.notTarget target.text))

end Metadata

end ErrorAnalysis
