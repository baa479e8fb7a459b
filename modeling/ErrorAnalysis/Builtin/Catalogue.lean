import ErrorAnalysis.Builtin.Annotations
import ErrorAnalysis.Builtin.Answers
import ErrorAnalysis.Builtin.Documents
import ErrorAnalysis.Builtin.Metadata
import ErrorAnalysis.Builtin.Plain

/-!
# The catalogue of functions

The built-in operations with the names and parameters under which they can be called, and the
aliases among them.

## Main definitions

* `Builtin.run`: what an operation does.
* `Catalogue.table`: the table of the functions that are always there.
-/

namespace ErrorAnalysis

/-- What a built-in operation does with its arguments. -/
def Builtin.run {m : Type → Type} [Monad m] [AsksPatterns m] (b : Builtin) (args : Args)
    (a : Ambient) : Eval m Value :=
  match b with
  | .length => Eval.ofExcept (Documents.length args)
  | .overlap => Eval.ofExcept (Documents.overlap args)
  | .perform => Eval.ofExcept (Answers.perform args a)
  | .prediction => Eval.ofExcept (Answers.prediction args a)
  | .apply => Eval.ofExcept (Plain.apply args)
  | .hasAny => Eval.ofExcept (Plain.hasAny args)
  | .hasAll => Eval.ofExcept (Plain.hasAll args)
  | .count => Eval.ofExcept (Plain.count args)
  | .string => Eval.ofExcept (Documents.string args)
  | .label => Eval.ofExcept (Documents.label args)
  | .linguistic => Annotations.linguistic args a
  | .token => Documents.token args a
  | .hasPattern => Documents.hasPattern args a
  | .boundaryWith => Documents.boundaryWith args a
  | .answerOffset => Eval.ofExcept (Answers.offset args)
  | .sentence => Eval.ofExcept (Answers.sentence args)
  | .depDistance => Answers.distance args a
  | .freq => Eval.ofExcept (Documents.freq args a)
  | .questionType => Eval.ofExcept (Metadata.questionType args)
  | .answerType => Eval.ofExcept (Metadata.answerType args)
  | .isDigit => Eval.ofExcept (Plain.isDigit args)
  | .digitize => Eval.ofExcept (Plain.digitize args)
  | .truncate => Eval.ofExcept (Plain.truncate args)
  | .absNum => Eval.ofExcept (Plain.absNum args)
  | .getMeta => Eval.ofExcept (Metadata.get args)

namespace Catalogue

/-! ### Functions -/

/-- A parameter that the caller has to give. -/
def required (name : String) : Param :=
  { name }

/-- A parameter with a default. -/
def optional (name : String) (default : Value) : Param :=
  { name, default? := some default }

/-- A parameter for which an entry stands in. -/
def orEntry (name entry : String) : Param :=
  { name, fallback? := some entry }

/-- The functions with their parameters. -/
def functions : List (String × Builtin × List Param) := [
  ("length", .length, [orEntry "docs" "question"]),
  ("overlap", .overlap,
    [required "doc_a", required "doc_b", optional "label" (.str "lemma"),
      optional "return_token_list" (.bool false)]),
  ("perform", .perform,
    [optional "model" (.str Ambient.anchor), required "predictions", required "perform_name"]),
  ("prediction", .prediction,
    [optional "model" (.str Ambient.anchor), required "predictions"]),
  ("apply", .apply, [required "func", optional "rewrite" (.str Ambient.selected)]),
  ("has_any", .hasAny, [required "container", required "contained"]),
  ("has_all", .hasAll, [required "container", required "contained"]),
  ("count", .count, [required "vars"]),
  ("STRING", .string, [required "target"]),
  ("LABEL", .label, [required "target"]),
  ("linguistic", .linguistic,
    [required "spans", optional "label" (.str "lemma"), optional "pattern" .null,
      optional "get_root" (.bool false), optional "get_most_common" (.bool false)]),
  ("token", .token, [required "docs", optional "idxes" .null, optional "pattern" .null]),
  ("has_pattern", .hasPattern,
    [required "docs", optional "idxes" .null, optional "pattern" .null]),
  ("boundary_with", .boundaryWith,
    [required "docs", required "pattern", optional "direction" (.str "start")]),
  ("answer_offset", .answerOffset,
    [required "pred", required "groundtruths", required "context",
      optional "direction" (.str "left"), optional "get" (.str "delta")]),
  ("sentence", .sentence,
    [required "answer", required "context", optional "shift" (.num 0)]),
  ("dep_distance", .depDistance,
    [required "target", required "question", required "context", optional "pattern" .null]),
  ("freq", .freq, [required "target", required "target_type"]),
  ("question_type", .questionType, [required "target"]),
  ("answer_type", .answerType, [required "target"]),
  ("is_digit", .isDigit, [required "target"]),
  ("digitize", .digitize, [required "target"]),
  ("truncate", .truncate,
    [required "value", optional "min_value" (.num (-1)), optional "max_value" (.num 50)]),
  ("abs_num", .absNum, [required "number"]),
  ("get_meta", .getMeta, [required "target", required "meta_name"])]

/-! ### Aliases -/

/-- A function with one of its parameters fixed to a text. -/
structure AliasSpec where
  base : String
  name : String
  parameter : String
  value : String

/-- The aliases. -/
def aliases : List AliasSpec :=
  (["f1", "precision", "recall", "accuracy", "confidence", "exact_match"].map fun metric =>
      ⟨"perform", metric, "perform_name", metric⟩)
    ++ ([("LEMMA", "lemma"), ("POS", "pos"), ("TAG", "tag"), ("ENT_TYPE", "ent_type"),
        ("DEP", "dep"), ("ORTH", "orth")].map fun (name, feature) =>
      ⟨"linguistic", name, "label", feature⟩)
    ++ [⟨"perform", "is_correct_sent", "perform_name", "sent"⟩,
      ⟨"boundary_with", "starts_with", "direction", "start"⟩,
      ⟨"boundary_with", "ends_with", "direction", "end"⟩,
      ⟨"answer_offset", "answer_offset_delta", "get", "delta"⟩,
      ⟨"answer_offset", "answer_offset_span", "get", "span"⟩]

/-- Adds an alias, if there is a function for it. -/
def addAlias (t : FunctionTable) (a : AliasSpec) : FunctionTable :=
  (t.registerAlias a.base a.name a.parameter (.str a.value)).toOption.getD t

/-- The table of the functions that are always there. -/
def table (entryNames : List String) : FunctionTable :=
  aliases.foldl addAlias <|
    functions.foldl (fun t f => t.register f.1 f.2.2 f.2.1) (.empty entryNames)

end Catalogue

end ErrorAnalysis
