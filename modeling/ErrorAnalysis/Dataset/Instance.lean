import ErrorAnalysis.Choice
import ErrorAnalysis.Document.Basic

/-!
# Instances

An instance holds what is known about one variant of a question: named entries, among them the
answers of annotators (`groundtruths`) and of models (`predictions`).

## Main definitions

* `Instance`: the type.
* `Instance.get?`: the value of an entry, also of those that are derived from others.
* `Instance.isIncorrect`: whether a model got the instance wrong.
-/

namespace ErrorAnalysis

/-- One variant of a question with its named entries. -/
structure Instance where
  key : InstanceKey
  /-- The edit that made the variant. -/
  rid : String
  entries : Assoc String Value

namespace Instance

/-- The edit of the variants that were not made by one. -/
def noEdit : String := "unrewritten"

/-! ### Labels -/

/-- A stored entry. -/
def stored? (i : Instance) (name : String) : Option Value :=
  Assoc.find? i.entries name

/-- The labels in a stored entry. -/
def labels (i : Instance) (name : String) : List Label :=
  (i.stored? name).elim [] Value.labels

/-- The answers of annotators. -/
def groundtruths (i : Instance) : List Label :=
  i.labels "groundtruths"

/-- The answers of models. -/
def predictions (i : Instance) : List Label :=
  i.labels "predictions"

/-- How many annotators gave an answer; an answer without a count ranks below all others. -/
def votes (l : Label) : Number :=
  ((l.getMeta? "count").bind Value.number?).getD (-1)

/-- The answer that most annotators gave, the first one of several. -/
def groundtruth? (i : Instance) : Option Label :=
  firstBest? (fun l best => decide (votes best < votes l)) i.groundtruths

/-- The answer of a model. -/
def prediction? (i : Instance) (model : String) : Option Label :=
  i.predictions.find? fun l => l.model == model

/-- Whether the answer of a model falls short of the full score. A model without an answer counts
as correct. -/
def isIncorrect (i : Instance) (model metric : String) : Bool :=
  (i.prediction? model).any (·.isIncorrect metric)

/-! ### Entries -/

/-- An entry that is derived from stored ones: the answer of most annotators, or the answer of the
model in question. -/
def derived? (i : Instance) (name : String) (model? : Option String) : Option Value :=
  match name with
  | "groundtruth" => i.groundtruth?.map .label
  | "prediction" => (model?.bind i.prediction?).map .label
  | _ => none

/-- The value of an entry. The entry `instance` is the key, and stored entries come before derived
ones. -/
def get? (i : Instance) (name : String) (model? : Option String) : Option Value :=
  if name = "instance" then some (.key i.key)
  else i.stored? name <|> i.derived? name model?

end Instance

end ErrorAnalysis
