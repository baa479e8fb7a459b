import ErrorAnalysis.Block.Basic
import ErrorAnalysis.Config
import ErrorAnalysis.Stats

/-!
# Looking into attributes

The range of an attribute's values, the values that are unusual, and the values in bins. Questions
can be limited to some items, and lists of values are always left out.

## Main definitions

* `Attribute.domain`: the least and the greatest number, or the distinct values.
* `Attribute.isOutlier`, `Attribute.outliers`: unusual values.
* `Attribute.discretize`: the bin or category of each value, as it is shown.
* `Attribute.record`: a summary.
-/

namespace ErrorAnalysis

/-- The questions that a summary is limited to, if it is. -/
abbrev QuestionFilter := Option (List String)

/-- Whether a filter lets a question pass. -/
def QuestionFilter.passes (filter : QuestionFilter) (qid : String) : Bool :=
  match filter with
  | none => true
  | some qids => qids.contains qid

namespace Attribute

/-- The entries that are neither null nor lists, of the items that pass a filter. -/
def scalars (a : Attribute) (filter : QuestionFilter) : List (InstanceKey × Value) :=
  a.values.filter fun e => !e.2.isNull && !e.2.isList && filter.passes e.1.qid

/-- The numbers among the entries, in ascending order. -/
def sortedNumbers (a : Attribute) (filter : QuestionFilter) : List Number :=
  Stats.sortedNumbers ((a.scalars filter).filterMap fun e => e.2.number?)

/-! ### Domain -/

/-- The distinct values in ascending order. -/
def distinct (vs : List Value) : List Value :=
  (Stats.runs (Stats.sortValues vs)).map (·.1)

/-- The least and the greatest number, or the distinct values in ascending order. -/
def domain (a : Attribute) (filter : QuestionFilter) : List Value :=
  match a.dtype with
  | .continuous =>
    let xs := a.sortedNumbers filter
    match xs.head?, xs.getLast? with
    | some least, some greatest => [.num least, .num greatest]
    | _, _ => []
  | .categorical => distinct ((a.scalars filter).map (·.2))

/-! ### Outliers -/

/-- Whether a number lies outside of the fence around others. -/
def isOutsideFence (x : Number) (sorted : List Number) (factor : Number) : Bool :=
  if sorted.isEmpty then false
  else
    let (low, high) := Stats.fence sorted factor
    decide (x < low) || decide (high < x)

/-- Whether a value occurs, but is rarer than a share of all values. -/
def isRare (v : Value) (vs : List Value) (share : Number) : Bool :=
  let count := (vs.filter fun w => w.sameRank v).length
  decide (0 < count) && decide (Number.ofNat count < Number.ofNat vs.length * share)

/-- Whether a value is unusual among the values of an attribute: a number outside of their fence,
or a rare category. -/
def isOutlier (a : Attribute) (v : Value) (filter : QuestionFilter) (config : Config) : Bool :=
  if v.isNull || a.values.isEmpty then false
  else
    match a.dtype with
    | .continuous =>
      v.number?.any fun x => isOutsideFence x (a.sortedNumbers filter) config.outlierFactor
    | .categorical => isRare v ((a.scalars filter).map (·.2)) config.rareShare

/-- The instances with unusual values. -/
def outliers (a : Attribute) (filter : QuestionFilter) (config : Config) : List InstanceKey :=
  ((a.scalars filter).filter fun e => a.isOutlier e.2 filter config).map (·.1)

/-! ### Bins -/

section Bins

variable {α : Type}

/-- A bin as it is shown: with its left edge and without its right one. -/
def binText (edgeText : α → String) (bin : α × α) : String :=
  "[" ++ edgeText bin.1 ++ "," ++ edgeText bin.2 ++ ")"

/-- The numbers of the instances, taken for what they are read as. -/
def quantities (a : Attribute) (read : Number → α) : List (InstanceKey × α) :=
  (a.scalars none).filterMap fun e => e.2.number?.map fun x => (e.1, read x)

variable [Quantity α]

/-- The edges of `binCount` bins for the numbers. -/
def edges (a : Attribute) (read : Number → α) (binCount : Nat) : List α :=
  Stats.edgesFor ((a.quantities read).map (·.2)) binCount

/-- The bins of the numbers as they are shown, if there are any edges. -/
def bins (a : Attribute) (read : Number → α) (edgeText : α → String) (binCount : Nat) :
    Assoc InstanceKey String :=
  let edges := a.edges read binCount
  if edges.isEmpty then []
  else (a.quantities read).map fun e => (e.1, binText edgeText (Stats.binAround e.2 edges))

end Bins

/-- The bins of the numbers. -/
def discretizeContinuous (a : Attribute) (binCount : Nat) : Assoc InstanceKey String :=
  a.bins id Stats.edgeText binCount

/-- What stands for all categories that do not keep their names. -/
def otherText : String := "other"

/-- The categories, of which the most frequent ones keep their names. -/
def discretizeCategorical (a : Attribute) (top : Nat) : Assoc InstanceKey String :=
  let kept := ((Stats.valueCounts (Assoc.values a.values)).take top).map (·.1)
  a.values.map fun e => (e.1, if kept.any (·.sameRank e.2) then e.2.text else otherText)

/-- The bin or category of each value, as it is shown. -/
def discretize (a : Attribute) (config : Config) : Assoc InstanceKey String :=
  match a.dtype with
  | .continuous => a.discretizeContinuous config.binCount
  | .categorical => a.discretizeCategorical config.topCategories

/-! ### Summaries -/

/-- A summary of an attribute. -/
structure Record where
  name : String
  description : String
  cmd : String
  domain : List Value
  dtype : Dtype
  /-- The values of the instances that the model got right, with their counts. -/
  correct : List (Value × Nat)
  /-- The values of the instances that the model got wrong, with their counts. -/
  incorrect : List (Value × Nat)

/-- Whether a model got an instance of a dataset wrong; without a model, or without the instance,
nothing is wrong. -/
def isWrong (d : Dataset) (model? : Option String) (metric : String) (k : InstanceKey) : Bool :=
  match model?, d.instance? k with
  | some model, some i => i.isIncorrect model metric
  | _, _ => false

/-- The frequency table of values, in ascending order of the values. -/
def counts (vs : List Value) : List (Value × Nat) :=
  (Stats.valueCounts vs).mergeSort fun a b => a.1.le b.1

/-- A summary, with the values split by whether the model got the instances right. -/
def record (a : Attribute) (d : Dataset) (model? : Option String) (metric : String)
    (filter : QuestionFilter) : Record :=
  let (wrong, right) :=
    (a.scalars filter).partition fun e => isWrong d model? metric e.1
  { name := a.name
    description := a.description
    cmd := a.query.cmd
    domain := a.domain filter
    dtype := a.dtype
    correct := counts (right.map (·.2))
    incorrect := counts (wrong.map (·.2)) }

end Attribute

end ErrorAnalysis
