import ErrorAnalysis.Block.Basic

/-!
# Looking into groups

How well models do on the members of a group, as compared with the dataset as a whole.

## Main definitions

* `Share`: a part of a whole.
* `Group.Rates`, `Group.rates`: how a model does on the members.
* `Group.compareModels`: how two models do on the members.
* `Group.record`: a summary.
-/

namespace ErrorAnalysis

/-! ### Shares -/

/-- A part of a whole, counted. -/
structure Share where
  part : Nat
  whole : Nat
deriving DecidableEq, Repr

/-- A share as a number; that of nothing is zero. -/
def Share.value (s : Share) : Number :=
  if s.whole = 0 then 0 else Number.ofNat s.part / Number.ofNat s.whole

/-! ### Correctness -/

/-- Whether a model got an instance right. -/
inductive Correctness where
  | correct
  | incorrect
deriving DecidableEq, Repr

namespace Correctness

/-- The name of a correctness. -/
def text : Correctness → String
  | .correct => "correct"
  | .incorrect => "incorrect"

/-- Both of them in order. -/
def all : List Correctness := [correct, incorrect]

/-- Whether a model got an instance right. -/
def of (i : Instance) (model metric : String) : Correctness :=
  if i.isIncorrect model metric then .incorrect else .correct

end Correctness

namespace Group

/-- Whether an instance is a member. -/
def hasMember (g : Group) (k : InstanceKey) : Bool :=
  SortedSet.has g.members k

/-! ### Rates -/

/-- How a model does on the members of a group. -/
structure Rates where
  correct : Nat
  incorrect : Nat
  /-- The members among all instances. -/
  coverage : Share
  /-- The errors on members among all errors. -/
  errorCoverage : Share
  /-- The errors on members among the members. -/
  localErrorRate : Share
  /-- The errors on members among all instances. -/
  globalErrorRate : Share

/-- The instances that members are compared with: the unedited ones if all members are unedited,
and the edited ones otherwise. -/
def baseline (d : Dataset) (members : SortedSet InstanceKey) : SortedSet InstanceKey :=
  if members.all InstanceKey.isUnedited then d.uneditedKeys else d.editedKeys

/-- Whether a model got an instance wrong; without a model nothing is wrong. -/
def isWrong (model? : Option String) (metric : String) (i : Instance) : Bool :=
  model?.any fun model => i.isIncorrect model metric

/-- How a model does on the members of a group. -/
def rates (d : Dataset) (members : SortedSet InstanceKey) (model? : Option String)
    (metric : String) : Rates :=
  let all := baseline d members
  let errors := all.filter fun k => (d.instance? k).any (isWrong model? metric)
  let present := members.filterMap d.instance?
  let incorrect := (present.filter (isWrong model? metric)).length
  let correct := (present.filter fun i => !isWrong model? metric i).length
  { correct
    incorrect
    coverage := ⟨correct + incorrect, all.length⟩
    errorCoverage := ⟨incorrect, errors.length⟩
    localErrorRate := ⟨incorrect, members.length⟩
    globalErrorRate := ⟨incorrect, all.length⟩ }

/-! ### Two models -/

/-- How many members two models got right or wrong. -/
structure Cell where
  first : Correctness
  second : Correctness
  count : Nat
deriving DecidableEq, Repr

/-- How many members two models got right or wrong, for each combination. -/
def compareModels (d : Dataset) (members : SortedSet InstanceKey) (model model' : String)
    (metric : String) : List Cell :=
  let found := (members.filterMap d.instance?).map fun i =>
    (Correctness.of i model metric, Correctness.of i model' metric)
  Correctness.all.flatMap fun a => Correctness.all.map fun b => ⟨a, b, found.count (a, b)⟩

/-! ### Summaries -/

/-- A summary of a group. -/
structure Record where
  name : String
  description : String
  cmd : String
  rates : Rates

/-- A summary of a group for a model. -/
def record (g : Group) (d : Dataset) (model? : Option String) (metric : String) : Record where
  name := g.name
  description := g.description
  cmd := g.query.cmd
  rates := rates d g.members model? metric

end Group

end ErrorAnalysis
