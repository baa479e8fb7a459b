import ErrorAnalysis.Dataset.Instance
import ErrorAnalysis.PatternCache
import ErrorAnalysis.Traced

/-!
# What surrounds an evaluation

Besides the instance at hand, evaluation reads which model and which edit are selected, how
often words occur in the training data, and the patterns compiled so far. Where a pattern comes from
is left to the kind of computation that asks for it.

## Main definitions

* `Ambient`: what evaluation reads.
* `Ambient.model?`: the model that a name stands for.
* `AsksPatterns`: computations that can ask for patterns.
* `Ambient.pattern`: the pattern that a text denotes.
-/

namespace ErrorAnalysis

/-- What evaluation reads besides the instance at hand. -/
structure Ambient where
  defaultModel? : Option String := none
  selectedEdit : String := Instance.noEdit
  /-- How often words occur, by their lemmas, for each type of text. -/
  frequencies : Assoc String (Assoc String Nat) := []
  patterns : PatternCache := {}

namespace Ambient

/-- The name that stands for the default model. -/
def anchor : String := "ANCHOR"

/-- The name that stands for the selected edit. -/
def selected : String := "SELECTED"

/-- The model that a name stands for. -/
def model? (a : Ambient) (name : String) : Option String :=
  if name = anchor then a.defaultModel? else some name

/-- The edit that a name stands for. -/
def edit (a : Ambient) (rid : String) : String :=
  if rid = selected then a.selectedEdit else rid

/-- The frequency table of a type of text. -/
def frequencies? (a : Ambient) (targetType : String) : Option (Assoc String Nat) :=
  Assoc.find? a.frequencies targetType

end Ambient

/-! ### Patterns -/

/-- Computations that can ask for the pattern of a text, in given surroundings. -/
class AsksPatterns (m : Type → Type) where
  ask : Ambient → String → m (Except EvalError Pattern)

/-- A traced computation takes a pattern from those compiled so far, or compiles it, and makes a note
of the text. Computations are traced where nothing else is said. -/
@[default_instance]
instance : AsksPatterns Traced where
  ask a source := do
    Traced.note source
    pure (a.patterns.lookup source)

/-- The pattern that a text denotes. -/
def Ambient.pattern {m : Type → Type} [AsksPatterns m] (a : Ambient) (source : String) :
    Eval m Pattern :=
  ExceptT.mk (AsksPatterns.ask a source)

end ErrorAnalysis
