import Mathlib.Tactic
import ErrorAnalysis.Registry

/-!
# Surroundings and Results

A built-in operation reads the frequencies of words, the patterns of texts, and the default model if
it asks for the answer of a model and is not told of which one. The patterns that were compiled before
are no part of it, and nor is the selected edit.

## Main definitions

* `Builtin.asksModel`: whether an operation asks for the answer of a model.

## Main results

* `Ambient.patternsOf_congr`: the patterns of a value do not depend on the surroundings.
* `Builtin.run_congr`: **what an operation reads of its surroundings.**
* `Builtin.run_withPatterns`: no operation depends on the patterns in store.
-/

namespace ErrorAnalysis

/-! ### Patterns -/

namespace Ambient

/-- The same surroundings with other patterns in store. -/
def withPatterns (a : Ambient) (c : PatternCache) : Ambient :=
  { a with patterns := c }

@[simp] theorem defaultModel?_withPatterns (a : Ambient) (c : PatternCache) :
    (a.withPatterns c).defaultModel? = a.defaultModel? :=
  rfl

variable (a a' : Ambient)

/-- The pattern of a text does not depend on what is in store. -/
theorem pattern_congr (source : String) : a'.pattern source = a.pattern source := by
  simp only [pattern, AsksPatterns.ask, PatternCache.lookup_eq]

/-- The patterns of a value do not depend on the surroundings. -/
theorem patternsOf_congr (v : Value) : a'.patternsOf v = a.patternsOf v := by
  have hof : a'.patternOf = a.patternOf := by
    funext v
    cases v with
    | str s => exact pattern_congr a a' s
    | _ => rfl
  rw [patternsOf, patternsOf, hof]

end Ambient

theorem Documents.patternFound_congr (args : Args) (a a' : Ambient)
    (range? : Option (Int × Int)) :
    patternFound args a' range? = patternFound args a range? := by
  simp only [patternFound, Ambient.patternsOf_congr a a']

/-! ### Operations -/

/-- Whether an operation asks for the answer of a model. -/
def Builtin.asksModel : Builtin → Bool
  | .perform | .prediction => true
  | _ => false

section

variable {args : Args} {a a' : Ambient}

theorem Answers.modelAnswer_congr
    (hmodel : (args.text? "model").bind a'.model? = (args.text? "model").bind a.model?) :
    modelAnswer args a' = modelAnswer args a := by
  rw [modelAnswer, modelAnswer, hmodel]

/-- **An operation reads the frequencies of words,** and what its model stands for if it asks for the
answer of one. -/
theorem Builtin.run_congr {b : Builtin} (hfrequencies : a'.frequencies = a.frequencies)
    (hmodel : b.asksModel = true →
      (args.text? "model").bind a'.model? = (args.text? "model").bind a.model?) :
    b.run args a' = b.run args a := by
  cases b with
  | perform => rw [run, run, Answers.perform, Answers.perform, Answers.modelAnswer_congr (hmodel rfl)]
  | prediction =>
      rw [run, run, Answers.prediction, Answers.prediction, Answers.modelAnswer_congr (hmodel rfl)]
  | linguistic => simp only [run, Annotations.linguistic, Ambient.patternsOf_congr a a']
  | token => simp only [run, Documents.token, Ambient.patternsOf_congr a a']
  | hasPattern => simp only [run, Documents.hasPattern, Documents.patternFound_congr args a a']
  | boundaryWith =>
      simp only [run, Documents.boundaryWith, Ambient.patternsOf_congr a a',
        Documents.patternFound_congr args a a']
  | depDistance => simp only [run, Answers.distance, Ambient.patternsOf_congr a a']
  | freq => simp only [run, Documents.freq, Ambient.frequencies?, hfrequencies]
  | _ => rfl

/-- No operation depends on the patterns in store. -/
theorem Builtin.run_withPatterns (b : Builtin) (c : PatternCache) :
    b.run args (a.withPatterns c) = b.run args a :=
  run_congr rfl fun _ => rfl

end

namespace Registry

/-- Two registries with the same functions, and with the same surroundings apart from the patterns in
store. -/
structure Alike (r r' : Registry) : Prop where
  functions : r'.functions = r.functions
  ambient : r'.ambient = r.ambient.withPatterns r'.ambient.patterns

theorem Alike.refl (r : Registry) : r.Alike r :=
  ⟨rfl, rfl⟩

theorem alike_remember (r : Registry) (sources : List String) : r.Alike (r.remember sources) :=
  ⟨rfl, rfl⟩

theorem Alike.trans {r r' r'' : Registry} (h : r.Alike r') (h' : r'.Alike r'') : r.Alike r'' := by
  refine ⟨h'.functions.trans h.functions, ?_⟩
  rw [h'.ambient, h.ambient]
  rfl

end Registry

end ErrorAnalysis
