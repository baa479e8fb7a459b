import ErrorAnalysis.Json.Reader
import ErrorAnalysis.Json.Record

/-!
# Configuration

The settings of an analysis, all of which have defaults.

## Main definitions

* `Config`: the settings.
* `Config.ofJson?`, `Config.ofText?`: settings from JSON.
* `Config.check`: the settings that make sense.
-/

namespace ErrorAnalysis

/-- What becomes of a run over many items when some of them fail. -/
inductive FailurePolicy where
  /-- The first failure ends the run without a result. -/
  | failFast
  /-- Items that fail are left out. -/
  | skipFailing
deriving DecidableEq, Repr

namespace FailurePolicy

/-- The name of a policy. -/
def text : FailurePolicy → String
  | .failFast => "fail_fast"
  | .skipFailing => "skip_failing"

/-- The policy of a name. -/
def ofText? (s : String) : Option FailurePolicy :=
  [failFast, skipFailing].find? fun p => p.text == s

/-- A policy from JSON: its name, or an object with its name as the only field, which is null. -/
def ofJson? : Json → Option FailurePolicy
  | .str s => ofText? s
  | .obj [(s, .null)] => ofText? s
  | _ => none

end FailurePolicy

/-- The settings of an analysis. -/
structure Config where
  /-- The entries that parameters of functions are bound to by their names. -/
  entryNames : List String := ["question", "context", "groundtruths", "predictions"]
  /-- How many items a block is computed on, all if absent. -/
  testSize? : Option Nat := none
  failurePolicy : FailurePolicy := .skipFailing
  /-- The metric that decides whether an answer is correct. -/
  metric : String := "f1"
  /-- How far outside of the quartiles an outlier lies, in distances between them. -/
  outlierFactor : Number := 1.5
  /-- The share below which a category is rare. -/
  rareShare : Number := 0.05
  binCount : Nat := 5
  /-- How many categories keep their names. -/
  topCategories : Nat := 10
  defaultModel? : Option String := none
  selectedEdit? : Option String := none
  sampleSeed? : Option Nat := none

/-- Why settings make no sense. -/
inductive ConfigProblem where
  | noBins
  | shareOutOfRange
deriving DecidableEq, Repr

/-- The message of a problem with settings. -/
def ConfigProblem.message : ConfigProblem → String
  | .noBins => "bin_count must be positive"
  | .shareOutOfRange => "rare_category_ratio must be within [0, 1]"

namespace Config

/-- Settings from JSON. -/
def ofJson? (j : Json) : Option Config := do
  let fields ← j.record? ["entry_names", "default_test_size", "batch_error_policy",
    "primary_metric", "outlier_iqr_factor", "rare_category_ratio", "bin_count",
    "top_categories", "default_model", "selected_rewrite", "sample_seed"]
  match fields with
  | [entryNames, testSize, failurePolicy, metric, outlierFactor, rareShare, binCount,
      topCategories, defaultModel, selectedEdit, sampleSeed] =>
    let config : Config := {}
    pure {
      entryNames := ← Json.orDefault? config.entryNames (Json.array? Json.text?) entryNames
      testSize? := ← Json.orDefault? none (Json.nullable? Json.nat?) testSize
      failurePolicy :=
        ← Json.orDefault? config.failurePolicy FailurePolicy.ofJson? failurePolicy
      metric := ← Json.orDefault? config.metric Json.text? metric
      outlierFactor := ← Json.orDefault? config.outlierFactor Json.number? outlierFactor
      rareShare := ← Json.orDefault? config.rareShare Json.number? rareShare
      binCount := ← Json.orDefault? config.binCount Json.nat? binCount
      topCategories := ← Json.orDefault? config.topCategories Json.nat? topCategories
      defaultModel? := ← Json.orDefault? none (Json.nullable? Json.text?) defaultModel
      selectedEdit? := ← Json.orDefault? none (Json.nullable? Json.text?) selectedEdit
      sampleSeed? := ← Json.orDefault? none (Json.nullable? Json.nat?) sampleSeed }
  | _ => none

/-- The problem with settings, if there is one. -/
def problem? (c : Config) : Option ConfigProblem :=
  if c.binCount = 0 then some .noBins
  else if 0 ≤ c.rareShare ∧ c.rareShare ≤ 1 then none
  else some .shareOutOfRange

end Config

end ErrorAnalysis
