import ErrorAnalysis.Block.Attribute
import ErrorAnalysis.Block.Group
import ErrorAnalysis.Json.Reader
import ErrorAnalysis.Json.Writer
import ErrorAnalysis.Value.Json

/-!
# Blocks in JSON

Definitions are written and read; summaries are only written.

## Main definitions

* `Definition.toJson`, `Definition.ofJson?`: a definition as JSON and back.
* `Definition.exportText`, `Definition.importText?`: a list of definitions as a text and back.
* `Attribute.Record.toJson`, `Group.Record.toJson`: summaries as JSON.
-/

namespace ErrorAnalysis

/-! ### Definitions -/

namespace Definition

/-- A definition as JSON. -/
def toJson (source : Definition) : Json :=
  .obj
    [("name", .str source.name),
      ("description", .str source.description),
      ("cmd", .str source.cmd)]

/-- A definition from JSON. -/
def ofJson? (j : Json) : Option Definition := do
  match ← j.record? ["name", "description", "cmd"] with
  | [name, description, cmd] =>
    pure {
      name := ← Json.required? Json.text? name
      description := ← Json.orDefault? "" Json.text? description
      cmd := ← Json.required? Json.text? cmd }
  | _ => none

/-- The text of a list of definitions. -/
def exportText (sources : List Definition) : String :=
  (Json.arr (sources.map toJson)).pretty

/-- The list of definitions of a text. -/
def importText? (s : String) : Option (List Definition) :=
  (Json.parse? s).bind (Json.array? ofJson?)

end Definition

/-! ### Summaries -/

/-- Values with their counts as JSON. -/
def countsToJson (counts : List (Value × Nat)) : Json :=
  .arr (counts.map fun (v, n) => .arr [v.toJson, .ofNat n])

/-- A summary of an attribute as JSON. -/
def Attribute.Record.toJson (r : Attribute.Record) : Json :=
  .obj
    [("name", .str r.name),
      ("description", .str r.description),
      ("cmd", .str r.cmd),
      ("domain", .arr (r.domain.map Value.toJson)),
      ("dtype", .str r.dtype.text),
      ("counts",
        .obj [("correct", countsToJson r.correct), ("incorrect", countsToJson r.incorrect)])]

/-- The counts of a summary as JSON. -/
def Group.Rates.countsToJson (r : Group.Rates) : Json :=
  .obj [("correct", .ofNat r.correct), ("incorrect", .ofNat r.incorrect)]

/-- The shares of a summary as JSON. -/
def Group.Rates.sharesToJson (r : Group.Rates) : Json :=
  .obj
    [("coverage", .ofNumber r.coverage.value),
      ("error_coverage", .ofNumber r.errorCoverage.value),
      ("local_error_rate", .ofNumber r.localErrorRate.value),
      ("global_error_rate", .ofNumber r.globalErrorRate.value)]

/-- A summary of a group as JSON. -/
def Group.Record.toJson (r : Group.Record) : Json :=
  .obj
    [("name", .str r.name),
      ("description", .str r.description),
      ("cmd", .str r.cmd),
      ("counts", r.rates.countsToJson),
      ("stats", r.rates.sharesToJson)]

end ErrorAnalysis
