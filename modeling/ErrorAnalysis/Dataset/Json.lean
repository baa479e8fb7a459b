import ErrorAnalysis.Dataset.Basic
import ErrorAnalysis.Json.Reader
import ErrorAnalysis.Value.Json

/-!
# Datasets in JSON

A dataset is a record of instances and of frequency tables; an instance is a record of its key,
its edit and its entries.

## Main definitions

* `Instance.ofJson?`, `Dataset.ofJson?`: an instance or a dataset from JSON.
* `Dataset.ofText?`: a dataset from the text of its JSON.
-/

namespace ErrorAnalysis

/-- An instance from JSON. -/
def Instance.ofJson? (j : Json) : Option Instance := do
  match ← j.record? ["qid", "vid", "rid", "entries"] with
  | [qid, vid, rid, entries] =>
    pure {
      key := {
        qid := ← Json.required? Json.text? qid
        vid := ← Json.orDefault? 0 (Json.natBelow? vidBound) vid }
      rid := ← Json.orDefault? Instance.noEdit Json.text? rid
      entries := ← Json.orDefault? [] (fun j => (Reading.ofJson j).metas?) entries }
  | _ => none

namespace Dataset

/-- A map from JSON. -/
def map? {α : Type} (read : Json → Option α) (j : Json) : Option (Assoc String α) :=
  (Json.entries? read j).map Assoc.ofList

/-- A dataset from JSON. -/
def ofJson? (j : Json) : Option Dataset := do
  match ← j.record? ["instances", "frequencies"] with
  | [instances, frequencies] =>
    let instances ← Json.required? (Json.array? Instance.ofJson?) instances
    let frequencies ← Json.orDefault? [] (map? (map? Json.nat?)) frequencies
    pure { ofInstances instances with frequencies }
  | _ => none

/-- A dataset from the text of its JSON. -/
def ofText? (s : String) : Option Dataset :=
  (Json.parse? s).bind ofJson?

end Dataset

end ErrorAnalysis
