import ErrorAnalysis.Block.Basic
import ErrorAnalysis.Builtin.Catalogue
import ErrorAnalysis.Config

/-!
# The registry

Everything that a query can refer to: functions, attributes and groups, with the settings and with
what surrounds an evaluation.

## Main definitions

* `Registry`: the type.
* `Registry.ofConfig`: a registry without blocks.
* `Registry.remember`: keeps the patterns that a computation asked for.
* `Registry.toRecompute`: the blocks that depend on a switch.
-/

namespace ErrorAnalysis

/-- Everything that a query can refer to. -/
structure Registry where
  config : Config := {}
  functions : FunctionTable
  attributes : Store Attribute := []
  groups : Store Group := []
  ambient : Ambient := {}

namespace Registry

/-- The registry of given settings, with the built-in functions and without blocks. -/
def ofConfig (config : Config) : Registry where
  config
  functions := Catalogue.table config.entryNames
  ambient := {
    defaultModel? := config.defaultModel?
    selectedEdit := config.selectedEdit?.getD Instance.noEdit }

/-! ### What is selected -/

/-- Selects a model, or none. -/
def setModel (r : Registry) (model? : Option String) : Registry :=
  { r with ambient := { r.ambient with defaultModel? := model? } }

/-- Selects an edit. -/
def setEdit (r : Registry) (rid : String) : Registry :=
  { r with ambient := { r.ambient with selectedEdit := rid } }

/-- Sets the frequency table of a type of text. -/
def setFrequencies (r : Registry) (targetType : String) (table : Assoc String Nat) : Registry :=
  { r with
    ambient :=
      { r.ambient with frequencies := Assoc.insert r.ambient.frequencies targetType table } }

/-- Takes over the frequency tables of a dataset. -/
def loadFrequencies (r : Registry) (d : Dataset) : Registry :=
  d.frequencies.foldl (fun r e => r.setFrequencies e.1 e.2) r

/-- Keeps the patterns that were asked for. -/
def remember (r : Registry) (sources : List String) : Registry :=
  { r with ambient := { r.ambient with patterns := r.ambient.patterns.rememberAll sources } }

/-! ### Blocks -/

/-- Adds an attribute, in place of the one with its name. -/
def saveAttribute (r : Registry) (a : Attribute) : Registry :=
  { r with attributes := r.attributes.save a }

/-- Adds a group, in place of the one with its name. -/
def saveGroup (r : Registry) (g : Group) : Registry :=
  { r with groups := r.groups.save g }

/-- The blocks, by kind and name, that have to be computed again after a switch was moved. -/
def toRecompute (r : Registry) (switch : String) : List (BlockKind × String) :=
  ((Assoc.keys r.attributes).filter fun name => r.attributes.shouldRecompute name switch).map
      (BlockKind.attr, ·)
    ++ ((Assoc.keys r.groups).filter fun name => r.groups.shouldRecompute name switch).map
      (BlockKind.group, ·)

end Registry

end ErrorAnalysis
