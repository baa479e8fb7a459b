import ErrorAnalysis.Dataset.Basic
import ErrorAnalysis.Expr.Basic

/-!
# Blocks

A block is the named result of evaluating a query over a dataset. An attribute has a value for
each instance, and a group has the instances that a condition holds of. Queries can refer to
blocks by their names.

## Main definitions

* `Dependencies`: which of the selected model and edit a query depends on.
* `Query.Compiled`: a query with its tree and its dependencies.
* `Attribute`, `Group`: the blocks.
* `Definition`: what a block is made from.
* `Block`: what attributes and groups have in common.
-/

namespace ErrorAnalysis

/-! ### Compiled queries -/

/-- Which of the selected model and edit a query depends on. -/
structure Dependencies where
  model : Bool := false
  edit : Bool := false
deriving DecidableEq, Repr

namespace Dependencies

/-- The dependencies of two parts together. -/
def merge (a b : Dependencies) : Dependencies :=
  ⟨a.model || b.model, a.edit || b.edit⟩

/-- Whether there is a dependency on what is selected by a switch. -/
def dependsOn (d : Dependencies) (switch : String) : Bool :=
  match switch with
  | "model" => d.model
  | "rewrite" => d.edit
  | _ => false

end Dependencies

/-- A query with its tree and its dependencies. -/
structure Query.Compiled where
  cmd : String
  root : Expr
  deps : Dependencies := {}

namespace Query.Compiled

/-- The query that does nothing. -/
def nothing : Compiled :=
  ⟨"", .noOp, {}⟩

/-- Whether two queries have equal trees. -/
def equivalent (a b : Compiled) : Bool :=
  a.root == b.root

end Query.Compiled

/-! ### Blocks -/

/-- Whether the values of an attribute are numbers or categories. -/
inductive Dtype where
  | continuous
  | categorical
deriving DecidableEq, Repr

/-- The name of a type of values. -/
def Dtype.text : Dtype → String
  | .continuous => "continuous"
  | .categorical => "categorical"

/-- Whether a value is a number. -/
def Value.isNumber : Value → Bool
  | .num _ => true
  | _ => false

/-- The type of values: numbers, if all of them are that are not lists. -/
def Dtype.ofValues (vs : List Value) : Dtype :=
  if (vs.filter fun v => !v.isList).all Value.isNumber then .continuous else .categorical

/-- A value for each instance. -/
structure Attribute where
  name : String
  description : String
  query : Query.Compiled
  values : Assoc InstanceKey Value
  dtype : Dtype
  /-- How many items the values were computed on, at most. -/
  testSize : Nat

/-- The instances that a condition holds of. -/
structure Group where
  name : String
  description : String
  query : Query.Compiled
  /-- The members, all of them mapped to true. -/
  dictionary : Assoc InstanceKey Bool
  /-- How many items the members were chosen from, at most. -/
  testSize : Nat

namespace Group

/-- The dictionary of some members. -/
def dictionaryOf (members : SortedSet InstanceKey) : Assoc InstanceKey Bool :=
  members.map fun k => (k, true)

/-- The keys that the dictionary maps to true. -/
def members (g : Group) : SortedSet InstanceKey :=
  Assoc.keys (g.dictionary.filter fun e => e.2)

end Group

/-- What a block is made from. -/
structure Definition where
  name : String
  description : String := ""
  cmd : String
deriving DecidableEq, Repr

/-- What attributes and groups have in common. -/
class Block (β : Type) where
  kind : BlockKind
  name : β → String
  description : β → String
  query : β → Query.Compiled
  testSize : β → Nat

instance : Block Attribute where
  kind := .attr
  name := Attribute.name
  description := Attribute.description
  query := Attribute.query
  testSize := Attribute.testSize

instance : Block Group where
  kind := .group
  name := Group.name
  description := Group.description
  query := Group.query
  testSize := Group.testSize

/-- What a block is made from. -/
def Block.definition {β : Type} [Block β] (b : β) : Definition :=
  ⟨name b, description b, (query b).cmd⟩

/-! ### Stores -/

/-- Blocks by their names. -/
abbrev Store (β : Type) := Assoc String β

namespace Store

variable {β : Type} [Block β]

/-- Adds a block, in place of the one with its name. -/
def save (s : Store β) (b : β) : Store β :=
  Assoc.insert s (Block.name b) b

/-- A block for an equal tree that was computed on so many items at least. -/
def findEquivalent? (s : Store β) (q : Query.Compiled) (testSize : Nat) : Option β :=
  (Assoc.values s).find? fun b =>
    decide (testSize ≤ Block.testSize b) && (Block.query b).equivalent q

/-- Whether a block has to be computed again after a switch was moved. -/
def shouldRecompute (s : Store β) (name switch : String) : Bool :=
  (Assoc.find? s name).any fun b => (Block.query b).deps.dependsOn switch

/-- What the blocks are made from, in the order of their names. -/
def definitions (s : Store β) : List Definition :=
  (Assoc.values s).map Block.definition

end Store

end ErrorAnalysis
