import ErrorAnalysis.Dataset.Instance
import ErrorAnalysis.SortedSet

/-!
# Datasets

A dataset is a collection of items; an item is one question with its variants.

## Main definitions

* `Item`, `Dataset`: the types.
* `Item.byEdit?`: the variant that an edit made.
* `Dataset.insert`: adds an instance, in place of the one with its key.
* `Dataset.instance?`: the instance with a key.
-/

namespace ErrorAnalysis

/-- One question with its variants by their numbers. -/
structure Item where
  qid : String
  variants : Assoc Nat Instance

namespace Item

/-- An item without variants. -/
def empty (qid : String) : Item :=
  ⟨qid, []⟩

/-- Adds a variant, in place of the one with its number. -/
def insert (item : Item) (i : Instance) : Item :=
  { item with variants := Assoc.insert item.variants i.key.vid i }

/-- The variant with a number. -/
def variant? (item : Item) (vid : Nat) : Option Instance :=
  Assoc.find? item.variants vid

/-- The unedited variant. -/
def unedited? (item : Item) : Option Instance :=
  item.variant? 0

/-- The variant that an edit made, the one with the least number of several. No edit made the
unedited variant, whatever it says of itself. -/
def byEdit? (item : Item) (rid : String) : Option Instance :=
  if rid = Instance.noEdit then item.unedited?
  else (Assoc.values item.variants).find? fun i => i.rid == rid

/-- The instances of an item by their numbers. -/
def instances (item : Item) : List Instance :=
  Assoc.values item.variants

/-- The key of the unedited variant. -/
def uneditedKey (item : Item) : InstanceKey :=
  InstanceKey.unedited item.qid

end Item

/-- Items by their questions, and how often words occur in the training data of each type of
text. -/
structure Dataset where
  items : Assoc String Item := []
  frequencies : Assoc String (Assoc String Nat) := []

namespace Dataset

/-- Adds an instance, in place of the one with its key. -/
def insert (d : Dataset) (i : Instance) : Dataset :=
  let item := (Assoc.find? d.items i.key.qid).getD (Item.empty i.key.qid)
  { d with items := Assoc.insert d.items i.key.qid (item.insert i) }

/-- The dataset of a list of instances. -/
def ofInstances (is : List Instance) : Dataset :=
  is.foldl insert {}

/-- The item of a question. -/
def item? (d : Dataset) (qid : String) : Option Item :=
  Assoc.find? d.items qid

/-- All items by their questions. -/
def allItems (d : Dataset) : List Item :=
  Assoc.values d.items

/-- The number of items. -/
def size (d : Dataset) : Nat :=
  d.items.length

/-- The instance with a key. -/
def instance? (d : Dataset) (k : InstanceKey) : Option Instance :=
  (d.item? k.qid).bind (·.variant? k.vid)

/-- All instances in the order of their keys. -/
def instances (d : Dataset) : List Instance :=
  d.allItems.flatMap Item.instances

/-- The keys of the instances that a condition holds of. -/
def keysWhere (d : Dataset) (p : Instance → Bool) : SortedSet InstanceKey :=
  SortedSet.ofList ((d.instances.filter p).map (·.key))

/-- The keys of unedited instances. -/
def uneditedKeys (d : Dataset) : SortedSet InstanceKey :=
  d.keysWhere (·.key.isUnedited)

/-- The keys of edited instances. -/
def editedKeys (d : Dataset) : SortedSet InstanceKey :=
  d.keysWhere fun i => !i.key.isUnedited

/-- The keys of the instances that a model got wrong. -/
def incorrectKeys (d : Dataset) (model metric : String) : SortedSet InstanceKey :=
  d.keysWhere (·.isIncorrect model metric)

end Dataset

end ErrorAnalysis
