import ErrorAnalysis.Assoc
import ErrorAnalysis.Document.Word
import ErrorAnalysis.InstanceKey
import ErrorAnalysis.Number.Basic

/-!
# Values, documents and labels

The values that queries compute with. Besides plain data there are handles to what a dataset is
made of: documents, labels (a groundtruth, or the prediction of a model), and instance keys.
Documents and labels carry metadata, which are values again, so the three types are defined
together.

## Main definitions

* `Value`, `Document`, `Label`: the types.
* `Value.Tag`: the six kinds of values, in their order.
* `Value.truthy`: which values count as true.
* `Value.number?`, `Value.items?`, `Value.doc?`: views of a value.
-/

namespace ErrorAnalysis

mutual

/-- A value of the query language. -/
inductive Value where
  | null
  | bool (b : Bool)
  | num (x : Number)
  | str (s : String)
  | list (items : List Value)
  | doc (d : Document)
  | label (l : Label)
  | key (k : InstanceKey)

/-- An annotated document, or a part of one. -/
structure Document where
  words : List Word
  /-- The position of the first word in the document that the words were taken from. -/
  offset : Nat
  /-- Metadata by name, in the order of names. -/
  metas : List (String × Value)

/-- An answer: a groundtruth, or the prediction of a model. -/
structure Label where
  model : String
  text : String
  /-- Scores by metric, in the order of metrics. -/
  perform : List (String × Number)
  /-- The answer as a part of its context. -/
  doc : Option Document
  /-- Metadata by name, in the order of names. -/
  metas : List (String × Value)

end

namespace Value

instance : Inhabited Value := ⟨.null⟩

/-! ### Kinds -/

/-- The kinds of values. -/
inductive Tag where
  | null
  | bool
  | number
  | str
  | list
  | handle
deriving DecidableEq, Repr

/-- The place of a kind in the order of values. -/
def Tag.rank : Tag → Nat
  | .null => 0
  | .bool => 1
  | .number => 2
  | .str => 3
  | .list => 4
  | .handle => 5

/-- The name of a kind in error messages. -/
def Tag.name : Tag → String
  | .null => "Null"
  | .bool => "Bool"
  | .number => "Number"
  | .str => "Str"
  | .list => "List"
  | .handle => "Handle"

/-- The kind of a value. -/
def tag : Value → Tag
  | .null => .null
  | .bool _ => .bool
  | .num _ => .number
  | .str _ => .str
  | .list _ => .list
  | .doc _ | .label _ | .key _ => .handle

/-! ### Views -/

/-- Whether a value is null. -/
def isNull : Value → Bool
  | .null => true
  | _ => false

/-- Whether a value is a list. -/
def isList : Value → Bool
  | .list _ => true
  | _ => false

/-- Whether a value counts as true: all but null, false, zero and what is empty. -/
def truthy : Value → Bool
  | .null => false
  | .bool b => b
  | .num x => !(x == 0)
  | .str s => !s.isEmpty
  | .list items => !items.isEmpty
  | .doc _ | .label _ | .key _ => true

/-- The value as a number; truth values count as 1 and 0. -/
def number? : Value → Option Number
  | .num x => some x
  | .bool b => some (if b then 1 else 0)
  | _ => none

/-- The value as a text. -/
def str? : Value → Option String
  | .str s => some s
  | _ => none

/-- The value as a truth value. -/
def bool? : Value → Option Bool
  | .bool b => some b
  | _ => none

/-- The items of a list. -/
def items? : Value → Option (List Value)
  | .list items => some items
  | _ => none

/-- The document behind a handle, if it has one. -/
def doc? : Value → Option Document
  | .doc d => some d
  | .label l => l.doc
  | _ => none

/-- The label behind a handle. -/
def label? : Value → Option Label
  | .label l => some l
  | _ => none

/-- The items of a list; null has none, and any other value is its own only item. -/
def toItems : Value → List Value
  | .null => []
  | .list items => items
  | v => [v]

/-- The labels among the items. -/
def labels (v : Value) : List Label :=
  v.toItems.filterMap label?

/-- A list of texts as a value. -/
def ofTexts (texts : List String) : Value :=
  .list (texts.map .str)

/-- A count as a value. -/
def ofNat (n : Nat) : Value :=
  .num (Number.ofNat n)

/-- An integer as a value. -/
def ofInt (i : Int) : Value :=
  .num (Number.ofInt i)

end Value

end ErrorAnalysis
