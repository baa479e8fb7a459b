import ErrorAnalysis.Number.Basic

/-!
# JSON values

JSON as data: numbers that are written as integers are kept apart from the others, and an object
is the list of its fields in the order in which they are written, repeated names included. A text
may also hold values that are well formed and yet denote nothing; they do no harm where they are
passed over.

## Main definitions

* `Json`: the type.
* `Json.Fits`: the range of the integers that are kept exactly.
* `Json.isReadable`: whether every part of a value denotes something.
-/

namespace ErrorAnalysis

/-- A JSON value. -/
inductive Json where
  | null
  | bool (b : Bool)
  /-- A number written without fraction and exponent, from `-2 ^ 63` to `2 ^ 64 - 1`. -/
  | int (i : Int)
  /-- Any other number. -/
  | float (x : Number)
  /-- A value that is well formed but denotes nothing, so that no reader takes it: a number too
  great for binary64, a text with half a surrogate pair, an object with a field of such a name, or
  a value that is nested too deep. -/
  | unreadable
  | str (s : String)
  | arr (items : List Json)
  | obj (fields : List (String × Json))

namespace Json

instance : Inhabited Json := ⟨.null⟩

/-- Whether an integer is kept as one: it fits into 64 bits, signed or unsigned. -/
def Fits (i : Int) : Prop :=
  -Number.signBit ≤ i ∧ i < UInt64.size

instance (i : Int) : Decidable (Fits i) :=
  inferInstanceAs (Decidable (_ ∧ _))

/-- A natural number. -/
def ofNat (n : Nat) : Json :=
  .int n

mutual

/-- Whether every part of a value denotes something. -/
def isReadable : Json → Bool
  | .unreadable => false
  | .arr items => areItemsReadable items
  | .obj fields => areFieldsReadable fields
  | _ => true

/-- Whether every part of the items of an array denotes something. -/
def areItemsReadable : List Json → Bool
  | [] => true
  | j :: js => isReadable j && areItemsReadable js

/-- Whether every part of the fields of an object denotes something. -/
def areFieldsReadable : List (String × Json) → Bool
  | [] => true
  | (_, j) :: fields => isReadable j && areFieldsReadable fields

end

end Json

end ErrorAnalysis
