import ErrorAnalysis.Json.Basic

/-!
# Records in JSON

A record has a fixed list of field names. It is written as an object, in which other fields are
passed over and a field of the record may stand once at most, or as an array of its first fields
in order. Fields that are left out are absent, and it is up to the record whether they have a
default.

## Main definitions

* `Json.byName?`, `Json.byPosition?`: the fields of a record from an object or an array.
* `Json.record?`: the fields of a record from either.
* `Json.required?`, `Json.orDefault?`: reading one field.
-/

namespace ErrorAnalysis

namespace Json

variable {α β : Type}

/-! ### Fields -/

/-- The field `name`: absent or given once; `none` if it is given more than once. -/
def single? (fields : List (String × α)) (name : String) : Option (Option α) :=
  match fields.filter fun f => f.1 == name with
  | [] => some none
  | [f] => some (some f.2)
  | _ => none

/-- The fields of a record from the fields of an object. -/
def byName? (names : List String) (fields : List (String × α)) : Option (List (Option α)) :=
  names.mapM (single? fields)

/-- The fields of a record from the items of an array, which are not more than the fields. -/
def byPosition? (names : List String) (items : List α) : Option (List (Option α)) :=
  if items.length ≤ names.length then
    some (items.map some ++ List.replicate (names.length - items.length) none)
  else
    none

/-- The fields of a record. -/
def record? (names : List String) : Json → Option (List (Option Json))
  | .obj fields => byName? names fields
  | .arr items => byPosition? names items
  | _ => none

/-- A field that has to be there. -/
def required? (read : α → Option β) (field : Option α) : Option β :=
  field.bind read

/-- A field with a default. -/
def orDefault? (default : β) (read : α → Option β) : Option α → Option β
  | none => some default
  | some j => read j

/-! ### Scalars -/

/-- A text. -/
def text? : Json → Option String
  | .str s => some s
  | _ => none

/-- A truth value. -/
def bool? : Json → Option Bool
  | .bool b => some b
  | _ => none

/-- A number. -/
def number? : Json → Option Number
  | .int i => some (Number.ofInt i)
  | .float x => some x
  | _ => none

/-- A natural number below a bound. A number with a fraction or an exponent is none, even if it
is integral. -/
def natBelow? (bound : Nat) : Json → Option Nat
  | .int i => if 0 ≤ i ∧ i < bound then some i.toNat else none
  | _ => none

/-- A natural number of 64 bits. -/
def nat? : Json → Option Nat :=
  natBelow? UInt64.size

/-- Null, or what `read` takes. -/
def nullable? (read : Json → Option β) : Json → Option (Option β)
  | .null => some none
  | j => (read j).map some

/-- An array of what `read` takes. -/
def array? (read : Json → Option β) : Json → Option (List β)
  | .arr items => items.mapM read
  | _ => none

/-- The fields of an object as entries of a map. -/
def entries? (read : Json → Option β) : Json → Option (List (String × β))
  | .obj fields => fields.mapM fun f => (read f.2).map (f.1, ·)
  | _ => none

end Json

end ErrorAnalysis
