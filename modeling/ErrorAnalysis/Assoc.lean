/-!
# Association lists in key order

A finite map is the list of its entries, in ascending order of their keys and with no key twice.
All operations keep that order, so two maps with the same entries are equal lists, and going
through a map means going through its keys in order.

## Main definitions

* `Assoc`: the type.
* `Assoc.find?`, `Assoc.insert`, `Assoc.erase`, `Assoc.ofList`: the operations.
* `Assoc.Sorted`: keys ascend strictly.
-/

namespace ErrorAnalysis

/-- A finite map as the list of its entries in ascending order of keys. -/
abbrev Assoc (κ α : Type) := List (κ × α)

namespace Assoc

variable {κ α : Type}

/-- The keys in order. -/
def keys (m : Assoc κ α) : List κ :=
  m.map Prod.fst

/-- The values in the order of their keys. -/
def values (m : Assoc κ α) : List α :=
  m.map Prod.snd

variable [Ord κ]

/-- The value under a key. -/
def find? : Assoc κ α → κ → Option α
  | [], _ => none
  | (k', v) :: m, k => if compare k k' = .eq then some v else find? m k

/-- Whether a key has a value. -/
def contains (m : Assoc κ α) (k : κ) : Bool :=
  (find? m k).isSome

/-- Puts a value under a key, in place of the one that is there. -/
def insert : Assoc κ α → κ → α → Assoc κ α
  | [], k, v => [(k, v)]
  | (k', v') :: m, k, v =>
    match compare k k' with
    | .lt => (k, v) :: (k', v') :: m
    | .eq => (k, v) :: m
    | .gt => (k', v') :: insert m k v

/-- Takes a key out. -/
def erase (m : Assoc κ α) (k : κ) : Assoc κ α :=
  m.filter fun e => decide (compare k e.1 ≠ .eq)

/-- The map of a list of entries; of two entries with one key the later stays. -/
def ofList (entries : List (κ × α)) : Assoc κ α :=
  entries.foldl (fun m e => insert m e.1 e.2) []

/-- Keys ascend strictly. -/
def Sorted (m : Assoc κ α) : Prop :=
  m.Pairwise fun e e' => compare e.1 e'.1 = .lt

end Assoc

end ErrorAnalysis
