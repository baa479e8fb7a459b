/-!
# Sets in ascending order

A finite set is the list of its elements, in ascending order and none twice, so that two sets with
the same elements are equal lists.

## Main definitions

* `SortedSet`: the type.
* `SortedSet.insert`, `SortedSet.union`, `SortedSet.ofList`, `SortedSet.inter`: the operations.
* `SortedSet.Sorted`: elements ascend strictly.
-/

namespace ErrorAnalysis

/-- A finite set as the list of its elements in ascending order. -/
abbrev SortedSet (κ : Type) := List κ

namespace SortedSet

variable {κ : Type} [Ord κ]

/-- Whether an element is in the set. -/
def has (s : SortedSet κ) (k : κ) : Bool :=
  s.any fun k' => compare k k' == .eq

/-- Puts an element into the set. -/
def insert : SortedSet κ → κ → SortedSet κ
  | [], k => [k]
  | k' :: s, k =>
    match compare k k' with
    | .lt => k :: k' :: s
    | .eq => k' :: s
    | .gt => k' :: insert s k

/-- Puts all elements of a list into the set. -/
def union (s : SortedSet κ) (ks : List κ) : SortedSet κ :=
  ks.foldl insert s

/-- The set of the elements of a list. -/
def ofList (ks : List κ) : SortedSet κ :=
  union [] ks

/-- The elements of a set that are also in another. -/
def inter (s t : SortedSet κ) : SortedSet κ :=
  s.filter (has t)

/-- Elements ascend strictly. -/
def Sorted (s : SortedSet κ) : Prop :=
  s.Pairwise fun k k' => compare k k' = .lt

end SortedSet

end ErrorAnalysis
