/-!
# Choosing the best

## Main definitions

* `firstBest?`: of the items that no other beats, the one that comes first.
-/

namespace ErrorAnalysis

variable {α : Type}

/-- Goes through the items and keeps the best one so far, `best` at the start; an item takes its
place only if it beats it. -/
def keepBest (beats : α → α → Bool) (best : α) (xs : List α) : α :=
  xs.foldl (fun best x => if beats x best then x else best) best

/-- The best of the items, and of several equally good ones the first. -/
def firstBest? (beats : α → α → Bool) : List α → Option α
  | [] => none
  | x :: xs => some (keepBest beats x xs)

end ErrorAnalysis
