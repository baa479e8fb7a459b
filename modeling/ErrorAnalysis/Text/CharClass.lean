/-!
# Character classes by their boundaries

A class of characters that is a union of intervals is given by the code points at which membership
changes, in ascending order: characters below the first boundary are outside, those from it up
to the next are inside, and so on.

## Main definitions

* `CharClass`: a class given by its boundaries.
* `CharClass.contains`: membership.
-/

namespace ErrorAnalysis

/-- A set of characters, given by the ascending code points at which membership changes. -/
structure CharClass where
  boundaries : List Nat

namespace CharClass

/-- A character is in the class iff an odd number of boundaries is not above it. -/
def contains (k : CharClass) (c : Char) : Bool :=
  (k.boundaries.takeWhile (fun b => decide (b ≤ c.toNat))).length % 2 == 1

end CharClass

end ErrorAnalysis
