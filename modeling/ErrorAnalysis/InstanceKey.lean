/-!
# Instance keys

An instance is one question with its answers, either as it was collected or after an edit.
Its key is the question's identifier and the number of the variant; the variant 0 is the unedited
one.

## Main definitions

* `InstanceKey`: the type, ordered by question and then by variant.
* `InstanceKey.text`: how a key is shown.
-/

namespace ErrorAnalysis

/-- The key of an instance: a question and one of its variants. -/
structure InstanceKey where
  qid : String
  vid : Nat
deriving DecidableEq, Repr, Inhabited

namespace InstanceKey

/-- Keys are ordered by question, and the variants of one question by number. -/
instance : Ord InstanceKey where
  compare a b := (compare a.qid b.qid).then (compare a.vid b.vid)

/-- The key of the unedited variant of a question. -/
def unedited (qid : String) : InstanceKey :=
  ⟨qid, 0⟩

/-- Whether a key is that of an unedited variant. -/
def isUnedited (k : InstanceKey) : Bool :=
  k.vid == 0

/-- How a key is shown. -/
def text (k : InstanceKey) : String :=
  "qid:" ++ k.qid ++ "-vid:" ++ toString k.vid

end InstanceKey

end ErrorAnalysis
