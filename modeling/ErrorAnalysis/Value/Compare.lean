import ErrorAnalysis.Document.Basic
import ErrorAnalysis.Number.Notation

/-!
# Text, equality and order of values

## Main definitions

* `Value.text`: a value as it is shown.
* `Value.beq`: equality of values. Numbers are compared as IEEE 754 does, so a value that holds a
  NaN differs from itself.
* `Value.compareTotal`: the total order, by kind first and then by content. Handles are ordered by
  the text they show.
* `Value.Ranked`: values compared by their places in this order.
-/

namespace ErrorAnalysis

/-! ### Text -/

/-- Texts with a separator between them. -/
def joinWith (separator : String) (texts : List String) : String :=
  separator.intercalate texts

namespace Value

/-- The text that a document, a label or a key shows; empty for other values. -/
def handleText : Value → String
  | .doc d => d.text
  | .label l => l.text
  | .key k => k.text
  | _ => ""

mutual

/-- A value as it is shown. -/
def text : Value → String
  | .null => "None"
  | .bool true => "true"
  | .bool false => "false"
  | .num x => x.text
  | .str s => s
  | .list items => "[" ++ joinWith ", " (texts items) ++ "]"
  | .doc d => d.text
  | .label l => l.text
  | .key k => k.text

/-- The items of a list as they are shown. -/
def texts : List Value → List String
  | [] => []
  | v :: vs => text v :: texts vs

end

/-! ### Equality -/

/-- Equality of two tables of scores. -/
def scoresEq : List (String × Number) → List (String × Number) → Bool
  | [], [] => true
  | (m, x) :: xs, (n, y) :: ys => m == n && x == y && scoresEq xs ys
  | _, _ => false

mutual

/-- Equality of values. -/
protected def beq : Value → Value → Bool
  | .null, .null => true
  | .bool a, .bool b => a == b
  | .num x, .num y => x == y
  | .str s, .str t => s == t
  | .list xs, .list ys => listEq xs ys
  | .doc d, .doc e => docEq d e
  | .label l, .label m => labelEq l m
  | .key j, .key k => j == k
  | _, _ => false

/-- Equality of lists of values, item by item. -/
def listEq : List Value → List Value → Bool
  | [], [] => true
  | v :: vs, w :: ws => Value.beq v w && listEq vs ws
  | _, _ => false

/-- Equality of metadata: the same names with equal values. -/
def metasEq : List (String × Value) → List (String × Value) → Bool
  | [], [] => true
  | (m, v) :: vs, (n, w) :: ws => m == n && Value.beq v w && metasEq vs ws
  | _, _ => false

/-- Equality of documents: the same words at the same offset, and equal metadata. -/
def docEq : Document → Document → Bool
  | ⟨words, offset, metas⟩, ⟨words', offset', metas'⟩ =>
    words == words' && offset == offset' && metasEq metas metas'

/-- Equality of documents that may be absent. -/
def docEq? : Option Document → Option Document → Bool
  | none, none => true
  | some d, some e => docEq d e
  | _, _ => false

/-- Equality of labels: all parts are equal. -/
def labelEq : Label → Label → Bool
  | ⟨model, shown, scores, part, metas⟩, ⟨model', shown', scores', part', metas'⟩ =>
    model == model' && shown == shown' && scoresEq scores scores' && docEq? part part'
      && metasEq metas metas'

end

instance : BEq Value := ⟨Value.beq⟩

/-! ### Order -/

mutual

/-- The total order on values. -/
def compareTotal : Value → Value → Ordering
  | .bool a, .bool b => compare a b
  | .num x, .num y => Number.compareTotal x y
  | .str s, .str t => compare s t
  | .list xs, .list ys => compareLists xs ys
  | v, w =>
    match v.tag, w.tag with
    | .handle, .handle => compare v.handleText w.handleText
    | s, t => compare s.rank t.rank

/-- Lists are ordered by the first items that differ, and one that continues the other comes
after it. -/
def compareLists : List Value → List Value → Ordering
  | [], [] => .eq
  | [], _ :: _ => .lt
  | _ :: _, [] => .gt
  | v :: vs, w :: ws => (compareTotal v w).then (compareLists vs ws)

end

/-- Whether two values have the same place in the order. -/
def sameRank (v w : Value) : Bool :=
  compareTotal v w == .eq

/-- Whether a value is not above another in the order. -/
def le (v w : Value) : Bool :=
  compareTotal v w != .gt

/-- A value that stands for its place in the order: two of them are equal if neither is above the
other. -/
structure Ranked where
  value : Value

instance : BEq Ranked := ⟨fun v w => v.value.sameRank w.value⟩

instance : Ord Ranked := ⟨fun v w => v.value.compareTotal w.value⟩

end Value

end ErrorAnalysis
