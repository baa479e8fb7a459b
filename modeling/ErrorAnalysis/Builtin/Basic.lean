import ErrorAnalysis.Ambient
import ErrorAnalysis.Function.Basic
import ErrorAnalysis.SortedSet

/-!
# What the built-in operations share

## Main definitions

* `Args.document`: a document that has to be one.
* `Ambient.patternsOf`: the patterns that a value gives.
* `matchedSpans`: the parts of documents that match one of several patterns.
* `Word.isContent`: whether a word carries content.
-/

namespace ErrorAnalysis

/-- The document behind a value that has to have one. -/
def Args.document (args : Args) (v : Value) : Except EvalError Document :=
  v.doc?.elim (.error (args.invalid (.notDocument v.text))) .ok

/-- The documents behind a value, which is one of them or a list of them. -/
def Args.documents (args : Args) (v : Value) : Except EvalError (List Document) :=
  match v with
  | .list items => items.mapM args.document
  | v => ([v] : List Value).mapM args.document

/-! ### Patterns -/

section Patterns

variable {m : Type → Type} [Monad m] [AsksPatterns m]

/-- The pattern that a value gives. -/
def Ambient.patternOf (a : Ambient) (v : Value) : Eval m Pattern :=
  match v with
  | .str s => a.pattern s
  | v => throw (.invalidArgument "pattern" (.notPattern v.text))

/-- The patterns that a value gives: none, one, or those of a list. -/
def Ambient.patternsOf (a : Ambient) (v : Value) : Eval m (List Pattern) :=
  v.toItems.mapM a.patternOf

end Patterns

/-- Ranges are ordered by their starts, and then by their ends. -/
@[reducible] def rangeOrd : Ord (Nat × Nat) :=
  lexOrd

/-- The ranges of a document that match one of several patterns, in order. -/
def matchedRanges (patterns : List Pattern) (d : Document) : List (Nat × Nat) :=
  @SortedSet.ofList _ rangeOrd (patterns.flatMap fun p => p.findAll d)

/-- One value by itself, and any other number of values as a list. -/
def unwrapSingle : List Value → Value
  | [v] => v
  | vs => .list vs

/-- The parts of documents that match one of several patterns. -/
def matchedSpans (args : Args) (docs : Value) (patterns : List Pattern) :
    Except EvalError Value := do
  if docs.truthy then
    let docs ← docs.toItems.mapM args.document
    pure <| unwrapSingle <| docs.flatMap fun d =>
      (matchedRanges patterns d).map fun (start, stop) => Value.doc (d.slice start stop)
  else
    .error (args.invalid .noDocument)

/-! ### Words -/

/-- The parts of speech of words without content. -/
def contentlessPos : List String := ["PUNCT", "DET"]

/-- The tags of words without content. -/
def contentlessTags : List String := ["WDT", "WP", "WP$", "WRB", "BES"]

/-- Whether a word carries content. -/
def Word.isContent (w : Word) : Bool :=
  !contentlessPos.contains w.pos && !contentlessTags.contains w.tag && !w.isStop

/-! ### Frequencies -/

/-- The most frequent item and how often it occurs, the one that occurs first if there are
several. -/
def mostCommon? (items : List String) : Option (String × Nat) :=
  firstBest? (fun a best => decide (best.2 < a.2))
    (items.eraseDups.map fun item => (item, items.count item))

end ErrorAnalysis
