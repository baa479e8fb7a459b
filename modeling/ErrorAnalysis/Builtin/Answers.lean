import ErrorAnalysis.Builtin.Basic

/-!
# Operations on answers

Answers of annotators and models: how well a model did, where answers lie in their context, and
how far they are from the words of the question.

## Main definitions

* `Answers.perform`, `Answers.prediction`: the answer of a model and its score.
* `Answers.span?`: the positions of an answer.
* `Answers.offset`: how far the answer of a model is off at its boundary.
* `Answers.sentence`: the sentences that answers lie in.
* `Answers.distance`: how far answers are from the words of the question.
-/

namespace ErrorAnalysis

namespace Answers

/-! ### Answers of models -/

/-- The answer of the model in question. -/
def modelAnswer (args : Args) (a : Ambient) : Except EvalError Label := do
  let model ←
    ((args.text? "model").bind a.model?).elim
      (.error (args.invalid (.noModel (args.get "model").text))) .ok
  let predictions := args.get "predictions"
  if predictions.truthy then
    (predictions.labels.find? fun l => l.model == model).elim
      (.error (args.invalid (.noPredictionOf model))) .ok
  else
    .error (args.invalid .noPredictions)

/-- The score of a model's answer under a metric. -/
def perform (args : Args) (a : Ambient) : Except EvalError Value := do
  let metric ← args.text "perform_name"
  pure (.num ((← modelAnswer args a).score metric))

/-- A model's answer. -/
def prediction (args : Args) (a : Ambient) : Except EvalError Value :=
  (modelAnswer args a).map .label

/-! ### Positions -/

/-- An integer as a signed number of 64 bits: one that has no room there wraps. -/
def wrapped (i : Int) : Int :=
  Int.bmod i UInt64.size

/-- How great a signed number of 64 bits is. That of the least one has no room, and is the least one
again. -/
def magnitude (i : Int) : Int :=
  wrapped i.natAbs

/-- A position as a signed number of 64 bits: one that has no room there comes out negative. -/
def signedPosition (position : Nat) : Int :=
  wrapped position

/-- A number in the metadata of a label, as a position. -/
def metaPosition? (l : Label) (name : String) : Option Int :=
  ((l.getMeta? name).bind Value.number?).map Number.toInt64

/-- The positions of an answer: those of its document, or else those that its metadata give. -/
def span? (l : Label) : Option (Int × Int) :=
  match l.doc.filter fun d => !d.words.isEmpty with
  | some d => some (signedPosition d.span.1, signedPosition d.span.2)
  | none => do pure (← metaPosition? l "span_start", ← metaPosition? l "span_end")

/-- The positions of the answers that a parameter is bound to. -/
def spans (args : Args) (parameter : String) : List (Int × Int) :=
  (args.get parameter).labels.filterMap span?

/-- Whether two answers have a word in common. -/
def overlaps (a b : Int × Int) : Bool :=
  decide (b.1 < a.2 ∧ a.1 < b.2)

/-- The boundary of an answer. -/
def boundary (left : Bool) (a : Int × Int) : Int :=
  if left then a.1 else a.2

/-- The boundaries of the pairs of a groundtruth and an overlapping prediction. -/
def boundaryPairs (left : Bool) (truths predictions : List (Int × Int)) : List (Int × Int) :=
  truths.flatMap fun a =>
    (predictions.filter (overlaps a)).map fun b => (boundary left a, boundary left b)

/-- How far the second boundary of a pair is behind the first one. -/
def delta (pair : Int × Int) : Int :=
  wrapped (pair.2 - pair.1)

/-- The pair whose boundaries are closest. -/
def closestPair? (pairs : List (Int × Int)) : Option (Int × Int) :=
  firstBest? (fun p best => decide (magnitude (delta p) < magnitude (delta best))) pairs

/-- The words of a context from one position of the document that it is part of up to another one. -/
def between (context : Document) (start stop : Int) : Document :=
  let base := signedPosition context.offset
  context.slice (wrapped (start - base)).toNat (wrapped (stop - base)).toNat

/-- The words of a context between the boundaries of a pair, null if these are the same. -/
def gap (context : Document) (pair : Int × Int) : Value :=
  if delta pair = 0 then .null
  else if 0 < delta pair then .doc (between context pair.1 pair.2)
  else .doc (between context pair.2 pair.1)

/-- How far the prediction closest to a groundtruth is off at its left or right boundary, in words
or by the words in between. -/
def offset (args : Args) : Except EvalError Value := do
  let predictions := args.get "pred"
  let truths := args.get "groundtruths"
  let context := args.get "context"
  if predictions.truthy && truths.truthy && context.truthy then
    let d ← args.document context
    let left := (← args.text "direction") == "left"
    let asSpan := (← args.text "get") == "span"
    match closestPair? (boundaryPairs left (spans args "groundtruths") (spans args "pred")) with
    | none => pure .null
    | some pair => pure (if asSpan then gap d pair else .ofInt (delta pair))
  else
    .error (args.invalid (.notComparable truths.text predictions.text context.text))

/-! ### Sentences -/

/-- A shift, which has to be a number. -/
def shift (args : Args) (v : Value) : Except EvalError Int :=
  v.number?.elim (.error (args.invalid (.notShift v.text))) fun x => .ok x.toInt64

/-- The number of the sentence that an answer starts in; an answer outside of the context is taken
to lie in the first one. -/
def sentenceOf (context : Document) (l : Label) : Nat :=
  match span? l with
  | some (.ofNat start, _) => (context.sentenceId? start).getD 0
  | _ => 0

/-- The numbers of the sentences, of `count`, that lie the given shifts away from answers. -/
def shiftedSentences (count : Nat) (ids : List Nat) (shifts : List Int) : SortedSet Nat :=
  let places := ids.flatMap fun id : Nat => shifts.map fun s => (id : Int) + s
  SortedSet.ofList ((places.filter fun i : Int => decide (0 ≤ i ∧ i < count)).map Int.toNat)

/-- The sentences of the context that answers lie in, moved by a number of sentences; the first
sentence if there is none. -/
def sentence (args : Args) : Except EvalError Value := do
  let context := args.get "context"
  let d ← context.doc?.elim (.error (args.invalid (.notContext context.text))) .ok
  let answers := (args.get "answer").labels
  if answers.isEmpty then
    .error (args.invalid (.notAnswerIn (args.get "answer").text))
  else
    let shifts ← (args.get "shift").toItems.mapM (shift args)
    let ranges := d.sentences
    let ids := shiftedSentences ranges.length (answers.map (sentenceOf d)) shifts
    let found := ids.filterMap fun id => ranges[id]?
    let part (r : Nat × Nat) : Value := .doc (d.slice r.1 r.2)
    pure <|
      if found.isEmpty then ranges.head?.elim .null part
      else unwrapSingle (found.map part)

/-! ### Distances -/

/-- How far a position is from an answer. -/
def distanceTo (answer : Int × Int) (i : Int) : Int :=
  if answer.1 ≤ i ∧ i < answer.2 then 0
  else min (magnitude (wrapped (i - answer.1))) (magnitude (wrapped (i - answer.2 + 1)))

/-- How far the words of a context with a certain lemma are from an answer. -/
def distances (context : Document) (baseForm : String) (answer : Int × Int) : List Int :=
  (context.words.zipIdx.filter fun w => w.1.baseForm == baseForm).map fun w =>
    distanceTo answer (signedPosition (context.position w.2))

/-- The words of a question that count: those that match patterns, or else those with content. -/
def keyWords (patterns : List Pattern) (question : Document) : List Word :=
  if patterns.isEmpty then question.words.filter Word.isContent
  else
    let ranges := (patterns.flatMap fun p => p.findAll question).mergeSort fun r s =>
      (@compare _ rangeOrd r s).isLE
    ranges.flatMap fun (start, stop) => (question.slice start stop).words

/-- How many times a word occurs in the context, and how far its closest occurrence is from an
answer. -/
def rarityAndDistance? (context : Document) (answer : Int × Int) (w : Word) :
    Option (Nat × Int) :=
  let ds := distances context w.baseForm answer
  ds.min?.map (ds.length, ·)

/-- How many of the rarest words count. -/
def rarestCount : Nat := 3

/-- Words are ordered by how many times they occur, and then by their distances. -/
@[reducible] def rarityOrd : Ord (Nat × Int) :=
  lexOrd

/-- How far an answer is from the closest of the rarest words. -/
def distanceOf? (context : Document) (keys : List Word) (answer : Int × Int) : Option Int :=
  let rarest := (keys.filterMap (rarityAndDistance? context answer)).mergeSort fun r s =>
    (@compare _ rarityOrd r s).isLE
  ((rarest.take rarestCount).map (·.2)).min?

/-- How far answers are from the words of the question in the context, at the closest. -/
def distance {m : Type → Type} [Monad m] [AsksPatterns m] (args : Args) (a : Ambient) :
    Eval m Value := do
  let target := args.get "target"
  if target.labels.isEmpty then throw (args.invalid (.notAnswer target.text))
  let question ← args.document (args.get "question")
  let context ← args.document (args.get "context")
  let patterns ← a.patternsOf (args.get "pattern")
  let keys := keyWords patterns question
  pure (((spans args "target").filterMap (distanceOf? context keys)).min?.elim .null .ofInt)

end Answers

end ErrorAnalysis
