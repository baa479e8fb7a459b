import ErrorAnalysis.Builtin.Basic

/-!
# Operations on documents

Sizes, common words, texts, parts and patterns of documents, and how frequent their words are.

## Main definitions

* `Documents.length`, `Documents.overlap`, `Documents.string`, `Documents.label`.
* `Documents.token`, `Documents.hasPattern`, `Documents.boundaryWith`: parts and patterns.
* `Documents.freq`: how frequent the rarest word is.
-/

namespace ErrorAnalysis

namespace Documents

/-! ### Sizes -/

/-- The number of words of the document behind a value. -/
def sizeOf (v : Value) : Nat :=
  v.doc?.elim 0 Document.size

/-- The number of words of a document, or of the shortest one of several. -/
def length (args : Args) : Except EvalError Value :=
  match args.get "docs" with
  | .null => .error (args.invalid .nothingValid)
  | .list items => .ok (.ofNat ((items.map sizeOf).min?.getD 0))
  | v@(.doc _) | v@(.label _) | v@(.key _) => .ok (.ofNat (sizeOf v))
  | v => .error (args.invalid (.notDocument v.text))

/-! ### Common words -/

/-- The lemma of a word that has an annotation. -/
def lemmaIfAnnotated? (feature : String) (w : Word) : Option String :=
  match w.feature? feature with
  | some f => if f.isEmpty then none else w.feature? "lemma"
  | none => none

/-- The lemmas of words that have an annotation. -/
def annotatedLemmas (feature : String) (ws : List Word) : SortedSet String :=
  SortedSet.ofList (ws.filterMap (lemmaIfAnnotated? feature))

/-- The lemmas of the words of `a` that carry content, and those among them that `b` has too. -/
def sharedLemmas (feature : String) (a b : Document) : SortedSet String × SortedSet String :=
  let asked := annotatedLemmas feature (a.words.filter Word.isContent)
  (asked, SortedSet.inter asked (annotatedLemmas feature b.words))

/-- The share of common lemmas among those of `a`, zero if it has none. -/
def sharedRatio (asked shared : SortedSet String) : Number :=
  if asked.isEmpty then 0 else Number.ofNat shared.length / Number.ofNat asked.length

/-- The lemmas that two documents have in common, or their share among those of the first one; of
several documents, those with most in common count. -/
def overlap (args : Args) : Except EvalError Value := do
  let asList := args.flag "return_token_list"
  let a := args.get "doc_a"
  let b := args.get "doc_b"
  if a.truthy && b.truthy then
    let feature ← args.text "label"
    let as ← args.documents a
    let bs ← args.documents b
    let pairs := as.flatMap fun a => bs.map (sharedLemmas feature a)
    if asList then
      pure <| .ofTexts <|
        keepBest (fun s best => decide (best.length < s.length)) [] (pairs.map (·.2))
    else
      pure <| .num <|
        keepBest (fun x best => decide (best < x)) 0 (pairs.map fun p => sharedRatio p.1 p.2)
  else
    pure (if asList then .list [] else .num 0)

/-! ### Texts -/

/-- The first item of a value that counts as true. -/
def firstItem (args : Args) : Except EvalError Value :=
  let target := args.get "target"
  if target.truthy then .ok (target.toItems.headD .null)
  else .error (args.invalid (.notValid target.text))

/-- The text of a handle, or a text itself. -/
def string (args : Args) : Except EvalError Value := do
  match ← firstItem args with
  | .str s => pure (.str s)
  | v =>
    match v.tag with
    | .handle => pure (.str v.handleText)
    | _ => .error (args.invalid (.noText v.text))

/-- The text of a label. -/
def label (args : Args) : Except EvalError Value := do
  let v ← firstItem args
  match v.label? with
  | some l => pure (.str l.text)
  | none => .error (args.invalid (.notLabel v.text))

/-! ### Parts -/

/-- An index that has to be a number. -/
def index (args : Args) (v : Value) : Except EvalError Int :=
  v.number?.elim (.error (args.invalid (.notIndex v.text))) fun x => .ok x.toInt64

/-- The range that an index, or a list of two, asks for. -/
def indexRange? (args : Args) : Except EvalError (Option (Int × Int)) :=
  match args.get "idxes" with
  | .null => .ok none
  | .num x => .ok (some (x.toInt64, x.toInt64 + 1))
  | .list (a :: b :: _) => do
    let start ← index args a
    let stop ← index args b
    pure (some (start, stop))
  | v => .error (args.invalid (.notIndexRange v.text))

/-- The part of a document in a range. A range that starts below zero counts from the end, and the
whole document stands for a range that goes beyond it. -/
def part (d : Document) (range? : Option (Int × Int)) : Document :=
  match range? with
  | none => d
  | some (start, stop) =>
    let size : Int := d.size
    let shift := if start < 0 then size else 0
    let start := start + shift
    let stop := stop + shift
    if start < 0 ∨ size < start ∨ stop < 0 ∨ size < stop then d
    else d.slice start.toNat stop.toNat

/-- The parts of documents in a range. -/
def parts (args : Args) (docs : Value) (range? : Option (Int × Int)) : Except EvalError Value :=
  match docs with
  | .list items => do
    let docs ← items.mapM args.document
    pure (.list (docs.map fun d => .doc (part d range?)))
  | v => do pure (.doc (part (← args.document v) range?))

section Matching

variable {m : Type → Type} [Monad m] [AsksPatterns m]

/-- Parts of documents, in a range or that match a pattern there. -/
def token (args : Args) (a : Ambient) : Eval m Value := do
  let docs := args.get "docs"
  if docs.truthy then
    let found ← parts args docs (← indexRange? args)
    let pattern := args.get "pattern"
    if pattern.truthy then
      let patterns ← a.patternsOf pattern
      matchedSpans args found patterns
    else
      pure found
  else
    throw (args.invalid .nothing)

/-! ### Patterns -/

/-- Whether documents match a pattern in a range. -/
def patternFound (args : Args) (a : Ambient) (range? : Option (Int × Int)) : Eval m Value := do
  let pattern := args.get "pattern"
  if pattern.isNull then throw (args.invalid (.notPattern pattern.text))
  let docs := args.get "docs"
  if docs.truthy then
    let patterns ← a.patternsOf pattern
    let found ← parts args docs range?
    pure (.bool ((found.toItems.filterMap Value.doc?).any fun d => patterns.any (·.isMatch d)))
  else
    throw (args.invalid .nothing)

/-- Whether documents have a pattern. -/
def hasPattern (args : Args) (a : Ambient) : Eval m Value := do
  patternFound args a (← indexRange? args)

/-- Whether documents start or end with a pattern. The end may be one word off, so that a mark at
the end does not count. -/
def boundaryWith (args : Args) (a : Ambient) : Eval m Value := do
  let pattern := args.get "pattern"
  if pattern.isNull then throw (args.invalid (.notPattern pattern.text))
  let patterns ← a.patternsOf pattern
  let width : Int := (patterns.head?.elim 0 Pattern.width : Nat)
  let direction ← args.text "direction"
  patternFound args a (some (if direction = "start" then (0, width) else (-width - 1, 0)))

end Matching

/-! ### Frequencies -/

/-- How frequent a word is. -/
def wordFrequency (table : Assoc String Nat) (w : Word) : Nat :=
  ((w.feature? "lemma").bind (Assoc.find? table)).getD 0

/-- How frequent the rarest word of a document is, marks aside. -/
def leastFrequency (table : Assoc String Nat) (d : Document) : Nat :=
  let ws := d.words.filter fun w => !(w.isPunct || w.text == "\n")
  (ws.map (wordFrequency table)).min?.getD 0

/-- How frequent the rarest word of documents is. -/
def freq (args : Args) (a : Ambient) : Except EvalError Value := do
  let targetType ← args.text "target_type"
  let table ←
    (a.frequencies? targetType).elim (.error (args.invalid (.noFrequencies targetType))) .ok
  let target := args.get "target"
  if target.truthy then
    let docs ← target.toItems.mapM args.document
    pure (.ofNat ((docs.map (leastFrequency table)).min?.getD 0))
  else
    .error (args.invalid (.unknownTarget target.text))

end Documents

end ErrorAnalysis
