import ErrorAnalysis.Builtin.Basic

/-!
# Annotations of documents

Reading an annotation off the words of a document: that of its root, that of each word, or the
most common one.

## Main definitions

* `Annotations.Reader`: which annotation is read, and of which words.
* `Annotations.linguistic`: the annotations of documents or of their parts.
-/

namespace ErrorAnalysis

namespace Annotations

/-- Which annotation is read, and of which words. -/
structure Reader where
  feature : String
  ofRoot : Bool
  mostCommon : Bool

/-- The parts of speech, and tags, of words that say little about a document. -/
def functionWords : List String :=
  ["ADP", "IN", "RP", "RB", "DET", "CONJ", "PUNCT", "CCONJ", "PART", "SCONJ", "SYM"]

/-- The root of a document, or else its first word. -/
def root? (d : Document) : Option Word :=
  d.words.find? (·.dep == "ROOT") <|> d.words.head?

/-- A text that may be absent as a value. -/
def textOrNull (s? : Option String) : Value :=
  s?.elim .null .str

namespace Reader

/-- Whether a single word stands for the document. -/
def readsRoot (r : Reader) (d : Document) : Bool :=
  r.ofRoot || d.size == 1

/-- The type of entity of a document. The most common one has to be that of half of the words at
least. -/
def entity (r : Reader) (d : Document) : Value :=
  if d.words.isEmpty then .null
  else if r.readsRoot d then
    textOrNull (((root? d).map (·.entType)).filter fun e => !e.isEmpty)
  else
    let types := d.features "ent_type"
    if r.mostCommon then
      textOrNull <|
        ((mostCommon? (types.filter fun e => !e.isEmpty)).filter fun e =>
          decide (d.size ≤ 2 * e.2)).map (·.1)
    else
      .ofTexts types

/-- Whether a word takes part in the choice of the most common annotation. -/
def isInformative (r : Reader) (w : Word) : Bool :=
  !functionWords.contains w.pos && !w.isStop
    && (w.feature? r.feature).any fun f => !f.isEmpty

/-- The words of a document whose annotations are read. -/
def wordsOf (r : Reader) (d : Document) : List Word :=
  let ws := d.words.filter fun w => !r.mostCommon || r.isInformative w
  if ws.isEmpty then d.words else ws

/-- The annotation of a document. -/
def annotationOf (r : Reader) (d : Document) : Value :=
  if d.words.isEmpty then .null
  else if r.readsRoot d then textOrNull ((root? d).bind (·.feature? r.feature))
  else
    let features := (r.wordsOf d).filterMap (·.feature? r.feature)
    if r.mostCommon then textOrNull ((mostCommon? features).map (·.1)) else .ofTexts features

/-- The annotation of the document behind a value. -/
def read (r : Reader) (args : Args) (span : Value) : Except EvalError Value :=
  if span.truthy then
    (args.document span).map fun d =>
      if "ent".toList.isPrefixOf r.feature.toList then r.entity d else r.annotationOf d
  else
    .ok .null

end Reader

/-- The annotations of documents, or of their parts that match a pattern. -/
def linguistic {m : Type → Type} [Monad m] [AsksPatterns m] (args : Args) (a : Ambient) :
    Eval m Value := do
  let feature ← args.text "label"
  let r : Reader := ⟨feature, args.flag "get_root", args.flag "get_most_common"⟩
  let pattern := args.get "pattern"
  let spans ←
    if pattern.truthy then do
      let patterns ← a.patternsOf pattern
      liftM (matchedSpans args (args.get "spans") patterns)
    else
      pure (args.get "spans")
  match spans with
  | .list items => do
    let features ← liftM (items.mapM (r.read args))
    pure (unwrapSingle (features.filter Value.truthy))
  | span => r.read args span

end Annotations

end ErrorAnalysis
