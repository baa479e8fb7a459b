import ErrorAnalysis.Text.Blank
import ErrorAnalysis.Value.Basic

/-!
# Documents

Operations on documents: building one from plain text, its text, its parts, and its sentences.
A part of a document knows where it came from, so positions can be compared across parts.

## Main definitions

* `Document.ofText`: a document of the words of a plain text.
* `Document.text`: the text of a document.
* `Document.position`: where a word is in the document that this one is part of.
* `Document.slice`: the part between two words.
* `Document.sentences`: the ranges of its sentences.
-/

namespace ErrorAnalysis

namespace Document

/-- A document with no metadata that is not part of another. -/
def ofWords (words : List Word) : Document :=
  ⟨words, 0, []⟩

instance : Inhabited Document := ⟨ofWords []⟩

/-! ### From and to text -/

/-- Whether a word ends the sentence it stands in. -/
def endsSentence (w : Word) : Bool :=
  w.text == "." || w.text == "?" || w.text == "!"

/-- Marks as opening a sentence every word that follows the end of one; `ended` tells whether
the first word does. -/
def markSentences (ended : Bool) : List Word → List Word
  | [] => []
  | w :: ws =>
    (if ended then { w with opensSentence := true } else w) :: markSentences (endsSentence w) ws

/-- The document of a plain text: its words, cut at blanks. -/
def ofText (s : String) : Document :=
  ofWords <| markSentences false <|
    (splitWords s.toList).map fun w => Word.ofText (String.ofList w)

/-- The text of a document without blanks at its end. -/
def text (d : Document) : String :=
  String.ofList <| trimRight <|
    d.words.flatMap fun w => w.text.toList ++ if w.spaceAfter then [' '] else []

/-! ### Parts -/

/-- The number of words. -/
def size (d : Document) : Nat :=
  d.words.length

/-- The position of the word with a number in the document that this one is part of. Positions have
64 bits, and a sum that has no room there wraps. -/
def position (d : Document) (i : Nat) : Nat :=
  (d.offset + i) % UInt64.size

/-- The part from the word number `start` up to `stop`, both within the document. -/
def slice (d : Document) (start stop : Nat) : Document :=
  let stop := min stop d.size
  let start := min start stop
  { words := (d.words.take stop).drop start
    offset := d.position start
    metas := d.metas }

/-- The positions that the document takes up in the one that it is part of. -/
def span (d : Document) : Nat × Nat :=
  (d.offset, d.position d.size)

/-- The values of an annotation, word by word; none for a name that is no annotation. -/
def features (d : Document) (name : String) : List String :=
  d.words.filterMap (·.feature? name)

/-- Metadata by name. -/
def getMeta? (d : Document) (name : String) : Option Value :=
  Assoc.find? d.metas name

/-! ### Sentences -/

/-- The ranges of the sentences of `ws`, of which the first word is at `pos` and belongs to a
sentence that started at `start`. -/
def sentencesFrom (start pos : Nat) : List Word → List (Nat × Nat)
  | [] => if start < pos then [(start, pos)] else []
  | w :: ws =>
    if w.opensSentence && decide (start < pos) then
      (start, pos) :: sentencesFrom pos (pos + 1) ws
    else
      sentencesFrom start (pos + 1) ws

/-- The ranges of the sentences over the positions in the document. The first word always opens a
sentence. -/
def sentences (d : Document) : List (Nat × Nat) :=
  sentencesFrom 0 0 d.words

/-- The number of the sentence that holds a position of the document that this one is part of. -/
def sentenceId? (d : Document) (position : Nat) : Option Nat :=
  if position < d.offset then none
  else
    let i := position - d.offset
    d.sentences.findIdx? fun r => decide (r.1 ≤ i ∧ i < r.2)

end Document

namespace Label

instance : Inhabited Label := ⟨⟨"", "", [], none, []⟩⟩

/-- The score under a metric; a label without it scores zero. -/
def score (l : Label) (metric : String) : Number :=
  (Assoc.find? l.perform metric).getD 0

/-- Whether a label falls short of the full score. -/
def isIncorrect (l : Label) (metric : String) : Bool :=
  decide (l.score metric < 1)

/-- Metadata by name, of the label or else of its document. -/
def getMeta? (l : Label) (name : String) : Option Value :=
  match Assoc.find? l.metas name with
  | some v => some v
  | none => l.doc.bind (·.getMeta? name)

end Label

end ErrorAnalysis
