import ErrorAnalysis.Text.Case

/-!
# Words of annotated documents

A document is a sequence of words with the annotations of a linguistic analysis: lemma, part of
speech, fine-grained tag, entity type and dependency. Punctuation marks count as words.

## Main definitions

* `Word`: a word with its annotations.
* `Word.ofText`: a word of which only the text is known.
* `Word.feature?`: an annotation by name.
-/

namespace ErrorAnalysis

/-- A word of a document with its annotations. -/
structure Word where
  text : String
  baseForm : String := ""
  pos : String := ""
  tag : String := ""
  entType : String := ""
  dep : String := ""
  /-- Whether a blank follows the word. -/
  spaceAfter : Bool := true
  isPunct : Bool := false
  isStop : Bool := false
  /-- Whether the word opens a sentence. -/
  opensSentence : Bool := false
deriving DecidableEq, Repr, Inhabited

namespace Word

/-- Whether a character is one of the punctuation marks and symbols of ASCII. -/
def isAsciiPunctuation (c : Char) : Bool :=
  let n := c.toNat
  decide ((33 ≤ n ∧ n ≤ 47) ∨ (58 ≤ n ∧ n ≤ 64) ∨ (91 ≤ n ∧ n ≤ 96) ∨ (123 ≤ n ∧ n ≤ 126))

/-- A word of which only the text is known: its lemma is the text in lower case, and a text of
punctuation marks alone is tagged as such. -/
def ofText (text : String) : Word :=
  let punct := !text.isEmpty && text.toList.all isAsciiPunctuation
  { text
    baseForm := lowercase text
    pos := if punct then "PUNCT" else ""
    isPunct := punct }

/-- An annotation by its name. A word without a lemma has its text in lower case for one. -/
def feature? (w : Word) (name : String) : Option String :=
  match name with
  | "lemma" => some (if w.baseForm.isEmpty then lowercase w.text else w.baseForm)
  | "pos" => some w.pos
  | "tag" => some w.tag
  | "ent_type" => some w.entType
  | "dep" => some w.dep
  | "orth" | "text" => some w.text
  | "lower" => some (lowercase w.text)
  | _ => none

end Word

end ErrorAnalysis
