import ErrorAnalysis.Document.Basic
import ErrorAnalysis.Eval.Error

/-!
# Patterns of words

A pattern describes a sequence of words. It is written as elements with blanks between them; an
element is an atom, or alternatives in round brackets with commas between them. An atom stands
for any word, for the words with a certain annotation, or for a word itself.

## Main definitions

* `Pattern.Atom`: what a single word may be asked for.
* `Pattern.compile`: the pattern that a text denotes.
* `Pattern.findAll`: the ranges of a document that a pattern matches.
-/

namespace ErrorAnalysis

namespace Pattern

/-! ### Atoms -/

/-- What a single word may be asked for. -/
inductive Atom where
  | any
  | pos (label : String)
  | tag (label : String)
  | ent (label : String)
  /-- Any entity. -/
  | anyEnt
  /-- The text in lower case, or the lemma. -/
  | word (w : String)
deriving DecidableEq, Repr

/-- The parts of speech. -/
def posLabels : List String :=
  ["ADJ", "ADP", "ADV", "AUX", "CCONJ", "CONJ", "DET", "INTJ", "NOUN", "NUM", "PART", "PRON",
    "PROPN", "PUNCT", "SCONJ", "SPACE", "SYM", "VERB", "X"]

/-- The types of entities. -/
def entLabels : List String :=
  ["PERSON", "NORP", "FAC", "ORG", "GPE", "LOC", "PRODUCT", "EVENT", "WORK_OF_ART", "LAW",
    "LANGUAGE", "DATE", "TIME", "PERCENT", "MONEY", "QUANTITY", "ORDINAL", "CARDINAL"]

/-- Whether a text looks like a tag: capital letters of ASCII, at least one, and dollar signs. -/
def isTag (cs : List Char) : Bool :=
  cs.any Char.isUpper && cs.all fun c => c.isUpper || c == '$'

namespace Atom

/-- The atom that a text denotes. -/
def ofText (cs : List Char) : Atom :=
  let s := String.ofList cs
  if s = "*" then .any
  else if s = "ENT" then .anyEnt
  else if posLabels.contains s then .pos s
  else if entLabels.contains s then .ent s
  else if isTag cs then .tag s
  else .word (lowercase s)

/-- Whether a word is what an atom asks for. -/
def accepts (a : Atom) (w : Word) : Bool :=
  match a with
  | .any => true
  | .pos label => w.pos == label
  | .tag label => w.tag == label
  | .ent label => w.entType == label
  | .anyEnt => !w.entType.isEmpty
  | .word s => lowercase w.text == s || w.feature? "lemma" == some s

/-- The text of an atom. -/
def text : Atom → String
  | .any => "*"
  | .anyEnt => "ENT"
  | .pos s | .tag s | .ent s | .word s => s

end Atom

end Pattern

/-- A pattern: the alternatives for each word of a match. -/
structure Pattern where
  source : String
  elements : List (List Pattern.Atom)
deriving DecidableEq, Repr

namespace Pattern

/-! ### Reading -/

/-- The parts of a text between commas. -/
def splitCommas : List Char → List (List Char)
  | [] => [[]]
  | c :: cs =>
    if c = ',' then [] :: splitCommas cs
    else
      match splitCommas cs with
      | [] => [[c]]
      | part :: parts => (c :: part) :: parts

/-- The alternatives inside brackets; empty ones do not count. -/
def alternatives (cs : List Char) : List Atom :=
  (((splitCommas cs).map trim).filter fun w => !w.isEmpty).map Atom.ofText

/-- Whether a character is not a bracket. -/
def isInside (c : Char) : Bool :=
  c != '(' && c != ')'

/-- Whether a character continues a word of a pattern. -/
def isWordPart (c : Char) : Bool :=
  isInside c && !isBlank c

theorem length_dropWhile_lt (p : Char → Bool) (c : Char) (cs : List Char) :
    (cs.dropWhile p).length < (c :: cs).length :=
  Nat.lt_succ_of_le (List.dropWhile_sublist p).length_le

/-- The elements of a pattern. -/
def readElements (cs : List Char) : Except PatternProblem (List (List Atom)) :=
  match cs with
  | [] => .ok []
  | c :: rest =>
    if isBlank c then readElements rest
    else if c = '(' then
      have : (rest.dropWhile isInside).length < rest.length + 1 :=
        length_dropWhile_lt isInside c rest
      match h : rest.dropWhile isInside with
      | ')' :: after =>
        have : after.length < rest.length + 1 := by
          rw [h] at this
          exact Nat.lt_trans (Nat.lt_succ_self _) this
        let atoms := alternatives (rest.takeWhile isInside)
        if atoms.isEmpty then .error .emptyAlternatives
        else (readElements after).map (atoms :: ·)
      | [] => .error .unbalanced
      | _ => .error .nested
    else if c = ')' then .error .unbalanced
    else
      have : (rest.dropWhile isWordPart).length < rest.length + 1 :=
        length_dropWhile_lt isWordPart c rest
      (readElements (rest.dropWhile isWordPart)).map
        ([Atom.ofText (c :: rest.takeWhile isWordPart)] :: ·)
termination_by cs.length

/-- The elements of a pattern, which has at least one. -/
def readAll (source : String) : Except PatternProblem (List (List Atom)) :=
  match readElements source.toList with
  | .ok [] => .error .empty
  | r => r

/-- The pattern that a text denotes. -/
def compile (source : String) : Except EvalError Pattern :=
  match readAll source with
  | .ok elements => .ok ⟨source, elements⟩
  | .error problem => .error (.invalidArgument "pattern" (.pattern problem source))

/-! ### Matching -/

/-- The number of words of a match. -/
def width (p : Pattern) : Nat :=
  p.elements.length

/-- Whether the first words are what the elements ask for, one by one. -/
def acceptsAll : List (List Atom) → List Word → Bool
  | [], _ => true
  | _ :: _, [] => false
  | atoms :: elements, w :: ws => atoms.any (·.accepts w) && acceptsAll elements ws

/-- The ranges that match, by their starts. -/
def findAll (p : Pattern) (d : Document) : List (Nat × Nat) :=
  ((List.range (d.size + 1)).filter fun start =>
      decide (start + p.width ≤ d.size) && acceptsAll p.elements (d.words.drop start)).map
    fun start => (start, start + p.width)

/-- Whether a document has a match. -/
def isMatch (p : Pattern) (d : Document) : Bool :=
  !(p.findAll d).isEmpty

end Pattern

end ErrorAnalysis
