import ErrorAnalysis.Text.CharClass

/-!
# Blanks, words and trimming

Blank characters are those with the Unicode property `White_Space`. Texts are cut into words at
them, and trimmed of them.

## Main definitions

* `isBlank`: the property.
* `splitWords`: the maximal runs of characters that are not blank.
* `trim`, `trimRight`: a text without the blanks at its ends, or at its right end.
-/

namespace ErrorAnalysis

/-- The property `White_Space`. -/
def blankClass : CharClass where
  boundaries := [
    0x9, 0xE, 0x20, 0x21, 0x85, 0x86, 0xA0, 0xA1, 0x1680, 0x1681, 0x2000, 0x200B, 0x2028, 0x202A,
    0x202F, 0x2030, 0x205F, 0x2060, 0x3000, 0x3001]

/-- Whether a character is blank. -/
def isBlank (c : Char) : Bool :=
  blankClass.contains c

/-- The text without the blanks at its left end. -/
def trimLeft (cs : List Char) : List Char :=
  cs.dropWhile isBlank

/-- The text without the blanks at its right end. -/
def trimRight (cs : List Char) : List Char :=
  (trimLeft cs.reverse).reverse

/-- The text without the blanks at either end. -/
def trim (cs : List Char) : List Char :=
  trimRight (trimLeft cs)

/-- Whether a text is empty or has blanks only. -/
def isAllBlank (cs : List Char) : Bool :=
  cs.all isBlank

/-- The words of a text in order. A character that is not blank starts a word if nothing or a
blank follows, and joins the next word otherwise. -/
def splitWords : List Char → List (List Char)
  | [] => []
  | c :: cs =>
    if isBlank c then splitWords cs
    else
      match cs, splitWords cs with
      | d :: _, w :: ws => if isBlank d then [c] :: w :: ws else (c :: w) :: ws
      | _, ws => [c] :: ws

end ErrorAnalysis
