import ErrorAnalysis.Text.Blank

/-!
# Commands

A command is the text of a query as a user types it. Before it is read, its layout is normalised:
runs of tabs and line breaks become one space, the three other quotation marks that editors put
in become the plain double quote, and blanks at the ends go.

## Main definitions

* `Command.normalize`: the normalised command.
-/

namespace ErrorAnalysis

namespace Command

/-- Whether a character is a tab or breaks a line. -/
def isControlBlank (c : Char) : Bool :=
  c == '\n' || c == '\t' || c == '\r'

/-- The plain double quote for each of the quotation marks, and other characters as they are. -/
def plainQuote (c : Char) : Char :=
  if c = '\'' || c = '\u201C' || c = '\u201D' then '"' else c

/-- A space for each run of tabs and line breaks. -/
def joinLines : List Char → List Char
  | [] => []
  | c :: cs =>
    if isControlBlank c then
      match cs with
      | [] => [' ']
      | d :: _ => if isControlBlank d then joinLines cs else ' ' :: joinLines cs
    else
      c :: joinLines cs

/-- A command in normal layout. -/
def normalize (cmd : String) : String :=
  String.ofList (trim ((joinLines cmd.toList).map plainQuote))

end Command

end ErrorAnalysis
