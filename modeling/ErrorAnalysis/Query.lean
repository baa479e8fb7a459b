import ErrorAnalysis.Command
import ErrorAnalysis.Expr.Grammar
import ErrorAnalysis.Token.Lexer
import ErrorAnalysis.Value.Compare

/-!
# Queries

From the text of a command to its expression: the layout is normalised, the text is cut into
tokens, and the tokens without the blanks are parsed, all of them.

## Main definitions

* `SyntaxError`: why a command is no query.
* `Query.parseTokens`: the expression that a sequence of tokens is.
* `Query.parse`: the expression that a command denotes.
* `Query.parseOrNoOp`: the same, with `Expr.noOp` for a malformed command.
-/

namespace ErrorAnalysis

/-- Why a command is not a query. -/
inductive SyntaxError where
  | lex (e : LexError)
  | parse (e : ParseError)
  /-- Tokens are left after an expression. -/
  | trailing (position : Nat) (found : List Token)

/-- The message of a syntax error. -/
def SyntaxError.message : SyntaxError → String
  | .lex e => e.message
  | .parse e => "Parse error: " ++ e.message
  | .trailing position found =>
    "Unexpected trailing input at token " ++ toString position ++ ": "
      ++ joinWith " " (found.map Token.text)

namespace Query

/-- The expression that a sequence of tokens without blanks is. -/
def parseTokens (tokens : List Token) : Except SyntaxError Expr :=
  match Grammar.expression tokens.toArray 0 with
  | .error e => .error (.parse e)
  | .ok (x, pos) =>
    if pos < tokens.length then .error (.trailing pos (tokens.drop pos)) else .ok x

/-- The tokens of a command in normal layout, without blanks. -/
def tokens (cmd : String) : Except SyntaxError (List Token) :=
  match Token.scan (Command.normalize cmd) with
  | .error e => .error (.lex e)
  | .ok located => .ok ((located.map (·.token)).filter fun t => !t.isBlank)

/-- The expression that a command denotes. -/
def parse (cmd : String) : Except SyntaxError Expr := do
  parseTokens (← tokens cmd)

/-- The expression that a command denotes; a malformed command does nothing. -/
def parseOrNoOp (cmd : String) : Expr :=
  match parse cmd with
  | .ok x => x
  | .error _ => .noOp

end Query

end ErrorAnalysis
