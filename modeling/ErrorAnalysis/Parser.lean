import ErrorAnalysis.Text.Quoted

/-!
# Parser combinators

A parser reads a sequence of items from a position on, and yields a value and the position after
what it read, or an error with the position at which it arose. Parsers back up freely: a parser
that fails has consumed nothing.

Repetition ends where its body fails, and also where the body consumes nothing, which it never
should. Recursive rules are written with `Parser.fix`, which hands the rule to itself; it may use
itself only after it has consumed an item.

## Main definitions

* `ParseError`: why and where a parser failed, and the rules in which it did.
* `Parser`: parsers over items of a type.
* `Parser.choice`: the first parser that succeeds, or the error that got furthest.
* `Parser.many`, `Parser.separatedBy`: repetition.
* `Parser.fix`: recursion.
-/

namespace ErrorAnalysis

/-! ### Errors -/

/-- Why a parser failed. -/
inductive ParseError.Cause where
  /-- There was no item left. -/
  | endOfInput
  /-- Another item stood there; both are given as they are shown. -/
  | unexpected (expected found : String)
  | noAlternative
  /-- The item is not of the kind that was looked for. -/
  | unsuitable
  /-- A rule used itself before it had consumed anything. -/
  | noProgress
deriving DecidableEq, Repr

/-- A failure to parse. -/
structure ParseError where
  cause : ParseError.Cause
  position : Nat
  /-- The named rules around the failure, from the inside out. -/
  rules : List String
deriving DecidableEq, Repr

namespace ParseError

/-- The error as seen from a named rule around it. -/
def within (rule : String) (e : ParseError) : ParseError :=
  { e with rules := e.rules ++ [rule] }

/-- The named rules as one text, if there are any. -/
def context? (e : ParseError) : Option String :=
  if e.rules.isEmpty then none else some (" -> ".intercalate e.rules)

/-- Where a message says that an error arose. -/
def place (e : ParseError) : String :=
  " at position " ++ toString e.position ++ ", context: "
    ++ match e.context? with
      | none => "None"
      | some c => "Some(" ++ visible c ++ ")"

/-- The message of an error. -/
def message (e : ParseError) : String :=
  (match e.cause with
    | .endOfInput => "Unexpected EOF: input exhausted"
    | .unexpected expected found => "Unexpected: expected " ++ expected ++ ", parsed " ++ found
    | .noAlternative => "No alternative matched"
    | .unsuitable => "Failure: item does not satisfy predicate"
    | .noProgress => "Failure: rule consumes nothing")
    ++ e.place

end ParseError

/-! ### Parsers -/

/-- The outcome of a parser: a value and the position after it, or an error. -/
abbrev Parsed (α : Type) := Except ParseError (α × Nat)

/-- A parser of `α` over items of `τ`. -/
def Parser (τ α : Type) := Array τ → Nat → Parsed α

namespace Parser

variable {τ α β γ δ : Type}

/-- Fails for a cause at a position. -/
def fail (cause : ParseError.Cause) (pos : Nat) : Parsed α :=
  .error ⟨cause, pos, []⟩

/-- The next item, if it is `x`; `shown` tells how items appear in errors. -/
def equal [DecidableEq τ] (shown : τ → String) (x : τ) : Parser τ τ := fun input pos =>
  match input[pos]? with
  | none => fail .endOfInput pos
  | some found =>
    if found = x then .ok (found, pos + 1) else fail (.unexpected (shown x) (shown found)) pos

/-- What `f` makes of the next item, if it makes something. -/
def satisfy (f : τ → Option α) : Parser τ α := fun input pos =>
  match input[pos]? with
  | none => fail .endOfInput pos
  | some x =>
    match f x with
    | some a => .ok (a, pos + 1)
    | none => fail .unsuitable pos

/-- The first of the parsers that succeeds. If none does, the error that got furthest is reported,
the first of those, unless none got beyond the start. -/
def choiceFrom (furthest : Option ParseError) : List (Parser τ α) → Parser τ α
  | [], _, pos =>
    match furthest with
    | some e => if pos < e.position then .error e else fail .noAlternative pos
    | none => fail .noAlternative pos
  | p :: ps, input, pos =>
    match p input pos with
    | .ok r => .ok r
    | .error e =>
      let further := match furthest with
        | none => e
        | some f => if f.position < e.position then e else f
      choiceFrom (some further) ps input pos

/-- The first of the parsers that succeeds, or the error that got furthest. -/
def choice (ps : List (Parser τ α)) : Parser τ α :=
  choiceFrom none ps

/-- A parser with a function applied to its value. -/
def map (f : α → β) (p : Parser τ α) : Parser τ β := fun input pos =>
  (p input pos).map fun (a, next) => (f a, next)

/-- A parser without its value. -/
def ignore (p : Parser τ α) : Parser τ Unit :=
  p.map fun _ => ()

/-- One parser after another. -/
def pair (p : Parser τ α) (q : Parser τ β) : Parser τ (α × β) := fun input pos =>
  (p input pos).bind fun (a, pos) => (q input pos).map fun (b, pos) => ((a, b), pos)

/-- Three parsers in a row. -/
def triple (p : Parser τ α) (q : Parser τ β) (r : Parser τ γ) : Parser τ (α × β × γ) :=
  pair p (pair q r)

/-- A parser between two others, of which only the inner value is kept. -/
def between (left : Parser τ α) (p : Parser τ β) (right : Parser τ γ) : Parser τ β :=
  (triple left p right).map fun (_, b, _) => b

/-- A parser that may fail without consuming anything. -/
def optional (p : Parser τ α) : Parser τ (Option α) := fun input pos =>
  match p input pos with
  | .ok (a, next) => .ok (some a, next)
  | .error _ => .ok (none, pos)

/-- A parser whose errors name the rule that it is. -/
def named (rule : String) (p : Parser τ α) : Parser τ α := fun input pos =>
  (p input pos).mapError (·.within rule)

/-! ### Repetition -/

/-- The values of a parser as often as it succeeds, and the position after the last. -/
def manyFrom (p : Parser τ α) (input : Array τ) (pos : Nat) : List α × Nat :=
  match p input pos with
  | .error _ => ([], pos)
  | .ok (a, next) =>
    if _h : pos < next ∧ next ≤ input.size then
      let (as, last) := manyFrom p input next
      (a :: as, last)
    else
      ([], pos)
termination_by input.size - pos

/-- A parser as often as it succeeds. -/
def many (p : Parser τ α) : Parser τ (List α) := fun input pos =>
  .ok (manyFrom p input pos)

/-- Items each after a separator. An item that fails after its separator is an error. -/
def manyAfter (separator : Parser τ β) (item : Parser τ α) (input : Array τ) (pos : Nat) :
    Parsed (List α) :=
  match separator input pos with
  | .error _ => .ok ([], pos)
  | .ok (_, start) =>
    match item input start with
    | .error e => .error e
    | .ok (a, next) =>
      if _h : pos < next ∧ next ≤ input.size then
        (manyAfter separator item input next).map fun (as, last) => (a :: as, last)
      else
        .ok ([], pos)
termination_by input.size - pos

/-- Items with separators between them, or nothing. -/
def separatedBy (separator : Parser τ β) (item : Parser τ α) : Parser τ (List α) :=
  fun input pos =>
    match item input pos with
    | .error _ => .ok ([], pos)
    | .ok (a, next) =>
      (manyAfter separator item input next).map fun (as, last) => (a :: as, last)

/-! ### Recursion -/

/-- A rule that may use itself `fuel` times within itself. -/
def fixFuel (rule : Parser τ α → Parser τ α) : Nat → Parser τ α
  | 0, _, pos => fail .noProgress pos
  | fuel + 1, input, pos => rule (fixFuel rule fuel) input pos

/-- A rule that uses itself. It may do so only after it has consumed an item, so from a position
it is inside itself at most as often as there are items left. -/
def fix (rule : Parser τ α → Parser τ α) : Parser τ α := fun input pos =>
  fixFuel rule (input.size - pos + 1) input pos

end Parser

end ErrorAnalysis
