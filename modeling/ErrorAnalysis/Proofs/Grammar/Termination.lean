import Mathlib.Data.Fin.VecNotation
import ErrorAnalysis.Proofs.Grammar.Forms
import ErrorAnalysis.Proofs.Grammar.Soundness

/-!
# Parsing Ends

The grammar of expressions as forms, one for the whole expression and one for each level, which enter each
other by name. Its parsers are those of the grammar, although these are written with recursion that counts
how often it may still be used, and repetitions that watch over progress. Neither is needed: without them,
a parser of an expression still comes to an end on every sequence of tokens, and with the same outcome. Each
rule that is entered where another one was entered binds stronger, and each round of a repetition consumes a
token.

## Main definitions

* `Forms.rules`: the grammar as data.
* `meaning`: the parsers of its rules.

## Main results

* `meaning_eq`: the parsers of the grammar are solutions of its rules.
* `expression_terminates`: **parsing an expression ends, moves on, and no repetition stands still.**
-/

namespace ErrorAnalysis

namespace Grammar

open ErrorAnalysis.Parser

/-! ### The grammar as data

The forms have the names of the parsers that they denote, and their shape. -/

/-- The rules for whole expressions and for expressions of a level. -/
inductive RuleName : Type → Type
  | expression : RuleName Expr
  | level (l : Level) : RuleName Expr

namespace Forms

open ErrorAnalysis.Form

/-- Forms over tokens. -/
abbrev TokenForm (α : Type) := Form Token RuleName α

@[simp] def token (t : Token) : TokenForm Token :=
  equal Token.text t

@[simp] def mark {α : Type} (t : Token) (value : α) : TokenForm α :=
  map (fun _ => value) (token t)

@[simp] def operator {α : Type} (o : Operator) (value : α) : TokenForm α :=
  mark (.operator o) value

@[simp] def keyword {α : Type} (k : Keyword) (value : α) : TokenForm α :=
  mark (.keyword k) value

@[simp] def identifier : TokenForm String :=
  named "identifier" <| satisfy fun
    | .identifier name => some name
    | _ => none

@[simp] def comma : TokenForm Token :=
  named "comma" (token (.delimiter .comma))

/-- A form between two delimiters, of which only the inner value is kept. -/
@[simp] def between {α : Type} (left right : Delimiter) (p : TokenForm α) : TokenForm α :=
  map (fun (_, a, _) => a) (pair (token (.delimiter left)) (pair p (token (.delimiter right))))

@[simp] def orOp : TokenForm BinaryOp :=
  choice ![keyword .or .or, operator .pipe .or]

@[simp] def andOp : TokenForm BinaryOp :=
  choice ![keyword .and .and, operator .ampersand .and]

@[simp] def notOp : TokenForm UnaryOp :=
  named "not operator" <| map (fun _ => .not) <|
    choice ![token (.keyword .not), token (.operator .caret), token (.operator .tilde)]

@[simp] def comparisonOp : TokenForm BinaryOp :=
  named "comparison operator" <| choice
    ![operator .eq .eq,
      operator .ne .ne,
      operator .lt .lt,
      operator .le .le,
      operator .gt .gt,
      operator .ge .ge,
      keyword .in .in,
      map (fun _ => .notIn) (pair (token (.keyword .not)) (token (.keyword .in)))]

@[simp] def additiveOp : TokenForm BinaryOp :=
  choice ![operator .plus .add, operator .minus .sub]

@[simp] def multiplicativeOp : TokenForm BinaryOp :=
  choice ![operator .times .mul, operator .divide .div, operator .modulo .mod]

@[simp] def signOp : TokenForm UnaryOp :=
  choice ![operator .minus .neg, operator .plus .pos]

@[simp] def literal : TokenForm Literal :=
  named "literal" <| satisfy fun
    | .number x => some (.num x)
    | .str s => some (.str s)
    | .keyword .true => some (.bool true)
    | .keyword .false => some (.bool false)
    | .keyword .null => some .none
    | _ => none

@[simp] def block : TokenForm Expr :=
  named "built block reference" <| map (fun (kind, name) => .block kind name) <|
    pair
      (satisfy fun
        | .blockMark kind => some kind
        | _ => none)
      identifier

def list : TokenForm Expr :=
  named "list" <| map .list <|
    between .openBracket .closeBracket (separatedBy comma (rule .expression))

def argument : TokenForm Arg :=
  named "argument" <| choice
    ![map (fun (name, _, value) => .named name value)
        (pair identifier (pair (token (.operator .assign)) (rule .expression))),
      map .positional (rule .expression)]

def call : TokenForm Expr :=
  named "function call" <| map (fun (function, args) => .mkCall function args) <|
    pair identifier (between .openParen .closeParen (separatedBy comma argument))

def atom : TokenForm Expr :=
  named "atom" <| choice
    ![map .literal literal,
      block,
      list,
      call,
      map .ident identifier,
      between .openParen .closeParen (rule .expression)]

/-- Operands of the next level with operators between them. -/
def chain (name : String) (op : TokenForm BinaryOp) (operand : Level) : TokenForm Expr :=
  named name <| map (fun (first, rest) => foldLeft first rest) <|
    pair (rule (.level operand)) (many (pair op (rule (.level operand))))

/-- Operators in front of an expression of the same level, or an expression of the next one. -/
def operand (name : String) (op : TokenForm UnaryOp) (l : Level) : TokenForm Expr :=
  named name <| choice
    ![map (fun (op, operand) => .unary op operand) (pair op (rule (.level l))),
      rule (.level l.next)]

def comparison : TokenForm Expr :=
  named "comparison" <|
    map (fun
        | (left, some (op, right)) => .binary op left right
        | (left, none) => left)
      (pair (rule (.level .sum)) (optional (pair comparisonOp (rule (.level .sum)))))

/-- The rules of the grammar. -/
def rules : {α : Type} → RuleName α → TokenForm α
  | _, .expression => named "expression" (rule (.level .disjunction))
  | _, .level .disjunction => chain "logical or" orOp .conjunction
  | _, .level .conjunction => chain "logical and" andOp .negation
  | _, .level .negation => operand "logical not" notOp .negation
  | _, .level .comparison => comparison
  | _, .level .sum => chain "additive" additiveOp .product
  | _, .level .product => chain "multiplicative" multiplicativeOp .signed
  | _, .level .signed => operand "unary" signOp .signed
  | _, .level .atom => atom

end Forms

/-! ### What is read off the rules -/

/-- Every rule consumes a token, if it succeeds. -/
@[simp] def consuming {α : Type} (_ : RuleName α) : Prop := True

/-- The order in which rules are entered where nothing has been consumed yet. -/
def RuleName.rank : {α : Type} → RuleName α → ℕ
  | _, .expression => 8
  | _, .level l => 8 - l.rank

@[simp] theorem RuleName.rank_level (l : Level) : (level l).rank = 8 - l.rank := rfl

theorem Level.rank_lt_expression (l : Level) : (RuleName.level l).rank < RuleName.expression.rank := by
  cases l <;> decide

section Reading

open Form Forms

/-- Each round of a repetition of the grammar consumes a token: an operator or a comma. -/
theorem eachLoop_rules {α : Type} (r : RuleName α) :
    (rules r).EachLoop (fun body => body.Consumes consuming) fun separator _ =>
      separator.Consumes consuming := by
  cases r with
  | expression => trivial
  | level l =>
      cases l <;>
        simp [rules, chain, operand, Forms.comparison, Forms.atom, Forms.list, Forms.call,
          Forms.argument, EachLoop, Consumes, Fin.forall_fin_succ]

theorem isTame_rules {α : Type} (r : RuleName α) : (rules r).IsTame consuming :=
  (eachLoop_rules r).mono (fun _ h => h) fun _ _ h => .inl h

/-- Where a rule enters another one at once, the other one binds stronger. -/
theorem starts_rules {α : Type} (r : RuleName α) :
    (rules r).Starts consuming fun r' => r'.rank < r.rank := by
  cases r with
  | expression => exact Level.rank_lt_expression .disjunction
  | level l =>
      cases l <;>
        simp [rules, chain, operand, Forms.comparison, Forms.atom, Forms.list, Forms.call, Starts,
          Consumes, Fin.forall_fin_succ, Level.rank, Level.next]

end Reading

/-! ### The parsers of the rules -/

section Meaning

variable {e e' : Rule Expr} {input : Array Token} {pos : ℕ}

/-- The parsers of the rules of the grammar, given that of whole expressions. -/
def meaning (e : Rule Expr) : {α : Type} → RuleName α → Rule α
  | _, .expression => e
  | _, .level .disjunction => disjunction e
  | _, .level .conjunction => conjunction e
  | _, .level .negation => negation e
  | _, .level .comparison => comparison e
  | _, .level .sum => additive e
  | _, .level .product => multiplicative e
  | _, .level .signed => signed e
  | _, .level .atom => atom e

/-- What is read as an expression of a level is one. -/
theorem sound_meaning (he : Sound e (Derives .disjunction)) (l : Level) :
    Sound (meaning e (.level l)) (Derives l) := by
  cases l with
  | disjunction => exact sound_disjunction he
  | conjunction =>
      exact (sound_leftAssociative (by decide) selects_andOp (sound_negation he)).named
  | negation => exact sound_negation he
  | comparison => exact sound_comparison he
  | sum => exact sound_additive he
  | product => exact sound_multiplicative he
  | signed => exact sound_signed he
  | atom => exact sound_atom he

theorem advances_meaning (he : Sound e (Derives .disjunction)) {α : Type} (r : RuleName α) :
    (meaning e r).Advances (consuming r) := by
  cases r with
  | expression => exact he.advances fun _ _ h => h.ne_nil
  | level l => exact (sound_meaning he l).advances fun _ _ h => h.ne_nil

/-- Operators that are taken off one by one are those in front of what their level goes on with. -/
theorem fix_operands_eq {l : Level} {op : Rule UnaryOp} {next : Rule Expr} (hl : l ≠ .atom)
    (hop : Selects op (l.unaryOps.lookup ·)) (hnext : Sound next (Derives l.next)) (name : String)
    (hpos : pos ≤ input.size) :
    let operands (self : Rule Expr) : Rule Expr :=
      named name (choice [(pair op self).map fun (op, operand) => .unary op operand, next])
    fix operands input pos = operands (fix operands) input pos := by
  refine fix_eq (fun self => sound_operands hl hop hnext name) (fun p p' pos _ _ hpos hagree => ?_) hpos
  have hpair : pair op p input pos = pair op p' input pos := by
    show Except.bind _ _ = Except.bind _ _
    cases ha : op input pos with
    | error err => rfl
    | ok r =>
        obtain ⟨-, hle, hlt⟩ := (hop.advances : op.Advances True) hpos ha
        exact congrArg (Except.map _) (hagree r.2 (hlt trivial) hle)
  simp only [named, choice, choiceFrom, map, hpair]

/-- The parser of a level is that of its rule. -/
theorem meaning_level_eq (he : Sound e (Derives .disjunction)) (l : Level) (hpos : pos ≤ input.size) :
    meaning e (.level l) input pos = (Forms.rules (.level l)).toParser (meaning e) input pos := by
  cases l with
  | negation => exact fix_operands_eq (by decide) selects_notOp (sound_comparison he) _ hpos
  | signed => exact fix_operands_eq (by decide) selects_signOp (sound_atom he) _ hpos
  | _ => rfl

/-- A level uses the parser of whole expressions behind a bracket only. -/
theorem meaning_congr (he : Sound e (Derives .disjunction)) (he' : Sound e' (Derives .disjunction))
    (hagree : ∀ q, pos < q → q ≤ input.size → e input q = e' input q) (l : Level)
    (hpos : pos ≤ input.size) : meaning e (.level l) input pos = meaning e' (.level l) input pos := by
  suffices h : ∀ {α : Type} (r : RuleName α) q, q ≤ input.size → pos ≤ q →
      (r.rank < RuleName.expression.rank ∨ pos < q) → meaning e r input q = meaning e' r input q from
    h (.level l) pos hpos le_rfl (.inl l.rank_lt_expression)
  intro α r q hq
  refine Form.rule_induction (motive := fun {β} (r : RuleName β) q => pos ≤ q →
    (r.rank < RuleName.expression.rank ∨ pos < q) → meaning e r input q = meaning e' r input q)
    (fun r _ => r.rank) ?_ r hq
  intro β r q hq hlater hlower hle hreached
  cases r with
  | expression => exact hagree q (hreached.resolve_left (lt_irrefl _)) hq
  | level l =>
      rw [meaning_level_eq he l hq, meaning_level_eq he' l hq]
      refine Form.toParser_congr (advances_meaning he) (isTame_rules _) hq (fun r' q' hlt hq' => ?_) ?_
      · exact hlater r' q' hlt hq' (hle.trans hlt.le) (.inr (hle.trans_lt hlt))
      · refine (starts_rules _).mono fun r' hlt => ?_
        exact hlower r' hlt hle (.inl (hlt.trans l.rank_lt_expression))

/-- **The parsers of the grammar are solutions of its rules.** -/
theorem meaning_eq {α : Type} (r : RuleName α) (hpos : pos ≤ input.size) :
    meaning expression r input pos = (Forms.rules r).toParser (meaning expression) input pos := by
  cases r with
  | level l => exact meaning_level_eq sound_expression l hpos
  | expression =>
      refine fix_eq (fun _ hself => (sound_disjunction hself).named)
        (fun e e' pos he he' hpos hagree => ?_) hpos
      exact congrArg (Except.mapError _) (meaning_congr he he' hagree .disjunction hpos)

end Meaning

/-! ### Parsing -/

/-- **Parsing an expression ends, moves on, and no repetition stands still.** At each position, the parsers of
the grammar are those of its rules; a run of the rules that nothing keeps from going on forever ends with what
the parser yields; an expression takes at least one token; and so does each body of a repetition and each
separator of a list that a rule has. -/
theorem expression_terminates (ts : List Token) {pos : ℕ} (hpos : pos ≤ ts.length) :
    (∀ r : RuleName Expr, meaning expression r ts.toArray pos =
      (Forms.rules r).toParser (meaning expression) ts.toArray pos) ∧
    (∃ enough, ∀ steps ≥ enough,
      (Form.rule .expression).run Forms.rules ts.toArray steps pos =
        some (expression ts.toArray pos)) ∧
    (∀ x next, expression ts.toArray pos = .ok (x, next) → pos < next ∧ next ≤ ts.length) ∧
    ∀ r : RuleName Expr, (Forms.rules r).EachLoop
      (fun body => (body.toParser (meaning expression)).Advances True)
      fun separator _ => (separator.toParser (meaning expression)).Advances True := by
  have hadvances {α : Type} (r : RuleName α) := advances_meaning sound_expression r
  refine ⟨fun r => meaning_eq r hpos, ?_, fun x next h => ?_, fun r => ?_⟩
  · have hsettles := Form.settles_rule hadvances (fun r _ hpos => meaning_eq r hpos) isTame_rules
      RuleName.rank starts_rules .expression hpos
    exact Filter.eventually_atTop.mp hsettles
  · obtain ⟨-, hle, hlt⟩ := hadvances .expression hpos h
    exact ⟨hlt trivial, hle⟩
  · refine (eachLoop_rules r).mono (fun body h => ?_) fun separator _ h => ?_
    · exact (Form.advances hadvances body).mono fun _ => h
    · exact (Form.advances hadvances separator).mono fun _ => h

/-- Behind a bracket that is never closed. -/
theorem expression_terminates_unclosed :
    1 ≤ [Token.delimiter .openParen, .keyword .not, .operator .plus].length ∧
    ∃ enough, ∀ steps ≥ enough,
      (Form.rule .expression).run Forms.rules
          [Token.delimiter .openParen, .keyword .not, .operator .plus].toArray steps 1 =
        some (expression [Token.delimiter .openParen, .keyword .not, .operator .plus].toArray 1) :=
  ⟨by decide, (expression_terminates _ (by decide)).2.1⟩

end Grammar

end ErrorAnalysis
