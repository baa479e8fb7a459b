import Mathlib.Tactic
import ErrorAnalysis.Expr.Grammar
import ErrorAnalysis.Proofs.Grammar.Combinators

/-!
# The Language of Queries

The sequences of tokens that are expressions, and the trees that they denote, as a relation that
says nothing about how they are found. Expressions have eight **levels**, from those that hold
together least to those that hold together most; whatever is of one level is of all weaker ones. The
operators of a level associate to the left, comparisons do not chain, and `not` and the signs may be
repeated.

## Main definitions

* `Level`: the levels, with the operators of each.
* `Derives`: the tokens `ts` are an expression of a level with the tree `t`.

## Main results

* `Derives.exists_cons`: what a derived sequence may start with, by its level.
* `Derives.not_assignment`: no expression starts with a name and an equals sign.
* `Derives.chain_inv`: an expression of a level with binary operators is a sequence of operands.
-/

namespace ErrorAnalysis

namespace Grammar

/-! ### Levels -/

/-- How strongly an expression holds together. -/
inductive Level where
  | disjunction
  | conjunction
  | negation
  | comparison
  | sum
  | product
  | signed
  | atom
deriving DecidableEq, Repr

namespace Level

/-- The place of a level among all levels. -/
def rank : Level → ℕ
  | disjunction => 1
  | conjunction => 2
  | negation => 3
  | comparison => 4
  | sum => 5
  | product => 6
  | signed => 7
  | atom => 8

/-- The next stronger level. -/
def next : Level → Level
  | disjunction => conjunction
  | conjunction => negation
  | negation => comparison
  | comparison => sum
  | sum => product
  | product => signed
  | signed => atom
  | atom => atom

/-- The binary operators of a level that chain, with their tokens. -/
def binaryOps : Level → List (Token × BinaryOp)
  | disjunction => [(.keyword .or, .or), (.operator .pipe, .or)]
  | conjunction => [(.keyword .and, .and), (.operator .ampersand, .and)]
  | sum => [(.operator .plus, .add), (.operator .minus, .sub)]
  | product => [(.operator .times, .mul), (.operator .divide, .div), (.operator .modulo, .mod)]
  | _ => []

/-- The unary operators of a level, with their tokens. -/
def unaryOps : Level → List (Token × UnaryOp)
  | negation => [(.keyword .not, .not), (.operator .caret, .not), (.operator .tilde, .not)]
  | signed => [(.operator .minus, .neg), (.operator .plus, .pos)]
  | _ => []

end Level

/-- The comparisons of one token. -/
def shortComparisons : List (Token × BinaryOp) :=
  [(.operator .eq, .eq), (.operator .ne, .ne), (.operator .lt, .lt), (.operator .le, .le),
    (.operator .gt, .gt), (.operator .ge, .ge), (.keyword .in, .in)]

/-- The comparisons, with their tokens. -/
def comparisons : List (List Token × BinaryOp) :=
  shortComparisons.map (fun c => ([c.1], c.2)) ++ [([.keyword .not, .keyword .in], .notIn)]

/-- The constants. -/
def constant? : Token → Option Literal
  | .number x => some (.num x)
  | .str s => some (.str s)
  | .keyword .true => some (.bool true)
  | .keyword .false => some (.bool false)
  | .keyword .null => some .none
  | _ => none

/-! ### Derivations -/

/-- Sequences of tokens with commas between them. -/
def commaSeparated (pieces : List (List Token)) : List Token :=
  Parser.separated (.delimiter .comma) pieces

/-- An argument of a call as it is written: a value, with a name in front of it if it has one. -/
structure WrittenArg where
  name? : Option String
  tokens : List Token
  value : Expr

instance : Inhabited WrittenArg := ⟨⟨none, [], .noOp⟩⟩

namespace WrittenArg

/-- The tokens of an argument. -/
def allTokens (a : WrittenArg) : List Token :=
  match a.name? with
  | none => a.tokens
  | some name => .identifier name :: .operator .assign :: a.tokens

/-- The argument that is written. -/
def arg (a : WrittenArg) : Arg :=
  match a.name? with
  | none => .positional a.value
  | some name => .named name a.value

end WrittenArg

/-- **The language of queries.** `Derives l ts t` holds if the tokens `ts`, all of them, are an
expression of level `l` with the tree `t`. -/
inductive Derives : Level → List Token → Expr → Prop
  | stronger {l : Level} {ts : List Token} {t : Expr} :
      l ≠ .atom → Derives l.next ts t → Derives l ts t
  | chain {l : Level} {xs ys : List Token} {mark : Token} {op : BinaryOp} {a b : Expr} :
      (mark, op) ∈ l.binaryOps → Derives l xs a → Derives l.next ys b →
      Derives l (xs ++ mark :: ys) (.binary op a b)
  | operand {l : Level} {ts : List Token} {mark : Token} {op : UnaryOp} {t : Expr} :
      (mark, op) ∈ l.unaryOps → Derives l ts t → Derives l (mark :: ts) (.unary op t)
  | compared {xs marks ys : List Token} {op : BinaryOp} {a b : Expr} :
      (marks, op) ∈ comparisons → Derives .sum xs a → Derives .sum ys b →
      Derives .comparison (xs ++ marks ++ ys) (.binary op a b)
  | constant {token : Token} {c : Literal} :
      constant? token = some c → Derives .atom [token] (.literal c)
  | block (kind : BlockKind) (name : String) :
      Derives .atom [.blockMark kind, .identifier name] (.block kind name)
  | list {items : List (List Token × Expr)} :
      (∀ i ∈ items, Derives .disjunction i.1 i.2) →
      Derives .atom
        (.delimiter .openBracket ::
          (commaSeparated (items.map Prod.fst) ++ [.delimiter .closeBracket]))
        (.list (items.map Prod.snd))
  | call (function : String) {args : List WrittenArg} :
      (∀ a ∈ args, Derives .disjunction a.tokens a.value) →
      Derives .atom
        (.identifier function :: .delimiter .openParen ::
          (commaSeparated (args.map (·.allTokens)) ++ [.delimiter .closeParen]))
        (.mkCall function (args.map (·.arg)))
  | name (name : String) : Derives .atom [.identifier name] (.ident name)
  | parens {ts : List Token} {t : Expr} :
      Derives .disjunction ts t →
      Derives .atom (.delimiter .openParen :: (ts ++ [.delimiter .closeParen])) t

/-! ### What expressions start with -/

/-- The strongest level of the expressions that start with a token, or zero if none does. -/
def opening : Token → ℕ
  | .keyword .not | .operator .caret | .operator .tilde => 3
  | .operator .plus | .operator .minus => 7
  | .keyword .true | .keyword .false | .keyword .null => 8
  | .number _ | .str _ | .blockMark _ | .identifier _ => 8
  | .delimiter .openParen | .delimiter .openBracket => 8
  | _ => 0

theorem Level.rank_le_next (l : Level) : l.rank ≤ l.next.rank := by
  cases l <;> decide

theorem Level.opening_of_unaryOps {l : Level} {mark : Token} {op : UnaryOp}
    (h : (mark, op) ∈ l.unaryOps) : opening mark = l.rank := by
  have key : ∀ u ∈ l.unaryOps, opening u.1 = l.rank := by cases l <;> decide
  exact key _ h

theorem opening_of_constant? {token : Token} {c : Literal} (h : constant? token = some c) :
    opening token = 8 := by
  unfold constant? at h
  split at h <;> first | rfl | exact absurd h (by simp)

/-- An expression is not empty, and its first token tells how strong it can be. -/
theorem Derives.exists_cons {l : Level} {ts : List Token} {t : Expr} (h : Derives l ts t) :
    ∃ first rest, ts = first :: rest ∧ l.rank ≤ opening first := by
  induction h with
  | @stronger l _ _ _ _ ih =>
      obtain ⟨first, rest, rfl, hfirst⟩ := ih
      exact ⟨first, rest, rfl, l.rank_le_next.trans hfirst⟩
  | chain _ _ _ ih _ =>
      obtain ⟨first, rest, rfl, hfirst⟩ := ih
      exact ⟨first, _, rfl, hfirst⟩
  | operand hop _ _ => exact ⟨_, _, rfl, (Level.opening_of_unaryOps hop).ge⟩
  | compared _ _ _ ih _ =>
      obtain ⟨first, rest, rfl, hfirst⟩ := ih
      exact ⟨first, _, rfl, le_trans (by decide) hfirst⟩
  | constant hc => exact ⟨_, _, rfl, (opening_of_constant? hc).ge⟩
  | block => exact ⟨_, _, rfl, le_rfl⟩
  | list => exact ⟨_, _, rfl, le_rfl⟩
  | call => exact ⟨_, _, rfl, le_rfl⟩
  | name => exact ⟨_, _, rfl, le_rfl⟩
  | parens => exact ⟨_, _, rfl, le_rfl⟩

theorem Derives.ne_nil {l : Level} {ts : List Token} {t : Expr} (h : Derives l ts t) : ts ≠ [] := by
  obtain ⟨first, rest, rfl, -⟩ := h.exists_cons
  exact List.cons_ne_nil first rest

/-! ### What follows an expression -/

/-- The level whose operators a token belongs to, where it stands behind an operand: zero for what
closes an expression, and more than any level for what cannot stand there. -/
def tightness : Token → ℕ
  | .delimiter .closeParen | .delimiter .closeBracket | .delimiter .comma => 0
  | .keyword .or | .operator .pipe => 1
  | .keyword .and | .operator .ampersand => 2
  | .keyword .not | .keyword .in => 4
  | .operator .eq | .operator .ne | .operator .lt | .operator .le | .operator .gt
  | .operator .ge => 4
  | .operator .plus | .operator .minus => 5
  | .operator .times | .operator .divide | .operator .modulo => 6
  | _ => 9

/-- An expression of the level ends in front of these tokens: no operator of the level or of a
stronger one goes on with it. -/
def Level.Stops (l : Level) (post : List Token) : Prop :=
  ∀ x ∈ post.head?, tightness x < l.rank

theorem Level.stops_nil (l : Level) : l.Stops [] := by
  simp [Level.Stops]

theorem Level.stops_cons {l : Level} {x : Token} {post : List Token} :
    l.Stops (x :: post) ↔ tightness x < l.rank := by
  simp [Level.Stops]

theorem Level.Stops.next {l : Level} {post : List Token} (h : l.Stops post) : l.next.Stops post :=
  fun x hx => (h x hx).trans_le l.rank_le_next

theorem Level.tightness_of_binaryOps {l : Level} {mark : Token} {op : BinaryOp}
    (h : (mark, op) ∈ l.binaryOps) : tightness mark = l.rank ∧ l.rank < l.next.rank := by
  have key : ∀ u ∈ l.binaryOps, tightness u.1 = l.rank ∧ l.rank < l.next.rank := by
    cases l <;> decide
  exact key _ h

/-- A comparison is not empty, and its first token binds like a comparison. -/
theorem exists_cons_of_comparisons {marks : List Token} {op : BinaryOp}
    (h : (marks, op) ∈ comparisons) : ∃ first rest, marks = first :: rest ∧ tightness first = 4 := by
  have key : ∀ c ∈ comparisons, c.1.head?.map tightness = some 4 := by decide
  obtain ⟨first, hfirst, htight⟩ := Option.map_eq_some_iff.mp (key _ h)
  obtain ⟨rest, hrest⟩ := List.head?_eq_some_iff.mp hfirst
  exact ⟨first, rest, hrest, htight⟩

/-- **No expression starts like a named argument**, whatever follows it but an equals sign. -/
theorem Derives.not_assignment {l : Level} {ts : List Token} {t : Expr} (h : Derives l ts t)
    {post : List Token} (hpost : post.head? ≠ some (.operator .assign)) (name : String)
    (tail : List Token) : ts ++ post ≠ .identifier name :: .operator .assign :: tail := by
  induction h generalizing post with
  | stronger _ _ ih => exact ih hpost
  | @chain l xs ys mark op a b hop _ _ ih _ =>
      have hmark : mark ≠ .operator .assign := by
        rintro rfl
        have := (Level.tightness_of_binaryOps hop).1
        cases l <;> exact absurd this (by decide)
      rw [List.append_assoc]
      exact ih (by simpa using hmark)
  | operand hop _ _ =>
      intro heq
      obtain ⟨rfl, -⟩ := List.cons.inj heq
      cases ‹Level› <;> exact absurd hop (by simp [Level.unaryOps])
  | compared hop _ _ ih _ =>
      obtain ⟨first, rest, rfl, hfirst⟩ := exists_cons_of_comparisons hop
      have hmark : first ≠ .operator .assign := by
        rintro rfl
        exact absurd hfirst (by decide)
      rw [List.append_assoc, List.append_assoc]
      exact ih (by simpa using hmark)
  | constant hc =>
      intro heq
      obtain ⟨rfl, -⟩ := List.cons.inj heq
      exact absurd hc (by simp [constant?])
  | block => simp
  | list => simp
  | call => simp
  | name =>
      intro heq
      obtain ⟨-, htail⟩ := List.cons.inj heq
      have hhead : post = .operator .assign :: tail := htail
      exact hpost (by simp [hhead])
  | parens => simp

/-! ### Chains of operands -/

/-- An operator and its right operand. -/
structure Link where
  mark : Token
  op : BinaryOp
  tokens : List Token
  value : Expr

instance : Inhabited Link := ⟨⟨.keyword .or, .or, [], .noOp⟩⟩

/-- The tokens of an operator and its right operand. -/
def Link.allTokens (k : Link) : List Token :=
  k.mark :: k.tokens

/-- The levels with binary operators. -/
def Level.chaining : List Level :=
  [disjunction, conjunction, sum, product]

/-- The levels with unary operators. -/
def Level.prefixing : List Level :=
  [negation, signed]

/-- **Chains.** An expression of a level with binary operators is an operand and any number of
operators with further operands, applied from left to right. -/
theorem Derives.chain_inv {l : Level} {ts : List Token} {t : Expr} (h : Derives l ts t)
    (hl : l ∈ Level.chaining) :
    ∃ xs a, ∃ links : List Link, Derives l.next xs a ∧
      (∀ k ∈ links, (k.mark, k.op) ∈ l.binaryOps ∧ Derives l.next k.tokens k.value) ∧
      ts = xs ++ links.flatMap Link.allTokens ∧
      t = foldLeft a (links.map fun k => (k.op, k.value)) := by
  induction h with
  | @stronger l xs a _ ha _ => exact ⟨xs, a, [], ha, by simp, by simp, rfl⟩
  | @chain l xs ys mark op a b hop _ hb ih _ =>
      obtain ⟨zs, z, links, hz, hlinks, rfl, rfl⟩ := ih hl
      refine ⟨zs, z, links ++ [⟨mark, op, ys, b⟩], hz, ?_, ?_, ?_⟩
      · intro k hk
        rcases List.mem_append.mp hk with hk | hk
        · exact hlinks k hk
        · obtain rfl := List.mem_singleton.mp hk
          exact ⟨hop, hb⟩
      · simp [Link.allTokens]
      · simp [foldLeft]
  | @operand l _ _ _ _ hop _ _ =>
      have hnone : ∀ l ∈ Level.chaining, l.unaryOps = [] := by decide
      rw [hnone l hl] at hop
      exact absurd hop (by simp)
  | _ => exact absurd hl (by decide)

/-- An expression of a level with unary operators is one of them in front of an expression of the
level, or of the next level. -/
theorem Derives.operand_inv {l : Level} {ts : List Token} {t : Expr} (h : Derives l ts t)
    (hl : l ∈ Level.prefixing) :
    (∃ mark op xs a, (mark, op) ∈ l.unaryOps ∧ Derives l xs a ∧ ts = mark :: xs ∧
      t = .unary op a) ∨ Derives l.next ts t := by
  induction h with
  | stronger _ h _ => exact .inr h
  | operand hop h _ => exact .inl ⟨_, _, _, _, hop, h, rfl, rfl⟩
  | chain hop _ _ _ _ =>
      have hnone : ∀ l ∈ Level.prefixing, l.binaryOps = [] := by decide
      rw [hnone _ hl] at hop
      exact absurd hop (by simp)
  | _ => exact absurd hl (by decide)

/-- A chain of operands is an expression of its level. -/
theorem derives_foldLeft {l : Level} {xs : List Token} {a : Expr} (ha : Derives l xs a)
    (links : List Link)
    (h : ∀ k ∈ links, (k.mark, k.op) ∈ l.binaryOps ∧ Derives l.next k.tokens k.value) :
    Derives l (xs ++ links.flatMap Link.allTokens)
      (foldLeft a (links.map fun k => (k.op, k.value))) := by
  induction links generalizing xs a with
  | nil => simpa [foldLeft] using ha
  | cons k links ih =>
      obtain ⟨hop, hk⟩ := h k List.mem_cons_self
      have := ih (.chain hop ha hk) fun k hk => h k (List.mem_cons_of_mem _ hk)
      simpa [foldLeft, Link.allTokens] using this

end Grammar

end ErrorAnalysis
