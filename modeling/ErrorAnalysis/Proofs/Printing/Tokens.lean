import ErrorAnalysis.Expr.Printer
import ErrorAnalysis.Proofs.Grammar.Completeness
import ErrorAnalysis.Proofs.Syntax.Trees

/-!
# The Tokens of a Printed Tree

A tree is printed as a sequence of tokens, with parentheses where the printer puts them, and these
tokens derive a tree. For most trees it is the tree itself. Two kinds of nodes are read back as others:
an infinite number, which is written as the name `inf`, and an argument that asks for an edit, which
a call takes out of its arguments.

The printer compares precedences and the language has levels. Both order trees alike, so a tree that
the printer leaves without parentheses is of a level that its place allows.

## Main definitions

* `Expr.tokens`: the tokens of the text of a tree.
* `Expr.readBack`: the tree that they derive.

## Main results

* `Expr.derives_tokens`: the tokens of a tree derive the tree that is read back.
* `Expr.readBack_eq_self_iff`: **a tree is read back as itself iff its numbers are finite**, unless
  a call keeps an argument that asks for an edit.
-/

namespace ErrorAnalysis

open Grammar

/-! ### Operators -/

/-- The level of a unary operator. -/
def UnaryOp.level : UnaryOp → Level
  | .not => .negation
  | .neg | .pos => .signed

/-- The token that a unary operator is printed as. -/
def UnaryOp.mark : UnaryOp → Token
  | .not => .keyword .not
  | .neg => .operator .minus
  | .pos => .operator .plus

/-- The level of a binary operator. -/
def BinaryOp.level : BinaryOp → Level
  | .or => .disjunction
  | .and => .conjunction
  | .eq | .ne | .lt | .le | .gt | .ge | .in | .notIn => .comparison
  | .add | .sub => .sum
  | .mul | .div | .mod => .product

/-- The tokens that a binary operator is printed as. -/
def BinaryOp.marks : BinaryOp → List Token
  | .or => [.keyword .or]
  | .and => [.keyword .and]
  | .eq => [.operator .eq]
  | .ne => [.operator .ne]
  | .lt => [.operator .lt]
  | .le => [.operator .le]
  | .gt => [.operator .gt]
  | .ge => [.operator .ge]
  | .in => [.keyword .in]
  | .notIn => [.keyword .not, .keyword .in]
  | .add => [.operator .plus]
  | .sub => [.operator .minus]
  | .mul => [.operator .times]
  | .div => [.operator .divide]
  | .mod => [.operator .modulo]

/-- The token that a constant is printed as; an infinite number is printed like a name. -/
def Literal.token : Literal → Token
  | .num x => if x.isFinite then .number x else .identifier "inf"
  | .str s => .str s
  | .bool true => .keyword .true
  | .bool false => .keyword .false
  | .none => .keyword .null

namespace Expr

/-! ### Trees -/

/-- Tokens, in parentheses if they need them. -/
def tokensInParens (needed : Bool) (ts : List Token) : List Token :=
  if needed then .delimiter .openParen :: (ts ++ [.delimiter .closeParen]) else ts

/-- The edit of a call as the argument that it is printed as. -/
def editArg? (edit? : Option String) : List Arg :=
  edit?.toList.map fun s => .named "rewrite" (.literal (.str s))

/-- The tokens of the edit of a call. -/
def editTokens (edit? : Option String) : List (List Token) :=
  edit?.toList.map fun s => [.identifier "rewrite", .operator .assign, .str s]

mutual

/-- The tokens of the text of a tree. -/
def tokens : Expr → List Token
  | .noOp => []
  | .literal l => [l.token]
  | .list items =>
    .delimiter .openBracket :: (commaSeparated (itemTokens items) ++ [.delimiter .closeBracket])
  | .block kind name => [.blockMark kind, .identifier name]
  | .unary op x => op.mark :: tokensInParens (operandNeedsParens op x) (tokens x)
  | .binary op x y =>
    tokensInParens (leftNeedsParens op x) (tokens x) ++ op.marks
      ++ tokensInParens (rightNeedsParens op y) (tokens y)
  | .ident name => [.identifier name]
  | .call function args edit? =>
    .identifier function :: .delimiter .openParen ::
      (commaSeparated (argTokens args ++ editTokens edit?) ++ [.delimiter .closeParen])

/-- The tokens of the items of a list. -/
def itemTokens : List Expr → List (List Token)
  | [] => []
  | x :: xs => tokens x :: itemTokens xs

/-- The tokens of the arguments of a call. -/
def argTokens : List Arg → List (List Token)
  | [] => []
  | .positional x :: as => tokens x :: argTokens as
  | .named name x :: as => (.identifier name :: .operator .assign :: tokens x) :: argTokens as

end

mutual

/-- The tree that the text of a tree is read as. -/
def readBack : Expr → Expr
  | .noOp => .noOp
  | .literal (.num x) => if x.isFinite then .literal (.num x) else .ident "inf"
  | .literal l => .literal l
  | .list items => .list (readBackItems items)
  | .block kind name => .block kind name
  | .unary op x => .unary op (readBack x)
  | .binary op x y => .binary op (readBack x) (readBack y)
  | .ident name => .ident name
  | .call function args edit? => .mkCall function (readBackArgs args ++ editArg? edit?)

/-- The items of a list as they are read back. -/
def readBackItems : List Expr → List Expr
  | [] => []
  | x :: xs => readBack x :: readBackItems xs

/-- The arguments of a call as they are read back. -/
def readBackArgs : List Arg → List Arg
  | [] => []
  | .positional x :: as => .positional (readBack x) :: readBackArgs as
  | .named name x :: as => .named name (readBack x) :: readBackArgs as

end

/-- The level of a tree. -/
def level : Expr → Level
  | .binary op _ _ => op.level
  | .unary op _ => op.level
  | _ => .atom

/-- **Precedences and levels** order trees alike. -/
theorem rank_level (t : Expr) : t.level.rank = t.precedence := by
  cases t with
  | binary op x y => cases op <;> rfl
  | unary op x => cases op <;> rfl
  | _ => rfl

end Expr

/-! ### Derivations -/

namespace Grammar

theorem Level.rank_next {l : Level} (h : l ≠ .atom) : l.next.rank = l.rank + 1 := by
  cases l <;> first | rfl | exact absurd rfl h

/-- An expression is one of every weaker level. -/
theorem Derives.weaken {l m : Level} {ts : List Token} {t : Expr} (h : Derives m ts t)
    (hl : l.rank ≤ m.rank) : Derives l ts t := by
  obtain ⟨n, hn⟩ : ∃ n, m.rank = l.rank + n := ⟨m.rank - l.rank, by omega⟩
  induction n generalizing l with
  | zero =>
      have hinj : ∀ l m : Level, m.rank = l.rank → m = l := by
        intro l m
        cases l <;> cases m <;> decide
      exact hinj l m hn ▸ h
  | succ n ih =>
      have hatom : l ≠ .atom := by
        rintro rfl
        have : m.rank ≤ Level.atom.rank := by cases m <;> decide
        omega
      have hnext := Level.rank_next hatom
      exact .stronger hatom (ih (by omega) (by omega))

/-- In parentheses where it needs them, a tree is of every level that it has to be. -/
theorem derives_tokensInParens {t u : Expr} {ts : List Token} {l : Level} {needed : Bool}
    (h : Derives t.level ts u) (hneeded : needed = false → l.rank ≤ t.precedence) :
    Derives l (Expr.tokensInParens needed ts) u := by
  cases needed with
  | true =>
      have hdisjunction : Level.disjunction.rank ≤ t.level.rank := by cases t.level <;> decide
      have hatom : l.rank ≤ Level.atom.rank := by cases l <;> decide
      exact (Derives.parens (h.weaken hdisjunction)).weaken hatom
  | false => exact h.weaken (t.rank_level ▸ hneeded rfl)

end Grammar

namespace Expr

open Grammar

/-! ### The tree that is read back -/

theorem itemTokens_eq_map (items : List Expr) : itemTokens items = items.map tokens := by
  induction items with
  | nil => rfl
  | cons x xs ih => rw [itemTokens, ih, List.map_cons]

theorem readBackItems_eq_map (items : List Expr) : readBackItems items = items.map readBack := by
  induction items with
  | nil => rfl
  | cons x xs ih => rw [readBackItems, ih, List.map_cons]

/-- An argument as it is written in a call. -/
def writtenArg : Arg → WrittenArg
  | .positional x => ⟨none, x.tokens, x.readBack⟩
  | .named name x => ⟨some name, x.tokens, x.readBack⟩

/-- The edit of a call as the argument that is written. -/
def writtenEdit (s : String) : WrittenArg :=
  ⟨some "rewrite", [.str s], .literal (.str s)⟩

theorem argTokens_eq_map (args : List Arg) :
    argTokens args = (args.map writtenArg).map (·.allTokens) := by
  induction args with
  | nil => rfl
  | cons a as ih => cases a <;> rw [argTokens, ih] <;> rfl

theorem readBackArgs_eq_map (args : List Arg) :
    readBackArgs args = (args.map writtenArg).map (·.arg) := by
  induction args with
  | nil => rfl
  | cons a as ih => cases a <;> rw [readBackArgs, ih] <;> rfl

/-- A binary operator between two trees, each in parentheses if it needs them. -/
theorem derives_binary {op : BinaryOp} {x y a b : Expr} {xs ys : List Token}
    (hx : Derives x.level xs a) (hy : Derives y.level ys b) :
    Derives op.level
      (tokensInParens (leftNeedsParens op x) xs ++ op.marks
        ++ tokensInParens (rightNeedsParens op y) ys)
      (.binary op a b) := by
  have hrank : op.level.rank = op.precedence ∧ op.level.next.rank = op.precedence + 1 := by
    cases op <;> decide
  have hright : Derives op.level.next (tokensInParens (rightNeedsParens op y) ys) b := by
    refine derives_tokensInParens hy fun hneeded => ?_
    have := of_decide_eq_false hneeded
    omega
  cases hop : op.isComparison with
  | true =>
      have hlevel : op.level = .comparison ∧ op.precedence = 4 ∧ (op.marks, op) ∈ comparisons := by
        revert hop
        cases op <;> decide
      have hleft : Derives .sum (tokensInParens (leftNeedsParens op x) xs) a := by
        refine derives_tokensInParens hx fun hneeded => ?_
        rw [leftNeedsParens, if_pos hop] at hneeded
        have := of_decide_eq_false hneeded
        have hsum : Level.sum.rank = 5 := rfl
        omega
      rw [hlevel.1] at hright ⊢
      exact .compared hlevel.2.2 hleft hright
  | false =>
      obtain ⟨mark, hmarks, hmark⟩ : ∃ mark, op.marks = [mark] ∧ (mark, op) ∈ op.level.binaryOps := by
        revert hop
        cases op <;> first
          | exact fun hop => absurd hop (by decide)
          | exact fun _ => ⟨_, rfl, by decide⟩
      have hleft : Derives op.level (tokensInParens (leftNeedsParens op x) xs) a := by
        refine derives_tokensInParens hx fun hneeded => ?_
        rw [leftNeedsParens, hop, if_neg (by simp)] at hneeded
        have := of_decide_eq_false hneeded
        omega
      rw [hmarks, List.append_assoc, List.singleton_append]
      exact .chain hmark hleft hright

/-- A unary operator in front of a tree, in parentheses if it needs them. -/
theorem derives_unary {op : UnaryOp} {x a : Expr} {xs : List Token} (hx : Derives x.level xs a) :
    Derives op.level (op.mark :: tokensInParens (operandNeedsParens op x) xs) (.unary op a) := by
  have hmark : (op.mark, op) ∈ op.level.unaryOps := by cases op <;> decide
  refine .operand hmark (derives_tokensInParens hx fun hneeded => ?_)
  cases op with
  | not =>
      have := of_decide_eq_false hneeded
      have hrank : UnaryOp.not.level.rank = 3 := rfl
      omega
  | neg | pos =>
      have := of_decide_eq_false (Bool.or_eq_false_iff.mp hneeded).2
      show 7 ≤ x.precedence
      omega

/-- A call, with its edit as the last of its arguments. -/
theorem derives_call {function : String} {args : List Arg} {edit? : Option String}
    (h : ∀ a ∈ args, Derives a.value.level a.value.tokens a.value.readBack) :
    Derives .atom (tokens (.call function args edit?)) (readBack (.call function args edit?)) := by
  have hwritten : ∀ w ∈ args.map writtenArg ++ edit?.toList.map writtenEdit,
      Derives .disjunction w.tokens w.value := by
    intro w hw
    rcases List.mem_append.mp hw with hw | hw
    · obtain ⟨a, ha, rfl⟩ := List.mem_map.mp hw
      have hrank : Level.disjunction.rank ≤ a.value.level.rank := by cases a.value.level <;> decide
      cases a <;> exact (h _ ha).weaken hrank
    · obtain ⟨s, -, rfl⟩ := List.mem_map.mp hw
      exact (Derives.constant (c := .str s) rfl).weaken (by decide)
  have hcall := Derives.call function hwritten
  have htokens : (edit?.toList.map writtenEdit).map (·.allTokens) = editTokens edit? :=
    List.map_map ..
  have hargs : (edit?.toList.map writtenEdit).map (·.arg) = editArg? edit? := List.map_map ..
  rwa [List.map_append, List.map_append, ← argTokens_eq_map, ← readBackArgs_eq_map, htokens, hargs]
    at hcall

/-- **The tokens of a tree derive the tree that is read back.** -/
theorem derives_tokens {t : Expr} (h : t.every isLegible = true) :
    Derives t.level t.tokens t.readBack := by
  induction t using Expr.induction with
  | noOp => exact absurd h (by decide)
  | literal l =>
      cases l with
      | num x =>
          rw [tokens, readBack, Literal.token]
          split
          · exact .constant rfl
          · exact .name _
      | str s => exact .constant rfl
      | bool b => cases b <;> exact .constant rfl
      | none => exact .constant rfl
  | list items ih =>
      have hitems := (every_list.mp h).2
      have hderives : ∀ i ∈ items.map fun x => (x.tokens, x.readBack),
          Derives .disjunction i.1 i.2 := by
        intro i hi
        obtain ⟨x, hx, rfl⟩ := List.mem_map.mp hi
        have hrank : Level.disjunction.rank ≤ x.level.rank := by cases x.level <;> decide
        exact (ih x hx (hitems x hx)).weaken hrank
      have hlist := Derives.list hderives
      rw [List.map_map, List.map_map] at hlist
      rw [tokens, readBack, itemTokens_eq_map, readBackItems_eq_map]
      exact hlist
  | block kind name => exact .block kind name
  | unary op x ih => exact derives_unary (ih (every_unary.mp h).2)
  | binary op x y ihx ihy =>
      obtain ⟨-, hx, hy⟩ := every_binary.mp h
      exact derives_binary (ihx hx) (ihy hy)
  | ident name => exact .name name
  | call function args edit? ih =>
      exact derives_call fun a ha => ih a ha ((every_call.mp h).2 a ha)

/-! ### Trees that are read back as themselves -/

theorem readBackArgs_eq_self_iff {args : List Arg} :
    readBackArgs args = args ↔ ∀ a ∈ args, a.value.readBack = a.value := by
  induction args with
  | nil => simp [readBackArgs]
  | cons a as ih =>
      rw [List.forall_mem_cons, ← ih]
      cases a <;> simp [readBackArgs, Arg.value]

theorem readBackItems_eq_self_iff {items : List Expr} :
    readBackItems items = items ↔ ∀ x ∈ items, x.readBack = x := by
  induction items with
  | nil => simp [readBackItems]
  | cons x xs ih => rw [List.forall_mem_cons, ← ih, readBackItems, List.cons.injEq]

/-- A call that keeps no argument that asks for an edit is read back as itself iff its arguments
are. -/
theorem readBack_call_eq_self_iff {function : String} {args : List Arg} {edit? : Option String}
    (hlifted : ∀ a ∈ args, a.edit?.isNone = true) :
    readBack (.call function args edit?) = .call function args edit? ↔
      readBackArgs args = args := by
  have hkeep : (editArg? edit?).filter (fun a => a.edit?.isNone) = [] := by
    cases edit? <;> rfl
  have hedit : (editArg? edit?).filterMap Arg.edit? = edit?.toList := by
    cases edit? <;> rfl
  constructor
  · intro heq
    simp only [readBack, mkCall, List.filter_append, hkeep, List.append_nil, call.injEq,
      true_and] at heq
    have hlength : (readBackArgs args).length = args.length := by
      rw [readBackArgs_eq_map, List.length_map, List.length_map]
    have hsub : ((readBackArgs args).filter fun a => a.edit?.isNone).Sublist (readBackArgs args) :=
      List.filter_sublist
    have hall := hsub.eq_of_length (by rw [heq.1, hlength])
    exact hall.symm.trans heq.1
  · intro heq
    have hfilter : args.filter (fun a => a.edit?.isNone) = args := List.filter_eq_self.mpr hlifted
    have hnone : args.filterMap Arg.edit? = [] :=
      List.filterMap_eq_nil_iff.mpr fun a ha => Option.isNone_iff_eq_none.mp (hlifted a ha)
    rw [readBack, heq, mkCall, List.filter_append, hfilter, hkeep, List.filterMap_append, hnone,
      hedit, List.append_nil, List.nil_append]
    cases edit? <;> rfl

/-- **A tree is read back as itself iff its numbers are finite**, unless a call keeps an argument
that asks for an edit. -/
theorem readBack_eq_self_iff {t : Expr} (hlifted : t.every isLifted = true) :
    t.readBack = t ↔ t.every hasFiniteNumber = true := by
  induction t using Expr.induction with
  | noOp => simp [readBack, every, hasFiniteNumber]
  | literal l =>
      cases l with
      | num x =>
          rw [readBack]
          split <;> simp_all [every, hasFiniteNumber]
      | _ => simp [readBack, every, hasFiniteNumber]
  | list items ih =>
      have hitems := (every_list.mp hlifted).2
      rw [readBack, list.injEq, readBackItems_eq_self_iff, every_list]
      simp only [hasFiniteNumber, true_and]
      exact forall₂_congr fun x hx => ih x hx (hitems x hx)
  | block kind name => simp [readBack, every, hasFiniteNumber]
  | unary op x ih =>
      rw [readBack, unary.injEq, every_unary, ih (every_unary.mp hlifted).2]
      simp only [hasFiniteNumber, true_and]
  | binary op x y ihx ihy =>
      obtain ⟨-, hx, hy⟩ := every_binary.mp hlifted
      rw [readBack, binary.injEq, every_binary, ihx hx, ihy hy]
      simp only [hasFiniteNumber, true_and]
  | ident name => simp [readBack, every, hasFiniteNumber]
  | call function args edit? ih =>
      obtain ⟨hcall, hargs⟩ := every_call.mp hlifted
      rw [readBack_call_eq_self_iff (List.all_eq_true.mp hcall), readBackArgs_eq_self_iff, every_call]
      simp only [hasFiniteNumber, true_and]
      exact forall₂_congr fun a ha => ih a ha (hargs a ha)

end Expr

end ErrorAnalysis
