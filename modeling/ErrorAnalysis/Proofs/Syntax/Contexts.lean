import ErrorAnalysis.Proofs.Syntax.Trees

/-!
# Trees with a Hole

A position in a tree is the rest of the tree, with a hole at the position. Among the arguments of a call
it makes a difference in two places what is put into the hole: the name of an entry is taken as a text
under one keyword, and such a name or a text asks for an edit under another if the arguments are those
that were written. Trees of any other kind are kept as they are.

## Main definitions

* `Expr.Context`: trees with a hole, and `Expr.Context.fill`, which puts a tree into it.
* `Expr.isBare`: whether a tree is a text or a name, which a keyword can take without its value.

## Main results

* `Expr.HasNode.exists_fill`: **every node of a tree is at the hole of a context.**
* `Expr.Context.isBare_fill`: only the tree in the hole itself can be bare.
-/

namespace ErrorAnalysis

/-- An argument that is given under a keyword or by position. -/
def Arg.under (keyword? : Option String) (x : Expr) : Arg :=
  keyword?.elim (.positional x) (.named · x)

namespace Expr

/-- A tree with a hole. -/
inductive Context where
  | hole
  | item (front : List Expr) (c : Context) (back : List Expr)
  | operand (op : UnaryOp) (c : Context)
  | left (op : BinaryOp) (c : Context) (y : Expr)
  | right (op : BinaryOp) (x : Expr) (c : Context)
  | argument (function : String) (front : List Arg) (keyword? : Option String) (c : Context)
    (back : List Arg) (edit? : Option String)
  /-- An argument as it is written, from which those that ask for an edit have to be taken out. -/
  | written (function : String) (front : List Arg) (keyword? : Option String) (c : Context)
    (back : List Arg)

/-- Puts a tree into the hole. -/
def Context.fill : Context → Expr → Expr
  | .hole, t => t
  | .item front c back, t => .list (front ++ c.fill t :: back)
  | .operand op c, t => .unary op (c.fill t)
  | .left op c y, t => .binary op (c.fill t) y
  | .right op x c, t => .binary op x (c.fill t)
  | .argument function front keyword? c back edit?, t =>
    .call function (front ++ .under keyword? (c.fill t) :: back) edit?
  | .written function front keyword? c back, t =>
    mkCall function (front ++ .under keyword? (c.fill t) :: back)

/-- **Every node of a tree is at the hole of a context.** -/
theorem HasNode.exists_fill {t y : Expr} (h : t.HasNode y) : ∃ c : Context, c.fill y = t := by
  induction h with
  | self x => exact ⟨.hole, rfl⟩
  | item hx _ ih =>
      obtain ⟨c, rfl⟩ := ih
      obtain ⟨front, back, rfl⟩ := List.append_of_mem hx
      exact ⟨.item front c back, rfl⟩
  | operand _ ih =>
      obtain ⟨c, rfl⟩ := ih
      exact ⟨.operand _ c, rfl⟩
  | left _ ih =>
      obtain ⟨c, rfl⟩ := ih
      exact ⟨.left _ c _, rfl⟩
  | right _ ih =>
      obtain ⟨c, rfl⟩ := ih
      exact ⟨.right _ _ c, rfl⟩
  | @argument function args edit? a y ha _ ih =>
      obtain ⟨c, hc⟩ := ih
      obtain ⟨front, back, rfl⟩ := List.append_of_mem ha
      refine ⟨.argument function front a.name? c back edit?, ?_⟩
      rw [Context.fill, hc]
      cases a <;> rfl

/-! ### Texts and names -/

/-- Whether a tree is a text or the name of an entry. -/
def isBare : Expr → Bool
  | .literal (.str _) | .ident _ => true
  | _ => false

variable {x : Expr}

theorem edit?_of_not_isBare (h : x.isBare = false) (keyword? : Option String) :
    (Arg.under keyword? x).edit? = none := by
  rw [Arg.edit?.eq_def]
  cases keyword? with
  | none => rfl
  | some keyword =>
      rw [Arg.under]
      dsimp only [Option.elim_some]
      split
      · next heq =>
          obtain ⟨-, rfl⟩ := Arg.named.inj heq
          cases h
      · next heq =>
          obtain ⟨-, rfl⟩ := Arg.named.inj heq
          cases h
      · rfl

/-- **Only the tree in the hole itself can be bare.** -/
theorem Context.isBare_fill (c : Context) (h : x.isBare = false) : (c.fill x).isBare = false := by
  cases c with
  | hole => exact h
  | _ => rfl

/-- An argument that is not bare is kept where arguments that ask for an edit are taken out. -/
theorem mkCall_of_not_isBare (h : x.isBare = false) (function : String) (front back : List Arg)
    (keyword? : Option String) :
    mkCall function (front ++ .under keyword? x :: back) =
      .call function
        ((front.filter fun a => a.edit?.isNone) ++ .under keyword? x ::
          back.filter fun a => a.edit?.isNone)
        ((front ++ back).filterMap Arg.edit?).getLast? := by
  have hedit := edit?_of_not_isBare h keyword?
  rw [mkCall, List.filter_append, List.filter_cons_of_pos (by rw [hedit]; rfl),
    List.filterMap_append, List.filterMap_cons_none hedit, List.filterMap_append]

end Expr

end ErrorAnalysis
