import Mathlib.Tactic
import ErrorAnalysis.Command
import ErrorAnalysis.Expr.Basic
import ErrorAnalysis.Token.Lexer

/-!
# Trees of Queries

Induction over expressions, in which the items of a list and the values of the arguments of a call
are on a level with the operands of operators, and properties that hold at every node of a tree. The
properties are those on which printing a tree and reading it back depends.

## Main definitions

* `Expr.HasNode`: a tree is a node of another one.
* `Expr.every`: a property of nodes holds throughout a tree.
* `Expr.isLegible`: the names, texts and numbers of a node can be written in a query.
* `Expr.isLifted`: no argument asks for an edit.
* `Expr.hasFiniteNumber`: a number is finite.

## Main results

* `Expr.induction`: induction over trees.
* `Expr.hasNode_of_mem_blockRefs`: the blocks that a tree refers to are nodes of it.
* `Expr.every_list` and its like: a property holds throughout a tree iff it holds at the root and
  throughout the parts.
-/

namespace ErrorAnalysis

namespace Expr

/-! ### Induction -/

section Induction

variable {motive : Expr → Prop}
  (noOp : motive .noOp)
  (literal : ∀ l, motive (.literal l))
  (list : ∀ items, (∀ x ∈ items, motive x) → motive (.list items))
  (block : ∀ kind name, motive (.block kind name))
  (unary : ∀ op x, motive x → motive (.unary op x))
  (binary : ∀ op x y, motive x → motive y → motive (.binary op x y))
  (ident : ∀ name, motive (.ident name))
  (call : ∀ function args edit?, (∀ a ∈ args, motive a.value) → motive (.call function args edit?))

include noOp literal list block unary binary ident call

/-- **Induction over trees.** -/
@[elab_as_elim]
theorem induction (t : Expr) : motive t := by
  refine @Expr.rec motive (fun a => motive a.value) (fun items => ∀ x ∈ items, motive x)
    (fun args => ∀ a ∈ args, motive a.value)
    noOp literal list block unary binary ident call ?_ ?_ ?_ ?_ ?_ ?_ t
  · exact fun _ h => h
  · exact fun _ _ h => h
  · simp
  · exact fun x xs hx hxs => List.forall_mem_cons.mpr ⟨hx, hxs⟩
  · simp
  · exact fun a as ha has => List.forall_mem_cons.mpr ⟨ha, has⟩

end Induction

/-! ### Nodes -/

/-- A tree is a node of another one: the tree itself, or a node of one of its parts. -/
inductive HasNode : Expr → Expr → Prop
  | self (x : Expr) : HasNode x x
  | item {items : List Expr} {x y : Expr} : x ∈ items → HasNode x y → HasNode (.list items) y
  | operand {op : UnaryOp} {x y : Expr} : HasNode x y → HasNode (.unary op x) y
  | left {op : BinaryOp} {x z y : Expr} : HasNode x y → HasNode (.binary op x z) y
  | right {op : BinaryOp} {x z y : Expr} : HasNode z y → HasNode (.binary op x z) y
  | argument {function : String} {args : List Arg} {edit? : Option String} {a : Arg} {y : Expr} :
      a ∈ args → HasNode a.value y → HasNode (.call function args edit?) y

/-! ### Blocks -/

section

variable {b : BlockKind × String}

theorem mem_listBlockRefs {items : List Expr} :
    b ∈ listBlockRefs items ↔ ∃ x ∈ items, b ∈ x.blockRefs := by
  induction items with
  | nil => simp [listBlockRefs]
  | cons x items ih => rw [listBlockRefs, List.mem_append, ih, List.exists_mem_cons_iff]

theorem argBlockRefs_eq (a : Arg) : argBlockRefs a = a.value.blockRefs := by
  cases a <;> rfl

theorem mem_argsBlockRefs {args : List Arg} :
    b ∈ argsBlockRefs args ↔ ∃ a ∈ args, b ∈ a.value.blockRefs := by
  induction args with
  | nil => simp [argsBlockRefs]
  | cons a args ih =>
      rw [argsBlockRefs, List.mem_append, ih, argBlockRefs_eq, List.exists_mem_cons_iff]

/-- The blocks that a tree refers to are nodes of it. -/
theorem hasNode_of_mem_blockRefs {x : Expr} (h : b ∈ x.blockRefs) :
    x.HasNode (.block b.1 b.2) := by
  induction x using Expr.induction with
  | noOp => cases h
  | literal l => cases h
  | list items ih =>
      obtain ⟨x, hx, hb⟩ := mem_listBlockRefs.mp h
      exact .item hx (ih x hx hb)
  | block kind name =>
      obtain rfl := List.mem_singleton.mp h
      exact .self _
  | unary op x ih => exact .operand (ih h)
  | binary op x y ihx ihy =>
      rcases List.mem_append.mp h with hb | hb
      · exact .left (ihx hb)
      · exact .right (ihy hb)
  | ident name => cases h
  | call function args edit? ih =>
      obtain ⟨a, ha, hb⟩ := mem_argsBlockRefs.mp h
      exact .argument ha (ih a ha hb)

end

/-! ### Properties of all nodes -/

mutual

/-- Whether every node of a tree has a property. -/
def every (p : Expr → Bool) : Expr → Bool
  | .noOp => p .noOp
  | .literal l => p (.literal l)
  | .list items => p (.list items) && everyItem p items
  | .block kind name => p (.block kind name)
  | .unary op x => p (.unary op x) && every p x
  | .binary op x y => p (.binary op x y) && every p x && every p y
  | .ident name => p (.ident name)
  | .call function args edit? => p (.call function args edit?) && everyArg p args

/-- Whether every node of the items of a list has a property. -/
def everyItem (p : Expr → Bool) : List Expr → Bool
  | [] => true
  | x :: xs => every p x && everyItem p xs

/-- Whether every node of the arguments of a call has a property. -/
def everyArg (p : Expr → Bool) : List Arg → Bool
  | [] => true
  | .positional x :: as => every p x && everyArg p as
  | .named _ x :: as => every p x && everyArg p as

end

variable {p : Expr → Bool}

theorem everyItem_eq_all (items : List Expr) : everyItem p items = items.all (every p) := by
  induction items with
  | nil => rfl
  | cons x xs ih => rw [everyItem, ih, List.all_cons]

theorem everyArg_eq_all (args : List Arg) : everyArg p args = args.all fun a => every p a.value := by
  induction args with
  | nil => rfl
  | cons a as ih => cases a <;> rw [everyArg, ih, List.all_cons, Arg.value]

@[simp] theorem every_list {items : List Expr} :
    every p (.list items) = true ↔ p (.list items) = true ∧ ∀ x ∈ items, every p x = true := by
  rw [every, everyItem_eq_all, Bool.and_eq_true, List.all_eq_true]

@[simp] theorem every_unary {op : UnaryOp} {x : Expr} :
    every p (.unary op x) = true ↔ p (.unary op x) = true ∧ every p x = true := by
  rw [every, Bool.and_eq_true]

@[simp] theorem every_binary {op : BinaryOp} {x y : Expr} :
    every p (.binary op x y) = true ↔
      p (.binary op x y) = true ∧ every p x = true ∧ every p y = true := by
  rw [every, Bool.and_eq_true, Bool.and_eq_true, and_assoc]

@[simp] theorem every_call {function : String} {args : List Arg} {edit? : Option String} :
    every p (.call function args edit?) = true ↔
      p (.call function args edit?) = true ∧ ∀ a ∈ args, every p a.value = true := by
  rw [every, everyArg_eq_all, Bool.and_eq_true, List.all_eq_true]

/-! ### What can be written -/

/-- Whether a text is a name in queries: it starts like one, goes on like one, and is not
reserved. -/
def isName (name : String) : Bool :=
  match name.toList with
  | [] => false
  | c :: cs => Token.startsName c && cs.all Token.continuesName && (Keyword.ofName? name).isNone

/-- The characters that no text between quotes can hold: the marks that become plain quotes, and the
carriage return, which has no escape. -/
def unquotable : List Char :=
  ['\'', '\u201C', '\u201D', '\r']

/-- Whether a text can stand between quotes. -/
def isQuotable (s : String) : Bool :=
  s.toList.all fun c => !unquotable.contains c

/-- Whether the names, texts and numbers of a node can be written in a query: names are names,
texts can be quoted, and numbers have no sign of their own. -/
def isLegible : Expr → Bool
  | .noOp => false
  | .literal (.num x) => !x.isNegative && !x.isNaN
  | .literal (.str s) => isQuotable s
  | .block _ name | .ident name => isName name
  | .call function args edit? =>
    isName function && args.all (fun a => a.name?.all isName) && edit?.all isQuotable
  | _ => true

/-- Whether a call keeps no argument that asks for an edit. -/
def isLifted : Expr → Bool
  | .call _ args _ => args.all fun a => a.edit?.isNone
  | _ => true

/-- Whether a number is neither infinite nor a NaN. -/
def hasFiniteNumber : Expr → Bool
  | .literal (.num x) => x.isFinite
  | _ => true

end Expr

end ErrorAnalysis
