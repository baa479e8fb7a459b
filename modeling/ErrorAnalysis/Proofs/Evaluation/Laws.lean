import ErrorAnalysis.Proofs.Evaluation.Variants
import ErrorAnalysis.Proofs.Syntax.Contexts

/-!
# Laws of the Operators

Two trees that evaluate alike in every scope can be put in place of each other anywhere, unless a keyword
takes one of them without its value. This module shows so, and that three ways of writing an operation
differently evaluate alike: the negated operators as the negations of the others, and a conjunction of
three with the brackets moved. Alike means that nothing tells them apart: they yield the same value with
the same sources or the same error, after they have asked for the same patterns.

## Main results

* `Registry.evaluateWith_fill_congr`: **trees that evaluate alike do so anywhere in a tree.**
* `Registry.evaluateWith_not`: the negation of an operator evaluates like the negated operator.
* `Registry.evaluateWith_and_assoc`: the brackets of a conjunction can be moved.
* `Registry.evaluate_rewritten`: **the three laws hold anywhere in a tree.**
-/

namespace ErrorAnalysis

/-! ### Operations on values -/

namespace Value

theorem applyBinary_notIn (v w : Value) :
    (v.applyBinary .in w >>= applyUnary .not) = v.applyBinary .notIn w := by
  rw [applyBinary, applyBinary]
  cases w.contains v <;> rfl

theorem applyBinary_ne (v w : Value) :
    (v.applyBinary .eq w >>= applyUnary .not) = v.applyBinary .ne w := by
  rfl

end Value

namespace Registry

variable {r : Registry} {expand : Expansion Traced} {x y : Expr} {s : Scope}

/-! ### Replacing a part -/

theorem evaluateAll_replace (h : r.evaluateWith expand y s = r.evaluateWith expand x s)
    (front back : List Expr) :
    r.evaluateAll expand (front ++ y :: back) s = r.evaluateAll expand (front ++ x :: back) s := by
  induction front with
  | nil => rw [List.nil_append, List.nil_append, evaluateAll, evaluateAll, h]
  | cons z front ih => rw [List.cons_append, List.cons_append, evaluateAll, evaluateAll, ih]

theorem evaluateArgs_replace {a b : Arg} (h : r.evaluateArg expand b s = r.evaluateArg expand a s)
    (front back : List Arg) :
    r.evaluateArgs expand (front ++ b :: back) s = r.evaluateArgs expand (front ++ a :: back) s := by
  induction front with
  | nil => rw [List.nil_append, List.nil_append, evaluateArgs, evaluateArgs, h]
  | cons c front ih => rw [List.cons_append, List.cons_append, evaluateArgs, evaluateArgs, ih]

theorem literalArgument?_of_not_isBare (h : x.isBare = false) (name : String) :
    literalArgument? name x = none := by
  cases x with
  | ident s => cases h
  | _ => rfl

/-- An argument that is not bare is evaluated under whatever keyword it is given. -/
theorem evaluateArg_under_congr (hx : x.isBare = false) (hy : y.isBare = false)
    (h : r.evaluateWith expand y s = r.evaluateWith expand x s) (keyword? : Option String) :
    r.evaluateArg expand (.under keyword? y) s = r.evaluateArg expand (.under keyword? x) s := by
  cases keyword? with
  | none =>
      dsimp only [Arg.under, Option.elim_none]
      rw [evaluateArg, evaluateArg, h]
  | some keyword =>
      dsimp only [Arg.under, Option.elim_some]
      rw [evaluateArg, evaluateArg, literalArgument?_of_not_isBare hx,
        literalArgument?_of_not_isBare hy, h]

/-- **Trees that evaluate alike do so anywhere in a tree.** A call may put its arguments on another
variant, so they have to evaluate alike in every scope. -/
theorem evaluateWith_fill_congr (hx : x.isBare = false) (hy : y.isBare = false)
    (h : ∀ s, r.evaluateWith expand y s = r.evaluateWith expand x s) (c : Expr.Context) (s : Scope) :
    r.evaluateWith expand (c.fill y) s = r.evaluateWith expand (c.fill x) s := by
  -- An argument is at a scope of the call, which is why the contexts are gone through for all scopes.
  have hargument (c : Expr.Context) (ih : ∀ s,
      r.evaluateWith expand (c.fill y) s = r.evaluateWith expand (c.fill x) s)
      (function : String) (front back : List Arg) (keyword? edit? : Option String) (s : Scope) :
      r.evaluateWith expand (.call function (front ++ .under keyword? (c.fill y) :: back) edit?) s =
        r.evaluateWith expand (.call function (front ++ .under keyword? (c.fill x) :: back) edit?) s := by
    have hargs (s : Scope) := evaluateArgs_replace
      (evaluateArg_under_congr (c.isBare_fill hx) (c.isBare_fill hy) (ih s) keyword?) front back
    simp only [evaluateWith, hargs]
  induction c generalizing s with
  | hole => exact h s
  | item front c back ih =>
      rw [Expr.Context.fill, Expr.Context.fill, evaluateWith, evaluateWith,
        evaluateAll_replace (ih s)]
  | operand op c ih =>
      rw [Expr.Context.fill, Expr.Context.fill, evaluateWith, evaluateWith, ih]
  | left op c z ih =>
      rw [Expr.Context.fill, Expr.Context.fill, evaluateWith, evaluateWith, ih]
  | right op z c ih =>
      simp only [Expr.Context.fill, evaluateWith, ih]
  | argument function front keyword? c back edit? ih =>
      exact hargument c ih function front back keyword? edit? s
  | written function front keyword? c back ih =>
      rw [Expr.Context.fill, Expr.Context.fill, Expr.mkCall_of_not_isBare (c.isBare_fill hx),
        Expr.mkCall_of_not_isBare (c.isBare_fill hy)]
      exact hargument c ih function _ _ keyword? _ s

/-! ### Negations -/

/-- **The negation of an operator evaluates like the negated operator,** if it does so on values. -/
theorem evaluateWith_not {op op' : BinaryOp} (hop : op.isLogical = false)
    (hop' : op'.isLogical = false)
    (h : ∀ v w : Value, (v.applyBinary op w >>= Value.applyUnary .not) = v.applyBinary op' w) :
    r.evaluateWith expand (.unary .not (.binary op x y)) s =
      r.evaluateWith expand (.binary op' x y) s := by
  simp only [evaluateWith, hop, hop', Bool.false_and, Bool.false_eq_true, if_false, bind_assoc,
    pure_bind]
  refine Eval.bind_congr fun v _ => Eval.bind_congr fun w _ => ?_
  rw [← h]
  cases v.value.applyBinary op w.value <;> rfl

/-! ### Conjunctions -/

theorem evaluateWith_and : r.evaluateWith expand (.binary .and x y) s = (do
    let v ← r.evaluateWith expand x s
    if v.value.truthy then
      let w ← r.evaluateWith expand y s
      pure ⟨.bool w.value.truthy, v.sources.union w.sources⟩
    else pure ⟨.bool false, v.sources⟩) := by
  rw [evaluateWith]
  refine Eval.bind_congr fun v _ => ?_
  cases hv : v.value.truthy <;> simp [BinaryOp.isLogical, Value.decides, hv]

/-- **The brackets of a conjunction can be moved.** If an operand does not hold, those behind it are not
evaluated in either form, and neither has sources of theirs. -/
theorem evaluateWith_and_assoc {z : Expr} :
    r.evaluateWith expand (.binary .and (.binary .and x y) z) s =
      r.evaluateWith expand (.binary .and x (.binary .and y z)) s := by
  have hbool (b : Bool) : (Value.bool b).truthy = b := rfl
  rw [evaluateWith_and, evaluateWith_and, evaluateWith_and, bind_assoc]
  refine Eval.bind_congr fun v hv => ?_
  cases v.value.truthy with
  | false => simp only [Bool.false_eq_true, if_false, pure_bind, hbool]
  | true =>
      simp only [if_true, bind_assoc, pure_bind, hbool]
      rw [evaluateWith_and, bind_assoc]
      refine Eval.bind_congr fun w _ => ?_
      cases w.value.truthy with
      | false => simp only [Bool.false_eq_true, if_false, pure_bind, hbool]
      | true =>
          simp only [if_true, bind_assoc, pure_bind, hbool,
            SortedSet.union_assoc (sorted_sources_of_evaluateWith hv)]

/-! ### Anywhere in a tree -/

/-- **Trees that evaluate alike whatever is expanded do so anywhere in a tree.** -/
theorem evaluate_fill_congr (hx : x.isBare = false) (hy : y.isBare = false)
    (h : ∀ expand s, r.evaluateWith expand y s = r.evaluateWith expand x s) (c : Expr.Context)
    (s : Scope) : r.evaluate (c.fill y) s = r.evaluate (c.fill x) s := by
  rw [evaluate, evaluate, evaluateAt_eq]
  exact evaluateWith_fill_congr hx hy (h _) c s

/-- **The three laws hold anywhere in a tree,** in every registry and scope: nothing tells a tree from the
one in which one operation is written differently. -/
theorem evaluate_rewritten (r : Registry) (c : Expr.Context) (x y z : Expr) (s : Scope) :
    r.evaluate (c.fill (.unary .not (.binary .in x y))) s =
        r.evaluate (c.fill (.binary .notIn x y)) s ∧
      r.evaluate (c.fill (.unary .not (.binary .eq x y))) s =
        r.evaluate (c.fill (.binary .ne x y)) s ∧
      r.evaluate (c.fill (.binary .and (.binary .and x y) z)) s =
        r.evaluate (c.fill (.binary .and x (.binary .and y z))) s := by
  refine ⟨?_, ?_, ?_⟩
  · exact evaluate_fill_congr rfl rfl (fun _ _ => evaluateWith_not rfl rfl Value.applyBinary_notIn) c s
  · exact evaluate_fill_congr rfl rfl (fun _ _ => evaluateWith_not rfl rfl Value.applyBinary_ne) c s
  · exact evaluate_fill_congr rfl rfl (fun _ _ => evaluateWith_and_assoc) c s

end Registry

end ErrorAnalysis
