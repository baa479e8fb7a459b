import ErrorAnalysis.Proofs.Evaluation.Depth
import ErrorAnalysis.Proofs.Functions.Failures

/-!
# Ranked Attributes

If attributes have ranks, and the tree of each refers to attributes of lower ranks only, they cannot be
expanded inside of each other without end. This is so whatever the ranks are, and although an attribute
may be expanded from deep inside the arguments of a call and for another variant. Evaluation then finishes
at a depth above the ranks: no attribute is left unexpanded, so what comes out is a value or an error of
an operation, a function or a block.

## Main definitions

* `Registry.IsRankedBy`: the trees of attributes refer to attributes of lower ranks.
* `Registry.RanksBelow`: the attributes that a tree refers to have ranks below a bound.

## Main results

* `Registry.errorsIn_evaluateWith`: **only the expansion of an attribute can be circular.**
* `Registry.finishes_evaluateAt`: **above the ranks of its attributes, the evaluation of a tree
  finishes.**
-/

namespace ErrorAnalysis

/-! ### Errors that are not circular -/

/-- An error is not that an attribute was left unexpanded. -/
def EvalError.IsNotCircular : EvalError → Prop
  | .circular _ => False
  | _ => True

theorem EvalError.Blames.isNotCircular {function : String} {e : EvalError} (h : e.Blames function) :
    e.IsNotCircular := by
  cases e with
  | circular name => exact h
  | _ => trivial

theorem ErrorsIn.mono {α : Type} {P Q : EvalError → Prop} {x : Except EvalError α}
    (h : ErrorsIn P x) (hle : ∀ e, P e → Q e) : ErrorsIn Q x :=
  fun e he => hle e (h e he)

theorem Eval.finishes_iff {α : Type} {x : Eval Traced α} :
    x.finishes = true ↔ ErrorsIn EvalError.IsNotCircular x.result := by
  rw [finishes]
  cases x.result with
  | ok a => exact iff_of_true rfl (errorsIn_ok a)
  | error e =>
      rw [errorsIn_error]
      cases e with
      | circular name => exact iff_of_false Bool.false_ne_true id
      | _ => exact iff_of_true rfl trivial

namespace Value

variable {v w : Value}

theorem errorsIn_applyUnary {op : UnaryOp} :
    ErrorsIn EvalError.IsNotCircular (v.applyUnary op) := by
  rw [applyUnary.eq_def]
  split <;> simp [EvalError.IsNotCircular]

theorem errorsIn_contains : ErrorsIn EvalError.IsNotCircular (w.contains v) := by
  rw [contains.eq_def]
  split <;> simp [EvalError.IsNotCircular]

theorem errorsIn_apply {op : BinaryOp} : ErrorsIn EvalError.IsNotCircular (v.apply op w) := by
  rw [apply.eq_def]
  split
  · exact errorsIn_ok _
  · exact errorsIn_ok _
  · split
    · next result _ =>
        cases result with
        | ok value => exact errorsIn_ok _
        | error m => exact errorsIn_error.mpr trivial
    · split
      · exact errorsIn_ok _
      · exact errorsIn_error.mpr trivial

theorem errorsIn_applyBinary {op : BinaryOp} :
    ErrorsIn EvalError.IsNotCircular (v.applyBinary op w) := by
  rw [applyBinary.eq_def]
  split
  · exact errorsIn_map.mpr errorsIn_contains
  · exact errorsIn_map.mpr errorsIn_contains
  · exact errorsIn_apply

end Value

namespace Registry

variable {r : Registry} {expand : Expansion Traced} {x : Expr} {s : Scope}

theorem errorsIn_evaluateAll {P : EvalError → Prop} {xs : List Expr}
    (h : ∀ x ∈ xs, ErrorsIn P (r.evaluateWith expand x s).result) :
    ErrorsIn P (r.evaluateAll expand xs s).result := by
  induction xs with
  | nil => exact errorsIn_ok _
  | cons x xs ih =>
      obtain ⟨hx, hxs⟩ := List.forall_mem_cons.mp h
      simp [evaluateAll, hx, ih hxs]

theorem errorsIn_evaluateArgs {P : EvalError → Prop} {args : List Arg}
    (h : ∀ a ∈ args, ErrorsIn P (r.evaluateWith expand a.value s).result) :
    ErrorsIn P (r.evaluateArgs expand args s).result := by
  have hargument (a : Arg) (ha : ErrorsIn P (r.evaluateWith expand a.value s).result) :
      ErrorsIn P (r.evaluateArg expand a s).result := by
    cases a with
    | positional x =>
        rw [Arg.value] at ha
        simp [evaluateArg, ha]
    | named name x =>
        rw [Arg.value] at ha
        rw [evaluateArg]
        split
        · exact errorsIn_ok _
        · simp [ha]
  induction args with
  | nil => exact errorsIn_ok _
  | cons a args ih =>
      obtain ⟨ha, hargs⟩ := List.forall_mem_cons.mp h
      simp [evaluateArgs, hargument a ha, ih hargs]

theorem errorsIn_block {kind : BlockKind} {name : String}
    (hexpand : ∀ a s, kind = .attr → Assoc.find? r.attributes name = some a →
      (expand name a.query.root s).finishes = true) :
    ErrorsIn EvalError.IsNotCircular (r.block expand kind name s).result := by
  cases kind with
  | attr =>
      rw [block]
      cases hfind : Assoc.find? r.attributes name with
      | none => exact errorsIn_error.mpr trivial
      | some a =>
          dsimp only
          split
          · exact errorsIn_ok _
          · split
            · exact errorsIn_ok _
            · rw [Eval.result_bind, errorsIn_bind]
              exact ⟨Eval.finishes_iff.mp (hexpand a _ rfl hfind), fun _ _ => errorsIn_ok _⟩
  | group =>
      rw [block]
      split
      · exact errorsIn_error.mpr trivial
      · split <;> exact errorsIn_ok _

/-- **Only the expansion of an attribute can be circular.** -/
theorem errorsIn_evaluateWith
    (hexpand : ∀ name a s, (.attr, name) ∈ x.blockRefs → Assoc.find? r.attributes name = some a →
      (expand name a.query.root s).finishes = true) :
    ErrorsIn EvalError.IsNotCircular (r.evaluateWith expand x s).result := by
  induction x using Expr.induction generalizing s with
  | noOp => exact errorsIn_ok _
  | literal l => exact errorsIn_ok _
  | ident name => exact errorsIn_ok _
  | list items ih =>
      rw [evaluateWith, Eval.result_bind, errorsIn_bind]
      refine ⟨errorsIn_evaluateAll fun x hx => ih x hx fun name a s hname => ?_, fun _ _ => errorsIn_ok _⟩
      exact hexpand name a s (Expr.mem_listBlockRefs.mpr ⟨x, hx, hname⟩)
  | block kind name =>
      refine errorsIn_block fun a s hkind => ?_
      subst hkind
      exact hexpand name a s List.mem_cons_self
  | unary op x ih =>
      rw [evaluateWith, Eval.result_bind, errorsIn_bind]
      refine ⟨ih hexpand, fun v _ => ?_⟩
      rw [Eval.result_bind, Eval.result_liftM, errorsIn_bind]
      exact ⟨Value.errorsIn_applyUnary, fun _ _ => errorsIn_ok _⟩
  | binary op x y ihx ihy =>
      have hx := @ihx s fun name a s hname => hexpand name a s (List.mem_append_left _ hname)
      have hy := @ihy s fun name a s hname => hexpand name a s (List.mem_append_right _ hname)
      rw [evaluateWith, Eval.result_bind, errorsIn_bind]
      refine ⟨hx, fun v _ => ?_⟩
      split
      · exact errorsIn_ok _
      · rw [Eval.result_bind, errorsIn_bind]
        refine ⟨hy, fun w _ => ?_⟩
        split <;> simp [Value.errorsIn_applyBinary]
  | call function args edit? ih =>
      have hget : ErrorsIn EvalError.IsNotCircular (r.functions.get function) := by
        rw [FunctionTable.get, errorsIn_elim]
        exact ⟨fun _ => trivial, fun _ _ => errorsIn_ok _⟩
      rw [evaluateWith, Eval.result_bind, Eval.result_liftM, errorsIn_bind]
      refine ⟨hget, fun f _ => ?_⟩
      dsimp only
      split
      · exact errorsIn_ok _
      · next i _ =>
          rw [Eval.result_bind, errorsIn_bind]
          refine ⟨errorsIn_evaluateArgs fun b hb => ih b hb fun name a s hname => ?_, fun given _ => ?_⟩
          · exact hexpand name a s (Expr.mem_argsBlockRefs.mpr ⟨b, hb, hname⟩)
          · exact (r.errorsIn_call f i given).mono fun _ h => h.isNotCircular

/-! ### Ranks -/

/-- The tree of each attribute refers to attributes of lower ranks only, and otherwise to names for
which there is no attribute. -/
def IsRankedBy (r : Registry) (rank : String → ℕ) : Prop :=
  ∀ name other a, r.Refers name other → Assoc.find? r.attributes other = some a → rank other < rank name

/-- The attributes that a tree refers to have ranks below a bound. -/
def RanksBelow (r : Registry) (rank : String → ℕ) (x : Expr) (n : ℕ) : Prop :=
  ∀ name a, (.attr, name) ∈ x.blockRefs → Assoc.find? r.attributes name = some a → rank name < n

variable {rank : String → ℕ} {n : ℕ} {name : String} {a : Attribute}

/-- The bound goes down where an attribute is expanded. -/
theorem IsRankedBy.ranksBelow (h : r.IsRankedBy rank) (hfind : Assoc.find? r.attributes name = some a) :
    r.RanksBelow rank a.query.root (rank name) :=
  fun other b hother hb => h name other b ⟨a, hfind, hother⟩ hb

theorem RanksBelow.mono {m : ℕ} (h : r.RanksBelow rank x n) (hle : n ≤ m) : r.RanksBelow rank x m :=
  fun name a hname hfind => (h name a hname hfind).trans_le hle

/-- **Above the ranks of its attributes, the evaluation of a tree finishes.** The depth goes down with
the ranks. -/
theorem finishes_evaluateAt (h : r.IsRankedBy rank) (hx : r.RanksBelow rank x n) (s : Scope) :
    (r.evaluateAt n x s).finishes = true := by
  induction n generalizing x s with
  | zero =>
      rw [evaluateAt_eq, Eval.finishes_iff]
      exact errorsIn_evaluateWith fun name a s hname hfind =>
        absurd (hx name a hname hfind) (Nat.not_lt_zero _)
  | succ n ih =>
      rw [evaluateAt_eq, Eval.finishes_iff]
      refine errorsIn_evaluateWith fun name a s hname hfind => ?_
      exact ih ((h.ranksBelow hfind).mono (Nat.le_of_lt_succ (hx name a hname hfind))) s

end Registry

end ErrorAnalysis
