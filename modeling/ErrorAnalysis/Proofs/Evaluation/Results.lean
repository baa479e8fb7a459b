import Mathlib.Tactic
import ErrorAnalysis.Eval.Basic

/-!
# Results of Evaluation

Forgetting the patterns that were asked for turns an evaluation into a value or an error. This
module shows that doing so is compatible with sequencing, and takes apart the evaluations that yield
a value: what a tree yields, its parts have yielded.

## Main results

* `Eval.result_bind`: the result of one computation after another.
* `Eval.bind_congr`: computations that agree on the value of the one before them.
* `Registry.exists_mem_of_evaluateAll`, `Registry.exists_mem_of_evaluateArgs`: the values of several
  trees are the values of each of them.
* `Registry.evaluateWith_binary_eq_ok`, `Registry.evaluateWith_call_eq_ok`: what operators and calls
  yield.
-/

namespace ErrorAnalysis

/-! ### Sequencing -/

theorem except_bind_eq_ok {ε α β : Type} {x : Except ε α} {f : α → Except ε β} {b : β} :
    (x >>= f) = .ok b ↔ ∃ a, x = .ok a ∧ f a = .ok b := by
  cases x with
  | error e => simp [bind, Except.bind]
  | ok a => simp [bind, Except.bind]

theorem except_pure_eq_ok {ε α : Type} {a b : α} : (pure a : Except ε α) = .ok b ↔ b = a :=
  ⟨fun h => (Except.ok.inj h).symm, fun h => h ▸ rfl⟩

/-- Results for all items of a list are a result for each of them. -/
theorem except_mapM_eq_ok {ε α β : Type} {f : α → Except ε β} {xs : List α} {ys : List β} :
    xs.mapM f = .ok ys ↔ List.Forall₂ (fun x y => f x = .ok y) xs ys := by
  induction xs generalizing ys with
  | nil =>
      rw [List.mapM_nil, List.forall₂_nil_left_iff, except_pure_eq_ok]
  | cons x xs ih =>
      simp only [List.mapM_cons, except_bind_eq_ok, except_pure_eq_ok, ih, List.forall₂_cons_left_iff]
      constructor
      · rintro ⟨y, hy, ys', hys, rfl⟩
        exact ⟨y, ys', hy, hys, rfl⟩
      · rintro ⟨y, ys', hy, hys, rfl⟩
        exact ⟨y, hy, ys', hys, rfl⟩

/-- What holds at the start of a run over a list, and is kept by each step that succeeds, holds at
the end. -/
theorem except_foldlM_induction {ε α β : Type} {motive : β → Prop} {f : β → α → Except ε β}
    {xs : List α} {b b' : β} (h : xs.foldlM f b = .ok b') (start : motive b)
    (step : ∀ c x c', x ∈ xs → motive c → f c x = .ok c' → motive c') : motive b' := by
  induction xs generalizing b with
  | nil =>
      obtain rfl := Except.ok.inj h
      exact start
  | cons x xs ih =>
      rw [List.foldlM_cons] at h
      obtain ⟨c, hc, h⟩ := except_bind_eq_ok.mp h
      refine ih h (step b x c List.mem_cons_self start hc) fun d y d' hy => ?_
      exact step d y d' (List.mem_cons_of_mem _ hy)

namespace Eval

variable {α β : Type}

@[simp] theorem result_pure (a : α) : (pure a : Eval Traced α).result = .ok a := rfl

@[simp] theorem result_liftM (x : Except EvalError α) : (liftM x : Eval Traced α).result = x := by
  cases x <;> rfl

/-- The result of one computation after another. -/
@[simp] theorem result_bind (x : Eval Traced α) (f : α → Eval Traced β) :
    (x >>= f).result = x.result >>= fun a => (f a).result := by
  rw [result, ExceptT.run_bind, Traced.value_bind]
  unfold result
  cases x.run.value <;> rfl

theorem result_bind_eq_ok {x : Eval Traced α} {f : α → Eval Traced β} {b : β} :
    (x >>= f).result = .ok b ↔ ∃ a, x.result = .ok a ∧ (f a).result = .ok b := by
  rw [result_bind, except_bind_eq_ok]

theorem result_pure_eq_ok {a b : α} : (pure a : Eval Traced α).result = .ok b ↔ a = b := by
  rw [result_pure, Except.ok.injEq]

theorem liftM_map_bind {γ : Type} (x : Except EvalError α) (f : α → β) (g : β → Eval Traced γ) :
    (liftM (x.map f) >>= g : Eval Traced γ) = liftM x >>= fun a => g (f a) := by
  cases x <;> rfl

/-- A computation goes on alike after another one if it does so from the value that is yielded. -/
theorem bind_congr {x : Eval Traced α} {f g : α → Eval Traced β} (h : ∀ a, x.result = .ok a → f a = g a) :
    x >>= f = x >>= g := by
  unfold result at h
  refine ExceptT.ext (Traced.ext ?_ ?_)
  · rw [ExceptT.run_bind, ExceptT.run_bind, Traced.value_bind, Traced.value_bind]
    cases hx : x.run.value with
    | error e => rfl
    | ok a => simp only [h a hx]
  · rw [ExceptT.run_bind, ExceptT.run_bind, Traced.asked_bind, Traced.asked_bind]
    cases hx : x.run.value with
    | error e => rfl
    | ok a => simp only [h a hx]

end Eval

/-! ### Parts of a tree -/

namespace Registry

variable {r : Registry} {expand : Expansion Traced} {s : Scope}

theorem exists_mem_of_evaluateAll {xs : List Expr} {vs : List Sourced}
    (h : (r.evaluateAll expand xs s).result = .ok vs) {v : Sourced} (hv : v ∈ vs) :
    ∃ x ∈ xs, (r.evaluateWith expand x s).result = .ok v := by
  induction xs generalizing vs with
  | nil =>
      rw [evaluateAll, Eval.result_pure_eq_ok] at h
      subst h
      cases hv
  | cons x xs ih =>
      simp only [evaluateAll, Eval.result_bind_eq_ok, Eval.result_pure_eq_ok] at h
      obtain ⟨w, hw, ws, hws, rfl⟩ := h
      rcases List.mem_cons.mp hv with rfl | hv
      · exact ⟨x, List.mem_cons_self, hw⟩
      · obtain ⟨y, hy, hval⟩ := ih hws hv
        exact ⟨y, List.mem_cons_of_mem _ hy, hval⟩

/-- An argument is a text that came from nowhere, or the value of its tree. -/
theorem evaluateArg_eq_ok {a : Arg} {g : Given} (h : (r.evaluateArg expand a s).result = .ok g) :
    g.value.sources = [] ∨ (r.evaluateWith expand a.value s).result = .ok g.value := by
  cases a with
  | positional x =>
      simp only [evaluateArg, Eval.result_bind_eq_ok, Eval.result_pure_eq_ok] at h
      obtain ⟨v, hv, rfl⟩ := h
      exact .inr hv
  | named name x =>
      rw [evaluateArg] at h
      split at h
      · obtain rfl := Eval.result_pure_eq_ok.mp h
        exact .inl rfl
      · simp only [Eval.result_bind_eq_ok, Eval.result_pure_eq_ok] at h
        obtain ⟨v, hv, rfl⟩ := h
        exact .inr hv

theorem exists_mem_of_evaluateArgs {args : List Arg} {gs : List Given}
    (h : (r.evaluateArgs expand args s).result = .ok gs) {g : Given} (hg : g ∈ gs) :
    ∃ a ∈ args, (r.evaluateArg expand a s).result = .ok g := by
  induction args generalizing gs with
  | nil =>
      rw [evaluateArgs, Eval.result_pure_eq_ok] at h
      subst h
      cases hg
  | cons a args ih =>
      simp only [evaluateArgs, Eval.result_bind_eq_ok, Eval.result_pure_eq_ok] at h
      obtain ⟨g₀, hg₀, gs₀, hgs₀, rfl⟩ := h
      rcases List.mem_cons.mp hg with rfl | hg
      · exact ⟨a, List.mem_cons_self, hg₀⟩
      · obtain ⟨b, hb, hval⟩ := ih hgs₀ hg
        exact ⟨b, List.mem_cons_of_mem _ hb, hval⟩

/-- A binary operator is decided by its left operand, or has values for both of its operands. -/
theorem evaluateWith_binary_eq_ok {op : BinaryOp} {x y : Expr} {v : Sourced}
    (h : (r.evaluateWith expand (.binary op x y) s).result = .ok v) :
    ∃ w, (r.evaluateWith expand x s).result = .ok w ∧
      ((op.isLogical && w.value.decides op) = true ∧
          v = ⟨.bool w.value.truthy, w.sources⟩ ∨
        (op.isLogical && w.value.decides op) = false ∧
          ∃ u value, (r.evaluateWith expand y s).result = .ok u ∧
            (if op.isLogical then .ok (.bool u.value.truthy)
              else w.value.applyBinary op u.value) = .ok value ∧
            v = ⟨value, w.sources.union u.sources⟩) := by
  rw [evaluateWith, Eval.result_bind_eq_ok] at h
  obtain ⟨w, hw, h⟩ := h
  refine ⟨w, hw, ?_⟩
  split at h
  · next hdecided => exact .inl ⟨hdecided, (Eval.result_pure_eq_ok.mp h).symm⟩
  · next hundecided =>
      obtain ⟨u, hu, h⟩ := Eval.result_bind_eq_ok.mp h
      refine .inr ⟨Bool.eq_false_iff.mpr hundecided, u, ?_⟩
      by_cases hlogical : op.isLogical = true
      · rw [if_pos hlogical] at h ⊢
        exact ⟨_, hu, rfl, (Eval.result_pure_eq_ok.mp h).symm⟩
      · rw [if_neg hlogical] at h ⊢
        simp only [Eval.result_bind_eq_ok, Eval.result_pure_eq_ok, Eval.result_liftM] at h
        obtain ⟨value, hvalue, heq⟩ := h
        exact ⟨value, hu, hvalue, heq.symm⟩

/-- A call yields null where the variant that it asks for is missing, and else what the function makes
of its arguments there. -/
theorem evaluateWith_call_eq_ok {function : String} {args : List Arg} {edit? : Option String}
    {v : Sourced} (h : (r.evaluateWith expand (.call function args edit?) s).result = .ok v) :
    ∃ f, r.functions.get function = .ok f ∧
      ((s.forCall r.ambient f edit?).instance? = none ∧ v = .null ∨
        ∃ i given, (s.forCall r.ambient f edit?).instance? = some i ∧
          (r.evaluateArgs expand args (s.forCall r.ambient f edit?)).result = .ok given ∧
          (r.call f i given).result = .ok v) := by
  rw [evaluateWith, Eval.result_bind_eq_ok] at h
  obtain ⟨f, hf, h⟩ := h
  rw [Eval.result_liftM] at hf
  refine ⟨f, hf, ?_⟩
  dsimp only at h
  split at h
  · next hnone => exact .inl ⟨hnone, (Eval.result_pure_eq_ok.mp h).symm⟩
  · next i hi =>
      obtain ⟨given, hgiven, hcall⟩ := Eval.result_bind_eq_ok.mp h
      exact .inr ⟨i, given, hi, hgiven, hcall⟩

/-- The value of a tree on an item is that of its evaluation at the unedited variant. -/
theorem result_valueOn (x : Expr) (item : Item) :
    (r.valueOn x item).result =
      (r.evaluate x ⟨item, Instance.noEdit⟩).result.map (·.value) := by
  rw [valueOn, Eval.result_bind]
  cases (r.evaluate x ⟨item, Instance.noEdit⟩).result <;> rfl

end Registry

end ErrorAnalysis
