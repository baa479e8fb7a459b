import ErrorAnalysis.Proofs.Dependencies.Edit
import ErrorAnalysis.Proofs.Evaluation.Ranks

/-!
# Evaluation on Fuel

Evaluation as a single recursion, which goes down the tree and from an attribute on to its own tree, with
one unit of fuel for each call inside of another. Nothing bounds the size of the tree of an attribute by
that of the tree that refers to it, so fuel can run out whatever the size of a tree is. If the attributes
are ranked it does not: a call either goes down the tree, or on to an attribute of lower rank. Fuel for
the nodes of the tree, and for those of the largest attribute as many times as there are ranks, is enough
for every item and every variant.

## Main definitions

* `Expr.size`: the number of nodes of a tree.
* `Registry.evaluateWithin`: evaluation on fuel.
* `Registry.fuelFor`: the fuel that is enough if the attributes are ranked.

## Main results

* `Registry.descend_eq`: a step on fuel is one of evaluation if the parts are evaluated alike.
* `Registry.evaluateWithin_eq`: **with fuel for the nodes and the levels of a tree, evaluation on fuel is
  evaluation at that depth.**
* `Registry.evaluateWithin_eq_evaluate`: **among ranked attributes evaluation terminates,** with a value
  or an error that is not circular.
-/

namespace ErrorAnalysis

/-! ### Sizes -/

namespace Expr

mutual

/-- The number of nodes of a tree. -/
def size : Expr → ℕ
  | .noOp | .literal _ | .block _ _ | .ident _ => 1
  | .list items => listSize items + 1
  | .unary _ x => size x + 1
  | .binary _ x y => size x + size y + 1
  | .call _ args _ => argsSize args + 1

/-- The number of nodes of the items of a list. -/
def listSize : List Expr → ℕ
  | [] => 0
  | x :: xs => size x + listSize xs

/-- The number of nodes of arguments. -/
def argsSize : List Arg → ℕ
  | [] => 0
  | .positional x :: as => size x + argsSize as
  | .named _ x :: as => size x + argsSize as

end

theorem size_pos (x : Expr) : 0 < x.size := by
  cases x <;> rw [size] <;> exact Nat.succ_pos _

theorem size_le_listSize {items : List Expr} {x : Expr} (h : x ∈ items) : x.size ≤ listSize items := by
  induction items with
  | nil => cases h
  | cons y items ih =>
      rw [listSize]
      rcases List.mem_cons.mp h with rfl | h
      · exact Nat.le_add_right _ _
      · exact (ih h).trans (Nat.le_add_left _ _)

theorem size_le_argsSize {args : List Arg} {a : Arg} (h : a ∈ args) :
    a.value.size ≤ argsSize args := by
  have hcons (b : Arg) (args : List Arg) : argsSize (b :: args) = b.value.size + argsSize args := by
    cases b <;> rw [argsSize, Arg.value]
  induction args with
  | nil => cases h
  | cons b args ih =>
      rw [hcons]
      rcases List.mem_cons.mp h with rfl | h
      · exact Nat.le_add_right _ _
      · exact (ih h).trans (Nat.le_add_left _ _)

end Expr

/-! ### Computations on fuel -/

/-- A computation that runs out of fuel or comes to an end. -/
abbrev Fuelled (α : Type) := OptionT (Eval Traced) α

theorem Fuelled.pure_eq_liftM {α : Type} (a : α) : (pure a : Fuelled α) = liftM (pure a : Eval Traced α) :=
  (liftM_pure a).symm

/-- A computation without fuel comes to an end on fuel. -/
theorem Fuelled.result_run_liftM {α : Type} (x : Eval Traced α) :
    (liftM x : Fuelled α).run.result = x.result.map some :=
  Eval.result_map some x

/-- Two computations on fuel come to an end if the first one does, and the second one does whatever the
first one yields. -/
theorem Fuelled.bind_eq_liftM {α β : Type} {x : Fuelled α} {x' : Eval Traced α} {f : α → Fuelled β}
    {f' : α → Eval Traced β} (hx : x = liftM x') (hf : ∀ a, f a = liftM (f' a)) :
    x >>= f = liftM (x' >>= f') := by
  rw [hx, liftM_bind, funext hf]

namespace Registry

/-- How the parts of a node, and the trees of attributes, are evaluated. -/
abbrev Descent := Expr → Scope → Fuelled Sourced

/-- The value of a block. -/
def descendBlock (r : Registry) (next : Descent) (kind : BlockKind) (name : String) (s : Scope) :
    Fuelled Sourced :=
  match kind with
  | .attr =>
    match Assoc.find? r.attributes name with
    | none => liftM (.error (.unknownBlock .attr name) : Except EvalError Sourced)
    | some a =>
      match s.instance? with
      | none => pure .null
      | some i =>
        match Assoc.find? a.values i.key with
        | some v => pure (.ofInstance i v)
        | none => do
          let v ← next a.query.root { s with edit := i.rid }
          pure (.ofInstance i v.value)
  | .group =>
    match Assoc.find? r.groups name with
    | none => liftM (.error (.unknownBlock .group name) : Except EvalError Sourced)
    | some g =>
      match s.instance? with
      | none => pure .null
      | some i => pure (.ofInstance i (.list (g.members.map .key)))

/-- The value of an argument. -/
def descendArg (next : Descent) (a : Arg) (s : Scope) : Fuelled Given :=
  match a with
  | .positional x => do
    let value ← next x s
    pure ⟨none, value⟩
  | .named name x =>
    match literalArgument? name x with
    | some text => pure ⟨some name, .str text, []⟩
    | none => do
      let value ← next x s
      pure ⟨some name, value⟩

/-- The value of a node. -/
def descend (r : Registry) (next : Descent) (x : Expr) (s : Scope) : Fuelled Sourced :=
  match x with
  | .noOp => pure .null
  | .literal l => pure ⟨l.value, []⟩
  | .list items => do
    let vs ← items.mapM fun x => next x s
    pure ⟨.list (vs.map (·.value)), Sourced.sourcesOf vs⟩
  | .block kind name => r.descendBlock next kind name s
  | .unary op x => do
    let v ← next x s
    let value ← v.value.applyUnary op
    pure { v with value }
  | .binary op x y => do
    let v ← next x s
    if op.isLogical && v.value.decides op then
      pure { v with value := .bool v.value.truthy }
    else do
      let w ← next y s
      let value ←
        if op.isLogical then pure (.bool w.value.truthy)
        else liftM (v.value.applyBinary op w.value)
      pure ⟨value, v.sources.union w.sources⟩
  | .ident name => pure (r.identifier name s)
  | .call function args edit? => do
    let f ← r.functions.get function
    let s := s.forCall r.ambient f edit?
    match s.instance? with
    | none => pure .null
    | some i => do
      let given ← args.mapM fun a => descendArg next a s
      liftM (r.call f i given : Eval Traced Sourced)

/-- The value of an expression in a scope, on fuel. -/
def evaluateWithin (r : Registry) : ℕ → Descent
  | 0 => fun _ _ => failure
  | fuel + 1 => r.descend (r.evaluateWithin fuel)

variable {r : Registry} {next : Descent} {expand : Expansion Traced} {x : Expr} {s : Scope}

/-! ### One step -/

theorem mapM_eq_evaluateAll {xs : List Expr}
    (h : ∀ x ∈ xs, next x s = liftM (r.evaluateWith expand x s)) :
    (xs.mapM fun x => next x s) = liftM (r.evaluateAll expand xs s) := by
  induction xs with
  | nil => exact Fuelled.pure_eq_liftM _
  | cons x xs ih =>
      obtain ⟨hx, hxs⟩ := List.forall_mem_cons.mp h
      rw [List.mapM_cons, evaluateAll]
      refine Fuelled.bind_eq_liftM hx fun v => ?_
      exact Fuelled.bind_eq_liftM (ih hxs) fun _ => Fuelled.pure_eq_liftM _

theorem descendArg_eq {a : Arg} (h : next a.value s = liftM (r.evaluateWith expand a.value s)) :
    descendArg next a s = liftM (r.evaluateArg expand a s) := by
  cases a with
  | positional x =>
      rw [descendArg, evaluateArg]
      exact Fuelled.bind_eq_liftM h fun _ => Fuelled.pure_eq_liftM _
  | named name x =>
      rw [descendArg, evaluateArg]
      cases literalArgument? name x with
      | some text => exact Fuelled.pure_eq_liftM _
      | none => exact Fuelled.bind_eq_liftM h fun _ => Fuelled.pure_eq_liftM _

theorem mapM_eq_evaluateArgs {args : List Arg}
    (h : ∀ a ∈ args, next a.value s = liftM (r.evaluateWith expand a.value s)) :
    (args.mapM fun a => descendArg next a s) = liftM (r.evaluateArgs expand args s) := by
  induction args with
  | nil => exact Fuelled.pure_eq_liftM _
  | cons a args ih =>
      obtain ⟨ha, hargs⟩ := List.forall_mem_cons.mp h
      rw [List.mapM_cons, evaluateArgs]
      refine Fuelled.bind_eq_liftM (descendArg_eq ha) fun g => ?_
      exact Fuelled.bind_eq_liftM (ih hargs) fun _ => Fuelled.pure_eq_liftM _

theorem descendBlock_eq {kind : BlockKind} {name : String}
    (h : ∀ a (i : Instance), kind = .attr → Assoc.find? r.attributes name = some a →
      next a.query.root { s with edit := i.rid } =
        liftM (expand name a.query.root { s with edit := i.rid })) :
    r.descendBlock next kind name s = liftM (r.block expand kind name s) := by
  cases kind with
  | attr =>
      rw [descendBlock, block]
      cases hfind : Assoc.find? r.attributes name with
      | none => rfl
      | some a =>
          dsimp only
          cases s.instance? with
          | none => exact Fuelled.pure_eq_liftM _
          | some i =>
              dsimp only
              cases Assoc.find? a.values i.key with
              | some v => exact Fuelled.pure_eq_liftM _
              | none => exact Fuelled.bind_eq_liftM (h a i rfl hfind) fun _ => Fuelled.pure_eq_liftM _
  | group =>
      rw [descendBlock, block]
      cases Assoc.find? r.groups name with
      | none => rfl
      | some g => cases s.instance? <;> exact Fuelled.pure_eq_liftM _

/-- **A step on fuel is one of evaluation** if the smaller trees among the parts are evaluated alike, and
the tree of an attribute is evaluated as it is expanded. -/
theorem descend_eq
    (hparts : ∀ y s, y.size < x.size → y.blockRefs ⊆ x.blockRefs →
      next y s = liftM (r.evaluateWith expand y s))
    (hexpand : ∀ name a s, x = .block .attr name → Assoc.find? r.attributes name = some a →
      next a.query.root s = liftM (expand name a.query.root s)) :
    r.descend next x s = liftM (r.evaluateWith expand x s) := by
  cases x with
  | noOp => exact Fuelled.pure_eq_liftM _
  | literal l => exact Fuelled.pure_eq_liftM _
  | ident name => exact Fuelled.pure_eq_liftM _
  | block kind name =>
      refine descendBlock_eq fun a i hkind hfind => ?_
      subst hkind
      exact hexpand name a _ rfl hfind
  | list items =>
      have hitems (x : Expr) (hx : x ∈ items) : next x s = liftM (r.evaluateWith expand x s) := by
        refine hparts x s ?_ fun b hb => Expr.mem_listBlockRefs.mpr ⟨x, hx, hb⟩
        rw [Expr.size]
        exact Nat.lt_succ_of_le (Expr.size_le_listSize hx)
      rw [descend, evaluateWith]
      exact Fuelled.bind_eq_liftM (mapM_eq_evaluateAll hitems) fun _ => Fuelled.pure_eq_liftM _
  | unary op x =>
      have hx : next x s = liftM (r.evaluateWith expand x s) := by
        refine hparts x s ?_ fun _ => id
        rw [Expr.size]
        exact Nat.lt_succ_self _
      rw [descend, evaluateWith]
      refine Fuelled.bind_eq_liftM hx fun v => ?_
      exact Fuelled.bind_eq_liftM rfl fun _ => Fuelled.pure_eq_liftM _
  | binary op x y =>
      have hx : next x s = liftM (r.evaluateWith expand x s) := by
        refine hparts x s ?_ (List.subset_append_left _ _)
        rw [Expr.size]
        exact Nat.lt_succ_of_le (Nat.le_add_right _ _)
      have hy : next y s = liftM (r.evaluateWith expand y s) := by
        refine hparts y s ?_ (List.subset_append_right _ _)
        rw [Expr.size]
        exact Nat.lt_succ_of_le (Nat.le_add_left _ _)
      rw [descend, evaluateWith]
      refine Fuelled.bind_eq_liftM hx fun v => ?_
      split
      · exact Fuelled.pure_eq_liftM _
      · refine Fuelled.bind_eq_liftM hy fun w => ?_
        split
        · exact Fuelled.bind_eq_liftM (Fuelled.pure_eq_liftM _) fun _ => Fuelled.pure_eq_liftM _
        · exact Fuelled.bind_eq_liftM rfl fun _ => Fuelled.pure_eq_liftM _
  | call function args edit? =>
      have hargs (s : Scope) (a : Arg) (ha : a ∈ args) :
          next a.value s = liftM (r.evaluateWith expand a.value s) := by
        refine hparts a.value s ?_ fun b hb => Expr.mem_argsBlockRefs.mpr ⟨a, ha, hb⟩
        rw [Expr.size]
        exact Nat.lt_succ_of_le (Expr.size_le_argsSize ha)
      rw [descend, evaluateWith]
      refine Fuelled.bind_eq_liftM rfl fun f => ?_
      dsimp only
      cases (s.forCall r.ambient f edit?).instance? with
      | none => exact Fuelled.pure_eq_liftM _
      | some i => exact Fuelled.bind_eq_liftM (mapM_eq_evaluateArgs (hargs _)) fun _ => rfl

/-! ### Enough fuel -/

/-- The number of nodes of the largest tree of an attribute. -/
def largestTree (r : Registry) : ℕ :=
  (r.attributes.map fun e => e.2.query.root.size).foldr max 0

/-- The lowest bound above the ranks of the attributes. -/
def rankBound (r : Registry) (rank : String → ℕ) : ℕ :=
  (r.attributes.map fun e => rank e.1 + 1).foldr max 0

/-- The fuel that is enough if the attributes are ranked: for the nodes of the tree, and for those of the
largest attribute as many times as there are ranks. -/
def fuelFor (r : Registry) (rank : String → ℕ) (x : Expr) : ℕ :=
  x.size + r.rankBound rank * r.largestTree

variable {rank : String → ℕ} {n fuel : ℕ} {name : String} {a : Attribute}

theorem size_le_largestTree (h : Assoc.find? r.attributes name = some a) :
    a.query.root.size ≤ r.largestTree :=
  List.le_max_of_le (List.mem_map_of_mem (Assoc.mem_of_find? h)) le_rfl

theorem ranksBelow_rankBound : r.RanksBelow rank x (r.rankBound rank) := by
  intro name a _ hfind
  have hmem : rank name + 1 ∈ r.attributes.map fun e => rank e.1 + 1 :=
    List.mem_map_of_mem (f := fun e => rank e.1 + 1) (Assoc.mem_of_find? hfind)
  exact Nat.lt_of_succ_le (List.le_max_of_le hmem le_rfl)

/-- **With fuel for the nodes and the levels of a tree, evaluation on fuel is evaluation at that
depth.** -/
theorem evaluateWithin_eq (h : r.IsRankedBy rank) (hx : r.RanksBelow rank x n)
    (hfuel : x.size + n * r.largestTree ≤ fuel) :
    r.evaluateWithin fuel x s = liftM (r.evaluateAt n x s) := by
  induction fuel generalizing x n s with
  | zero =>
      have hsize := x.size_pos
      omega
  | succ fuel ih =>
      rw [evaluateWithin, evaluateAt_eq]
      refine descend_eq (fun y s hsize hrefs => ?_) fun name a s hblock hfind => ?_
      · -- A part has fewer nodes and refers to nothing else.
        rw [← evaluateAt_eq]
        exact ih (fun name a hname => hx name a (hrefs hname)) (by omega)
      · -- The nodes of an attribute are paid for by the level that is left behind.
        subst hblock
        have hrank : rank name < n := hx name a List.mem_cons_self hfind
        obtain ⟨n, rfl⟩ : ∃ k, n = k + 1 := ⟨n - 1, by omega⟩
        have hsize := size_le_largestTree hfind
        rw [Expr.size, Nat.succ_mul] at hfuel
        exact ih ((h.ranksBelow hfind).mono (Nat.le_of_lt_succ hrank)) (by omega)

/-- **Among ranked attributes evaluation terminates,** for every tree, item and edit. With the fuel that
the sizes and the ranks ask for, evaluation on fuel is evaluation, and it yields a value or an error that
is not circular. -/
theorem evaluateWithin_eq_evaluate (h : r.IsRankedBy rank) (hfuel : r.fuelFor rank x ≤ fuel)
    (s : Scope) :
    r.evaluateWithin fuel x s = liftM (r.evaluate x s) ∧
      ((∃ v, (r.evaluateWithin fuel x s).run.result = .ok (some v)) ∨
        ∃ e, (r.evaluateWithin fuel x s).run.result = .error e ∧ ∀ name, e ≠ .circular name) := by
  have hfinishes := finishes_evaluateAt h (@ranksBelow_rankBound r x rank) s
  have hsame : r.evaluateWithin fuel x s = liftM (r.evaluate x s) := by
    rw [evaluateWithin_eq h ranksBelow_rankBound hfuel, evaluate_eq_of_finishes hfinishes]
  refine ⟨hsame, ?_⟩
  rw [hsame, Fuelled.result_run_liftM]
  rw [← evaluate_eq_of_finishes hfinishes, Eval.finishes_iff] at hfinishes
  cases hvalue : (r.evaluate x s).result with
  | ok v => exact .inl ⟨v, rfl⟩
  | error e =>
      refine .inr ⟨e, rfl, ?_⟩
      rintro name rfl
      exact hfinishes _ hvalue

/-! ### An attribute that refers to another one -/

/-- A registry with the attribute for the count on the edited variant, which refers to that for the
count. -/
def referringRegistry : Registry :=
  countRegistry.saveAttribute swappedAttribute

/-- The attribute that refers to the other one is above it. -/
def referringRank (name : String) : ℕ :=
  if name = "swapped" then 1 else 0

/-- The count on the edited variant and the count, both by reference. -/
def countsByReference : Expr :=
  .list [.block .attr "swapped", .block .attr "count"]

theorem isRankedBy_referringRank : referringRegistry.IsRankedBy referringRank := by
  rintro name other a ⟨b, hb, hmem⟩ -
  have hb : (if name = "swapped" then some swappedAttribute
      else Assoc.find? countRegistry.attributes name) = some b := by
    rw [← Assoc.find?_insert]
    exact hb
  split at hb
  · next hname =>
      obtain rfl := Option.some.inj hb
      obtain ⟨-, rfl⟩ := Prod.mk.inj (List.mem_singleton.mp hmem)
      subst hname
      decide
  · have hrefers : countRegistry.Refers name other := ⟨b, hb, hmem⟩
    have hname : name = "count" := by
      have hfound := Assoc.mem_of_find? hb
      exact (Prod.mk.inj (List.mem_singleton.mp hfound)).1
    subst hname
    exact absurd hrefers (not_refers_countAttribute other)

/-- The edit is made in the tree of the attribute, and does not go on to what follows. -/
theorem evaluateWithin_countsByReference :
    referringRegistry.IsRankedBy referringRank ∧
      referringRegistry.fuelFor referringRank countsByReference = 7 ∧
      ∃ v, (referringRegistry.evaluateWithin 7 countsByReference
          ⟨swappedItem 4, Instance.noEdit⟩).run.result = .ok (some v) ∧
        v.value.toItems.map Value.number? = [some 2, some 4] := by
  have hfuel : referringRegistry.fuelFor referringRank countsByReference = 7 := by decide +kernel
  have hnumbers : (referringRegistry.evaluate countsByReference
      ⟨swappedItem 4, Instance.noEdit⟩).result.map (·.value.toItems.map Value.number?) =
        .ok [some 2, some 4] := by
    decide +kernel
  obtain ⟨hsame, -⟩ := evaluateWithin_eq_evaluate isRankedBy_referringRank hfuel.le
    ⟨swappedItem 4, Instance.noEdit⟩
  refine ⟨isRankedBy_referringRank, hfuel, ?_⟩
  rw [hsame, Fuelled.result_run_liftM]
  cases hvalue : (referringRegistry.evaluate countsByReference
      ⟨swappedItem 4, Instance.noEdit⟩).result with
  | error e =>
      rw [hvalue] at hnumbers
      cases hnumbers
  | ok v =>
      rw [hvalue] at hnumbers
      exact ⟨v, rfl, Except.ok.inj hnumbers⟩

end Registry

end ErrorAnalysis
