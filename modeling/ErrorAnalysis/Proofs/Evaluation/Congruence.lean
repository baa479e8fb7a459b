import ErrorAnalysis.Proofs.Evaluation.Sources
import ErrorAnalysis.Proofs.Evaluation.Surroundings
import ErrorAnalysis.Proofs.Syntax.Trees

/-!
# Evaluation and the Nodes of a Tree

What evaluation reads of a registry is its functions, the blocks that the tree refers to, and the
surroundings, the latter at identifiers and calls only. Two registries with the same functions
evaluate a tree alike if its blocks have the same values in both and its identifiers and calls do
the same. Other patterns in store make no difference to identifiers and calls.

## Main definitions

* `Registry.AgreeAt`: two registries do the same at an identifier or a call.

## Main results

* `Registry.block_congr`: a block has the same value if it is the same and is expanded alike.
* `Registry.evaluateWith_congr_on`: **a tree has the same value on an item if its blocks have and its
  nodes agree.**
* `Registry.evaluateWith_congr`: the same for registries that are alike.
-/

namespace ErrorAnalysis

namespace Registry

variable {r r' : Registry} {expand expand' : Expansion Traced} {item : Item} {s s' : Scope}

/-! ### Several trees -/

theorem evaluateAll_congr {xs : List Expr}
    (h : ∀ x ∈ xs, r'.evaluateWith expand' x s' = r.evaluateWith expand x s) :
    r'.evaluateAll expand' xs s' = r.evaluateAll expand xs s := by
  induction xs with
  | nil => rfl
  | cons x xs ih =>
      obtain ⟨hx, hxs⟩ := List.forall_mem_cons.mp h
      rw [evaluateAll, evaluateAll, hx, ih hxs]

theorem evaluateArg_congr {a : Arg}
    (h : r'.evaluateWith expand' a.value s' = r.evaluateWith expand a.value s) :
    r'.evaluateArg expand' a s' = r.evaluateArg expand a s := by
  cases a with
  | positional x =>
      rw [Arg.value] at h
      rw [evaluateArg, evaluateArg, h]
  | named name x =>
      rw [Arg.value] at h
      rw [evaluateArg, evaluateArg, h]

theorem evaluateArgs_congr {args : List Arg}
    (h : ∀ a ∈ args, r'.evaluateWith expand' a.value s' = r.evaluateWith expand a.value s) :
    r'.evaluateArgs expand' args s' = r.evaluateArgs expand args s := by
  induction args with
  | nil => rfl
  | cons a args ih =>
      obtain ⟨ha, hargs⟩ := List.forall_mem_cons.mp h
      rw [evaluateArgs, evaluateArgs, evaluateArg_congr ha, ih hargs]

/-! ### Surroundings -/

theorem Alike.defaultModel? (h : r.Alike r') :
    r'.ambient.defaultModel? = r.ambient.defaultModel? := by
  rw [h.ambient, Ambient.defaultModel?_withPatterns]

theorem Alike.identifier (h : r.Alike r') (name : String) :
    r'.identifier name s = r.identifier name s := by
  rw [Registry.identifier, Registry.identifier, h.defaultModel?]

theorem Alike.forCall (h : r.Alike r') (f : Function) (edit? : Option String) :
    s.forCall r'.ambient f edit? = s.forCall r.ambient f edit? := by
  rw [h.ambient]
  rfl

theorem Alike.call (h : r.Alike r') (f : Function) (i : Instance) (given : List Given) :
    r'.call f i given = r.call f i given := by
  unfold Registry.call
  rw [h.defaultModel?, h.ambient]
  simp only [Builtin.run_withPatterns]

/-! ### Trees -/

/-- An attribute has the same value if it is the same and its tree is expanded alike for the variant
in question, and a group has the same members. -/
theorem block_congr {kind : BlockKind} {name : String}
    (hattr : kind = .attr → Assoc.find? r'.attributes name = Assoc.find? r.attributes name)
    (hgroup : kind = .group → Assoc.find? r'.groups name = Assoc.find? r.groups name)
    (hexpand : ∀ a (i : Instance), kind = .attr → Assoc.find? r.attributes name = some a →
      expand' name a.query.root { s with edit := i.rid } =
        expand name a.query.root { s with edit := i.rid }) :
    r'.block expand' kind name s = r.block expand kind name s := by
  cases kind with
  | attr =>
      rw [block, block, hattr rfl]
      cases hfind : Assoc.find? r.attributes name with
      | none => rfl
      | some a =>
          have hsame (i : Instance) := hexpand a i rfl hfind
          simp only [hsame]
  | group => rw [block, block, hgroup rfl]

/-- Two registries do the same at a node on an item, if the node is an identifier or a call. A call
has to do the same on the arguments that the first registry yields. -/
def AgreeAt (r r' : Registry) (expand : Expansion Traced) (item : Item) : Expr → Prop
  | .ident name => ∀ s : Scope, s.item = item → r'.identifier name s = r.identifier name s
  | .call function args edit? => ∀ f, r.functions.get function = .ok f →
      ∀ s : Scope, s.item = item →
        s.forCall r'.ambient f edit? = s.forCall r.ambient f edit? ∧
        ∀ i given, (s.forCall r.ambient f edit?).instance? = some i →
          (r.evaluateArgs expand args (s.forCall r.ambient f edit?)).result = .ok given →
          r'.call f i given = r.call f i given
  | _ => True

/-- **A tree has the same value on an item in two registries if its blocks have and its nodes
agree.** -/
theorem evaluateWith_congr_on (hfunctions : r'.functions = r.functions) {x : Expr}
    (hblock : ∀ b ∈ x.blockRefs, ∀ s : Scope, s.item = item →
      r'.block expand' b.1 b.2 s = r.block expand b.1 b.2 s)
    (hnode : ∀ y, x.HasNode y → AgreeAt r r' expand item y) (hs : s.item = item) :
    r'.evaluateWith expand' x s = r.evaluateWith expand x s := by
  induction x using Expr.induction generalizing s with
  | noOp => rfl
  | literal l => rfl
  | list items ih =>
      have hitems : ∀ x ∈ items, r'.evaluateWith expand' x s = r.evaluateWith expand x s := by
        intro x hx
        refine ih x hx (fun b hb => ?_) (fun y hy => hnode y (.item hx hy)) hs
        exact hblock b (Expr.mem_listBlockRefs.mpr ⟨x, hx, hb⟩)
      rw [evaluateWith, evaluateWith, evaluateAll_congr hitems]
  | block kind name => exact hblock (kind, name) List.mem_cons_self s hs
  | unary op x ih =>
      rw [evaluateWith, evaluateWith, ih hblock (fun y hy => hnode y (.operand hy)) hs]
  | binary op x y ihx ihy =>
      have hx := ihx (fun b hb => hblock b (List.mem_append_left _ hb))
        (fun z hz => hnode z (.left hz)) hs
      have hy := ihy (fun b hb => hblock b (List.mem_append_right _ hb))
        (fun z hz => hnode z (.right hz)) hs
      simp only [evaluateWith, hx, hy]
  | ident name => rw [evaluateWith, evaluateWith, hnode _ (.self _) s hs]
  | call function args edit? ih =>
      rw [evaluateWith, evaluateWith, hfunctions]
      refine Eval.bind_congr fun f hf => ?_
      rw [Eval.result_liftM] at hf
      obtain ⟨hscope, hcall⟩ := hnode _ (.self _) f hf s hs
      have hargs : r'.evaluateArgs expand' args (s.forCall r.ambient f edit?) =
          r.evaluateArgs expand args (s.forCall r.ambient f edit?) := by
        refine evaluateArgs_congr fun a ha => ih a ha (fun b hb => ?_)
          (fun y hy => hnode y (.argument ha hy)) ((Scope.forCall_item ..).trans hs)
        exact hblock b (Expr.mem_argsBlockRefs.mpr ⟨a, ha, hb⟩)
      dsimp only
      rw [hscope, hargs]
      cases hi : (s.forCall r.ambient f edit?).instance? with
      | none => rfl
      | some i => exact Eval.bind_congr fun given hgiven => hcall i given hi hgiven

/-- **A tree has the same value in two registries that are alike if its blocks have.** -/
theorem evaluateWith_congr (h : r.Alike r') {x : Expr}
    (hblock : ∀ b ∈ x.blockRefs, ∀ s, r'.block expand' b.1 b.2 s = r.block expand b.1 b.2 s)
    (s : Scope) : r'.evaluateWith expand' x s = r.evaluateWith expand x s := by
  refine evaluateWith_congr_on h.functions (fun b hb s _ => hblock b hb s) (fun y _ => ?_) rfl
  cases y with
  | ident name => exact fun s _ => h.identifier name
  | call function args edit? =>
      exact fun f _ s _ => ⟨h.forCall f edit?, fun i given _ _ => h.call f i given⟩
  | _ => trivial

end Registry

end ErrorAnalysis
