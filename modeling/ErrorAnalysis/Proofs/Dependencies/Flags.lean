import ErrorAnalysis.Proofs.Evaluation.References
import ErrorAnalysis.Query.Compile

/-!
# Dependencies of Trees

The dependencies of a tree are above those of all of its nodes. They are found when a query is
compiled, from the blocks that are registered then. As long as these blocks stay, and the attributes
among them are in the same position, the dependencies of the query are above those of every node that
its evaluation visits.

## Main definitions

* `Registry.Keeps`: the functions and the blocks of a tree are still the same.
* `Registry.IsCurrent`: a query and the attributes that it reaches were compiled from the blocks that
  are registered.

## Main results

* `Registry.dependencies_le_of_hasNode`: **a tree has the dependencies of its nodes.**
* `Registry.IsCurrent.dependencies_le`: **a current query has those of all nodes that are visited.**
-/

namespace ErrorAnalysis

/-! ### Order -/

namespace Dependencies

/-- Dependencies are ordered by what they include. -/
instance : Preorder Dependencies where
  le a b := (a.model = true → b.model = true) ∧ (a.edit = true → b.edit = true)
  le_refl _ := ⟨id, id⟩
  le_trans _ _ _ h h' := ⟨h'.1 ∘ h.1, h'.2 ∘ h.2⟩

variable {a b : Dependencies}

theorem le_merge_left : a ≤ a.merge b :=
  ⟨fun h => Bool.or_eq_true_iff.mpr (.inl h), fun h => Bool.or_eq_true_iff.mpr (.inl h)⟩

theorem le_merge_right : b ≤ a.merge b :=
  ⟨fun h => Bool.or_eq_true_iff.mpr (.inr h), fun h => Bool.or_eq_true_iff.mpr (.inr h)⟩

theorem le_foldl_merge {ds : List Dependencies} (h : a ≤ b ∨ a ∈ ds) : a ≤ ds.foldl merge b := by
  induction ds generalizing b with
  | nil => exact h.elim id fun h => by cases h
  | cons d ds ih =>
      refine ih ?_
      rcases h with h | h
      · exact .inl (h.trans le_merge_left)
      · rcases List.mem_cons.mp h with rfl | h
        · exact .inl le_merge_right
        · exact .inr h

theorem le_mergeAll {ds : List Dependencies} (h : a ∈ ds) : a ≤ mergeAll ds :=
  le_foldl_merge (.inr h)

theorem model_eq_false (h : a ≤ b) (hb : b.model = false) : a.model = false := by
  refine Bool.eq_false_iff.mpr fun ha => ?_
  rw [h.1 ha] at hb
  cases hb

theorem edit_eq_false (h : a ≤ b) (hb : b.edit = false) : a.edit = false := by
  refine Bool.eq_false_iff.mpr fun ha => ?_
  rw [h.2 ha] at hb
  cases hb

/-- A name without a dependency on the model is not the one that stands for it. -/
theorem ne_anchor_of_ofName {name : String} (h : (ofName name).model = false) :
    name ≠ Ambient.anchor := by
  rintro rfl
  cases h

/-- A name without a dependency on the edit is not the one that stands for it. -/
theorem ne_selected_of_ofName {name : String} (h : (ofName name).edit = false) :
    name ≠ Ambient.selected := by
  rintro rfl
  cases h

end Dependencies

namespace Registry

variable {r r' : Registry} {x y : Expr} {q : Query.Compiled} {name : String} {a : Attribute}

/-! ### Parts of a tree -/

theorem dependencies_le_all {items : List Expr} (h : x ∈ items) :
    r.dependencies x ≤ r.allDependencies items := by
  induction items with
  | nil => cases h
  | cons z items ih =>
      rw [allDependencies]
      rcases List.mem_cons.mp h with rfl | h
      · exact Dependencies.le_merge_left
      · exact (ih h).trans Dependencies.le_merge_right

theorem dependencies_le_args {args : List Arg} {arg : Arg} (h : arg ∈ args) :
    r.dependencies arg.value ≤ r.argsDependencies args := by
  induction args with
  | nil => cases h
  | cons b args ih =>
      rw [argsDependencies]
      rcases List.mem_cons.mp h with rfl | h
      · have hvalue : r.argDependencies arg = r.dependencies arg.value := by cases arg <;> rfl
        rw [← hvalue]
        exact Dependencies.le_merge_left
      · exact (ih h).trans Dependencies.le_merge_right

/-- **A tree has the dependencies of its nodes.** -/
theorem dependencies_le_of_hasNode (h : x.HasNode y) : r.dependencies y ≤ r.dependencies x := by
  induction h with
  | self x => exact le_rfl
  | item hx _ ih => exact ih.trans (dependencies_le_all hx)
  | operand _ ih => exact ih
  | left _ ih => exact ih.trans Dependencies.le_merge_left
  | right _ ih => exact ih.trans Dependencies.le_merge_right
  | argument ha _ ih =>
      exact ih.trans ((dependencies_le_args ha).trans Dependencies.le_merge_right)

section Calls

variable {function : String} {args : List Arg} {edit? : Option String} {f : Function}

/-- A call has the dependencies of the edit that it asks for. -/
theorem ofName_le_of_edit {rid : String} :
    Dependencies.ofName rid ≤ r.dependencies (.call function args (some rid)) := by
  have hcall : Dependencies.ofName rid ≤ r.callDependencies function args (some rid) := by
    rw [callDependencies]
    cases r.functions.get function with
    | ok f => exact Dependencies.le_merge_left
    | error e => exact le_rfl
  exact hcall.trans Dependencies.le_merge_left

/-- A call has the dependencies of the texts that it leaves parameters to. -/
theorem ofName_le_of_omitted (hf : r.functions.get function = .ok f) {p : Param} {text : String}
    (hp : p ∈ omittedParams f args edit?.isSome) (htext : p.default?.bind Value.str? = some text) :
    Dependencies.ofName text ≤ r.dependencies (.call function args edit?) := by
  have hdefault : Dependencies.ofName text ≤ defaultDependencies f args edit?.isSome := by
    refine Dependencies.le_mergeAll (List.mem_map_of_mem ?_)
    exact List.mem_filterMap.mpr ⟨p, hp, htext⟩
  have hcall : defaultDependencies f args edit?.isSome ≤ r.callDependencies function args edit? := by
    rw [callDependencies, hf]
    exact Dependencies.le_merge_right
  exact hdefault.trans (hcall.trans Dependencies.le_merge_left)

end Calls

/-! ### Compiled queries -/

/-- A query that was compiled has the dependencies of its tree. -/
theorem compile_eq_ok {cmd : String} (h : r.compile cmd = .ok q) :
    Query.parse cmd = .ok q.root ∧ q.cmd = cmd ∧ q.deps = r.dependencies q.root := by
  rw [compile] at h
  split at h
  · cases h
  · next root hroot =>
      obtain rfl := Except.ok.inj h
      exact ⟨hroot, rfl, rfl⟩

theorem compile_of_parse {cmd : String} (h : Query.parse cmd = .ok x) :
    r.compile cmd = .ok ⟨cmd, x, r.dependencies x⟩ := by
  rw [compile, h]

/-- The functions and the blocks that a tree refers to are the same in two registries. -/
structure Keeps (r r' : Registry) (x : Expr) : Prop where
  functions : r'.functions = r.functions
  attributes : ∀ name, (.attr, name) ∈ x.blockRefs →
    Assoc.find? r'.attributes name = Assoc.find? r.attributes name
  groups : ∀ name, (.group, name) ∈ x.blockRefs →
    Assoc.find? r'.groups name = Assoc.find? r.groups name

/-- Dependencies are found from the functions and from the blocks that a tree refers to. -/
theorem Keeps.dependencies (h : r.Keeps r' x) : r'.dependencies x = r.dependencies x := by
  induction x using Expr.induction with
  | noOp => rfl
  | literal l => cases l <;> rfl
  | list items ih =>
      have hitems : r'.allDependencies items = r.allDependencies items := by
        have hx : ∀ x ∈ items, r'.dependencies x = r.dependencies x := fun x hx =>
          ih x hx ⟨h.functions,
            fun name hb => h.attributes name (Expr.mem_listBlockRefs.mpr ⟨x, hx, hb⟩),
            fun name hb => h.groups name (Expr.mem_listBlockRefs.mpr ⟨x, hx, hb⟩)⟩
        clear ih h
        induction items with
        | nil => rfl
        | cons x items ih =>
            obtain ⟨hx, hitems⟩ := List.forall_mem_cons.mp hx
            rw [allDependencies, allDependencies, hx, ih hitems]
      rw [Registry.dependencies, Registry.dependencies, hitems]
  | block kind name =>
      rw [Registry.dependencies, Registry.dependencies]
      cases kind with
      | attr => rw [blockDependencies, blockDependencies, h.attributes name List.mem_cons_self]
      | group => rw [blockDependencies, blockDependencies, h.groups name List.mem_cons_self]
  | unary op x ih => exact ih ⟨h.functions, h.attributes, h.groups⟩
  | binary op x y ihx ihy =>
      rw [Registry.dependencies, Registry.dependencies, ihx, ihy]
      · exact ⟨h.functions, fun name hb => h.attributes name (List.mem_append_right _ hb),
          fun name hb => h.groups name (List.mem_append_right _ hb)⟩
      · exact ⟨h.functions, fun name hb => h.attributes name (List.mem_append_left _ hb),
          fun name hb => h.groups name (List.mem_append_left _ hb)⟩
  | ident name => rfl
  | call function args edit? ih =>
      have hargs : r'.argsDependencies args = r.argsDependencies args := by
        have ha : ∀ a ∈ args, r'.argDependencies a = r.argDependencies a := by
          intro a ha
          have hvalue := ih a ha ⟨h.functions,
            fun name hb => h.attributes name (Expr.mem_argsBlockRefs.mpr ⟨a, ha, hb⟩),
            fun name hb => h.groups name (Expr.mem_argsBlockRefs.mpr ⟨a, ha, hb⟩)⟩
          cases a <;> exact hvalue
        clear ih h
        induction args with
        | nil => rfl
        | cons a args ih =>
            obtain ⟨ha, hargs⟩ := List.forall_mem_cons.mp ha
            rw [argsDependencies, argsDependencies, ha, ih hargs]
      rw [Registry.dependencies, Registry.dependencies, callDependencies, callDependencies,
        h.functions, hargs]

theorem Keeps.refl (r : Registry) (x : Expr) : r.Keeps r x :=
  ⟨rfl, fun _ _ => rfl, fun _ _ => rfl⟩

/-- A query was compiled from its command when the functions and the blocks that it refers to were
those of the registry. -/
def IsCompiled (r : Registry) (q : Query.Compiled) : Prop :=
  ∃ r₀ : Registry, r₀.compile q.cmd = .ok q ∧ r₀.Keeps r q.root

/-- A query was compiled from the blocks of the registry, and so were the attributes that it
reaches. -/
structure IsCurrent (r : Registry) (q : Query.Compiled) : Prop where
  query : r.IsCompiled q
  attributes : ∀ name a, r.Reaches q.root name → Assoc.find? r.attributes name = some a →
    r.IsCompiled a.query

theorem IsCompiled.deps_eq (h : r.IsCompiled q) : q.deps = r.dependencies q.root := by
  obtain ⟨r₀, hcompile, hkeeps⟩ := h
  rw [hkeeps.dependencies]
  exact (compile_eq_ok hcompile).2.2

/-- The attributes of a tree are part of its dependencies. -/
theorem IsCompiled.deps_le (h : r.IsCompiled q) (hname : (.attr, name) ∈ q.root.blockRefs)
    (hfind : Assoc.find? r.attributes name = some a) : a.query.deps ≤ q.deps := by
  have hblock : r.dependencies (.block .attr name) = a.query.deps := by
    rw [dependencies, blockDependencies, hfind]
    rfl
  rw [h.deps_eq, ← hblock]
  exact dependencies_le_of_hasNode (Expr.hasNode_of_mem_blockRefs hname)

theorem isCompiled_of_compile {cmd : String} (h : r.compile cmd = .ok q) : r.IsCompiled q := by
  obtain ⟨-, rfl, -⟩ := compile_eq_ok h
  exact ⟨r, h, .refl r _⟩

/-- So are the attributes that are reached. -/
theorem IsCurrent.deps_le (h : r.IsCurrent q) (hname : r.Reaches q.root name)
    (hfind : Assoc.find? r.attributes name = some a) : a.query.deps ≤ q.deps := by
  obtain ⟨first, hfirst, hsteps⟩ := hname
  induction hsteps generalizing a with
  | refl => exact h.query.deps_le hfirst hfind
  | tail hsteps hstep ih =>
      obtain ⟨b, hb, hmem⟩ := hstep
      have hcompiled := h.attributes _ b ⟨first, hfirst, hsteps⟩ hb
      exact (hcompiled.deps_le hmem hfind).trans (ih hb)

/-- **A current query has the dependencies of all nodes that its evaluation visits.** -/
theorem IsCurrent.dependencies_le (h : r.IsCurrent q) (hy : r.Visits q.root y) :
    r.dependencies y ≤ q.deps := by
  rcases hy with hnode | ⟨name, a, hname, hfind, hnode⟩
  · rw [h.query.deps_eq]
    exact dependencies_le_of_hasNode hnode
  · refine le_trans ?_ (h.deps_le hname hfind)
    rw [(h.attributes name a hname hfind).deps_eq]
    exact dependencies_le_of_hasNode hnode

/-- A query without blocks is current where it was compiled. -/
theorem isCurrent_of_compile {cmd : String} (h : r.compile cmd = .ok q)
    (hrefs : q.root.blockRefs = []) : r.IsCurrent q := by
  refine ⟨isCompiled_of_compile h, fun name a hname _ => ?_⟩
  obtain ⟨first, hfirst, -⟩ := hname
  rw [hrefs] at hfirst
  cases hfirst

end Registry

end ErrorAnalysis
