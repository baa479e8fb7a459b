import ErrorAnalysis.Proofs.Data.Filing
import ErrorAnalysis.Proofs.Evaluation.Results
import ErrorAnalysis.Proofs.Syntax.Trees

/-!
# Where Values Come From

The instances that a value came from are variants of the item that the tree was evaluated on. In
particular a result is recorded under a key of that item.

## Main definitions

* `Registry.Confines`: the calls of a tree do not leave a class of scopes.

## Main results

* `Registry.exists_scope_of_evaluateWith`: sources are keys of variants that evaluation was at.
* `Registry.mem_keys_of_evaluateWith`: **sources are keys of the item.**
* `Registry.recordKey_mem`: so is the key under which a result is recorded, unless it is that of the
  unedited variant.
-/

namespace ErrorAnalysis

/-! ### Scopes -/

/-- The variant in question is one of the item. -/
theorem Scope.mem_instances {s : Scope} {i : Instance} (h : s.instance? = some i) :
    i ∈ s.item.instances := by
  rw [Scope.instance?, Item.byEdit?] at h
  split at h
  · exact Item.mem_instances_of_variant? h
  · exact List.mem_of_find?_eq_some h

theorem Scope.key_mem {s : Scope} {i : Instance} (h : s.instance? = some i) :
    i.key ∈ s.item.keys :=
  List.mem_map_of_mem (mem_instances h)

theorem Scope.instance?_noEdit (item : Item) :
    (⟨item, Instance.noEdit⟩ : Scope).instance? = item.unedited? := by
  rw [instance?, Item.byEdit?, if_pos rfl]

/-- A call stays with the item. -/
@[simp] theorem Scope.forCall_item (s : Scope) (a : Ambient) (f : Function)
    (edit? : Option String) : (s.forCall a f edit?).item = s.item := by
  unfold forCall
  split
  · split <;> rfl
  · rfl

/-! ### Sources -/

theorem Sourced.mem_sourcesOf {vs : List Sourced} {k : InstanceKey} :
    k ∈ sourcesOf vs ↔ ∃ v ∈ vs, k ∈ v.sources := by
  have key (sources : SortedSet InstanceKey) :
      k ∈ vs.foldl (fun sources v => sources.union v.sources) sources ↔
        k ∈ sources ∨ ∃ v ∈ vs, k ∈ v.sources := by
    induction vs generalizing sources with
    | nil => simp
    | cons v vs ih =>
        rw [List.foldl_cons, ih, SortedSet.mem_union, List.exists_mem_cons_iff, or_assoc]
  rw [sourcesOf, key]
  simp

namespace Registry

variable {r : Registry} {expand : Expansion Traced}

/-- An entry came from the variant in question, and a name that is none came from nowhere. -/
theorem eq_key_of_identifier {name : String} {s : Scope} {k : InstanceKey}
    (hk : k ∈ (r.identifier name s).sources) : ∃ i, s.instance? = some i ∧ k = i.key := by
  rw [identifier] at hk
  split at hk
  · cases hk
  · next i hi =>
      split at hk
      · exact ⟨i, hi, List.mem_singleton.mp hk⟩
      · cases hk

/-- What a block yields came from the variant in question alone, however attributes are expanded. -/
theorem sources_of_block {kind : BlockKind} {name : String} {s : Scope} {v : Sourced}
    (h : (r.block expand kind name s).result = .ok v) :
    v.sources = [] ∨ ∃ i, s.instance? = some i ∧ v.sources = [i.key] := by
  have hsingle {i : Instance} {value : Value} (hi : s.instance? = some i)
      (heq : Sourced.ofInstance i value = v) : ∃ i, s.instance? = some i ∧ v.sources = [i.key] := by
    subst heq
    exact ⟨i, hi, rfl⟩
  cases kind with
  | attr =>
      rw [block] at h
      split at h
      · cases h
      · split at h
        · obtain rfl := Eval.result_pure_eq_ok.mp h
          exact .inl rfl
        · next hi =>
            split at h
            · exact .inr (hsingle hi (Eval.result_pure_eq_ok.mp h))
            · simp only [Eval.result_bind_eq_ok, Eval.result_pure_eq_ok] at h
              obtain ⟨w, -, heq⟩ := h
              exact .inr (hsingle hi heq)
  | group =>
      rw [block] at h
      split at h
      · cases h
      · split at h
        · obtain rfl := Eval.result_pure_eq_ok.mp h
          exact .inl rfl
        · next hi => exact .inr (hsingle hi (Eval.result_pure_eq_ok.mp h))

theorem mem_sources_of_call {f : Function} {i : Instance} {given : List Given} {v : Sourced}
    (h : (r.call f i given).result = .ok v) {k : InstanceKey} (hk : k ∈ v.sources) :
    k = i.key ∨ ∃ g ∈ given, k ∈ g.value.sources := by
  simp only [call, Eval.result_bind_eq_ok, Eval.result_pure_eq_ok] at h
  obtain ⟨bound, -, value, -, rfl⟩ := h
  have hgiven : k ∈ Sourced.sourcesOf (given.map (·.value)) → ∃ g ∈ given, k ∈ g.value.sources := by
    rw [Sourced.mem_sourcesOf]
    rintro ⟨w, hw, hk⟩
    obtain ⟨g, hg, rfl⟩ := List.mem_map.mp hw
    exact ⟨g, hg, hk⟩
  split at hk
  · exact (SortedSet.mem_insert.mp hk).imp id hgiven
  · exact .inr (hgiven hk)

/-- A class of scopes is not left by the calls of a tree. -/
def Confines (r : Registry) (x : Expr) (P : Scope → Prop) : Prop :=
  ∀ function args edit? f s, x.HasNode (.call function args edit?) →
    r.functions.get function = .ok f → P s → P (s.forCall r.ambient f edit?)

theorem Confines.mono {x y : Expr} {P : Scope → Prop} (h : r.Confines x P)
    (hnode : ∀ z, y.HasNode z → x.HasNode z) : r.Confines y P :=
  fun function args edit? f s hcall => h function args edit? f s (hnode _ hcall)

/-- **Sources are keys of variants that evaluation was at.** A class of scopes that is not left has all
of them. -/
theorem exists_scope_of_evaluateWith {P : Scope → Prop} {x : Expr} {s : Scope} {v : Sourced}
    (hx : r.Confines x P) (hs : P s) (h : (r.evaluateWith expand x s).result = .ok v) {k : InstanceKey}
    (hk : k ∈ v.sources) : ∃ t i, P t ∧ t.instance? = some i ∧ k = i.key := by
  induction x using Expr.induction generalizing s v with
  | noOp =>
      obtain rfl := Eval.result_pure_eq_ok.mp h
      cases hk
  | literal l =>
      obtain rfl := Eval.result_pure_eq_ok.mp h
      cases hk
  | list items ih =>
      simp only [evaluateWith, Eval.result_bind_eq_ok, Eval.result_pure_eq_ok] at h
      obtain ⟨vs, hvs, rfl⟩ := h
      obtain ⟨w, hw, hk⟩ := Sourced.mem_sourcesOf.mp hk
      obtain ⟨y, hy, hval⟩ := exists_mem_of_evaluateAll hvs hw
      exact ih y hy (hx.mono fun _ => .item hy) hs hval hk
  | block kind name =>
      rcases sources_of_block h with hnil | ⟨i, hi, hsingle⟩
      · rw [hnil] at hk
        cases hk
      · rw [hsingle] at hk
        exact ⟨s, i, hs, hi, List.mem_singleton.mp hk⟩
  | unary op x ih =>
      simp only [evaluateWith, Eval.result_bind_eq_ok, Eval.result_pure_eq_ok] at h
      obtain ⟨w, hw, value, -, rfl⟩ := h
      exact ih (hx.mono fun _ => .operand) hs hw hk
  | binary op x y ihx ihy =>
      have hleft : r.Confines x P := hx.mono fun _ => .left
      have hright : r.Confines y P := hx.mono fun _ => .right
      obtain ⟨w, hw, ⟨-, rfl⟩ | ⟨-, u, value, hu, -, rfl⟩⟩ := evaluateWith_binary_eq_ok h
      · exact ihx hleft hs hw hk
      · rcases SortedSet.mem_union.mp hk with hk | hk
        · exact ihx hleft hs hw hk
        · exact ihy hright hs hu hk
  | ident name =>
      obtain rfl := Eval.result_pure_eq_ok.mp h
      obtain ⟨i, hi, rfl⟩ := eq_key_of_identifier hk
      exact ⟨s, i, hs, hi, rfl⟩
  | call function args edit? ih =>
      obtain ⟨f, hf, ⟨-, rfl⟩ | ⟨i, given, hi, hgiven, hvalue⟩⟩ := evaluateWith_call_eq_ok h
      · cases hk
      have hthere : P (s.forCall r.ambient f edit?) := hx _ _ _ f s (.self _) hf hs
      rcases mem_sources_of_call hvalue hk with rfl | ⟨g, hg, hk⟩
      · exact ⟨_, i, hthere, hi, rfl⟩
      obtain ⟨a, ha, harg⟩ := exists_mem_of_evaluateArgs hgiven hg
      rcases evaluateArg_eq_ok harg with hnone | hval
      · rw [hnone] at hk
        cases hk
      · exact ih a ha (hx.mono fun _ => .argument ha) hthere hval hk

/-- **Sources are keys of the item that a tree is evaluated on.** -/
theorem mem_keys_of_evaluateWith {x : Expr} {s : Scope} {v : Sourced}
    (h : (r.evaluateWith expand x s).result = .ok v) {k : InstanceKey} (hk : k ∈ v.sources) :
    k ∈ s.item.keys := by
  have hitem : r.Confines x fun t => t.item = s.item :=
    fun _ _ edit? f t _ _ ht => (Scope.forCall_item t r.ambient f edit?).trans ht
  obtain ⟨t, i, ht, hi, rfl⟩ := exists_scope_of_evaluateWith hitem rfl h hk
  rw [← ht]
  exact Scope.key_mem hi

theorem mem_keys_of_evaluate {x : Expr} {s : Scope} {v : Sourced}
    (h : (r.evaluate x s).result = .ok v) {k : InstanceKey} (hk : k ∈ v.sources) :
    k ∈ s.item.keys := by
  rw [evaluate] at h
  cases hdepth : r.maxDepth with
  | zero =>
      rw [hdepth, evaluateAt] at h
      exact mem_keys_of_evaluateWith h hk
  | succ depth =>
      rw [hdepth, evaluateAt] at h
      exact mem_keys_of_evaluateWith h hk

/-- A result is recorded under a key of the item, or under that of its unedited variant. -/
theorem recordKey_mem {x : Expr} {s : Scope} {v : Sourced}
    (h : (r.evaluate x s).result = .ok v) (qid : String) :
    v.recordKey qid = InstanceKey.unedited qid ∨ v.recordKey qid ∈ s.item.keys := by
  rw [Sourced.recordKey]
  split
  · next hsources =>
      refine .inr (mem_keys_of_evaluate h ?_)
      rw [hsources]
      exact List.mem_cons_self
  · exact .inl rfl

/-! ### A dataset with an edit -/

/-- A question with a count and with an edit that changes it, and a question without one. -/
def countedQuestions : Dataset :=
  .ofInstances [
    ⟨⟨"q1", 0⟩, Instance.noEdit, [("n", .num 4)]⟩,
    ⟨⟨"q1", 1⟩, "swap", [("n", .num 2)]⟩,
    ⟨⟨"q2", 0⟩, Instance.noEdit, []⟩]

end Registry

end ErrorAnalysis
