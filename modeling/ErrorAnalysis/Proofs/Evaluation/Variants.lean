import ErrorAnalysis.Proofs.Evaluation.References

/-!
# Variants in Isolation

A call may move on to another variant of the item, but only from the unedited one. Once an edited variant
is in question, evaluation stays with it, also where attributes are expanded: a variant is found by the
edit that it says of itself. So two items with the same variant for an edit have the same value there.

The sources of a value are keys of variants that the item has. They are one key at most if no call moves
on, because there is an edited variant in question or because no call asks for an edit.

## Main definitions

* `Registry.AsksNoEdit`: neither a call of a tree nor its function asks for an edit.

## Main results

* `Registry.sorted_sources_of_evaluateWith`: the sources of a value are a set in order.
* `Registry.sources_of_confines`: where no call moves on there is one source at most.
* `Registry.evaluate_edited_congr`: **a value at an edit depends on the variant for it alone.**
* `Registry.sources_of_evaluate`: **the sources of a value are variants of the item**, and without a
  call that asks for an edit only the unedited one.
-/

namespace ErrorAnalysis

/-! ### Scopes -/

/-- Calls stay with an edited variant. -/
theorem Scope.forCall_of_edited {s : Scope} (h : s.isUnedited = false) (a : Ambient) (f : Function)
    (edit? : Option String) : s.forCall a f edit? = s := by
  rw [forCall, h]
  rfl

/-- The variant for an edit says of itself that the edit made it. -/
theorem Scope.edit_of_instance? {s : Scope} (h : s.isUnedited = false) {i : Instance}
    (hi : s.instance? = some i) : i.rid = s.edit := by
  have hne : s.edit ≠ Instance.noEdit := fun heq => by
    rw [isUnedited, heq, beq_self_eq_true] at h
    cases h
  rw [instance?, Item.byEdit?, if_neg hne] at hi
  have hrid : (i.rid == s.edit) = true := List.find?_some (p := fun i : Instance => i.rid == s.edit) hi
  exact eq_of_beq hrid

theorem Scope.isUnedited_eq_false {s : Scope} (h : s.edit ≠ Instance.noEdit) :
    s.isUnedited = false :=
  beq_false_of_ne h

/-! ### Sets of sources -/

theorem Sourced.sorted_sourcesOf (vs : List Sourced) : SortedSet.Sorted (sourcesOf vs) := by
  have key (sources : SortedSet InstanceKey) (h : SortedSet.Sorted sources) :
      SortedSet.Sorted (vs.foldl (fun sources v => sources.union v.sources) sources) := by
    induction vs generalizing sources with
    | nil => exact h
    | cons v vs ih => exact ih _ (SortedSet.sorted_union h)
  exact key [] List.Pairwise.nil

namespace Registry

variable {r : Registry} {expand : Expansion Traced} {x : Expr} {s s' : Scope} {v : Sourced}

theorem sorted_sources_of_identifier {name : String} :
    SortedSet.Sorted (r.identifier name s).sources := by
  rw [identifier]
  split
  · exact List.Pairwise.nil
  · split
    · exact List.pairwise_singleton _ _
    · exact List.Pairwise.nil

theorem sorted_sources_of_call {f : Function} {i : Instance} {given : List Given}
    (h : (r.call f i given).result = .ok v) : SortedSet.Sorted v.sources := by
  simp only [call, Eval.result_bind_eq_ok, Eval.result_pure_eq_ok] at h
  obtain ⟨bound, -, value, -, rfl⟩ := h
  have hgiven := Sourced.sorted_sourcesOf (given.map (·.value))
  dsimp only
  split
  · exact hgiven.insert
  · exact hgiven

/-- The sources of a value are a set in order. -/
theorem sorted_sources_of_evaluateWith (h : (r.evaluateWith expand x s).result = .ok v) :
    SortedSet.Sorted v.sources := by
  induction x using Expr.induction generalizing s v with
  | noOp =>
      obtain rfl := Eval.result_pure_eq_ok.mp h
      exact List.Pairwise.nil
  | literal l =>
      obtain rfl := Eval.result_pure_eq_ok.mp h
      exact List.Pairwise.nil
  | list items ih =>
      simp only [evaluateWith, Eval.result_bind_eq_ok, Eval.result_pure_eq_ok] at h
      obtain ⟨vs, -, rfl⟩ := h
      exact Sourced.sorted_sourcesOf vs
  | block kind name =>
      rcases sources_of_block h with hsources | ⟨i, -, hsources⟩ <;> rw [hsources]
      · exact List.Pairwise.nil
      · exact List.pairwise_singleton _ _
  | unary op x ih =>
      simp only [evaluateWith, Eval.result_bind_eq_ok, Eval.result_pure_eq_ok] at h
      obtain ⟨w, hw, value, -, rfl⟩ := h
      exact ih (v := w) hw
  | binary op x y ihx ihy =>
      obtain ⟨w, hw, ⟨-, rfl⟩ | ⟨-, u, value, -, -, rfl⟩⟩ := evaluateWith_binary_eq_ok h
      · exact ihx (v := w) hw
      · exact SortedSet.sorted_union (ihx hw)
  | ident name =>
      obtain rfl := Eval.result_pure_eq_ok.mp h
      exact sorted_sources_of_identifier
  | call function args edit? ih =>
      obtain ⟨f, -, ⟨-, rfl⟩ | ⟨i, given, -, -, hcall⟩⟩ := evaluateWith_call_eq_ok h
      · exact List.Pairwise.nil
      · exact sorted_sources_of_call hcall

/-- **Where no call moves on to another variant there is one source at most:** the variant in
question. -/
theorem sources_of_confines (hx : r.Confines x (· = s))
    (h : (r.evaluateWith expand x s).result = .ok v) :
    v.sources = [] ∨ ∃ i, s.instance? = some i ∧ v.sources = [i.key] := by
  have hkey (k : InstanceKey) (hk : k ∈ v.sources) : ∃ i, s.instance? = some i ∧ k = i.key := by
    obtain ⟨t, i, rfl, hi, hk⟩ := exists_scope_of_evaluateWith hx rfl h hk
    exact ⟨i, hi, hk⟩
  cases hi : s.instance? with
  | none =>
      refine .inl (List.eq_nil_iff_forall_not_mem.mpr fun k hk => ?_)
      obtain ⟨i, hsome, -⟩ := hkey k hk
      rw [hi] at hsome
      cases hsome
  | some i =>
      have hall (k : InstanceKey) (hk : k ∈ v.sources) : k = i.key := by
        obtain ⟨j, hj, rfl⟩ := hkey k hk
        rw [hi] at hj
        rw [Option.some.inj hj]
      exact ((sorted_sources_of_evaluateWith h).eq_nil_or_eq_singleton hall).imp_right
        fun hsources => ⟨i, rfl, hsources⟩

/-! ### Edited variants -/

/-- A tree has the same value in two scopes with the same edited variant, if attributes are expanded
alike. -/
theorem evaluateWith_edited_congr (hs : s.isUnedited = false) (hedit : s'.edit = s.edit)
    (hvariant : s'.instance? = s.instance?) (hexpand : ∀ name y, expand name y s' = expand name y s) :
    r.evaluateWith expand x s' = r.evaluateWith expand x s := by
  have hs' : s'.isUnedited = false := by rw [← hs, Scope.isUnedited, Scope.isUnedited, hedit]
  -- Expanding an attribute at the variant in question leads to the same scope again.
  have hsame {i : Instance} (hi : s.instance? = some i) :
      { s' with edit := i.rid } = s' ∧ { s with edit := i.rid } = s := by
    rw [Scope.edit_of_instance? hs hi]
    exact ⟨by rw [← hedit], rfl⟩
  induction x using Expr.induction with
  | noOp => rfl
  | literal l => rfl
  | list items ih => rw [evaluateWith, evaluateWith, evaluateAll_congr ih]
  | block kind name =>
      rw [evaluateWith, evaluateWith]
      cases kind with
      | attr =>
          rw [block, block, hvariant]
          cases Assoc.find? r.attributes name with
          | none => rfl
          | some a =>
              cases hi : s.instance? with
              | none => rfl
              | some i =>
                  obtain ⟨hs', hs⟩ := hsame hi
                  dsimp only
                  rw [hs', hs, hexpand]
      | group => rw [block, block, hvariant]
  | unary op x ih => rw [evaluateWith, evaluateWith, ih]
  | binary op x y ihx ihy => simp only [evaluateWith, ihx, ihy]
  | ident name => rw [evaluateWith, evaluateWith, identifier, identifier, hvariant]
  | call function args edit? ih =>
      simp only [evaluateWith, Scope.forCall_of_edited hs, Scope.forCall_of_edited hs', hvariant,
        evaluateArgs_congr ih]

theorem evaluateAt_edited_congr (hs : s.isUnedited = false) (hedit : s'.edit = s.edit)
    (hvariant : s'.instance? = s.instance?) (depth : ℕ) :
    r.evaluateAt depth x s' = r.evaluateAt depth x s := by
  induction depth generalizing x with
  | zero => exact evaluateWith_edited_congr hs hedit hvariant fun _ _ => rfl
  | succ depth ih => exact evaluateWith_edited_congr hs hedit hvariant fun _ _ => ih

/-- **A value at an edit depends on the variant for it alone.** Two items with the same variant for the
edit, or both without one, have the same value from the same sources there, or the same error. The
variant is the only source. -/
theorem evaluate_edited_congr {item item' : Item} {rid : String} (hrid : rid ≠ Instance.noEdit)
    (hvariant : item'.byEdit? rid = item.byEdit? rid) :
    r.evaluate x ⟨item', rid⟩ = r.evaluate x ⟨item, rid⟩ ∧
      ∀ v, (r.evaluate x ⟨item, rid⟩).result = .ok v →
        v.sources = [] ∨ ∃ i, item.byEdit? rid = some i ∧ v.sources = [i.key] := by
  have hs : (⟨item, rid⟩ : Scope).isUnedited = false := Scope.isUnedited_eq_false hrid
  refine ⟨@evaluateAt_edited_congr r x ⟨item, rid⟩ ⟨item', rid⟩ hs rfl hvariant _, fun v h => ?_⟩
  rw [evaluate, evaluateAt_eq] at h
  refine sources_of_confines (fun _ _ edit? f s _ _ heq => ?_) h
  subst heq
  exact Scope.forCall_of_edited hs r.ambient f edit?

/-! ### The unedited variant -/

/-- Neither a call of a tree nor its function asks for an edit. -/
def AsksNoEdit (r : Registry) (x : Expr) : Prop :=
  ∀ function args edit?, x.HasNode (.call function args edit?) →
    edit? = none ∧ ∀ f, r.functions.get function = .ok f → f.declaredEdit? = none

theorem AsksNoEdit.confines (h : r.AsksNoEdit x) : r.Confines x (· = s) := by
  rintro function args edit? f _ hnode hf rfl
  obtain ⟨rfl, hdeclared⟩ := h function args edit? hnode
  rw [Scope.forCall, hdeclared f hf]
  exact ite_self _

/-- **The sources of a value are variants of the item that it was evaluated on.** At the unedited variant,
this one is the only source unless a call or its function asks for an edit. -/
theorem sources_of_evaluate {item : Item} (hitem : item.IsFiled) {rid : String}
    (h : (r.evaluate x ⟨item, rid⟩).result = .ok v) :
    (∀ k ∈ v.sources, k.qid = item.qid ∧ ∃ i, item.variant? k.vid = some i ∧ i.key = k) ∧
      (rid = Instance.noEdit → r.AsksNoEdit x →
        v.sources = [] ∨ v.sources = [item.uneditedKey]) := by
  constructor
  · intro k hk
    have hmem : k ∈ item.keys := mem_keys_of_evaluate h hk
    exact ⟨hitem.ownsVariants k hmem, hitem.exists_variant? hmem⟩
  · rintro rfl hasks
    rw [evaluate, evaluateAt_eq] at h
    refine (sources_of_confines hasks.confines h).imp_right ?_
    rintro ⟨i, hi, hsources⟩
    rw [Scope.instance?_noEdit] at hi
    rw [hsources, hitem.key_of_variant? hi]
    rfl

/-! ### Two counts of a question -/

/-- A question with a count, and with an edit that makes it two. -/
def swappedItem (count : Number) : Item :=
  ⟨"q1", [(0, ⟨⟨"q1", 0⟩, Instance.noEdit, [("n", .num count)]⟩),
    (1, ⟨⟨"q1", 1⟩, "swap", [("n", .num 2)]⟩)]⟩

/-- The count by reference, at the edit that is selected and at another one. -/
def countsAtEdits : Expr :=
  .list [.call "apply" [.positional (.block .attr "count")] none,
    .call "apply" [.positional (.ident "n")] (some "swap")]

theorem isFiled_swappedItem (count : Number) : (swappedItem count).IsFiled where
  sorted := List.pairwise_pair.mpr rfl
  keyed := by
    intro e he
    rcases List.mem_pair.mp he with rfl | rfl <;> rfl

/-- The edit makes the count two, whatever it was. -/
theorem byEdit?_swappedItem (count : Number) :
    (swappedItem count).byEdit? "swap" = some ⟨⟨"q1", 1⟩, "swap", [("n", .num 2)]⟩ := by
  rw [Item.byEdit?, if_neg (by decide)]
  simp only [swappedItem, Assoc.values, List.map_cons, List.map_nil]
  rfl

/-- At the edit, the counts do not depend on the count before it, and come from the edited variant. -/
theorem evaluate_edited_congr_counts :
    "swap" ≠ Instance.noEdit ∧
    (swappedItem 5).byEdit? "swap" = (swappedItem 4).byEdit? "swap" ∧
    countRegistry.evaluate countsAtEdits ⟨swappedItem 5, "swap"⟩ =
      countRegistry.evaluate countsAtEdits ⟨swappedItem 4, "swap"⟩ ∧
    (countRegistry.evaluate countsAtEdits ⟨swappedItem 4, "swap"⟩).result.map (·.sources) =
      .ok [⟨"q1", 1⟩] := by
  have hrid : "swap" ≠ Instance.noEdit := by decide
  have hvariant : (swappedItem 5).byEdit? "swap" = (swappedItem 4).byEdit? "swap" := by
    rw [byEdit?_swappedItem, byEdit?_swappedItem]
  exact ⟨hrid, hvariant, (evaluate_edited_congr hrid hvariant).1, by decide +kernel⟩

/-- Without an edit, the counts come from both variants of the question, and the count by reference from
the unedited one alone. -/
theorem sources_of_evaluate_counts :
    (∃ v, (countRegistry.evaluate countsAtEdits ⟨swappedItem 4, Instance.noEdit⟩).result = .ok v ∧
      v.sources = [⟨"q1", 0⟩, ⟨"q1", 1⟩] ∧
      ∀ k ∈ v.sources, k.qid = "q1" ∧ ∃ i, (swappedItem 4).variant? k.vid = some i ∧ i.key = k) ∧
    ∃ v, (countRegistry.evaluate (.block .attr "count")
        ⟨swappedItem 4, Instance.noEdit⟩).result = .ok v ∧
      (v.sources = [] ∨ v.sources = [⟨"q1", 0⟩]) := by
  have hok (x : Expr) (ks : List InstanceKey)
      (h : (countRegistry.evaluate x ⟨swappedItem 4, Instance.noEdit⟩).result.map (·.sources) =
        .ok ks) :
      ∃ v, (countRegistry.evaluate x ⟨swappedItem 4, Instance.noEdit⟩).result = .ok v ∧
        v.sources = ks := by
    cases hresult : (countRegistry.evaluate x ⟨swappedItem 4, Instance.noEdit⟩).result with
    | error e =>
        rw [hresult] at h
        cases h
    | ok v =>
        rw [hresult] at h
        exact ⟨v, rfl, Except.ok.inj h⟩
  obtain ⟨v, hv, hsources⟩ := hok countsAtEdits [⟨"q1", 0⟩, ⟨"q1", 1⟩] (by decide +kernel)
  obtain ⟨w, hw, -⟩ := hok (.block .attr "count") [⟨"q1", 0⟩] (by decide +kernel)
  have hasks : countRegistry.AsksNoEdit (.block .attr "count") := by
    intro function args edit? hnode
    cases hnode
  exact ⟨⟨v, hv, hsources, (sources_of_evaluate (isFiled_swappedItem 4) hv).1⟩, w, hw,
    (sources_of_evaluate (isFiled_swappedItem 4) hw).2 rfl hasks⟩

end Registry

end ErrorAnalysis
