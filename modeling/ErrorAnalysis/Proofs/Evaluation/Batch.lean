import ErrorAnalysis.Eval.Batch
import ErrorAnalysis.Proofs.Evaluation.Sources

/-!
# Values of a Run over Items

Each value that a run over many items has recorded is the result of one of the items. In a dataset
in order no two items share a key, so what stands under the key of an unedited variant is the result
of its own item, whatever policy the run follows.

## Main definitions

* `Registry.Yields`: an entry is the result of an item.
* `Registry.Completes`: nothing ends a run early.

## Main results

* `Registry.values_evaluateFrom_induction`: **induction over what a run records.**
* `Registry.exists_of_mem_evaluateOver`: every value is the result of an item.
* `Registry.eq_of_qid_eq_evaluateOver`: no question has two values.
* `Registry.values_evaluateOver_congr`: **what is recorded does not depend on the order of the items.**
* `Registry.result_of_find?_evaluateOver`: **the value of an unedited variant is the result of its
  item.**
-/

namespace ErrorAnalysis

/-! ### Recording -/

/-- A value is kept and recorded under its key, or nothing changes. -/
theorem Outcome.mem_record {o : Outcome} {kind : BlockKind} {qid : String} {v : Sourced}
    {e : InstanceKey × Value} (he : e ∈ (o.record kind qid v).values) :
    e ∈ o.values ∨ e = (v.recordKey qid, v.value) := by
  rw [record] at he
  split at he
  · exact (Assoc.mem_insert he).symm
  · exact .inl he

/-- A value that counts is found under a key if it was there, or is recorded under it now, and no other
value takes its place. -/
theorem Outcome.find?_record {o : Outcome} {kind : BlockKind} {qid : String} {w : Sourced}
    {k : InstanceKey} {v : Value} (hkeeps : kind.keeps v = true)
    (hclash : w.recordKey qid = k → w.value = v)
    (h : Assoc.find? o.values k = some v ∨ w.recordKey qid = k) :
    Assoc.find? (o.record kind qid w).values k = some v := by
  rw [record]
  by_cases hk : w.recordKey qid = k
  · rw [hclash hk, if_pos hkeeps, hk]
    exact Assoc.find?_insert_self
  · have hfind := h.resolve_right hk
    split
    · rw [Assoc.find?_insert_of_ne (Ne.symm hk), hfind]
    · exact hfind

namespace Registry

variable {r : Registry} {x : Expr} {kind : BlockKind} {policy : FailurePolicy} {o : Outcome}

/-! ### Runs -/

/-- An entry is the result of an item, under the key by which it is recorded. -/
def Yields (r : Registry) (x : Expr) (item : Item) (e : InstanceKey × Value) : Prop :=
  ∃ v, (r.evaluate x ⟨item, Instance.noEdit⟩).result = .ok v ∧
    e = (v.recordKey item.qid, v.value)

/-- A run goes on after each result, and after an error if the policy says so. -/
theorem value_evaluateFrom_cons {item : Item} {items : List Item} :
    (r.evaluateFrom x kind policy o (item :: items)).value =
      match (r.evaluate x ⟨item, Instance.noEdit⟩).result with
      | .ok v => (r.evaluateFrom x kind policy (o.record kind item.qid v) items).value
      | .error e =>
        match policy with
        | .failFast => { failures := [(item.qid, e)] }
        | .skipFailing =>
          (r.evaluateFrom x kind policy
            { o with failures := o.failures ++ [(item.qid, e)] } items).value := by
  rw [evaluateFrom, Traced.value_bind]
  unfold Eval.result
  cases (r.evaluate x ⟨item, Instance.noEdit⟩).run.value with
  | ok v => rfl
  | error e => cases policy <;> rfl

/-- A run depends on a registry only through the values on its items. -/
theorem evaluateFrom_congr {r' : Registry} {items : List Item}
    (h : ∀ item ∈ items, r'.evaluate x ⟨item, Instance.noEdit⟩ =
      r.evaluate x ⟨item, Instance.noEdit⟩) :
    r'.evaluateFrom x kind policy o items = r.evaluateFrom x kind policy o items := by
  induction items generalizing o with
  | nil => rfl
  | cons item items ih =>
      obtain ⟨hitem, hitems⟩ := List.forall_mem_cons.mp h
      rw [evaluateFrom, evaluateFrom, hitem]
      simp only [ih hitems]

theorem exists_of_mem_evaluateFrom {items : List Item} {e : InstanceKey × Value}
    (he : e ∈ (r.evaluateFrom x kind policy o items).value.values) :
    e ∈ o.values ∨ ∃ item ∈ items, r.Yields x item e := by
  induction items generalizing o with
  | nil => exact .inl he
  | cons item items ih =>
      rw [value_evaluateFrom_cons] at he
      have hcons : (∃ item' ∈ items, r.Yields x item' e) →
          ∃ item' ∈ item :: items, r.Yields x item' e :=
        fun ⟨item', hmem, hyields⟩ => ⟨item', List.mem_cons_of_mem _ hmem, hyields⟩
      split at he
      · next v hv =>
          rcases ih he with he | hlater
          · rcases Outcome.mem_record he with he | heq
            · exact .inl he
            · exact .inr ⟨item, List.mem_cons_self, v, hv, heq⟩
          · exact .inr (hcons hlater)
      · split at he
        · cases he
        · rcases ih he with he | hlater
          · exact .inl he
          · exact .inr (hcons hlater)

/-- **What is kept by each value that a run records holds of all that it recorded.** -/
theorem values_evaluateFrom_induction {motive : Assoc InstanceKey Value → Prop} {items : List Item}
    (start : motive o.values) (empty : motive [])
    (record : ∀ m k v, motive m → kind.keeps v = true → motive (Assoc.insert m k v)) :
    motive (r.evaluateFrom x kind policy o items).value.values := by
  have hrecord {o : Outcome} (ho : motive o.values) (qid : String) (v : Sourced) :
      motive (o.record kind qid v).values := by
    rw [Outcome.record]
    split
    · next hkeeps => exact record _ _ _ ho hkeeps
    · exact ho
  induction items generalizing o with
  | nil => exact start
  | cons item items ih =>
      rw [value_evaluateFrom_cons]
      split
      · exact ih (hrecord start _ _)
      · split
        · exact empty
        · exact ih start

/-- Only values that count are recorded. -/
theorem keeps_of_mem_evaluateOver {items : List Item} {e : InstanceKey × Value}
    (he : e ∈ (r.evaluateOver x kind policy items).value.values) : kind.keeps e.2 = true := by
  refine values_evaluateFrom_induction
    (motive := fun m => ∀ e ∈ m, kind.keeps e.2 = true)
    (fun e he => by cases he) (fun e he => by cases he) (fun m k v hm hkeeps e he => ?_) e he
  rcases Assoc.mem_insert he with rfl | he
  · exact hkeeps
  · exact hm e he

/-- The values of a run are in the order of their keys. -/
theorem sorted_evaluateOver {items : List Item} :
    Assoc.Sorted (r.evaluateOver x kind policy items).value.values :=
  values_evaluateFrom_induction List.Pairwise.nil List.Pairwise.nil fun _ _ _ hm _ => hm.insert

/-- A run records one value for each item at most. -/
theorem length_evaluateFrom_le {items : List Item} :
    (r.evaluateFrom x kind policy o items).value.values.length ≤ o.values.length + items.length := by
  induction items generalizing o with
  | nil => exact le_rfl
  | cons item items ih =>
      rw [value_evaluateFrom_cons, List.length_cons]
      split
      · next v _ =>
          have hrecord : (o.record kind item.qid v).values.length ≤ o.values.length + 1 := by
            rw [Outcome.record]
            split
            · exact Assoc.length_insert_le
            · exact Nat.le_succ _
          have hrest := @ih (o.record kind item.qid v)
          omega
      · split
        · exact Nat.zero_le _
        · next e _ _ =>
            have hrest := @ih { o with failures := o.failures ++ [(item.qid, e)] }
            exact hrest.trans (Nat.add_le_add_left (Nat.le_succ _) _)

/-- Every value that a run recorded is the result of one of its items. -/
theorem exists_of_mem_evaluateOver {items : List Item} {e : InstanceKey × Value}
    (he : e ∈ (r.evaluateOver x kind policy items).value.values) :
    ∃ item ∈ items, r.Yields x item e := by
  rcases exists_of_mem_evaluateFrom he with he | hyields
  · cases he
  · exact hyields

/-- A result is recorded under a key of its own question. -/
theorem qid_recordKey {item : Item} (hitem : item.OwnsVariants) {v : Sourced}
    (h : (r.evaluate x ⟨item, Instance.noEdit⟩).result = .ok v) :
    (v.recordKey item.qid).qid = item.qid := by
  rcases recordKey_mem h item.qid with hkey | hkey
  · rw [hkey, InstanceKey.unedited]
  · exact hitem _ hkey

/-- The entry of an item is that of its result. -/
theorem Yields.eq_of_result {item : Item} {e : InstanceKey × Value} (h : r.Yields x item e)
    {w : Sourced} (hw : (r.evaluate x ⟨item, Instance.noEdit⟩).result = .ok w) :
    e = (w.recordKey item.qid, w.value) := by
  obtain ⟨v, hv, rfl⟩ := h
  rw [hv] at hw
  rw [Except.ok.inj hw]

/-- Two results of one question are the same. -/
theorem Yields.eq_of_qid_eq {d : Dataset} (hd : d.IsFiled) {item item' : Item}
    (hitem : item ∈ d.allItems) (hitem' : item' ∈ d.allItems) {e e' : InstanceKey × Value}
    (he : r.Yields x item e) (he' : r.Yields x item' e') (hqid : e.1.qid = e'.1.qid) : e = e' := by
  obtain ⟨v, hv, rfl⟩ := he
  obtain ⟨v', hv', rfl⟩ := he'
  rw [qid_recordKey (hd.item_of_mem hitem).ownsVariants hv,
    qid_recordKey (hd.item_of_mem hitem').ownsVariants hv'] at hqid
  obtain rfl := hd.eq_of_qid_eq hitem hitem' hqid
  rw [hv] at hv'
  rw [Except.ok.inj hv']

/-- No question has two values. -/
theorem eq_of_qid_eq_evaluateOver {d : Dataset} (hd : d.IsFiled) {items : List Item}
    (hitems : ∀ item ∈ items, item ∈ d.allItems) {e e' : InstanceKey × Value}
    (he : e ∈ (r.evaluateOver x kind policy items).value.values)
    (he' : e' ∈ (r.evaluateOver x kind policy items).value.values) (hqid : e.1.qid = e'.1.qid) :
    e = e' := by
  obtain ⟨item, hitem, hyields⟩ := exists_of_mem_evaluateOver he
  obtain ⟨item', hitem', hyields'⟩ := exists_of_mem_evaluateOver he'
  exact hyields.eq_of_qid_eq hd (hitems item hitem) (hitems item' hitem') hyields' hqid

/-! ### Runs to the end -/

/-- Nothing ends a run over items early. -/
def Completes (r : Registry) (x : Expr) (policy : FailurePolicy) (items : List Item) : Prop :=
  policy = .skipFailing ∨
    ∀ item ∈ items, ∃ v, (r.evaluate x ⟨item, Instance.noEdit⟩).result = .ok v

/-- A run that is ended early records nothing. -/
theorem completes_of_mem_evaluateFrom {items : List Item} {e : InstanceKey × Value}
    (he : e ∈ (r.evaluateFrom x kind policy o items).value.values) :
    r.Completes x policy items := by
  cases policy with
  | skipFailing => exact .inl rfl
  | failFast =>
      refine .inr ?_
      induction items generalizing o with
      | nil => exact fun item hitem => by cases hitem
      | cons item items ih =>
          rw [value_evaluateFrom_cons] at he
          split at he
          · next v hv => exact List.forall_mem_cons.mpr ⟨⟨v, hv⟩, ih he⟩
          · cases he

/-- What an item yields is found after the run over all items, unless another value takes its place. -/
theorem find?_evaluateFrom {items : List Item} {k : InstanceKey} {v : Value}
    (hcompletes : r.Completes x policy items) (hkeeps : kind.keeps v = true)
    (hclash : ∀ item ∈ items, ∀ w, r.Yields x item (k, w) → w = v)
    (h : Assoc.find? o.values k = some v ∨ ∃ item ∈ items, r.Yields x item (k, v)) :
    Assoc.find? (r.evaluateFrom x kind policy o items).value.values k = some v := by
  induction items generalizing o with
  | nil =>
      rcases h with h | ⟨item, hitem, -⟩
      · exact h
      · cases hitem
  | cons item items ih =>
      obtain ⟨hitem, hitems⟩ := List.forall_mem_cons.mp hclash
      have hrest : r.Completes x policy items :=
        hcompletes.imp_right fun hall item h => hall item (List.mem_cons_of_mem _ h)
      rw [value_evaluateFrom_cons]
      split
      · next w hw =>
          have hnow (hk : w.recordKey item.qid = k) : w.value = v :=
            hitem w.value ⟨w, hw, by rw [hk]⟩
          refine ih hrest hitems ?_
          rcases h with hbefore | ⟨item', hmem, hyields⟩
          · exact .inl (Outcome.find?_record hkeeps hnow (.inl hbefore))
          · rcases List.mem_cons.mp hmem with rfl | hmem
            · have hk := (Prod.mk.inj (hyields.eq_of_result hw)).1
              exact .inl (Outcome.find?_record hkeeps hnow (.inr hk.symm))
            · exact .inr ⟨item', hmem, hyields⟩
      · next e he =>
          have hfails (w : Sourced) :
              (r.evaluate x ⟨item, Instance.noEdit⟩).result ≠ .ok w := by
            rw [he]
            exact nofun
          cases policy with
          | failFast =>
              obtain ⟨w, hw⟩ := hcompletes.resolve_left nofun item List.mem_cons_self
              exact absurd hw (hfails w)
          | skipFailing =>
              refine ih hrest hitems (h.imp_right ?_)
              rintro ⟨item', hmem, hyields⟩
              rcases List.mem_cons.mp hmem with rfl | hmem
              · obtain ⟨w, hw, -⟩ := hyields
                exact absurd hw (hfails w)
              · exact ⟨item', hmem, hyields⟩

/-- The entries that a run over items of a dataset in order records: nothing if it is ended early, and
otherwise all results that count. -/
theorem mem_evaluateOver_iff {d : Dataset} (hd : d.IsFiled) {items : List Item}
    (hitems : ∀ item ∈ items, item ∈ d.allItems) {e : InstanceKey × Value} :
    e ∈ (r.evaluateOver x kind policy items).value.values ↔
      r.Completes x policy items ∧ kind.keeps e.2 = true ∧ ∃ item ∈ items, r.Yields x item e := by
  constructor
  · intro he
    exact ⟨completes_of_mem_evaluateFrom he, keeps_of_mem_evaluateOver he,
      exists_of_mem_evaluateOver he⟩
  · rintro ⟨hcompletes, hkeeps, item, hitem, hyields⟩
    refine Assoc.mem_of_find? (find?_evaluateFrom hcompletes hkeeps ?_
      (.inr ⟨item, hitem, hyields⟩))
    intro item' hitem' w hyields'
    have heq := hyields'.eq_of_qid_eq hd (hitems item' hitem') (hitems item hitem) hyields rfl
    exact (Prod.mk.inj heq).2

/-- **What a run records does not depend on the order of its items,** nor on how often they come. -/
theorem values_evaluateOver_congr {d : Dataset} (hd : d.IsFiled) {items items' : List Item}
    (hitems : ∀ item ∈ items, item ∈ d.allItems)
    (h : ∀ item, item ∈ items ↔ item ∈ items') :
    (r.evaluateOver x kind policy items).value.values =
      (r.evaluateOver x kind policy items').value.values := by
  have hitems' (item : Item) (hitem : item ∈ items') : item ∈ d.allItems :=
    hitems item ((h item).mpr hitem)
  refine Assoc.Sorted.eq_of_mem_iff sorted_evaluateOver sorted_evaluateOver fun e => ?_
  rw [mem_evaluateOver_iff hd hitems, mem_evaluateOver_iff hd hitems']
  simp only [Completes, h]

/-- **What a run recorded for the unedited variant of an item is the result of that item.** -/
theorem result_of_find?_evaluateOver {d : Dataset} (hd : d.IsFiled) {items : List Item}
    (hitems : ∀ item ∈ items, item ∈ d.allItems) {item : Item} (hitem : item ∈ d.allItems)
    {value : Value}
    (h : Assoc.find? (r.evaluateOver x kind policy items).value.values item.uneditedKey
      = some value) :
    ((r.evaluate x ⟨item, Instance.noEdit⟩).result).map (·.value) = .ok value := by
  obtain ⟨item', hitem', v, hv, heq⟩ := exists_of_mem_evaluateOver (Assoc.mem_of_find? h)
  obtain ⟨hkey, rfl⟩ := Prod.mk.inj heq
  have hmem := hitems item' hitem'
  have hqid : item.qid = item'.qid := by
    have := qid_recordKey (hd.item_of_mem hmem).ownsVariants hv
    rwa [← hkey] at this
  obtain rfl := hd.eq_of_qid_eq hitem hmem hqid
  rw [hv]
  rfl

end Registry

end ErrorAnalysis
