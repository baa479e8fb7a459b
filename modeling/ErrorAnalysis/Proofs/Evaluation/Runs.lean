import ErrorAnalysis.Proofs.Evaluation.Batch
import ErrorAnalysis.Proofs.Evaluation.Ranks

/-!
# Runs Lose and Overwrite Nothing

A run over items that skips those that fail has a closed form: its values are the map of the entries of
the items, one after the other, and its failures are those of the items in their order. Results are
recorded under keys that come out of evaluation, but a key never leaves the question of its item. If the
items are for different questions, no entry takes the place of another, and so neither the order of the
items nor a division of the run makes a difference. A run that ends with the first failure is the same
as long as nothing fails.

There is a run at all only if the evaluation ends on each item that it comes to, which it need not where
attributes refer to each other in a cycle.

## Main definitions

* `Registry.recorded?`: the entry that is recorded for an item.
* `Registry.failure?`: the failure that is noted for an item.
* `Registry.EndsOn`: evaluation ends on each of some items.

## Main results

* `Registry.value_evaluateFrom_skipFailing`: **a run that skips failures in closed form.**
* `Registry.value_evaluateFrom_failFast`: a run that ends with the first failure.
* `Registry.IsRankedBy.endsOn`: evaluation ends if attributes have ranks.
* `Registry.nodup_entries`: items for different questions have entries under different keys.
* `Registry.evaluateOver_lossless`: **a run has one entry for each item with a value that counts, and
  each failure, whatever the order and the division of its items.**
-/

namespace ErrorAnalysis

namespace Registry

variable {r : Registry} {x : Expr} {kind : BlockKind} {o : Outcome} {items : List Item}

/-! ### Items -/

/-- The entry of an item: its value under its key, if it has one that counts. -/
def recorded? (r : Registry) (x : Expr) (kind : BlockKind) (item : Item) :
    Option (InstanceKey × Value) :=
  match (r.evaluate x ⟨item, Instance.noEdit⟩).result with
  | .ok v => if kind.keeps v.value then some (v.recordKey item.qid, v.value) else none
  | .error _ => none

/-- The failure of an item: its question and its error, if it has one. -/
def failure? (r : Registry) (x : Expr) (item : Item) : Option (String × EvalError) :=
  match (r.evaluate x ⟨item, Instance.noEdit⟩).result with
  | .ok _ => none
  | .error e => some (item.qid, e)

/-- The evaluation of a tree on each of some items ends. -/
def EndsOn (r : Registry) (x : Expr) (items : List Item) : Prop :=
  ∀ item ∈ items, (r.evaluate x ⟨item, Instance.noEdit⟩).finishes = true

instance : Decidable (r.EndsOn x items) :=
  inferInstanceAs (Decidable (∀ item ∈ items, _ = true))

/-- Evaluation ends if attributes have ranks, so that each one refers to lesser ones. -/
theorem IsRankedBy.endsOn {rank : String → ℕ} (h : r.IsRankedBy rank) {n : ℕ}
    (hx : r.RanksBelow rank x n) (items : List Item) : r.EndsOn x items := by
  intro item _
  have hfinishes := finishes_evaluateAt h hx ⟨item, Instance.noEdit⟩
  rwa [evaluate_eq_of_finishes hfinishes]

/-- What is noted for items on which evaluation ends are errors, not marks of an evaluation that does not
end. -/
theorem EndsOn.isNotCircular (h : r.EndsOn x items) {failure : String × EvalError}
    (hfailure : failure ∈ items.filterMap (r.failure? x)) : failure.2.IsNotCircular := by
  obtain ⟨item, hitem, hfailure⟩ := List.mem_filterMap.mp hfailure
  have herrors := Eval.finishes_iff.mp (h item hitem)
  rw [failure?] at hfailure
  split at hfailure
  · cases hfailure
  · next e he =>
      obtain rfl := Option.some.inj hfailure
      exact herrors e he

/-- The entry of an item is under a key of its question. -/
theorem qid_of_recorded? {item : Item} (hitem : item.OwnsVariants) {e : InstanceKey × Value}
    (h : r.recorded? x kind item = some e) : e.1.qid = item.qid := by
  rw [recorded?] at h
  split at h
  · next v hv =>
      split at h
      · obtain rfl := Option.some.inj h
        exact qid_recordKey hitem hv
      · cases h
  · cases h

/-- **Items for different questions have entries under different keys.** -/
theorem nodup_entries (hqids : (items.map Item.qid).Nodup)
    (hitems : ∀ item ∈ items, item.OwnsVariants) :
    ((items.filterMap (r.recorded? x kind)).map Prod.fst).Nodup := by
  rw [List.Nodup, List.pairwise_map, List.pairwise_filterMap]
  refine (List.pairwise_map.mp hqids).imp_of_mem fun {item item'} hitem hitem' hne => ?_
  intro e he e' he' heq
  have hqid := qid_of_recorded? (hitems item hitem) he
  rw [heq, qid_of_recorded? (hitems item' hitem') he'] at hqid
  exact hne hqid.symm

/-! ### Closed forms -/

/-- **A run that skips failures puts the entries of its items into what there is, and notes their
failures.** -/
theorem value_evaluateFrom_skipFailing :
    (r.evaluateFrom x kind .skipFailing o items).value =
      { values :=
          (items.filterMap (r.recorded? x kind)).foldl (fun m e => Assoc.insert m e.1 e.2) o.values
        failures := o.failures ++ items.filterMap (r.failure? x) } := by
  induction items generalizing o with
  | nil => rw [List.filterMap_nil, List.filterMap_nil, List.append_nil]; rfl
  | cons item items ih =>
      rw [value_evaluateFrom_cons, List.filterMap_cons, List.filterMap_cons, recorded?, failure?]
      cases hresult : (r.evaluate x ⟨item, Instance.noEdit⟩).result with
      | ok v =>
          dsimp only
          rw [ih, Outcome.record]
          by_cases hkeeps : kind.keeps v.value = true
          · rw [if_pos hkeeps, if_pos hkeeps]
            rfl
          · rw [if_neg hkeeps, if_neg hkeeps]
      | error e =>
          dsimp only
          rw [ih, List.append_assoc, List.singleton_append]

/-- A run that ends with the first failure has that failure alone, and is like one that skips failures
if there is none. -/
theorem value_evaluateFrom_failFast :
    (r.evaluateFrom x kind .failFast o items).value =
      match (items.filterMap (r.failure? x)).head? with
      | none => (r.evaluateFrom x kind .skipFailing o items).value
      | some failure => { failures := [failure] } := by
  induction items generalizing o with
  | nil => rfl
  | cons item items ih =>
      rw [value_evaluateFrom_cons, value_evaluateFrom_cons, List.filterMap_cons, failure?]
      cases (r.evaluate x ⟨item, Instance.noEdit⟩).result with
      | ok v => exact ih
      | error e => rfl

/-- The values of a run that skips failures are the map of the entries of its items. -/
theorem values_evaluateOver_skipFailing :
    (r.evaluateOver x kind .skipFailing items).value.values =
      Assoc.ofList (items.filterMap (r.recorded? x kind)) := by
  rw [evaluateOver, value_evaluateFrom_skipFailing]
  rfl

theorem failures_evaluateOver_skipFailing :
    (r.evaluateOver x kind .skipFailing items).value.failures = items.filterMap (r.failure? x) := by
  rw [evaluateOver, value_evaluateFrom_skipFailing]
  rfl

/-- The values of a run in two parts are those of the parts together. -/
theorem values_evaluateOver_append {front back : List Item}
    (h : (((front ++ back).filterMap (r.recorded? x kind)).map Prod.fst).Nodup) :
    (r.evaluateOver x kind .skipFailing (front ++ back)).value.values =
      Assoc.ofList ((r.evaluateOver x kind .skipFailing front).value.values ++
        (r.evaluateOver x kind .skipFailing back).value.values) := by
  simp only [values_evaluateOver_skipFailing]
  rw [List.filterMap_append] at h ⊢
  have hnodup := h
  rw [List.map_append] at hnodup
  obtain ⟨hfront, hback, -⟩ := List.nodup_append.mp hnodup
  exact (Assoc.ofList_eq_of_perm h
    ((Assoc.perm_ofList hfront).append (Assoc.perm_ofList hback))).symm

/-- A run that ends with the first failure is that failure alone, whatever comes behind it. -/
theorem value_evaluateOver_failFast {front back : List Item} {item : Item} {failure : String × EvalError}
    (hfront : front.filterMap (r.failure? x) = []) (hfailure : r.failure? x item = some failure) :
    (r.evaluateOver x kind .failFast (front ++ item :: back)).value =
      { values := [], failures := [failure] } := by
  rw [evaluateOver, value_evaluateFrom_failFast, List.filterMap_append, hfront, List.nil_append,
    List.filterMap_cons, hfailure]
  rfl

/-- **A run over items for different questions loses and overwrites nothing,** if evaluation ends on each of
them. If failures are skipped, its values are the entries of the items, no two of them under one key, and its
failures are those of the items in order, all of which are errors. The values stay the same if the items come
in another order, or in two parts. If the first failure ends the run, there is no difference unless there is
one, and then there is nothing else. In that case it is enough if evaluation ends on the items up to the one
that fails. -/
theorem evaluateOver_lossless (hqids : (items.map Item.qid).Nodup)
    (hitems : ∀ item ∈ items, item.OwnsVariants) :
    (r.EndsOn x items →
      ((items.filterMap (r.recorded? x kind)).map Prod.fst).Nodup ∧
      (r.evaluateOver x kind .skipFailing items).value.values.Perm
        (items.filterMap (r.recorded? x kind)) ∧
      Assoc.Sorted (r.evaluateOver x kind .skipFailing items).value.values ∧
      (r.evaluateOver x kind .skipFailing items).value.failures = items.filterMap (r.failure? x) ∧
      (∀ failure ∈ items.filterMap (r.failure? x), failure.2.IsNotCircular) ∧
      (∀ items' : List Item, items'.Perm items →
        (r.evaluateOver x kind .skipFailing items').value.values =
          (r.evaluateOver x kind .skipFailing items).value.values) ∧
      (∀ front back, items = front ++ back →
        (r.evaluateOver x kind .skipFailing items).value.values =
          Assoc.ofList ((r.evaluateOver x kind .skipFailing front).value.values ++
            (r.evaluateOver x kind .skipFailing back).value.values)) ∧
      (r.evaluateOver x kind .failFast items).value =
        match (items.filterMap (r.failure? x)).head? with
        | none => (r.evaluateOver x kind .skipFailing items).value
        | some failure => { values := [], failures := [failure] }) ∧
    (∀ front item back failure, items = front ++ item :: back → r.EndsOn x (front ++ [item]) →
      front.filterMap (r.failure? x) = [] → r.failure? x item = some failure →
        failure.2.IsNotCircular ∧
        (r.evaluateOver x kind .failFast items).value = { values := [], failures := [failure] }) := by
  have hnodup : ((items.filterMap (r.recorded? x kind)).map Prod.fst).Nodup :=
    nodup_entries hqids hitems
  refine ⟨fun hends => ⟨hnodup, ?_, sorted_evaluateOver, failures_evaluateOver_skipFailing,
    fun _ => hends.isNotCircular, ?_, ?_, value_evaluateFrom_failFast⟩, ?_⟩
  · rw [values_evaluateOver_skipFailing]
    exact Assoc.perm_ofList hnodup
  · intro items' hperm
    rw [values_evaluateOver_skipFailing, values_evaluateOver_skipFailing]
    exact Assoc.ofList_eq_of_perm hnodup (hperm.filterMap _)
  · rintro front back rfl
    exact values_evaluateOver_append hnodup
  · rintro front item back failure rfl hends hfront hfailure
    have hmem : failure ∈ (front ++ [item]).filterMap (r.failure? x) :=
      List.mem_filterMap.mpr ⟨item, List.mem_append_right _ (List.mem_singleton_self item), hfailure⟩
    exact ⟨hends.isNotCircular hmem, value_evaluateOver_failFast hfront hfailure⟩

/-! ### A run with a failure -/

/-- The count after the edit, with its sign changed. -/
def negatedSwap : Expr :=
  .unary .neg (.call "apply" [.positional (.ident "n")] (some "swap"))

/-- The negated count after the edit is recorded under the key of the edited variant. The question
without the edit fails; it comes first if the questions are reversed, and the values are the same. A run
that ends with the first failure has no values. -/
theorem evaluateOver_lossless_negatedSwap :
    (countedQuestions.allItems.map Item.qid).Nodup ∧
    (∀ item ∈ countedQuestions.allItems, item.OwnsVariants) ∧
    (ofConfig {}).EndsOn negatedSwap countedQuestions.allItems ∧
    Assoc.keys ((ofConfig {}).evaluateOver negatedSwap .attr .skipFailing
      countedQuestions.allItems).value.values = [⟨"q1", 1⟩] ∧
    ((ofConfig {}).evaluateOver negatedSwap .attr .skipFailing
      countedQuestions.allItems.reverse).value.values =
      ((ofConfig {}).evaluateOver negatedSwap .attr .skipFailing
        countedQuestions.allItems).value.values ∧
    ((ofConfig {}).evaluateOver negatedSwap .attr .failFast countedQuestions.allItems).value =
      { values := [], failures := [("q2", .missingOperand .neg)] } := by
  have hqids : (countedQuestions.allItems.map Item.qid).Nodup := by decide
  have hitems (item : Item) (hitem : item ∈ countedQuestions.allItems) : item.OwnsVariants :=
    ((Dataset.isFiled_ofInstances _).item_of_mem hitem).ownsVariants
  have hfailures : countedQuestions.allItems.filterMap ((ofConfig {}).failure? negatedSwap) =
      [("q2", .missingOperand .neg)] := by
    decide +kernel
  have hends : (ofConfig {}).EndsOn negatedSwap countedQuestions.allItems := by decide +kernel
  obtain ⟨-, -, -, -, -, hperm, -, hfailFast⟩ :=
    (@evaluateOver_lossless (ofConfig {}) negatedSwap .attr _ hqids hitems).1 hends
  refine ⟨hqids, hitems, hends, by decide +kernel, hperm _ (List.reverse_perm _), ?_⟩
  rw [hfailFast, hfailures]
  rfl

end Registry

end ErrorAnalysis
