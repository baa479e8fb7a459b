import ErrorAnalysis.Block.Group
import ErrorAnalysis.Proofs.Data.Maps

/-!
# Counting Members by Correctness

How a model does on members is counted in one place, and how two models do in another. Both count the
same: the instances that the dataset has for the members, each of them once. The counts for two models are
a table of two rows and two columns, whose margins are the counts for either model.

## Main definitions

* `Group.present`, `Group.presentKeys`: the instances of the members, and their keys.
* `Group.Rates.count`: how many members a model got right, or wrong.
* `Group.Cell.transpose`: the cell with the models swapped.

## Main results

* `Group.count_rates`: what is counted for one model.
* `Group.sum_first_compareModels`, `Group.sum_second_compareModels`: the margins of the table.
* `Group.compareModels_swap`: the table for the models swapped.
* `Group.count_rates_union`: the counts for members that come from two sets.
* `Group.compareModels_agrees_rates`: **the counts for two models agree with those for one.**
-/

namespace ErrorAnalysis

/-! ### Two kinds of correctness -/

namespace Correctness

/-- Pairs are counted in a row: those with one first part, for both second parts. -/
theorem sum_count_first (found : List (Correctness × Correctness)) (a : Correctness) :
    (all.map fun b => found.count (a, b)).sum = (found.map Prod.fst).count a := by
  induction found with
  | nil => rfl
  | cons p found ih =>
      obtain ⟨a', b'⟩ := p
      simp only [all, List.map_cons, List.map_nil, List.sum_cons, List.sum_nil,
        List.count_cons] at ih ⊢
      cases a <;> cases a' <;> cases b' <;> simp <;> omega

/-- Swapped pairs are counted under the swapped pair. -/
theorem count_map_swap (found : List (Correctness × Correctness)) (a b : Correctness) :
    (found.map Prod.swap).count (b, a) = found.count (a, b) :=
  List.count_map_of_injective found Prod.swap Prod.swap_injective (a, b)

theorem sum_count_second (found : List (Correctness × Correctness)) (b : Correctness) :
    (all.map fun a => found.count (a, b)).sum = (found.map Prod.snd).count b := by
  have hrow := sum_count_first (found.map Prod.swap) b
  simp only [count_map_swap, List.map_map] at hrow
  exact hrow

/-- Everything is one or the other. -/
theorem sum_count (found : List Correctness) : (all.map found.count).sum = found.length := by
  induction found with
  | nil => rfl
  | cons c found ih =>
      simp only [all, List.map_cons, List.map_nil, List.sum_cons, List.sum_nil,
        List.count_cons, List.length_cons] at ih ⊢
      cases c <;> simp <;> omega

end Correctness

namespace Group

variable {d : Dataset} {members others : SortedSet InstanceKey} {model model' metric : String}
  {model? : Option String}

/-! ### One model -/

/-- The instances of the members; the members that the dataset does not have are left out. -/
def present (d : Dataset) (members : SortedSet InstanceKey) : List Instance :=
  members.filterMap d.instance?

/-- The members that the dataset has. -/
def presentKeys (d : Dataset) (members : SortedSet InstanceKey) : SortedSet InstanceKey :=
  members.filter fun k => (d.instance? k).isSome

theorem length_present : (present d members).length = (presentKeys d members).length := by
  rw [present, presentKeys, List.length_filterMap_eq_countP, List.countP_eq_length_filter]

/-- How many members the model got right, or wrong. -/
def Rates.count (r : Rates) : Correctness → Nat
  | .correct => r.correct
  | .incorrect => r.incorrect

/-- How a model does on an instance; without a model everything is correct. -/
def judge (model? : Option String) (metric : String) (i : Instance) : Correctness :=
  if isWrong model? metric i then .incorrect else .correct

/-- The counts for one model are those of its judgements. -/
theorem count_rates (c : Correctness) :
    (rates d members model? metric).count c =
      ((present d members).map (judge model? metric)).count c := by
  have hjudge (i : Instance) : (judge model? metric i == c) =
      match c with
      | .correct => !isWrong model? metric i
      | .incorrect => isWrong model? metric i := by
    rw [judge]
    cases c <;> cases isWrong model? metric i <;> rfl
  rw [List.count_eq_countP, List.countP_map, List.countP_congr fun i _ => by
    rw [Function.comp_apply, hjudge], List.countP_eq_length_filter]
  cases c <;> rfl

/-- Each present member is right or wrong. -/
theorem correct_add_incorrect_rates :
    (rates d members model? metric).correct + (rates d members model? metric).incorrect =
      (presentKeys d members).length := by
  have h := Correctness.sum_count ((present d members).map (judge model? metric))
  rw [List.length_map, length_present] at h
  rw [← h]
  simp only [Correctness.all, List.map_cons, List.map_nil, List.sum_cons, List.sum_nil, ← count_rates]
  rfl

/-- Members that come from two sets without a common member are counted by those of either. -/
theorem count_rates_union (hs : SortedSet.Sorted members) (ht : SortedSet.Sorted others)
    (h : ∀ k ∈ members, k ∉ others) (c : Correctness) :
    (rates d (SortedSet.union members others) model? metric).count c =
      (rates d members model? metric).count c + (rates d others model? metric).count c := by
  have hperm : (present d (SortedSet.union members others)).Perm
      (present d members ++ present d others) := by
    rw [present, present, present, ← List.filterMap_append]
    exact (SortedSet.perm_union hs ht h).filterMap _
  rw [count_rates, count_rates, count_rates, (hperm.map _).count_eq, List.map_append,
    List.count_append]

/-! ### Two models -/

/-- The judgements of two models on the members. -/
def judgements (d : Dataset) (members : SortedSet InstanceKey) (model model' metric : String) :
    List (Correctness × Correctness) :=
  (present d members).map fun i => (.of i model metric, .of i model' metric)

/-- The cell with the models swapped. -/
def Cell.transpose (c : Cell) : Cell :=
  ⟨c.second, c.first, c.count⟩

theorem compareModels_eq :
    compareModels d members model model' metric =
      Correctness.all.flatMap fun a => Correctness.all.map fun b =>
        ⟨a, b, (judgements d members model model' metric).count (a, b)⟩ := rfl

/-- The table has one cell for each combination. -/
theorem combinations_compareModels :
    (compareModels d members model model' metric).map (fun c => (c.first, c.second)) =
      [(.correct, .correct), (.correct, .incorrect), (.incorrect, .correct),
        (.incorrect, .incorrect)] := rfl

/-- A row of the table adds up to the count for the first model. -/
theorem sum_first_compareModels (a : Correctness) :
    (((compareModels d members model model' metric).filter (·.first = a)).map (·.count)).sum =
      (rates d members (some model) metric).count a := by
  have hrow : (((compareModels d members model model' metric).filter (·.first = a)).map (·.count)) =
      Correctness.all.map fun b => (judgements d members model model' metric).count (a, b) := by
    cases a <;> rfl
  rw [hrow, Correctness.sum_count_first, count_rates, judgements, List.map_map]
  rfl

/-- A column of the table adds up to the count for the second model. -/
theorem sum_second_compareModels (b : Correctness) :
    (((compareModels d members model model' metric).filter (·.second = b)).map (·.count)).sum =
      (rates d members (some model') metric).count b := by
  have hcolumn :
      (((compareModels d members model model' metric).filter (·.second = b)).map (·.count)) =
        Correctness.all.map fun a => (judgements d members model model' metric).count (a, b) := by
    cases b <;> rfl
  rw [hcolumn, Correctness.sum_count_second, count_rates, judgements, List.map_map]
  rfl

/-- The table counts each present member once. -/
theorem sum_compareModels :
    ((compareModels d members model model' metric).map (·.count)).sum =
      (present d members).length := by
  have hrows : ((compareModels d members model model' metric).map (·.count)).sum =
      (Correctness.all.map fun a => (Correctness.all.map fun b =>
        (judgements d members model model' metric).count (a, b)).sum).sum := by
    simp [compareModels_eq, Correctness.all, Nat.add_assoc]
  rw [hrows, funext (Correctness.sum_count_first _), Correctness.sum_count, List.length_map,
    judgements, List.length_map]

/-- The table for the models swapped has the same cells, transposed. -/
theorem compareModels_swap :
    (compareModels d members model' model metric).Perm
      ((compareModels d members model model' metric).map Cell.transpose) := by
  have hswap : judgements d members model' model metric =
      (judgements d members model model' metric).map Prod.swap := by
    rw [judgements, judgements, List.map_map]
    rfl
  simp only [compareModels_eq, hswap, Correctness.all, List.flatMap_cons, List.flatMap_nil,
    List.map_cons, List.map_nil, List.cons_append, List.nil_append, Correctness.count_map_swap,
    Cell.transpose]
  exact (List.Perm.swap _ _ _).cons _

/-- **The counts for two models agree with those for one.** The table has one cell for each combination;
the cells add up to the members that the dataset has, its rows to the counts for the first model and its
columns to those for the second one, and it is transposed when the models are swapped. The counts for one
model, or for none, add up over sets without a common member. -/
theorem compareModels_agrees_rates (d : Dataset) (members : SortedSet InstanceKey)
    (model model' metric : String) :
    (compareModels d members model model' metric).map (fun c => (c.first, c.second)) =
      [(.correct, .correct), (.correct, .incorrect), (.incorrect, .correct),
        (.incorrect, .incorrect)] ∧
    ((compareModels d members model model' metric).map (·.count)).sum =
      (presentKeys d members).length ∧
    (∀ a, (((compareModels d members model model' metric).filter (·.first = a)).map (·.count)).sum =
      (rates d members (some model) metric).count a) ∧
    (∀ b, (((compareModels d members model model' metric).filter (·.second = b)).map (·.count)).sum =
      (rates d members (some model') metric).count b) ∧
    (compareModels d members model' model metric).Perm
      ((compareModels d members model model' metric).map Cell.transpose) ∧
    ∀ (others : SortedSet InstanceKey) (model? : Option String), SortedSet.Sorted members →
      SortedSet.Sorted others → (∀ k ∈ members, k ∉ others) →
      ∀ c, (rates d (SortedSet.union members others) model? metric).count c =
        (rates d members model? metric).count c + (rates d others model? metric).count c :=
  ⟨combinations_compareModels, sum_compareModels.trans length_present, sum_first_compareModels,
    sum_second_compareModels, compareModels_swap,
    fun _ _ hs ht h c => count_rates_union hs ht h c⟩

/-- Two questions that model `a` got wrong; model `b` got the first one right and did not answer the
second one. -/
def answeredQuestions : Dataset :=
  .ofInstances [
    ⟨⟨"q1", 0⟩, Instance.noEdit,
      [("predictions", .list [.label ⟨"a", "x", [("f1", 0)], none, []⟩,
        .label ⟨"b", "y", [("f1", 1)], none, []⟩])]⟩,
    ⟨⟨"q2", 0⟩, Instance.noEdit, [("predictions", .label ⟨"a", "x", [("f1", 0)], none, []⟩)]⟩]

/-- One of two members is not in the dataset. The other one was got wrong by model `a` and right by model
`b`, and with one more member there are two that model `a` got wrong. -/
theorem compareModels_agrees_rates_answeredQuestions :
    ((compareModels answeredQuestions [⟨"q1", 0⟩, ⟨"q9", 0⟩] "a" "b" "f1").map (·.count)).sum = 1 ∧
    (((compareModels answeredQuestions [⟨"q1", 0⟩, ⟨"q9", 0⟩] "a" "b" "f1").filter
      (·.first = .incorrect)).map (·.count)).sum = 1 ∧
    (((compareModels answeredQuestions [⟨"q1", 0⟩, ⟨"q9", 0⟩] "a" "b" "f1").filter
      (·.second = .incorrect)).map (·.count)).sum = 0 ∧
    SortedSet.Sorted [(⟨"q1", 0⟩ : InstanceKey), ⟨"q9", 0⟩] ∧
    SortedSet.Sorted [(⟨"q2", 0⟩ : InstanceKey)] ∧
    (∀ k ∈ [(⟨"q1", 0⟩ : InstanceKey), ⟨"q9", 0⟩], k ∉ [(⟨"q2", 0⟩ : InstanceKey)]) ∧
    (rates answeredQuestions (SortedSet.union [⟨"q1", 0⟩, ⟨"q9", 0⟩] [⟨"q2", 0⟩]) (some "a")
      "f1").count .incorrect = 1 + 1 := by
  obtain ⟨-, htotal, hfirst, hsecond, -, hunion⟩ :=
    compareModels_agrees_rates answeredQuestions [⟨"q1", 0⟩, ⟨"q9", 0⟩] "a" "b" "f1"
  have hs : SortedSet.Sorted [(⟨"q1", 0⟩ : InstanceKey), ⟨"q9", 0⟩] :=
    List.pairwise_pair.mpr (by decide +kernel)
  have ht : SortedSet.Sorted [(⟨"q2", 0⟩ : InstanceKey)] := List.pairwise_singleton _ _
  have hdisjoint : ∀ k ∈ [(⟨"q1", 0⟩ : InstanceKey), ⟨"q9", 0⟩], k ∉ [(⟨"q2", 0⟩ : InstanceKey)] := by
    decide
  refine ⟨htotal.trans (by decide +kernel), (hfirst .incorrect).trans (by decide +kernel),
    (hsecond .incorrect).trans (by decide +kernel), hs, ht, hdisjoint, ?_⟩
  exact (hunion [⟨"q2", 0⟩] (some "a") hs ht hdisjoint .incorrect).trans (by decide +kernel)

end Group

end ErrorAnalysis
