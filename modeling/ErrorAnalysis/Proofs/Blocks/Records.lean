import ErrorAnalysis.Block.Attribute
import ErrorAnalysis.Proofs.Blocks.Stores
import ErrorAnalysis.Proofs.Statistics.Frequencies

/-!
# Summaries of Attributes

A summary splits the values of an attribute by whether a model got their instances right, and makes a
frequency table of either part: the values are sorted and cut into runs, the runs are sorted by how
frequent they are, and then by their values again. Nothing is lost on the way. The two tables together
count each value that the summary is about, and for categories they list what the domain lists.

## Main definitions

* `Attribute.summarized`: the entries that a summary is about.

## Main results

* `Attribute.counts_eq_runs`: to sort by frequency in between makes no difference.
* `Attribute.listed_correct_record`, `Attribute.listed_incorrect_record`: what the tables list.
* `Attribute.record_conserves`: **summaries conserve the values.**
-/

namespace ErrorAnalysis

namespace Attribute

open Stats (total listed IsAscending runs sortValues valueCounts)
open Value (sameRank compareTotal)

variable {a : Attribute} {d : Dataset} {model? : Option String} {metric : String}
  {filter : QuestionFilter} {k : InstanceKey} {v : Value} {vs : List Value}

/-! ### Tables -/

/-- To sort a frequency table by its counts in between makes no difference: the table that is sorted by
its values again is that of the runs. -/
theorem counts_eq_runs (vs : List Value) : counts vs = runs (sortValues vs) := by
  refine Stats.eq_of_perm_of_isAscending ?_ (Stats.isAscending_runs (Stats.pairwise_sortValues vs)) ?_
  · exact @List.pairwise_mergeSort _ (fun e e' => e.1.le e'.1) (fun _ _ _ => Value.le_trans)
      (fun e e' => Value.le_total e.1 e'.1) (valueCounts vs)
  · exact (List.mergeSort_perm _ _).trans (List.mergeSort_perm _ _)

theorem isAscending_counts (vs : List Value) : IsAscending (counts vs) := by
  rw [counts_eq_runs]
  exact Stats.isAscending_runs (Stats.pairwise_sortValues vs)

theorem total_counts (vs : List Value) : total (counts vs) = vs.length := by
  rw [counts_eq_runs, Stats.total_runs]
  exact (Stats.perm_sortValues vs).length_eq

theorem listed_counts (vs : List Value) (v : Value) :
    listed (counts vs) v = vs.countP (sameRank v) := by
  rw [counts_eq_runs, Stats.listed_runs]
  exact (Stats.perm_sortValues vs).countP_eq _

theorem distinct_eq (vs : List Value) : distinct vs = (counts vs).map (·.1) := by
  rw [counts_eq_runs, distinct]

/-- The places that a table lists are those that are taken. -/
theorem exists_mem_counts_iff :
    (∃ e ∈ counts vs, sameRank v e.1 = true) ↔ ∃ w ∈ vs, sameRank v w = true := by
  constructor
  · rintro ⟨e, he, hrank⟩
    rw [counts_eq_runs] at he
    exact ⟨e.1, (Stats.perm_sortValues vs).subset (Stats.mem_of_mem_runs he), hrank⟩
  · rintro ⟨w, hw, hrank⟩
    refine Stats.exists_of_listed_pos ?_
    rw [listed_counts]
    exact List.countP_pos_iff.mpr ⟨w, hw, hrank⟩

/-! ### Entries -/

/-- The entries that a summary is about: all but lists, of the questions that pass a filter. -/
def summarized (a : Attribute) (filter : QuestionFilter) : List (InstanceKey × Value) :=
  a.values.filter fun e => !e.2.isList && filter.passes e.1.qid

/-- If no value is null, none is left out for that. -/
theorem scalars_eq_summarized (h : ∀ e ∈ a.values, e.2 ≠ .null) (filter : QuestionFilter) :
    a.scalars filter = a.summarized filter := by
  refine List.filter_congr fun e he => ?_
  have hnull : e.2.isNull = false := by
    cases hvalue : e.2 with
    | null => exact absurd hvalue (h e he)
    | _ => rfl
  rw [hnull, Bool.not_false, Bool.true_and]

/-- In an attribute of numbers, what is no list is a number. -/
theorem IsSound.exists_num (h : a.IsSound) (hdtype : a.dtype = .continuous) (hv : (k, v) ∈ a.values)
    (hlist : v.isList = false) : ∃ x, v = .num x := by
  have hnumber := h.continuous.mp hdtype (k, v) hv hlist
  cases v with
  | num x => exact ⟨x, rfl⟩
  | _ => cases hnumber

/-! ### The two tables -/

theorem correct_record : (a.record d model? metric filter).correct =
    counts (((a.scalars filter).filter fun e => !isWrong d model? metric e.1).map (·.2)) := by
  rw [record, List.partition_eq_filter_filter]
  rfl

theorem incorrect_record : (a.record d model? metric filter).incorrect =
    counts (((a.scalars filter).filter fun e => isWrong d model? metric e.1).map (·.2)) := by
  rw [record, List.partition_eq_filter_filter]

/-- A table of the entries with a property lists as many of a place as have the property. -/
theorem listed_counts_filter (entries : List (InstanceKey × Value)) (p : InstanceKey × Value → Bool)
    (v : Value) : listed (counts ((entries.filter p).map (·.2))) v =
      (entries.filter p).countP fun e => sameRank v e.2 := by
  rw [listed_counts, List.countP_map]
  rfl

/-- The correct table counts the values of the instances that the model did not get wrong. -/
theorem listed_correct_record (h : ∀ e ∈ a.values, e.2 ≠ .null) :
    listed (a.record d model? metric filter).correct v =
      ((a.summarized filter).filter fun e => !isWrong d model? metric e.1).countP
        fun e => sameRank v e.2 := by
  rw [correct_record, listed_counts_filter, scalars_eq_summarized h]

/-- The incorrect table counts the values of the instances that the model got wrong. -/
theorem listed_incorrect_record (h : ∀ e ∈ a.values, e.2 ≠ .null) :
    listed (a.record d model? metric filter).incorrect v =
      ((a.summarized filter).filter fun e => isWrong d model? metric e.1).countP
        fun e => sameRank v e.2 := by
  rw [incorrect_record, listed_counts_filter, scalars_eq_summarized h]

/-- The two tables together list the places that are taken. -/
theorem exists_mem_record_iff :
    (∃ e ∈ (a.record d model? metric filter).correct ++ (a.record d model? metric filter).incorrect,
      sameRank v e.1 = true) ↔
    ∃ e ∈ a.scalars filter, sameRank v e.2 = true := by
  have htable (p : InstanceKey × Value → Bool) :
      (∃ e ∈ counts (((a.scalars filter).filter p).map (·.2)), sameRank v e.1 = true) ↔
        ∃ e ∈ a.scalars filter, p e = true ∧ sameRank v e.2 = true := by
    simp only [exists_mem_counts_iff, List.mem_map, exists_exists_and_eq_and]
    simp only [List.mem_filter, and_assoc]
  simp only [List.mem_append, or_and_right, exists_or, correct_record, incorrect_record, htable]
  rw [← exists_or]
  refine exists_congr fun e => ?_
  cases isWrong d model? metric e.1 <;> simp

/-- The domain of categories lists the places that are taken. -/
theorem exists_mem_domain_iff (hdtype : a.dtype = .categorical) :
    (∃ w ∈ a.domain filter, sameRank v w = true) ↔
      ∃ e ∈ a.scalars filter, sameRank v e.2 = true := by
  rw [domain, hdtype]
  dsimp only
  rw [distinct_eq]
  simp only [List.mem_map, exists_exists_and_eq_and, exists_mem_counts_iff]

/-- **Summaries conserve the values.** The two tables of a sound attribute ascend strictly. Each lists
the values of its own instances, so that together they count every place as often as it is taken, and
all entries that the summary is about. For categories, the domain ascends and has the places that the
tables list. -/
theorem record_conserves (h : a.IsSound) (d : Dataset) (model? : Option String) (metric : String)
    (filter : QuestionFilter) :
    IsAscending (a.record d model? metric filter).correct ∧
    IsAscending (a.record d model? metric filter).incorrect ∧
    (∀ v, listed (a.record d model? metric filter).incorrect v =
      ((a.summarized filter).filter fun e => isWrong d model? metric e.1).countP
        fun e => sameRank v e.2) ∧
    (∀ v, listed (a.record d model? metric filter).correct v +
      listed (a.record d model? metric filter).incorrect v =
        (a.summarized filter).countP fun e => sameRank v e.2) ∧
    total (a.record d model? metric filter).correct +
      total (a.record d model? metric filter).incorrect = (a.summarized filter).length ∧
    (a.dtype = .categorical →
      (a.record d model? metric filter).domain.Pairwise (fun v w => compareTotal v w = .lt) ∧
      ∀ v, (∃ e ∈ (a.record d model? metric filter).correct ++
          (a.record d model? metric filter).incorrect, sameRank v e.1 = true) ↔
        ∃ w ∈ (a.record d model? metric filter).domain, sameRank v w = true) := by
  refine ⟨?_, ?_, fun v => listed_incorrect_record h.notNull, fun v => ?_, ?_, fun hdtype => ?_⟩
  · rw [correct_record]
    exact isAscending_counts _
  · rw [incorrect_record]
    exact isAscending_counts _
  · rw [listed_correct_record h.notNull, listed_incorrect_record h.notNull, Nat.add_comm]
    exact (List.countP_eq_countP_filter_add _ _ _).symm
  · rw [correct_record, incorrect_record, total_counts, total_counts, List.length_map,
      List.length_map, scalars_eq_summarized h.notNull, Nat.add_comm]
    exact (List.length_eq_length_filter_add _).symm
  · refine ⟨?_, fun v => exists_mem_record_iff.trans (exists_mem_domain_iff hdtype).symm⟩
    have hdomain : (a.record d model? metric filter).domain =
        (counts ((a.scalars filter).map (·.2))).map (·.1) := by
      rw [record, domain, hdtype]
      exact distinct_eq _
    rw [hdomain]
    exact List.pairwise_map.mpr (isAscending_counts _)

/-! ### Questions by their first words -/

/-- Questions that begin with a word, and one that has a list in its place. The model `m` got one of them
wrong. -/
def wordedQuestions : Dataset :=
  .ofInstances [
    ⟨⟨"q1", 0⟩, Instance.noEdit,
      [("predictions", .label ⟨"m", "x", [("f1", 1)], none, []⟩), ("word", .str "why")]⟩,
    ⟨⟨"q2", 0⟩, Instance.noEdit,
      [("predictions", .label ⟨"m", "y", [("f1", 0)], none, []⟩), ("word", .str "why")]⟩,
    ⟨⟨"q3", 0⟩, Instance.noEdit, [("word", .doc (Document.ofText "how"))]⟩,
    ⟨⟨"q4", 0⟩, Instance.noEdit, [("word", .list [.str "how", .str "why"])]⟩]

/-- The attribute of the first words. -/
def firstWords : Attribute :=
  (Registry.ofConfig {}).computeAttribute ⟨"first", "", "word"⟩ ⟨"word", .ident "word", {}⟩ 4
    wordedQuestions.allItems

/-- Two questions begin with one word, and the model got one of them wrong. The list is left out, and an
answer that is not known counts as correct. -/
theorem record_conserves_firstWords :
    firstWords.IsSound ∧ firstWords.dtype = .categorical ∧
    listed (firstWords.record wordedQuestions (some "m") "f1" none).incorrect (.str "why") = 1 ∧
    listed (firstWords.record wordedQuestions (some "m") "f1" none).correct (.str "why") +
      listed (firstWords.record wordedQuestions (some "m") "f1" none).incorrect (.str "why") = 2 ∧
    total (firstWords.record wordedQuestions (some "m") "f1" none).correct +
      total (firstWords.record wordedQuestions (some "m") "f1" none).incorrect = 3 ∧
    ∃ e ∈ (firstWords.record wordedQuestions (some "m") "f1" none).domain,
      sameRank (.doc (Document.ofText "how")) e = true := by
  have hsound : firstWords.IsSound :=
    Registry.computeAttribute_isSound (Dataset.isFiled_ofInstances _)
      (@CreateOptions.Draws.all {} wordedQuestions 4 (by decide))
  have hdtype : firstWords.dtype = .categorical := by decide +kernel
  obtain ⟨-, -, hincorrect, hlisted, htotal, hdomain⟩ :=
    record_conserves hsound wordedQuestions (some "m") "f1" none
  refine ⟨hsound, hdtype, ?_, ?_, ?_, ((hdomain hdtype).2 _).mp ?_⟩
  · rw [hincorrect]
    decide +kernel
  · rw [hlisted]
    decide +kernel
  · rw [htotal]
    decide +kernel
  · refine exists_mem_record_iff.mpr (List.any_eq_true.mp ?_)
    decide +kernel

end Attribute

end ErrorAnalysis
