import ErrorAnalysis.Proofs.Statistics.Ranking

/-!
# Frequency Tables as a Whole

A frequency table is told by what it says of the values: it lists one value of each place, with the number
of values that have this place, the most frequent first and the lower of two that are equally frequent.
This leaves no choice but which value stands for its place. So tables of the same values agree entry by
entry, in whatever order the values come.

## Main definitions

* `Stats.IsFrequencyTable`: the table lists the places of values with their counts, in order.
* `Stats.SameEntry`: two entries have one place and one count.

## Main results

* `Stats.forall₂_of_outranks`: values in order of frequency are determined up to place.
* `Stats.IsFrequencyTable.agree`: **values have one frequency table up to place.**
* `Stats.valueCounts_tabulates`: **values are counted by place.**
-/

namespace ErrorAnalysis

namespace Stats

open Value (sameRank compareTotal)

variable {v w : Value} {vs ws xs ys : List Value} {table table' : List (Value × ℕ)}

/-! ### Order of frequency -/

theorem Outranks.asymm (h : Outranks vs v w) : ¬ Outranks vs w v := by
  rintro (hlt | ⟨heq, hlt⟩)
  · rcases h with hlt' | ⟨heq', -⟩ <;> omega
  · rcases h with hlt' | ⟨-, hlt'⟩
    · omega
    · rw [Value.compareTotal_swap v w, hlt'] at hlt
      cases hlt

/-- The first of values in order of frequency has any place that is taken, or outranks it. -/
theorem sameRank_or_outranks (h : (v :: xs).Pairwise (Outranks vs))
    (hplace : hasPlace (v :: xs) w = true) : sameRank v w = true ∨ Outranks vs v w := by
  obtain ⟨u, hu, hrank⟩ := hasPlace_iff.mp hplace
  rcases List.mem_cons.mp hu with rfl | hu
  · exact .inl hrank
  · exact .inr ((List.rel_of_pairwise_cons h hu).congr (Value.sameRank_self v) hrank)

theorem hasPlace_of_cons (hplace : hasPlace (v :: xs) w = true) (hne : sameRank v w = false) :
    hasPlace xs w = true := by
  rwa [hasPlace, List.any_cons, hne, Bool.false_or] at hplace

/-- Values in order of frequency are determined by the places that they take, up to the choice of one
value of each place. -/
theorem forall₂_of_outranks (hxs : xs.Pairwise (Outranks vs)) (hys : ys.Pairwise (Outranks vs))
    (hsubset : ∀ v ∈ xs, hasPlace ys v = true) (hsupset : ∀ w ∈ ys, hasPlace xs w = true) :
    List.Forall₂ (fun v w => sameRank v w = true) xs ys := by
  induction xs generalizing ys with
  | nil =>
      cases ys with
      | nil => exact .nil
      | cons w ys => cases hsupset w List.mem_cons_self
  | cons v xs ih =>
      cases ys with
      | nil => cases hsubset v List.mem_cons_self
      | cons w ys =>
          have hrank : sameRank v w = true := by
            rcases sameRank_or_outranks hxs (hsupset w List.mem_cons_self) with hrank | hvw
            · exact hrank
            · rcases sameRank_or_outranks hys (hsubset v List.mem_cons_self) with hrank | hwv
              · exact Value.sameRank_comm.trans hrank
              · exact absurd hwv hvw.asymm
          -- the places behind the first one are not that of either first value
          refine .cons hrank (ih hxs.of_cons hys.of_cons (fun u hu => ?_) fun u hu => ?_)
          · have hne := (List.rel_of_pairwise_cons hxs hu).sameRank
            rw [Value.sameRank_congr_left hrank] at hne
            exact hasPlace_of_cons (hsubset u (List.mem_cons_of_mem _ hu)) hne
          · have hne := (List.rel_of_pairwise_cons hys hu).sameRank
            rw [← Value.sameRank_congr_left hrank] at hne
            exact hasPlace_of_cons (hsupset u (List.mem_cons_of_mem _ hu)) hne

/-! ### The table -/

/-- A table lists the places of values with their counts: the counts add up to the number of values, the
values of the table are some of them and no two of one place, each value has the place of exactly one
entry, the count of an entry is the number of values of its place, and the entries come in descending
order of their counts and in ascending order of their values where these are equal. -/
structure IsFrequencyTable (vs : List Value) (table : List (Value × ℕ)) : Prop where
  total_eq : total table = vs.length
  mem : ∀ e ∈ table, e.1 ∈ vs
  distinct : table.Pairwise fun e e' => sameRank e.1 e'.1 = false
  existsUnique : ∀ v ∈ vs, ∃! e, e ∈ table ∧ sameRank v e.1 = true
  count_eq : ∀ e ∈ table, e.2 = vs.countP (sameRank e.1)
  ordered : table.Pairwise fun e e' => e'.2 < e.2 ∨ e.2 = e'.2 ∧ compareTotal e.1 e'.1 = .lt

/-- Two entries have one place and one count. -/
def SameEntry (e e' : Value × ℕ) : Prop :=
  sameRank e.1 e'.1 = true ∧ e.2 = e'.2

namespace IsFrequencyTable

/-- The order of the values does not matter. -/
theorem perm (h : IsFrequencyTable vs table) (hperm : vs.Perm ws) : IsFrequencyTable ws table where
  total_eq := h.total_eq.trans hperm.length_eq
  mem e he := hperm.subset (h.mem e he)
  distinct := h.distinct
  existsUnique v hv := h.existsUnique v (hperm.symm.subset hv)
  count_eq e he := (h.count_eq e he).trans (hperm.countP_eq _)
  ordered := h.ordered

theorem pairwise_outranks (h : IsFrequencyTable vs table) :
    (table.map (·.1)).Pairwise (Outranks vs) := by
  refine List.pairwise_map.mpr (h.ordered.imp_of_mem fun he he' hordered => ?_)
  rwa [h.count_eq _ he, h.count_eq _ he'] at hordered

/-- Each place that is taken is that of an entry. -/
theorem hasPlace (h : IsFrequencyTable vs table) (hv : v ∈ vs) :
    hasPlace (table.map (·.1)) v = true := by
  obtain ⟨e, ⟨he, hrank⟩, -⟩ := h.existsUnique v hv
  exact hasPlace_iff.mpr ⟨e.1, List.mem_map_of_mem he, Value.sameRank_comm.trans hrank⟩

theorem mem_of_mem_map (h : IsFrequencyTable vs table) (hv : v ∈ table.map (·.1)) : v ∈ vs := by
  obtain ⟨e, he, rfl⟩ := List.mem_map.mp hv
  exact h.mem e he

/-- **Values have one frequency table up to place.** -/
theorem agree (h : IsFrequencyTable vs table) (h' : IsFrequencyTable vs table') :
    List.Forall₂ SameEntry table table' := by
  have hranks := forall₂_of_outranks h.pairwise_outranks h'.pairwise_outranks
    (fun v hv => h'.hasPlace (h.mem_of_mem_map hv)) fun v hv => h.hasPlace (h'.mem_of_mem_map hv)
  rw [List.forall₂_map_left_iff, List.forall₂_map_right_iff, List.forall₂_iff_zip] at hranks
  refine List.forall₂_iff_zip.mpr ⟨hranks.1, fun {e e'} hzip => ?_⟩
  obtain ⟨he, he'⟩ := List.of_mem_zip hzip
  have hrank := hranks.2 hzip
  refine ⟨hrank, ?_⟩
  calc e.2 = frequency vs e.1 := h.count_eq e he
    _ = frequency vs e'.1 := frequency_congr hrank
    _ = e'.2 := (h'.count_eq e' he').symm

end IsFrequencyTable

/-! ### What is computed -/

theorem total_valueCounts (vs : List Value) : total (valueCounts vs) = vs.length := by
  have hperm : (valueCounts vs).Perm (runs (sortValues vs)) := List.mergeSort_perm _ _
  rw [total, (hperm.map _).sum_eq, ← total, total_runs, (perm_sortValues vs).length_eq]

/-- A value does not have the places of two entries. -/
theorem existsUnique_mem_valueCounts (hv : v ∈ vs) :
    ∃! e, e ∈ valueCounts vs ∧ sameRank v e.1 = true := by
  obtain ⟨e, he, hrank⟩ := exists_mem_valueCounts hv
  refine ⟨e, ⟨he, hrank⟩, fun e' ⟨he', hrank'⟩ => ?_⟩
  have hsame : sameRank e'.1 e.1 = true := by rw [← Value.sameRank_congr_left hrank', hrank]
  exact eq_of_sameRank ((pairwise_valueCounts vs).imp Outranks.sameRank) he' he hsame

theorem isFrequencyTable_valueCounts (vs : List Value) : IsFrequencyTable vs (valueCounts vs) where
  total_eq := total_valueCounts vs
  mem _ he := mem_of_mem_valueCounts he
  distinct := (pairwise_valueCounts vs).imp Outranks.sameRank
  existsUnique _ hv := existsUnique_mem_valueCounts hv
  count_eq _ he := eq_frequency_of_mem_valueCounts he
  ordered := (pairwise_valueCounts vs).imp_of_mem fun he he' houtranks => by
    rwa [eq_frequency_of_mem_valueCounts he, eq_frequency_of_mem_valueCounts he']

/-- **Values are counted by place.** The counts add up to the number of values; the values that are
listed are of different places, and each of the values counted has the place of exactly one of them; the
count is the number of values of the place; the entries descend by count, and values of equal count
ascend. To put the values in another order changes no count and no entry's position, and which value is
listed only within its place. -/
theorem valueCounts_tabulates (vs : List Value) :
    IsFrequencyTable vs (valueCounts vs) ∧
    ∀ ws, vs.Perm ws → List.Forall₂ SameEntry (valueCounts vs) (valueCounts ws) :=
  ⟨isFrequencyTable_valueCounts vs, fun ws hperm =>
    (isFrequencyTable_valueCounts vs).agree ((isFrequencyTable_valueCounts ws).perm hperm.symm)⟩

example : (valueCounts [.str "b", .str "a", .str "b", .str "c"]).map (fun e => (e.1.text, e.2)) =
    [("b", 2), ("a", 1), ("c", 1)] := by
  cbv

end Stats

end ErrorAnalysis
