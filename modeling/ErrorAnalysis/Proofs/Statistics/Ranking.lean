import ErrorAnalysis.Proofs.Statistics.Frequencies

/-!
# The Most Frequent Values

A frequency table is sorted by its counts once it was made. Sorting leaves entries of one count in their
order, which is that of the values; so the entries come in the order of their counts, and of their values
where these are equal. The first `n` entries are then the most frequent places, and no choice is left
among places that are equally frequent.

## Main definitions

* `Stats.frequency`: how often the place of a value is taken.
* `Stats.Outranks`: one value is more frequent than another, or as frequent and below it.
* `Stats.Picks`: values among others, of one place each.
* `Stats.mostFrequent`: the first values by frequency.

## Main results

* `Stats.filter_mergeSort`: **sorting leaves entries that are in order as they are.**
* `Stats.pairwise_valueCounts`: a table by frequency is in order of counts and values.
* `Stats.eq_frequency_of_mem_valueCounts`: an entry has the frequency of its place.
* `Stats.outranks_of_hasPlace`: **the most frequent values outrank the others.**
-/

namespace ErrorAnalysis

namespace Stats

open Value (sameRank compareTotal)

variable {v w : Value} {vs : List Value} {n : ℕ} {table : List (Value × ℕ)} {e e' : Value × ℕ}

/-! ### Stability -/

/-- **Sorting leaves entries that are in order as they are,** wherever the others go. -/
theorem filter_mergeSort {α : Type} {r : α → α → Bool} (p : α → Bool) {xs : List α}
    (htrans : ∀ a b c, r a b = true → r b c = true → r a c = true)
    (htotal : ∀ a b, (r a b || r b a) = true)
    (h : (xs.filter p).Pairwise fun a b => r a b = true) :
    (xs.mergeSort r).filter p = xs.filter p := by
  have hsublist := (List.sublist_mergeSort htrans htotal h List.filter_sublist).filter p
  simp only [List.filter_filter, Bool.and_self] at hsublist
  exact (hsublist.eq_of_length ((List.mergeSort_perm xs r).filter p).length_eq.symm).symm

/-! ### Entries -/

/-- How often the place of a value is taken. -/
def frequency (vs : List Value) (v : Value) : ℕ :=
  vs.countP (sameRank v)

theorem frequency_congr (h : sameRank v w = true) : frequency vs v = frequency vs w :=
  List.countP_congr fun _ _ => by rw [Value.sameRank_congr_left h]

/-- In a table that ascends, an entry is all that is listed of its place. -/
theorem listed_of_mem (h : IsAscending table) (he : e ∈ table) : listed table e.1 = e.2 := by
  induction table with
  | nil => cases he
  | cons e' table ih =>
      obtain ⟨hhead, htable⟩ := List.pairwise_cons.mp h
      rw [show e' = (e'.1, e'.2) from rfl, listed_cons]
      rcases List.mem_cons.mp he with rfl | he
      · have hnone : table.filter (fun e' => sameRank e.1 e'.1) = [] :=
          List.filter_eq_nil_iff.mpr fun e' he' => by rw [sameRank_of_lt (hhead e' he')]; nofun
        rw [Value.sameRank_self, listed, hnone]
        rfl
      · rw [Value.sameRank_comm, sameRank_of_lt (hhead e he), ih htable he]
        exact Nat.zero_add _

/-- Each place has an entry. -/
theorem exists_mem_valueCounts (hv : v ∈ vs) : ∃ e ∈ valueCounts vs, sameRank v e.1 = true := by
  have hlisted : 0 < listed (runs (sortValues vs)) v := by
    rw [listed_runs, (perm_sortValues vs).countP_eq]
    exact countP_sameRank_pos hv
  obtain ⟨e, he, hrank⟩ := exists_of_listed_pos hlisted
  exact ⟨e, List.mem_mergeSort.mpr he, hrank⟩

theorem mem_of_mem_valueCounts (he : e ∈ valueCounts vs) : e.1 ∈ vs :=
  (perm_sortValues vs).subset (mem_of_mem_runs (List.mem_mergeSort.mp he))

/-- An entry has the frequency of its place. -/
theorem eq_frequency_of_mem_valueCounts (he : e ∈ valueCounts vs) : e.2 = frequency vs e.1 := by
  have hascending := isAscending_runs (pairwise_sortValues vs)
  rw [← listed_of_mem hascending (List.mem_mergeSort.mp he), listed_runs]
  exact (perm_sortValues vs).countP_eq _

/-! ### Ranks -/

/-- One value is more frequent than another, or as frequent and below it. -/
def Outranks (vs : List Value) (v w : Value) : Prop :=
  frequency vs w < frequency vs v ∨
    frequency vs v = frequency vs w ∧ compareTotal v w = .lt

theorem Outranks.congr {v' w' : Value} (hv : sameRank v v' = true) (hw : sameRank w w' = true)
    (h : Outranks vs v w) : Outranks vs v' w' := by
  rw [Outranks, ← frequency_congr hv, ← frequency_congr hw,
    ← (Value.isTransitive_compareTotal v v' w').eq_of_eq (Value.sameRank_iff.mp hv),
    ← Std.TransCmp.congr_right (Value.sameRank_iff.mp hw)]
  exact h

theorem Outranks.sameRank (h : Outranks vs v w) : sameRank v w = false := by
  rcases h with hlt | ⟨-, hlt⟩
  · refine Bool.eq_false_iff.mpr fun hrank => hlt.ne ?_
    exact (frequency_congr hrank).symm
  · exact sameRank_of_lt hlt

/-- **A table by frequency is in order of counts and values.** -/
theorem pairwise_valueCounts (vs : List Value) :
    (valueCounts vs).Pairwise fun e e' => Outranks vs e.1 e'.1 := by
  have htrans (e₁ e₂ e₃ : Value × ℕ) (h : decide (e₂.2 ≤ e₁.2) = true)
      (h' : decide (e₃.2 ≤ e₂.2) = true) : decide (e₃.2 ≤ e₁.2) = true :=
    decide_eq_true ((of_decide_eq_true h').trans (of_decide_eq_true h))
  have htotal (e e' : Value × ℕ) : (decide (e'.2 ≤ e.2) || decide (e.2 ≤ e'.2)) = true := by
    rw [Bool.or_eq_true]
    exact (le_total e'.2 e.2).imp decide_eq_true decide_eq_true
  have hascending := isAscending_runs (pairwise_sortValues vs)
  rw [List.pairwise_iff_forall_sublist]
  intro e e' hpair
  have hle : e'.2 ≤ e.2 := of_decide_eq_true <|
    List.pairwise_iff_forall_sublist.mp (List.pairwise_mergeSort htrans htotal _) hpair
  rw [Outranks, ← eq_frequency_of_mem_valueCounts (hpair.subset List.mem_cons_self),
    ← eq_frequency_of_mem_valueCounts (hpair.subset (List.mem_cons_of_mem _ List.mem_cons_self))]
  refine hle.lt_or_eq.imp_right fun heq => ⟨heq.symm, ?_⟩
  -- entries of one count are in the order in which they were before sorting
  have hstable : (valueCounts vs).filter (fun x => decide (x.2 = e.2)) =
      (runs (sortValues vs)).filter fun x => decide (x.2 = e.2) := by
    refine filter_mergeSort _ htrans htotal (List.pairwise_of_forall_mem_list fun x hx y hy => ?_)
    have hx := of_decide_eq_true (List.mem_filter.mp hx).2
    have hy := of_decide_eq_true (List.mem_filter.mp hy).2
    exact decide_eq_true (hy.trans hx.symm).le
  have hboth : [e, e'].filter (fun x => decide (x.2 = e.2)) = [e, e'] := by simp [heq]
  have hfiltered := hpair.filter fun x => decide (x.2 = e.2)
  rw [hstable, hboth] at hfiltered
  exact List.pairwise_iff_forall_sublist.mp hascending (hfiltered.trans List.filter_sublist)

/-! ### The most frequent -/

/-- Values among others of which no two have one place. -/
def Picks (vs picked : List Value) : Prop :=
  picked ⊆ vs ∧ picked.Pairwise fun v w => sameRank v w = false

/-- Whether one of some values has the place of a value. -/
def hasPlace (ws : List Value) (v : Value) : Bool :=
  ws.any (·.sameRank v)

/-- The first values by frequency. -/
def mostFrequent (vs : List Value) (n : ℕ) : List Value :=
  ((valueCounts vs).take n).map (·.1)

theorem hasPlace_iff : hasPlace vs v = true ↔ ∃ w ∈ vs, sameRank w v = true :=
  List.any_eq_true

theorem hasPlace_congr (h : sameRank v w = true) : hasPlace vs v = hasPlace vs w := by
  simp only [hasPlace, Value.sameRank_congr_right h]

theorem Picks.sublist {picked picked' : List Value} (h : Picks vs picked)
    (hsublist : picked'.Sublist picked) : Picks vs picked' :=
  ⟨fun _ hv => h.1 (hsublist.subset hv), h.2.sublist hsublist⟩

/-- A table has an entry for one value of each place. -/
theorem picks_valueCounts (vs : List Value) : Picks vs ((valueCounts vs).map (·.1)) := by
  refine ⟨fun v hv => ?_, List.pairwise_map.mpr ((pairwise_valueCounts vs).imp Outranks.sameRank)⟩
  obtain ⟨e, he, rfl⟩ := List.mem_map.mp hv
  exact mem_of_mem_valueCounts he

theorem picks_mostFrequent (vs : List Value) (n : ℕ) : Picks vs (mostFrequent vs n) :=
  (picks_valueCounts vs).sublist ((List.take_sublist n _).map _)

theorem length_mostFrequent_le : (mostFrequent vs n).length ≤ n := by
  rw [mostFrequent, List.length_map]
  exact List.length_take_le _ _

/-- A value that is not among the most frequent has its entry behind theirs. -/
theorem exists_mem_drop_valueCounts (hv : v ∈ vs) (h : hasPlace (mostFrequent vs n) v = false) :
    ∃ e ∈ (valueCounts vs).drop n, sameRank v e.1 = true := by
  obtain ⟨e, he, hrank⟩ := exists_mem_valueCounts hv
  rw [← List.take_append_drop n (valueCounts vs)] at he
  refine (List.mem_append.mp he).elim (fun htake => ?_) fun hdrop => ⟨e, hdrop, hrank⟩
  have hplace : hasPlace (mostFrequent vs n) v = true :=
    hasPlace_iff.mpr ⟨e.1, List.mem_map_of_mem htake, Value.sameRank_comm.trans hrank⟩
  rw [h] at hplace
  cases hplace

/-- **The most frequent values outrank the others.** -/
theorem outranks_of_hasPlace (hv : hasPlace (mostFrequent vs n) v = true) (hw : w ∈ vs)
    (h : hasPlace (mostFrequent vs n) w = false) : Outranks vs v w := by
  obtain ⟨k, hk, hrank⟩ := hasPlace_iff.mp hv
  obtain ⟨e, he, rfl⟩ := List.mem_map.mp hk
  obtain ⟨e', he', hrank'⟩ := exists_mem_drop_valueCounts hw h
  have hordered := pairwise_valueCounts vs
  rw [← List.take_append_drop n (valueCounts vs), List.pairwise_append] at hordered
  exact (hordered.2.2 e he e' he').congr hrank (Value.sameRank_comm.trans hrank')

/-- If a value is not among the most frequent, these are as many as they can be. -/
theorem length_mostFrequent_of_hasPlace (hv : v ∈ vs) (h : hasPlace (mostFrequent vs n) v = false) :
    (mostFrequent vs n).length = n := by
  obtain ⟨e, he, -⟩ := exists_mem_drop_valueCounts hv h
  have hlt : n < (valueCounts vs).length := by
    by_contra hge
    rw [List.drop_of_length_le (not_lt.mp hge)] at he
    cases he
  rw [mostFrequent, List.length_map, List.length_take_of_le hlt.le]

/-- Of no more than `n` places, all are among the most frequent. -/
theorem hasPlace_of_forall_picks (h : ∀ picked, Picks vs picked → picked.length ≤ n) (hv : v ∈ vs) :
    hasPlace (mostFrequent vs n) v = true := by
  by_contra hnot
  obtain ⟨e, he, -⟩ := exists_mem_drop_valueCounts hv (Bool.eq_false_iff.mpr hnot)
  have hlength := h _ (picks_valueCounts vs)
  rw [List.length_map] at hlength
  rw [List.drop_of_length_le hlength] at he
  cases he

end Stats

end ErrorAnalysis
