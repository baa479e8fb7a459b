import ErrorAnalysis.Proofs.Blocks.Domains
import ErrorAnalysis.Proofs.Statistics.Ranking

/-!
# Values in Bins

The numbers of an attribute are shown by the bins that they are in, and categories by their names, if they
are among the most frequent ones. What holds of the bins is said for exact numbers: the numbers of the
attribute are read as rational ones, and all arithmetic with them is rational. The reading can be any one;
`Number.exact` is the one that is meant, and keeps the order of numbers. Binary64 arithmetic rounds, and
nothing is claimed of the edges that come out of it.

## Main results

* `Attribute.keys_bins`: the values that are no lists are put into bins.
* `Attribute.bins_hold`: **every number is put into a bin that holds it.**
* `Attribute.discretize_mostFrequent`: **the most frequent categories keep their names.**
-/

namespace ErrorAnalysis

namespace Attribute

open Value (sameRank)

variable {a : Attribute} {α : Type} {count : ℕ} {k : InstanceKey} {x : Number}

/-! ### Numbers -/

theorem scalars_none (h : ∀ e ∈ a.values, e.2 ≠ .null) :
    a.scalars none = a.values.filter fun e => !e.2.isList := by
  rw [scalars_eq_summarized h, summarized]
  exact List.filter_congr fun e _ => Bool.and_true _

/-- The numbers of an attribute stand under the keys of the values that are no lists. -/
theorem keys_quantities (h : a.IsSound) (hdtype : a.dtype = .continuous) (read : Number → α) :
    (a.quantities read).map (·.1) = Assoc.keys (a.values.filter fun e => !e.2.isList) := by
  rw [quantities, List.map_filterMap, scalars_none h.notNull, Assoc.keys, ← List.filterMap_eq_map]
  refine List.filterMap_congr fun e he => ?_
  obtain ⟨hmem, hlist⟩ := List.mem_filter.mp he
  obtain ⟨k, v⟩ := e
  obtain ⟨x, rfl⟩ := h.exists_num hdtype hmem ((Bool.not_eq_true' _).mp hlist)
  rfl

theorem mem_quantities (h : a.IsSound) (hx : (k, .num x) ∈ a.values) (read : Number → α) :
    (k, read x) ∈ a.quantities read := by
  refine List.mem_filterMap.mpr ⟨(k, .num x), ?_, rfl⟩
  rw [scalars_none h.notNull]
  exact List.mem_filter.mpr ⟨hx, rfl⟩

/-! ### Bins -/

section Exact

variable {read : Number → ℚ} {edgeText : ℚ → String}

/-- Where there are numbers, there are edges. -/
theorem bins_eq (a : Attribute) (read : Number → ℚ) (edgeText : ℚ → String) (count : ℕ) :
    a.bins read edgeText count = (a.quantities read).map fun e =>
      (e.1, binText edgeText (Stats.binAround e.2 (a.edges read count))) := by
  rw [bins]
  split
  · next hempty =>
      cases hquantities : a.quantities read with
      | nil => rfl
      | cons e rest =>
          have he : e.2 ∈ (a.quantities read).map (·.2) := by
            rw [hquantities]
            exact List.mem_cons_self
          have hpos : 0 < Stats.binOf e.2 (a.edges read count) := Stats.binOf_edgesFor_pos he count
          rw [List.isEmpty_iff.mp hempty] at hpos
          cases hpos
  · rfl

theorem keys_bins (h : a.IsSound) (hdtype : a.dtype = .continuous) (read : Number → ℚ)
    (edgeText : ℚ → String) (count : ℕ) : Assoc.keys (a.bins read edgeText count) =
      Assoc.keys (a.values.filter fun e => !e.2.isList) := by
  rw [bins_eq, Assoc.keys, List.map_map, ← keys_quantities h hdtype read]
  rfl

theorem sorted_bins (h : a.IsSound) (hdtype : a.dtype = .continuous) :
    Assoc.Sorted (a.bins read edgeText count) := by
  have hkeys : (Assoc.keys (a.bins read edgeText count)).Pairwise fun k k' => compare k k' = .lt := by
    rw [keys_bins h hdtype]
    exact List.pairwise_map.mpr (h.sorted.sublist List.filter_sublist)
  exact List.pairwise_map.mp hkeys

/-- **Every number is put into a bin that holds it.** The edges ascend, and what gets a bin are the keys of
the values that are no lists. The two edges that a bin is named by stand at positions among all of them.
The lower one is not above the number. The upper one is the next of them and above the number, unless the
lower one is the last of all, which is then on both sides.

No number is below the first edge, so the positions do not go below the first one. This does not depend on
how many bins there should be, on whether their distance in percent divides a hundred, or on whether the
edges were made integral, which can put the last of them below the greatest number. -/
theorem bins_hold (h : a.IsSound) (hdtype : a.dtype = .continuous) (read : Number → ℚ)
    (edgeText : ℚ → String) (count : ℕ) :
    (a.edges read count).Pairwise (· ≤ ·) ∧
    Assoc.keys (a.bins read edgeText count) = Assoc.keys (a.values.filter fun e => !e.2.isList) ∧
    ∀ k v, (k, v) ∈ a.values → v.isList = false →
      ∃ x i j lo hi, v = .num x ∧
        Stats.binPositions (read x) (a.edges read count) = (i, j) ∧
        (a.edges read count)[i]? = some lo ∧ (a.edges read count)[j]? = some hi ∧
        Assoc.find? (a.bins read edgeText count) k = some (binText edgeText (lo, hi)) ∧
        lo ≤ read x ∧
        (j = i + 1 ∧ read x < hi ∨ i + 1 = (a.edges read count).length ∧ hi = lo) := by
  refine ⟨Stats.pairwise_edgesFor _ _, keys_bins h hdtype read edgeText count, fun k v hv hlist => ?_⟩
  obtain ⟨x, rfl⟩ := h.exists_num hdtype hv hlist
  have hx := mem_quantities h hv read
  have hpos := Stats.binOf_edgesFor_pos (List.mem_map_of_mem (f := (·.2)) hx) count
  obtain ⟨lo, hi, hlo, hhi, haround, hle, hnext⟩ := Stats.exists_edges_around hpos
  refine ⟨x, _, _, lo, hi, rfl, rfl, hlo, hhi, ?_, of_decide_eq_true hle, ?_⟩
  · rw [Assoc.find?_eq_some_iff_mem (sorted_bins h hdtype), bins_eq, ← haround]
    exact List.mem_map_of_mem hx
  · exact hnext.imp_left fun ⟨hsucc, hnot⟩ => ⟨hsucc, not_le.mp (of_decide_eq_false hnot)⟩

/-- The counts are read as 3, 0, 4, 1 and 2. The edges of three bins are a third of the way apart, and
integral. The last of them is below the greatest count, which has it on both sides. -/
theorem bins_hold_scattered :
    scattered.IsSound ∧ scattered.dtype = .continuous ∧
    scattered.edges Number.exact 3 = [0, 1, 2, 3] ∧
    Assoc.keys (scattered.bins Number.exact toString 3) =
      [⟨"q1", 0⟩, ⟨"q2", 0⟩, ⟨"q3", 0⟩, ⟨"q5", 0⟩, ⟨"q6", 0⟩] ∧
    Assoc.find? (scattered.bins Number.exact toString 3) ⟨"q3", 0⟩ =
      some (binText toString (3, 3)) := by
  have hquantities : scattered.quantities Number.exact =
      [(⟨"q1", 0⟩, 3), (⟨"q2", 0⟩, 0), (⟨"q3", 0⟩, 4), (⟨"q5", 0⟩, 1), (⟨"q6", 0⟩, 2)] := by
    decide +kernel
  have hsorted : Stats.sortedNumbers ([3, 0, 4, 1, 2] : List ℚ) = [0, 1, 2, 3, 4] :=
    List.Perm.eq_of_pairwise (fun _ _ _ _ => le_antisymm)
      (Stats.pairwise_sortedNumbers_exact _) (by decide +kernel)
      ((Stats.perm_sortedNumbers_exact _).trans (by decide +kernel))
  have hedges : scattered.edges Number.exact 3 = [0, 1, 2, 3] := by
    rw [edges, hquantities]
    change Stats.edgesFor [3, 0, 4, 1, 2] 3 = _
    rw [Stats.edgesFor, hsorted]
    decide +kernel
  obtain ⟨-, hkeys, hholds⟩ := bins_hold isSound_scattered dtype_scattered Number.exact toString 3
  refine ⟨isSound_scattered, dtype_scattered, hedges, hkeys.trans (by decide +kernel), ?_⟩
  have hkey : (⟨"q3", 0⟩ : InstanceKey) ∈ Assoc.keys (scattered.values.filter fun e => !e.2.isList) := by
    decide +kernel
  obtain ⟨⟨k, v⟩, hmem, hk⟩ := List.mem_map.mp hkey
  obtain rfl : k = ⟨"q3", 0⟩ := hk
  obtain ⟨hv, hlist⟩ := List.mem_filter.mp hmem
  obtain ⟨x, i, j, lo, hi, rfl, hpositions, hlo, hhi, hfind, -⟩ :=
    hholds _ v hv ((Bool.not_eq_true' _).mp hlist)
  have hx : Number.exact x = 4 := by
    have hx := mem_quantities isSound_scattered hv Number.exact
    rw [hquantities] at hx
    simpa using hx
  rw [hx, hedges] at hpositions
  obtain ⟨rfl, rfl⟩ : (3, 3) = (i, j) := hpositions
  rw [hedges] at hlo hhi
  obtain rfl : 3 = lo := Option.some.inj hlo
  obtain rfl : 3 = hi := Option.some.inj hhi
  exact hfind

end Exact

/-! ### Categories -/

/-- **The most frequent categories keep their names.** Every key keeps its place. There are values of no
more places than should be kept, and what has one of these places is shown by its own text, all else as
other. Values of one place are shown alike. A place that is kept is taken more often than one that is not,
or as often, and then it is the lower one; if one is not kept, as many are as should be; and if there are
no more places than that, all are. Lists are counted among the values here. -/
theorem discretize_mostFrequent (hdtype : a.dtype = .categorical) (config : Config) :
    ∃ kept, Stats.Picks (Assoc.values a.values) kept ∧ kept.length ≤ config.topCategories ∧
      a.discretize config = a.values.map (fun e =>
        (e.1, if Stats.hasPlace kept e.2 then e.2.text else otherText)) ∧
      (∀ v w, sameRank v w = true →
        Stats.hasPlace kept v = Stats.hasPlace kept w ∧ v.text = w.text) ∧
      (∀ v ∈ Assoc.values a.values, ∀ w ∈ Assoc.values a.values,
        Stats.hasPlace kept v = true → Stats.hasPlace kept w = false →
          Stats.Outranks (Assoc.values a.values) v w) ∧
      (∀ v ∈ Assoc.values a.values, Stats.hasPlace kept v = false →
        kept.length = config.topCategories) ∧
      ((∀ picked, Stats.Picks (Assoc.values a.values) picked →
        picked.length ≤ config.topCategories) →
          ∀ v ∈ Assoc.values a.values, Stats.hasPlace kept v = true) := by
  refine ⟨Stats.mostFrequent (Assoc.values a.values) config.topCategories,
    Stats.picks_mostFrequent _ _, Stats.length_mostFrequent_le, ?_, fun v w hrank => ?_,
    fun v _ w hw hv hnot => Stats.outranks_of_hasPlace hv hw hnot,
    fun v hv hnot => Stats.length_mostFrequent_of_hasPlace hv hnot,
    fun hfew v hv => Stats.hasPlace_of_forall_picks hfew hv⟩
  · rw [discretize, hdtype]
    rfl
  · exact ⟨Stats.hasPlace_congr hrank, Value.text_eq_of_compareTotal (Value.sameRank_iff.mp hrank)⟩

/-- If one category keeps its name, then it is the word that two questions begin with, and not the one
that a single question begins with. -/
theorem discretize_mostFrequent_firstWords :
    firstWords.dtype = .categorical ∧ ∃ kept : List Value, kept.length ≤ 1 ∧
      firstWords.discretize { topCategories := 1 } = firstWords.values.map (fun e =>
        (e.1, if Stats.hasPlace kept e.2 then e.2.text else otherText)) ∧
      Stats.hasPlace kept (.str "why") = true ∧
      Stats.hasPlace kept (.doc (Document.ofText "how")) = false := by
  have hdtype : firstWords.dtype = .categorical := by decide +kernel
  obtain ⟨kept, ⟨hsubset, -⟩, hlength, hlabels, -, houtranks, hfull, -⟩ :=
    discretize_mostFrequent hdtype { topCategories := 1 }
  have htaken : (Assoc.values firstWords.values).any (sameRank (.str "why")) = true := by
    decide +kernel
  have htwice : Stats.frequency (Assoc.values firstWords.values) (.str "why") = 2 := by
    decide +kernel
  have honce : (Assoc.values firstWords.values).all (fun v => sameRank v (.str "why") ||
      decide (Stats.frequency (Assoc.values firstWords.values) v < 2)) = true := by
    decide +kernel
  obtain ⟨w, hw, hrank⟩ := List.any_eq_true.mp htaken
  obtain rfl := Value.eq_of_compareTotal (Value.sameRank_iff.mp hrank) rfl nofun
  have hwhy : Stats.hasPlace kept (.str "why") = true := by
    by_contra hnot
    obtain ⟨k, rfl⟩ := List.length_eq_one_iff.mp (hfull _ hw (Bool.eq_false_iff.mpr hnot))
    have hk : k ∈ Assoc.values firstWords.values := hsubset List.mem_cons_self
    have hplace : Stats.hasPlace [k] k = true :=
      Stats.hasPlace_iff.mpr ⟨k, List.mem_cons_self, Value.sameRank_self k⟩
    rcases Bool.or_eq_true_iff.mp (List.all_eq_true.mp honce k hk) with hsame | hrare
    · exact hnot (Stats.hasPlace_iff.mpr ⟨k, List.mem_cons_self, hsame⟩)
    · have hrare := of_decide_eq_true hrare
      rcases houtranks k hk _ hw hplace (Bool.eq_false_iff.mpr hnot) with hmore | ⟨hequal, -⟩ <;>
        omega
  refine ⟨hdtype, kept, hlength, hlabels, hwhy, Bool.eq_false_iff.mpr fun hhow => ?_⟩
  -- the one that is kept cannot have the places of both words
  obtain ⟨k, hk, hkwhy⟩ := Stats.hasPlace_iff.mp hwhy
  obtain ⟨k', hk', hkhow⟩ := Stats.hasPlace_iff.mp hhow
  obtain ⟨k₀, rfl⟩ := List.length_eq_one_iff.mp
    (le_antisymm hlength (List.length_pos_of_mem hk))
  obtain rfl := List.mem_singleton.mp hk
  obtain rfl := List.mem_singleton.mp hk'
  rw [Value.sameRank_congr_left hkwhy] at hkhow
  exact absurd hkhow (by decide +kernel)

end Attribute

end ErrorAnalysis
