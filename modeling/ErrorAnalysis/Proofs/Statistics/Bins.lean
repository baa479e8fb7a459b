import Mathlib.Data.List.TakeWhile
import Mathlib.Data.Rat.Floor
import ErrorAnalysis.Stats
import ErrorAnalysis.Proofs.Number.Exact

/-!
# Percentiles and Bins of Exact Numbers

The edges of bins are percentiles in equal steps. Read over exact numbers, a percentile lies between the
items around its rank and grows with the percentage, so the edges ascend; to make them integral keeps that.
The first edge is not above any of the numbers. What is looked up around a number are then the last edge
that is not above it and the next one, whether edges repeat and whether the last of them is the greatest
number.

## Main definitions

* `Stats.interpolate`: what lies at a rank between two items.

## Main results

* `Stats.interpolate_mono`: **what lies at a rank grows with the rank.**
* `Stats.pairwise_edgesFor`: the edges ascend.
* `Stats.exists_edges_around`: **the edges around a number hold it.**
* `Stats.sortedNumbers_map_exact`: finite numbers are sorted as their exact values are.
-/

namespace ErrorAnalysis

/-- Exact numbers all exist, and they are sorted as they are compared. -/
instance : Quantity ℚ where
  ofNat n := n
  lt x y := decide (x < y)
  le x y := decide (x ≤ y)
  floor x := ⌊x⌋
  floorNat x := ⌊x⌋₊
  ceilNat x := ⌈x⌉₊
  roundNat x := ⌊x + 1 / 2⌋₊
  undefined := 0
  isUndefined _ := false
  ranksLe x y := decide (x ≤ y)

namespace Stats

/-! ### Numbers in order -/

section Order

variable {α : Type} [Quantity α] {x : α} {xs : List α}

theorem mem_sortedNumbers : x ∈ sortedNumbers xs ↔ x ∈ xs ∧ Quantity.isUndefined x = false := by
  rw [sortedNumbers, List.mem_mergeSort, List.mem_filter, Bool.not_eq_true']

/-- Sorting loses no number if all of them exist. -/
theorem perm_sortedNumbers (h : ∀ x ∈ xs, Quantity.isUndefined x = false) :
    (sortedNumbers xs).Perm xs := by
  rw [sortedNumbers, List.filter_eq_self.mpr fun x hx => (Bool.not_eq_true' _).mpr (h x hx)]
  exact List.mergeSort_perm _ _

/-- Numbers are sorted by what their order compares. -/
theorem pairwise_sortedNumbers {β : Type} [LinearOrder β] {key : α → β}
    (hkey : ∀ x y : α, Quantity.ranksLe x y = true ↔ key x ≤ key y) (xs : List α) :
    (sortedNumbers xs).Pairwise fun x y => key x ≤ key y := by
  refine (List.pairwise_mergeSort (fun x y z hxy hyz => ?_) (fun x y => ?_) _).imp (hkey _ _).mp
  · rw [hkey] at *
    exact hxy.trans hyz
  · rw [Bool.or_eq_true, hkey, hkey]
    exact le_total (key x) (key y)

theorem ranksLe_iff (x y : Number) : Quantity.ranksLe x y = true ↔ x.rank ≤ y.rank :=
  bne_iff_ne.trans Number.compareTotal_ne_gt_iff

end Order

/-! ### Positions -/

section Positions

variable {α : Type} [Quantity α] {x e : α} {edges : List α} {i : ℕ}

theorem binOf_le_length (x : α) (edges : List α) : binOf x edges ≤ edges.length :=
  (List.takeWhile_prefix _).length_le

theorem binOf_cons_pos (h : Quantity.le e x = true) : 0 < binOf x (e :: edges) := by
  rw [binOf, List.takeWhile_cons, if_pos h]
  exact Nat.succ_pos _

/-- The edges in front of a bin are not above the number. -/
theorem le_of_lt_binOf (h : i < binOf x edges) : ∃ e, edges[i]? = some e ∧ Quantity.le e x = true := by
  have hprefix := List.takeWhile_prefix (l := edges) fun e => Quantity.le e x
  have hi : i < edges.length := h.trans_le (binOf_le_length x edges)
  refine ⟨edges[i], List.getElem?_eq_getElem hi, ?_⟩
  rw [← List.IsPrefix.getElem hprefix h]
  exact List.mem_takeWhile_imp (p := fun e => Quantity.le e x) (List.getElem_mem h)

/-- The edge behind a bin is above the number. -/
theorem not_le_of_binOf (h : edges[binOf x edges]? = some e) : Quantity.le e x = false := by
  rw [binOf] at h
  induction edges with
  | nil => cases h
  | cons e' edges ih =>
      rw [List.takeWhile_cons] at h
      split at h
      · exact ih h
      · next hnot =>
          obtain rfl := Option.some.inj h
          exact Bool.eq_false_iff.mpr hnot

/-- If the first edge is not above a number, then the edges around it are the last one that is not and,
unless that is the last of all, the next one. -/
theorem exists_edges_around (h : 0 < binOf x edges) :
    ∃ lo hi, edges[(binPositions x edges).1]? = some lo ∧ edges[(binPositions x edges).2]? = some hi ∧
      binAround x edges = (lo, hi) ∧ Quantity.le lo x = true ∧
      ((binPositions x edges).2 = (binPositions x edges).1 + 1 ∧ Quantity.le hi x = false ∨
        (binPositions x edges).1 + 1 = edges.length ∧ hi = lo) := by
  obtain ⟨lo, hlo, hle⟩ := le_of_lt_binOf (Nat.sub_lt h Nat.one_pos)
  have hlength := binOf_le_length x edges
  by_cases hlast : edges.length ≤ binOf x edges
  · have hpositions : binPositions x edges = (binOf x edges - 1, binOf x edges - 1) := by
      rw [binPositions, if_pos hlast]
    rw [binAround, hpositions]
    refine ⟨lo, lo, hlo, hlo, ?_, hle, .inr ⟨by dsimp only; omega, rfl⟩⟩
    simp only [itemAt, hlo, Option.getD_some]
  · have hpositions : binPositions x edges = (binOf x edges - 1, binOf x edges) := by
      rw [binPositions, if_neg hlast]
    have hhi := List.getElem?_eq_getElem (not_le.mp hlast)
    rw [binAround, hpositions]
    refine ⟨lo, _, hlo, hhi, ?_, hle, .inl ⟨by dsimp only; omega, not_le_of_binOf hhi⟩⟩
    simp only [itemAt, hlo, hhi, Option.getD_some]

end Positions

/-! ### Percentiles -/

variable {x p q r s : ℚ} {xs : List ℚ} {i j : ℕ}

theorem itemAt_eq (h : i < xs.length) : itemAt xs i = xs[i] := by
  rw [itemAt, List.getElem?_eq_getElem h, Option.getD_some]

theorem itemAt_mono (hxs : xs.Pairwise (· ≤ ·)) (hij : i ≤ j) (hj : j < xs.length) :
    itemAt xs i ≤ itemAt xs j := by
  rw [itemAt_eq (hij.trans_lt hj), itemAt_eq hj]
  rcases hij.eq_or_lt with rfl | hlt
  · exact le_rfl
  · exact List.pairwise_iff_getElem.mp hxs i j _ hj hlt

/-- What lies at a rank: between the two items around it, by the share of the way beyond the lower
one. -/
def interpolate (xs : List ℚ) (r : ℚ) : ℚ :=
  itemAt xs ⌊r⌋₊ + (itemAt xs ⌈r⌉₊ - itemAt xs ⌊r⌋₊) * (r - ⌊r⌋₊)

/-- What lies at a rank lies between the items around it. -/
theorem interpolate_mem (hxs : xs.Pairwise (· ≤ ·)) (hr : 0 ≤ r) (hlength : ⌈r⌉₊ < xs.length) :
    itemAt xs ⌊r⌋₊ ≤ interpolate xs r ∧ interpolate xs r ≤ itemAt xs ⌈r⌉₊ := by
  have hstep : 0 ≤ itemAt xs ⌈r⌉₊ - itemAt xs ⌊r⌋₊ :=
    sub_nonneg.mpr (itemAt_mono hxs (Nat.floor_le_ceil r) hlength)
  have hbeyond : 0 ≤ r - ⌊r⌋₊ := sub_nonneg.mpr (Nat.floor_le hr)
  have hwithin : r - ⌊r⌋₊ ≤ 1 := by
    have := Nat.lt_floor_add_one r
    linarith
  constructor
  · exact le_add_of_nonneg_right (mul_nonneg hstep hbeyond)
  · have := mul_le_of_le_one_right hstep hwithin
    rw [interpolate]
    linarith

/-- **What lies at a rank grows with the rank.** -/
theorem interpolate_mono (hxs : xs.Pairwise (· ≤ ·)) (hr : 0 ≤ r) (hrs : r ≤ s)
    (hlength : ⌈s⌉₊ < xs.length) : interpolate xs r ≤ interpolate xs s := by
  have hfloor : ⌊r⌋₊ ≤ ⌊s⌋₊ := Nat.floor_mono hrs
  have hceil : ⌈r⌉₊ ≤ ⌈s⌉₊ := Nat.ceil_mono hrs
  have hlower := (interpolate_mem hxs hr (hceil.trans_lt hlength)).2
  have hupper := (interpolate_mem hxs (hr.trans hrs) hlength).1
  by_cases hapart : ⌈r⌉₊ ≤ ⌊s⌋₊
  · -- there is an item between the ranks
    have hbetween := itemAt_mono hxs hapart ((Nat.floor_le_ceil s).trans_lt hlength)
    exact hlower.trans (hbetween.trans hupper)
  · -- both ranks are between the same two items
    have hr' := Nat.ceil_le_floor_add_one r
    have hs' := Nat.ceil_le_floor_add_one s
    have hsameFloor : ⌊r⌋₊ = ⌊s⌋₊ := by omega
    have hsameCeil : ⌈r⌉₊ = ⌈s⌉₊ := by omega
    have hstep : 0 ≤ itemAt xs ⌈s⌉₊ - itemAt xs ⌊s⌋₊ :=
      sub_nonneg.mpr (itemAt_mono hxs (Nat.floor_le_ceil s) hlength)
    rw [interpolate, interpolate, hsameFloor, hsameCeil]
    gcongr

/-! ### Ranks -/

/-- The rank of a percentage. -/
def rankOf (xs : List ℚ) (p : ℚ) : ℚ :=
  clamp 0 1 (p / 100) * ((xs.length - 1 : ℕ) : ℚ)

theorem percentile_eq (hxs : xs ≠ []) (p : ℚ) : percentile xs p = interpolate xs (rankOf xs p) := by
  match xs, hxs with
  | [x], _ =>
      have hrank : rankOf [x] p = 0 := by simp [rankOf]
      rw [hrank]
      simp [percentile, interpolate, itemAt]
  | _ :: _ :: _, _ => rfl

/-- Percentages have ranks among the items. -/
theorem rankOf_mem (hxs : xs ≠ []) (hp : 0 ≤ p) (hp' : p ≤ 100) :
    rankOf xs p = p / 100 * ((xs.length - 1 : ℕ) : ℚ) ∧ 0 ≤ rankOf xs p ∧
      ⌈rankOf xs p⌉₊ < xs.length := by
  have hshare : 0 ≤ p / 100 ∧ p / 100 ≤ 1 := ⟨by positivity, by linarith⟩
  have hrank : rankOf xs p = p / 100 * ((xs.length - 1 : ℕ) : ℚ) := by
    simp [rankOf, clamp, Quantity.lt, not_lt.mpr hshare.1, not_lt.mpr hshare.2]
  refine ⟨hrank, ?_, ?_⟩
  · rw [hrank]
    exact mul_nonneg hshare.1 (Nat.cast_nonneg _)
  · have hceil : ⌈rankOf xs p⌉₊ ≤ xs.length - 1 := by
      rw [Nat.ceil_le, hrank]
      exact mul_le_of_le_one_left (Nat.cast_nonneg _) hshare.2
    exact hceil.trans_lt (Nat.sub_lt (List.length_pos_iff.mpr hxs) Nat.one_pos)

theorem percentile_mono (hxs : xs.Pairwise (· ≤ ·)) (hp : 0 ≤ p) (hpq : p ≤ q) (hq : q ≤ 100) :
    percentile xs p ≤ percentile xs q := by
  by_cases hnil : xs = []
  · rw [hnil]
    exact le_rfl
  · obtain ⟨hrank, hpos, -⟩ := rankOf_mem hnil hp (hpq.trans hq)
    obtain ⟨hrank', -, hlength⟩ := rankOf_mem hnil (hp.trans hpq) hq
    rw [percentile_eq hnil, percentile_eq hnil]
    refine interpolate_mono hxs hpos ?_ hlength
    rw [hrank, hrank']
    gcongr

/-- The lowest percentile is the first item. -/
theorem percentile_zero (hxs : xs ≠ []) : percentile xs 0 = itemAt xs 0 := by
  rw [percentile_eq hxs, (rankOf_mem hxs le_rfl (by norm_num)).1]
  simp [interpolate]

/-! ### Edges -/

theorem le_of_mem_percentSteps {step n : ℕ} (h : n ∈ percentSteps step) : n ≤ 100 := by
  obtain ⟨i, hi, rfl⟩ := List.mem_map.mp h
  exact (Nat.mul_le_mul_right step (Nat.lt_succ_iff.mp (List.mem_range.mp hi))).trans
    (Nat.div_mul_le_self 100 step)

theorem pairwise_percentSteps (step : ℕ) : (percentSteps step).Pairwise (· ≤ ·) :=
  List.pairwise_map.mpr (List.pairwise_lt_range.imp fun h => Nat.mul_le_mul_right step h.le)

/-- Edges ascend. -/
theorem pairwise_binEdges (hxs : xs.Pairwise (· ≤ ·)) (greatest : ℚ) (count : ℕ) :
    (binEdges xs greatest count).Pairwise (· ≤ ·) := by
  have hedges : ((percentSteps (binStep ℚ count)).map fun n : ℕ => percentile xs (n : ℚ)).Pairwise
      (· ≤ ·) := by
    refine List.pairwise_map.mpr ((pairwise_percentSteps _).imp_of_mem fun hm hn hle => ?_)
    exact percentile_mono hxs (Nat.cast_nonneg _) (Nat.cast_le.mpr hle)
      (by exact_mod_cast le_of_mem_percentSteps hn)
  rw [binEdges]
  split
  · exact List.pairwise_map.mpr (hedges.imp fun h => Int.cast_le.mpr (Int.floor_mono h))
  · exact hedges

/-- The first edge is the first item, or the integral number below it. -/
theorem exists_first_binEdges (hxs : xs ≠ []) (greatest : ℚ) (count : ℕ) :
    ∃ e rest, binEdges xs greatest count = e :: rest ∧ e ≤ itemAt xs 0 := by
  have hsteps : ∃ steps, percentSteps (binStep ℚ count) = 0 :: steps := by
    rw [percentSteps, List.range_succ_eq_map, List.map_cons, Nat.zero_mul]
    exact ⟨_, rfl⟩
  obtain ⟨steps, hsteps⟩ := hsteps
  have hfirst : percentile xs (Quantity.ofNat 0) = itemAt xs 0 := percentile_zero hxs
  rw [binEdges, hsteps, List.map_cons, hfirst]
  split
  · exact ⟨_, _, rfl, Int.floor_le _⟩
  · exact ⟨_, _, rfl, le_rfl⟩

/-! ### Edges for numbers -/

theorem perm_sortedNumbers_exact (xs : List ℚ) : (sortedNumbers xs).Perm xs :=
  perm_sortedNumbers fun _ _ => rfl

theorem pairwise_sortedNumbers_exact (xs : List ℚ) : (sortedNumbers xs).Pairwise (· ≤ ·) :=
  pairwise_sortedNumbers (fun _ _ => decide_eq_true_iff) xs

/-- Finite numbers are sorted as their exact values are. -/
theorem sortedNumbers_map_exact {xs : List Number} (h : ∀ x ∈ xs, x.isFinite = true) :
    sortedNumbers (xs.map Number.exact) = (sortedNumbers xs).map Number.exact := by
  have hperm : (sortedNumbers xs).Perm xs :=
    perm_sortedNumbers fun x hx => decide_eq_false (of_decide_eq_true (h x hx)).le.not_gt
  refine List.Perm.eq_of_pairwise (fun _ _ _ _ => le_antisymm) (pairwise_sortedNumbers_exact _) ?_
    ((perm_sortedNumbers_exact _).trans (hperm.symm.map _))
  refine List.pairwise_map.mpr ((pairwise_sortedNumbers ranksLe_iff xs).imp_of_mem fun hx hy hle => ?_)
  exact Number.exact_mono (h _ (hperm.subset hx)) (h _ (hperm.subset hy)) hle

theorem edgesFor_eq (h : sortedNumbers xs ≠ []) (count : ℕ) :
    edgesFor xs count = binEdges (sortedNumbers xs) ((sortedNumbers xs).getLast h) count := by
  rw [edgesFor, List.getLast?_eq_some_getLast h]

/-- **The edges for numbers ascend.** -/
theorem pairwise_edgesFor (xs : List ℚ) (count : ℕ) : (edgesFor xs count).Pairwise (· ≤ ·) := by
  rw [edgesFor]
  split
  · exact .nil
  · exact pairwise_binEdges (pairwise_sortedNumbers_exact xs) _ count

/-- The first edge is not above any of the numbers. -/
theorem binOf_edgesFor_pos (hx : x ∈ xs) (count : ℕ) : 0 < binOf x (edgesFor xs count) := by
  have hmem : x ∈ sortedNumbers xs := (perm_sortedNumbers_exact xs).mem_iff.mpr hx
  obtain ⟨i, hi, rfl⟩ := List.mem_iff_getElem.mp hmem
  have hnil : sortedNumbers xs ≠ [] := List.ne_nil_of_mem hmem
  obtain ⟨e, rest, hedges, he⟩ := exists_first_binEdges hnil ((sortedNumbers xs).getLast hnil) count
  have hle : e ≤ (sortedNumbers xs)[i] := by
    rw [← itemAt_eq hi]
    exact he.trans (itemAt_mono (pairwise_sortedNumbers_exact xs) (Nat.zero_le i) hi)
  rw [edgesFor_eq hnil, hedges]
  exact binOf_cons_pos (decide_eq_true hle)

end Stats

end ErrorAnalysis
