import ErrorAnalysis.Proofs.Number.Rounding

/-!
# Shortest Decimals Read Back

`Dyadic.shortest` goes from coarse grids of decimals to fine ones and takes the first decimal that
reads back. This module shows that it finds one on its way, so that what it yields reads back.

A grid whose points are closer than half a last place has a point in the upper half of the
interval of the number, whatever the tie. The last of the twenty grids is fine enough: it is
eighteen decimal places below the leading digit, and a mantissa has fifty-three binary places.

## Main results

* `Dyadic.reads_of_fine`: on a fine grid, the point just above the number reads back.
* `Dyadic.reads_shortest`: the shortest decimal of a number reads back.
* `nearest_shortest`: the number is nearest to its shortest decimal.
-/

namespace ErrorAnalysis

namespace Number

namespace Dyadic

/-! ### Grids -/

theorem gridPoint_eq (d : Dyadic) (e : ℤ) (k : ℕ) : d.gridPoint e k = k * d.gridPoint e 1 := by
  simp only [gridPoint, Nat.one_mul, Nat.mul_assoc]

theorem quarters_eq (d : Dyadic) (e : ℤ) (x : ℕ) : d.quarters e x = x * d.quarters e 1 := by
  simp only [quarters, Nat.one_mul, Nat.mul_assoc]

theorem gridPoint_one_pos (d : Dyadic) (e : ℤ) : 0 < d.gridPoint e 1 := by
  simp only [gridPoint, Nat.one_mul, Nat.pow_eq]
  exact Nat.mul_pos (Nat.pow_pos (by decide)) (Nat.pow_pos (by decide))

theorem quarters_one_pos (d : Dyadic) (e : ℤ) : 0 < d.quarters e 1 := by
  simp only [quarters, Nat.one_mul, Nat.pow_eq]
  exact Nat.mul_pos (Nat.pow_pos (by decide)) (Nat.pow_pos (by decide))

/-- **Fine grids.** If grid points are closer than half a last place, the one just above the number
reads back. -/
theorem reads_of_fine {d : Dyadic} {e : ℤ} (hm : 0 < d.mantissa)
    (hfine : d.gridPoint e 1 < 2 * d.quarters e 1) : d.reads e (d.below e + 1) = true := by
  have hg := d.gridPoint_one_pos e
  have hs := d.quarters_one_pos e
  have hbelow : d.below e * d.gridPoint e 1 ≤ d.quarters e d.center :=
    Nat.div_mul_le_self _ _
  have habove : d.quarters e d.center < (d.below e + 1) * d.gridPoint e 1 :=
    (Nat.div_lt_iff_lt_mul hg).mp (Nat.lt_succ_self _)
  have hupper : d.quarters e d.upper = d.quarters e d.center + 2 * d.quarters e 1 := by
    rw [quarters_eq d e d.upper, quarters_eq d e d.center, upper, center, Nat.add_mul]
  have hlower : d.quarters e d.lower < d.quarters e d.center := by
    have hlt : d.lower < d.center := by
      simp only [lower, center]
      split <;> omega
    rw [quarters_eq d e d.lower, quarters_eq d e d.center]
    exact Nat.mul_lt_mul_of_pos_right hlt hs
  have hpoint : d.gridPoint e (d.below e + 1) = d.below e * d.gridPoint e 1 + d.gridPoint e 1 := by
    rw [gridPoint_eq, Nat.add_one_mul]
  rw [Nat.add_one_mul] at habove
  simp only [reads]
  split <;> exact decide_eq_true ⟨by omega, by omega⟩

/-! ### The search -/

/-- A decimal that is taken on a grid reads back. -/
theorem reads_of_onGrid {tie : Tie} {d : Dyadic} {e : ℤ} {r : Decimal}
    (h : d.onGrid tie e = some r) : d.reads r.exponent r.coefficient = true := by
  simp only [onGrid] at h
  split at h
  · next h1 h2 =>
    obtain rfl := Option.some.inj h
    show d.reads e (if _ then _ else _) = true
    split
    · exact h2
    · exact h1
  · next h1 h2 =>
    obtain rfl := Option.some.inj h
    exact h1
  · next h1 h2 =>
    obtain rfl := Option.some.inj h
    exact h2
  · exact absurd h (by simp)

/-- A decimal is taken on a grid that has one just above the number. -/
theorem exists_onGrid {d : Dyadic} {e : ℤ} (tie : Tie) (h : d.reads e (d.below e + 1) = true) :
    ∃ r, d.onGrid tie e = some r := by
  simp only [onGrid, h]
  cases d.reads e (d.below e) with
  | true => exact ⟨_, rfl⟩
  | false => exact ⟨_, rfl⟩

/-- A search that passes a grid with a hit yields a decimal that reads back. -/
theorem reads_searchGrids {tie : Tie} {d : Dyadic} {n : ℕ} {e : ℤ}
    (h : ∃ j < n, ∃ r, d.onGrid tie (e - j) = some r) :
    d.reads (d.searchGrids tie n e).exponent (d.searchGrids tie n e).coefficient = true := by
  induction n generalizing e with
  | zero =>
      obtain ⟨j, hj, -⟩ := h
      exact absurd hj (Nat.not_lt_zero j)
  | succ n ih =>
      rw [searchGrids]
      cases hhit : d.onGrid tie e with
      | some r => exact reads_of_onGrid hhit
      | none =>
          obtain ⟨j, hj, r, hr⟩ := h
          obtain ⟨i, rfl⟩ : ∃ i, j = i + 1 := by
            refine ⟨j - 1, ?_⟩
            rcases Nat.eq_zero_or_pos j with rfl | hpos
            · rw [Int.ofNat_zero, Int.sub_zero, hhit] at hr
              exact absurd hr (by simp)
            · omega
          refine ih ⟨i, by omega, r, ?_⟩
          rw [← hr]
          congr 1
          omega

/-- The last grid of the search is fine. -/
theorem gridPoint_lt_of_lastGrid {d : Dyadic} {p : ℕ} (hd : d.IsCanonical p)
    (hm : 0 < d.mantissa) :
    d.gridPoint (d.gridBound - 19) 1 < 2 * d.quarters (d.gridBound - 19) 1 := by
  have hlog : Nat.log2 d.mantissa ≤ 52 := by
    have h1 : d.mantissa < 2 ^ 53 := hd.mantissa_lt
    have := (Nat.log2_lt (by omega)).mpr h1
    omega
  have hq := hd.exponent_eq
  have hp := hd.place_le
  obtain ⟨e, he⟩ : ∃ e, e = d.gridBound - 19 := ⟨_, rfl⟩
  rw [← he]
  simp only [gridBound] at he
  have hten : 0 < 10 ^ (-e).toNat := Nat.pow_pos (by decide)
  have htwo : 0 < 2 ^ (d.exponent - 2).toNat := Nat.two_pow_pos _
  simp only [gridPoint, quarters, Nat.one_mul, Nat.pow_eq]
  rcases le_or_gt 0 e with hpos | hneg
  · -- whole powers of ten: the exponent of the number is far above zero
    have h1 : 10 ^ e.toNat ≤ 2 ^ (d.exponent - 2).toNat := ten_pow_le_two_pow (by omega)
    rw [show (2 - d.exponent).toNat = 0 by omega, show (-e).toNat = 0 by omega]
    simp only [Nat.pow_zero, Nat.mul_one, Nat.one_mul]
    omega
  · have h1 : 2 ^ (2 - d.exponent).toNat ≤ 10 ^ (-e).toNat := two_pow_le_ten_pow (by omega)
    have h2 : 10 ^ (-e).toNat * 1 ≤ 10 ^ (-e).toNat * 2 ^ (d.exponent - 2).toNat :=
      Nat.mul_le_mul_left _ htwo
    rw [show e.toNat = 0 by omega]
    simp only [Nat.pow_zero, Nat.one_mul]
    omega

/-- **The shortest decimal of a number reads back.** -/
theorem reads_shortest {d : Dyadic} {p : ℕ} (tie : Tie) (hd : d.IsCanonical p)
    (hm : 0 < d.mantissa) : d.reads (d.shortest tie).exponent (d.shortest tie).coefficient = true :=
  reads_searchGrids
    ⟨19, by decide, exists_onGrid tie (reads_of_fine hm (gridPoint_lt_of_lastGrid hd hm))⟩

end Dyadic

/-- A number is nearest to its shortest decimal. -/
theorem nearest_shortest {x : Number} {d : Dyadic} (tie : Tie) (hx : x.finite? = some d)
    (hsign : x.isNegative = false) (hm : d.mantissa ≠ 0) : nearest (d.shortest tie) = x := by
  obtain ⟨p, hd, -⟩ := isCanonical_of_finite? hx
  exact nearest_of_reads hx hsign (Dyadic.reads_shortest tie hd (Nat.pos_of_ne_zero hm))

end Number

end ErrorAnalysis
