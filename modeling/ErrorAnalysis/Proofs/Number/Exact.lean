import ErrorAnalysis.Proofs.Number.Rounding

/-!
# Exact Values

A finite number stands for a rational one. The total order on numbers is that of their exact values, but
for the zeros, which stand apart and have one value.

## Main definitions

* `Number.exact`: the exact value of a number.

## Main results

* `Number.Dyadic.IsCanonical.mantissa_mul_le`: greater magnitudes stand for greater values.
* `Number.exact_mono`: **the total order keeps to the exact values.**
-/

namespace ErrorAnalysis

namespace Number

variable {x y : Number} {d d' : Dyadic} {p p' : ℕ}

theorem compareTotal_ne_gt_iff : x.compareTotal y ≠ .gt ↔ x.rank ≤ y.rank :=
  Ordering.ne_gt_iff_isLE.trans Int.isLE_compare

/-- The exact value of the least positive number. -/
def leastPositive : ℚ :=
  2 ^ (-1074 : ℤ)

/-- The exact value of canonical parts in units of the least positive number. -/
def Dyadic.units (d : Dyadic) (p : ℕ) : ℤ :=
  if d.negative then -(d.mantissa * 2 ^ p : ℕ) else (d.mantissa * 2 ^ p : ℕ)

/-- The exact value of a finite number; other numbers are read as zero. -/
def exact (x : Number) : ℚ :=
  match x.finite? with
  | some d => (if d.negative then -1 else 1) * (d.mantissa * 2 ^ d.exponent)
  | none => 0

/-- Greater magnitudes stand for greater values. -/
theorem Dyadic.IsCanonical.mantissa_mul_le (hd : d.IsCanonical p) (hd' : d'.IsCanonical p')
    (h : p * leadingBit + d.mantissa ≤ p' * leadingBit + d'.mantissa) :
    d.mantissa * 2 ^ p ≤ d'.mantissa * 2 ^ p' := by
  have hlt := hd.mantissa_lt
  have hlt' := hd'.mantissa_lt
  rcases lt_trichotomy p p' with hless | rfl | hmore
  · -- the leading bit of the second one outweighs all of the first
    have hlead' : leadingBit ≤ d'.mantissa := hd'.leading_or.resolve_right (by omega)
    calc d.mantissa * 2 ^ p
        ≤ 2 * leadingBit * 2 ^ p := Nat.mul_le_mul_right _ hlt.le
      _ = leadingBit * 2 ^ (p + 1) := by ring
      _ ≤ d'.mantissa * 2 ^ p' := Nat.mul_le_mul hlead' (Nat.pow_le_pow_right (by decide) hless)
  · exact Nat.mul_le_mul_right _ (by omega)
  · have hlead : leadingBit ≤ d.mantissa := hd.leading_or.resolve_right (by omega)
    have hstep : (p' + 1) * leadingBit ≤ p * leadingBit := Nat.mul_le_mul_right _ hmore
    rw [Nat.add_mul] at hstep
    omega

/-- A finite number has parts, of which its rank and its exact value are made up. -/
theorem exists_units (hx : x.isFinite = true) : ∃ (d : Dyadic) (p : ℕ), d.IsCanonical p ∧
    x.rank = (if d.negative then -1 - ((p * leadingBit + d.mantissa : ℕ) : ℤ)
      else ((p * leadingBit + d.mantissa : ℕ) : ℤ)) ∧
    x.exact = d.units p * leastPositive := by
  obtain ⟨d, hfinite⟩ : ∃ d, x.finite? = some d := by
    rw [finite?, if_pos hx]
    dsimp only
    split <;> exact ⟨_, rfl⟩
  obtain ⟨p, hd, hnegative, hmagnitude⟩ := isCanonical_of_finite? hfinite
  refine ⟨d, p, hd, ?_, ?_⟩
  · rw [rank, hnegative, hmagnitude]
  · have hpower : (2 : ℚ) ^ d.exponent = 2 ^ p * leastPositive := by
      rw [hd.exponent_eq, sub_eq_add_neg, zpow_add₀ two_ne_zero, zpow_natCast, leastPositive]
    simp only [exact, hfinite, hpower, Dyadic.units]
    split <;> push_cast <;> ring

/-- **The total order keeps to the exact values.** -/
theorem exact_mono (hx : x.isFinite = true) (hy : y.isFinite = true) (h : x.rank ≤ y.rank) :
    x.exact ≤ y.exact := by
  obtain ⟨d, p, hd, hrank, hexact⟩ := exists_units hx
  obtain ⟨d', p', hd', hrank', hexact'⟩ := exists_units hy
  rw [hrank, hrank'] at h
  rw [hexact, hexact']
  have hunits : d.units p ≤ d'.units p' := by
    simp only [Dyadic.units]
    cases hsign : d.negative <;> cases hsign' : d'.negative <;>
      simp only [hsign, hsign', if_true, Bool.false_eq_true, if_false] at h ⊢
    · exact Int.ofNat_le.mpr (hd.mantissa_mul_le hd' (by omega))
    · omega
    · omega
    · exact neg_le_neg (Int.ofNat_le.mpr (hd'.mantissa_mul_le hd (by omega)))
  exact mul_le_mul_of_nonneg_right (Int.cast_le.mpr hunits) (zpow_nonneg zero_le_two _)

end Number

end ErrorAnalysis
