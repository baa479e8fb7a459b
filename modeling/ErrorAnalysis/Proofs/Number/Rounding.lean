import Mathlib.Tactic
import ErrorAnalysis.Number.Notation

/-!
# Rounding to the Nearest Number

`nearestMagnitude` rounds a fraction of the least positive number in integer arithmetic. This
module shows which fractions it rounds to a given number: those of the interval between the
midpoints to the neighbours, with the midpoints themselves iff the mantissa is even.

The interval is measured in quarters of the last place, as in `Dyadic.reads`. It is lopsided at the
least number of a binade, whose neighbour below is at half the distance.

## Main results

* `nearestMagnitude_eq`: a fraction in the interval of a number is rounded to it.
* `Dyadic.IsCanonical`: the mantissas and exponents that the parts of a number can have.
* `isCanonical_of_finite?`: the parts of a finite number are canonical, and give back its bits.
* `nearest_of_reads`: a decimal that `Dyadic.reads` accepts is nearest to the number.
* `ofDecimal_eq_nearest`: recognising decimals far outside the range changes nothing.
-/

namespace ErrorAnalysis

namespace Number

theorem leadingBit_eq : leadingBit = 2 ^ 52 := rfl

/-! ### Powers of two and of ten -/

/-- Ten is a little less than `2 ^ (196 / 59)`. -/
theorem ten_pow_le_two_pow {a b : ℕ} (h : 196 * a ≤ 59 * b) : 10 ^ a ≤ 2 ^ b := by
  refine (Nat.pow_le_pow_iff_left (n := 59) (by decide)).mp ?_
  calc (10 ^ a) ^ 59 = (10 ^ 59) ^ a := Nat.pow_right_comm ..
    _ ≤ (2 ^ 196) ^ a := Nat.pow_le_pow_left (by decide) a
    _ = 2 ^ (196 * a) := (Nat.pow_mul ..).symm
    _ ≤ 2 ^ (59 * b) := Nat.pow_le_pow_right (by decide) h
    _ = (2 ^ b) ^ 59 := by rw [Nat.mul_comm, Nat.pow_mul]

/-- Ten is a little more than `2 ^ (93 / 28)`. -/
theorem two_pow_le_ten_pow {a b : ℕ} (h : 28 * b ≤ 93 * a) : 2 ^ b ≤ 10 ^ a := by
  refine (Nat.pow_le_pow_iff_left (n := 93) (by decide)).mp ?_
  calc (2 ^ b) ^ 93 = (2 ^ 93) ^ b := Nat.pow_right_comm ..
    _ ≤ (10 ^ 28) ^ b := Nat.pow_le_pow_left (by decide) b
    _ = 10 ^ (28 * b) := (Nat.pow_mul ..).symm
    _ ≤ 10 ^ (93 * a) := Nat.pow_le_pow_right (by decide) h
    _ = (10 ^ a) ^ 93 := by rw [Nat.mul_comm, Nat.pow_mul]

/-! ### Division -/

/-- Division that rounds to the nearest integer is decided by the midpoints around it. -/
theorem divideToEven_eq {a b m : ℕ} (hb : 0 < b) (hlo : 2 * (m * b) ≤ 2 * a + b)
    (hhi : 2 * a ≤ 2 * (m * b) + b)
    (hodd : m % 2 = 1 → 2 * (m * b) < 2 * a + b ∧ 2 * a < 2 * (m * b) + b) :
    divideToEven a b = m := by
  have hdiv : a / b * b + a % b = a := Nat.div_add_mod' a b
  have hr : a % b < b := Nat.mod_lt a hb
  have hcases : a / b = m ∨ a / b + 1 = m := by
    have h1 : a / b ≤ m := by
      by_contra hc
      have : (m + 1) * b ≤ a / b * b := Nat.mul_le_mul_right b (by omega)
      rw [Nat.add_mul] at this
      omega
    have h2 : m ≤ a / b + 1 := by
      by_contra hc
      have : (a / b + 2) * b ≤ m * b := Nat.mul_le_mul_right b (by omega)
      rw [Nat.add_mul] at this
      omega
    omega
  simp only [divideToEven]
  rcases hcases with rfl | rfl
  · split
    · rfl
    · next h =>
      rw [Nat.compare_eq_gt] at h
      omega
    · next h =>
      rw [Nat.compare_eq_eq] at h
      split
      · rfl
      · omega
  · rw [Nat.add_mul] at hlo hhi hodd
    split
    · next h =>
      rw [Nat.compare_eq_lt] at h
      omega
    · rfl
    · next h =>
      rw [Nat.compare_eq_eq] at h
      split
      · omega
      · rfl

/-! ### Binades -/

/-- The binade of a fraction is read off its integral part. -/
theorem log2_div_eq {a b k : ℕ} (hb : 0 < b) (hlo : 2 ^ k * b ≤ a) (hhi : a < 2 ^ (k + 1) * b) :
    Nat.log2 (a / b) = k := by
  have h1 : 2 ^ k ≤ a / b := (Nat.le_div_iff_mul_le hb).mpr hlo
  have h2 : a / b < 2 ^ (k + 1) := (Nat.div_lt_iff_lt_mul hb).mpr hhi
  have h0 : a / b ≠ 0 := by
    have := Nat.two_pow_pos k
    omega
  exact (Nat.log2_eq_iff h0).mpr ⟨h1, h2⟩

/-- Up to `2 ^ 53` steps numbers are as far apart as the least one. -/
theorem nearestMagnitude_of_lt {a b : ℕ} (hb : 0 < b) (ha : a < 2 ^ 53 * b) :
    nearestMagnitude a b = divideToEven a b := by
  have hs : Nat.log2 (a / b) - 52 = 0 := by
    have hq : a / b < 2 ^ 53 := (Nat.div_lt_iff_lt_mul hb).mpr ha
    rcases Nat.eq_zero_or_pos (a / b) with h0 | h0
    · rw [h0]
      rfl
    · have := (Nat.log2_lt (by omega)).mpr hq
      omega
  simp only [nearestMagnitude, hs, Nat.zero_mul, Nat.zero_add, Nat.pow_eq, Nat.pow_zero,
    Nat.mul_one]

/-- In a later binade numbers are `2 ^ p` steps apart. -/
theorem nearestMagnitude_of_binade {a b p : ℕ} (hb : 0 < b) (hlo : 2 ^ 52 * (2 ^ p * b) ≤ a)
    (hhi : a < 2 ^ 53 * (2 ^ p * b)) :
    nearestMagnitude a b = p * leadingBit + divideToEven a (2 ^ p * b) := by
  have hs : Nat.log2 (a / b) - 52 = p := by
    rw [log2_div_eq (k := 52 + p) hb]
    · omega
    · rwa [Nat.pow_add, Nat.mul_assoc]
    · rwa [show 52 + p + 1 = 53 + p by omega, Nat.pow_add, Nat.mul_assoc]
  simp only [nearestMagnitude, hs, Nat.pow_eq, Nat.mul_comm b]

/-! ### The interval of a number -/

/-- A fraction just below a binade rounds to its least number, though numbers are closer there. -/
theorem nearestMagnitude_below_binade {a b p : ℕ} (hb : 0 < b) (ha : a < 2 ^ 52 * (2 ^ (p + 1) * b))
    (hlo : (4 * 2 ^ 52 - 1) * (2 ^ (p + 1) * b) ≤ 4 * a) :
    nearestMagnitude a b = (p + 1) * leadingBit + 2 ^ 52 := by
  obtain ⟨v, hv⟩ : ∃ v, v = 2 ^ p * b := ⟨_, rfl⟩
  have huv : 2 ^ (p + 1) * b = 2 * v := by
    rw [hv, Nat.pow_succ]
    ring
  have hv0 : 0 < v := hv ▸ Nat.mul_pos (Nat.two_pow_pos p) hb
  rw [huv] at ha hlo
  have hround : divideToEven a v = 2 * 2 ^ 52 :=
    divideToEven_eq hv0 (by omega) (by omega) (fun h => absurd h (by decide))
  rw [nearestMagnitude_of_binade hb (p := p) (by omega) (by omega), ← hv, hround, leadingBit_eq]
  ring

/-- **The interval of a number.** A fraction between the midpoints to the neighbours of a number
is rounded to it; the midpoints themselves are iff the mantissa is even. There are `low` quarters
of the last place below the midpoint on the lower side. -/
theorem nearestMagnitude_eq {a b m p low : ℕ} (hb : 0 < b) (hm : m < 2 * leadingBit)
    (hp : leadingBit ≤ m ∨ p = 0)
    (hlow : low = if m = leadingBit ∧ 0 < p then 4 * m - 1 else 4 * m - 2)
    (hlo : low * (2 ^ p * b) ≤ 4 * a) (hhi : 4 * a ≤ (4 * m + 2) * (2 ^ p * b))
    (hodd : m % 2 = 1 → low * (2 ^ p * b) < 4 * a ∧ 4 * a < (4 * m + 2) * (2 ^ p * b)) :
    nearestMagnitude a b = p * leadingBit + m := by
  obtain ⟨u, hu'⟩ : ∃ u, u = 2 ^ p * b := ⟨_, rfl⟩
  have hu : 0 < u := hu' ▸ Nat.mul_pos (Nat.two_pow_pos p) hb
  rw [leadingBit_eq] at hm hp hlow
  rw [← hu'] at hlo hhi hodd
  have hlow2 : 4 * m ≤ low + 2 ∧ (m % 2 = 1 → low + 2 = 4 * m) := by
    rw [hlow]
    split <;> omega
  have hlowu : 4 * (m * u) ≤ low * u + 2 * u := by
    calc 4 * (m * u) = (4 * m) * u := by ring
      _ ≤ (low + 2) * u := Nat.mul_le_mul_right u hlow2.1
      _ = low * u + 2 * u := by ring
  have hup : (4 * m + 2) * u = 4 * (m * u) + 2 * u := by ring
  have hmu : m * u + u ≤ 2 * 2 ^ 52 * u := by
    calc m * u + u = (m + 1) * u := by ring
      _ ≤ 2 * 2 ^ 52 * u := Nat.mul_le_mul_right u hm
  have hround : divideToEven a u = m := by
    refine divideToEven_eq hu (by omega) (by omega) (fun h => ?_)
    have h1 := hodd h
    have h2 : low * u + 2 * u = 4 * (m * u) := by
      rw [← Nat.add_mul, hlow2.2 h]
      ring
    omega
  rcases Nat.eq_zero_or_pos p with rfl | hpos
  · obtain rfl : u = b := by rw [hu', Nat.pow_zero, Nat.one_mul]
    rw [Nat.zero_mul, Nat.zero_add, nearestMagnitude_of_lt hb (by omega), hround]
  · have hLm : 2 ^ 52 ≤ m := by omega
    by_cases ha : 2 ^ 52 * u ≤ a
    · rw [nearestMagnitude_of_binade (p := p) hb (by omega) (by omega), ← hu', hround]
    · -- only the least number of a binade is nearest to anything below the binade
      obtain rfl : m = 2 ^ 52 := by
        by_contra hne
        have h1 : (2 ^ 52 + 1) * u ≤ m * u := Nat.mul_le_mul_right u (by omega)
        have h2 : low + 2 = 4 * m := by
          rw [hlow, if_neg (fun h => hne h.1)]
          omega
        have h3 : low * u + 2 * u = 4 * (m * u) := by
          rw [← Nat.add_mul, h2]
          ring
        omega
      obtain ⟨p, rfl⟩ : ∃ k, p = k + 1 := ⟨p - 1, by omega⟩
      rw [hlow, if_pos ⟨rfl, hpos⟩, hu'] at hlo
      exact nearestMagnitude_below_binade hb (by omega) hlo

/-! ### The parts of a number -/

/-- The mantissas and exponents of numbers: `p` places lie between the last place and that of the
least positive number, and the mantissa has its leading bit unless `p` is zero. -/
structure Dyadic.IsCanonical (d : Dyadic) (p : ℕ) : Prop where
  exponent_eq : d.exponent = (p : ℤ) - 1074
  mantissa_lt : d.mantissa < 2 * leadingBit
  leading_or : leadingBit ≤ d.mantissa ∨ p = 0
  place_le : p ≤ 2045

/-- Canonical parts make up a magnitude below that of the infinities. -/
theorem Dyadic.IsCanonical.magnitude_le {d : Dyadic} {p : ℕ} (hd : d.IsCanonical p) :
    p * leadingBit + d.mantissa ≤ infinityMagnitude := by
  calc p * leadingBit + d.mantissa
      ≤ 2045 * leadingBit + 2 * leadingBit :=
        Nat.add_le_add (Nat.mul_le_mul_right _ hd.place_le) hd.mantissa_lt.le
    _ = infinityMagnitude := rfl

/-- The parts of a finite number are canonical, and its magnitude is made up of them. -/
theorem isCanonical_of_finite? {x : Number} {d : Dyadic} (h : x.finite? = some d) :
    ∃ p, d.IsCanonical p ∧ d.negative = x.isNegative ∧
      x.magnitude = p * leadingBit + d.mantissa := by
  simp only [finite?] at h
  split at h
  · next hfin =>
    have hmag : x.magnitude < 2047 * leadingBit := of_decide_eq_true hfin
    have hdiv : x.magnitude / leadingBit * leadingBit + x.magnitude % leadingBit = x.magnitude :=
      Nat.div_add_mod' _ _
    have hmod : x.magnitude % leadingBit < leadingBit := Nat.mod_lt _ (by decide)
    have hlt : x.magnitude / leadingBit < 2047 := (Nat.div_lt_iff_lt_mul (by decide)).mpr hmag
    split at h
    · next h0 =>
      obtain rfl := Option.some.inj h
      rw [h0] at hdiv
      refine ⟨0, ⟨rfl, ?_, .inr rfl, by omega⟩, rfl, ?_⟩
      · show x.magnitude % leadingBit < 2 * leadingBit
        omega
      · show x.magnitude = 0 * leadingBit + x.magnitude % leadingBit
        omega
    · next h0 =>
      obtain rfl := Option.some.inj h
      obtain ⟨p, hp⟩ : ∃ p, x.magnitude / leadingBit = p + 1 := ⟨_, (Nat.succ_pred h0).symm⟩
      rw [hp] at hlt ⊢
      rw [hp, Nat.add_mul] at hdiv
      refine ⟨p, ⟨?_, ?_, .inl ?_, by omega⟩, rfl, ?_⟩
      · show ((p + 1 : ℕ) : ℤ) - 1075 = p - 1074
        omega
      · show x.magnitude % leadingBit + leadingBit < 2 * leadingBit
        omega
      · show leadingBit ≤ x.magnitude % leadingBit + leadingBit
        omega
      · show x.magnitude = p * leadingBit + (x.magnitude % leadingBit + leadingBit)
        omega
  · exact absurd h (by simp)

/-- A decimal that reads back as a number is nearest to it. -/
theorem nearestMagnitude_of_reads {d : Dyadic} {p : ℕ} (hd : d.IsCanonical p) {e : ℤ} {k : ℕ}
    (h : d.reads e k = true) :
    nearestMagnitude (k * 10 ^ e.toNat * 2 ^ 1074) (10 ^ (-e).toNat)
      = p * leadingBit + d.mantissa := by
  obtain ⟨hq, hm, hp, -⟩ := hd
  obtain ⟨n, hn⟩ : ∃ n, n = 1074 := ⟨_, rfl⟩
  obtain ⟨t, ht1, ht2⟩ : ∃ t, (d.exponent - 2).toNat + t = p ∧
      (2 - d.exponent).toNat + t = n + 2 := ⟨p - (d.exponent - 2).toNat, by omega, by omega⟩
  rw [← hn]
  -- on the common scale of `reads`, which is `2 ^ t` times coarser than that of the steps
  have hpoint : 4 * (k * 10 ^ e.toNat * 2 ^ n) = d.gridPoint e k * 2 ^ t := by
    simp only [Dyadic.gridPoint, Nat.pow_eq]
    rw [Nat.mul_assoc _ (2 ^ _) (2 ^ t), ← Nat.pow_add, ht2, Nat.pow_add]
    ring
  have hquarters (x : ℕ) : x * (2 ^ p * 10 ^ (-e).toNat) = d.quarters e x * 2 ^ t := by
    simp only [Dyadic.quarters, Nat.pow_eq]
    rw [Nat.mul_assoc _ (2 ^ _) (2 ^ t), ← Nat.pow_add, ht1]
    ring
  have hlow : d.lower = if d.mantissa = leadingBit ∧ 0 < p then 4 * d.mantissa - 1
      else 4 * d.mantissa - 2 := by
    have hpos : -1074 < d.exponent ↔ 0 < p := by omega
    simp only [Dyadic.lower, hpos]
  have hmul {x y : ℕ} (hxy : x ≤ y) : x * 2 ^ t ≤ y * 2 ^ t := Nat.mul_le_mul_right _ hxy
  have hmul' {x y : ℕ} (hxy : x < y) : x * 2 ^ t < y * 2 ^ t :=
    Nat.mul_lt_mul_of_pos_right hxy (Nat.two_pow_pos t)
  simp only [Dyadic.reads] at h
  refine nearestMagnitude_eq (Nat.pow_pos (by decide)) hm hp hlow ?_ ?_ (fun hodd => ?_)
  · rw [hpoint, hquarters]
    split at h
    · exact hmul (of_decide_eq_true h).1
    · exact hmul (of_decide_eq_true h).1.le
  · rw [hpoint, hquarters]
    split at h
    · exact hmul (of_decide_eq_true h).2
    · exact hmul (of_decide_eq_true h).2.le
  · rw [hpoint, hquarters, hquarters]
    rw [if_neg (by omega)] at h
    exact ⟨hmul' (of_decide_eq_true h).1, hmul' (of_decide_eq_true h).2⟩

/-- A number without a sign bit is its magnitude. -/
theorem bits_eq_magnitude {x : Number} (h : x.isNegative = false) : x.bits.toNat = x.magnitude := by
  have := of_decide_eq_false h
  exact (Nat.mod_eq_of_lt (by omega)).symm

/-- A decimal that reads back as a number is nearest to it. -/
theorem nearest_of_reads {x : Number} {d : Dyadic} (hx : x.finite? = some d)
    (hsign : x.isNegative = false) {e : ℤ} {k : ℕ} (h : d.reads e k = true) :
    nearest ⟨k, e⟩ = x := by
  obtain ⟨p, hd, -, hmag⟩ := isCanonical_of_finite? hx
  have hbits := bits_eq_magnitude hsign
  cases x with
  | mk bits =>
      simp only [nearest, Nat.pow_eq, nearestMagnitude_of_reads hd h, Nat.min_eq_right hd.magnitude_le]
      rw [← hmag, ← hbits, UInt64.ofNat_toNat]

/-! ### Decimals far outside the range -/

/-- The digits of a positive number place it between two powers of ten. -/
theorem pow_le_lt_pow_digits {n : ℕ} (hn : n ≠ 0) :
    10 ^ ((digitsOf n).length - 1) ≤ n ∧ n < 10 ^ (digitsOf n).length := by
  have hpos : 0 < (digitsOf n).length := Nat.length_toDigits_pos
  refine ⟨?_, (Nat.length_toDigits_le_iff (by decide) hpos).mp le_rfl⟩
  by_contra hlt
  rcases Nat.eq_zero_or_pos ((digitsOf n).length - 1) with h0 | h0
  · rw [h0, Nat.pow_zero] at hlt
    omega
  · have : (digitsOf n).length ≤ (digitsOf n).length - 1 :=
      (Nat.length_toDigits_le_iff (by decide) h0).mpr (by omega)
    omega

/-- Decimals from `10 ^ 311` on are nearest to infinity. -/
theorem nearest_of_large {d : Decimal} (h0 : d.coefficient ≠ 0) (h : 310 < d.leadingExponent) :
    nearest d = infinity := by
  obtain ⟨hc, -⟩ := pow_le_lt_pow_digits h0
  simp only [Decimal.leadingExponent] at h
  obtain ⟨n, hn⟩ : ∃ n, n = (digitsOf d.coefficient).length - 1 := ⟨_, rfl⟩
  rw [← hn] at hc
  obtain ⟨b, hb⟩ : ∃ b, b = 10 ^ (-d.exponent).toNat := ⟨_, rfl⟩
  have hb0 : 0 < b := hb ▸ Nat.pow_pos (by decide)
  -- the fraction is so great that its shift alone exceeds all finite numbers
  have hfrac : 2 ^ (1030 + 1074) * b ≤ d.coefficient * 10 ^ d.exponent.toNat * 2 ^ 1074 := by
    have h1 : 2 ^ 1030 * b ≤ d.coefficient * 10 ^ d.exponent.toNat := by
      calc 2 ^ 1030 * b ≤ 10 ^ 311 * 10 ^ (-d.exponent).toNat := by
            rw [hb]
            exact Nat.mul_le_mul_right _ (two_pow_le_ten_pow (by decide))
        _ = 10 ^ (311 + (-d.exponent).toNat) := by rw [Nat.pow_add]
        _ ≤ 10 ^ (n + d.exponent.toNat) := Nat.pow_le_pow_right (by decide) (by omega)
        _ = 10 ^ n * 10 ^ d.exponent.toNat := Nat.pow_add ..
        _ ≤ d.coefficient * 10 ^ d.exponent.toNat := Nat.mul_le_mul_right _ hc
    rw [pow_add, Nat.mul_right_comm]
    exact Nat.mul_le_mul_right _ h1
  have hq := (Nat.le_div_iff_mul_le hb0).mpr hfrac
  have hlog := (Nat.le_log2 (lt_of_lt_of_le (Nat.two_pow_pos _) hq).ne').mpr hq
  have hmag : infinityMagnitude ≤ nearestMagnitude
      (d.coefficient * 10 ^ d.exponent.toNat * 2 ^ 1074) b := by
    have h1 : infinityMagnitude = 2047 * leadingBit := rfl
    have h2 : 2047 * leadingBit ≤ (1030 + 1074 - 52) * leadingBit := by decide
    simp only [nearestMagnitude]
    refine le_trans (h1.le.trans h2) (le_trans (Nat.mul_le_mul_right _ ?_) (Nat.le_add_right _ _))
    omega
  simp only [nearest, Nat.pow_eq, ← hb, Nat.min_eq_left hmag]
  rfl

/-- Decimals below `10 ^ -330` are nearest to zero. -/
theorem nearest_of_small {d : Decimal} (h : d.leadingExponent < -330) : nearest d = ⟨0⟩ := by
  simp only [Decimal.leadingExponent] at h
  have hc : d.coefficient < 10 ^ (digitsOf d.coefficient).length :=
    (Nat.length_toDigits_le_iff (by decide) Nat.length_toDigits_pos).mp le_rfl
  have he : d.exponent.toNat = 0 := by omega
  have hfrac : 2 * (d.coefficient * 2 ^ 1074) < 10 ^ (-d.exponent).toNat := by
    calc 2 * (d.coefficient * 2 ^ 1074)
        < 2 * (10 ^ (digitsOf d.coefficient).length * 2 ^ 1074) := by
          have := Nat.mul_lt_mul_of_pos_right hc (Nat.two_pow_pos 1074)
          omega
      _ = 10 ^ (digitsOf d.coefficient).length * 2 ^ 1075 := by
          rw [Nat.pow_succ 2 1074, Nat.mul_left_comm, Nat.mul_comm 2]
      _ ≤ 10 ^ (digitsOf d.coefficient).length * 10 ^ 330 :=
          Nat.mul_le_mul_left _ (two_pow_le_ten_pow (by decide))
      _ = 10 ^ ((digitsOf d.coefficient).length + 330) := by rw [Nat.pow_add]
      _ ≤ 10 ^ (-d.exponent).toNat := Nat.pow_le_pow_right (by decide) (by omega)
  have hmag : nearestMagnitude (d.coefficient * 2 ^ 1074) (10 ^ (-d.exponent).toNat) = 0 := by
    rw [nearestMagnitude_of_lt (Nat.pow_pos (by decide)) (by omega)]
    exact divideToEven_eq (Nat.pow_pos (by decide)) (by omega) (by omega) (by omega)
  simp only [nearest, Nat.pow_eq, he, Nat.pow_zero, Nat.mul_one, hmag]
  rfl

/-- A decimal without significant digits is nearest to zero. -/
theorem nearest_of_coefficient_eq_zero {d : Decimal} (h0 : d.coefficient = 0) :
    nearest d = ⟨0⟩ := by
  have hmag (b : ℕ) (hb : 0 < b) : nearestMagnitude 0 b = 0 := by
    rw [nearestMagnitude_of_lt hb (by positivity)]
    exact divideToEven_eq hb (by omega) (by omega) (by omega)
  have hb : 0 < 10 ^ (-d.exponent).toNat := Nat.pow_pos (by decide)
  simp only [nearest, Nat.pow_eq, h0, Nat.zero_mul, hmag _ hb]
  rfl

/-- Recognising decimals far outside the range changes nothing: a decimal is read as the nearest
number. -/
theorem ofDecimal_eq_nearest (d : Decimal) : ofDecimal d = nearest d := by
  simp only [ofDecimal]
  split
  · next h0 => exact (nearest_of_coefficient_eq_zero h0).symm
  · next h0 =>
    split
    · next h => exact (nearest_of_large h0 h).symm
    · split
      · next h => exact (nearest_of_small h).symm
      · rfl

/-- Digits denote no NaN and no number with a sign. -/
theorem sign_ofDecimal (d : Decimal) :
    (ofDecimal d).isNegative = false ∧ (ofDecimal d).isNaN = false := by
  have hbits : (nearest d).bits.toNat ≤ infinityMagnitude := by
    simp only [nearest]
    rw [UInt64.toNat_ofNat_of_lt']
    · exact Nat.min_le_left _ _
    · exact lt_of_le_of_lt (Nat.min_le_left _ _) (by decide)
  have hsign : infinityMagnitude < signBit := by decide
  rw [ofDecimal_eq_nearest]
  refine ⟨decide_eq_false (by omega), decide_eq_false ?_⟩
  rw [magnitude, Nat.mod_eq_of_lt (by omega)]
  omega

end Number

end ErrorAnalysis
