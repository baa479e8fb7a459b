import Mathlib
import ErrorAnalysis.Number.Basic

/-!
# Quotients of Counts

A part of a whole is shown as the quotient of two counts. Each count is rounded to the nearest number
first, and then the quotient is. Rounding keeps the order, and it does not carry a number past a power of
two; so the quotient of a part by its whole stays between zero and one, whatever is lost on the way.

Only positive normal numbers take part, besides zero: mantissas have 53 bits, and the exponents of counts
are far from both ends.

## Main definitions

* `Number.parts`: what a number consists of.
* `Number.Normal`: the mantissa and the exponent of a positive normal number.
* `Number.significand`: a mantissa that is cut to fewer bits and rounded.

## Main results

* `Number.roundWithAccuracy_eq`: how a mantissa with bits to spare is rounded.
* `Number.parts_ofNat`: the number that is nearest to a count.
* `Number.Normal.div_le_one`: a quotient of two numbers in order is at most one.
* `Number.ofInt_ne_zero`: an integer other than zero has a number other than zero.
* `Number.div_ofNat_mem_unit`: **the quotient of a part by its whole is between zero and one.**
* `Number.div_ofNat_pos`, `Number.zero_div_ofNat`: it is zero only if the part is empty.
-/

namespace ErrorAnalysis

namespace Number

open Float.Model (Format UnpackedFloat totalExponent)
open Float.Model.UnpackedFloat

/-! ### Parts -/

/-- What a number consists of: a sign, a mantissa and an exponent, if it is finite and not zero. -/
def parts (x : Number) : UnpackedFloat :=
  x.toFloat.toModel.unpack

theorem le_iff_parts {x y : Number} : x ≤ y ↔ x.parts.le y.parts = true := by
  change decide (x.toFloat.toModel ≤ y.toFloat.toModel) = true ↔ _
  rw [decide_eq_true_iff]
  rfl

theorem lt_iff_parts {x y : Number} : x < y ↔ x.parts.lt y.parts = true := by
  change decide (x.toFloat.toModel < y.toFloat.toModel) = true ↔ _
  rw [decide_eq_true_iff]
  rfl

/-- A number that consists of what was packed, if packing loses nothing. -/
theorem parts_ofFloat {u : UnpackedFloat} (h : unpack Format.binary64 (pack Format.binary64 u) = u) :
    (ofFloat (.ofModel (.pack u))).parts = u := by
  change unpack Format.binary64 (pack Format.binary64
    (unpack Format.binary64 (pack Format.binary64 u))) = u
  rw [h, h]

/-- A NaN has no parts. -/
theorem parts_of_isNaN {x : Number} (h : x.isNaN = true) : x.parts = .notANumber := by
  have hmagnitude : infinityMagnitude < x.bits.toNat % signBit := of_decide_eq_true h
  have hlt : x.bits.toNat < 2 ^ 64 := x.bits.toNat_lt
  simp only [infinityMagnitude, signBit] at hmagnitude
  have hnan : @isNaNBits Format.binary64 x.bits.toBitVec = true := by
    refine decide_eq_true ⟨?_, ?_⟩
    · rw [unpackExponent_def]
      refine BitVec.eq_of_toNat_eq ?_
      rw [BitVec.extractLsb'_toNat, Nat.shiftRight_eq_div_pow]
      change x.bits.toNat / 2 ^ 52 % 2 ^ 11 = 2047
      omega
    · rw [unpackMantissa_def]
      intro hzero
      have hzero := congrArg BitVec.toNat hzero
      rw [BitVec.extractLsb'_toNat, Nat.shiftRight_eq_div_pow] at hzero
      change x.bits.toNat / 2 ^ 0 % 2 ^ 52 = 0 at hzero
      omega
  change unpack Format.binary64 (pack Format.binary64 (unpack Format.binary64 x.bits.toBitVec)) = _
  rw [pack_unpack, if_pos hnan, unpack_packedNaN]

/-! ### Normal numbers -/

/-- The mantissa and the exponent of a positive normal number. -/
structure Normal where
  mantissa : ℕ
  exponent : ℤ
  le_mantissa : 2 ^ 52 ≤ mantissa
  mantissa_lt : mantissa < 2 ^ 53

namespace Normal

variable {x y : Normal}

theorem mantissa_pos (x : Normal) : 0 < x.mantissa :=
  Nat.lt_of_lt_of_le (Nat.two_pow_pos 52) x.le_mantissa

theorem log2_mantissa (x : Normal) : x.mantissa.log2 = 52 :=
  (Nat.log2_eq_iff x.mantissa_pos.ne').mpr ⟨x.le_mantissa, x.mantissa_lt⟩

/-- The parts of a positive normal number. -/
def parts (x : Normal) : UnpackedFloat :=
  .finite .positive x.mantissa x.exponent x.mantissa_pos

/-- The exponent decides, and then the mantissa. -/
instance : LE Normal :=
  ⟨fun x y => x.exponent < y.exponent ∨ x.exponent = y.exponent ∧ x.mantissa ≤ y.mantissa⟩

theorem le_def : x ≤ y ↔
    x.exponent < y.exponent ∨ x.exponent = y.exponent ∧ x.mantissa ≤ y.mantissa := Iff.rfl

theorem le_parts (h : x ≤ y) : x.parts.le y.parts = true := by
  change ((compare x.exponent y.exponent).then (compare x.mantissa y.mantissa)).isLE = true
  rw [Ordering.isLE_then_iff_or, Int.compare_eq_lt, Int.compare_eq_eq, Nat.isLE_compare]
  exact h

/-- Packing a number with a sign loses nothing if its exponent is in range. -/
theorem unpack_pack_signed (s : Sign) (hlo : -1074 ≤ x.exponent) (hhi : x.exponent ≤ 971) :
    unpack Format.binary64 (pack Format.binary64 (.finite s x.mantissa x.exponent x.mantissa_pos)) =
      .finite s x.mantissa x.exponent x.mantissa_pos := by
  have hlog := x.log2_mantissa
  obtain ⟨m, e, hm, hm'⟩ := x
  dsimp only at hlo hhi hlog
  obtain ⟨b, hb⟩ : ∃ b : ℕ, e + 1075 = b := Int.eq_ofNat_of_zero_le (by omega)
  have hbiased : (e + Format.binary64.exponentBias +
      Format.binary64.mantissaBitsWithoutImplicit).toNat = b := by
    change (e + 1023 + 52).toNat = b
    omega
  have hpack : pack Format.binary64 (.finite s m e (by omega)) =
      packComponents Format.binary64 s (BitVec.ofNat 11 b) (BitVec.ofNat 52 m) := by
    simp only [UnpackedFloat.pack]
    rw [hbiased, if_neg (by omega), if_pos (by rw [hlog]; rfl)]
  have hexponent : (BitVec.ofNat 11 b).toNat = b := by
    rw [BitVec.toNat_ofNat, Nat.mod_eq_of_lt (by omega)]
  have hfinite : BitVec.ofNat 11 b ≠ -1#11 := fun h => by
    have h : b = 2047 := hexponent.symm.trans (congrArg BitVec.toNat h)
    omega
  have hnormal : BitVec.ofNat 11 b ≠ 0#11 := fun h => by
    have h : b = 0 := hexponent.symm.trans (congrArg BitVec.toNat h)
    omega
  have hmantissa : (1#1 ++ BitVec.ofNat 52 m).toNat = m := by
    rw [BitVec.toNat_append, BitVec.toNat_ofNat, BitVec.toNat_ofNat, Nat.shiftLeft_eq, Nat.mul_comm,
      ← Nat.two_pow_add_eq_or_of_lt (Nat.mod_lt m (Nat.two_pow_pos 52))]
    omega
  rw [hpack]
  unfold UnpackedFloat.unpack
  simp only [unpackExponent_packComponents, unpackMantissa_packComponents, unpackSign_packComponents]
  rw [if_neg hfinite, if_neg hnormal, UnpackedFloat.finite.injEq]
  refine ⟨by cases s <;> rfl, hmantissa, ?_⟩
  rw [hexponent]
  change (b : ℤ) - (1023 + 52) = e
  omega

/-- Packing a number whose exponent is in range loses nothing. -/
theorem unpack_pack (hlo : -1074 ≤ x.exponent) (hhi : x.exponent ≤ 971) :
    unpack Format.binary64 (pack Format.binary64 x.parts) = x.parts :=
  unpack_pack_signed .positive hlo hhi

end Normal

/-! ### Cutting mantissas -/

/-- A mantissa with its two spare bits, measured in quarters of the last place. The second of them says
only whether something is left. -/
def quarters (em : ExtendedMantissa) : ℕ :=
  4 * em.mantissa + 2 * em.roundBit.toNat + em.stickyBit.toNat

/-- Cutting one bit halves the quarters, and an odd rest is kept in the last bit. -/
theorem quarters_shiftRight_succ (em : ExtendedMantissa) (k : ℕ) :
    quarters (em >>> (k + 1)) = quarters (em >>> k) / 4 * 2 + min 1 (quarters (em >>> k) % 4) := by
  have hstep : em >>> (k + 1) = (em >>> k).shiftRightOne := rfl
  rw [hstep]
  obtain ⟨m, r, s⟩ := em >>> k
  have hbit : (m % 2 != 0).toNat = m % 2 := by
    rcases Nat.mod_two_eq_zero_or_one m with h | h <;> rw [h] <;> rfl
  simp only [quarters, ExtendedMantissa.shiftRightOne, hbit]
  cases r <;> cases s <;>
    simp only [Bool.or_self, Bool.or_true, Bool.or_false, Bool.toNat_true, Bool.toNat_false] <;> omega

theorem quarters_shiftRight_mono {em em' : ExtendedMantissa} (h : quarters em ≤ quarters em') (k : ℕ) :
    quarters (em >>> k) ≤ quarters (em' >>> k) := by
  induction k with
  | zero => exact h
  | succ k ih =>
      rw [quarters_shiftRight_succ, quarters_shiftRight_succ]
      omega

theorem roundedMantissa_mono {em em' : ExtendedMantissa} (h : quarters em ≤ quarters em') :
    em.roundedMantissa ≤ em'.roundedMantissa := by
  obtain ⟨m, r, s⟩ := em
  obtain ⟨m', r', s'⟩ := em'
  simp only [quarters] at h
  cases r <;> cases s <;> cases r' <;> cases s' <;>
    simp only [Bool.toNat_true, Bool.toNat_false, ExtendedMantissa.roundedMantissa,
      ExtendedMantissa.accuracy, Accuracy.roundToNearestEven] at h ⊢ <;> omega

/-- A mantissa that is cut by some bits and rounded. -/
def significand (m : ℕ) (accuracy : Accuracy) (k : ℕ) : ℕ :=
  (ExtendedMantissa.ofMantissaAndAccuracy m accuracy >>> k).roundedMantissa

/-- The spare bits add less than one to a mantissa. -/
theorem quarters_ofMantissaAndAccuracy (m : ℕ) (accuracy : Accuracy) :
    4 * m ≤ quarters (.ofMantissaAndAccuracy m accuracy) ∧
      quarters (.ofMantissaAndAccuracy m accuracy) < 4 * (m + 1) := by
  rcases accuracy with _ | o
  · exact ⟨le_rfl, Nat.lt_add_of_pos_right (by decide)⟩
  · cases o <;>
      simp only [ExtendedMantissa.ofMantissaAndAccuracy, quarters, Bool.toNat_true,
        Bool.toNat_false] <;> omega

/-- Nothing is lost if the bits that are cut are zeros. -/
theorem significand_mul_two_pow (m k : ℕ) : significand (m * 2 ^ k) .exact k = m := by
  have hquarters (j : ℕ) (m : ℕ) :
      ExtendedMantissa.ofMantissaAndAccuracy (m * 2 ^ j) .exact >>> j = ⟨m, false, false⟩ := by
    induction j generalizing m with
    | zero => rw [Nat.pow_zero, Nat.mul_one]; rfl
    | succ j ih =>
        have hstep (em : ExtendedMantissa) : em >>> (j + 1) = (em >>> j).shiftRightOne := rfl
        rw [hstep, Nat.pow_succ, Nat.mul_comm _ 2, ← Nat.mul_assoc, ih, ExtendedMantissa.shiftRightOne,
          Nat.mul_div_cancel _ (by decide), Nat.mul_mod_left]
        rfl
  rw [significand, hquarters]
  rfl

/-- Rounding keeps the order. -/
theorem significand_mono {m m' : ℕ} (h : m ≤ m') (k : ℕ) :
    significand m .exact k ≤ significand m' .exact k := by
  refine roundedMantissa_mono (quarters_shiftRight_mono ?_ k)
  exact Nat.mul_le_mul_left 4 h

/-- Rounding does not carry a mantissa past a power of two, from either side. -/
theorem significand_mem {m k l : ℕ} (accuracy : Accuracy) (hlo : 2 ^ (l + k) ≤ m)
    (hhi : m < 2 ^ (l + 1 + k)) :
    2 ^ l ≤ significand m accuracy k ∧ significand m accuracy k ≤ 2 ^ (l + 1) := by
  obtain ⟨hquarters, hquarters'⟩ := quarters_ofMantissaAndAccuracy m accuracy
  constructor
  · rw [← significand_mul_two_pow (2 ^ l) k, ← Nat.pow_add]
    refine roundedMantissa_mono (quarters_shiftRight_mono ?_ k)
    exact (Nat.mul_le_mul_left 4 hlo).trans hquarters
  · rw [← significand_mul_two_pow (2 ^ (l + 1)) k, ← Nat.pow_add]
    refine roundedMantissa_mono (quarters_shiftRight_mono ?_ k)
    exact hquarters'.le.trans (Nat.mul_le_mul_left 4 hhi)

/-! ### Rounding -/

/-- A mantissa with a place for each of 53 bits, or one more after a carry, made normal. -/
def Normal.ofRounded (m : ℕ) (e : ℤ) (h : 2 ^ 52 ≤ m ∧ m ≤ 2 ^ 53) : Normal :=
  if hm : m = 2 ^ 53 then ⟨2 ^ 52, e + 1, le_rfl, by decide⟩
  else ⟨m, e, h.1, Nat.lt_of_le_of_ne h.2 hm⟩

theorem Normal.ofRounded_le {m m' : ℕ} {e e' : ℤ} {h : 2 ^ 52 ≤ m ∧ m ≤ 2 ^ 53}
    {h' : 2 ^ 52 ≤ m' ∧ m' ≤ 2 ^ 53} (hle : e < e' ∨ e = e' ∧ m ≤ m') :
    Normal.ofRounded m e h ≤ Normal.ofRounded m' e' h' := by
  rw [ofRounded, ofRounded, le_def]
  split_ifs <;> dsimp only <;> omega

theorem Normal.exponent_ofRounded {m : ℕ} {e : ℤ} {h : 2 ^ 52 ≤ m ∧ m ≤ 2 ^ 53} :
    e ≤ (Normal.ofRounded m e h).exponent ∧ (Normal.ofRounded m e h).exponent ≤ e + 1 := by
  rw [ofRounded]
  split_ifs <;> dsimp only <;> omega

/-- A mantissa with bits to spare is cut to 53 bits. -/
theorem shiftToTargetExponent_eq {m k : ℕ} {e : ℤ} (accuracy : Accuracy) (hlo : 2 ^ (52 + k) ≤ m)
    (hhi : m < 2 ^ (53 + k)) (he : -1074 ≤ e + k) :
    shiftToTargetExponent Format.binary64 m e accuracy =
      (ExtendedMantissa.ofMantissaAndAccuracy m accuracy >>> k, e + k) := by
  have hlog : m.log2 = 52 + k :=
    (Nat.log2_eq_iff (by have := Nat.two_pow_pos (52 + k); omega)).mpr
      ⟨hlo, by rwa [Nat.add_right_comm]⟩
  have htarget : Format.binary64.targetExponent (totalExponent m e) = e + k := by
    rw [Format.targetExponent, totalExponent, hlog]
    change max (((52 + k : ℕ) : ℤ) + 1 + e - 53) (-1074) = e + k
    omega
  have hshift : (e + (k : ℤ) - e).toNat = k := by omega
  rw [shiftToTargetExponent, htarget, shiftToExponent, hshift]

/-- A rounded mantissa is made normal by one more cut, which loses nothing. -/
theorem shiftToTargetExponent_rounded {m : ℕ} {e : ℤ} (h : 2 ^ 52 ≤ m ∧ m ≤ 2 ^ 53)
    (he : -1074 ≤ e) :
    (shiftToTargetExponent Format.binary64 m e .exact).1.mantissa =
        (Normal.ofRounded m e h).mantissa ∧
      (shiftToTargetExponent Format.binary64 m e .exact).2 = (Normal.ofRounded m e h).exponent := by
  rw [Normal.ofRounded]
  split_ifs with hm
  · subst hm
    rw [shiftToTargetExponent_eq (k := 1) .exact (by decide) (by decide) (by omega)]
    exact ⟨rfl, rfl⟩
  · rw [shiftToTargetExponent_eq (k := 0) .exact h.1 (by omega) (by omega), Nat.cast_zero, add_zero]
    exact ⟨rfl, rfl⟩

/-- **How a mantissa with bits to spare is rounded**: it is cut to 53 bits, and made normal if that
carries it to the next power of two. -/
theorem roundWithAccuracy_eq {m k : ℕ} {e : ℤ} (accuracy : Accuracy) (hlo : 2 ^ (52 + k) ≤ m)
    (hhi : m < 2 ^ (53 + k)) (he : -1074 ≤ e + k) :
    roundWithAccuracy Format.binary64 .positive m e accuracy =
      (Normal.ofRounded (significand m accuracy k) (e + k)
        (significand_mem accuracy hlo hhi)).parts := by
  obtain ⟨hmantissa, hexponent⟩ := shiftToTargetExponent_rounded (significand_mem accuracy hlo hhi) he
  rw [roundWithAccuracy, shiftToTargetExponent_eq accuracy hlo hhi he]
  have hne : (shiftToTargetExponent Format.binary64 (significand m accuracy k) (e + k)
      .exact).1.mantissa ≠ 0 := by
    rw [hmantissa]
    exact (Normal.mantissa_pos _).ne'
  refine (dif_neg hne).trans ?_
  rw [Normal.parts, UnpackedFloat.finite.injEq]
  exact ⟨rfl, hmantissa, hexponent⟩

/-! ### Products and quotients -/

namespace Normal

variable {x y : Normal}

/-- The number one. -/
def one : Normal :=
  ⟨2 ^ 52, -52, le_rfl, by decide⟩

theorem mul_one (hx : -1074 ≤ x.exponent) :
    mul Format.binary64 x.parts one.parts = x.parts := by
  have hmul : mul Format.binary64 x.parts one.parts =
      roundWithAccuracy Format.binary64 .positive (x.mantissa * 2 ^ 52) (x.exponent + -52) .exact := rfl
  have hlo : 2 ^ (52 + 52) ≤ x.mantissa * 2 ^ 52 := by
    rw [Nat.pow_add]
    exact Nat.mul_le_mul_right _ x.le_mantissa
  have hhi : x.mantissa * 2 ^ 52 < 2 ^ (53 + 52) := by
    rw [Nat.pow_add]
    exact Nat.mul_lt_mul_of_pos_right x.mantissa_lt (Nat.two_pow_pos 52)
  rw [hmul, roundWithAccuracy_eq .exact hlo hhi (by omega)]
  simp only [significand_mul_two_pow, ofRounded, dif_neg x.mantissa_lt.ne, parts,
    UnpackedFloat.finite.injEq, true_and]
  omega

theorem ofRounded_le_one {m : ℕ} {e : ℤ} {h : 2 ^ 52 ≤ m ∧ m ≤ 2 ^ 53}
    (hle : e < -52 ∨ e = -52 ∧ m = 2 ^ 52) : ofRounded m e h ≤ one := by
  rw [ofRounded, le_def, one]
  split_ifs <;> dsimp only <;> omega

/-- The mantissas are divided with 53 bits to spare. -/
theorem div_parts (hrange : -1000 ≤ x.exponent - y.exponent) :
    div Format.binary64 x.parts y.parts =
      roundWithAccuracy Format.binary64 .positive (x.mantissa * 2 ^ 53 / y.mantissa)
        (x.exponent - y.exponent - 53)
        (accuracyOfFraction (x.mantissa * 2 ^ 53 % y.mantissa) y.mantissa) := by
  obtain ⟨e, he⟩ : ∃ e, e = x.exponent - y.exponent := ⟨_, rfl⟩
  have htarget : min e (Format.binary64.targetExponent
      (totalExponent x.mantissa x.exponent - totalExponent y.mantissa y.exponent)) = e - 53 := by
    rw [Format.targetExponent, totalExponent, totalExponent, log2_mantissa, log2_mantissa]
    change min e (max (((52 : ℕ) : ℤ) + 1 + x.exponent - (((52 : ℕ) : ℤ) + 1 + y.exponent) - 53)
      (-1074)) = e - 53
    omega
  have hshift : (e - (e - 53)).toNat = 53 := by omega
  have hcore : divCore Format.binary64 x.mantissa x.exponent y.mantissa y.exponent =
      (x.mantissa * 2 ^ 53 / y.mantissa, e - 53,
        accuracyOfFraction (x.mantissa * 2 ^ 53 % y.mantissa) y.mantissa) := by
    rw [divCore, ← he, htarget, hshift, Nat.shiftLeft_eq]
  rw [parts, parts, div, hcore, ← he]
  rfl

/-- **A quotient of two numbers in order is at most one.** The quotient of the mantissas has 53 or 54
bits. It has 54 only if the dividend has no less a mantissa, and then it has the lesser exponent, or both
numbers are the same. -/
theorem div_le_one (h : x ≤ y) (hrange : -1000 ≤ x.exponent - y.exponent) :
    ∃ z : Normal, div Format.binary64 x.parts y.parts = z.parts ∧ z ≤ one ∧ -1074 ≤ z.exponent := by
  rw [div_parts hrange]
  obtain ⟨m, e, hm, hm'⟩ := x
  obtain ⟨n, f, hn, hn'⟩ := y
  rw [le_def] at h
  dsimp only at h hrange ⊢
  have hn0 : 0 < n := by omega
  by_cases hlt : m < n
  · have hlo : 2 ^ (52 + 0) ≤ m * 2 ^ 53 / n := (Nat.le_div_iff_mul_le hn0).mpr (by omega)
    have hhi : m * 2 ^ 53 / n < 2 ^ (53 + 0) := (Nat.div_lt_iff_lt_mul hn0).mpr (by omega)
    refine ⟨_, roundWithAccuracy_eq _ hlo hhi (by omega), ofRounded_le_one (.inl (by omega)), ?_⟩
    exact le_trans (by omega) exponent_ofRounded.1
  · have hlo : 2 ^ (52 + 1) ≤ m * 2 ^ 53 / n := (Nat.le_div_iff_mul_le hn0).mpr (by omega)
    have hhi : m * 2 ^ 53 / n < 2 ^ (53 + 1) := (Nat.div_lt_iff_lt_mul hn0).mpr (by omega)
    refine ⟨_, roundWithAccuracy_eq _ hlo hhi (by omega), ofRounded_le_one ?_,
      le_trans (by omega) exponent_ofRounded.1⟩
    rcases h with hlt' | ⟨rfl, hle⟩
    · exact .inl (by omega)
    · obtain rfl : m = n := by omega
      refine .inr ⟨by omega, ?_⟩
      rw [Nat.mul_div_cancel_left _ hn0, Nat.mul_mod_right, accuracyOfFraction, if_pos rfl]
      exact significand_mul_two_pow (2 ^ 52) 1

end Normal

/-! ### Counts -/

/-- The 53 leading bits of a count, rounded. -/
def leadingBits (n : ℕ) : ℕ :=
  significand (n * 2 ^ 53) .exact (n.log2 + 1)

/-- A count that is moved to the left by some bits has as many bits more. -/
theorem mul_two_pow_mem {n j k l : ℕ} (hn : 0 < n) (h : l + k = n.log2 + j) :
    2 ^ (l + k) ≤ n * 2 ^ j ∧ n * 2 ^ j < 2 ^ (l + 1 + k) := by
  have h' : l + 1 + k = n.log2 + 1 + j := by omega
  rw [h, h', Nat.pow_add, Nat.pow_add]
  exact ⟨Nat.mul_le_mul_right _ (Nat.log2_self_le hn.ne'),
    Nat.mul_lt_mul_of_pos_right Nat.lt_log2_self (Nat.two_pow_pos j)⟩

theorem leadingBits_mem {n : ℕ} (hn : 0 < n) : 2 ^ 52 ≤ leadingBits n ∧ leadingBits n ≤ 2 ^ 53 := by
  obtain ⟨hlo, hhi⟩ := @mul_two_pow_mem n 53 (n.log2 + 1) 52 hn (by omega)
  exact significand_mem .exact hlo hhi

/-- The normal number that is nearest to a count. -/
def nearestNormal (n : ℕ) (hn : 0 < n) : Normal :=
  .ofRounded (leadingBits n) (n.log2 - 52) (leadingBits_mem hn)

/-- A greater count has no less a number. -/
theorem nearestNormal_mono {m n : ℕ} {hm : 0 < m} {hn : 0 < n} (h : m ≤ n) :
    nearestNormal m hm ≤ nearestNormal n hn := by
  have hlog : m.log2 ≤ n.log2 := (Nat.le_log2 hn.ne').mpr ((Nat.log2_self_le hm.ne').trans h)
  refine Normal.ofRounded_le ?_
  rcases hlog.lt_or_eq with hlt | heq
  · exact .inl (by omega)
  · refine .inr ⟨by rw [heq], ?_⟩
    rw [leadingBits, leadingBits, heq]
    exact significand_mono (Nat.mul_le_mul_right _ h) _

theorem exponent_nearestNormal {n : ℕ} (hn : 0 < n) (hlt : n < UInt64.size) :
    -52 ≤ (nearestNormal n hn).exponent ∧ (nearestNormal n hn).exponent ≤ 12 := by
  have hlog : n.log2 < 64 := (Nat.log2_lt hn.ne').mpr hlt
  obtain ⟨hlo, hhi⟩ := Normal.exponent_ofRounded (h := leadingBits_mem hn) (e := n.log2 - 52)
  exact ⟨le_trans (by omega) hlo, hhi.trans (by omega)⟩

theorem unpack_pack_nearestNormal {n : ℕ} (hn : 0 < n) (hlt : n < UInt64.size) :
    unpack Format.binary64 (pack Format.binary64 (nearestNormal n hn).parts) =
      (nearestNormal n hn).parts := by
  obtain ⟨hlo, hhi⟩ := exponent_nearestNormal hn hlt
  exact Normal.unpack_pack (by omega) (by omega)

/-- A count with at most 53 bits is moved to the left until it has 53. -/
theorem ofNat_eq_roundWithAccuracy {n : ℕ} (hn : 0 < n) (hlt : n < 2 ^ 53) :
    Float.Model.UnpackedFloat.ofNat Format.binary64 n =
      roundWithAccuracy Format.binary64 .positive (n * 2 ^ (52 - n.log2)) (n.log2 - 52) .exact := by
  have hlog : n.log2 < 53 := (Nat.log2_lt hn.ne').mpr hlt
  have hcompare : compare (n : ℤ) 0 = .gt := Int.compare_eq_gt.mpr (by omega)
  have htarget : Format.binary64.targetExponent (totalExponent n 0) = n.log2 - 52 := by
    rw [Format.targetExponent, totalExponent]
    change max ((n.log2 : ℤ) + 1 + 0 - 53) (-1074) = _
    omega
  have hshift : (0 - ((n.log2 : ℤ) - 52)).toNat = 52 - n.log2 := by omega
  change UnpackedFloat.normalize Format.binary64 n 0 .positive = _
  unfold UnpackedFloat.normalize
  rw [hcompare]
  dsimp only
  rw [Float.Model.UnpackedFloat.round, Int.toNat_natCast, htarget, decreaseExponent, hshift,
    Nat.shiftLeft_eq]
  dsimp only
  congr 1
  omega

/-- Counts with at most 53 bits are rounded to themselves. -/
theorem ofNat_of_lt {n : ℕ} (hn : 0 < n) (hlt : n < 2 ^ 53) :
    Float.Model.UnpackedFloat.ofNat Format.binary64 n = (nearestNormal n hn).parts := by
  have hlog : n.log2 < 53 := (Nat.log2_lt hn.ne').mpr hlt
  have hbits : leadingBits n = n * 2 ^ (52 - n.log2) := by
    have hpow : n * 2 ^ 53 = n * 2 ^ (52 - n.log2) * 2 ^ (n.log2 + 1) := by
      rw [Nat.mul_assoc, ← Nat.pow_add]
      congr 2
      omega
    rw [leadingBits, hpow, significand_mul_two_pow]
  have hcut : significand (n * 2 ^ (52 - n.log2)) .exact 0 = leadingBits n := by
    have hcut := significand_mul_two_pow (n * 2 ^ (52 - n.log2)) 0
    rw [Nat.pow_zero, Nat.mul_one] at hcut
    rw [hcut, hbits]
  obtain ⟨hlo, hhi⟩ := @mul_two_pow_mem n (52 - n.log2) 0 52 hn (by omega)
  rw [ofNat_eq_roundWithAccuracy hn hlt, roundWithAccuracy_eq .exact hlo hhi (by omega), nearestNormal]
  simp only [hcut, Nat.cast_zero, add_zero]

/-- Counts with at most 53 bits are converted as integers of the machine, and multiplied by a power of ten
that is one. -/
theorem float_ofNat_of_lt {n : ℕ} (h : n < 2 ^ 53) :
    Float.ofNat n = n.toUInt64.toFloat * Float.ofBits 0x3FF0000000000000 := by
  change Float.ofScientific n false 0 = _
  rw [Float.ofScientific, dif_pos ⟨h, by decide⟩]
  rfl

/-- Greater counts are multiplied by the power of ten without a conversion. -/
theorem float_ofNat_of_le {n : ℕ} (h : 2 ^ 53 ≤ n) :
    Float.ofNat n = .ofModel (.pack (ofScientific Format.binary64 n 0)) := by
  change Float.ofScientific n false 0 = _
  rw [Float.ofScientific, dif_neg fun h' => Nat.not_le_of_lt h'.1 h]
  rfl

theorem ofScientific_eq_nearestNormal {n : ℕ} (hn : 0 < n) :
    ofScientific Format.binary64 n 0 = (nearestNormal n hn).parts := by
  have hmul : ofScientific Format.binary64 n 0 =
      roundWithAccuracy Format.binary64 .positive (n * 2 ^ 53) (-53) .exact := by
    unfold UnpackedFloat.ofScientific
    have hbits : (2 : ℤ) ^ Format.binary64.exponentBits = 2048 := rfl
    rw [dif_neg hn.ne', hbits, if_neg (by omega), if_neg (by omega), if_pos le_rfl]
    unfold UnpackedFloat.mul
    dsimp only
    rw [Nat.shiftLeft_eq, Int.toNat_zero, Nat.pow_zero, Nat.mul_one, add_zero]
    rfl
  obtain ⟨hlo, hhi⟩ := @mul_two_pow_mem n 53 (n.log2 + 1) 52 hn (by omega)
  have hexponent : (-53 : ℤ) + (n.log2 + 1 : ℕ) = n.log2 - 52 := by omega
  rw [hmul, roundWithAccuracy_eq .exact hlo hhi (by omega), nearestNormal]
  simp only [hexponent, leadingBits]

/-- The float of a count is the nearest one. -/
theorem float_ofNat {n : ℕ} (hn : 0 < n) (hlt : n < UInt64.size) :
    Float.ofNat n = .ofModel (.pack (nearestNormal n hn).parts) := by
  have hpack := unpack_pack_nearestNormal hn hlt
  by_cases hsmall : n < 2 ^ 53
  · have hcount : n.toUInt64.toFloat.toModel.unpack = (nearestNormal n hn).parts := by
      have htoNat : n.toUInt64.toNat = n := Nat.mod_eq_of_lt hlt
      change unpack Format.binary64 (pack Format.binary64
        (Float.Model.UnpackedFloat.ofNat Format.binary64 n.toUInt64.toNat)) = _
      rw [htoNat, ofNat_of_lt hn hsmall, hpack]
    have hone : (Float.ofBits 0x3FF0000000000000).toModel.unpack = Normal.one.parts := rfl
    rw [float_ofNat_of_lt hsmall]
    change Float.ofModel (.pack (mul Format.binary64 n.toUInt64.toFloat.toModel.unpack
      (Float.ofBits 0x3FF0000000000000).toModel.unpack)) = _
    rw [hcount, hone, Normal.mul_one]
    exact le_trans (by decide) (exponent_nearestNormal hn hlt).1
  · rw [float_ofNat_of_le (by omega), ofScientific_eq_nearestNormal hn]

/-- The number of a count is the nearest one. -/
theorem parts_ofNat {n : ℕ} (hn : 0 < n) (hlt : n < UInt64.size) :
    (ofNat n).parts = (nearestNormal n hn).parts := by
  rw [ofNat, float_ofNat hn hlt, parts_ofFloat (unpack_pack_nearestNormal hn hlt)]

theorem parts_zero : (0 : Number).parts = .zero .positive :=
  rfl

/-- The number of an integer other than zero is not zero. -/
theorem ofInt_ne_zero {i : ℤ} (hi : i ≠ 0) (hlt : i.natAbs < UInt64.size) : ofInt i ≠ 0 := by
  suffices hparts : (ofInt i).parts ≠ .zero .positive by
    intro hzero
    exact hparts (hzero ▸ parts_zero)
  cases i with
  | ofNat n =>
      have hn : 0 < n := Nat.pos_of_ne_zero fun h => hi (congrArg Int.ofNat h)
      have hparts : (ofInt (.ofNat n)).parts = (nearestNormal n hn).parts := parts_ofNat hn hlt
      rw [hparts]
      exact nofun
  | negSucc n =>
      -- the sign is the only difference to the number of `n + 1`
      have hn : 0 < n + 1 := Nat.succ_pos n
      obtain ⟨hlo, hhi⟩ := exponent_nearestNormal hn hlt
      have hneg : Float.ofInt (.negSucc n) =
          .ofModel (.pack (Float.ofNat (n + 1)).toModel.unpack.neg) := rfl
      have hcount : (Float.ofNat (n + 1)).toModel.unpack = (nearestNormal (n + 1) hn).parts := by
        rw [float_ofNat hn hlt]
        exact unpack_pack_nearestNormal hn hlt
      have hpack := (nearestNormal (n + 1) hn).unpack_pack_signed .negative (by omega) (by omega)
      have hparts := parts_ofFloat hpack
      rw [ofInt, hneg, hcount]
      exact fun hzero => nomatch hparts.symm.trans hzero

/-! ### Shares -/

theorem isNaN_of_parts {x : Number} (h : x.parts ≠ .notANumber) : x.isNaN = false :=
  Bool.eq_false_iff.mpr fun hnan => h (parts_of_isNaN hnan)

/-- A quotient of numbers is packed from a quotient of parts, if that is done without loss. -/
theorem div_eq_ofFloat {x y : Number} {u : UnpackedFloat} (hx : x.parts ≠ .notANumber)
    (hy : y.parts ≠ .notANumber) (hu : u ≠ .notANumber)
    (hdiv : div Format.binary64 x.parts y.parts = u)
    (hpack : unpack Format.binary64 (pack Format.binary64 u) = u) :
    x / y = ofFloat (.ofModel (.pack u)) := by
  have hfloat : x.toFloat / y.toFloat = .ofModel (.pack u) := by
    rw [← hdiv]
    rfl
  have hnan : (x.toFloat / y.toFloat).isNaN = false := by
    rw [hfloat]
    change (unpack Format.binary64 (pack Format.binary64 u)).isNaN = false
    rw [hpack]
    exact Bool.eq_false_iff.mpr fun h => hu (UnpackedFloat.isNaN_iff.mp h)
  change lift (· / ·) x y = _
  rw [lift, if_neg (Bool.eq_false_iff.mp (isNaN_of_parts hx)),
    if_neg (Bool.eq_false_iff.mp (isNaN_of_parts hy))]
  dsimp only
  rw [if_neg (Bool.eq_false_iff.mp hnan), hfloat]

theorem parts_one : (1 : Number).parts = Normal.one.parts :=
  rfl

theorem Normal.parts_ne_notANumber (x : Normal) : x.parts ≠ .notANumber :=
  nofun

/-- No part of a whole has the share zero. -/
theorem zero_div_ofNat {n : ℕ} (hn : 0 < n) (hlt : n < UInt64.size) : ofNat 0 / ofNat n = 0 := by
  have hwhole := parts_ofNat hn hlt
  have hzero : (ofNat 0).parts = .zero .positive := parts_zero
  refine div_eq_ofFloat (u := .zero .positive) (by rw [hzero]; nofun) ?_ nofun ?_ rfl
  · rw [hwhole]
    exact Normal.parts_ne_notANumber _
  · rw [hzero, hwhole]
    rfl

/-- The quotient of a part by its whole is a positive normal number that is at most one. -/
theorem exists_parts_div_ofNat {m n : ℕ} (hm : 0 < m) (hmn : m ≤ n) (hlt : n < UInt64.size) :
    ∃ z : Normal, (ofNat m / ofNat n).parts = z.parts ∧ z ≤ .one := by
  have hn : 0 < n := hm.trans_le hmn
  have hpart := parts_ofNat hm (hmn.trans_lt hlt)
  have hwhole := parts_ofNat hn hlt
  obtain ⟨hlo, -⟩ := exponent_nearestNormal hm (hmn.trans_lt hlt)
  obtain ⟨-, hhi⟩ := exponent_nearestNormal hn hlt
  obtain ⟨z, hdiv, hone, hexponent⟩ := Normal.div_le_one (nearestNormal_mono hmn) (by omega)
  have hle : z.exponent ≤ 971 := by
    rcases hone with hlt | ⟨heq, -⟩
    · exact le_trans hlt.le (by decide)
    · exact heq.le.trans (by decide)
  have hpack := Normal.unpack_pack hexponent hle
  refine ⟨z, ?_, hone⟩
  rw [div_eq_ofFloat (u := z.parts) (by rw [hpart]; exact Normal.parts_ne_notANumber _)
    (by rw [hwhole]; exact Normal.parts_ne_notANumber _) z.parts_ne_notANumber
    (by rw [hpart, hwhole, hdiv]) hpack, parts_ofFloat hpack]

/-- A part that is not empty has a positive share. -/
theorem div_ofNat_pos {m n : ℕ} (hm : 0 < m) (hmn : m ≤ n) (hlt : n < UInt64.size) :
    0 < ofNat m / ofNat n := by
  obtain ⟨z, hz, -⟩ := exists_parts_div_ofNat hm hmn hlt
  rw [lt_iff_parts, parts_zero, hz]
  rfl

/-- **The quotient of a part by its whole is between zero and one.** -/
theorem div_ofNat_mem_unit {m n : ℕ} (hn : 0 < n) (hmn : m ≤ n) (hlt : n < UInt64.size) :
    0 ≤ ofNat m / ofNat n ∧ ofNat m / ofNat n ≤ 1 := by
  rw [le_iff_parts, le_iff_parts, parts_zero, parts_one]
  rcases Nat.eq_zero_or_pos m with rfl | hm
  · rw [zero_div_ofNat hn hlt, parts_zero]
    exact ⟨rfl, rfl⟩
  · obtain ⟨z, hz, hone⟩ := exists_parts_div_ofNat hm hmn hlt
    rw [hz]
    exact ⟨rfl, Normal.le_parts hone⟩

end Number

end ErrorAnalysis
