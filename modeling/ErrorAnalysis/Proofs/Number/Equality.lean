import Mathlib
import ErrorAnalysis.Number.Basic

/-!
# Equal Numbers

Numbers are compared by value: the two zeros are equal, and a NaN differs from itself. Among numbers
without a sign the comparison is exact, so that of two equal ones one can stand for the other. The
comparison unpacks the bits of a number into its parts, and packing the parts gives the bits back.

## Main results

* `Number.unpack_ofBits`: the parts of a number are those of its bits.
* `Number.eq_of_beq_unsigned`: **two numbers without a sign that are equal are the same.**
-/

namespace ErrorAnalysis

namespace Number

open Float.Model (Format UnpackedFloat)
open Float.Model.UnpackedFloat

/-- A number without a sign is no negative zero. -/
theorem unpack_ne_negative_zero {x : Number} (hx : x.isNegative = false) :
    unpack Format.binary64 x.bits.toBitVec ≠ .zero .negative := by
  have hlt : x.bits.toBitVec.toNat
      < 2 ^ (Format.binary64.mantissaBitsWithoutImplicit + Format.binary64.exponentBits) :=
    Nat.lt_of_not_le (of_decide_eq_false hx)
  have hsign : @unpackSign Format.binary64 x.bits.toBitVec = 0#1 := by
    refine BitVec.eq_of_toNat_eq ?_
    rw [unpackSign, BitVec.toNat_cast, BitVec.extractLsb_toNat, Nat.shiftRight_eq_div_pow,
      Nat.div_eq_of_lt hlt]
    rfl
  unfold unpack
  dsimp only
  rw [hsign]
  split_ifs <;> exact fun h => by cases h

/-- The parts of a number that is no NaN are those of its bits, and its bits are packed from them. -/
theorem unpack_ofBits {bits : UInt64} (h : (Float.Model.ofBits bits).unpack ≠ .notANumber) :
    (Float.Model.ofBits bits).unpack = unpack Format.binary64 bits.toBitVec ∧
      pack Format.binary64 (unpack Format.binary64 bits.toBitVec) = bits.toBitVec := by
  have hround : (Float.Model.ofBits bits).unpack =
      unpack Format.binary64 (pack Format.binary64 (unpack Format.binary64 bits.toBitVec)) := rfl
  rw [hround] at h ⊢
  by_cases hnan : @isNaNBits Format.binary64 bits.toBitVec = true
  · rw [pack_unpack, if_pos hnan, unpack_packedNaN] at h
    exact absurd rfl h
  · have hpack : pack Format.binary64 (unpack Format.binary64 bits.toBitVec) = bits.toBitVec := by
      rw [pack_unpack, if_neg hnan]
    exact ⟨by rw [hpack], hpack⟩

/-- **Two numbers without a sign that are equal are the same.** -/
theorem eq_of_beq_unsigned {x y : Number} (hx : x.isNegative = false) (hy : y.isNegative = false)
    (h : (x == y) = true) : x = y := by
  replace h : (Float.Model.ofBits x.bits).unpack.beq (Float.Model.ofBits y.bits).unpack = true := h
  obtain ⟨hxnan, hynan, hcases⟩ := (beq_iff_ne_notANumber_and_eq _ _).mp h
  obtain ⟨hxparts, hxbits⟩ := unpack_ofBits hxnan
  obtain ⟨hyparts, hybits⟩ := unpack_ofBits hynan
  rw [hxparts, hyparts] at hcases
  rcases hcases with hparts | ⟨-, hzero⟩ | ⟨hzero, -⟩
  · have hbits : x.bits.toBitVec = y.bits.toBitVec := by rw [← hxbits, hparts, hybits]
    cases x
    cases y
    exact congrArg Number.mk (UInt64.eq_of_toBitVec_eq hbits)
  · exact absurd hzero (unpack_ne_negative_zero hy)
  · exact absurd hzero (unpack_ne_negative_zero hx)

end Number

end ErrorAnalysis
