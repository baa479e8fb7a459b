/-!
# Binary64 numbers

`Number` is an IEEE 754 binary64 number, given by its 64 bits. It differs from `Float` in one
respect: a NaN keeps its sign bit, and the total order can see it. Arithmetic on numbers that
are not NaN is that of `Float`.

## Main definitions

* `Number`: the type, with `+`, `-`, `*`, `/`, negation, and the comparisons of IEEE 754.
* `Number.compareTotal`: the total order, in which every bit pattern has a place of its own.
* `Number.finite?`: a finite number as a signed integer times a power of two.
* `Number.floor`, `Number.ceil`, `Number.round`: rounding to an integral number.
* `Number.toInt64`: the integral part, clamped to the range of 64-bit signed integers.
-/

namespace ErrorAnalysis

/-- An IEEE 754 binary64 number, given by its bits. -/
structure Number where
  /-- Sign (1 bit), biased exponent (11 bits) and fraction (52 bits), from the top. -/
  bits : UInt64
deriving DecidableEq, Inhabited

namespace Number

/-! ### Parts -/

/-- The weight of the sign bit, `2 ^ 63`. -/
abbrev signBit : Nat :=
  0x8000000000000000

/-- The weight of the leading bit of a normal mantissa, `2 ^ 52`. -/
abbrev leadingBit : Nat :=
  0x10000000000000

/-- The bits below the sign bit, as a natural number. -/
def magnitude (x : Number) : Nat :=
  x.bits.toNat % signBit

/-- Whether the sign bit is set. -/
def isNegative (x : Number) : Bool :=
  decide (signBit ≤ x.bits.toNat)

/-- The magnitude of the infinities; those above it are NaNs. -/
def infinityMagnitude : Nat :=
  0x7FF0000000000000

/-- Whether `x` is not a number. -/
def isNaN (x : Number) : Bool :=
  decide (infinityMagnitude < x.magnitude)

/-- Whether `x` is neither infinite nor a NaN. -/
def isFinite (x : Number) : Bool :=
  decide (x.magnitude < infinityMagnitude)

/-- The NaN without a sign bit. -/
def nan : Number := ⟨0x7FF8000000000000⟩

/-- The NaN that an invalid operation yields: its sign bit is set. -/
def invalid : Number := ⟨0xFFF8000000000000⟩

/-- Positive infinity. -/
def infinity : Number := ⟨0x7FF0000000000000⟩

/-- A finite number as `± mantissa * 2 ^ exponent`. -/
structure Dyadic where
  negative : Bool
  mantissa : Nat
  exponent : Int
deriving DecidableEq, Repr

/-- The exact value of a finite number; `none` for infinities and NaNs. -/
def finite? (x : Number) : Option Dyadic :=
  if x.isFinite then
    let biased : Nat := x.magnitude / leadingBit
    let fraction : Nat := x.magnitude % leadingBit
    if biased = 0 then
      some ⟨x.isNegative, fraction, -1074⟩
    else
      some ⟨x.isNegative, fraction + leadingBit, (biased : Int) - 1075⟩
  else
    none

/-! ### Conversions -/

/-- The same number as a `Float`, which knows one NaN only. -/
def toFloat (x : Number) : Float :=
  Float.ofBits x.bits

/-- A number from a `Float`. -/
def ofFloat (x : Float) : Number :=
  ⟨x.toBits⟩

/-- The number nearest to a natural number. -/
def ofNat (n : Nat) : Number :=
  ofFloat (Float.ofNat n)

/-- The number nearest to an integer. -/
def ofInt (i : Int) : Number :=
  ofFloat (Float.ofInt i)

instance (n : Nat) : OfNat Number n := ⟨ofNat n⟩

instance : OfScientific Number where
  ofScientific mantissa isNegative exponent :=
    ofFloat (Float.ofScientific mantissa isNegative exponent)

/-! ### Arithmetic -/

/-- An operation of two operands: a NaN operand is passed on, the first one if both are, and
an operation that has no value yields `invalid`. -/
def lift (op : Float → Float → Float) (x y : Number) : Number :=
  if x.isNaN then x
  else if y.isNaN then y
  else
    let r := op x.toFloat y.toFloat
    if r.isNaN then invalid else ofFloat r

instance : Add Number := ⟨lift (· + ·)⟩
instance : Sub Number := ⟨lift (· - ·)⟩
instance : Mul Number := ⟨lift (· * ·)⟩
instance : Div Number := ⟨lift (· / ·)⟩

/-- Negation flips the sign bit, also of a zero or a NaN. -/
protected def neg (x : Number) : Number :=
  ⟨x.bits ^^^ 0x8000000000000000⟩

instance : Neg Number := ⟨Number.neg⟩

/-- The number without its sign bit. -/
def abs (x : Number) : Number :=
  ⟨x.bits &&& 0x7FFFFFFFFFFFFFFF⟩

/-! ### Comparison -/

/-- Equality of IEEE 754: the zeros are equal, and a NaN differs from everything. -/
instance : BEq Number := ⟨fun x y => x.toFloat == y.toFloat⟩

instance : LT Number := ⟨fun x y => x.toFloat < y.toFloat⟩
instance : LE Number := ⟨fun x y => x.toFloat ≤ y.toFloat⟩

instance (x y : Number) : Decidable (x < y) :=
  inferInstanceAs (Decidable (x.toFloat < y.toFloat))

instance (x y : Number) : Decidable (x ≤ y) :=
  inferInstanceAs (Decidable (x.toFloat ≤ y.toFloat))

/-- The place of a number in the total order: negative numbers stand in reverse, with
`-0` just below `0` and the NaNs outermost. -/
def rank (x : Number) : Int :=
  if x.isNegative then -1 - (x.magnitude : Int) else x.magnitude

/-- The total order on numbers. -/
def compareTotal (x y : Number) : Ordering :=
  compare x.rank y.rank

/-- The total order tells any two bit patterns apart. -/
theorem rank_injective {x y : Number} (h : x.rank = y.rank) : x = y := by
  have hx := x.bits.toNat_lt
  have hy := y.bits.toNat_lt
  have key : x.bits.toNat = y.bits.toNat := by
    simp only [rank, isNegative, magnitude, signBit, decide_eq_true_eq] at h
    split at h <;> split at h <;> omega
  cases x
  cases y
  exact congrArg Number.mk (UInt64.toNat_inj.1 key)

/-! ### Rounding to integers -/

/-- `floor` of a finite number as an integer. -/
def Dyadic.floor (d : Dyadic) : Int :=
  let m : Int := if d.negative then -d.mantissa else d.mantissa
  if 0 ≤ d.exponent then m * (Nat.pow 2 d.exponent.toNat : Nat)
  else m / (Nat.pow 2 (-d.exponent).toNat : Nat)

/-- The opposite number. -/
def Dyadic.neg (d : Dyadic) : Dyadic :=
  { d with negative := !d.negative }

/-- Rounding toward zero. -/
def Dyadic.truncate (d : Dyadic) : Int :=
  if d.negative then -d.neg.floor else d.floor

/-- Rounding to the nearest integer, a half going away from zero. -/
def Dyadic.round (d : Dyadic) : Int :=
  let half (d : Dyadic) : Int := (⟨false, 2 * d.mantissa, d.exponent⟩ : Dyadic).floor + 1
  if d.negative then -(half d / 2) else half d / 2

/-- The integral number `i`, with the sign of `x` if it is zero; `x` itself if it is already
integral for its size, infinite or a NaN. -/
private def toIntegral (x : Number) (f : Dyadic → Int) : Number :=
  match x.finite? with
  | none => x
  | some d =>
    if 0 ≤ d.exponent then x
    else
      let i := f d
      if i = 0 then ⟨x.bits &&& 0x8000000000000000⟩ else ofInt i

/-- The greatest integral number that is not above `x`. -/
def floor (x : Number) : Number :=
  toIntegral x Dyadic.floor

/-- The least integral number that is not below `x`. -/
def ceil (x : Number) : Number :=
  toIntegral x fun d => -d.neg.floor

/-- The nearest integral number, a half going away from zero. -/
def round (x : Number) : Number :=
  toIntegral x Dyadic.round

/-- An integer put into the range from `lo` to `hi`. -/
def clampInt (lo hi i : Int) : Int :=
  if i < lo then lo else if hi < i then hi else i

/-- The integral part, clamped to the signed 64-bit integers; a NaN gives zero. -/
def toInt64 (x : Number) : Int :=
  match x.finite? with
  | some d => clampInt (-signBit) (signBit - 1) d.truncate
  | none => if x.isNaN then 0 else if x.isNegative then -signBit else signBit - 1

/-- The integral part, clamped to the unsigned 64-bit integers; a NaN gives zero. -/
def toNat64 (x : Number) : Nat :=
  match x.finite? with
  | some d => (clampInt 0 (UInt64.size - 1) d.truncate).toNat
  | none => if x.isNaN || x.isNegative then 0 else UInt64.size - 1

end Number

end ErrorAnalysis
