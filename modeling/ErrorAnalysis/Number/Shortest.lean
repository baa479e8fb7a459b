import ErrorAnalysis.Number.Basic

/-!
# Shortest decimals

The fewest decimal digits that read back as a given binary64 number, and of the decimals with
that many digits the one nearest to it. Everything is decided in exact integer arithmetic: the
decimals on the grid of multiples of `10 ^ e` are compared with the ends of the interval of reals
that round to the number, from coarse grids to fine ones.

## Main definitions

* `Decimal`: a natural number times a power of ten.
* `Number.Tie`: which of two equally near decimals is taken.
* `Number.Dyadic.shortest`: the shortest decimal of a positive number.
-/

namespace ErrorAnalysis

/-- The decimal `coefficient * 10 ^ exponent`. -/
structure Decimal where
  coefficient : Nat
  exponent : Int
deriving DecidableEq, Repr

namespace Number

/-- Which of two decimals at the same distance is taken. -/
inductive Tie where
  /-- The one whose last digit is even. -/
  | toEven
  /-- The greater one. -/
  | up
deriving DecidableEq, Repr

namespace Dyadic

/-! ### The interval of a number

Lengths are counted in quarters of the number's last binary place, so that the midpoints to its
neighbours are whole. -/

/-- The number itself, in quarters. -/
def center (d : Dyadic) : Nat :=
  4 * d.mantissa

/-- The midpoint to the next greater number, in quarters. -/
def upper (d : Dyadic) : Nat :=
  4 * d.mantissa + 2

/-- The midpoint to the next smaller number, in quarters; just above a power of two the
neighbour below is at half the distance. -/
def lower (d : Dyadic) : Nat :=
  if d.mantissa = leadingBit ∧ -1074 < d.exponent then 4 * d.mantissa - 1 else 4 * d.mantissa - 2

/-- `k * 10 ^ e`, on the scale on which `quarters` measures. -/
def gridPoint (d : Dyadic) (e : Int) (k : Nat) : Nat :=
  k * Nat.pow 10 e.toNat * Nat.pow 2 (2 - d.exponent).toNat

/-- `x` quarters, on the scale on which `gridPoint` measures. -/
def quarters (d : Dyadic) (e : Int) (x : Nat) : Nat :=
  x * Nat.pow 10 (-e).toNat * Nat.pow 2 (d.exponent - 2).toNat

/-- Whether `k * 10 ^ e` rounds to the number: the ends of its interval do iff its mantissa is
even. -/
def reads (d : Dyadic) (e : Int) (k : Nat) : Bool :=
  let p := d.gridPoint e k
  if d.mantissa % 2 = 0 then
    decide (d.quarters e d.lower ≤ p ∧ p ≤ d.quarters e d.upper)
  else
    decide (d.quarters e d.lower < p ∧ p < d.quarters e d.upper)

/-- The greatest `k` for which `k * 10 ^ e` is not above the number. -/
def below (d : Dyadic) (e : Int) : Nat :=
  d.quarters e d.center / d.gridPoint e 1

/-- Whether of the two grid points around the number the greater one is taken when both read
back. -/
def prefersAbove (tie : Tie) (d : Dyadic) (e : Int) : Bool :=
  let k := d.below e
  let twice := 2 * d.quarters e d.center
  let sum := d.gridPoint e k + d.gridPoint e (k + 1)
  match compare twice sum with
  | .lt => false
  | .gt => true
  | .eq =>
    match tie with
    | .up => true
    | .toEven => decide (k % 2 = 1)

/-- The decimal on the grid of `10 ^ e` that is taken for the number, if one reads back. -/
def onGrid (tie : Tie) (d : Dyadic) (e : Int) : Option Decimal :=
  let k := d.below e
  match d.reads e k, d.reads e (k + 1) with
  | true, true => some ⟨if d.prefersAbove tie e then k + 1 else k, e⟩
  | true, false => some ⟨k, e⟩
  | false, true => some ⟨k + 1, e⟩
  | false, false => none

/-- A power of ten above the number has at least this exponent. -/
def gridBound (d : Dyadic) : Int :=
  ((Nat.log2 d.mantissa : Int) + 1 + d.exponent) * 30103 / 100000 + 1

/-- The first hit on `n` grids from `10 ^ e` to finer ones. -/
def searchGrids (tie : Tie) (d : Dyadic) : Nat → Int → Decimal
  | 0, e => ⟨d.below e, e⟩
  | n + 1, e => (d.onGrid tie e).getD (searchGrids tie d n (e - 1))

/-- The shortest decimal that reads back as the positive number `d`. Seventeen digits always
suffice, so twenty grids from `gridBound` are enough. -/
def shortest (tie : Tie) (d : Dyadic) : Decimal :=
  searchGrids tie d 20 d.gridBound

end Dyadic

end Number

end ErrorAnalysis
