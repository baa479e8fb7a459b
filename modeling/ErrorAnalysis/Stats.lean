import ErrorAnalysis.Value.Compare

/-!
# Statistics

Order statistics, bins and frequency tables. Percentiles and bins are stated over any type with
the arithmetic that they need, so that they can be read over binary64 numbers as well as over
exact ones.

## Main definitions

* `Quantity`: arithmetic, order and rounding.
* `Stats.percentile`: the percentile of an ascending list, interpolated between ranks.
* `Stats.fence`: the range outside of which a number is an outlier.
* `Stats.binOf`: the bin of a number.
* `Stats.edgesFor`: the edges of the bins for numbers.
* `Stats.valueCounts`: the frequency table of values.
-/

namespace ErrorAnalysis

/-- Numbers with what percentiles and bins need of them. -/
class Quantity (α : Type) extends Add α, Sub α, Mul α, Div α where
  ofNat : Nat → α
  lt : α → α → Bool
  le : α → α → Bool
  floor : α → α
  /-- The integral part of a number that is not negative. -/
  floorNat : α → Nat
  /-- The least natural number that is not below. -/
  ceilNat : α → Nat
  /-- The nearest natural number, a half going up. -/
  roundNat : α → Nat
  /-- What stands for a number that does not exist. -/
  undefined : α
  isUndefined : α → Bool
  /-- The order that numbers are sorted by, in which each has a place. -/
  ranksLe : α → α → Bool

instance : Quantity Number where
  ofNat := Number.ofNat
  lt x y := decide (x < y)
  le x y := decide (x ≤ y)
  floor := Number.floor
  floorNat x := x.floor.toNat64
  ceilNat x := x.ceil.toNat64
  roundNat x := x.round.toNat64
  undefined := Number.nan
  isUndefined := Number.isNaN
  ranksLe x y := x.compareTotal y != .gt

namespace Stats

variable {α : Type} [Quantity α]

open Quantity

/-! ### Percentiles -/

/-- A number put into the range from `lo` to `hi`. -/
def clamp (lo hi x : α) : α :=
  if lt x lo then lo else if lt hi x then hi else x

/-- The item at a position. -/
def itemAt (xs : List α) (i : Nat) : α :=
  xs[i]?.getD undefined

/-- The percentile `p` of an ascending list: between the two items around its rank, by the share
of the way that the rank lies beyond the lower one. -/
def percentile (sorted : List α) (p : α) : α :=
  match sorted with
  | [] => undefined
  | [x] => x
  | _ =>
    let rank := clamp (ofNat 0) (ofNat 1) (p / ofNat 100) * ofNat (sorted.length - 1)
    let lo := floorNat rank
    let hi := ceilNat rank
    itemAt sorted lo + (itemAt sorted hi - itemAt sorted lo) * (rank - ofNat lo)

/-- The quartiles of an ascending list, moved outwards by `k` times their distance. -/
def fence (sorted : List α) (k : α) : α × α :=
  let q1 := percentile sorted (ofNat 25)
  let q3 := percentile sorted (ofNat 75)
  let iqr := q3 - q1
  (q1 - k * iqr, q3 + k * iqr)

/-! ### Bins -/

/-- The number of the bin of `x`: how many edges from the first on are not above it. -/
def binOf (x : α) (edges : List α) : Nat :=
  (edges.takeWhile fun edge => le edge x).length

/-- The distance in percent between the edges of `count` bins, at least one. -/
def binStep (α : Type) [Quantity α] (count : Nat) : Nat :=
  max (roundNat (ofNat 100 / ofNat (max count 1) : α)) 1

/-- The multiples of `step` from 0 to 100. -/
def percentSteps (step : Nat) : List Nat :=
  (List.range (100 / step + 1)).map (· * step)

/-- The edges of `count` bins for an ascending list that ends with `greatest`: percentiles in equal
steps, made integral if the numbers go beyond the number of bins. -/
def binEdges (sorted : List α) (greatest : α) (count : Nat) : List α :=
  let edges := (percentSteps (binStep α count)).map fun p => percentile sorted (ofNat p)
  if lt (ofNat count) greatest then edges.map floor else edges

/-- The positions of the edges around the bin of a number: that of the last edge not above it, or
of the first one, and that of the next edge, or of the last one. -/
def binPositions (x : α) (edges : List α) : Nat × Nat :=
  let bin := binOf x edges
  (bin - 1, if edges.length ≤ bin then bin - 1 else bin)

/-- The edges around the bin of a number. -/
def binAround (x : α) (edges : List α) : α × α :=
  let positions := binPositions x edges
  (itemAt edges positions.1, itemAt edges positions.2)

/-! ### Numbers -/

/-- The numbers that exist, in ascending order. -/
def sortedNumbers (xs : List α) : List α :=
  (xs.filter fun x => !isUndefined x).mergeSort ranksLe

/-- The edges of `count` bins for numbers; there are none if none of the numbers exists. -/
def edgesFor (xs : List α) (count : Nat) : List α :=
  let sorted := sortedNumbers xs
  match sorted.getLast? with
  | none => []
  | some greatest => binEdges sorted greatest count

/-- A text without the characters `c` at its end. -/
def dropRight (c : Char) (cs : List Char) : List Char :=
  (cs.reverse.dropWhile (· == c)).reverse

/-- An edge as it is shown: two decimal places, without zeros and point at the end. -/
def edgeText (x : Number) : String :=
  String.ofList (dropRight '.' (dropRight '0' (x.fixed 2)))

/-! ### Frequency tables -/

/-- Runs of values of the same rank, each by its first value and its length. -/
def runs : List Value → List (Value × Nat)
  | [] => []
  | v :: vs =>
    match vs, runs vs with
    | w :: _, (_, n) :: rest => if v.sameRank w then (v, n + 1) :: rest else (v, 1) :: runs vs
    | _, _ => [(v, 1)]

/-- Values in ascending order. -/
def sortValues (vs : List Value) : List Value :=
  vs.mergeSort Value.le

/-- The distinct values with their counts, the most frequent first and values of equal count in
ascending order. -/
def valueCounts (vs : List Value) : List (Value × Nat) :=
  (runs (sortValues vs)).mergeSort fun a b => decide (b.2 ≤ a.2)

end Stats

end ErrorAnalysis
