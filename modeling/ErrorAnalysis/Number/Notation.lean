import ErrorAnalysis.Number.Shortest

/-!
# Numbers as text

How numbers are written and read. There are two ways of writing the shortest decimal of a
number: `Style.plain`, which is positional whatever the size, and `Style.json`, which keeps a
fractional part and turns to an exponent for very large and very small numbers. `Number.fixed`
rounds to a given number of places.

## Main definitions

* `Number.render`: the text of a finite number in a given style.
* `Number.text`: the text of any number as the query language prints it.
* `Number.fixed`: a number with a fixed number of places.
* `Number.ofText?`: the number that a text denotes.
-/

namespace ErrorAnalysis

/-! ### Digits -/

/-- The decimal digits of a natural number. -/
def digitsOf (n : Nat) : List Char :=
  Nat.toDigits 10 n

/-- The natural number that a list of decimal digits denotes. -/
def digitsValue (ds : List Char) : Nat :=
  ds.foldl (fun n c => 10 * n + (c.toNat - '0'.toNat)) 0

namespace Decimal

/-- Positional notation, without a point if the decimal is integral by its exponent. -/
def positional (d : Decimal) : List Char :=
  let digits := digitsOf d.coefficient
  if 0 ≤ d.exponent then
    digits ++ List.replicate d.exponent.toNat '0'
  else
    let places := (-d.exponent).toNat
    if places < digits.length then
      digits.take (digits.length - places) ++ '.' :: digits.drop (digits.length - places)
    else
      '0' :: '.' :: (List.replicate (places - digits.length) '0' ++ digits)

/-- The exponent of the leading digit. -/
def leadingExponent (d : Decimal) : Int :=
  (digitsOf d.coefficient).length + d.exponent - 1

/-- One digit before the point and a signed exponent. -/
def scientific (d : Decimal) : List Char :=
  let mantissa := match digitsOf d.coefficient with
    | [] => []
    | [c] => [c]
    | c :: cs => c :: '.' :: cs
  let e := d.leadingExponent
  mantissa ++ 'e' :: (if e < 0 then '-' else '+') :: digitsOf e.natAbs

end Decimal

namespace Number

/-! ### Writing -/

/-- A way of writing the shortest decimal of a number. -/
structure Style where
  /-- Which of two equally near shortest decimals is written. -/
  tie : Tie
  /-- The exponents of the leading digit that are written positionally. -/
  isPositional : Int → Bool
  /-- Whether an integral number in positional notation ends in `.0`. -/
  keepsPoint : Bool

namespace Style

/-- Always positional, and integral numbers have no point. -/
def plain : Style := ⟨.up, fun _ => true, false⟩

/-- Positional from `0.00001` up to sixteen digits before the point, with a point always. -/
def json : Style := ⟨.toEven, fun e => decide (-5 ≤ e ∧ e ≤ 15), true⟩

end Style

/-- The text of the magnitude of a finite number. -/
def renderMagnitude (style : Style) (d : Dyadic) : List Char :=
  let point := if style.keepsPoint then ['.', '0'] else []
  if d.mantissa = 0 then
    '0' :: point
  else
    let decimal := d.shortest style.tie
    if style.isPositional decimal.leadingExponent then
      decimal.positional ++ (if 0 ≤ decimal.exponent then point else [])
    else
      decimal.scientific

/-- The text of a finite number in a given style; `none` for infinities and NaNs. -/
def render (style : Style) (x : Number) : Option (List Char) :=
  x.finite?.map fun d =>
    (if d.negative then ['-'] else []) ++ renderMagnitude style d

/-- The text of a number that is not finite. A NaN is written without a sign. -/
def nonFiniteText (x : Number) : List Char :=
  if x.isNaN then ['N', 'a', 'N']
  else if x.isNegative then ['-', 'i', 'n', 'f']
  else ['i', 'n', 'f']

/-- The text of a number as the query language prints it. -/
def text (x : Number) : String :=
  String.ofList ((x.render .plain).getD x.nonFiniteText)

/-- `numerator / denominator` rounded to the nearest integer, a tie going to the even one. -/
def divideToEven (numerator denominator : Nat) : Nat :=
  let q := numerator / denominator
  let r := numerator % denominator
  match compare (2 * r) denominator with
  | .lt => q
  | .gt => q + 1
  | .eq => if q % 2 = 0 then q else q + 1

/-- The text of a number rounded to `places` decimal places, ties going to the even
neighbour. -/
def fixed (places : Nat) (x : Number) : List Char :=
  match x.finite? with
  | none => x.nonFiniteText
  | some d =>
    let scaled :=
      divideToEven (d.mantissa * Nat.pow 10 places * Nat.pow 2 d.exponent.toNat)
        (Nat.pow 2 (-d.exponent).toNat)
    let digits := digitsOf scaled
    let padded := List.replicate (places + 1 - digits.length) '0' ++ digits
    let whole := padded.length - places
    (if d.negative then ['-'] else []) ++ padded.take whole ++ '.' :: padded.drop whole

/-! ### Reading -/

/-- The magnitude of the number nearest to a fraction of the least positive number, a tie going to
the even mantissa. Numbers are as far apart as the least one up to `2 ^ 53` of them, and twice as
far with every further doubling. Magnitudes ascend without a gap, so a mantissa that is rounded up
to the next power of two leads to the next binade by itself. -/
def nearestMagnitude (numerator denominator : Nat) : Nat :=
  let shift := Nat.log2 (numerator / denominator) - 52
  shift * leadingBit + divideToEven numerator (denominator * Nat.pow 2 shift)

/-- The number nearest to `coefficient * 10 ^ exponent`, where decimals beyond the finite numbers
are nearest to infinity. -/
def nearest (d : Decimal) : Number :=
  let m := nearestMagnitude
    (d.coefficient * Nat.pow 10 d.exponent.toNat * Nat.pow 2 1074) (Nat.pow 10 (-d.exponent).toNat)
  ⟨UInt64.ofNat (min infinityMagnitude m)⟩

/-- The number nearest to `coefficient * 10 ^ exponent`. Decimals far outside the range of
binary64 are recognised by the place of their leading digit. -/
def ofDecimal (d : Decimal) : Number :=
  if d.coefficient = 0 then ⟨0⟩
  else if 310 < d.leadingExponent then infinity
  else if d.leadingExponent < -330 then ⟨0⟩
  else nearest d

/-- A run of digits at the start of a text, and what follows it. -/
def splitDigits (cs : List Char) : List Char × List Char :=
  (cs.takeWhile Char.isDigit, cs.dropWhile Char.isDigit)

/-- A sign at the start of a text, as whether it is a minus, and what follows it. -/
def splitSign : List Char → Bool × List Char
  | '-' :: cs => (true, cs)
  | '+' :: cs => (false, cs)
  | cs => (false, cs)

/-- An integer from its sign and its digits. -/
def signedValue (negative : Bool) (digits : List Char) : Int :=
  if negative then -(digitsValue digits : Int) else digitsValue digits

/-- An exponent part `e` or `E`, a sign if any and digits, which must take up the whole text;
`some 0` for the empty text. -/
def exponentPart? : List Char → Option Int
  | [] => some 0
  | c :: cs =>
    if c = 'e' ∨ c = 'E' then
      let (negative, digits) := splitSign cs
      if digits.isEmpty || !digits.all Char.isDigit then none
      else some (signedValue negative digits)
    else
      none

/-- An unsigned decimal: digits with at most one point, at least one digit, and an exponent if
any. -/
def decimal? (cs : List Char) : Option Decimal := do
  let (whole, rest) := splitDigits cs
  let (fraction, rest) := match rest with
    | '.' :: rest => splitDigits rest
    | _ => ([], rest)
  if whole.isEmpty && fraction.isEmpty then none
  let e ← exponentPart? rest
  pure ⟨digitsValue (whole ++ fraction), e - fraction.length⟩

/-- An unsigned number: a decimal, or an infinity or a NaN by name in any case. -/
def unsigned? (cs : List Char) : Option Number :=
  let name := String.ofList (cs.map Char.toLower)
  if name = "inf" ∨ name = "infinity" then some infinity
  else if name = "nan" then some nan
  else (decimal? cs).map ofDecimal

/-- The number that a text denotes: an optional sign, then what `read` takes. -/
def signed? (read : List Char → Option Number) (s : String) : Option Number :=
  let (negative, cs) := splitSign s.toList
  (read cs).map fun x => if negative then -x else x

/-- The number that a text denotes: a decimal or the name of a number that is not finite, after a
sign if any, and nothing else. -/
def ofText? (s : String) : Option Number :=
  signed? unsigned? s

/-- The number that a decimal denotes: no names of numbers are taken. -/
def ofNumeral? (s : String) : Option Number :=
  signed? (fun cs => (decimal? cs).map ofDecimal) s

end Number

end ErrorAnalysis
