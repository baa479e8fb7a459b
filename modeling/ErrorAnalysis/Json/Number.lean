import ErrorAnalysis.Json.Basic
import ErrorAnalysis.Number.Notation

/-!
# JSON numbers

A JSON number without fraction and exponent is an integer if it fits into 64 bits; `-0` does not
count as one. Every other number is read as its leading digits, as many as fit into 64 bits, times
a power of ten: one rounding for the digits and one for each multiplication or division.

## Main definitions

* `Json.readNumber?`: a number at the start of a text, and what follows it.
* `Json.scale?`: a number times a power of ten.
-/

namespace ErrorAnalysis

namespace Json

/-! ### Binary64 from digits and an exponent -/

/-- `10 ^ n` as a number. -/
def powerOfTen (n : Nat) : Number :=
  Number.ofFloat (Float.ofScientific 1 false n)

/-- `x * 10 ^ e` for a number that is not negative. Exponents beyond 308 are taken in steps;
`none` if the result is too great for binary64. -/
def scale? (x : Number) (e : Int) : Option Number :=
  if 308 < e then
    if x == 0 then some x else none
  else if 0 ≤ e then
    let y := x * powerOfTen e.toNat
    if y.isFinite then some y else none
  else if -308 ≤ e then
    some (x / powerOfTen (-e).toNat)
  else if x == 0 then
    some x
  else
    scale? (x / powerOfTen 308) (e + 308)
termination_by (-e).toNat

/-- The greatest natural number of 64 bits. -/
def maxNat64 : Nat :=
  UInt64.size - 1

/-- A digit appended to a number, if the result fits into 64 bits. It is irreducible so that nothing
is computed with digits where `takeDigits` is unfolded. -/
@[irreducible]
def pushDigit? (n : Nat) (c : Char) : Option Nat :=
  let next := 10 * n + (c.toNat - '0'.toNat)
  if next ≤ maxNat64 then some next else none

/-- Takes digits while they fit into 64 bits; the digits left over are counted. -/
def takeDigits : Nat → List Char → Nat × Nat
  | n, [] => (n, 0)
  | n, c :: cs =>
    match pushDigit? n c with
    | some next => takeDigits next cs
    | none => (n, cs.length + 1)

/-- The significand and the power of ten of a number by its digits before and after the point. -/
def significand (whole fraction : List Char) : Nat × Int :=
  let (n, dropped) := takeDigits 0 whole
  let (n', unread) := takeDigits n fraction
  (n', (dropped : Int) - ((fraction.length - unread : Nat) : Int))

/-! ### Reading -/

/-- The parts of a number as it is written. -/
structure Literal where
  negative : Bool
  whole : List Char
  fraction : Option (List Char)
  exponent : Option Int

/-- The digits after a point, if there is one; `none` if a point has none. -/
def readFraction? : List Char → Option (Option (List Char) × List Char)
  | '.' :: rest =>
    match Number.splitDigits rest with
    | ([], _) => none
    | (digits, rest) => some (some digits, rest)
  | rest => some (none, rest)

/-- The exponent, if there is one; `none` if it has no digits. -/
def readExponent? : List Char → Option (Option Int × List Char)
  | [] => some (none, [])
  | c :: rest =>
    if c = 'e' ∨ c = 'E' then
      let (negative, rest) := Number.splitSign rest
      match Number.splitDigits rest with
      | ([], _) => none
      | (digits, rest) => some (some (Number.signedValue negative digits), rest)
    else
      some (none, c :: rest)

/-- The number that a literal denotes. -/
def Literal.value (l : Literal) : Json :=
  let (n, e) := significand l.whole (l.fraction.getD [])
  let i : Int := if l.negative then -(n : Int) else n
  if l.fraction.isNone && l.exponent.isNone && e == 0 && decide (Fits i)
      && !(l.negative && n == 0) then
    .int i
  else
    match scale? (Number.ofNat n) (e + l.exponent.getD 0) with
    | none => .unreadable
    | some x => .float (if l.negative then -x else x)

/-- A number at the start of a text and what follows it. A leading zero stands alone. -/
def readNumber? (cs : List Char) : Option (Json × List Char) := do
  let (negative, cs) := match cs with
    | '-' :: cs => (true, cs)
    | cs => (false, cs)
  let (whole, rest) := Number.splitDigits cs
  match whole with
  | [] => none
  | '0' :: _ :: _ => none
  | _ =>
    let (fraction, rest) ← readFraction? rest
    let (exponent, rest) ← readExponent? rest
    pure (Literal.value ⟨negative, whole, fraction, exponent⟩, rest)

/-! ### Writing -/

/-- A binary64 number as JSON: those that are not finite have no JSON form and are null. -/
def ofNumber (x : Number) : Json :=
  if x.isFinite then .float x else .null

end Json

end ErrorAnalysis
