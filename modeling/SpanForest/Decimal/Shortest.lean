import SpanForest.Decimal.Binary64

/-! # The shortest decimal text of a binary number

    A binary number is written with the fewest digits that read back as the
    same number; among those, with the nearest to it, and of two equally near
    with the larger.

    A decimal reads back as a number when it lies between the two midpoints
    that separate the number from its neighbours; the midpoints themselves
    read back when the significand is even.

    * **`shortestDigits`**: the digits and the place of the last one.
    * **`Binary64.text`**: the number without an exponent, whole numbers
      without a point.
-/

namespace SpanForest.Decimal

/-- A positive number with the interval of all that reads back as it; the
    three numbers are counted in quarters of `2 ^ exponent`. -/
structure Neighbourhood where
  /-- The midpoint below. -/
  low : Nat
  /-- The number itself. -/
  value : Nat
  /-- The midpoint above. -/
  high : Nat
  /-- Whether the midpoints read back as the number. -/
  closed : Bool
  /-- The power of two. -/
  exponent : Int

/-- The interval around `significand · 2 ^ exponent`. Below a power of two the
    numbers lie twice as dense, so the midpoint is twice as near. -/
def Neighbourhood.of (significand : Nat) (exponent : Int) : Neighbourhood :=
  let nearBelow :=
    significand = Nat.pow 2 (Binary64.precision - 1) ∧ Binary64.leastExponent < exponent
  { low := 4 * significand - (if nearBelow then 1 else 2)
    value := 4 * significand
    high := 4 * significand + 2
    closed := significand % 2 == 0
    exponent }

/-- Numbers of quarters of `2 ^ exponent`, and multiples of `10 ^ place`, as
    multiples of one common unit: the factors of the two. -/
def commonFactors (exponent place : Int) : Nat × Nat :=
  (Nat.pow 2 exponent.toNat * Nat.pow 10 (-place).toNat,
    4 * Nat.pow 2 (-exponent).toNat * Nat.pow 10 place.toNat)

/-- The multiple of `10 ^ place` that is nearest to the number among its two
    neighbours on that grid, provided that it reads back as the number. -/
def Neighbourhood.onGrid? (n : Neighbourhood) (place : Int) : Option Nat :=
  let (binary, decimal) := commonFactors n.exponent place
  let value := n.value * binary
  let readsBack (digits : Nat) : Bool :=
    let point := digits * decimal
    if n.closed then n.low * binary ≤ point && point ≤ n.high * binary
    else n.low * binary < point && point < n.high * binary
  let below := value / decimal
  let above := below + 1
  let aboveIsNearer := above * decimal - value ≤ value - below * decimal
  match readsBack below, readsBack above with
  | true, true => some (if aboveIsNearer then above else below)
  | true, false => some below
  | false, true => some above
  | false, false => none

/-- The place of the leading decimal digit of a positive number, found on a
    grid that is finer than every number. -/
def Neighbourhood.leadingPlace (n : Neighbourhood) : Int :=
  let (binary, decimal) := commonFactors n.exponent (-400)
  ((Nat.toDigits 10 (n.value * binary / decimal)).length : Int) - 401

/-- Seventeen digits tell all numbers apart. -/
def mostDigits : Nat := 17

/-- The fewest digits that read back as a positive number, as a whole number,
    and the place of the last of them. -/
def shortestDigits (n : Neighbourhood) : Nat × Int :=
  let places := (List.range mostDigits).map fun (count : Nat) => n.leadingPlace - count
  (places.findSome? fun place => (n.onGrid? place).map (·, place)).getD (0, 0)

/-- Digits up to a place, written without an exponent, and without a zero at
    the end of a fraction. -/
def positional (digits : Nat) (place : Int) : String :=
  let written := Nat.toDigits 10 digits
  if 0 ≤ place then String.ofList (written ++ List.replicate place.toNat '0')
  else
    let fractional := (-place).toNat
    let padded := List.replicate (fractional + 1 - written.length) '0' ++ written
    let whole := padded.take (padded.length - fractional)
    let fraction := padded.drop (padded.length - fractional)
    match (fraction.reverse.dropWhile (· == '0')).reverse with
    | [] => String.ofList whole
    | fraction => String.ofList (whole ++ '.' :: fraction)

end SpanForest.Decimal

namespace SpanForest.Binary64

open SpanForest.Decimal

/-- The shortest text of a number, without an exponent. Zero keeps its sign. -/
def text : Binary64 → String
  | .nan => "NaN"
  | .infinite negative => (if negative then "-" else "") ++ "inf"
  | .finite negative significand exponent =>
    let sign := if negative then "-" else ""
    if significand = 0 then sign ++ "0"
    else
      let (digits, place) := shortestDigits (.of significand exponent)
      sign ++ positional digits place

end SpanForest.Binary64
