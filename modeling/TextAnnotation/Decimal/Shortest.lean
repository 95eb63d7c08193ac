import TextAnnotation.Decimal.Binary64

/-!
The shortest decimal that reads back as a binary floating point number: a point of the coarsest decimal
grid that has a point among the reals that round to the number, and of these the nearest.
-/

namespace TextAnnotation.Decimal

/-- The reals that round to a positive number, over a common denominator, with the number itself. The ends
belong to the interval if the significand is even. -/
structure RoundingInterval where
  low : Nat
  value : Nat
  high : Nat
  denominator : Nat
  closed : Bool
deriving Repr

namespace RoundingInterval

/-- The reals that round to `significand * 2 ^ exponent`. Below a power of two they reach only half as
far. -/
def ofFinite (significand : Nat) (exponent : Int) : RoundingInterval :=
  let narrow := significand == Nat.pow 2 52 && Binary64.minExponent < exponent
  let (scale, denominator) := Binary64.inUnits 1 4 (-exponent)
  { low := (4 * significand - if narrow then 1 else 2) * scale
    value := 4 * significand * scale
    high := (4 * significand + 2) * scale
    denominator
    closed := significand % 2 == 0 }

/-- Whether `numerator`, over the denominator of the interval, lies in it. -/
def contains (i : RoundingInterval) (numerator : Nat) : Bool :=
  if i.closed then i.low ≤ numerator && numerator ≤ i.high
  else i.low < numerator && numerator < i.high

/-- The multiple of `10 ^ grid` nearest to the value, if it or the one on the other side lies in the
interval. -/
def gridPoint? (i : RoundingInterval) (grid : Int) : Option Nat :=
  let (scale, step) :=
    if 0 ≤ grid then (1, i.denominator * Nat.pow 10 grid.toNat)
    else (Nat.pow 10 (-grid).toNat, i.denominator)
  let scaled : RoundingInterval :=
    { i with low := i.low * scale, value := i.value * scale, high := i.high * scale }
  let below := scaled.value / step
  let above := below + 1
  match scaled.contains (below * step), scaled.contains (above * step) with
  | true, true =>
    some (if scaled.value - below * step < above * step - scaled.value then below else above)
  | true, false => some below
  | false, true => some above
  | false, false => none

/-- The first grid from `grid` on, each ten times as fine as the one before, that has a point in the
interval, with that point. -/
def coarsest? (i : RoundingInterval) (grid : Int) : Nat → Option (Nat × Int)
  | 0 => none
  | finer + 1 =>
    match i.gridPoint? grid with
    | some point => some (point, grid)
    | none => i.coarsest? (grid - 1) finer

end RoundingInterval

/-- The digits and the power of ten of the shortest decimal that reads back as a positive finite number.
The finest grid needed is that of the least exponent. -/
def shortest (significand : Nat) (exponent : Int) : Nat × Int :=
  ((RoundingInterval.ofFinite significand exponent).coarsest? 309 1400).getD (0, 0)

/-- Digits times a power of ten, written without an exponent. -/
def positional (digits : Nat) (exponent : Int) : String :=
  let text := Nat.toDigits 10 digits
  if 0 ≤ exponent then String.ofList (text ++ List.replicate exponent.toNat '0')
  else
    let places := (-exponent).toNat
    let padded := List.replicate (places + 1 - text.length) '0' ++ text
    let whole := padded.length - places
    String.ofList (padded.take whole ++ '.' :: padded.drop whole)

/-- A number by its shortest decimal, without an exponent. -/
def Binary64.render : Binary64 → String
  | .notANumber => "NaN"
  | .infinite negative => (if negative then "-" else "") ++ "inf"
  | .finite negative significand exponent =>
    (if negative then "-" else "") ++
      if significand = 0 then "0"
      else
        let (digits, power) := shortest significand exponent
        positional digits power

end TextAnnotation.Decimal
