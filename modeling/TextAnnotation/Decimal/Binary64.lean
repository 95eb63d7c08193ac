/-!
Binary floating point of 64 bits, as exact numbers: a finite one is a natural number times a power of two.
-/

namespace TextAnnotation.Decimal

/-- A binary floating point number of 64 bits. A finite one is `significand * 2 ^ exponent`, with a
significand below `2 ^ 53` and an exponent of at least -1074; below `2 ^ 52` the exponent is least. -/
inductive Binary64 where
  | finite (negative : Bool) (significand : Nat) (exponent : Int)
  | infinite (negative : Bool)
  | notANumber
deriving DecidableEq, Repr

namespace Binary64

/-- The least exponent of a finite number. -/
def minExponent : Int := -1074

/-- The greatest exponent of a finite number. -/
def maxExponent : Int := 971

/-- A quotient rounded to the nearest natural number, a half to the even one. -/
def roundedQuotient (numerator denominator : Nat) : Nat :=
  let quotient := numerator / denominator
  let remainder := numerator % denominator
  if denominator < 2 * remainder || (2 * remainder == denominator && quotient % 2 == 1) then quotient + 1
  else quotient

/-- The fraction `numerator / denominator` over the unit `2 ^ exponent`. -/
def inUnits (numerator denominator : Nat) (exponent : Int) : Nat × Nat :=
  if 0 ≤ exponent then (numerator, denominator * Nat.pow 2 exponent.toNat)
  else (numerator * Nat.pow 2 (-exponent).toNat, denominator)

/-- The exponent at which a positive fraction has a significand of 53 bits, or the least one. -/
def exponentOf (numerator denominator : Nat) : Int :=
  let estimate := max minExponent (Int.ofNat numerator.log2 - Int.ofNat denominator.log2 - 53)
  let (n, d) := inUnits numerator denominator estimate
  if n / d < Nat.pow 2 53 then estimate else estimate + 1

/-- The number nearest to a positive fraction, a half to the even significand; infinite if it is out of
range. -/
def ofFraction (negative : Bool) (numerator denominator : Nat) : Binary64 :=
  let exponent := exponentOf numerator denominator
  let (n, d) := inUnits numerator denominator exponent
  let significand := roundedQuotient n d
  let (significand, exponent) :=
    if significand < Nat.pow 2 53 then (significand, exponent) else (Nat.pow 2 52, exponent + 1)
  if exponent ≤ maxExponent then .finite negative significand exponent else .infinite negative

/-- No number that is `10` to this power or more is finite. -/
def decimalCeiling : Int := 310

/-- Every number below `10` to this power is nearest to zero. -/
def decimalFloor : Int := -330

/-- The number nearest to the decimal whose digits spell `digits`, times ten to a power. -/
def ofDecimal (negative : Bool) (digits : Nat) (exponent : Int) : Binary64 :=
  let magnitude := (Nat.toDigits 10 digits).length + exponent
  if digits = 0 || magnitude < decimalFloor then .finite negative 0 minExponent
  else if decimalCeiling < magnitude then .infinite negative
  else if 0 ≤ exponent then ofFraction negative (digits * Nat.pow 10 exponent.toNat) 1
  else ofFraction negative digits (Nat.pow 10 (-exponent).toNat)

end Binary64

end TextAnnotation.Decimal
