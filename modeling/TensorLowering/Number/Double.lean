/-! # Double-precision numbers

A finite double is a whole number of *units* of `2 ^ -1074`, the smallest positive
double. Magnitudes in units are natural numbers, so comparing and rounding them is
exact arithmetic. Rounding goes to the nearest double, half way to the one with the
even significand.
-/

namespace TensorLowering

/-- A double-precision number; the magnitude of a finite one is counted in units of
`2 ^ -1074`. -/
inductive Double where
  | nan
  | infinite (negative : Bool)
  | finite (negative : Bool) (units : Nat)
  deriving DecidableEq, Repr, Inhabited

namespace Double

/-- The number of bits of a significand. -/
def precision : Nat := 53

/-- The number one, in units. -/
def one : Nat := Nat.pow 2 1074

/-- The least magnitude, in units, beyond every finite double. -/
def overflow : Nat := Nat.pow 2 2098

/-- The binary exponent, in units, of the last significand bit of a magnitude. -/
def lastBit (units : Nat) : Nat := units.log2 + 1 - precision

/-- The nearest whole number to a fraction, half way to the even one. -/
def roundDiv (numerator denominator : Nat) : Nat :=
  let floor := numerator / denominator
  let rest := 2 * (numerator % denominator)
  if rest < denominator then floor
  else if denominator < rest then floor + 1
  else floor + floor % 2

/-- The double nearest to a fraction of units. -/
def ofUnits (negative : Bool) (numerator denominator : Nat) : Double :=
  let step := Nat.pow 2 (lastBit (numerator / denominator))
  let units := roundDiv numerator (denominator * step) * step
  if units < overflow then .finite negative units else .infinite negative

/-- The double nearest to an integer. -/
def ofInt (value : Int) : Double := ofUnits (value < 0) (value.natAbs * one) 1

/-- The number of decimal digits of a positive number. -/
def digitCount (value : Nat) : Nat := (Nat.toDigits 10 value).length

/-- The double nearest to `digits * 10 ^ exponent`. Magnitudes that are far outside
the range of doubles are decided by their size alone. -/
def ofDecimal (negative : Bool) (digits : Nat) (exponent : Int) : Double :=
  if digits = 0 then .finite negative 0
  else if exponent + digitCount digits > 400 then .infinite negative
  else if exponent + digitCount digits < -400 then .finite negative 0
  else if exponent < 0 then ofUnits negative (digits * one) (Nat.pow 10 exponent.natAbs)
  else ofUnits negative (digits * Nat.pow 10 exponent.natAbs * one) 1

/-- Whether a number is neither infinite nor undefined. -/
def isFinite : Double → Bool
  | .finite _ _ => true
  | _ => false

/-- The integer that a number equals. -/
def toInt? : Double → Option Int
  | .finite negative units =>
      if units % one = 0 then
        some (if negative then -(units / one : Nat) else (units / one : Nat))
      else none
  | _ => none

/-- Whether a number is finite and of magnitude at most a number of units. -/
def within (limit : Nat) : Double → Bool
  | .finite _ units => units ≤ limit
  | _ => false

end Double

end TensorLowering
