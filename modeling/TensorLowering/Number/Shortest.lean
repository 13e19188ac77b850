import TensorLowering.Number.Double

/-! # Shortest decimals

The shortest decimal of a finite double is the one with the fewest digits that reads
back as that double; of two with equally many digits the nearer one is taken, and a tie
is broken by a rule of the format. The decimals that read back lie in an interval around
the double, whose ends are half way to its neighbours and belong to it when the
significand is even. For each number of digits only the two neighbours of the double on
that decimal grid need a test.
-/

namespace TensorLowering

/-- The number `digits * 10 ^ exponent`. -/
structure Decimal where
  digits : Nat
  exponent : Int
  deriving DecidableEq, Repr

/-- Which of two equally near decimals is taken: the greater one, or the one whose last
digit is even. -/
inductive Tie where
  | up
  | even
  deriving DecidableEq, Repr

/-- Whether a digit sequence is kept at a tie with its successor. -/
def Tie.keeps (digits : Nat) : Tie → Bool
  | .up => false
  | .even => digits % 2 = 0

namespace Double

/-- The decimal exponent `e` of a positive magnitude `x`, with `10 ^ (e - 1) ≤ x < 10 ^ e`. -/
def decimalExponent (units : Nat) : Int :=
  if one ≤ units then digitCount (units / one)
  else 1 - (digitCount ((one + units - 1) / units - 1) : Int)

/-- The reals that round to a magnitude, as an interval in quarter units. -/
structure Rounding where
  low : Nat
  high : Nat
  closed : Bool

/-- The interval of reals that round to a positive magnitude. Below a power of two the
doubles are twice as dense, so the interval is shorter on that side. -/
def rounding (units : Nat) : Rounding :=
  let gap := Nat.pow 2 (lastBit units)
  let significand := units / gap
  let below := if significand = Nat.pow 2 (precision - 1) ∧ 1 < gap then gap else 2 * gap
  { low := 4 * units - below
    high := 4 * units + 2 * gap
    closed := significand % 2 = 0 }

/-- Whether a position in quarter units, given as a fraction, rounds to the magnitude. -/
def Rounding.covers (interval : Rounding) (numerator denominator : Nat) : Bool :=
  if interval.closed then
    interval.low * denominator ≤ numerator && numerator ≤ interval.high * denominator
  else
    interval.low * denominator < numerator && numerator < interval.high * denominator

/-- The decimal with a given number of digits that reads back as a positive magnitude. -/
def withDigits? (tie : Tie) (units count : Nat) : Option Decimal :=
  let exponent := decimalExponent units - count
  let scale := if exponent < 0 then 1 else Nat.pow 10 exponent.natAbs
  let fraction := if exponent < 0 then Nat.pow 10 exponent.natAbs else 1
  let floor := units * fraction / (one * scale)
  let position (digits : Nat) := digits * scale * (4 * one)
  let covered (digits : Nat) := (rounding units).covers (position digits) fraction
  let exact := 4 * units * fraction
  match covered floor, covered (floor + 1) with
  | false, false => none
  | true, false => some ⟨floor, exponent⟩
  | false, true => some ⟨floor + 1, exponent⟩
  | true, true =>
      let below := exact - position floor
      let above := position (floor + 1) - exact
      if below < above || (below = above && tie.keeps floor) then some ⟨floor, exponent⟩
      else some ⟨floor + 1, exponent⟩

/-- Drop zeros at the end of the digits; `bound` limits their number. -/
def trimZeros : Nat → Decimal → Decimal
  | 0, decimal => decimal
  | bound + 1, decimal =>
      if decimal.digits % 10 = 0 then
        trimZeros bound ⟨decimal.digits / 10, decimal.exponent + 1⟩
      else decimal

/-- The shortest decimal of a positive magnitude; seventeen digits always suffice. -/
def shortest (tie : Tie) (units : Nat) : Decimal :=
  match (List.range 17).findSome? fun index => withDigits? tie units (index + 1) with
  | some decimal => trimZeros 17 decimal
  | none => ⟨units, 0⟩

end Double

end TensorLowering
