import TensorLowering.Number.Shortest

/-! # Layout of number text

A layout says which decimal exponents are written with a plain decimal point and how
the exponents of the others are spelled. The digits are always the shortest ones.
-/

namespace TensorLowering

/-- How a double is spelled: with a decimal point while the exponent of its leading
digit lies from `lowest` to `highest`, otherwise with an exponent, positive ones with
a sign if `plus` is set; `tie` chooses among equally near digits. -/
structure Layout where
  lowest : Int
  highest : Int
  plus : Bool
  tie : Tie

namespace Layout

/-- A run of zeros. -/
def zeros (count : Nat) : String := String.ofList (List.replicate count '0')

/-- Digits with a decimal point after the first `point` of them; at least one digit
stands on either side. -/
def withPoint (digits : List Char) (point : Int) : String :=
  if point ≤ 0 then "0." ++ zeros point.natAbs ++ String.ofList digits
  else if digits.length ≤ point.natAbs then
    String.ofList digits ++ zeros (point.natAbs - digits.length) ++ ".0"
  else String.ofList (digits.take point.natAbs) ++ "." ++ String.ofList (digits.drop point.natAbs)

/-- Digits with a point after the first one, if there are more, and an exponent. -/
def withExponent (layout : Layout) (digits : List Char) (exponent : Int) : String :=
  let fraction := if digits.length ≤ 1 then "" else "." ++ String.ofList (digits.drop 1)
  let sign := if exponent < 0 then "-" else if layout.plus then "+" else ""
  String.ofList (digits.take 1) ++ fraction ++ "e" ++ sign ++ toString exponent.natAbs

/-- The text of a magnitude in units. -/
def magnitude (layout : Layout) (units : Nat) : String :=
  if units = 0 then "0.0"
  else
    let decimal := Double.shortest layout.tie units
    let digits := Nat.toDigits 10 decimal.digits
    let point := decimal.exponent + digits.length
    if layout.lowest ≤ point - 1 ∧ point - 1 ≤ layout.highest then withPoint digits point
    else layout.withExponent digits (point - 1)

/-- The text of a double. -/
def write (layout : Layout) : Double → String
  | .nan => "NaN"
  | .infinite false => "inf"
  | .infinite true => "-inf"
  | .finite false units => layout.magnitude units
  | .finite true units => "-" ++ layout.magnitude units

end Layout

end TensorLowering
