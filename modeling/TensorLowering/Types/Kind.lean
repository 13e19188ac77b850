import TensorLowering.Number.Double

/-! # Type descriptors

A descriptor says what a type is; types refer to each other by their index in a
registry. Integers have from 1 to 64 bits. Floating-point types have a mantissa of at
most 52 bits and an exponent of 1 to 11 bits, so that their largest number is a double.
-/

namespace TensorLowering

/-- The index of a type in its registry. -/
structure TypeId where
  index : Nat
  deriving DecidableEq, Repr, Inhabited

/-- What a type is. A future is a handle to the result of an operation in flight. -/
inductive TypeKind where
  | void
  | int (width : Nat) (signed : Bool)
  | float (width mantissa exponent : Nat)
  | pointer (pointee : TypeId)
  | future (pointee : TypeId)
  | struct (name : String) (fields : List (String × TypeId))
  deriving DecidableEq, Repr, Inhabited

/-- Why a type is malformed. -/
inductive TypeFault where
  | integerWidth (width : Nat) (signed : Bool)
  | floatWidth (mantissa exponent : Nat)
  | exponentWidth (width mantissa exponent : Nat)
  | mantissaWidth (width mantissa exponent : Nat)
  | structWidth (name : String)
  | endless
  deriving DecidableEq, Repr

namespace TypeFault

/-- The description of an integer descriptor. -/
def describeInt (width : Nat) (signed : Bool) : String :=
  "Int \x7b width: " ++ toString width ++ ", signed: " ++ toString signed ++ " \x7d"

/-- The description of a floating-point descriptor. -/
def describeFloat (width mantissa exponent : Nat) : String :=
  "Float \x7b width: " ++ toString width ++ ", mantissa: " ++ toString mantissa ++
    ", exponent: " ++ toString exponent ++ " \x7d"

/-- The malformed type. -/
def subject : TypeFault → String
  | .integerWidth width signed => describeInt width signed
  | .floatWidth mantissa exponent => describeFloat 0 mantissa exponent
  | .exponentWidth width mantissa exponent => describeFloat width mantissa exponent
  | .mantissaWidth width mantissa exponent => describeFloat width mantissa exponent
  | .structWidth name => name
  | .endless => "type"

/-- What is wrong with it. -/
def reason : TypeFault → String
  | .integerWidth width _ => "integer width " ++ toString width ++ " outside 1..=64"
  | .floatWidth _ _ => "float width 0"
  | .exponentWidth _ _ exponent => "exponent width " ++ toString exponent ++ " outside 1..=11"
  | .mantissaWidth _ mantissa _ => "mantissa width " ++ toString mantissa ++ " exceeds 52"
  | .structWidth _ => "struct width overflows"
  | .endless => "it contains itself"

end TypeFault

namespace TypeKind

/-- What is wrong with a descriptor taken by itself. -/
def fault? : TypeKind → Option TypeFault
  | .int width signed => if 1 ≤ width ∧ width ≤ 64 then none else some (.integerWidth width signed)
  | .float width mantissa exponent =>
      if width = 0 then some (.floatWidth mantissa exponent)
      else if ¬(1 ≤ exponent ∧ exponent ≤ 11) then some (.exponentWidth width mantissa exponent)
      else if 52 < mantissa then some (.mantissaWidth width mantissa exponent)
      else none
  | _ => none

/-- The least and the greatest value of an integer type. -/
def intBounds? : TypeKind → Option (Int × Int)
  | .int width signed =>
      if 1 ≤ width ∧ width ≤ 64 then
        if signed then some (-Int.pow 2 (width - 1), Int.pow 2 (width - 1) - 1)
        else some (0, Int.pow 2 width - 1)
      else none
  | _ => none

/-- The largest magnitude of a floating-point type in units of the smallest double: a
significand of ones above the greatest exponent. -/
def floatLimit? : TypeKind → Option Nat
  | .float _ mantissa exponent =>
      if (1 ≤ exponent ∧ exponent ≤ 11) ∧ mantissa ≤ 52 then
        let greatest := Nat.pow 2 (exponent - 1) - 1 + 1074 - mantissa
        some ((Nat.pow 2 (mantissa + 1) - 1) * Nat.pow 2 greatest)
      else none
  | _ => none

/-- The largest number of a floating-point type. -/
def floatMax? (kind : TypeKind) : Option Double := kind.floatLimit?.map (.finite false)

/-- Whether an integer is a value of an integer type. -/
def admitsInt (kind : TypeKind) (value : Int) : Bool :=
  match kind.intBounds? with
  | some (least, greatest) => least ≤ value && value ≤ greatest
  | none => false

/-- Whether a number is in the range of a floating-point type. -/
def admitsFloat (kind : TypeKind) (value : Double) : Bool :=
  match kind.floatLimit? with
  | some limit => value.within limit
  | none => false

end TypeKind

end TensorLowering
