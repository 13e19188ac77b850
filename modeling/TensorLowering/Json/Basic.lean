import TensorLowering.Number.Double

/-! # Document trees

A document is a JSON tree. Whole numbers within 64 bits stay whole, all other numbers
are doubles, and objects keep their entries in the order of the text, repeated keys
included. -/

namespace TensorLowering

/-- A JSON tree. `unusable` stands for a well-formed literal without a value, such as
a number beyond all doubles or text with an unpaired surrogate; a document may hold one
only where nothing reads it. -/
inductive Json where
  | null
  | bool (value : Bool)
  | int (value : Int)
  | float (value : Double)
  | str (value : String)
  | arr (items : List Json)
  | obj (entries : List (String × Json))
  | unusable
  deriving Inhabited

end TensorLowering
