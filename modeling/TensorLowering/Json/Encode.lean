import TensorLowering.Dict
import TensorLowering.Json.Basic

/-! # Encoding documents

The trees of numbers, options, lists, dictionaries and tagged cases.
-/

namespace TensorLowering

namespace Json

variable {α : Type}

/-- A natural number. -/
def ofNat (value : Nat) : Json := .int value

/-- A value, or null for none. -/
def ofOption (encode : α → Json) : Option α → Json
  | some value => encode value
  | none => .null

/-- An array. -/
def ofList (encode : α → Json) (items : List α) : Json := .arr (items.map encode)

/-- An array of strings. -/
def ofStrings (items : List String) : Json := ofList .str items

/-- A dictionary as an object. -/
def ofDict (encode : α → Json) (dict : Dict α) : Json :=
  .obj (dict.entries.map fun (key, value) => (key, encode value))

/-- A case with its content. -/
def tagged (tag : String) (content : Json) : Json := .obj [(tag, content)]

end Json

end TensorLowering
