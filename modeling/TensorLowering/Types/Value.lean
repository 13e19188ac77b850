import TensorLowering.Dict
import TensorLowering.Number.Layout
import TensorLowering.Types.Kind

/-! # Values

A value is known while code is generated: a number, an array, a pointer to a buffer by
name, or a struct. The fields of a struct are listed in the order of their names.
-/

namespace TensorLowering

/-- A value. A pointer without a name is the null pointer. -/
inductive Value where
  | int (value : Int)
  | float (value : Double)
  | array (items : List Value)
  | pointer (name : Option String)
  | struct (fields : List (String × Value))
  deriving Inhabited

namespace Value

/-- Numbers have a decimal point from `0.0001` up to `10 ^ 16`; positive exponents have
no sign, and a tie goes up. -/
def numbers : Layout := ⟨-4, 15, false, .up⟩

/-- A struct with the given fields; a later field replaces an earlier one. -/
def ofFields (fields : List (String × Value)) : Value := .struct (Dict.ofList fields).entries

mutual

/-- The names that a value points to, in order. -/
def pointerTargets : Value → List String
  | .pointer (some name) => [name]
  | .array items => pointerTargetsItems items
  | .struct fields => pointerTargetsFields fields
  | _ => []

/-- The names that the items of an array point to. -/
def pointerTargetsItems : List Value → List String
  | [] => []
  | item :: items => pointerTargets item ++ pointerTargetsItems items

/-- The names that the fields of a struct point to. -/
def pointerTargetsFields : List (String × Value) → List String
  | [] => []
  | (_, value) :: fields => pointerTargets value ++ pointerTargetsFields fields

end

mutual

/-- The text of a value. -/
def text : Value → String
  | .int value => toString value
  | .float value => numbers.write value
  | .array items => "\x7b" ++ ", ".intercalate (textItems items) ++ "\x7d"
  | .pointer (some name) => name
  | .pointer none => "NULL"
  | .struct fields => "\x7b" ++ ",".intercalate (textFields fields) ++ " \x7d"

/-- The texts of the items of an array. -/
def textItems : List Value → List String
  | [] => []
  | item :: items => text item :: textItems items

/-- The texts of the fields of a struct. -/
def textFields : List (String × Value) → List String
  | [] => []
  | (name, value) :: fields => (" ." ++ name ++ " = " ++ text value) :: textFields fields

end

mutual

/-- Whether two values have the same structure. -/
def same : Value → Value → Bool
  | .int first, .int second => first = second
  | .float first, .float second => first = second
  | .array first, .array second => sameItems first second
  | .pointer first, .pointer second => first = second
  | .struct first, .struct second => sameFields first second
  | _, _ => false

/-- Whether two arrays have the same items. -/
def sameItems : List Value → List Value → Bool
  | [], [] => true
  | first :: firsts, second :: seconds => same first second && sameItems firsts seconds
  | _, _ => false

/-- Whether two structs have the same fields. -/
def sameFields : List (String × Value) → List (String × Value) → Bool
  | [], [] => true
  | (name, first) :: firsts, (other, second) :: seconds =>
      decide (name = other) && same first second && sameFields firsts seconds
  | _, _ => false

end

mutual

/-- Values have the same structure exactly when they are equal. -/
theorem same_iff : ∀ first second : Value, same first second = true ↔ first = second
  | .int _, second => by cases second <;> simp [same]
  | .float _, second => by cases second <;> simp [same]
  | .array items, second => by cases second <;> simp [same, sameItems_iff items]
  | .pointer _, second => by cases second <;> simp [same]
  | .struct fields, second => by cases second <;> simp [same, sameFields_iff fields]

/-- Arrays have the same items exactly when they are equal. -/
theorem sameItems_iff : ∀ first second : List Value, sameItems first second = true ↔ first = second
  | [], second => by cases second <;> simp [sameItems]
  | item :: items, second => by
      cases second <;> simp [sameItems, same_iff item, sameItems_iff items]

/-- Structs have the same fields exactly when they are equal. -/
theorem sameFields_iff :
    ∀ first second : List (String × Value), sameFields first second = true ↔ first = second
  | [], second => by cases second <;> simp [sameFields]
  | (name, value) :: fields, second => by
      cases second with
      | nil => simp [sameFields]
      | cons entry entries =>
          obtain ⟨other, content⟩ := entry
          simp [sameFields, same_iff value, sameFields_iff fields, and_assoc]

end

instance : DecidableEq Value := fun first second =>
  decidable_of_iff _ (same_iff first second)

end Value

/-- A value together with its type. -/
structure TypedValue where
  type : TypeId
  value : Value
  deriving DecidableEq, Inhabited

end TensorLowering
