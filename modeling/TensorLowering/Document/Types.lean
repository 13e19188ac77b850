import TensorLowering.Json.Decode
import TensorLowering.Json.Encode
import TensorLowering.Types.Registry

/-! # Documents of types and values

The trees of type descriptors, registries and values, and their decoders.
-/

namespace TensorLowering

open Json

namespace TypeId

/-- The tree of a type. -/
def toJson (type : TypeId) : Json := .ofNat type.index

/-- A type. -/
def decode : Decoder TypeId := fun depth json => return ⟨← Decoder.nat32 depth json⟩

end TypeId

namespace TypeKind

/-- The tree of a field of a struct type. -/
def fieldToJson (field : String × TypeId) : Json := .arr [.str field.1, field.2.toJson]

/-- The tree of a descriptor. -/
def toJson : TypeKind → Json
  | .void => .str "Void"
  | .int width signed => .tagged "Int" (.obj [("width", .ofNat width), ("signed", .bool signed)])
  | .float width mantissa exponent =>
      .tagged "Float" (.obj
        [("width", .ofNat width), ("mantissa", .ofNat mantissa), ("exponent", .ofNat exponent)])
  | .pointer pointee => .tagged "Pointer" (.obj [("pointee", pointee.toJson)])
  | .future pointee => .tagged "Future" (.obj [("pointee", pointee.toJson)])
  | .struct name fields =>
      .tagged "Struct" (.obj [("name", .str name), ("fields", .ofList fieldToJson fields)])

/-- An integer descriptor. -/
def decodeInt : Decoder TypeKind :=
  Decoder.record ["width", "signed"] fun fields => do
    return .int (← fields.required "width" Decoder.nat32) (← fields.required "signed" Decoder.bool)

/-- A floating-point descriptor. -/
def decodeFloat : Decoder TypeKind :=
  Decoder.record ["width", "mantissa", "exponent"] fun fields => do
    return .float (← fields.required "width" Decoder.nat32)
      (← fields.required "mantissa" Decoder.nat32) (← fields.required "exponent" Decoder.nat32)

/-- The type that a pointer or a future leads to. -/
def decodePointee : Decoder TypeId :=
  Decoder.record ["pointee"] fun fields => fields.required "pointee" TypeId.decode

/-- A struct descriptor. -/
def decodeStruct : Decoder TypeKind :=
  Decoder.record ["name", "fields"] fun fields => do
    return .struct (← fields.required "name" Decoder.string)
      (← fields.required "fields" (Decoder.list (Decoder.pair Decoder.string TypeId.decode)))

/-- A descriptor. -/
def decode : Decoder TypeKind :=
  Decoder.variant [("Void", .void)]
    [("Int", decodeInt), ("Float", decodeFloat),
      ("Pointer", fun depth json => return .pointer (← decodePointee depth json)),
      ("Future", fun depth json => return .future (← decodePointee depth json)),
      ("Struct", decodeStruct)]

end TypeKind

namespace Registry

/-- The tree of a registry. -/
def toJson (registry : Registry) : Json :=
  .obj [("descs", .ofList TypeKind.toJson registry.kinds),
    ("pointer_width", .ofNat registry.pointerWidth)]

/-- A registry. -/
def decode : Decoder Registry :=
  Decoder.record ["descs", "pointer_width"] fun fields => do
    let kinds ← fields.optional "descs" [] (Decoder.list TypeKind.decode)
    let pointerWidth ← fields.optional "pointer_width" 32 Decoder.nat32
    return { kinds, pointerWidth }

end Registry

namespace Value

mutual

/-- The tree of a value. -/
def toJson : Value → Json
  | .int value => .tagged "Int" (.int value)
  | .float value => .tagged "Float" (.float value)
  | .array items => .tagged "Array" (.arr (itemsToJson items))
  | .pointer name => .tagged "Pointer" (.ofOption .str name)
  | .struct fields => .tagged "Struct" (.obj (fieldsToJson fields))

/-- The trees of the items of an array. -/
def itemsToJson : List Value → List Json
  | [] => []
  | item :: items => toJson item :: itemsToJson items

/-- The trees of the fields of a struct. -/
def fieldsToJson : List (String × Value) → List (String × Json)
  | [] => []
  | (name, value) :: fields => (name, toJson value) :: fieldsToJson fields

end

/-- A value without parts. -/
def decodeScalar : Decoder Value :=
  Decoder.variant []
    [("Int", fun depth json => return .int (← Decoder.int64 depth json)),
      ("Float", fun depth json => return .float (← Decoder.double depth json)),
      ("Pointer", fun depth json => return .pointer (← Decoder.option Decoder.string depth json))]

/-- A value. An array or a struct takes two levels: one for its tag and one for its
parts. -/
def decode : Decoder Value
  | depth + 2, .obj [("Array", .arr items)] => return .array (← items.mapM (decode depth))
  | depth + 2, .obj [("Struct", .obj entries)] => do
      let fields ← entries.mapM fun (name, value) => do return (name, ← decode depth value)
      return .ofFields fields
  | depth, json => decodeScalar depth json

end Value

namespace TypedValue

/-- The tree of a typed value. -/
def toJson (value : TypedValue) : Json :=
  .obj [("ty", value.type.toJson), ("value", value.value.toJson)]

/-- A typed value. -/
def decode : Decoder TypedValue :=
  Decoder.record ["ty", "value"] fun fields => do
    return ⟨← fields.required "ty" TypeId.decode, ← fields.required "value" Value.decode⟩

end TypedValue

end TensorLowering
