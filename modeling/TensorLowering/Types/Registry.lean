import TensorLowering.Error

/-! # Type registries

A registry lists type descriptors; a type is the index of its descriptor. Asking for a
descriptor that is already listed gives the same type again, and a struct name keeps
its layout. Where a loaded registry lists a descriptor twice, the last one counts.
-/

namespace TensorLowering

/-- The descriptors of all types, and the width of pointers in bits. -/
structure Registry where
  kinds : List TypeKind := []
  pointerWidth : Nat := 32
  deriving DecidableEq, Inhabited

namespace Registry

/-- The index of the last descriptor with a property. -/
def lastIndex? (property : TypeKind → Bool) : List TypeKind → Option Nat
  | [] => none
  | kind :: kinds =>
      match lastIndex? property kinds with
      | some index => some (index + 1)
      | none => if property kind then some 0 else none

/-- The type of a descriptor, listed if it is new. -/
def intern (registry : Registry) (kind : TypeKind) : TypeId × Registry :=
  match lastIndex? (· = kind) registry.kinds with
  | some index => (⟨index⟩, registry)
  | none => (⟨registry.kinds.length⟩, { registry with kinds := registry.kinds ++ [kind] })

/-- The type without values. -/
def void (registry : Registry) : TypeId × Registry := registry.intern .void

/-- An integer type. -/
def int (registry : Registry) (width : Nat) (signed : Bool) : TypeId × Registry :=
  registry.intern (.int width signed)

/-- A floating-point type. -/
def float (registry : Registry) (width mantissa exponent : Nat) : TypeId × Registry :=
  registry.intern (.float width mantissa exponent)

/-- The single-precision type. -/
def float32 (registry : Registry) : TypeId × Registry := registry.float 32 23 8

/-- The type of pointers to a type. -/
def pointerTo (registry : Registry) (pointee : TypeId) : TypeId × Registry :=
  registry.intern (.pointer pointee)

/-- The type of futures of a type. -/
def futureOf (registry : Registry) (pointee : TypeId) : TypeId × Registry :=
  registry.intern (.future pointee)

/-- Whether a descriptor is a struct of a given name. -/
def isStructNamed (name : String) : TypeKind → Bool
  | .struct other _ => other = name
  | _ => false

/-- A struct type; a name that is in use must have the same fields in the same order. -/
def struct (registry : Registry) (name : String) (fields : List (String × TypeId)) :
    Except Error (TypeId × Registry) :=
  match lastIndex? (isStructNamed name) registry.kinds with
  | some index =>
      if registry.kinds[index]? = some (.struct name fields) then .ok (⟨index⟩, registry)
      else .error (.layoutConflict name)
  | none => .ok (registry.intern (.struct name fields))

/-- The descriptor of a type. -/
def kind (registry : Registry) (type : TypeId) : Except Error TypeKind :=
  match registry.kinds[type.index]? with
  | some kind => .ok kind
  | none => .error (.unknownType type)

/-- Whether a type is a future; an unknown type is none. -/
def isFuture (registry : Registry) (type : TypeId) : Bool :=
  match registry.kinds[type.index]? with
  | some (.future _) => true
  | _ => false

/-- Refuse a malformed descriptor. -/
def checkKind (kind : TypeKind) : Except Error Unit :=
  match kind.fault? with
  | some fault => .error (.malformedType fault)
  | none => .ok ()

/-- Refuse a registry with a malformed descriptor. -/
def validate (registry : Registry) : Except Error Unit := registry.kinds.forM checkKind

/-- Widths in bits stay below this limit. -/
def widthLimit : Nat := Nat.pow 2 32

/-- The width of a type whose struct fields nest at most `bound` deep. -/
def widthWithin (registry : Registry) : (bound : Nat) → TypeId → Except Error Nat
  | 0, _ => .error (.malformedType .endless)
  | bound + 1, type => do
      match ← registry.kind type with
      | .void => return 0
      | .int width _ => return width
      | .float width _ _ => return width
      | .pointer _ => return registry.pointerWidth
      | .future _ => return registry.pointerWidth
      | .struct name fields =>
          fields.foldlM (fun total (_, field) => do
            let sum := total + (← registry.widthWithin bound field)
            if sum < widthLimit then return sum else throw (.malformedType (.structWidth name))) 0

/-- The width of a type in bits; a struct is as wide as its fields together. No chain of
struct fields without repetition is longer than the registry. -/
def width (registry : Registry) (type : TypeId) : Except Error Nat :=
  registry.widthWithin (registry.kinds.length + 1) type

/-- The least number of bytes that hold a type. -/
def sizeBytes (registry : Registry) (type : TypeId) : Except Error Nat :=
  return ((← registry.width type) + 7) / 8

/-- The C spelling of a type whose pointers nest at most `bound` deep. -/
def nameWithin (registry : Registry) : (bound : Nat) → TypeId → Except Error String
  | 0, _ => .error (.malformedType .endless)
  | bound + 1, type => do
      match ← registry.kind type with
      | .void => return "void"
      | .int width true => return "int" ++ toString width ++ "_t"
      | .int width false => return "uint" ++ toString width ++ "_t"
      | .float width _ _ =>
          if width = 32 then return "float"
          else if width = 64 then return "double"
          else return "float" ++ toString width ++ "_t"
      | .pointer pointee => return (← registry.nameWithin bound pointee) ++ "*"
      | .future pointee => return (← registry.nameWithin bound pointee) ++ "*"
      | .struct name _ => return name

/-- The C spelling of a type. -/
def typeName (registry : Registry) (type : TypeId) : Except Error String :=
  registry.nameWithin (registry.kinds.length + 1) type

/-- Whether every value of the second type is a value of the first. -/
def canRepresent (registry : Registry) (first second : TypeId) : Except Error Bool := do
  let kind ← registry.kind first
  let other ← registry.kind second
  checkKind kind
  checkKind other
  match kind, other with
  | .int .., .int .. =>
      let (least, greatest) := kind.intBounds?.getD (0, 0)
      let (otherLeast, otherGreatest) := other.intBounds?.getD (0, 0)
      return otherGreatest ≤ greatest && least ≤ otherLeast
  | .float _ mantissa exponent, .float _ otherMantissa otherExponent =>
      return otherMantissa ≤ mantissa && otherExponent ≤ exponent
  | .float _ mantissa _, .int width signed =>
      return (if signed then width - 1 else width) ≤ mantissa + 1
  | _, _ => return first = second

end Registry

end TensorLowering
