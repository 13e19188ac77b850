import TensorLowering.Types.Registry

/-! # Values of a type

A value is checked against a type strictly, or leniently so that whole numbers and
integers stand for each other. An array is checked item by item against the element
type. `Registry.make` gives a typed value only after the lenient check.
-/

namespace TensorLowering

namespace Registry

/-- Check the fields of a struct in the order of its layout, given a check of each
field. -/
def checkFields (checks : List (String × (TypeId → Except Error Bool))) :
    List (String × TypeId) → Except Error Bool
  | [] => .ok true
  | (name, type) :: rest =>
      match Dict.search name checks with
      | none => .ok false
      | some check => do
          if ← check type then checkFields checks rest else return false

/-- Whether a number is a value of a type that is not a struct. -/
def admits (lenient : Bool) : TypeKind → Value → Bool
  | kind@(.int ..), .int value => kind.admitsInt value
  | kind@(.int ..), .float value =>
      lenient && (match value.toInt? with
        | some value => kind.admitsInt value
        | none => false)
  | kind@(.float ..), .float value => kind.admitsFloat value
  | kind@(.float ..), .int value => lenient && kind.admitsFloat (.ofInt value)
  | .pointer _, .pointer _ => true
  | .future _, .pointer _ => true
  | _, _ => false

mutual

/-- Whether a value belongs to a type. -/
def check (registry : Registry) (lenient : Bool) : Value → TypeId → Except Error Bool
  | .array items, type => checkItems registry lenient items type
  | .struct values, type => do
      let kind ← registry.kind type
      checkKind kind
      match kind with
      | .struct _ fields =>
          if fields.length ≠ values.length then return false
          else checkFields (fieldChecks registry lenient values) fields
      | _ => return false
  | value, type => do
      let kind ← registry.kind type
      checkKind kind
      return admits lenient kind value

/-- Whether all items belong to a type. -/
def checkItems (registry : Registry) (lenient : Bool) : List Value → TypeId → Except Error Bool
  | [], _ => .ok true
  | item :: items, type => do
      if ← check registry lenient item type then checkItems registry lenient items type
      else return false

/-- The check of each field of a struct value. -/
def fieldChecks (registry : Registry) (lenient : Bool) :
    List (String × Value) → List (String × (TypeId → Except Error Bool))
  | [] => []
  | (name, value) :: values =>
      (name, check registry lenient value) :: fieldChecks registry lenient values

end

/-- The names of fields in order. -/
def sortedNames (fields : List (String × TypeId)) : List String :=
  (fields.map Prod.fst).mergeSort fun first second => decide (first ≤ second)

/-- Refuse a struct value whose field names are not those of its struct type. -/
def matchFields (kind : TypeKind) (value : Value) : Except Error Unit :=
  match kind, value with
  | .struct name fields, .struct values =>
      let expected := sortedNames fields
      let found := values.map Prod.fst
      if expected = found then .ok () else .error (.fieldMismatch name expected found)
  | _, _ => .ok ()

/-- A value of a type. -/
def make (registry : Registry) (type : TypeId) (value : Value) : Except Error TypedValue := do
  matchFields (← registry.kind type) value
  if ← registry.check true value type then return ⟨type, value⟩
  else throw (.unrepresentable value (← registry.typeName type))

/-- The initialisers of the fields of a struct in the order of its layout. -/
def fieldLiterals (missing : Error) (literals : List (String × (TypeId → Except Error String))) :
    List (String × TypeId) → Except Error (List String)
  | [] => .ok []
  | (name, type) :: rest =>
      match Dict.search name literals with
      | none => .error missing
      | some literal => do
          let text ← literal type
          return ("." ++ name ++ " = " ++ text) :: (← fieldLiterals missing literals rest)

mutual

/-- The C initialiser of a value of a type; the fields of a struct stand in the order of
its layout. -/
def literalOf (registry : Registry) : Value → TypeId → Except Error String
  | .struct values, type => do
      match ← registry.kind type with
      | .struct _ fields =>
          let missing := Error.unrepresentable (.struct values)
            ((registry.typeName type).toOption.getD "")
          let texts ← fieldLiterals missing (literalsOf registry values) fields
          return "\x7b " ++ ", ".intercalate texts ++ " \x7d"
      | _ => return (Value.struct values).text
  | value, type => do
      let _ ← registry.kind type
      return value.text

/-- The initialiser of each field of a struct value. -/
def literalsOf (registry : Registry) :
    List (String × Value) → List (String × (TypeId → Except Error String))
  | [] => []
  | (name, value) :: values => (name, literalOf registry value) :: literalsOf registry values

end

/-- The C initialiser of a typed value. -/
def literal (registry : Registry) (value : TypedValue) : Except Error String :=
  registry.literalOf value.value value.type

end Registry

end TensorLowering
