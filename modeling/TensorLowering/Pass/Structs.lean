import TensorLowering.References

/-! # Struct initialisers

A struct buffer is declared with its value ahead of the code that reads it.
-/

namespace TensorLowering

/-- The default declaration of a struct. -/
def structTemplate : Template := { source := "${type} ${name} = ${value};" }

/-- The declaration of a buffer, if it is a struct. -/
def structCode (template : Template) (types : Registry) (buffer : Buffer) :
    Except Error (List Fragment) :=
  match buffer.kind with
  | .struct value => do
      let typeName ← types.typeName buffer.type
      let literal ← types.literal value
      return [{
        template
        bindings := .ofList
          [("name", .name buffer.name), ("type", .code typeName), ("value", .code literal)] }]
  | _ => .ok []

namespace Lowering

/-- The declarations of the structs among some buffers, made from the last to the first. -/
def declareStructs (template : Template) : List String → Lowering (List Fragment)
  | [] => return []
  | name :: names => do
      let later ← declareStructs template names
      let buffer ← lookup name
      return (← askTypes (structCode template · buffer)) ++ later

/-- Declare the structs that a block uses. -/
def initializeStructs (template : Template) (block : Block) : Lowering Block := do
  let names ← references block .unrolled
  return block.prepend (← declareStructs template names)

end Lowering

end TensorLowering
