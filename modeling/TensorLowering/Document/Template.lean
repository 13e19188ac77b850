import TensorLowering.Json.Decode
import TensorLowering.Json.Encode
import TensorLowering.Template.Basic

/-! # Documents of templates

The trees of bindings and templates, and their decoders. The templates inside the options of
a pass are decoded leniently.
-/

namespace TensorLowering

open Json

namespace Binding

/-- The tree of a binding. -/
def toJson : Binding → Json
  | .name symbol => .tagged "name" (.str symbol)
  | .int value => .tagged "int" (.int value)
  | .float value => .tagged "float" (.float value)
  | .ints values => .tagged "ints" (.ofList .int values)
  | .code text => .tagged "code" (.str text)

/-- A binding. -/
def decode : Decoder Binding :=
  Decoder.variant []
    [("name", fun depth json => return .name (← Decoder.string depth json)),
      ("int", fun depth json => return .int (← Decoder.int64 depth json)),
      ("float", fun depth json => return .float (← Decoder.double depth json)),
      ("ints", fun depth json => return .ints (← Decoder.list Decoder.int64 depth json)),
      ("code", fun depth json => return .code (← Decoder.string depth json))]

end Binding

namespace Bindings

/-- The tree of bindings. -/
def toJson (bindings : Bindings) : Json := .ofDict Binding.toJson bindings

/-- Bindings. -/
def decode : Decoder Bindings := Decoder.dict Binding.decode

end Bindings

namespace Indirection

/-- The tree of an indirection. -/
def toJson : Indirection → Json
  | .deref => .str "Deref"
  | .index subscript => .tagged "Index" (.str subscript)

/-- An indirection. -/
def decode (lenient : Bool) : Decoder Indirection :=
  Decoder.variantWith lenient [("Deref", .deref)]
    [("Index", fun depth json => return .index (← Decoder.string depth json))]

end Indirection

namespace Template

/-- The tree of the indirections of a template. -/
def indirectionsToJson (indirections : Dict (List Indirection)) : Json :=
  .ofDict (.ofList Indirection.toJson) indirections

/-- The tree of a template. -/
def toJson (template : Template) : Json :=
  .obj [("source", .str template.source), ("rewrites", indirectionsToJson template.indirections)]

/-- A template. -/
def decode (lenient : Bool) : Decoder Template :=
  Decoder.record ["source", "rewrites"] fun fields => do
    let source ← fields.required "source" Decoder.string
    let indirections ← fields.optional "rewrites" .empty
      (Decoder.dict (Decoder.list (Indirection.decode lenient)))
    return { source, indirections }

end Template

end TensorLowering
