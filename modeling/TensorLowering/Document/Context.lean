import TensorLowering.Context.Basic
import TensorLowering.Document.Types
import TensorLowering.Json.Printer
import TensorLowering.Json.Reader

/-! # Documents of contexts

The trees of buffers and contexts, and their decoders. A loaded context is checked and its
alias lists are completed (`Context.load`).
-/

namespace TensorLowering

open Json

/-- A scope. -/
def Scope.decode : Decoder Scope :=
  Decoder.variant [("Global", .globals), ("Local", .locals)] []

namespace BufferKind

/-- The tree of a kind. -/
def toJson : BufferKind → Json
  | .tensor => .str "Variable"
  | .constant value => .tagged "Constant" (.obj [("value", value.toJson)])
  | .transient => .str "Transient"
  | .struct value => .tagged "Struct" (.obj [("value", value.toJson)])
  | .reference target offset =>
      .tagged "Reference" (.obj [("target", .str target), ("offset", .ofNat offset)])

/-- The value of a constant or a struct. -/
def decodeValue : Decoder TypedValue :=
  Decoder.record ["value"] fun fields => fields.required "value" TypedValue.decode

/-- A reference. -/
def decodeReference : Decoder BufferKind :=
  Decoder.record ["target", "offset"] fun fields => do
    return .reference (← fields.required "target" Decoder.string)
      (← fields.required "offset" Decoder.nat64)

/-- A kind. -/
def decode : Decoder BufferKind :=
  Decoder.variant [("Variable", .tensor), ("Transient", .transient)]
    [("Constant", fun depth json => return .constant (← decodeValue depth json)),
      ("Struct", fun depth json => return .struct (← decodeValue depth json)),
      ("Reference", decodeReference)]

end BufferKind

namespace Buffer

/-- The tree of a buffer. -/
def toJson (buffer : Buffer) : Json :=
  .obj [("name", .str buffer.name), ("ty", buffer.type.toJson), ("size", .ofNat buffer.size),
    ("level", .ofOption .str buffer.level), ("live", .bool buffer.live),
    ("deploy", .bool buffer.deploy), ("users", .ofStrings buffer.users),
    ("aliases", .ofStrings buffer.aliases), ("state", .ofOption .str buffer.state),
    ("kind", buffer.kind.toJson)]

/-- A buffer. -/
def decode : Decoder Buffer :=
  Decoder.record
    ["name", "ty", "size", "level", "live", "deploy", "users", "aliases", "state", "kind"]
    fun fields => do
      let name ← fields.required "name" Decoder.string
      let type ← fields.required "ty" TypeId.decode
      let size ← fields.optional "size" 0 Decoder.nat64
      let level ← fields.optional "level" none (Decoder.option Decoder.string)
      let live ← fields.optional "live" false Decoder.bool
      let deploy ← fields.optional "deploy" true Decoder.bool
      let users ← fields.optional "users" [] (Decoder.list Decoder.string)
      let aliases ← fields.optional "aliases" [] (Decoder.list Decoder.string)
      let state ← fields.optional "state" none (Decoder.option Decoder.string)
      let kind ← fields.optional "kind" .tensor BufferKind.decode
      return { name, type, size, level, live, deploy, users, aliases, state, kind }

end Buffer

namespace BufferTable

/-- The tree of a table. -/
def toJson (table : BufferTable) : Json :=
  .obj [("entries", .ofList Buffer.toJson table.entries)]

/-- A table. -/
def decode : Decoder BufferTable :=
  Decoder.record ["entries"] fun fields =>
    return ⟨← fields.required "entries" (Decoder.list Buffer.decode)⟩

end BufferTable

namespace Definition

/-- The tree of a definition. -/
def toJson (definition : Definition) : Json :=
  .obj [("name", .str definition.name), ("code", .str definition.code)]

/-- A definition. -/
def decode : Decoder Definition :=
  Decoder.record ["name", "code"] fun fields => do
    return ⟨← fields.required "name" Decoder.string, ← fields.required "code" Decoder.string⟩

end Definition

namespace NameSet

/-- The tree of a set of names. -/
def toJson (set : NameSet) : Json := .ofStrings set.keys

/-- A set of names. -/
def decode : Decoder NameSet := fun depth json => do
  return .ofList ((← Decoder.list Decoder.string depth json).map (·, ()))

end NameSet

namespace Context

/-- The tree of a context. -/
def toJson (context : Context) : Json :=
  .obj [("types", context.types.toJson), ("globals", context.globals.toJson),
    ("locals", context.locals.toJson), ("dynamic_size", .ofDict .ofNat context.dynamicSize),
    ("max_dynamic_size", .ofDict .ofNat context.maxDynamicSize),
    ("pending_release", NameSet.toJson context.pendingRelease),
    ("name_prefix", .str context.namePrefix), ("mangled", .ofDict .str context.mangled),
    ("definitions", .ofList Definition.toJson context.definitions)]

/-- A context as it is written. -/
def decode : Decoder Context :=
  Decoder.record
    ["types", "globals", "locals", "dynamic_size", "max_dynamic_size", "pending_release",
      "name_prefix", "mangled", "definitions"]
    fun fields => do
      let types ← fields.optional "types" {} Registry.decode
      let globals ← fields.optional "globals" {} BufferTable.decode
      let locals ← fields.optional "locals" {} BufferTable.decode
      let dynamicSize ← fields.optional "dynamic_size" .empty (Decoder.dict Decoder.nat64)
      let maxDynamicSize ← fields.optional "max_dynamic_size" .empty (Decoder.dict Decoder.nat64)
      let pendingRelease ← fields.optional "pending_release" .empty NameSet.decode
      let namePrefix ← fields.optional "name_prefix" "" Decoder.string
      let mangled ← fields.optional "mangled" .empty (Decoder.dict Decoder.string)
      let definitions ← fields.optional "definitions" [] (Decoder.list Definition.decode)
      return { types, globals, locals, dynamicSize, maxDynamicSize, pendingRelease, namePrefix,
               mangled, definitions }

/-- A context that is fit for use: checked, and with complete alias lists. -/
def checked (context : Context) : Except Error Context := do
  context.validate
  return context.linkAliases

/-- The context of a document. -/
def load (json : Json) : Except Error Context :=
  match decode maxDepth json with
  | .ok context => context.checked
  | .error fault => .error (.unreadable fault)

/-- The context of the text of a document. -/
def ofText (text : String) : Except Error Context :=
  match Json.parse? text with
  | some json => load json
  | none => .error (.unreadable .malformed)

/-- The text of a context. -/
def text (context : Context) : String := context.toJson.pretty

end Context

end TensorLowering
