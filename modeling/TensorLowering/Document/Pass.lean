import TensorLowering.Document.Template
import TensorLowering.Pipeline

/-! # Documents of passes

The trees of passes and their decoders. A pass is an object with the name of the pass and
its options, or an array of the name and the options in order. The options are read whole
before they are looked at.
-/

namespace TensorLowering

open Json

namespace LifetimeTemplates

/-- The tree of lifetime templates. -/
def toJson (templates : LifetimeTemplates) : Json :=
  .obj [("alloc", templates.alloc.toJson), ("dealloc", templates.dealloc.toJson),
    ("reference", templates.reference.toJson), ("annotation", templates.usage.toJson)]

/-- Lifetime templates. -/
def decode (lenient : Bool) : Decoder LifetimeTemplates :=
  Decoder.record ["alloc", "dealloc", "reference", "annotation"] fun fields => do
    let usual : LifetimeTemplates := {}
    let alloc ← fields.optional "alloc" usual.alloc (Template.decode lenient)
    let dealloc ← fields.optional "dealloc" usual.dealloc (Template.decode lenient)
    let reference ← fields.optional "reference" usual.reference (Template.decode lenient)
    let usage ← fields.optional "annotation" usual.usage (Template.decode lenient)
    return { alloc, dealloc, reference, usage }

end LifetimeTemplates

namespace FutureTemplates

/-- The tree of future templates. -/
def toJson (templates : FutureTemplates) : Json :=
  .obj [("dispatch", templates.dispatch.toJson), ("resolve", templates.resolve.toJson)]

/-- Future templates. -/
def decode : Decoder FutureTemplates :=
  Decoder.record ["dispatch", "resolve"] fun fields => do
    let usual : FutureTemplates := {}
    let dispatch ← fields.optional "dispatch" usual.dispatch (Template.decode true)
    let resolve ← fields.optional "resolve" usual.resolve (Template.decode true)
    return { dispatch, resolve }

end FutureTemplates

namespace ClosureTemplates

/-- The tree of closure templates. -/
def toJson (templates : ClosureTemplates) : Json :=
  .obj [("structure", templates.struct.toJson), ("function", templates.function.toJson),
    ("call", templates.call.toJson), ("write_back", templates.writeBack.toJson)]

/-- Closure templates. -/
def decode : Decoder ClosureTemplates :=
  Decoder.record ["structure", "function", "call", "write_back"] fun fields => do
    let usual : ClosureTemplates := {}
    let struct ← fields.optional "structure" usual.struct (Template.decode true)
    let function ← fields.optional "function" usual.function (Template.decode true)
    let call ← fields.optional "call" usual.call (Template.decode true)
    let writeBack ← fields.optional "write_back" usual.writeBack (Template.decode true)
    return { struct, function, call, writeBack }

end ClosureTemplates

namespace LevelWindow

/-- The tree of a window. -/
def toJson (window : LevelWindow) : Json :=
  .obj [("start", .str window.start), ("end", .str window.stop)]

/-- A window. -/
def decode : Decoder LevelWindow :=
  Decoder.record ["start", "end"] fun fields => do
    return ⟨← fields.required "start" Decoder.string, ← fields.required "end" Decoder.string⟩

end LevelWindow

namespace Pass

/-- The tag of a pass. -/
def tag : Pass → String
  | .closures _ => PassKind.closures.name
  | pass => pass.kind.name

/-- The options of a pass. -/
def optionsToJson : Pass → List (String × Json)
  | .tileViews level => [("level", .str level)]
  | .tileUpdates => []
  | .tileLoop options =>
      [("transfers", .bool options.transfers), ("open", .ofOption .str options.opening),
        ("close", .ofOption .str options.closing)]
  | .futures templates => [("templates", templates.toJson)]
  | .closures options =>
      [("write_back", .bool options.writeBack),
        ("regions", .ofOption LevelWindow.toJson options.window),
        ("templates", options.templates.toJson), ("memory", options.memory.toJson)]
  | .structs template => [("template", .ofOption .str template)]
  | .lifetimes templates => [("templates", templates.toJson)]
  | .bookkeeping => []

/-- The tree of a pass. -/
def toJson (pass : Pass) : Json := .obj (("pass", .str pass.tag) :: pass.optionsToJson)

/-- The names of the options of a pass, and the pass with given options. -/
structure Form where
  names : List String
  body : Fields → Except Fault Pass

/-- The form of a pass that makes views of tiles. -/
def tileViewsForm : Form where
  names := ["level"]
  body fields := return .tileViews (← fields.required "level" Decoder.string)

/-- The form of a pass that makes loops over tiles. -/
def tileLoopForm : Form where
  names := ["transfers", "open", "close"]
  body fields := do
    let transfers ← fields.optional "transfers" false Decoder.bool
    let opening ← fields.optional "open" none (Decoder.option Decoder.string)
    let closing ← fields.optional "close" none (Decoder.option Decoder.string)
    return .tileLoop { transfers, opening, closing }

/-- The form of a pass that resolves futures. -/
def futuresForm : Form where
  names := ["templates"]
  body fields := return .futures (← fields.optional "templates" {} FutureTemplates.decode)

/-- The form of a pass that makes closures. -/
def closuresForm : Form where
  names := ["write_back", "regions", "templates", "memory"]
  body fields := do
    let writeBack ← fields.optional "write_back" false Decoder.bool
    let window ← fields.optional "regions" none (Decoder.option LevelWindow.decode)
    let templates ← fields.optional "templates" {} ClosureTemplates.decode
    let memory ← fields.optional "memory" {} (LifetimeTemplates.decode true)
    return .closures { writeBack, window, templates, memory }

/-- The form of a pass that initialises structs. -/
def structsForm : Form where
  names := ["template"]
  body fields :=
    return .structs (← fields.optional "template" none (Decoder.option Decoder.string))

/-- The form of a pass that manages lifetimes. -/
def lifetimesForm : Form where
  names := ["templates"]
  body fields :=
    return .lifetimes (← fields.optional "templates" {} (LifetimeTemplates.decode true))

/-- The form of a pass without options. -/
def plainForm (pass : Pass) : Form where
  names := []
  body _ := .ok pass

/-- The forms of all passes by tag. -/
def forms : List (String × Form) :=
  [(PassKind.tileViews.name, tileViewsForm),
    (PassKind.tileUpdates.name, plainForm .tileUpdates),
    (PassKind.tileLoop.name, tileLoopForm),
    (PassKind.futures.name, futuresForm),
    (PassKind.closures.name, closuresForm),
    (PassKind.structs.name, structsForm),
    (PassKind.lifetimes.name, lifetimesForm),
    (PassKind.bookkeeping.name, plainForm .bookkeeping)]

/-- The form of a tag. -/
def formOf : Json → Except Fault Form
  | .str tag =>
      match Dict.search tag forms with
      | some form => .ok form
      | none => .error (.expected "a known pass")
  | _ => .error (.expected "the name of a pass")

/-- The value of the key `pass`, which has to occur once. -/
def tagOf (entries : List (String × Json)) : Except Fault Json :=
  match entries.filter (·.1 = "pass") with
  | [(_, json)] => .ok json
  | [] => .error (.missing "pass")
  | _ => .error (.repeated "pass")

/-- A pass. -/
def decode : Decoder Pass
  | depth, .obj entries => enter depth fun depth => do
      let form ← formOf (← tagOf entries)
      let options := entries.filter (·.1 ≠ "pass")
      options.forM fun (_, json) => readWhole depth json
      form.body (← Fields.ofEntries depth form.names options)
  | depth, .arr (tag :: items) => enter depth fun depth => do
      let form ← formOf tag
      items.forM (readWhole depth)
      form.body (← Fields.ofItems depth form.names items)
  | _, _ => .error (.expected "a pass")

end Pass

end TensorLowering
