import TensorLowering.Document.Context
import TensorLowering.Document.Pass
import TensorLowering.Document.Tiling
import TensorLowering.Schedule

/-! # Plans

A plan is a document with all that a run needs: the context, the scheduled operations with
the tilings of their kernels, and the pipeline.
-/

namespace TensorLowering

open Json

/-- Code of an operation as it is planned. -/
structure PlannedFragment where
  source : String
  bindings : Bindings := .empty
  tiling : Option Tiling := none
  deriving DecidableEq, Inhabited

namespace PlannedFragment

/-- The fragment of planned code. -/
def fragment (planned : PlannedFragment) : Fragment where
  template := { source := planned.source }
  bindings := planned.bindings
  tiling := planned.tiling

/-- The tree of planned code; it names a tiling only if there is one. -/
def toJson (planned : PlannedFragment) : Json :=
  .obj <|
    [("template", .str planned.source), ("bindings", Bindings.toJson planned.bindings)] ++
      planned.tiling.toList.map fun tiling => ("tiling", tiling.toJson)

/-- Planned code. -/
def decode : Decoder PlannedFragment :=
  Decoder.record ["template", "bindings", "tiling"] fun fields => do
    let source ← fields.required "template" Decoder.string
    let bindings ← fields.optional "bindings" .empty Bindings.decode
    let tiling ← fields.optional "tiling" none (Decoder.option Tiling.decode)
    return { source, bindings, tiling }

end PlannedFragment

/-- A planned operation. -/
structure PlannedOperation where
  name : String
  fragments : List PlannedFragment
  deriving DecidableEq, Inhabited

namespace PlannedOperation

/-- The scheduled operation. -/
def operation (planned : PlannedOperation) : Operation where
  name := planned.name
  block := .ofFragments (planned.fragments.map PlannedFragment.fragment)

/-- The tree of an operation. -/
def toJson (planned : PlannedOperation) : Json :=
  .obj [("name", .str planned.name),
    ("fragments", .ofList PlannedFragment.toJson planned.fragments)]

/-- An operation. -/
def decode : Decoder PlannedOperation :=
  Decoder.record ["name", "fragments"] fun fields => do
    return ⟨← fields.required "name" Decoder.string,
      ← fields.required "fragments" (Decoder.list PlannedFragment.decode)⟩

end PlannedOperation

/-- A plan; `annotate` asks for comments in the code, and `entry` names the entry
function. -/
structure Plan where
  context : Context := {}
  operations : List PlannedOperation
  pipeline : List Pass
  annotate : Bool := false
  entry : String := "dlc_run"
  deriving DecidableEq, Inhabited

namespace Plan

/-- The tree of the verbosity of a plan. -/
def verbosityToJson (annotate : Bool) : Json := .obj [("annotate", .bool annotate)]

/-- The tree of a plan. -/
def toJson (plan : Plan) : Json :=
  .obj [("context", plan.context.toJson),
    ("operations", .ofList PlannedOperation.toJson plan.operations),
    ("pipeline", .ofList Pass.toJson plan.pipeline),
    ("verbosity", verbosityToJson plan.annotate), ("entry", .str plan.entry)]

/-- The verbosity of a plan. -/
def decodeVerbosity : Decoder Bool :=
  Decoder.record ["annotate"] fun fields => fields.optional "annotate" false Decoder.bool

/-- A plan as it is written. -/
def decode : Decoder Plan :=
  Decoder.record ["context", "operations", "pipeline", "verbosity", "entry"] fun fields => do
    let context ← fields.optional "context" {} Context.decode
    let operations ← fields.required "operations" (Decoder.list PlannedOperation.decode)
    let pipeline ← fields.required "pipeline" (Decoder.list Pass.decode)
    let annotate ← fields.optional "verbosity" false decodeVerbosity
    let entry ← fields.optional "entry" "dlc_run" Decoder.string
    return { context, operations, pipeline, annotate, entry }

/-- The plan of a document. -/
def load (json : Json) : Except Error Plan :=
  match decode maxDepth json with
  | .ok plan => return { plan with context := ← plan.context.checked }
  | .error fault => .error (.unreadable fault)

/-- The plan of the text of a document. -/
def ofText (text : String) : Except Error Plan :=
  match Json.parse? text with
  | some json => load json
  | none => .error (.unreadable .malformed)

/-- Lower a plan; the context after it, changed as far as the lowering went. -/
def run (plan : Plan) : Except Failure Program × Context :=
  Schedule.run plan.pipeline plan.annotate (plan.operations.map PlannedOperation.operation)
    plan.context

/-- The warnings about the order of the passes. -/
def warnings (plan : Plan) : List String := Pipeline.warnings plan.pipeline

end Plan

end TensorLowering
