import TensorLowering.Pipeline

/-! # Schedules

A schedule is a list of operations with their code. Lowering it runs the pipeline over one
operation after the other on one context, and writes all code into one program.
-/

namespace TensorLowering

/-- A scheduled operation. -/
structure Operation where
  name : String
  block : Block
  deriving DecidableEq, Inhabited

/-- A lowered operation: its block after all passes, and the text of the block. -/
structure LoweredOperation where
  name : String
  block : Block
  code : String
  deriving DecidableEq, Inhabited

/-- A lowered schedule: storage placed statically, hoisted definitions, and the lowered
operations. -/
structure Program where
  statics : List String
  definitions : List Definition
  operations : List LoweredOperation
  deriving DecidableEq, Inhabited

namespace Program

/-- The text of the code of an operation in the entry function. -/
def operationText (operation : LoweredOperation) : String :=
  "    /* " ++ operation.name ++ " */\n" ++
    "".intercalate ((Text.lines operation.code).map fun line => "    " ++ line ++ "\n")

/-- The text of a program with the given entry function. -/
def text (program : Program) (entry : String) : String :=
  "".intercalate (program.statics.map (· ++ "\n")) ++
    "".intercalate (program.definitions.map (·.code ++ "\n\n")) ++
    "void " ++ entry ++ "(void) \x7b\n" ++
    "".intercalate (program.operations.map operationText) ++ "\x7d\n"

end Program

namespace Context

/-- Whether a global buffer is storage that is placed statically. -/
def isStatic (buffer : Buffer) : Bool := !buffer.deploy && buffer.isTensor

/-- The declaration of storage that is placed statically, with room for the whole buffer. -/
def staticDeclaration (types : Registry) (buffer : Buffer) : Except Error String := do
  let element := max (← types.sizeBytes buffer.type) 1
  let typeName ← types.typeName buffer.type
  return "static " ++ typeName ++ " " ++ buffer.name ++ "[" ++
    toString ((buffer.size + element - 1) / element) ++ "];"

/-- The declarations of all storage that is placed statically. -/
def staticDeclarations (context : Context) : Except Error (List String) :=
  (context.globals.entries.filter isStatic).mapM (staticDeclaration context.types)

end Context

namespace Schedule

/-- The stage after the passes. -/
def renderStage : String := "render"

/-- Lower one operation. -/
def lowerOperation (pipeline : List Pass) (annotate : Bool) (operation : Operation) :
    Scheduling LoweredOperation := do
  let block ← Pipeline.run pipeline annotate operation.name operation.block
  let code ← (Lowering.renderBlock block).during operation.name renderStage pipeline.length
  return { name := operation.name, block, code }

/-- Lower a schedule. -/
def lower (pipeline : List Pass) (annotate : Bool) (operations : List Operation) :
    Scheduling Program := do
  let operations ← operations.mapM (lowerOperation pipeline annotate)
  let statics ← (Lowering.ask Context.staticDeclarations).during "" renderStage 0
  let definitions := (← get).context.definitions
  return { statics, definitions, operations }

/-- Lower a schedule in a context; the context after it, changed as far as the lowering
went. -/
def run (pipeline : List Pass) (annotate : Bool) (operations : List Operation)
    (context : Context) : Except Failure Program × Context :=
  match lower pipeline annotate operations { context } with
  | .ok program workspace => (.ok program, workspace.context)
  | .error failure workspace => (.error failure, workspace.context)

end Schedule

end TensorLowering
