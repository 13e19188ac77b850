import TensorLowering.Diagnostic
import TensorLowering.Pass.Closures
import TensorLowering.Pass.Futures
import TensorLowering.Pass.Kind
import TensorLowering.Pass.Structs
import TensorLowering.Pass.TileLoop
import TensorLowering.Pass.Tiles

/-! # Pipelines

A pass is a kind with its options. A pipeline is a list of passes; it runs over the block of
one operation from left to right and stops at the first failure.
-/

namespace TensorLowering

/-- A pass over the block of an operation. -/
inductive Pass where
  | tileViews (level : String)
  | tileUpdates
  | tileLoop (options : TileLoopOptions)
  | futures (templates : FutureTemplates)
  | closures (options : ClosureOptions)
  | structs (template : Option String)
  | lifetimes (templates : LifetimeTemplates)
  | bookkeeping
  deriving DecidableEq, Inhabited

namespace Pass

/-- The kind of a pass. -/
def kind : Pass → PassKind
  | .tileViews _ => .tileViews
  | .tileUpdates => .tileUpdates
  | .tileLoop _ => .tileLoop
  | .futures _ => .futures
  | .closures options => if options.window.isSome then .windowedClosures else .closures
  | .structs _ => .structs
  | .lifetimes _ => .lifetimes
  | .bookkeeping => .bookkeeping

/-- Run a pass over the block of an operation. -/
def apply (annotate : Bool) (operation : String) (block : Block) : Pass → Lowering Block
  | .tileViews level => Lowering.makeTileViews level block operation
  | .tileUpdates => return block.updateTiles
  | .tileLoop options => return block.loopOverTiles options
  | .futures templates => Lowering.resolveFutures templates block operation
  | .closures options => Lowering.makeClosure options block operation
  | .structs template =>
      Lowering.initializeStructs ((template.map fun source => { source }).getD structTemplate) block
  | .lifetimes templates => Lowering.manageLifetimes (some templates) annotate block operation
  | .bookkeeping => Lowering.manageLifetimes none annotate block operation

end Pass

/-- Where and why the lowering of a schedule failed; `completed` counts the passes that had
finished on the operation. -/
structure Failure where
  operation : String
  stage : String
  completed : Nat
  error : Error
  deriving DecidableEq

namespace Failure

/-- The wording of a failure. -/
def message (failure : Failure) : String :=
  failure.operation ++ ": " ++ failure.stage ++ ": " ++ failure.error.message

/-- The diagnostic of a failure. -/
def diagnostic (failure : Failure) : Diagnostic :=
  { Diagnostic.ofError failure.error with origin := some ⟨failure.operation, failure.stage⟩ }

end Failure

/-- Steps on a workspace whose failures tell where they arose. -/
abbrev Scheduling := EStateM Failure Workspace

/-- Tell where a failure arose. -/
def Lowering.during {α : Type} (step : Lowering α) (operation stage : String) (completed : Nat) :
    Scheduling α :=
  fun workspace =>
    match step workspace with
    | .ok result workspace => .ok result workspace
    | .error error workspace => .error ⟨operation, stage, completed, error⟩ workspace

namespace Pipeline

/-- Run passes over the block of an operation after `completed` others. -/
def runFrom (annotate : Bool) (operation : String) :
    (completed : Nat) → List Pass → Block → Scheduling Block
  | _, [], block => return block
  | completed, pass :: passes, block => do
      let block ← (pass.apply annotate operation block).during operation pass.kind.name completed
      runFrom annotate operation (completed + 1) passes block

/-- Run a pipeline over the block of an operation. -/
def run (pipeline : List Pass) (annotate : Bool) (operation : String) (block : Block) :
    Scheduling Block :=
  runFrom annotate operation 0 pipeline block

/-- The warnings about the order of the passes. -/
def warnings (pipeline : List Pass) : List String :=
  (PassKind.violations (pipeline.map Pass.kind)).map PassKind.warning

end Pipeline

end TensorLowering
