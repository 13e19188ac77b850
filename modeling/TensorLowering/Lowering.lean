import TensorLowering.Block
import TensorLowering.Context.Arena
import TensorLowering.Context.Naming
import TensorLowering.Template.Cache

/-! # Lowering steps

A pass is a sequence of steps on a workspace: the context, and the templates read so far. A
step that fails ends the pass; what was changed before it stays changed.
-/

namespace TensorLowering

/-- What a pass works on. -/
structure Workspace where
  context : Context
  sources : TemplateCache := .empty
  deriving DecidableEq, Inhabited

/-- A sequence of steps on a workspace. -/
abbrev Lowering := EStateM Error Workspace

namespace Lowering

variable {α : Type}

/-- A step that changes the context whether or not it fails. -/
def perform (step : Context → Except Error α × Context) : Lowering α := fun workspace =>
  match step workspace.context with
  | (.ok answer, context) => .ok answer { workspace with context }
  | (.error error, context) => .error error { workspace with context }

/-- A step that changes the context, or fails and leaves it as it is. -/
def attempt (step : Context → Except Error (α × Context)) : Lowering α := fun workspace =>
  match step workspace.context with
  | .ok (answer, context) => .ok answer { workspace with context }
  | .error error => .error error workspace

/-- A step that cannot fail. -/
def change (step : Context → α × Context) : Lowering α := fun workspace =>
  let (answer, context) := step workspace.context
  .ok answer { workspace with context }

/-- A question about the context. -/
def ask (question : Context → Except Error α) : Lowering α := fun workspace =>
  match question workspace.context with
  | .ok answer => .ok answer workspace
  | .error error => .error error workspace

/-! ### Buffers -/

/-- The buffer that a name denotes. -/
def lookup (name : String) : Lowering Buffer := ask (·.lookup name)

/-- Whether a name denotes a buffer. -/
def isBuffer (name : String) : Lowering Bool := ask (.ok <| ·.isBuffer name)

/-- Change the buffer that a name denotes, which has to exist. -/
def modifyBuffer (name : String) (update : Buffer → Buffer) : Lowering Unit := do
  let _ ← lookup name
  change fun context => ((), context.modify name update)

/-- Register a buffer. -/
def add (buffer : Buffer) (scope : Scope) : Lowering Unit :=
  attempt fun context => return ((), ← context.add buffer scope)

/-- Remove the buffer that a name denotes, if there is one. -/
def discardBuffer (name : String) : Lowering Unit := do
  if ← isBuffer name then
    let _ ← attempt (·.remove name)

/-- Make a buffer live. -/
def allocate (name operation : String) : Lowering Unit :=
  attempt fun context => return ((), ← context.allocate name operation)

/-- Make a buffer dead; the names are those of the storage returned. -/
def deallocate (name operation : String) : Lowering (List String) :=
  perform (·.deallocate name operation)

/-! ### Names, types and definitions -/

/-- The identifier of a logical name. -/
def mangle (name : String) : Lowering String := change (·.mangle name)

/-- Hoist code under a name. -/
def hoist (name code : String) : Lowering Unit := do
  let _ ← attempt (·.hoist name code)

/-- A type from the registry, which may grow. -/
def intern (make : Registry → TypeId × Registry) : Lowering TypeId :=
  change fun context =>
    let (type, types) := make context.types
    (type, { context with types })

/-- A type from the registry, which may grow or refuse. -/
def internChecked (make : Registry → Except Error (TypeId × Registry)) : Lowering TypeId :=
  attempt fun context => do
    let (type, types) ← make context.types
    return (type, { context with types })

/-- A question about types. -/
def askTypes (question : Registry → Except Error α) : Lowering α := ask (question ·.types)

/-! ### Templates -/

/-- Read a template, unless one with the same source has been read. -/
def read (template : Template) : Lowering Parsed := fun workspace =>
  match workspace.sources.read template.source with
  | .ok (parsed, sources) => .ok parsed { workspace with sources }
  | .error fault => .error (.template fault) workspace

/-- The text of a fragment. -/
def render (fragment : Fragment) : Lowering String := do
  let parsed ← read fragment.template
  ask fun _ =>
    (parsed.render fragment.template.indirections fragment.bindings).mapError Error.template

/-- The text of a block, one fragment after the other, each on a line of its own. -/
def renderBlock (block : Block) : Lowering String :=
  return "\n".intercalate (← block.fragments.mapM render)

end Lowering

end TensorLowering
