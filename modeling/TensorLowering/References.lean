import TensorLowering.Lowering

/-! # References of a block

A block touches the buffers whose names are bound to identifiers that its templates use,
and the untiled buffers behind its tiles. On request the pointers in struct buffers are
followed too. References are listed in the order of the context, locals first.
-/

namespace TensorLowering

namespace Context

/-- The buffers that a struct buffer points to directly. -/
def pointees (context : Context) (name : String) : List String :=
  match (context.find? name).map Buffer.kind with
  | some (.struct value) => value.value.pointerTargets.filter context.isBuffer
  | _ => []

/-- The pointers of all buffers. -/
def pointerGraph (context : Context) : Reach.Graph :=
  context.names.map fun name => (name, context.pointees name)

/-- The buffers that can be reached by pointers from a buffer, in the order in which they
are met. -/
def pointerClosure (context : Context) (name : String) : List String :=
  (Reach.walk context.pointerGraph [name]).flatMap context.pointees

/-- The buffers that can be reached by pointers from a name that has to denote a buffer. -/
def unroll (context : Context) (name : String) : Except Error (List String) := do
  let _ ← context.lookup name
  return context.pointerClosure name

end Context

/-- Which references to list besides local buffers that are touched directly. -/
structure ReferenceQuery where
  unrollStructs : Bool := false
  includeGlobals : Bool := false
  deriving DecidableEq, Repr, Inhabited

namespace ReferenceQuery

/-- Follow the pointers in struct buffers. -/
def unrolled : ReferenceQuery := { unrollStructs := true }

/-- Follow the pointers in struct buffers and list global buffers. -/
def everywhere : ReferenceQuery := { unrollStructs := true, includeGlobals := true }

end ReferenceQuery

namespace Context

/-- The touched names, closed under pointers if asked for. -/
def spread (context : Context) (query : ReferenceQuery) (touched : List String) : List String :=
  if query.unrollStructs then touched ++ touched.flatMap context.pointerClosure else touched

/-- Whether a global buffer is a reference: it is deployed general storage, and no local
buffer hides it. -/
def isGlobalReference (context : Context) (buffer : Buffer) : Bool :=
  buffer.deploy && buffer.isTensor && !context.isLocal buffer.name

/-- The references among touched names, in the order of the context. -/
def referencesAmong (context : Context) (query : ReferenceQuery) (touched : List String) :
    List String :=
  let touched := context.spread query touched
  let locals := context.locals.entries.filter fun buffer =>
    buffer.deploy && touched.contains buffer.name
  let globals := context.globals.entries.filter fun buffer =>
    query.includeGlobals && context.isGlobalReference buffer && touched.contains buffer.name
  (locals ++ globals).map Buffer.name

end Context

/-- The buffers named by the identifiers that a template uses. -/
def Parsed.touched (parsed : Parsed) (context : Context) (bindings : Bindings) : List String :=
  ((parsed.names bindings).filterMap fun key => (bindings.find? key).bind Binding.name?).filter
    context.isBuffer

/-- The untiled buffers of a tiled block. -/
def Block.tiledBuffers (block : Block) (context : Context) : List String :=
  match block.record with
  | some record => (record.tiled.map TiledTensor.external).filter context.isBuffer
  | none => []

namespace Lowering

/-- The buffers that a fragment touches. -/
def touched (fragment : Fragment) : Lowering (List String) := do
  let parsed ← read fragment.template
  ask fun context => .ok (parsed.touched context fragment.bindings)

/-- The references of a fragment. -/
def fragmentReferences (fragment : Fragment) (query : ReferenceQuery) : Lowering (List String) := do
  let touched ← touched fragment
  ask fun context => .ok (context.referencesAmong query touched)

/-- The references of a block. -/
def references (block : Block) (query : ReferenceQuery) : Lowering (List String) := do
  let touched := (← block.fragments.mapM touched).flatten
  ask fun context => .ok (context.referencesAmong query (touched ++ block.tiledBuffers context))

end Lowering

end TensorLowering
