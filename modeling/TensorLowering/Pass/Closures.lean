import TensorLowering.Pass.Lifetimes

/-! # Closures

The code of an operation becomes the body of a function with one argument, a struct of
pointers to the buffers that the code touches. Struct type, struct buffer and function are
registered once, and the operation becomes a call. With a window of levels, buffers outside
it are not passed: they live in the body.
-/

namespace TensorLowering

/-- The code of a closure: the struct of its arguments, the function, the call, and the
copy of an argument back to its buffer. -/
structure ClosureTemplates where
  struct : Template := { source := "typedef struct \x7b\n${fields}\n\x7d ${args_type};" }
  function : Template :=
    { source := "static void ${name}(void* closure_args) \x7b\n" ++
        "    ${args_type}* args = (${args_type}*)closure_args;\n${body}\n\x7d" }
  call : Template := { source := "${name}(&${args});" }
  writeBack : Template := { source := "${variable} = ${args}.${field};" }
  deriving DecidableEq, Inhabited

/-- A window of memory levels. -/
structure LevelWindow where
  start : String
  stop : String
  deriving DecidableEq, Repr, Inhabited

/-- Whether buffers of a level are passed to a closure: all but those of the last level. -/
def LevelWindow.admits (window : LevelWindow) : Option String → Bool
  | none => true
  | some level => level = window.start || level ≠ window.stop

/-- How closures are made. -/
structure ClosureOptions where
  writeBack : Bool := false
  window : Option LevelWindow := none
  templates : ClosureTemplates := {}
  memory : LifetimeTemplates := {}
  deriving DecidableEq, Inhabited

/-- Whether a buffer is passed to a closure. -/
def ClosureOptions.admits (options : ClosureOptions) (buffer : Buffer) : Bool :=
  match options.window with
  | none => true
  | some window => window.admits buffer.level

/-- An argument of a closure; an opaque one has no element type. -/
structure ClosureField where
  name : String
  type : TypeId
  isOpaque : Bool
  deriving DecidableEq, Inhabited

/-- The names that belong to a closure. -/
structure ClosureNames where
  closure : String
  deriving DecidableEq, Inhabited

namespace ClosureNames

/-- The name of the struct type. -/
def argsType (names : ClosureNames) : String := names.closure ++ "_args_t"

/-- The name of the struct buffer. -/
def args (names : ClosureNames) : String := names.closure ++ "_args"

end ClosureNames

namespace Lowering

/-- The arguments for buffers: pointers to their types, or to nothing for scratch
storage. -/
def closureFields (void : TypeId) : List Buffer → Lowering (List ClosureField)
  | [] => return []
  | buffer :: buffers => do
      let pointee := if buffer.isTransient then void else buffer.type
      let type ← intern (·.pointerTo pointee)
      return ⟨buffer.name, type, buffer.isTransient⟩ :: (← closureFields void buffers)

/-- Register the struct buffer of a closure, unless it is there with the same value. -/
def registerArgs (names : ClosureNames) (fields : List ClosureField) : Lowering Unit := do
  let structType ← internChecked
    (·.struct names.argsType (fields.map fun field => (field.name, field.type)))
  let value ← askTypes (·.make structType
    (.ofFields (fields.map fun field => (field.name, .pointer (some field.name)))))
  let size ← askTypes (·.sizeBytes structType)
  let registered ← ask fun context => .ok (context.find? names.args)
  if registered.map Buffer.kind ≠ some (.struct value) then
    discardBuffer names.args
    add (.ofStruct names.args value size) .locals

/-- The lines that declare the fields of the struct. -/
def fieldDeclarations (types : Registry) (fields : List ClosureField) :
    Except Error (List String) :=
  fields.mapM fun field =>
    return "    " ++ (← types.typeName field.type) ++ " " ++ field.name ++ ";"

/-- The lines that take the arguments out of the struct. -/
def fieldLoads (types : Registry) (fields : List ClosureField) : Except Error (List String) :=
  fields.mapM fun field =>
    return "    " ++ (← types.typeName field.type) ++ " " ++ field.name ++ " = args->" ++
      field.name ++ ";"

/-- Allocate buffers that live in the body, in order, with the text of the code. -/
def allocateInside (templates : LifetimeTemplates) (operation : String) :
    List String → Lowering (List String)
  | [] => return []
  | name :: names => do
      allocate name operation
      let buffer ← lookup name
      let text ← render (← askTypes (templates.allocation · buffer))
      return text :: (← allocateInside templates operation names)

/-- The texts of the code that returns the storage of owners. -/
def renderReleases (templates : LifetimeTemplates) : List String → Lowering (List String)
  | [] => return []
  | owner :: owners => do
      let buffer ← lookup owner
      let text ← render (← askTypes (templates.release · buffer))
      return text :: (← renderReleases templates owners)

/-- Free buffers that live in the body, in order, with the text of the code. -/
def deallocateInside (templates : LifetimeTemplates) (operation : String) :
    List String → Lowering (List String)
  | [] => return []
  | name :: names => do
      let owners ← deallocate name operation
      let texts ← renderReleases templates owners
      return texts ++ (← deallocateInside templates operation names)

/-- Give storage to buffers for the time of the body; the texts before and after its code. -/
def liveInside (templates : LifetimeTemplates) (operation : String) (names : List String) :
    Lowering (List String × List String) := do
  let ordered ← ask (·.sortByTargets names)
  let before ← allocateInside templates operation ordered
  let after ← deallocateInside templates operation ordered.reverse
  return (before, after)

/-- Hoist the struct type and the function of a closure. -/
def hoistClosure (templates : ClosureTemplates) (names : ClosureNames)
    (declarations body : List String) : Lowering Unit := do
  let structText ← render {
    template := templates.struct
    bindings := .ofList
      [("fields", .code ("\n".intercalate declarations)), ("args_type", .code names.argsType)] }
  let functionText ← render {
    template := templates.function
    bindings := .ofList
      [("name", .code names.closure), ("args_type", .code names.argsType),
        ("body", .code ("\n".intercalate body))] }
  hoist names.argsType structText
  hoist names.closure functionText

/-- The call of a closure. -/
def closureCall (templates : ClosureTemplates) (names : ClosureNames) : Fragment where
  template := templates.call
  bindings := .ofList [("name", .code names.closure), ("args", .name names.args)]

/-- The copy of an argument back to its buffer. -/
def closureWriteBack (templates : ClosureTemplates) (names : ClosureNames) (field : ClosureField) :
    Fragment where
  template := templates.writeBack
  bindings := .ofList
    [("variable", .name field.name), ("args", .name names.args), ("field", .code field.name)]

/-- Make the code of a block the body of a closure. -/
def makeClosure (options : ClosureOptions) (block : Block) (operation : String) :
    Lowering Block := do
  let code ← renderBlock block
  let references ← references block .unrolled
  let void ← intern Registry.void
  let buffers := (← references.mapM lookup).filter (!·.isStruct)
  let fields ← closureFields void (buffers.filter options.admits)
  let inside := (buffers.filter (!options.admits ·)).map Buffer.name
  let names : ClosureNames := ⟨← mangle (operation ++ "_closure")⟩
  registerArgs names fields
  let declarations ← askTypes (fieldDeclarations · fields)
  let loads ← askTypes (fieldLoads · fields)
  let (before, after) ← liveInside options.memory operation inside
  let body := loads ++ (before ++ Text.lines code ++ after).map ("    " ++ ·)
  hoistClosure options.templates names declarations body
  let returned := if options.writeBack then fields.filter (!·.isOpaque) else []
  return block.wrap.append <|
    closureCall options.templates names ::
      returned.map (closureWriteBack options.templates names)

end Lowering

end TensorLowering
