import TensorLowering.References

/-! # Lifetimes

An operation allocates the buffers that it touches without being one of their users, and
frees those of which it is the last user. Targets are allocated before the references into
them. The bookkeeping can be done with or without code for it.
-/

namespace TensorLowering

/-- The code for the lifetime of a buffer: allocation, release, the declaration of a
reference, and the comment on the bytes in use. -/
structure LifetimeTemplates where
  alloc : Template := { source := "${type}* ${name} = (${type}*)dlc_malloc_${level}(${size});" }
  dealloc : Template := { source := "dlc_free_${level}(${name});" }
  reference : Template :=
    { source := "${type}* ${name} = (${type}*)((char*)${reference} + ${offset});" }
  usage : Template := { source := "/* ${operation}: ${level} ${bytes} bytes live */" }
  deriving DecidableEq, Inhabited

/-- A number read as a signed word of 64 bits. -/
def signedWord (number : Nat) : Int := Int.bmod number (Nat.pow 2 64)

/-- A size as a binding. Sizes are written as signed words. -/
def Binding.ofSize (size : Nat) : Binding := .int (signedWord size)

namespace LifetimeTemplates

/-- The bindings that describe a buffer. -/
def bindings (types : Registry) (buffer : Buffer) : Except Error Bindings := do
  let typeName ← types.typeName buffer.type
  let view := match buffer.kind with
    | .reference target offset =>
        [("reference", Binding.name target), ("offset", Binding.ofSize offset)]
    | _ => []
  return .ofList <|
    [("name", .name buffer.name), ("type", .code typeName), ("size", .ofSize buffer.size),
      ("level", .code buffer.levelKey)] ++ view

/-- The code that makes a buffer: an allocation, or the declaration of a reference. -/
def allocation (templates : LifetimeTemplates) (types : Registry) (buffer : Buffer) :
    Except Error Fragment := do
  let template := if buffer.isReference then templates.reference else templates.alloc
  return { template, bindings := ← bindings types buffer }

/-- The code that frees a buffer. -/
def release (templates : LifetimeTemplates) (types : Registry) (buffer : Buffer) :
    Except Error Fragment := do
  return { template := templates.dealloc, bindings := ← bindings types buffer }

/-- The comment on the bytes in use in a level. -/
def comment (templates : LifetimeTemplates) (operation level : String) (bytes : Nat) :
    Fragment where
  template := templates.usage
  bindings := .ofList
    [("operation", .code operation), ("level", .code level), ("bytes", .ofSize bytes)]

end LifetimeTemplates

/-- What an operation does with the buffers that it touches. -/
structure Lifetimes where
  allocated : List String := []
  inputs : List String := []
  transients : List String := []
  deriving DecidableEq, Inhabited

namespace Lifetimes

/-- Whether an operation allocates a buffer. -/
def begins (operation : String) (buffer : Buffer) : Bool :=
  !buffer.isStruct && !buffer.isUser operation

/-- Whether an operation frees a buffer that others have made. -/
def endsInput (operation : String) (buffer : Buffer) : Bool :=
  !buffer.isStruct && !buffer.isTransient && buffer.isUser operation &&
    buffer.isLastUser operation

/-- Whether an operation frees scratch storage. -/
def endsTransient (operation : String) (buffer : Buffer) : Bool :=
  buffer.isTransient && (buffer.users.isEmpty || buffer.isLastUser operation)

/-- What an operation does with each of its references. -/
def classify (operation : String) (buffers : List Buffer) : Lifetimes where
  allocated := (buffers.filter (begins operation)).map Buffer.name
  inputs := (buffers.filter (endsInput operation)).map Buffer.name
  transients := (buffers.filter (endsTransient operation)).map Buffer.name

/-- The buffers to free, inputs first. -/
def freed (lifetimes : Lifetimes) : List String := lifetimes.inputs ++ lifetimes.transients

end Lifetimes

/-- The lifetimes of an operation while its code runs: what it has allocated, targets
before references, what it will free, and the code of the allocations. -/
structure OpenLifetimes where
  allocated : List String
  freed : List String
  code : List Fragment
  deriving DecidableEq, Inhabited

namespace Lowering

/-- The code for a buffer, if code is wanted. -/
def lifetimeCode (templates : Option LifetimeTemplates)
    (code : LifetimeTemplates → Registry → Buffer → Except Error Fragment) (name : String) :
    Lowering (List Fragment) := do
  let buffer ← lookup name
  match templates with
  | none => return []
  | some templates => return [← askTypes (code templates · buffer)]

/-- Allocate buffers, the last one first. The code is in the order of the names. -/
def allocateAll (templates : Option LifetimeTemplates) (operation : String) :
    List String → Lowering (List Fragment)
  | [] => return []
  | name :: names => do
      let later ← allocateAll templates operation names
      allocate name operation
      return (← lifetimeCode templates LifetimeTemplates.allocation name) ++ later

/-- The code for a list of owners whose storage was returned. -/
def releaseCode (templates : Option LifetimeTemplates) :
    List String → Lowering (List Fragment)
  | [] => return []
  | owner :: owners => do
      let code ← lifetimeCode templates LifetimeTemplates.release owner
      return code ++ (← releaseCode templates owners)

/-- Free buffers in order: the owners whose storage this returned, and the code. -/
def deallocateAll (templates : Option LifetimeTemplates) (operation : String) :
    List String → Lowering (List String × List Fragment)
  | [] => return ([], [])
  | name :: names => do
      let owners ← deallocate name operation
      let code ← releaseCode templates owners
      let (laterOwners, laterCode) ← deallocateAll templates operation names
      return (owners ++ laterOwners, code ++ laterCode)

/-- The levels of buffers. -/
def levelsOf (names : List String) : Lowering NameSet :=
  ask fun context => return .ofList <|
    (names.filterMap context.find?).map fun buffer => (buffer.levelKey, ())

/-- Comments on the bytes in use in each level. -/
def usageComments (templates : LifetimeTemplates) (operation : String) (levels : NameSet) :
    Lowering (List Fragment) :=
  ask fun context => .ok <| levels.keys.map fun level =>
    templates.comment operation level (context.inUse level)

/-- Allocate what an operation makes. -/
def beginLifetimes (templates : Option LifetimeTemplates) (block : Block) (operation : String) :
    Lowering OpenLifetimes := do
  let names ← references block .unrolled
  let buffers ← names.mapM lookup
  let lifetimes := Lifetimes.classify operation buffers
  let allocated ← ask (·.sortByTargets lifetimes.allocated)
  let code ← allocateAll templates operation allocated
  return { allocated, freed := lifetimes.freed, code }

/-- Free what an operation uses up, and comment on the levels concerned if asked for; the
code after the operation. -/
def endLifetimes (templates : Option LifetimeTemplates) (annotate : Bool) (operation : String)
    (opened : OpenLifetimes) : Lowering (List Fragment) := do
  let (owners, code) ← deallocateAll templates operation opened.freed
  match templates, annotate with
  | some templates, true =>
      let levels ← levelsOf (opened.allocated ++ owners)
      return code ++ (← usageComments templates operation levels)
  | _, _ => return code

/-- Allocate what an operation makes before its code and free what it uses up after it;
without templates only the books are kept. With `annotate` the bytes in use in the levels
concerned are noted after the code. -/
def manageLifetimes (templates : Option LifetimeTemplates) (annotate : Bool) (block : Block)
    (operation : String) : Lowering Block := do
  let opened ← beginLifetimes templates block operation
  let after ← endLifetimes templates annotate operation opened
  return (block.prepend opened.code).append after

end Lowering

end TensorLowering
