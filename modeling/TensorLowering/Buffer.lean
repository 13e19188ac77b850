import TensorLowering.Types.Value

/-! # Buffers

A buffer is a named storage cell. Its kind decides how it is managed: tensors and
transients are allocated and freed, constants are defined once, structs are
initialised where they are used, and references are views into another buffer
without storage of their own.
-/

namespace TensorLowering

/-- The two partitions of buffer names; a local name hides a global one. -/
inductive Scope where
  | locals
  | globals
  deriving DecidableEq, Repr, Inhabited

/-- The word for a scope. -/
def Scope.label : Scope → String
  | .locals => "local"
  | .globals => "global"

/-- What a buffer is for. A transient is scratch storage for the operations that use
it; a reference views `target` at a byte offset. -/
inductive BufferKind where
  | tensor
  | constant (value : TypedValue)
  | transient
  | struct (value : TypedValue)
  | reference (target : String) (offset : Nat)
  deriving DecidableEq, Inhabited

/-- The word for a kind. -/
def BufferKind.label : BufferKind → String
  | .tensor => "variable"
  | .constant _ => "constant"
  | .transient => "transient"
  | .struct _ => "struct"
  | .reference _ _ => "reference"

/-- A buffer. `users` are the operations that read it, in schedule order; `aliases` are
the references into it; `state` names the buffer that tracks a future; a buffer that is
not deployed is placed statically, outside the allocation of storage. -/
structure Buffer where
  name : String
  type : TypeId
  size : Nat := 0
  level : Option String := none
  live : Bool := false
  deploy : Bool := true
  users : List String := []
  aliases : List String := []
  state : Option String := none
  kind : BufferKind := .tensor
  deriving DecidableEq, Inhabited

namespace Buffer

/-- The level of buffers without one. -/
def defaultLevel : String := "default"

/-- The level whose arena holds a buffer. -/
def levelKey (buffer : Buffer) : String := buffer.level.getD defaultLevel

/-- A constant; it is placed statically. -/
def ofConstant (name : String) (value : TypedValue) (size : Nat) : Buffer :=
  { name, type := value.type, size, deploy := false, kind := .constant value }

/-- A buffer that holds a struct. -/
def ofStruct (name : String) (value : TypedValue) (size : Nat) : Buffer :=
  { name, type := value.type, size, kind := .struct value }

/-- A view into another buffer. -/
def ofReference (name : String) (type : TypeId) (target : String) (offset : Nat) : Buffer :=
  { name, type, kind := .reference target offset }

/-- Whether a buffer is scratch storage. -/
def isTransient (buffer : Buffer) : Bool :=
  match buffer.kind with
  | .transient => true
  | _ => false

/-- Whether a buffer holds a struct. -/
def isStruct (buffer : Buffer) : Bool :=
  match buffer.kind with
  | .struct _ => true
  | _ => false

/-- Whether a buffer is a view. -/
def isReference (buffer : Buffer) : Bool :=
  match buffer.kind with
  | .reference _ _ => true
  | _ => false

/-- Whether a buffer is general storage. -/
def isTensor (buffer : Buffer) : Bool :=
  match buffer.kind with
  | .tensor => true
  | _ => false

/-- The buffer that a reference views. -/
def target? (buffer : Buffer) : Option String :=
  match buffer.kind with
  | .reference target _ => some target
  | _ => none

/-- The bytes that a buffer takes in its arena; views and structs take none. -/
def footprint (buffer : Buffer) : Nat :=
  match buffer.kind with
  | .reference _ _ => 0
  | .struct _ => 0
  | _ => buffer.size

/-- Whether an operation reads a buffer. -/
def isUser (buffer : Buffer) (operation : String) : Bool := buffer.users.contains operation

/-- Whether an operation is the last to read a buffer. -/
def isLastUser (buffer : Buffer) (operation : String) : Bool :=
  buffer.users.getLast? = some operation

/-- The buffer with another name among its aliases, unless it is there. -/
def addAlias (buffer : Buffer) (name : String) : Buffer :=
  if buffer.aliases.contains name then buffer
  else { buffer with aliases := buffer.aliases ++ [name] }

/-- The buffer without a name among its aliases. -/
def dropAlias (buffer : Buffer) (name : String) : Buffer :=
  { buffer with aliases := buffer.aliases.filter (· ≠ name) }

/-- The buffer with another operation among its users, unless it is there. -/
def addUser (buffer : Buffer) (operation : String) : Buffer :=
  if buffer.isUser operation then buffer
  else { buffer with users := buffer.users ++ [operation] }

end Buffer

end TensorLowering
