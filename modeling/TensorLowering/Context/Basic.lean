import TensorLowering.Types.Check

/-! # Contexts

A context is what all passes share: the type registry, the buffers of both scopes in
the order they were added, the arena counters of the memory levels, the names given
out, and the code hoisted to the top level. A name denotes its local buffer, or its
global one if there is no local. A loaded table may hold a name twice; then the last
entry is the one that the name denotes.
-/

namespace TensorLowering

/-- The buffers of one scope, in the order they were added. -/
structure BufferTable where
  entries : List Buffer := []
  deriving DecidableEq, Inhabited

namespace BufferTable

/-- The last entry of a name. -/
def findIn (name : String) : List Buffer → Option Buffer
  | [] => none
  | buffer :: rest =>
      match findIn name rest with
      | some found => some found
      | none => if buffer.name = name then some buffer else none

/-- Change the last entry of a name. -/
def modifyIn (name : String) (change : Buffer → Buffer) : List Buffer → List Buffer
  | [] => []
  | buffer :: rest =>
      if (findIn name rest).isSome then buffer :: modifyIn name change rest
      else if buffer.name = name then change buffer :: rest
      else buffer :: rest

/-- Drop the last entry of a name. -/
def eraseIn (name : String) : List Buffer → List Buffer
  | [] => []
  | buffer :: rest =>
      if (findIn name rest).isSome then buffer :: eraseIn name rest
      else if buffer.name = name then rest
      else buffer :: rest

/-- The buffer that a name denotes. -/
def find? (table : BufferTable) (name : String) : Option Buffer := findIn name table.entries

/-- Whether a name denotes a buffer. -/
def contains (table : BufferTable) (name : String) : Bool := (table.find? name).isSome

/-- Change the buffer that a name denotes. -/
def modify (table : BufferTable) (name : String) (change : Buffer → Buffer) : BufferTable :=
  ⟨modifyIn name change table.entries⟩

/-- Add a buffer at the end. -/
def push (table : BufferTable) (buffer : Buffer) : BufferTable := ⟨table.entries ++ [buffer]⟩

/-- Drop the buffer that a name denotes. -/
def erase (table : BufferTable) (name : String) : BufferTable := ⟨eraseIn name table.entries⟩

/-- The names of all entries. -/
def names (table : BufferTable) : List String := table.entries.map Buffer.name

/-! ### Tables through look-up -/

theorem findIn_append (name : String) (first second : List Buffer) :
    findIn name (first ++ second) = (findIn name second).or (findIn name first) := by
  induction first with
  | nil => simp [findIn]
  | cons buffer rest ih =>
      simp only [List.cons_append, findIn, ih]
      cases findIn name second <;> simp

theorem name_of_findIn {name : String} {entries : List Buffer} {found : Buffer}
    (present : findIn name entries = some found) : found.name = name := by
  induction entries with
  | nil => simp [findIn] at present
  | cons buffer rest ih => grind [findIn]

theorem mem_of_findIn {name : String} {entries : List Buffer} {found : Buffer}
    (present : findIn name entries = some found) : found ∈ entries := by
  induction entries with
  | nil => simp [findIn] at present
  | cons buffer rest ih => grind [findIn]

theorem findIn_isSome_iff {name : String} {entries : List Buffer} :
    (findIn name entries).isSome = true ↔ name ∈ entries.map Buffer.name := by
  induction entries with
  | nil => simp [findIn]
  | cons buffer rest ih => grind [findIn]

theorem findIn_modifyIn {name other : String} {change : Buffer → Buffer}
    (keepsName : ∀ buffer, (change buffer).name = buffer.name) (entries : List Buffer) :
    findIn other (modifyIn name change entries) =
      if other = name then (findIn name entries).map change else findIn other entries := by
  induction entries with
  | nil => simp [modifyIn, findIn]
  | cons buffer rest ih => grind [findIn, modifyIn]

theorem map_name_modifyIn {name : String} {change : Buffer → Buffer}
    (keepsName : ∀ buffer, (change buffer).name = buffer.name) (entries : List Buffer) :
    (modifyIn name change entries).map Buffer.name = entries.map Buffer.name := by
  induction entries with
  | nil => rfl
  | cons buffer rest ih => grind [modifyIn]

theorem eraseIn_sublist (name : String) (entries : List Buffer) :
    (eraseIn name entries).Sublist entries := by
  induction entries with
  | nil => simp [eraseIn]
  | cons buffer rest ih => grind [eraseIn]

theorem findIn_eraseIn_of_ne {name other : String} (different : other ≠ name)
    (entries : List Buffer) : findIn other (eraseIn name entries) = findIn other entries := by
  induction entries with
  | nil => rfl
  | cons buffer rest ih => grind [findIn, eraseIn]

/-- Changing a buffer under its name changes the look-up of that name only. -/
theorem find?_modify {name other : String} {change : Buffer → Buffer}
    (keepsName : ∀ buffer, (change buffer).name = buffer.name) (table : BufferTable) :
    (table.modify name change).find? other =
      if other = name then (table.find? name).map change else table.find? other :=
  findIn_modifyIn keepsName table.entries

/-- A new entry is what its name denotes. -/
theorem find?_push (table : BufferTable) (buffer : Buffer) (name : String) :
    (table.push buffer).find? name =
      if buffer.name = name then some buffer else table.find? name := by
  simp only [push, find?, findIn_append, findIn]
  split <;> simp

/-- Dropping an entry leaves the look-up of other names alone. -/
theorem find?_erase_of_ne {name other : String} (different : other ≠ name)
    (table : BufferTable) : (table.erase name).find? other = table.find? other :=
  findIn_eraseIn_of_ne different table.entries

theorem contains_iff (table : BufferTable) (name : String) :
    table.contains name = true ↔ name ∈ table.names :=
  findIn_isSome_iff

end BufferTable

/-- Code hoisted to the top level under a name. -/
structure Definition where
  name : String
  code : String
  deriving DecidableEq, Inhabited

/-- The state that all passes share. `pendingRelease` holds the buffers that were freed
while an alias was live, `overflowed` says whether an arena counter has wrapped around, and
`mangled` holds the identifiers given to logical names. -/
structure Context where
  types : Registry := {}
  globals : BufferTable := {}
  locals : BufferTable := {}
  dynamicSize : Dict Nat := .empty
  maxDynamicSize : Dict Nat := .empty
  pendingRelease : NameSet := .empty
  overflowed : Bool := false
  namePrefix : String := ""
  mangled : Dict String := .empty
  definitions : List Definition := []
  deriving DecidableEq, Inhabited

/-- Whether a character may stand in an identifier. -/
def isIdentifierChar (char : Char) : Bool := char.isAlphanum || char = '_'

/-- Whether a name can stand in C code as it is. -/
def isIdentifier (name : String) : Bool :=
  match name.toList with
  | [] => false
  | head :: rest => isIdentifierChar head && !head.isDigit && rest.all isIdentifierChar

/-- Refuse a name that is not an identifier. -/
def checkIdentifier (name : String) : Except Error Unit :=
  if isIdentifier name then .ok () else .error (.invalidIdentifier name)

namespace Context

/-! ### Looking up -/

/-- The buffer that a name denotes. -/
def find? (context : Context) (name : String) : Option Buffer :=
  match context.locals.find? name with
  | some buffer => some buffer
  | none => context.globals.find? name

/-- The buffer that a name denotes, which has to exist. -/
def lookup (context : Context) (name : String) : Except Error Buffer :=
  match context.find? name with
  | some buffer => .ok buffer
  | none => .error (.unknownBuffer name)

/-- Whether a name denotes a local buffer. -/
def isLocal (context : Context) (name : String) : Bool := context.locals.contains name

/-- Whether a global buffer has a name. -/
def isGlobal (context : Context) (name : String) : Bool := context.globals.contains name

/-- Whether a name denotes a buffer. -/
def isBuffer (context : Context) (name : String) : Bool :=
  context.isLocal name || context.isGlobal name

/-- The scope of the buffer that a name denotes. -/
def scopeOf? (context : Context) (name : String) : Option Scope :=
  if context.isLocal name then some .locals
  else if context.isGlobal name then some .globals
  else none

/-- The buffers of a scope. -/
def table (context : Context) : Scope → BufferTable
  | .locals => context.locals
  | .globals => context.globals

/-- The names of all buffers, local ones first. -/
def names (context : Context) : List String := context.locals.names ++ context.globals.names

/-! ### Changing buffers -/

/-- Change the buffer that a name denotes, if there is one. -/
def modify (context : Context) (name : String) (change : Buffer → Buffer) : Context :=
  if context.isLocal name then { context with locals := context.locals.modify name change }
  else { context with globals := context.globals.modify name change }

/-- Put a buffer at the end of a scope. -/
def push (context : Context) (buffer : Buffer) : Scope → Context
  | .locals => { context with locals := context.locals.push buffer }
  | .globals => { context with globals := context.globals.push buffer }

/-- Register a buffer. Its name must be an identifier that is new in the scope, and the
target of a reference must exist; it gets the reference as an alias. -/
def add (context : Context) (buffer : Buffer) (scope : Scope) : Except Error Context := do
  checkIdentifier buffer.name
  if (context.table scope).contains buffer.name then
    throw (.duplicateBuffer buffer.name scope)
  match buffer.target? with
  | none => return context.push buffer scope
  | some target =>
      if context.isBuffer target then
        return (context.modify target (·.addAlias buffer.name)).push buffer scope
      else throw (.unknownBuffer target)

/-- Drop the buffer that a name denotes. -/
def drop (context : Context) (name : String) : Context :=
  if context.isLocal name then { context with locals := context.locals.erase name }
  else { context with globals := context.globals.erase name }

/-- Remove a buffer; the target of a reference loses it as an alias. -/
def remove (context : Context) (name : String) : Except Error (Buffer × Context) := do
  let buffer ← context.lookup name
  let rest := context.drop name
  match buffer.target? with
  | none => return (buffer, rest)
  | some target => return (buffer, rest.modify target (·.dropAlias name))

/-! ### Loaded contexts -/

/-- Refuse malformed types and names that are not identifiers. -/
def validate (context : Context) : Except Error Unit := do
  context.types.validate
  (context.globals.names ++ context.locals.names).forM checkIdentifier

/-- Enter every reference as an alias of its target, if the target exists. -/
def linkAliases (context : Context) : Context :=
  (context.globals.entries ++ context.locals.entries).foldl (fun context buffer =>
    match buffer.target? with
    | some target => context.modify target (·.addAlias buffer.name)
    | none => context) context

/-! ### Contexts through look-up -/

/-- Changing a buffer under its name changes the look-up of that name only. -/
theorem find?_modify (context : Context) {name other : String} {change : Buffer → Buffer}
    (keepsName : ∀ buffer, (change buffer).name = buffer.name) :
    (context.modify name change).find? other =
      if other = name then (context.find? name).map change else context.find? other := by
  by_cases same : other = name <;> cases held : context.locals.find? name <;>
    simp [modify, isLocal, BufferTable.contains, find?, held,
      BufferTable.find?_modify keepsName, same]

theorem isBuffer_iff (context : Context) (name : String) :
    context.isBuffer name = true ↔ (context.find? name).isSome = true := by
  simp only [isBuffer, isLocal, isGlobal, BufferTable.contains, find?]
  cases context.locals.find? name <;> simp

theorem isBuffer_eq_false_iff {context : Context} {name : String} :
    context.isBuffer name = false ↔ context.find? name = none := by
  rw [← Bool.not_eq_true, isBuffer_iff, Option.not_isSome_iff_eq_none]

theorem isBuffer_iff_mem (context : Context) (name : String) :
    context.isBuffer name = true ↔ name ∈ context.names := by
  simp [isBuffer, isLocal, isGlobal, BufferTable.contains_iff, names]

theorem find?_eq_none_iff {context : Context} {name : String} :
    context.find? name = none ↔ name ∉ context.names := by
  rw [← isBuffer_eq_false_iff, ← Bool.not_eq_true, isBuffer_iff_mem]

theorem mem_names_of_find? {context : Context} {name : String} {buffer : Buffer}
    (found : context.find? name = some buffer) : name ∈ context.names := by
  rw [← isBuffer_iff_mem, isBuffer_iff, found]
  rfl

end Context

end TensorLowering
