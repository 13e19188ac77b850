import TensorLowering.Pass.Lifetimes

/-! # Tile views

The kernel of a tiled operation works on tiles in the arena of a level. Tiled tensors and
the scratch storage of the level are rebound to views into the arena, and scalars that
change from tile to tile are read through a pointer into a table. What later passes need is
left in the record of the block.
-/

namespace TensorLowering

/-- The kernel fragment of a block while it is being tiled, with the record so far. -/
structure TileDraft where
  fragment : Fragment
  record : TileRecord
  deriving DecidableEq, Inhabited

namespace TileDraft

/-- Bind a key to a view and note the declaration of the view. -/
def rebind (draft : TileDraft) (key view : String) (declaration : Fragment) : TileDraft where
  fragment :=
    { draft.fragment with bindings := draft.fragment.bindings.insert key (.name view) }
  record :=
    { draft.record with declarations := draft.record.declarations ++ [declaration] }

/-- Note a tiled tensor. -/
def noteTensor (draft : TileDraft) (tensor : TiledTensor) : TileDraft :=
  { draft with record := { draft.record with tiled := draft.record.tiled ++ [tensor] } }

/-- Note a reference that steps through a table. -/
def noteReplacement (draft : TileDraft) (view table : String) : TileDraft :=
  { draft with
    record := { draft.record with replacements := draft.record.replacements ++ [(view, table)] } }

end TileDraft

namespace Tiling

/-- Refuse lists that do not have an entry for every tile. -/
def checkCounts (tiling : Tiling) (operation : String) : Except Error Unit :=
  tiling.counts.forM fun (key, count) =>
    if count = tiling.tileCount then .ok ()
    else .error (.tileCount operation key tiling.tileCount count)

/-- The bytes that the arena of a level has to provide. -/
def extent (tiling : Tiling) (operation level : String) : Except Error Nat :=
  match tiling.constraint.arenaExtent? level with
  | some extent => .ok extent
  | none => .error (.tiling operation (.rangeOverflow level))

/-- The range of a buffer in a level, which has to be given. -/
def range (tiling : Tiling) (buffer level : String) : Except Error AddressRange :=
  match tiling.constraint.range? buffer level with
  | some range => .ok range
  | none => .error (.missingRange buffer level)

end Tiling

/-- The definition of a table. -/
def tableCode (types : Registry) (name : String) (type : TypeId) (length : Nat)
    (value : TypedValue) : Except Error String := do
  return "static const " ++ (← types.typeName type) ++ " " ++ name ++ "[" ++ toString length ++
    "] = " ++ value.value.text ++ ";"

namespace Lowering

/-- The arena of a level with at least the given size. -/
def ensureArena (level : String) (extent : Nat) : Lowering String := do
  let name ← mangle (level ++ "_arena")
  if ← isBuffer name then
    modifyBuffer name fun arena => { arena with size := max arena.size extent }
  else
    let byte ← intern (·.int 8 false)
    add { name, type := byte, size := extent, level := some level, deploy := false } .globals
  return name

/-- Occupy bytes of a level for the time of one operation. -/
def occupy (level : String) (bytes : Nat) : Lowering Unit :=
  change fun context => ((), (context.reserve level bytes).release level bytes)

/-- Make a name a view; a buffer that had the name is removed. -/
def bindView (name : String) (type : TypeId) (target : String) (offset : Nat) (level : String) :
    Lowering Unit := do
  discardBuffer name
  add { Buffer.ofReference name type target offset with level := some level, deploy := false }
    .locals

/-- Register and hoist a table of numbers. -/
def hoistTable (name : String) (type : TypeId) (values : List Int) (level : String) :
    Lowering Unit := do
  let value ← askTypes (·.make type (.array (values.map .int)))
  let code ← askTypes (tableCode · name type values.length value)
  if !(← isBuffer name) then
    let size ← askTypes (·.sizeBytes type)
    add { Buffer.ofConstant name value (size * values.length) with level := some level } .globals
  hoist name code

/-- The declaration of a view. -/
def viewDeclaration (name : String) : Lowering Fragment := do
  let buffer ← lookup name
  let templates : LifetimeTemplates := {}
  return {
    template := templates.reference
    bindings := ← askTypes (LifetimeTemplates.bindings · buffer) }

/-- The buffer that a tiled key is bound to. -/
def tiledBuffer (operation : String) (fragment : Fragment) (key : String) : Lowering String :=
  match (fragment.bindings.find? key).bind Binding.name? with
  | some name => return name
  | none => throw (.tiling operation (.notABuffer key))

/-- Rebind a tiled tensor to a view that holds its current tile, with a table of the offsets
of its tiles. -/
def tileTensor (tiling : Tiling) (operation level arena : String) (draft : TileDraft)
    (entry : String × List Nat × Direction) : Lowering TileDraft := do
  let (key, offsets, direction) := entry
  let external ← tiledBuffer operation draft.fragment key
  let root ← ask (·.resolveRoot external)
  let range ← ask fun _ => tiling.range root level
  let type := (← lookup root).type
  let view ← mangle (operation ++ "." ++ key ++ "." ++ level)
  bindView view type arena range.offset level
  let table ← mangle (operation ++ "/" ++ key ++ "/offsets")
  let word ← intern (·.int 32 false)
  hoistTable table word (offsets.map signedWord) level
  let declaration ← viewDeclaration view
  return (draft.rebind key view declaration).noteTensor
    { direction, external, view, offsets := table, bytes := range.length }

/-- Whether a name denotes scratch storage of a level. -/
def isLevelTransient (context : Context) (level name : String) : Bool :=
  match context.find? name with
  | some buffer => buffer.isTransient && buffer.level = some level
  | none => false

/-- The keys bound to scratch storage of a level. -/
def levelTransients (context : Context) (level : String) (bindings : Bindings) :
    List (String × String) :=
  bindings.entries.filterMap fun (key, binding) =>
    match binding.name? with
    | some name => if isLevelTransient context level name then some (key, name) else none
    | none => none

/-- Rebind scratch storage to a view of its range in the arena. -/
def placeTransient (tiling : Tiling) (operation level arena : String) (draft : TileDraft)
    (entry : String × String) : Lowering TileDraft := do
  let (key, name) := entry
  let range ← ask fun _ => tiling.range name level
  let type := (← lookup name).type
  let view ← mangle (operation ++ ":" ++ name ++ ":" ++ level)
  bindView view type arena range.offset level
  return draft.rebind key view (← viewDeclaration view)

/-- The element type of the table of a scalar. -/
def scalarType (tiling : Tiling) (key : String) : Lowering TypeId :=
  match tiling.scheme.types.find? key with
  | some type => return type
  | none => intern (·.int 32 true)

/-- Rebind a scalar to a pointer into the table of its values. -/
def tileScalar (tiling : Tiling) (operation level : String) (draft : TileDraft)
    (entry : String × List Int) : Lowering TileDraft := do
  let (key, values) := entry
  let type ← scalarType tiling key
  let table ← mangle (operation ++ "/" ++ key ++ "/tiles")
  hoistTable table type values level
  let view ← mangle (operation ++ "/" ++ key ++ "/ref")
  bindView view type table 0 level
  let declaration ← viewDeclaration view
  return (draft.rebind key view declaration).noteReplacement view table

/-- Tile the kernel fragment of a block. -/
def tileKernel (tiling : Tiling) (level operation : String) (kernel : Fragment) :
    Lowering TileDraft := do
  ask fun _ => tiling.checkCounts operation
  let extent ← ask fun _ => tiling.extent operation level
  let arena ← ensureArena level extent
  occupy level extent
  let loopVariable ← mangle (operation ++ "_tile")
  let draft : TileDraft :=
    ⟨{ kernel with tiling := none }, { level, loopVariable, tileCount := tiling.tileCount }⟩
  let draft ← tiling.schedule.tensors.foldlM (tileTensor tiling operation level arena) draft
  let transients ← ask fun context => .ok (levelTransients context level draft.fragment.bindings)
  let draft ← transients.foldlM (placeTransient tiling operation level arena) draft
  let draft ← tiling.scheme.perTile.entries.foldlM (tileScalar tiling operation level) draft
  let template := draft.fragment.template.dereference tiling.scheme.perTile.keys
  return { draft with fragment := { draft.fragment with template } }

/-- Tile the first fragment that has a tiling. -/
def tileFirst (level operation : String) :
    List Fragment → Lowering (List Fragment × Option TileRecord)
  | [] => return ([], none)
  | fragment :: fragments =>
      match fragment.tiling with
      | some tiling => do
          let draft ← tileKernel tiling level operation fragment
          return (draft.fragment :: fragments, some draft.record)
      | none => do
          let (fragments, record) ← tileFirst level operation fragments
          return (fragment :: fragments, record)

/-- Tile the kernel of a block, if it has a tiling; only one fragment may have one. -/
def makeTileViews (level : String) (block : Block) (operation : String) : Lowering Block := do
  let count := (block.fragments.filter (·.tiling.isSome)).length
  if 1 < count then throw (.ambiguousTiling operation count)
  let (fragments, record) ← tileFirst level operation block.fragments
  return { block with fragments, record := record.or block.record }

end Lowering

end TensorLowering
