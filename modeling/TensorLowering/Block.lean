import TensorLowering.Template.Basic
import TensorLowering.Tiling.Basic

/-! # Blocks of code

A block is the code of one scheduled operation: a list of fragments that passes extend at
both ends. A block may wrap another one that its code calls; the wrapped block and those
below it are kept as layers.
-/

namespace TensorLowering

/-- A template with its bindings, and the tiling of the kernel that it holds. -/
structure Fragment where
  template : Template
  bindings : Bindings := .empty
  tiling : Option Tiling := none
  deriving DecidableEq, Inhabited

/-- A fragment from source text and bindings. -/
def Fragment.ofSource (source : String) (bindings : List (String × Binding)) : Fragment where
  template := { source }
  bindings := .ofList bindings

/-- A tensor whose current tile lies in an arena: the untiled buffer, the view that holds
the tile, the table of tile offsets, and the bytes of a tile. -/
structure TiledTensor where
  direction : Direction
  external : String
  view : String
  offsets : String
  bytes : Nat
  deriving DecidableEq, Inhabited

/-- What tiling leaves for the passes after it. A replacement is a reference with the
table that it steps through; the declarations are those of all views. -/
structure TileRecord where
  level : String
  loopVariable : String
  tileCount : Nat
  replacements : List (String × String) := []
  tiled : List TiledTensor := []
  declarations : List Fragment := []
  deriving DecidableEq, Inhabited

/-- Fragments with the record of their tiling. -/
structure Layer where
  fragments : List Fragment := []
  record : Option TileRecord := none
  deriving DecidableEq, Inhabited

/-- A block of code; `bases` are the layers that it wraps, the innermost one last. -/
structure Block extends Layer where
  bases : List Layer := []
  deriving DecidableEq, Inhabited

namespace Block

/-- The block of a list of fragments. -/
def ofFragments (fragments : List Fragment) : Block := { fragments }

/-- Put fragments before the code. -/
def prepend (block : Block) (fragments : List Fragment) : Block :=
  { block with fragments := fragments ++ block.fragments }

/-- Put fragments after the code. -/
def append (block : Block) (fragments : List Fragment) : Block :=
  { block with fragments := block.fragments ++ fragments }

/-- Change every fragment. -/
def mapFragments (block : Block) (change : Fragment → Fragment) : Block :=
  { block with fragments := block.fragments.map change }

/-- An empty block around a block. -/
def wrap (block : Block) : Block := { bases := block.toLayer :: block.bases }

/-- The layer that a block wraps directly. -/
def base? (block : Block) : Option Layer := block.bases.head?

/-- The innermost block. -/
def innermost (block : Block) : Block :=
  match block.bases.getLast? with
  | some layer => { toLayer := layer }
  | none => block

end Block

end TensorLowering
