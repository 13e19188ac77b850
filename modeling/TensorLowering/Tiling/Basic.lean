import TensorLowering.Types.Kind
import TensorLowering.Dict

/-! # Tilings

A tiling splits an operation into tiles that fit a memory level. It was computed ahead of
time: the constraint places tensors in the arenas of the levels, each schedule lists for
every tiled tensor where its tiles start, and the scheme lists the scalars that change
from tile to tile.
-/

namespace TensorLowering

/-- Addresses and sizes stay below this limit. -/
def addressLimit : Nat := Nat.pow 2 64

/-- A range of bytes in the arena of a level. -/
structure AddressRange where
  offset : Nat
  length : Nat
  deriving DecidableEq, Repr, Inhabited

/-- The first address after a range, unless it is out of reach. -/
def AddressRange.end? (range : AddressRange) : Option Nat :=
  if range.offset + range.length < addressLimit then some (range.offset + range.length) else none

/-- Where each tensor may lie, by tensor and level. -/
structure MemoryConstraint where
  tensors : Dict (Dict AddressRange) := .empty
  deriving DecidableEq, Inhabited

namespace MemoryConstraint

/-- The range of a tensor in a level. -/
def range? (constraint : MemoryConstraint) (tensor level : String) : Option AddressRange :=
  (constraint.tensors.find? tensor).bind (·.find? level)

/-- Place a tensor in a level. -/
def place (constraint : MemoryConstraint) (tensor level : String) (range : AddressRange) :
    MemoryConstraint :=
  ⟨constraint.tensors.alter tensor .empty (·.insert level range)⟩

/-- All ranges in a level. -/
def ranges (constraint : MemoryConstraint) (level : String) : List AddressRange :=
  constraint.tensors.values.filterMap (·.find? level)

/-- The bytes that the arena of a level has to provide, unless a range is out of reach. -/
def arenaExtent? (constraint : MemoryConstraint) (level : String) : Option Nat :=
  (constraint.ranges level).foldlM (fun extent range => range.end?.map (max extent)) 0

end MemoryConstraint

/-- The direction in which a tiled tensor moves: into its tile before the kernel, or out of
it afterwards. -/
inductive Direction where
  | inward
  | outward
  deriving DecidableEq, Repr, Inhabited

/-- The byte offsets at which the tiles of each tensor start, by binding key. -/
structure TileSchedule where
  inputs : Dict (List Nat) := .empty
  outputs : Dict (List Nat) := .empty
  deriving DecidableEq, Inhabited

namespace TileSchedule

/-- Append the lists of a dictionary to those of another, key by key. -/
def appendLists (first second : Dict (List Nat)) : Dict (List Nat) :=
  second.entries.foldl (fun dict (key, offsets) => dict.alter key [] (· ++ offsets)) first

/-- The tiles of a schedule followed by those of another. -/
def append (first second : TileSchedule) : TileSchedule where
  inputs := appendLists first.inputs second.inputs
  outputs := appendLists first.outputs second.outputs

instance : Append TileSchedule := ⟨append⟩

/-- The tiles of all schedules in order. -/
def join : List TileSchedule → TileSchedule
  | [] => {}
  | schedule :: schedules => schedules.foldl append schedule

/-- Every tiled key with its offsets and direction; inputs come first. -/
def tensors (schedule : TileSchedule) : List (String × List Nat × Direction) :=
  schedule.inputs.entries.map (fun (key, offsets) => (key, offsets, .inward)) ++
    schedule.outputs.entries.map fun (key, offsets) => (key, offsets, .outward)

/-- The number of tiles, if any tensor is tiled. -/
def tileCount? (schedule : TileSchedule) : Option Nat :=
  (schedule.tensors.map fun (_, offsets, _) => offsets.length).max?

end TileSchedule

/-- The scalars that change from tile to tile, by binding key, and the element types of
their tables. -/
structure TileScheme where
  perTile : Dict (List Int) := .empty
  types : Dict TypeId := .empty
  deriving DecidableEq, Inhabited

/-- The tiling of an operation. -/
structure Tiling where
  constraint : MemoryConstraint
  scheme : TileScheme := {}
  schedules : List TileSchedule := []
  deriving DecidableEq, Inhabited

namespace Tiling

/-- The schedule over all tiles. -/
def schedule (tiling : Tiling) : TileSchedule := .join tiling.schedules

/-- The number of tiles: that of the schedule, else that of the scalars, else one. -/
def tileCount (tiling : Tiling) : Nat :=
  (tiling.schedule.tileCount?.or (tiling.scheme.perTile.values.map List.length).max?).getD 1

/-- The number of entries for each tiled tensor and then for each scalar. -/
def counts (tiling : Tiling) : List (String × Nat) :=
  tiling.schedule.tensors.map (fun (key, offsets, _) => (key, offsets.length)) ++
    tiling.scheme.perTile.entries.map fun (key, values) => (key, values.length)

end Tiling

end TensorLowering
