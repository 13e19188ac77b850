import TensorLowering.Document.Types
import TensorLowering.Tiling.Basic

/-! # Documents of tilings

The trees of constraints, schedules, schemes and tilings, and their decoders. The parts of a
tiling apart from its constraint are read whole before they are looked at.
-/

namespace TensorLowering

open Json

namespace AddressRange

/-- The tree of a range. -/
def toJson (range : AddressRange) : Json :=
  .obj [("offset", .ofNat range.offset), ("length", .ofNat range.length)]

/-- A range. -/
def decode : Decoder AddressRange :=
  Decoder.record ["offset", "length"] fun fields => do
    return ⟨← fields.required "offset" Decoder.nat64, ← fields.required "length" Decoder.nat64⟩

end AddressRange

namespace MemoryConstraint

/-- The tree of the levels of a tensor. -/
def levelsToJson (levels : Dict AddressRange) : Json :=
  .obj [("levels", .ofDict AddressRange.toJson levels)]

/-- The tree of a constraint. -/
def toJson (constraint : MemoryConstraint) : Json :=
  .obj [("tensors", .ofDict levelsToJson constraint.tensors)]

/-- The levels of a tensor. -/
def decodeLevels : Decoder (Dict AddressRange) :=
  Decoder.record ["levels"] fun fields =>
    fields.required "levels" (Decoder.dict AddressRange.decode)

/-- A constraint. -/
def decode : Decoder MemoryConstraint :=
  Decoder.record ["tensors"] fun fields =>
    return ⟨← fields.required "tensors" (Decoder.dict decodeLevels)⟩

end MemoryConstraint

namespace TileSchedule

/-- The tree of offsets by key. -/
def offsetsToJson (offsets : Dict (List Nat)) : Json := .ofDict (.ofList .ofNat) offsets

/-- The tree of a schedule. -/
def toJson (schedule : TileSchedule) : Json :=
  .obj [("input_base_offsets", offsetsToJson schedule.inputs),
    ("output_base_offsets", offsetsToJson schedule.outputs)]

/-- Offsets by key. -/
def decodeOffsets : Decoder (Dict (List Nat)) := Decoder.dict (Decoder.list Decoder.nat64)

/-- A schedule. -/
def decode : Decoder TileSchedule :=
  Decoder.record ["input_base_offsets", "output_base_offsets"] fun fields => do
    return ⟨← fields.optional "input_base_offsets" .empty decodeOffsets,
      ← fields.optional "output_base_offsets" .empty decodeOffsets⟩

end TileSchedule

namespace TileScheme

/-- The tree of a scheme. -/
def toJson (scheme : TileScheme) : Json :=
  .obj [("per_tile", .ofDict (.ofList .int) scheme.perTile),
    ("types", .ofDict TypeId.toJson scheme.types)]

/-- A scheme. -/
def decode : Decoder TileScheme :=
  Decoder.record ["per_tile", "types"] fun fields => do
    return ⟨← fields.required "per_tile" (Decoder.dict (Decoder.list Decoder.int64)),
      ← fields.optional "types" .empty (Decoder.dict TypeId.decode)⟩

end TileScheme

namespace Tiling

/-- The tree of a tiling. -/
def toJson (tiling : Tiling) : Json :=
  .obj [("constraint", tiling.constraint.toJson), ("scheme", tiling.scheme.toJson),
    ("schedules", .ofList TileSchedule.toJson tiling.schedules)]

/-- A tiling. -/
def decode : Decoder Tiling
  | depth, .obj entries => enter depth fun depth => do
      (entries.filter (·.1 ≠ "constraint")).forM fun (_, json) => readWhole depth json
      let fields ← Fields.ofEntries depth ["constraint", "scheme", "schedules"] entries
      let constraint ← fields.required "constraint" MemoryConstraint.decode
      let scheme ← fields.optional "scheme" {} TileScheme.decode
      let schedules ← fields.optional "schedules" [] (Decoder.list TileSchedule.decode)
      return { constraint, scheme, schedules }
  | _, _ => .error (.expected "an object")

end Tiling

end TensorLowering
