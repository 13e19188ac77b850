import TensorLowering.Proofs.TileTables

/-! # Schedules in a row

One schedule is appended to another key by key, and a key that only one of them tiles keeps its
tiles. Two schedules are equal if they tile the same keys alike, so schedules form a monoid,
whatever keys they share. A kernel is tiled by all its schedules in a row; how they are grouped does
not matter, and schedules of the same tensors add up their tiles
(`TensorLowering.TileSchedule.append_laws`).
-/

namespace TensorLowering

namespace TileSchedule

variable {first second third : TileSchedule}

/-! ### The monoid of schedules -/

theorem ext_side (same : ∀ direction, first.side direction = second.side direction) :
    first = second := by
  obtain ⟨inputs, outputs⟩ := first
  obtain ⟨otherInputs, otherOutputs⟩ := second
  have inward : inputs = otherInputs := same .inward
  have outward : outputs = otherOutputs := same .outward
  rw [inward, outward]

/-- Under a key that all three dictionaries may or may not have, both sides look up the lists that
there are in their order. -/
theorem appendLists_assoc (first second third : Dict (List Nat)) :
    appendLists (appendLists first second) third =
      appendLists first (appendLists second third) := by
  apply Dict.ext_find?
  intro key
  simp only [find?_appendLists, Dict.getD]
  cases first.find? key <;> cases second.find? key <;> cases third.find? key <;> simp

theorem empty_appendLists (lists : Dict (List Nat)) : appendLists .empty lists = lists := by
  apply Dict.ext_find?
  intro key
  simp only [find?_appendLists, Dict.getD, Dict.find?_empty]
  cases lists.find? key <;> simp

theorem append_assoc (first second third : TileSchedule) :
    first ++ second ++ third = first ++ (second ++ third) := by
  apply ext_side
  intro direction
  change ((first.append second).append third).side direction =
    (first.append (second.append third)).side direction
  simp only [side_append, appendLists_assoc]

theorem empty_append (schedule : TileSchedule) : {} ++ schedule = schedule := by
  apply ext_side
  intro direction
  cases direction <;> exact empty_appendLists _

theorem append_empty (schedule : TileSchedule) : schedule ++ {} = schedule := rfl

instance : Std.Associative (append : TileSchedule → TileSchedule → TileSchedule) := ⟨append_assoc⟩

/-! ### Grouped schedules -/

theorem join_append (schedules others : List TileSchedule) :
    join (schedules ++ others) = join schedules ++ join others := by
  cases schedules with
  | nil => exact (empty_append _).symm
  | cons schedule schedules =>
      cases others with
      | nil => rw [List.append_nil]; rfl
      | cons other others =>
          change (schedules ++ other :: others).foldl append schedule =
            append (schedules.foldl append schedule) (others.foldl append other)
          rw [List.foldl_append, List.foldl_cons, List.foldl_assoc]

/-- Schedules with parentheses around them: none, one, or two groups that are appended. -/
inductive Grouping where
  | none
  | one (schedule : TileSchedule)
  | both (first second : Grouping)

namespace Grouping

/-- The schedules without the parentheses. -/
def schedules : Grouping → List TileSchedule
  | .none => []
  | .one schedule => [schedule]
  | .both first second => first.schedules ++ second.schedules

/-- The schedules appended as the parentheses say. -/
def joined : Grouping → TileSchedule
  | .none => {}
  | .one schedule => schedule
  | .both first second => first.joined ++ second.joined

theorem joined_eq (grouping : Grouping) : grouping.joined = join grouping.schedules := by
  induction grouping with
  | none => rfl
  | one schedule => rfl
  | both first second ihFirst ihSecond => rw [joined, schedules, ihFirst, ihSecond, join_append]

end Grouping

/-! ### Adding tiles -/

/-- Every tensor of a schedule has the given number of tiles. -/
def Uniform (schedule : TileSchedule) (count : Nat) : Prop :=
  ∀ direction key offsets, (schedule.side direction).find? key = some offsets →
    offsets.length = count

/-- Two schedules tile the same tensors. -/
def SameTensors (first second : TileSchedule) : Prop :=
  ∀ direction key, (first.side direction).contains key = (second.side direction).contains key

theorem contains_append (same : first.SameTensors second) (direction : Direction) (key : String) :
    ((first ++ second).side direction).contains key = (first.side direction).contains key := by
  change ((first.append second).side direction).contains key = _
  rw [side_append, contains_appendLists, ← same direction key, Bool.or_self]

/-- A list of two schedules of the same tensors consists of a list of each. -/
theorem exists_of_find?_append (same : first.SameTensors second) {direction : Direction}
    {key : String} {offsets : List Nat}
    (found : ((first ++ second).side direction).find? key = some offsets) :
    ∃ left right, (first.side direction).find? key = some left ∧
      (second.side direction).find? key = some right ∧ offsets = left ++ right := by
  have listed : ((first ++ second).side direction).contains key = true := by
    rw [Dict.contains, found, Option.isSome_some]
  rw [contains_append same] at listed
  obtain ⟨left, foundLeft⟩ := Option.isSome_iff_exists.mp listed
  rw [same direction key] at listed
  obtain ⟨right, foundRight⟩ := Option.isSome_iff_exists.mp listed
  refine ⟨left, right, foundLeft, foundRight, ?_⟩
  change ((first.append second).side direction).find? key = some offsets at found
  rw [side_append, find?_appendLists, foundRight, Dict.getD, foundLeft] at found
  exact (Option.some.inj found).symm

theorem tileCount?_of_uniform {schedule : TileSchedule} {count : Nat}
    (uniform : schedule.Uniform count) {direction : Direction} {key : String}
    (listed : (schedule.side direction).contains key = true) :
    schedule.tileCount? = some count := by
  obtain ⟨offsets, found⟩ := Option.isSome_iff_exists.mp listed
  rw [tileCount?, List.max?_eq_some_iff]
  constructor
  · refine List.mem_map.mpr ⟨(key, offsets, direction), mem_tensors_iff.mpr found, ?_⟩
    exact uniform direction key offsets found
  · intro length member
    obtain ⟨⟨other, others, side⟩, tiled, rfl⟩ := List.mem_map.mp member
    exact Nat.le_of_eq (uniform side other others (mem_tensors_iff.mp tiled))

/-- **Schedules form a monoid that adds tiles.** Appending is associative, and the schedule without
tensors is its identity. Two schedules of the same tensors, with `m` and with `n` tiles, give a
schedule of these tensors whose lists hold first the `m` tiles of the one and then the `n` tiles of
the other; where a tensor is tiled at all there are `m + n` tiles. The schedule of a tiling is that
of its recorded schedules in any grouping. -/
theorem append_laws (first second third : TileSchedule) :
    first ++ second ++ third = first ++ (second ++ third) ∧
    {} ++ first = first ∧ first ++ {} = first ∧
    (∀ m n, first.SameTensors second → first.Uniform m → second.Uniform n →
      (first ++ second).SameTensors first ∧
      (∀ direction key offsets, ((first ++ second).side direction).find? key = some offsets →
        offsets.length = m + n ∧ (first.side direction).find? key = some (offsets.take m) ∧
          (second.side direction).find? key = some (offsets.drop m)) ∧
      ∀ direction key, (first.side direction).contains key = true →
        (first ++ second).tileCount? = some (m + n)) ∧
    ∀ (tiling : Tiling) (grouping : Grouping), grouping.schedules = tiling.schedules →
      grouping.joined = tiling.schedule := by
  refine ⟨append_assoc first second third, empty_append first, append_empty first, ?_, ?_⟩
  · intro m n same firstTiles secondTiles
    have lists : ∀ direction key offsets,
        ((first ++ second).side direction).find? key = some offsets →
          offsets.length = m + n ∧ (first.side direction).find? key = some (offsets.take m) ∧
            (second.side direction).find? key = some (offsets.drop m) := by
      intro direction key offsets found
      obtain ⟨left, right, foundLeft, foundRight, rfl⟩ := exists_of_find?_append same found
      have leftLength := firstTiles direction key left foundLeft
      have rightLength := secondTiles direction key right foundRight
      rw [List.length_append, leftLength, rightLength, List.take_left' leftLength,
        List.drop_left' leftLength]
      exact ⟨rfl, foundLeft, foundRight⟩
    refine ⟨contains_append same, lists, fun direction key listed => ?_⟩
    rw [← contains_append same] at listed
    exact tileCount?_of_uniform (fun side other offsets found => (lists side other offsets found).1)
      listed
  · intro tiling grouping recorded
    rw [Grouping.joined_eq, recorded, Tiling.schedule]

/-- The keys of an input and an output. -/
def columnKey : Direction → String
  | .inward => "in"
  | .outward => "out"

/-- Tiles of the input and the output. -/
def columnTiles (offsets : List Nat) : TileSchedule where
  inputs := .ofList [(columnKey .inward, offsets)]
  outputs := .ofList [(columnKey .outward, offsets)]

/-- Tiles of another input. -/
def maskTiles : TileSchedule where
  inputs := .ofList [("mask", [16])]

theorem find?_columnTiles (offsets : List Nat) (direction : Direction) (key : String) :
    ((columnTiles offsets).side direction).find? key =
      if columnKey direction = key then some offsets else none := by
  cases direction <;> rfl

theorem uniform_columnTiles (offsets : List Nat) :
    (columnTiles offsets).Uniform offsets.length := by
  intro direction key found listed
  rw [find?_columnTiles] at listed
  split at listed
  · rw [Option.some.inj listed]
  · cases listed

/-- Two tiles and one tile of the same tensors are three tiles. With a schedule of another tensor
after them, either pair may be appended first. -/
theorem append_laws_columnTiles :
    ((columnTiles [0, 64]).SameTensors (columnTiles [128]) ∧ (columnTiles [0, 64]).Uniform 2 ∧
      (columnTiles [128]).Uniform 1) ∧
    (columnTiles [0, 64] ++ columnTiles [128]).tileCount? = some 3 ∧
    (Grouping.both (.one (columnTiles [0, 64]))
      (.both (.one (columnTiles [128])) (.one maskTiles))).joined =
        Tiling.schedule
          ⟨{}, {}, [columnTiles [0, 64], columnTiles [128], maskTiles]⟩ := by
  have same : (columnTiles [0, 64]).SameTensors (columnTiles [128]) := by
    intro direction key
    rw [Dict.contains, Dict.contains, find?_columnTiles, find?_columnTiles]
    split <;> rfl
  have firstTiles := uniform_columnTiles [0, 64]
  have secondTiles := uniform_columnTiles [128]
  obtain ⟨-, -, -, adds, grouped⟩ := append_laws (columnTiles [0, 64]) (columnTiles [128]) maskTiles
  obtain ⟨-, -, count⟩ := adds 2 1 same firstTiles secondTiles
  exact ⟨⟨same, firstTiles, secondTiles⟩, count .inward "in" rfl, grouped _ _ rfl⟩

end TileSchedule

end TensorLowering
