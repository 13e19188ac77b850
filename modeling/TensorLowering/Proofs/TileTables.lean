import TensorLowering.Proofs.Decoding
import TensorLowering.Proofs.KernelDrafts

/-! # Tables of tiles

A tiled kernel steps through tables, one of offsets for each tensor and one of values for each
scalar. Where tiling succeeds, every table has an entry for every tile, lists its numbers as they
were given, and is as long as the loop over the tiles
(`TensorLowering.Lowering.tables_match_loop`). A kernel whose lists differ in length is refused
before anything is changed.
-/

namespace TensorLowering

/-! ### Joined schedules -/

namespace TileSchedule

/-- The tiled tensors of a direction. -/
def side (schedule : TileSchedule) : Direction → Dict (List Nat)
  | .inward => schedule.inputs
  | .outward => schedule.outputs

theorem find?_foldl_alter {entries : List (String × List Nat)}
    (distinct : (entries.map Prod.fst).Nodup) (dict : Dict (List Nat)) (key : String) :
    (entries.foldl (fun dict entry => dict.alter entry.1 [] (· ++ entry.2)) dict).find? key =
      ((Dict.search key entries).map (dict.getD key [] ++ ·)).or (dict.find? key) := by
  induction entries generalizing dict with
  | nil => rfl
  | cons entry entries ih =>
      obtain ⟨new, distinct⟩ := List.nodup_cons.mp distinct
      rw [List.foldl_cons, ih distinct, Dict.search]
      by_cases here : entry.1 = key
      · subst here
        have absent : Dict.search entry.1 entries = none := by
          cases found : Dict.search entry.1 entries with
          | none => rfl
          | some offsets =>
              exact absurd (List.mem_map_of_mem (f := Prod.fst) (Dict.mem_of_search found)) new
        rw [absent, if_pos rfl, Dict.alter, Dict.find?_insert_self]
        rfl
      · rw [if_neg here, Dict.alter, Dict.getD, Dict.find?_insert_of_ne _ _ here, ← Dict.getD]

theorem find?_appendLists (first second : Dict (List Nat)) (key : String) :
    (appendLists first second).find? key =
      ((second.find? key).map (first.getD key [] ++ ·)).or (first.find? key) :=
  find?_foldl_alter second.nodup_keys first key

theorem getD_appendLists (first second : Dict (List Nat)) (key : String) :
    (appendLists first second).getD key [] = first.getD key [] ++ second.getD key [] := by
  rw [Dict.getD, find?_appendLists, Dict.getD, Dict.getD]
  cases first.find? key <;> cases second.find? key <;> simp

theorem contains_appendLists (first second : Dict (List Nat)) (key : String) :
    (appendLists first second).contains key = (first.contains key || second.contains key) := by
  rw [Dict.contains, find?_appendLists, Dict.contains, Dict.contains]
  cases first.find? key <;> cases second.find? key <;> rfl

theorem side_append (first second : TileSchedule) (direction : Direction) :
    (first.append second).side direction =
      appendLists (first.side direction) (second.side direction) := by
  cases direction <;> rfl

theorem mem_tensors_iff {schedule : TileSchedule} {key : String} {offsets : List Nat}
    {direction : Direction} : (key, offsets, direction) ∈ schedule.tensors ↔
      (schedule.side direction).find? key = some offsets := by
  rw [tensors, List.mem_append, List.mem_map, List.mem_map]
  cases direction with
  | inward => simp [side, Dict.mem_entries_iff]
  | outward => simp [side, Dict.mem_entries_iff]

end TileSchedule

namespace Tiling

/-- A key is tiled in a direction: some schedule lists tiles of it. -/
def Tiles (tiling : Tiling) (direction : Direction) (key : String) : Prop :=
  ∃ schedule ∈ tiling.schedules, (schedule.side direction).contains key = true

/-- The offsets of the tiles of a key, schedule after schedule. -/
def offsets (tiling : Tiling) (direction : Direction) (key : String) : List Nat :=
  tiling.schedules.flatMap fun schedule => (schedule.side direction).getD key []

theorem side_foldl_append (schedules : List TileSchedule) (schedule : TileSchedule)
    (direction : Direction) (key : String) :
    ((schedules.foldl TileSchedule.append schedule).side direction).getD key [] =
        (schedule :: schedules).flatMap (fun schedule => (schedule.side direction).getD key []) ∧
      ((schedules.foldl TileSchedule.append schedule).side direction).contains key =
        (schedule :: schedules).any fun schedule => (schedule.side direction).contains key := by
  induction schedules generalizing schedule with
  | nil => simp
  | cons second schedules ih =>
      obtain ⟨lists, keys⟩ := ih (schedule.append second)
      rw [List.foldl_cons, lists, keys]
      simp [TileSchedule.side_append, TileSchedule.getD_appendLists,
        TileSchedule.contains_appendLists, Bool.or_assoc]

theorem find?_schedule_iff {tiling : Tiling} {direction : Direction} {key : String}
    {offsets : List Nat} : (tiling.schedule.side direction).find? key = some offsets ↔
      tiling.Tiles direction key ∧ offsets = tiling.offsets direction key := by
  have joined : (tiling.schedule.side direction).getD key [] = tiling.offsets direction key ∧
      ((tiling.schedule.side direction).contains key = true ↔ tiling.Tiles direction key) := by
    rw [schedule, Tiling.offsets, Tiles]
    cases tiling.schedules with
    | nil =>
        cases direction <;>
          simp [TileSchedule.join, TileSchedule.side, Dict.getD, Dict.contains]
    | cons first schedules =>
        obtain ⟨lists, keys⟩ := side_foldl_append schedules first direction key
        refine ⟨lists, ?_⟩
        rw [TileSchedule.join, keys, List.any_eq_true]
  rw [← joined.1, ← joined.2, Dict.contains, Dict.getD]
  cases (tiling.schedule.side direction).find? key with
  | none => simp
  | some found => simp [eq_comm]

/-- The tensors of a tiling are the keys that are tiled, each with the offsets of all schedules. -/
theorem mem_tensors_iff {tiling : Tiling} {direction : Direction} {key : String}
    {offsets : List Nat} : (key, offsets, direction) ∈ tiling.schedule.tensors ↔
      tiling.Tiles direction key ∧ offsets = tiling.offsets direction key := by
  rw [TileSchedule.mem_tensors_iff, find?_schedule_iff]

/-- All offsets of the schedules are words. -/
def InWords (tiling : Tiling) : Prop :=
  ∀ schedule ∈ tiling.schedules, ∀ direction, ∀ entry ∈ (schedule.side direction).entries,
    ∀ offset ∈ entry.2, offset < addressLimit

theorem InWords.lt_of_mem_offsets {tiling : Tiling} (words : tiling.InWords) {direction : Direction}
    {key : String} {offset : Nat} (member : offset ∈ tiling.offsets direction key) :
    offset < addressLimit := by
  obtain ⟨schedule, listed, member⟩ := List.mem_flatMap.mp member
  rw [Dict.getD] at member
  cases found : (schedule.side direction).find? key with
  | none =>
      rw [found] at member
      exact absurd member List.not_mem_nil
  | some offsets =>
      rw [found] at member
      exact words schedule listed direction _ (Dict.mem_entries_iff.mpr found) offset member

/-- Every list of a tiling has an entry for every tile. -/
def EntryPerTile (tiling : Tiling) : Prop :=
  (∀ direction key, tiling.Tiles direction key →
    (tiling.offsets direction key).length = tiling.tileCount) ∧
  ∀ key values, tiling.scheme.perTile.find? key = some values → values.length = tiling.tileCount

theorem checkCounts_eq_ok_iff {tiling : Tiling} {operation : String} :
    tiling.checkCounts operation = .ok () ↔ tiling.EntryPerTile := by
  have passes : ∀ key count, ((if count = tiling.tileCount then .ok ()
      else .error (.tileCount operation key tiling.tileCount count) : Except Error Unit) = .ok () ↔
        count = tiling.tileCount) := by
    intro key count
    split <;> simp [*]
  rw [checkCounts, Json.forM_eq_ok_iff, counts, List.forall_mem_append, List.forall_mem_map,
    List.forall_mem_map, EntryPerTile]
  simp only [passes]
  constructor
  · intro even
    obtain ⟨tensors, scalars⟩ := even
    refine ⟨fun direction key tiled => ?_, fun key values found => ?_⟩
    · exact tensors (key, _, direction) (mem_tensors_iff.mpr ⟨tiled, rfl⟩)
    · exact scalars (key, values) (Dict.mem_entries_iff.mpr found)
  · intro even
    obtain ⟨tensors, scalars⟩ := even
    refine ⟨fun entry member => ?_, fun entry member => ?_⟩
    · obtain ⟨key, offsets, direction⟩ := entry
      obtain ⟨tiled, rfl⟩ := mem_tensors_iff.mp member
      exact tensors direction key tiled
    · exact scalars entry.1 entry.2 (Dict.mem_entries_iff.mp member)

end Tiling

/-! ### The loop over the tiles -/

theorem parse_loopOpening : Template.parse loopOpening.source =
    .ok ⟨[.text "for (int ".toList, .hole [.verbatim [], .name "index".toList, .verbatim []],
      .text " = 0; ".toList, .hole [.verbatim [], .name "index".toList, .verbatim []],
      .text " < ".toList, .hole [.verbatim [], .name "count".toList, .verbatim []],
      .text "; ".toList, .hole [.verbatim [], .name "index".toList, .verbatim []],
      .text "++) \x7b".toList]⟩ := by
  decide +kernel

theorem parse_loopClosing : Template.parse loopClosing.source = .ok ⟨[.text "\x7d".toList]⟩ := by
  decide +kernel

theorem Segment.render_text (bindings : Bindings) (text : String) :
    (Segment.text text.toList).render .empty bindings = .ok text := by
  rw [Segment.render, String.ofList_toList]

/-- A bound name in a hole stands for the text of its binding. -/
theorem Segment.render_hole_name {bindings : Bindings} {name : String} {binding : Binding}
    (bound : bindings.find? name = some binding) :
    (Segment.hole [.verbatim [], .name name.toList, .verbatim []]).render .empty bindings =
      .ok binding.text := by
  simp [Segment.render, Item.render, Bindings.render, bound, Dict.getD, bind, Except.bind, pure,
    Except.pure]

namespace TileRecord

/-- A line around the loop over the tiles. -/
def loopLine (record : TileRecord) (template : Template) : Fragment :=
  { template, bindings := record.loopBindings }

/-- The usual loop counts from zero up to the number of tiles. -/
def loopText (record : TileRecord) : String :=
  "for (int " ++ record.loopVariable ++ " = 0; " ++ record.loopVariable ++ " < " ++
    toString record.tileCount ++ "; " ++ record.loopVariable ++ "++) \x7b"

theorem renders_loopOpening (record : TileRecord) :
    (record.loopLine loopOpening).Renders record.loopText := by
  have index : record.loopBindings.find? "index" = some (.code record.loopVariable) := by
    simp [loopBindings, Dict.ofList, Dict.find?_insert]
  have count : record.loopBindings.find? "count" = some (.int record.tileCount) := by
    simp [loopBindings, Dict.ofList]
  refine ⟨_, parse_loopOpening, ?_⟩
  change Parsed.render _ .empty record.loopBindings = _
  simp only [Parsed.render, List.mapM_cons, List.mapM_nil, Segment.render_text,
    Segment.render_hole_name index, Segment.render_hole_name count]
  change Except.ok ("".intercalate ["for (int ", record.loopVariable, " = 0; ",
    record.loopVariable, " < ", toString record.tileCount, "; ", record.loopVariable,
    "++) \x7b"]) = _
  unfold loopText
  simp only [String.intercalate_cons_cons, String.intercalate_singleton, String.append_empty,
    String.append_assoc]

theorem renders_loopClosing (record : TileRecord) :
    (record.loopLine loopClosing).Renders "\x7d" :=
  ⟨_, parse_loopClosing, rfl⟩

end TileRecord

namespace Block

/-- The code that runs for every tile, with copies of the tiles if wanted. -/
def loopBody (options : TileLoopOptions) (record : TileRecord) (block : Block) : List Fragment :=
  ((if options.transfers then block.addTransfers record else block).indent "    ").fragments

theorem fragments_loopOverTiles {block : Block} {record : TileRecord}
    (recorded : block.record = some record) (options : TileLoopOptions) :
    (block.loopOverTiles options).fragments =
      record.declarations ++ record.loopLine options.frame.1 ::
        (block.loopBody options record ++ [record.loopLine options.frame.2]) := by
  rw [loopOverTiles, recorded]
  rfl

end Block

/-! ### Tables -/

namespace Lowering

variable {level operation : String} {block : Block} {kernel : Fragment} {tiling : Tiling}

theorem makeTileViews_of_many (many : 1 < (block.fragments.filter (·.tiling.isSome)).length)
    (start : Workspace) :
    ∃ error, makeTileViews level block operation start = .error error start := by
  unfold makeTileViews
  rw [if_pos many]
  exact ⟨_, rfl⟩

theorem tileKernel_of_uneven (uneven : ¬ tiling.EntryPerTile) (start : Workspace) :
    ∃ error, tileKernel tiling level operation kernel start = .error error start := by
  rw [← Tiling.checkCounts_eq_ok_iff] at uneven
  cases checked : tiling.checkCounts operation with
  | ok value => exact absurd checked uneven
  | error error => exact ⟨error, bind_of_error (ask_of_error checked) _⟩

/-- The tiles of a kernel are made by a draft of it. -/
theorem makeTileViews_drafted {viewed : Block} {start final : Workspace}
    (member : kernel ∈ block.fragments) (own : kernel.tiling = some tiling)
    (ran : makeTileViews level block operation start = .ok viewed final) :
    ∃ draft scratch, viewed.record = some draft.record ∧
      KernelDrafted tiling operation level kernel scratch draft start.context final.context := by
  rcases makeTileViews_cases ran with ⟨plain, -, -⟩ |
    ⟨before, first, found, after, draft, split, plain, firstOwn, drafting, rfl⟩
  · exact absurd own (by simp [plain kernel member])
  · have here : kernel = first := by
      rw [split, List.mem_append, List.mem_cons, or_left_comm] at member
      refine member.resolve_right fun other => ?_
      exact absurd own (by simp [plain kernel (List.mem_append.mpr other)])
    subst here
    obtain rfl := Option.some.inj (own.symm.trans firstOwn)
    obtain ⟨scratch, drafted⟩ := tileKernel_drafted drafting
    exact ⟨draft, scratch, rfl, drafted⟩

/-- A tensor of a record steps through a table of the offsets of a key, one for each of `count`
tiles. -/
structure StepsThroughOffsets (tiling : Tiling) (operation : String) (count : Nat)
    (context : Context) (key : String) (tensor : TiledTensor) : Prop where
  tiled : tiling.Tiles tensor.direction key
  complete : (tiling.offsets tensor.direction key).length = count
  named : context.mangled.find? (operation ++ "/" ++ key ++ "/offsets") = some tensor.offsets
  defined : ⟨tensor.offsets, tableText "uint32_t" tensor.offsets
    ((tiling.offsets tensor.direction key).map toString)⟩ ∈ context.definitions

/-- A replacement of a record steps through a table of the values of a key, one for each of `count`
tiles. -/
structure StepsThroughValues (operation : String) (count : Nat) (context : Context) (key : String)
    (values : List Int) (replacement : String × String) : Prop where
  complete : values.length = count
  named : context.mangled.find? (operation ++ "/" ++ key ++ "/tiles") = some replacement.2
  defined : ∃ type, ⟨replacement.2, tableText type replacement.2 (values.map toString)⟩ ∈
    context.definitions

theorem TensorNoted.steps {context : Context} {direction : Direction} {key : String}
    {tensor : TiledTensor} (words : tiling.InWords) (even : tiling.EntryPerTile)
    (tiled : tiling.Tiles direction key)
    (noted : TensorNoted operation context (key, tiling.offsets direction key, direction) tensor) :
    StepsThroughOffsets tiling operation tiling.tileCount context key tensor := by
  obtain rfl : tensor.direction = direction := noted.direction
  have exact : ((tiling.offsets tensor.direction key).map signedWord).map toString =
      (tiling.offsets tensor.direction key).map toString := by
    rw [List.map_map]
    apply List.map_congr_left
    intro offset member
    rw [Function.comp_apply, signedWord_eq (words.lt_of_mem_offsets member)
      (noted.nonneg offset member)]
    rfl
  exact ⟨tiled, even.1 _ key tiled, noted.tabled, exact ▸ noted.defined⟩

/-- **Tables match the loop.** A kernel is refused, with nothing changed, if there is another one or
if its lists differ in length. Where it is tiled, the record steps through a table for every tiled
tensor and every scalar and through no others, each table lists one entry for every tile just as
it was given, and the usual loop counts the tiles. -/
theorem tables_match_loop (member : kernel ∈ block.fragments) (own : kernel.tiling = some tiling)
    (words : tiling.InWords) (annotate : Bool) (start : Workspace) :
    (1 < (block.fragments.filter (·.tiling.isSome)).length ∨ ¬ tiling.EntryPerTile →
      ∃ error, (Pass.tileViews level).apply annotate operation block start = .error error start) ∧
    ∀ viewed final, (Pass.tileViews level).apply annotate operation block start = .ok viewed final →
      ∃ record, viewed.record = some record ∧ record.tileCount = tiling.tileCount ∧
        (∀ direction key, tiling.Tiles direction key → ∃ tensor ∈ record.tiled,
          tensor.direction = direction ∧
            StepsThroughOffsets tiling operation record.tileCount final.context key tensor) ∧
        (∀ tensor ∈ record.tiled, ∃ key,
          StepsThroughOffsets tiling operation record.tileCount final.context key tensor) ∧
        (∀ key values, tiling.scheme.perTile.find? key = some values →
          ∃ replacement ∈ record.replacements,
            StepsThroughValues operation record.tileCount final.context key values replacement) ∧
        (∀ replacement ∈ record.replacements, ∃ key values,
          tiling.scheme.perTile.find? key = some values ∧
            StepsThroughValues operation record.tileCount final.context key values replacement) ∧
        ∀ (later : Block) options, later.record = some record →
          options.frame = (loopOpening, loopClosing) → ∃ opening body closing,
            (later.loopOverTiles options).fragments =
              record.declarations ++ opening :: (body ++ [closing]) ∧
            opening.Renders record.loopText ∧ closing.Renders "\x7d" := by
  refine ⟨fun unfit => ?_, fun viewed final ran => ?_⟩
  · rcases unfit with many | uneven
    · exact makeTileViews_of_many many start
    · exact makeTileViews_of_refused member own (tileKernel_of_uneven uneven start)
  obtain ⟨draft, scratch, recorded, drafted⟩ := makeTileViews_drafted member own ran
  have even := Tiling.checkCounts_eq_ok_iff.mp drafted.counted
  refine ⟨draft.record, recorded, drafted.tileCount, ?_⟩
  rw [drafted.tileCount]
  refine ⟨?_, ?_, ?_, ?_, ?_⟩
  · intro direction key tiled
    obtain ⟨tensor, listed, noted⟩ := exists_of_forall₂ drafted.tiled
      (Tiling.mem_tensors_iff.mpr ⟨tiled, rfl⟩)
    exact ⟨tensor, listed, noted.direction, noted.steps words even tiled⟩
  · intro tensor listed
    obtain ⟨⟨key, offsets, direction⟩, member, noted⟩ := exists_of_forall₂ drafted.tiled.flip listed
    obtain ⟨tiled, rfl⟩ := Tiling.mem_tensors_iff.mp member
    exact ⟨key, TensorNoted.steps words even tiled noted⟩
  · intro key values found
    obtain ⟨replacement, listed, noted⟩ := exists_of_forall₂ drafted.replaced
      (Dict.mem_entries_iff.mpr found)
    exact ⟨replacement, listed, even.2 key values found, noted.tabled, noted.defined⟩
  · intro replacement listed
    obtain ⟨⟨key, values⟩, member, noted⟩ := exists_of_forall₂ drafted.replaced.flip listed
    have found := Dict.mem_entries_iff.mp member
    exact ⟨key, values, found, even.2 key values found, noted.tabled, noted.defined⟩
  · intro later options laterRecorded usual
    refine ⟨_, _, _, Block.fragments_loopOverTiles laterRecorded options, ?_, ?_⟩
    · rw [usual]
      exact draft.record.renders_loopOpening
    · rw [usual]
      exact draft.record.renders_loopClosing

/-- The tiles of two tensors in two schedules, with a scalar for each tile. -/
def thirdsTiling : Tiling where
  constraint := ⟨.ofList [("x", .ofList [("L1", ⟨0, 32⟩)]), ("y", .ofList [("L1", ⟨32, 16⟩)])]⟩
  scheme := { perTile := .ofList [("n", [8, 8, -4])] }
  schedules := [
    { inputs := .ofList [("in", [0, 32])], outputs := .ofList [("out", [0])] },
    { inputs := .ofList [("in", [4294967295])], outputs := .ofList [("out", [16, 48])] }]

/-- A kernel with the tiling. -/
def thirdsKernel : Fragment :=
  { Fragment.ofSource "scale(${in}, ${out}, ${n});"
      [("in", .name "x"), ("out", .name "y"), ("n", .int 8)] with
    tiling := some thirdsTiling }

theorem tables_match_loop_thirdsKernel :
    ∃ viewed final record,
      (Pass.tileViews "L1").apply false "k" (.ofFragments [thirdsKernel])
        { context := Pipeline.twoContext } = .ok viewed final ∧
      viewed.record = some record ∧
      ⟨"k_in_offsets", "static const uint32_t k_in_offsets[3] = \x7b0, 32, 4294967295\x7d;"⟩ ∈
        final.context.definitions ∧
      ∃ opening ∈ (viewed.updateTiles.loopOverTiles {}).fragments,
        opening.Renders "for (int k_tile = 0; k_tile < 3; k_tile++) \x7b" := by
  have succeeds : observe ((Pass.tileViews "L1").apply false "k" (.ofFragments [thirdsKernel]))
      (fun viewed final => (viewed.record.map TileRecord.loopText,
        final.context.mangled.find? "k/in/offsets"))
      { context := Pipeline.twoContext } =
        some (some "for (int k_tile = 0; k_tile < 3; k_tile++) \x7b", some "k_in_offsets") := by
    decide +kernel
  obtain ⟨viewed, final, ran, seen⟩ := exists_of_observe succeeds
  obtain ⟨text, given⟩ := Prod.mk.inj seen
  have words : thirdsTiling.InWords := by
    intro schedule listed direction
    cases direction <;> revert schedule <;> decide +kernel
  have member : thirdsKernel ∈ (Block.ofFragments [thirdsKernel]).fragments :=
    List.mem_singleton_self _
  obtain ⟨record, recorded, -, tensors, -, -, -, loops⟩ :=
    (tables_match_loop member rfl words false _).2 viewed final ran
  obtain ⟨tensor, -, inward, steps⟩ := tensors .inward "in" ⟨_, List.mem_cons_self, by decide⟩
  have named : tensor.offsets = "k_in_offsets" := Option.some.inj (steps.named.symm.trans given)
  have listed : (thirdsTiling.offsets .inward "in").map toString = ["0", "32", "4294967295"] := by
    decide +kernel
  have written : tableText "uint32_t" "k_in_offsets" ["0", "32", "4294967295"] =
      "static const uint32_t k_in_offsets[3] = \x7b0, 32, 4294967295\x7d;" := by
    decide +kernel
  have table := steps.defined
  rw [named, inward, listed, written] at table
  obtain ⟨opening, body, closing, split, renders, -⟩ := loops viewed.updateTiles {}
    (by rw [Block.updateTiles_of_recorded recorded]; exact recorded) rfl
  rw [recorded] at text
  refine ⟨viewed, final, record, ran, recorded, table, opening, ?_, Option.some.inj text ▸ renders⟩
  rw [split]
  exact List.mem_append_right _ List.mem_cons_self

end Lowering

end TensorLowering
