import TensorLowering.Proofs.ScheduleBalance
import TensorLowering.Proofs.TileLoops
import TensorLowering.Proofs.TiledBlocks
import TensorLowering.Proofs.TiledDrafts

/-! # What a tiled block refers to

Tiling rebinds keys of the kernel to views, adds code around it and leaves a record behind. A tiled
block refers to what its code still names and to the untiled buffers behind its tensors, and to
nothing that tiling has made (`TensorLowering.Pipeline.references_tiled`). The record of a block
is replaced when the block is tiled again: what only the earlier record named is referred to no
more (`TensorLowering.Pipeline.retiledBlock_forgets`).
-/

namespace TensorLowering

/-! ### What is left of a block -/

/-- The keys of the tiled tensors. -/
def Tiling.tensorKeys (tiling : Tiling) : List String := tiling.schedule.tensors.map Prod.fst

namespace Fragment

/-- The keys that tiling in a level rebinds: those of tensors, of scratch storage of the level and
of scalars. -/
def reboundKeys (level : String) (context : Context) (fragment : Fragment) : List String :=
  match fragment.tiling with
  | none => []
  | some tiling =>
      tiling.tensorKeys ++
        ((Lowering.levelTransients context level fragment.bindings).map Prod.fst ++
          tiling.scheme.perTile.keys)

/-- A fragment without the bindings that tiling replaces. -/
def remainder (level : String) (context : Context) (fragment : Fragment) : Fragment :=
  { fragment with
    bindings := (fragment.reboundKeys level context).foldl Dict.erase fragment.bindings }

/-- The buffers bound to the keys of tiled tensors. -/
def untiled (fragment : Fragment) : List String :=
  match fragment.tiling with
  | none => []
  | some tiling =>
      tiling.tensorKeys.filterMap fun key => (fragment.bindings.find? key).bind Binding.name?

end Fragment

namespace TileRecord

/-- The views and tables that tiling has made. -/
def made (record : TileRecord) : List String :=
  record.tiled.flatMap (fun tensor => [tensor.view, tensor.offsets]) ++
    record.replacements.flatMap (fun replacement => [replacement.1, replacement.2]) ++
      record.declarations.filterMap Fragment.subject?

end TileRecord

namespace Block

/-- The buffers that a block still names when it is tiled: those that it touches by keys that stay,
and those behind its tensors. -/
def keptNames (level : String) (context : Context) (block : Block) : List String :=
  block.fragments.flatMap fun fragment =>
    (fragment.remainder level context).touched context ++ fragment.untiled.filter context.isBuffer

/-- The buffers that the record of a block names, also through the code that is made from it. -/
def recordedNames (options : TileLoopOptions) (context : Context) (block : Block) : List String :=
  block.tiledBuffers context ++
    (block.record.toList.flatMap (·.code options)).flatMap (·.touched context)

end Block

/-- The buffers that a tiled block names: those that it has kept, and those of its earlier record
unless that is replaced. -/
def Block.tiledNames (level : String) (options : TileLoopOptions) (context : Context)
    (block : Block) : List String :=
  block.keptNames level context ++
    if block.tiling?.isSome then [] else block.recordedNames options context

/-- What tiling may expect of a block in a context: names are unique, neither the arena of the level
nor another identifier that is in use is the name of a managed buffer, and keys have no line
feeds. -/
structure Block.FitForTiling (level : String) (context : Context) (block : Block) : Prop where
  distinct : context.names.Nodup
  arena : context.Unmanaged (context.mangle (level ++ "_arena")).1
  assigned : ∀ identifier ∈ context.mangled.values, context.Unmanaged identifier
  oneLine : ∀ fragment ∈ block.fragments, ∀ key ∈ fragment.bindings.keys, '\n' ∉ key.toList

instance (level : String) (context : Context) (block : Block) :
    Decidable (block.FitForTiling level context) :=
  decidable_of_iff (context.names.Nodup ∧
      context.Unmanaged (context.mangle (level ++ "_arena")).1 ∧
      (∀ identifier ∈ context.mangled.values, context.Unmanaged identifier) ∧
      ∀ fragment ∈ block.fragments, ∀ key ∈ fragment.bindings.keys, '\n' ∉ key.toList)
    ⟨fun ⟨distinct, arena, assigned, oneLine⟩ => ⟨distinct, arena, assigned, oneLine⟩,
      fun ⟨distinct, arena, assigned, oneLine⟩ => ⟨distinct, arena, assigned, oneLine⟩⟩

/-! ### What fragments keep -/

theorem Dict.find?_foldl_erase {α : Type} (keys : List String) (dict : Dict α) (key : String) :
    (keys.foldl Dict.erase dict).find? key = if key ∈ keys then none else dict.find? key := by
  induction keys generalizing dict with
  | nil => rfl
  | cons head rest ih =>
      rw [List.foldl_cons, ih, Dict.find?_erase]
      by_cases here : head = key
      · simp [here]
      · simp [here, Ne.symm here]

namespace Fragment

variable {fragment : Fragment} {context : Context} {name : String}

/-- What a fragment touches after its bindings were replaced. -/
theorem mem_touched_remainder_iff {level : String} :
    name ∈ (fragment.remainder level context).touched context ↔
      context.isBuffer name = true ∧ ∃ key, fragment.template.Uses key ∧
        fragment.bindings.find? key = some (.name name) ∧
          key ∉ fragment.reboundKeys level context := by
  rw [mem_touched_iff_uses]
  refine and_congr_right fun _ => exists_congr fun key => and_congr_right fun _ => ?_
  change ((fragment.reboundKeys level context).foldl Dict.erase fragment.bindings).find? key = _ ↔ _
  rw [Dict.find?_foldl_erase]
  split
  · next rebound => simp [rebound]
  · next kept => simp [kept]

/-- Which keys of buffers tiling rebinds. -/
theorem mem_reboundKeys_iff {level key : String} {tiling : Tiling}
    (tiled : fragment.tiling = some tiling)
    (bound : fragment.bindings.find? key = some (.name name)) :
    key ∈ fragment.reboundKeys level context ↔ key ∈ tiling.tensorKeys ∨
      Lowering.isLevelTransient context level name = true ∨ key ∈ tiling.scheme.perTile.keys := by
  rw [reboundKeys, tiled]
  dsimp only
  rw [List.mem_append, List.mem_append, Lowering.mem_keys_levelTransients_iff bound]

theorem remainder_of_plain (plain : fragment.tiling = none) (level : String) (context : Context) :
    fragment.remainder level context = fragment := by
  have nothing : fragment.reboundKeys level context = [] := by rw [reboundKeys, plain]
  rw [remainder, nothing]
  rfl

theorem untiled_of_plain (plain : fragment.tiling = none) : fragment.untiled = [] := by
  rw [untiled, plain]

theorem mem_untiled_iff {tiling : Tiling} (tiled : fragment.tiling = some tiling) :
    name ∈ fragment.untiled ↔
      ∃ key ∈ tiling.tensorKeys, fragment.bindings.find? key = some (.name name) := by
  rw [untiled, tiled]
  simp only [List.mem_filterMap, Option.bind_eq_some_iff, Binding.name?_eq_some_iff,
    exists_eq_right]

end Fragment

/-! ### The names of a tiled block -/

namespace Context

open Relation

variable {origin context : Context} {name : String}

theorem mem_referencesAmong_unrolled_iff {touched : List String} :
    name ∈ context.referencesAmong .unrolled touched ↔
      name ∈ (context.locals.entries.filter (·.deploy)).map Buffer.name ∧
        ∃ source ∈ touched, ReflTransGen context.PointsTo source name := by
  rw [referencesAmong_eq_filter, List.mem_filter, List.contains_iff_mem,
    mem_spread_iff context rfl]

theorem isBuffer_of_managed (managed : ¬ origin.Unmanaged name) : origin.isBuffer name = true := by
  by_contra absent
  exact managed (unmanaged_of_absent (Bool.not_eq_true _ ▸ absent))

theorem Preserved.isBuffer_of_managed (preserved : Preserved origin context)
    (managed : ¬ origin.Unmanaged name) : context.isBuffer name = true := by
  by_contra absent
  exact managed (preserved.unmanaged_of_absent (Bool.not_eq_true _ ▸ absent))

/-- A fragment touches the same managed names. -/
theorem Preserved.mem_touched_iff (preserved : Preserved origin context)
    (managed : ¬ origin.Unmanaged name) (fragment : Fragment) :
    name ∈ fragment.touched context ↔ name ∈ fragment.touched origin := by
  rw [Fragment.mem_touched_iff_uses, Fragment.mem_touched_iff_uses,
    preserved.isBuffer_of_managed managed, Context.isBuffer_of_managed managed]

end Context

namespace TileDraft.Follows

open Context (Preserved)

variable {origin context : Context} {level name : String} {kernel : Fragment} {tiling : Tiling}
  {placed : List String} {draft : TileDraft}
  (follows : draft.Follows origin kernel tiling.tensorKeys (placed ++ tiling.scheme.perTile.keys))
  (preserved : Preserved origin context) (managed : ¬ origin.Unmanaged name)
include follows managed

/-- A tiled kernel binds managed names to the keys that were not rebound. -/
theorem find?_eq_name_iff (own : kernel.tiling = some tiling)
    (places : ∀ {key name}, kernel.bindings.find? key = some (.name name) →
      ¬ origin.Unmanaged name → key ∉ tiling.tensorKeys →
        (key ∈ placed ↔ Lowering.isLevelTransient origin level name = true)) {key : String} :
    draft.fragment.bindings.find? key = some (.name name) ↔
      kernel.bindings.find? key = some (.name name) ∧ key ∉ kernel.reboundKeys level origin := by
  constructor
  · intro bound
    have kept : ¬ (key ∈ tiling.tensorKeys ∨ key ∈ placed ++ tiling.scheme.perTile.keys) := by
      intro listed
      obtain ⟨view, found, unmanaged⟩ := follows.rebound listed
      exact managed (Binding.name.inj (Option.some.inj (bound.symm.trans found)) ▸ unmanaged)
    obtain ⟨noTensor, noOther⟩ := not_or.mp kept
    have before := (follows.untouched noTensor noOther).symm.trans bound
    rw [List.mem_append, places before managed noTensor] at noOther
    rw [Fragment.mem_reboundKeys_iff own before]
    exact ⟨before, fun listed => listed.elim noTensor noOther⟩
  · rintro ⟨bound, kept⟩
    rw [Fragment.mem_reboundKeys_iff own bound, not_or] at kept
    obtain ⟨noTensor, noOther⟩ := kept
    rw [← places bound managed noTensor, ← List.mem_append] at noOther
    exact (follows.untouched noTensor noOther).trans bound

include preserved in
/-- A record notes the managed names behind tensors. -/
theorem mem_externals_iff (own : kernel.tiling = some tiling) :
    name ∈ (draft.record.tiled.map TiledTensor.external).filter context.isBuffer ↔
      name ∈ kernel.untiled.filter origin.isBuffer := by
  rw [List.mem_filter, List.mem_filter, preserved.isBuffer_of_managed managed,
    Context.isBuffer_of_managed managed, follows.externals managed,
    Fragment.mem_untiled_iff own]

/-- Of the managed names, the code of a record touches those behind tensors only. -/
theorem mem_externals_of_code {options : TileLoopOptions} {fragment : Fragment}
    (coded : fragment ∈ draft.record.code options) (touches : name ∈ fragment.touched context) :
    name ∈ draft.record.tiled.map TiledTensor.external := by
  obtain ⟨key, bound⟩ := Fragment.exists_bound_of_mem_touched touches
  rcases List.mem_append.mp coded with declared | added
  · exact absurd ((follows.declarations fragment declared).1 bound) managed
  · rcases TileRecord.mem_bodyCode_iff.mp added with
      ⟨replacement, listed, rfl⟩ | ⟨-, tensor, listed, rfl⟩
    · obtain ⟨viewAside, tableAside⟩ := follows.replacements replacement listed
      have entry := Dict.mem_of_find?_ofList bound
      simp only [List.mem_cons, Prod.mk.injEq, Binding.name.injEq, reduceCtorEq, and_false,
        List.not_mem_nil, or_false] at entry
      rcases entry with ⟨-, rfl⟩ | ⟨-, rfl⟩
      · exact absurd viewAside managed
      · exact absurd tableAside managed
    · obtain ⟨viewAside, offsetsAside⟩ := follows.tiled tensor listed
      have entry := Dict.mem_of_find?_ofList bound
      simp only [List.mem_cons, Prod.mk.injEq, Binding.name.injEq, reduceCtorEq, and_false,
        Binding.ofSize, List.not_mem_nil, or_false] at entry
      rcases entry with ⟨-, rfl⟩ | ⟨-, rfl⟩ | ⟨-, rfl⟩
      · exact absurd viewAside managed
      · exact List.mem_map_of_mem listed
      · exact absurd offsetsAside managed

end TileDraft.Follows

namespace Block

variable {block : Block} {level name : String} {context : Context}

theorem mem_keptNames_iff : name ∈ block.keptNames level context ↔
    ∃ fragment ∈ block.fragments, name ∈ (fragment.remainder level context).touched context ∨
      name ∈ fragment.untiled.filter context.isBuffer := by
  simp only [keptNames, List.mem_flatMap, List.mem_append]

theorem mem_recordedNames_iff {options : TileLoopOptions} :
    name ∈ block.recordedNames options context ↔ name ∈ block.tiledBuffers context ∨
      ∃ record ∈ block.record, ∃ fragment ∈ record.code options,
        name ∈ fragment.touched context := by
  simp only [recordedNames, List.mem_append, List.mem_flatMap, Option.mem_toList, Option.mem_def]
  grind

/-- Without tilings, a block keeps all that its code touches. -/
theorem mem_keptNames_of_plain (plain : ∀ fragment ∈ block.fragments, fragment.tiling = none) :
    name ∈ block.keptNames level context ↔
      ∃ fragment ∈ block.fragments, name ∈ fragment.touched context := by
  rw [mem_keptNames_iff]
  refine exists_congr fun fragment => and_congr_right fun member => ?_
  have whole := Fragment.remainder_of_plain (plain fragment member) level context
  have nothing := Fragment.untiled_of_plain (plain fragment member)
  rw [whole, nothing, List.filter_nil, or_iff_left List.not_mem_nil]

end Block

theorem Context.Tended.start {origin : Context} (exempt : String)
    (assigned : ∀ identifier ∈ origin.mangled.values, origin.Unmanaged identifier) :
    Tended origin exempt origin where
  toPreserved := .refl origin
  assigned {logical identifier} given _ := by
    apply assigned
    exact List.mem_map_of_mem (f := Prod.snd) (Dict.mem_entries_iff.mpr given)

namespace Lowering

open Context (Preserved Tended)

variable {level operation : String} {start final : Workspace} {block viewed : Block}

/-- How a block is tiled: its only fragment with a tiling is replaced by a draft of it. -/
structure Tiles (level : String) (origin context : Context) (block viewed : Block)
    (draft : TileDraft) : Prop where
  preserved : Preserved origin context
  drafted : ∃ before kernel tiling after placed, block.fragments = before ++ kernel :: after ∧
    (∀ fragment ∈ before ++ after, fragment.tiling = none) ∧ kernel.tiling = some tiling ∧
    viewed = { block with
      fragments := before ++ draft.fragment :: after
      record := some draft.record } ∧
    draft.Follows origin kernel tiling.tensorKeys (placed ++ tiling.scheme.perTile.keys) ∧
    ∀ {key name}, kernel.bindings.find? key = some (.name name) → ¬ origin.Unmanaged name →
      key ∉ tiling.tensorKeys → (key ∈ placed ↔ isLevelTransient origin level name = true)

/-- A block without a tiling stays, and one with a tiling is tiled. -/
theorem tiles_of_makeTileViews (fit : block.FitForTiling level start.context)
    (ran : makeTileViews level block operation start = .ok viewed final) :
    (block.tiling? = none ∧ viewed = block ∧ final = start) ∨
      (block.tiling?.isSome = true ∧
        ∃ draft, Tiles level start.context final.context block viewed draft) := by
  rcases makeTileViews_cases ran with ⟨plain, rfl, rfl⟩ |
    ⟨before, kernel, tiling, after, draft, split, plain, own, drafting, rfl⟩
  · exact .inl ⟨Block.tiling?_eq_none_iff.mpr plain, rfl, rfl⟩
  · obtain ⟨tended, placed, follows, places⟩ :=
      tileKernel_follows (.start _ fit.assigned) fit.arena drafting
    refine .inr ⟨?_, draft, tended.toPreserved, before, kernel, tiling, after, placed, split, plain,
      own, rfl, follows, places⟩
    rw [Block.tiling?_eq_some split plain own]
    rfl

namespace Tiles

variable {origin context : Context} {draft : TileDraft} {options : TileLoopOptions} {name : String}
  (tiles : Tiles level origin context block viewed draft)
include tiles

theorem recorded : viewed.record = some draft.record := by
  obtain ⟨before, kernel, tiling, after, placed, -, -, -, rfl, -⟩ := tiles.drafted
  rfl

/-- A tiled block names the managed buffers that it has kept. -/
theorem mem_named_iff (managed : ¬ origin.Unmanaged name) :
    name ∈ viewed.named context ↔ name ∈ block.keptNames level origin := by
  obtain ⟨before, kernel, tiling, after, placed, split, plain, own, rfl, follows, places⟩ :=
    tiles.drafted
  have kernelNames : name ∈ draft.fragment.touched context ↔
      name ∈ (kernel.remainder level origin).touched origin := by
    rw [Fragment.mem_touched_iff_uses, Fragment.mem_touched_remainder_iff,
      tiles.preserved.isBuffer_of_managed managed, Context.isBuffer_of_managed managed]
    refine and_congr_right fun _ => exists_congr fun key => and_congr ?_ ?_
    · unfold Template.Uses
      rw [follows.source]
    · exact follows.find?_eq_name_iff managed own places
  have externalNames := follows.mem_externals_iff tiles.preserved managed own
  have otherNames : (∃ fragment ∈ before ++ after, name ∈ fragment.touched context) ↔
      ∃ fragment ∈ before ++ after, name ∈ (fragment.remainder level origin).touched origin ∨
        name ∈ fragment.untiled.filter origin.isBuffer := by
    refine exists_congr fun fragment => and_congr_right fun member => ?_
    rw [Fragment.remainder_of_plain (plain fragment member),
      Fragment.untiled_of_plain (plain fragment member), List.filter_nil,
      or_iff_left List.not_mem_nil]
    exact tiles.preserved.mem_touched_iff managed fragment
  rw [Block.mem_named_iff, Block.mem_keptNames_iff, split]
  simp only [List.perm_middle.mem_iff, List.exists_mem_cons_iff]
  rw [kernelNames, otherNames, Block.tiledBuffers, externalNames]
  exact or_right_comm

/-- The keys of managed buffers are those of the block. -/
theorem exists_bound {fragment : Fragment} {key : String} (managed : ¬ origin.Unmanaged name)
    (member : fragment ∈ viewed.fragments)
    (bound : fragment.bindings.find? key = some (.name name)) :
    ∃ other ∈ block.fragments, other.bindings.find? key = some (.name name) := by
  obtain ⟨before, kernel, tiling, after, placed, split, -, own, rfl, follows, places⟩ :=
    tiles.drafted
  rw [split]
  rcases List.mem_cons.mp (List.perm_middle.mem_iff.mp member) with rfl | other
  · have before := ((follows.find?_eq_name_iff managed own places).mp bound).1
    exact ⟨kernel, List.mem_append_right _ List.mem_cons_self, before⟩
  · exact ⟨fragment, List.perm_middle.mem_iff.mpr (List.mem_cons_of_mem _ other), bound⟩

theorem mem_named_of_code (managed : ¬ origin.Unmanaged name) {fragment : Fragment}
    (coded : fragment ∈ draft.record.code options) (touches : name ∈ fragment.touched context) :
    name ∈ viewed.named context := by
  obtain ⟨before, kernel, tiling, after, placed, -, -, -, rfl, follows, -⟩ := tiles.drafted
  have external := follows.mem_externals_of_code managed coded touches
  have known := tiles.preserved.isBuffer_of_managed managed
  exact Block.mem_named_iff.mpr (.inr (List.mem_filter.mpr ⟨external, known⟩))

/-- What tiling has made is unmanaged. -/
theorem unmanaged_of_made (made : name ∈ draft.record.made) : origin.Unmanaged name := by
  obtain ⟨before, kernel, tiling, after, placed, -, -, -, -, follows, -⟩ := tiles.drafted
  rw [TileRecord.made, List.mem_append, List.mem_append, List.mem_flatMap, List.mem_flatMap,
    List.mem_filterMap] at made
  rcases made with (⟨tensor, listed, same⟩ | ⟨replacement, listed, same⟩) |
    ⟨declaration, listed, subject⟩
  · obtain ⟨viewAside, offsetsAside⟩ := follows.tiled tensor listed
    rcases List.mem_pair.mp same with rfl | rfl
    · exact viewAside
    · exact offsetsAside
  · obtain ⟨viewAside, tableAside⟩ := follows.replacements replacement listed
    rcases List.mem_pair.mp same with rfl | rfl
    · exact viewAside
    · exact tableAside
  · obtain ⟨binding, bound, named⟩ := Option.bind_eq_some_iff.mp subject
    rw [Binding.name?_eq_some_iff.mp named] at bound
    exact (follows.declarations declaration listed).1 bound

theorem readable (readable : ∀ fragment ∈ block.fragments, fragment.Readable) :
    ∀ fragment ∈ viewed.fragments, fragment.Readable := by
  obtain ⟨before, kernel, tiling, after, placed, split, -, -, rfl, follows, -⟩ := tiles.drafted
  rw [split] at readable
  intro fragment member
  rcases List.mem_cons.mp (List.perm_middle.mem_iff.mp member) with rfl | other
  · rw [Fragment.Readable, follows.source]
    exact readable kernel (List.mem_append_right _ List.mem_cons_self)
  · exact readable fragment (List.perm_middle.mem_iff.mpr (List.mem_cons_of_mem _ other))

theorem readable_declarations :
    ∀ declaration ∈ draft.record.declarations, declaration.Readable := by
  obtain ⟨before, kernel, tiling, after, placed, -, -, -, -, follows, -⟩ := tiles.drafted
  intro declaration member
  rw [Fragment.readable_iff, (follows.declarations declaration member).2]
  decide +kernel

end Tiles

section Loop

variable (fit : block.FitForTiling level start.context)
  (ran : makeTileViews level block operation start = .ok viewed final)
include fit ran

theorem preserved_makeTileViews : Preserved start.context final.context := by
  rcases tiles_of_makeTileViews fit ran with ⟨-, -, rfl⟩ | ⟨-, draft, tiles⟩
  · exact .refl _
  · exact tiles.preserved

/-- The managed names of a block after all steps of tiling. -/
theorem mem_named_tiled {name : String} (managed : ¬ start.context.Unmanaged name)
    (options : TileLoopOptions) :
    name ∈ (viewed.updateTiles.loopOverTiles options).named final.context ↔
      name ∈ block.tiledNames level options start.context := by
  have oneLineBound : ∀ fragment ∈ block.fragments, ∀ {key},
      fragment.bindings.find? key = some (.name name) → '\n' ∉ key.toList := by
    intro fragment member key bound
    refine fit.oneLine fragment member key (Dict.contains_iff_mem_keys.mp ?_)
    rw [Dict.contains, bound]
    rfl
  rcases tiles_of_makeTileViews fit ran with ⟨plain, rfl, rfl⟩ | ⟨own, draft, tiles⟩
  · have untiled := Block.tiling?_eq_none_iff.mp plain
    rw [Block.tiledNames, plain, List.mem_append, Block.mem_keptNames_of_plain untiled,
      Option.isSome_none, if_neg Bool.false_ne_true, Block.mem_recordedNames_iff, ← or_assoc,
      ← Block.mem_named_iff]
    cases recorded : viewed.record with
    | none =>
        rw [Block.loopOverTiles_of_unrecorded recorded]
        simp
    | some record =>
        rw [Block.mem_named_loopOverTiles recorded fun fragment member key =>
          oneLineBound fragment member]
        simp
  · rw [Block.tiledNames, own, List.mem_append, ← tiles.mem_named_iff managed,
      Block.mem_named_loopOverTiles tiles.recorded]
    · constructor
      · rintro (named | ⟨fragment, coded, touches⟩)
        · exact .inl named
        · exact .inl (tiles.mem_named_of_code managed coded touches)
      · rintro (named | nothing)
        · exact .inl named
        · exact absurd nothing List.not_mem_nil
    · intro fragment member key bound
      obtain ⟨other, listed, otherBound⟩ := tiles.exists_bound managed member bound
      exact oneLineBound other listed otherBound

/-- The templates of a tiled block can be read if those that it is made from can. -/
theorem readable_tiled {options : TileLoopOptions}
    (readable : ∀ fragment ∈ block.fragments, fragment.Readable)
    (declared : block.tiling? = none → ∀ record ∈ block.record,
      ∀ declaration ∈ record.declarations, declaration.Readable)
    (opening : (Template.parse options.frame.1.source).isOk = true)
    (closing : (Template.parse options.frame.2.source).isOk = true) :
    ∀ fragment ∈ (viewed.updateTiles.loopOverTiles options).fragments, fragment.Readable := by
  rcases tiles_of_makeTileViews fit ran with ⟨plain, rfl, rfl⟩ | ⟨-, draft, tiles⟩
  · cases recorded : viewed.record with
    | none =>
        rw [Block.loopOverTiles_of_unrecorded recorded]
        exact readable
    | some record =>
        exact Block.readable_loopOverTiles recorded readable (declared plain record recorded)
          opening closing
  · exact Block.readable_loopOverTiles tiles.recorded (tiles.readable readable)
      tiles.readable_declarations opening closing

end Loop

end Lowering

namespace Pipeline

open Lowering

/-- **A tiled block is in charge of the same buffers.** After all steps of tiling, a block refers
to the buffers that its code still names, to those behind its tensors and to what these point to,
and to nothing else. Its earlier record counts only if the block has no new tiling. So views are
neither allocated nor freed with the block, and each buffer at most once. -/
theorem references_tiled {level : String} {options : TileLoopOptions} {annotate : Bool}
    {operation : String} {block tiled : Block} {start final : Workspace}
    (fit : block.FitForTiling level start.context)
    (ran : run [.tileViews level, .tileUpdates, .tileLoop options] annotate operation block start =
      .ok tiled final) :
    let references := tiled.references final.context .unrolled
    references =
      start.context.referencesAmong .unrolled (block.tiledNames level options start.context) ∧
    (∀ fragment ∈ block.fragments, ∀ name ∈ fragment.untiled,
      ∀ reached ∈ start.context.referencesAmong .unrolled [name], reached ∈ references) ∧
    (∀ name ∈ references, ¬ start.context.Unmanaged name ∧
      (final.context.find? name).map Buffer.core = (start.context.find? name).map Buffer.core) ∧
    (block.tiling?.isSome = true → ∀ record, tiled.record = some record →
      ∀ name ∈ (start.context.mangle (level ++ "_arena")).1 :: record.made, name ∉ references) ∧
    ((∀ fragment ∈ block.fragments, fragment.Readable) →
      (block.tiling? = none → ∀ record ∈ block.record, ∀ declaration ∈ record.declarations,
        declaration.Readable) →
      (Template.parse options.frame.1.source).isOk = true →
      (Template.parse options.frame.2.source).isOk = true →
        ∃ seen, Lowering.references tiled .unrolled final = .ok references seen) ∧
    ∀ templates note managed last,
      manageLifetimes (some templates) note tiled operation final = .ok managed last →
        ∃ opened middle code,
          Opening templates tiled operation final.context opened middle.context ∧
          endLifetimes (some templates) note operation opened middle = .ok code last ∧
          managed = (tiled.prepend opened.code).append code ∧
          ∀ name, opened.allocated.count name =
              (if name ∈ references ∧
                (final.context.find? name).any (Lifetimes.begins operation) = true then 1 else 0) ∧
            opened.freed.count name =
              (if name ∈ references ∧
                (final.context.find? name).any (Lifetimes.ends operation) = true
                then 1 else 0) := by
  intro references
  obtain ⟨viewed, afterViews, viewing, updating⟩ := runFrom_cons_eq_ok ran
  obtain ⟨updated, afterUpdates, updates, looping⟩ := runFrom_cons_eq_ok updating
  obtain ⟨rfl, rfl⟩ := pure_eq_ok updates
  obtain ⟨rfl, rfl⟩ := pure_eq_ok (runFrom_singleton_eq_ok looping)
  have preserved := preserved_makeTileViews fit viewing
  have listed : references =
      start.context.referencesAmong .unrolled (block.tiledNames level options start.context) :=
    preserved.referencesAmong_eq fun name managed =>
      mem_named_tiled fit viewing managed options
  have managed : ∀ name ∈ references, ¬ start.context.Unmanaged name := by
    intro name member
    rw [listed, Context.mem_referencesAmong_unrolled_iff] at member
    exact Context.managed_of_deployed member.1
  have nodup : references.Nodup := by
    rw [listed]
    exact fit.distinct.sublist (start.context.referencesAmong_sublist _ _)
  refine ⟨listed, ?_, ?_, ?_, ?_, ?_⟩
  · intro fragment member name behind reached reaches
    rw [Context.mem_referencesAmong_unrolled_iff] at reaches
    obtain ⟨deployed, source, same, path⟩ := reaches
    rw [List.mem_singleton] at same
    subst same
    have known := Context.isBuffer_of_managed
      ((Context.Preserved.refl start.context).reaches (.refl _)
        (Context.managed_of_deployed deployed) path).2
    have kept : source ∈ block.keptNames level start.context := Block.mem_keptNames_iff.mpr
      ⟨fragment, member, .inr (List.mem_filter.mpr ⟨behind, known⟩)⟩
    rw [listed, Context.mem_referencesAmong_unrolled_iff]
    exact ⟨deployed, source, List.mem_append_left _ kept, path⟩
  · intro name member
    exact ⟨managed name member, preserved.kept (managed name member)⟩
  · intro own record recorded name made member
    rcases tiles_of_makeTileViews fit viewing with ⟨plain, -⟩ | ⟨-, draft, tiles⟩
    · rw [plain] at own
      exact Bool.false_ne_true own
    · rw [Block.record_loopOverTiles tiles.recorded] at recorded
      cases recorded
      rcases List.mem_cons.mp made with rfl | made
      · exact managed _ member fit.arena
      · exact managed name member (tiles.unmanaged_of_made made)
  · intro readable declared opening closing
    exact references_of_readable
      (readable_tiled fit viewing readable declared opening closing) _ _
  · intro templates note ended last managing
    obtain ⟨opened, middle, beginning, afterBegin⟩ := bind_eq_ok managing
    obtain ⟨code, ending, closing, answered⟩ := bind_eq_ok afterBegin
    obtain ⟨rfl, rfl⟩ := pure_eq_ok answered
    have opening := beginLifetimes_eq_ok beginning
    exact ⟨opened, middle, code, opening, closing, rfl, fun name =>
      ⟨opening.count_allocated name, opening.count_freed nodup name⟩⟩

/-- Two tensors, scratch storage of a level, and a struct with a pointer to a third tensor. -/
def gatherContext : Context where
  types := { kinds := [.float 32 23 8, .pointer ⟨0⟩, .struct "table_t" [("row", ⟨1⟩)]] }
  locals := ⟨[
    { name := "x", type := ⟨0⟩, size := 64, users := ["gather"] },
    { name := "y", type := ⟨0⟩, size := 64 },
    { name := "scratch", type := ⟨0⟩, size := 16, level := some "L1", kind := .transient },
    .ofStruct "table" ⟨⟨2⟩, .struct [("row", .pointer (some "row"))]⟩ 4,
    { name := "row", type := ⟨0⟩, size := 32 }]⟩

/-- A kernel that is tiled on the first two tensors, with a scalar for each tile. -/
def gatherBlock : Block := .ofFragments [{
  template := { source := "gather(${in}, ${out}, ${tmp}, ${n}, &${table});" }
  bindings := .ofList [("in", .name "x"), ("out", .name "y"), ("tmp", .name "scratch"),
    ("n", .int 8), ("table", .name "table")]
  tiling := some {
    constraint := ⟨.ofList [("x", .ofList [("L1", ⟨0, 32⟩)]), ("y", .ofList [("L1", ⟨32, 32⟩)]),
      ("scratch", .ofList [("L1", ⟨64, 16⟩)])]⟩
    scheme := { perTile := .ofList [("n", [8, 6])] }
    schedules := [{
      inputs := .ofList [("in", [0, 32])]
      outputs := .ofList [("out", [0, 32])] }] } }]

theorem references_tiled_gatherBlock :
    gatherBlock.references gatherContext .unrolled = ["x", "y", "scratch", "table", "row"] ∧
    ∃ tiled final,
      run [.tileViews "L1", .tileUpdates, .tileLoop { transfers := true }] false "gather"
        gatherBlock { context := gatherContext } = .ok tiled final ∧
      tiled.references final.context .unrolled = ["x", "y", "table", "row"] ∧
      ∃ seen, Lowering.references tiled .unrolled final =
        .ok ["x", "y", "table", "row"] seen := by
  let options : TileLoopOptions := { transfers := true }
  obtain ⟨succeeds, fit, before, named, parses, opening, closing⟩ :
      observe (run [.tileViews "L1", .tileUpdates, .tileLoop options] false "gather" gatherBlock)
        (fun _ _ => ()) { context := gatherContext } = some () ∧
      gatherBlock.FitForTiling "L1" gatherContext ∧
      gatherBlock.references gatherContext .unrolled = ["x", "y", "scratch", "table", "row"] ∧
      gatherContext.referencesAmong .unrolled
        (gatherBlock.tiledNames "L1" options gatherContext) = ["x", "y", "table", "row"] ∧
      (∀ fragment ∈ gatherBlock.fragments,
        (Template.parse fragment.template.source).isOk = true) ∧
      (Template.parse options.frame.1.source).isOk = true ∧
      (Template.parse options.frame.2.source).isOk = true := by
    decide +kernel
  obtain ⟨tiled, final, ran, -⟩ := exists_of_observe succeeds
  obtain ⟨listed, -, -, -, found, -⟩ := references_tiled fit ran
  obtain ⟨seen, reading⟩ := found
    (fun fragment member => Fragment.readable_iff.mpr (parses fragment member))
    (fun _ record recorded => absurd recorded (by simp [gatherBlock, Block.ofFragments]))
    opening closing
  rw [listed, named] at reading
  exact ⟨before, tiled, final, ran, listed.trans named, seen, reading⟩

/-- Two tensors. -/
def twoContext : Context where
  types := { kinds := [.float 32 23 8] }
  locals := ⟨[{ name := "x", type := ⟨0⟩, size := 64 }, { name := "y", type := ⟨0⟩, size := 64 }]⟩

/-- A kernel that is tiled on one tensor. -/
def halvedKernel (source tensor : String) (offset : Nat) : Fragment where
  template := { source }
  bindings := .ofList [("in", .name tensor)]
  tiling := some {
    constraint := ⟨.ofList [(tensor, .ofList [("L1", ⟨offset, 32⟩)])]⟩
    schedules := [{ inputs := .ofList [("in", [0, 32])] }] }

/-- A block that is tiled a second time loses the tensor of its first tiling. -/
theorem retiledBlock_forgets :
    ∃ first middle,
      run [.tileViews "L1"] false "f" (.ofFragments [halvedKernel "f(${in});" "x" 0])
        { context := twoContext } = .ok first middle ∧
      let block := first.append [halvedKernel "g(${in});" "y" 32]
      block.FitForTiling "L1" middle.context ∧
      block.references middle.context .unrolled = ["x", "y"] ∧
      ∃ tiled final,
        run [.tileViews "L1", .tileUpdates, .tileLoop {}] false "g" block middle =
          .ok tiled final ∧
        tiled.references final.context .unrolled = ["y"] := by
  have evaluated : observe
      (run [.tileViews "L1"] false "f" (.ofFragments [halvedKernel "f(${in});" "x" 0]))
      (fun first middle =>
        let block := first.append [halvedKernel "g(${in});" "y" 32]
        (decide (block.FitForTiling "L1" middle.context),
          block.references middle.context .unrolled,
          observe (run [.tileViews "L1", .tileUpdates, .tileLoop {}] false "g" block)
            (fun tiled final => tiled.references final.context .unrolled) middle))
      { context := twoContext } = some (true, ["x", "y"], some ["y"]) := by
    decide +kernel
  obtain ⟨first, middle, ran, seen⟩ := exists_of_observe evaluated
  obtain ⟨fit, seen⟩ := Prod.mk.inj seen
  obtain ⟨before, after⟩ := Prod.mk.inj seen
  obtain ⟨tiled, final, ranAgain, seenAgain⟩ := exists_of_observe after
  exact ⟨first, middle, ran, of_decide_eq_true fit, before, tiled, final, ranAgain, seenAgain⟩

end Pipeline

end TensorLowering
