import TensorLowering.Proofs.TileTables

/-! # Declarations of views

The views that tiling makes are declared ahead of the loop, and what works on them lies inside of
it. A view is declared once for each binding that it was made for. So every view is declared exactly
once if and only if no two bindings lead to the same view and the block has no declaration of one
itself (`TensorLowering.Pipeline.views_declared_once`). A kernel that is bound to its scratch
storage by two keys declares the view twice
(`TensorLowering.Pipeline.sharedScratch_declared_twice`).
-/

namespace TensorLowering

/-! ### Declarations under a margin -/

namespace Fragment

/-- A fragment with the margin of the body of a loop. -/
def inLoop (fragment : Fragment) : Fragment :=
  { fragment with template := fragment.template.indent "    " }

/-- Whether a fragment declares a view, with blanks before it or without. -/
def declares (view : String) (fragment : Fragment) : Bool :=
  fragment.template.source.toList.dropWhile Lexeme.isBlank =
      ({} : LifetimeTemplates).reference.source.toList &&
    fragment.subject? = some view

theorem declares_of_subject_none {fragment : Fragment} (unnamed : fragment.subject? = none)
    (view : String) : fragment.declares view = false := by
  simp [declares, unnamed]

theorem countP_declares_of_unnamed {code : List Fragment}
    (unnamed : ∀ fragment ∈ code, fragment.subject? = none) (view : String) :
    code.countP (declares view) = 0 := by
  rw [List.countP_eq_zero]
  intro fragment member
  rw [declares_of_subject_none (unnamed fragment member)]
  exact Bool.false_ne_true

theorem IsDeclaration.declares_eq {declaration : Fragment} {view : String}
    (declaring : declaration.IsDeclaration view) (other : String) :
    declaration.declares other = decide (declaration.subject? = some other) := by
  have plain : ({} : LifetimeTemplates).reference.source.toList.dropWhile Lexeme.isBlank =
      ({} : LifetimeTemplates).reference.source.toList := by
    decide +kernel
  rw [declares, declaring.1, plain, decide_eq_true rfl, Bool.true_and]

/-- A margin neither makes nor hides a declaration. -/
theorem declares_inLoop (fragment : Fragment) (view : String) :
    fragment.inLoop.declares view = fragment.declares view := by
  have oneLine : '\n' ∉ ({} : LifetimeTemplates).reference.source.toList := by decide +kernel
  have widened := (Text.indent_widened blank_margin fragment.template.source).pass fun _ => id
  have rest : Text.Widened (fragment.template.source.toList.dropWhile Lexeme.isBlank)
      (fragment.inLoop.template.source.toList.dropWhile Lexeme.isBlank) := widened.2
  have same : fragment.inLoop.template.source.toList.dropWhile Lexeme.isBlank =
        ({} : LifetimeTemplates).reference.source.toList ↔
      fragment.template.source.toList.dropWhile Lexeme.isBlank =
        ({} : LifetimeTemplates).reference.source.toList := by
    constructor
    · intro declaring
      rw [declaring] at rest
      exact (rest.eq_of_one_line (mt rest.mem_newline_iff.mp oneLine)).symm
    · intro declaring
      rw [declaring] at rest
      exact rest.eq_of_one_line oneLine
  rw [declares, declares, decide_eq_decide.mpr same]
  rfl

end Fragment

/-! ### The body of the loop -/

namespace TileRecord

/-- The code that runs for each tile: copies of tiles if wanted, updates of scalars, and the given
code. -/
def tileCode (options : TileLoopOptions) (record : TileRecord) (code : List Fragment) :
    List Fragment :=
  (if options.transfers then (record.transfers .inward).reverse else []) ++
    (record.replacements.map record.update ++ code) ++
    if options.transfers then record.transfers .outward else []

variable {record : TileRecord}

theorem loopBody_updateTiles {block : Block} (recorded : block.record = some record)
    (options : TileLoopOptions) :
    block.updateTiles.loopBody options record =
      (record.tileCode options block.fragments).map Fragment.inLoop := by
  rw [Block.updateTiles_of_recorded recorded]
  refine congrArg (List.map Fragment.inLoop) ?_
  rw [tileCode]
  split
  · simp [Block.addTransfers, Block.prepend, Block.append]
  · simp [Block.prepend]

theorem subject?_loopLine (template : Template) : (record.loopLine template).subject? = none := by
  simp [loopLine, loopBindings, Fragment.subject?, Dict.ofList, Dict.find?_insert]

theorem countP_declares_transfers (direction : Direction) (view : String) :
    (record.transfers direction).countP (Fragment.declares view) = 0 := by
  apply Fragment.countP_declares_of_unnamed
  intro fragment member
  obtain ⟨tensor, -, rfl⟩ := List.mem_map.mp member
  simp [transfer, Fragment.ofSource, Fragment.subject?, Dict.ofList, Dict.find?_insert]

theorem countP_declares_updates (view : String) :
    (record.replacements.map record.update).countP (Fragment.declares view) = 0 := by
  apply Fragment.countP_declares_of_unnamed
  intro fragment member
  obtain ⟨replacement, -, rfl⟩ := List.mem_map.mp member
  simp [update, Fragment.ofSource, Fragment.subject?, Dict.ofList, Dict.find?_insert]

/-- Only the code that was there before the loop may declare a view inside of it. -/
theorem countP_declares_tileCode (options : TileLoopOptions) (code : List Fragment)
    (view : String) :
    ((record.tileCode options code).map Fragment.inLoop).countP (Fragment.declares view) =
      code.countP (Fragment.declares view) := by
  have margin : Fragment.declares view ∘ Fragment.inLoop = Fragment.declares view := by
    funext fragment
    exact fragment.declares_inLoop view
  rw [List.countP_map, margin, tileCode]
  cases options.transfers with
  | false => simp only [List.countP_append, countP_declares_updates, if_neg Bool.false_ne_true,
      List.countP_nil, Nat.zero_add, Nat.add_zero]
  | true => simp only [List.countP_append, List.countP_reverse, countP_declares_updates,
      countP_declares_transfers, if_true, Nat.zero_add, Nat.add_zero]

end TileRecord

/-! ### The views of a kernel -/

namespace Lowering

variable {tiling : Tiling} {operation level : String} {kernel : Fragment}
  {scratch : List (String × String)} {draft : TileDraft} {origin context : Context}

/-- The logical names of the views that are made for a kernel. -/
inductive ViewName (tiling : Tiling) (operation level : String) (kernel : Fragment)
    (origin context : Context) : String → Prop
  | tensor {direction : Direction} {key : String} (tiled : tiling.Tiles direction key) :
      ViewName tiling operation level kernel origin context (tensorName operation level key)
  | scratch {key name : String}
      (chosen : ScratchKey tiling operation level kernel origin context key name) :
      ViewName tiling operation level kernel origin context (scratchName operation level name)
  | scalar {key : String} {values : List Int}
      (listed : tiling.scheme.perTile.find? key = some values) :
      ViewName tiling operation level kernel origin context (scalarName operation key)

/-- A view that is made for a kernel has the identifier of one of the names. -/
def IsView (tiling : Tiling) (operation level : String) (kernel : Fragment)
    (origin context : Context) (view : String) : Prop :=
  ∃ logical, ViewName tiling operation level kernel origin context logical ∧
    context.mangled.find? logical = some view

/-- No view is made twice: no key is tiled in both directions, no scratch storage is bound to two
keys, and no identifier stands for two views. -/
structure DistinctViews (tiling : Tiling) (operation level : String) (kernel : Fragment)
    (origin context : Context) : Prop where
  oneDirection : ∀ {key}, tiling.Tiles .inward key → ¬ tiling.Tiles .outward key
  oneKey : ∀ {first second name},
    ScratchKey tiling operation level kernel origin context first name →
      ScratchKey tiling operation level kernel origin context second name → first = second
  apart : ∀ {first second}, ViewName tiling operation level kernel origin context first →
    ViewName tiling operation level kernel origin context second →
      context.mangled.find? first = context.mangled.find? second → first = second

theorem tensorName_injective (operation level : String) :
    Function.Injective (tensorName operation level) := by
  intro first second same
  simpa [tensorName] using same

theorem scratchName_injective (operation level : String) :
    Function.Injective (scratchName operation level) := by
  intro first second same
  simpa [scratchName] using same

theorem scalarName_injective (operation : String) : Function.Injective (scalarName operation) := by
  intro first second same
  simpa [scalarName] using same

/-- The three families of names differ in the character after the operation. -/
theorem viewNames_disjoint (operation level key name scalar : String) :
    tensorName operation level key ≠ scratchName operation level name ∧
      tensorName operation level key ≠ scalarName operation scalar ∧
      scratchName operation level name ≠ scalarName operation scalar := by
  refine ⟨?_, ?_, ?_⟩ <;> intro same <;> have lists := congrArg String.toList same <;>
    simp [tensorName, scratchName, scalarName] at lists

theorem mem_viewNames_iff
    (drafted : KernelDrafted tiling operation level kernel scratch draft origin context)
    {logical : String} :
    logical ∈ viewNames operation level tiling.schedule.tensors scratch
        tiling.scheme.perTile.entries ↔
      ViewName tiling operation level kernel origin context logical := by
  simp only [viewNames, List.mem_append, List.mem_map]
  constructor
  · rintro (⟨⟨key, offsets, direction⟩, member, rfl⟩ | ⟨⟨key, name⟩, member, rfl⟩ |
      ⟨⟨key, values⟩, member, rfl⟩)
    · exact .tensor (Tiling.mem_tensors_iff.mp member).1
    · exact .scratch (drafted.chosen.mp member)
    · exact .scalar (Dict.mem_entries_iff.mp member)
  · intro made
    cases made with
    | tensor tiled => exact .inl ⟨_, Tiling.mem_tensors_iff.mpr ⟨tiled, rfl⟩, rfl⟩
    | scratch chosen => exact .inr (.inl ⟨_, drafted.chosen.mpr chosen, rfl⟩)
    | scalar listed => exact .inr (.inr ⟨_, Dict.mem_entries_iff.mpr listed, rfl⟩)

theorem nodup_tensorKeys_iff : (tiling.schedule.tensors.map Prod.fst).Nodup ↔
    ∀ key, tiling.Tiles .inward key → ¬ tiling.Tiles .outward key := by
  have keys : tiling.schedule.tensors.map Prod.fst =
      tiling.schedule.inputs.keys ++ tiling.schedule.outputs.keys := by
    rw [TileSchedule.tensors, List.map_append, List.map_map, List.map_map]
    rfl
  have mem_side : ∀ {direction key}, key ∈ (tiling.schedule.side direction).keys ↔
      tiling.Tiles direction key := by
    intro direction key
    rw [← Dict.contains_iff_mem_keys, Dict.contains, Option.isSome_iff_exists]
    simp [Tiling.find?_schedule_iff]
  rw [keys, List.nodup_append]
  constructor
  · intro distinct key inward outward
    exact distinct.2.2 key (mem_side.mpr inward) key (mem_side.mpr outward) rfl
  · intro once
    refine ⟨tiling.schedule.inputs.nodup_keys, tiling.schedule.outputs.nodup_keys, ?_⟩
    rintro key inward _ outward rfl
    exact once key (mem_side.mp inward) (mem_side.mp outward)

theorem nodup_scratchNames_iff
    (drafted : KernelDrafted tiling operation level kernel scratch draft origin context) :
    (scratch.map Prod.snd).Nodup ↔ ∀ first second name,
      ScratchKey tiling operation level kernel origin context first name →
        ScratchKey tiling operation level kernel origin context second name → first = second := by
  rw [List.nodup_map_iff_inj_on drafted.keys.of_map]
  constructor
  · intro once first second name firstChosen secondChosen
    exact congrArg Prod.fst (once _ (drafted.chosen.mpr firstChosen) _
      (drafted.chosen.mpr secondChosen) rfl)
  · rintro once ⟨first, name⟩ firstListed ⟨second, _⟩ secondListed rfl
    exact congrArg (·, name) (once first second name (drafted.chosen.mp firstListed)
      (drafted.chosen.mp secondListed))

theorem nodup_map_name_iff {α : Type} {name : String → String} (distinct : Function.Injective name)
    (part : α → String) (items : List α) :
    (items.map fun item => name (part item)).Nodup ↔ (items.map part).Nodup := by
  have parts : (items.map fun item => name (part item)) = (items.map part).map name :=
    List.map_map.symm
  rw [parts, List.nodup_map_iff distinct]

theorem nodup_viewNames_iff
    (drafted : KernelDrafted tiling operation level kernel scratch draft origin context) :
    (viewNames operation level tiling.schedule.tensors scratch
        tiling.scheme.perTile.entries).Nodup ↔
      (∀ key, tiling.Tiles .inward key → ¬ tiling.Tiles .outward key) ∧
      ∀ first second name, ScratchKey tiling operation level kernel origin context first name →
        ScratchKey tiling operation level kernel origin context second name → first = second := by
  have scalars : (tiling.scheme.perTile.entries.map (scalarName operation ·.1)).Nodup :=
    (nodup_map_name_iff (scalarName_injective operation) _ _).mpr tiling.scheme.perTile.nodup_keys
  rw [viewNames, List.nodup_append, List.nodup_append,
    nodup_map_name_iff (tensorName_injective operation level),
    nodup_map_name_iff (scratchName_injective operation level), ← nodup_tensorKeys_iff,
    ← nodup_scratchNames_iff drafted]
  constructor
  · intro distinct
    exact ⟨distinct.1, distinct.2.1.1⟩
  · intro distinct
    refine ⟨distinct.1, ⟨distinct.2, scalars, ?_⟩, ?_⟩
    · simp only [List.mem_map]
      rintro _ ⟨storage, -, rfl⟩ _ ⟨scalar, -, rfl⟩
      exact (viewNames_disjoint operation level "" storage.2 scalar.1).2.2
    · simp only [List.mem_append, List.mem_map]
      rintro _ ⟨tensor, -, rfl⟩ _ (⟨storage, -, rfl⟩ | ⟨scalar, -, rfl⟩)
      · exact (viewNames_disjoint operation level tensor.1 storage.2 "").1
      · exact (viewNames_disjoint operation level tensor.1 "" scalar.1).2.1

/-! ### Counting declarations -/

theorem Drafted.subjects {tensors : List (String × List Nat × Direction)}
    {scalars : List (String × List Int)}
    (drafted : Drafted operation level tensors scratch scalars draft context) :
    draft.record.declarations.map Fragment.subject? =
      (viewNames operation level tensors scratch scalars).map context.mangled.find? := by
  rw [← List.forall₂_eq_eq_eq, List.forall₂_map_left_iff, List.forall₂_map_right_iff]
  apply drafted.declared.flip.imp
  rintro declaration logical ⟨view, given, declaring⟩
  exact declaring.2.trans given.symm

/-- A view is declared once for each name that it was made for. -/
theorem Drafted.countP_declares {tensors : List (String × List Nat × Direction)}
    {scalars : List (String × List Int)}
    (drafted : Drafted operation level tensors scratch scalars draft context) (view : String) :
    draft.record.declarations.countP (Fragment.declares view) =
      ((viewNames operation level tensors scratch scalars).map context.mangled.find?).count
        (some view) := by
  rw [← drafted.subjects, List.count, List.countP_map]
  apply List.countP_congr
  intro declaration member
  obtain ⟨logical, -, _, -, declaring⟩ := exists_of_forall₂ drafted.declared.flip member
  rw [declaring.declares_eq view]
  simp

theorem given_of_viewName
    (drafted : KernelDrafted tiling operation level kernel scratch draft origin context)
    {logical : String} (made : ViewName tiling operation level kernel origin context logical) :
    ∃ view, context.mangled.find? logical = some view ∧
      ∃ declaration ∈ draft.record.declarations, declaration.IsDeclaration view := by
  obtain ⟨declaration, listed, view, given, declaring⟩ :=
    exists_of_forall₂ drafted.declared ((mem_viewNames_iff drafted).mpr made)
  exact ⟨view, given, declaration, listed, declaring⟩

theorem isView_iff_declared
    (drafted : KernelDrafted tiling operation level kernel scratch draft origin context)
    (view : String) : IsView tiling operation level kernel origin context view ↔
      ∃ declaration ∈ draft.record.declarations, declaration.declares view = true := by
  constructor
  · intro isView
    obtain ⟨logical, made, given⟩ := isView
    obtain ⟨_, givenAgain, declaration, declared, declaring⟩ := given_of_viewName drafted made
    obtain rfl := Option.some.inj (given.symm.trans givenAgain)
    refine ⟨declaration, declared, ?_⟩
    rw [declaring.declares_eq, decide_eq_true declaring.2]
  · intro declared
    obtain ⟨declaration, member, declares⟩ := declared
    obtain ⟨logical, listed, other, given, declaring⟩ :=
      exists_of_forall₂ drafted.declared.flip member
    rw [declaring.declares_eq, decide_eq_true_iff, declaring.2] at declares
    exact ⟨logical, (mem_viewNames_iff drafted).mp listed, given.trans declares⟩

theorem nodup_identifiers_iff
    (drafted : KernelDrafted tiling operation level kernel scratch draft origin context) :
    ((viewNames operation level tiling.schedule.tensors scratch
        tiling.scheme.perTile.entries).map context.mangled.find?).Nodup ↔
      DistinctViews tiling operation level kernel origin context := by
  constructor
  · intro distinct
    obtain ⟨oneDirection, oneKey⟩ := (nodup_viewNames_iff drafted).mp distinct.of_map
    refine ⟨oneDirection _, oneKey _ _ _, fun first second same => ?_⟩
    exact List.inj_on_of_nodup_map distinct ((mem_viewNames_iff drafted).mpr first)
      ((mem_viewNames_iff drafted).mpr second) same
  · intro distinct
    have names := (nodup_viewNames_iff drafted).mpr
      ⟨fun _ => distinct.oneDirection, fun _ _ _ => distinct.oneKey⟩
    apply names.map_on
    intro first firstListed second secondListed same
    exact distinct.apart ((mem_viewNames_iff drafted).mp firstListed)
      ((mem_viewNames_iff drafted).mp secondListed) same

/-- Views are declared once each, along with other code, exactly if no view is made twice and the
other code declares none. -/
theorem declared_once_iff
    (drafted : KernelDrafted tiling operation level kernel scratch draft origin context)
    (code : List Fragment) :
    (∀ view, IsView tiling operation level kernel origin context view →
      draft.record.declarations.countP (Fragment.declares view) +
        code.countP (Fragment.declares view) = 1) ↔
      DistinctViews tiling operation level kernel origin context ∧
      ∀ fragment ∈ code, ∀ view, IsView tiling operation level kernel origin context view →
        fragment.declares view = false := by
  let identifiers := (viewNames operation level tiling.schedule.tensors scratch
    tiling.scheme.perTile.entries).map context.mangled.find?
  have isView_iff : ∀ {view}, IsView tiling operation level kernel origin context view ↔
      some view ∈ identifiers := by
    intro view
    rw [List.mem_map]
    exact exists_congr fun logical => and_congr_left' (mem_viewNames_iff drafted).symm
  have given : ∀ identifier ∈ identifiers, ∃ view, identifier = some view := by
    intro identifier member
    obtain ⟨logical, listed, rfl⟩ := List.mem_map.mp member
    obtain ⟨view, given, -⟩ := given_of_viewName drafted ((mem_viewNames_iff drafted).mp listed)
    exact ⟨view, given⟩
  have once_iff : ∀ view, IsView tiling operation level kernel origin context view →
      (draft.record.declarations.countP (Fragment.declares view) +
        code.countP (Fragment.declares view) = 1 ↔
        identifiers.count (some view) = 1 ∧
          ∀ fragment ∈ code, fragment.declares view = false) := by
    intro view isView
    have present : 0 < identifiers.count (some view) :=
      List.count_pos_iff.mpr (isView_iff.mp isView)
    have none_iff : code.countP (Fragment.declares view) = 0 ↔
        ∀ fragment ∈ code, fragment.declares view = false := by
      simp only [List.countP_eq_zero, Bool.not_eq_true]
    rw [drafted.countP_declares view, ← none_iff]
    change identifiers.count (some view) + _ = 1 ↔ _
    omega
  rw [← nodup_identifiers_iff drafted, List.nodup_iff_count_eq_one]
  constructor
  · intro once
    refine ⟨fun identifier member => ?_, fun fragment member view isView => ?_⟩
    · obtain ⟨view, rfl⟩ := given identifier member
      have isView := isView_iff.mpr member
      exact ((once_iff view isView).mp (once view isView)).1
    · exact ((once_iff view isView).mp (once view isView)).2 fragment member
  · intro once view isView
    exact (once_iff view isView).mpr ⟨once.1 _ (isView_iff.mp isView),
      fun fragment member => once.2 fragment member view isView⟩

end Lowering

/-! ### Tiled blocks -/

namespace Pipeline

open Lowering

/-- **Views are declared before the loop, and once each unless two bindings share one.** After all
steps of tiling, the declarations of the views are followed by the loop, whose two lines name
nothing. Its body holds the copies of tiles, the updates of scalars and the code of the block. The
declarations are those of all views. Each view has exactly one exactly if no view is made twice and
the code of the block has no declaration of one. Identifiers are no obstacle unless two names shared
one from the start. -/
theorem views_declared_once {level operation : String} {annotate : Bool}
    {options : TileLoopOptions} {block tiled : Block} {kernel : Fragment} {tiling : Tiling}
    {start final : Workspace} (member : kernel ∈ block.fragments)
    (own : kernel.tiling = some tiling)
    (ran : run [.tileViews level, .tileUpdates, .tileLoop options] annotate operation block start =
      .ok tiled final) :
    ∃ viewed record, makeTileViews level block operation start = .ok viewed final ∧
      viewed.record = some record ∧
      tiled.fragments = record.declarations ++ record.loopLine options.frame.1 ::
        ((record.tileCode options viewed.fragments).map Fragment.inLoop ++
          [record.loopLine options.frame.2]) ∧
      (∀ template key name, (record.loopLine template).bindings.find? key ≠ some (.name name)) ∧
      (∀ view, IsView tiling operation level kernel start.context final.context view ↔
        ∃ declaration ∈ record.declarations, declaration.declares view = true) ∧
      ((∀ view, IsView tiling operation level kernel start.context final.context view →
          tiled.fragments.countP (Fragment.declares view) = 1) ↔
        DistinctViews tiling operation level kernel start.context final.context ∧
        ∀ fragment ∈ viewed.fragments, ∀ view,
          IsView tiling operation level kernel start.context final.context view →
            fragment.declares view = false) ∧
      (start.context.IdentifiersApart → ∀ first second,
        ViewName tiling operation level kernel start.context final.context first →
        ViewName tiling operation level kernel start.context final.context second →
          final.context.mangled.find? first = final.context.mangled.find? second →
            first = second) := by
  obtain ⟨viewed, afterViews, viewing, updating⟩ := runFrom_cons_eq_ok ran
  obtain ⟨updated, afterUpdates, updates, looping⟩ := runFrom_cons_eq_ok updating
  obtain ⟨rfl, rfl⟩ := pure_eq_ok updates
  obtain ⟨rfl, rfl⟩ := pure_eq_ok (runFrom_singleton_eq_ok looping)
  obtain ⟨draft, scratch, recorded, drafted⟩ := makeTileViews_drafted member own viewing
  have stillRecorded : viewed.updateTiles.record = some draft.record := by
    rw [Block.updateTiles_of_recorded recorded]
    exact recorded
  have listed := Block.fragments_loopOverTiles stillRecorded options
  rw [TileRecord.loopBody_updateTiles recorded] at listed
  refine ⟨viewed, draft.record, viewing, recorded, listed,
    fun _ => TileRecord.not_named_loopBindings, isView_iff_declared drafted, ?_, ?_⟩
  · rw [← declared_once_iff drafted]
    refine forall_congr' fun view => imp_congr_right fun _ => ?_
    have unnamed : ∀ template, (draft.record.loopLine template).declares view = false :=
      fun template => Fragment.declares_of_subject_none (TileRecord.subject?_loopLine template) view
    rw [listed, List.countP_append, List.countP_cons, List.countP_append, List.countP_singleton,
      unnamed, unnamed, TileRecord.countP_declares_tileCode]
    rfl
  · intro apart first second firstMade secondMade same
    obtain ⟨view, given, -⟩ := given_of_viewName drafted firstMade
    exact drafted.retains.apart apart first second view given (same.symm.trans given)

/-- A tensor, and scratch storage of a level. -/
def scratchContext : Context where
  types := { kinds := [.float 32 23 8] }
  locals := ⟨[
    { name := "x", type := ⟨0⟩, size := 128 },
    { name := "scratch", type := ⟨0⟩, size := 32, level := some "L1", kind := .transient }]⟩

/-- The tiles of the tensor and the place of the scratch storage. -/
def scratchTiling (scheme : TileScheme) : Tiling where
  constraint := ⟨.ofList
    [("x", .ofList [("L1", ⟨0, 64⟩)]), ("scratch", .ofList [("L1", ⟨64, 32⟩)])]⟩
  scheme
  schedules := [{ inputs := .ofList [("x", [0, 64])] }]

/-- A kernel on the tensor and the scratch storage, with one more argument. -/
def scratchKernel (argument : Binding) (scheme : TileScheme) : Fragment :=
  { Fragment.ofSource "k(${x}, ${a}, ${b});"
      [("x", .name "x"), ("a", .name "scratch"), ("b", argument)] with
    tiling := some (scratchTiling scheme) }

theorem tensorKeys_scratchTiling (scheme : TileScheme) :
    (scratchTiling scheme).schedule.tensors.map Prod.fst = ["x"] := by
  change (scratchTiling {}).schedule.tensors.map Prod.fst = ["x"]
  decide +kernel

theorem scratchKey_scratchKernel {argument : Binding} {scheme : TileScheme} {context : Context}
    (given : context.mangled.find? "k.x.L1" = some "k_x_L1") :
    ScratchKey (scratchTiling scheme) "k" "L1" (scratchKernel argument scheme) scratchContext
      context "a" "scratch" := by
  refine ⟨?_, by decide +kernel, ?_, ?_⟩
  · simp [scratchKernel, Fragment.ofSource, Dict.ofList, Dict.find?_insert]
  · rw [tensorKeys_scratchTiling]
    decide
  · rw [tensorKeys_scratchTiling, List.forall_mem_singleton]
    change context.mangled.find? "k.x.L1" ≠ some "scratch"
    rw [given]
    decide

/-- A scalar for each tile. -/
def scalarScheme : TileScheme := { perTile := .ofList [("b", [4, 2])] }

theorem views_declared_once_scalarScheme :
    ∃ tiled final,
      run [.tileViews "L1", .tileUpdates, .tileLoop { transfers := true }] false "k"
        (.ofFragments [scratchKernel (.int 4) scalarScheme]) { context := scratchContext } =
          .ok tiled final ∧
      tiled.fragments.countP (Fragment.declares "k_x_L1") = 1 ∧
      tiled.fragments.countP (Fragment.declares "k_scratch_L1") = 1 ∧
      tiled.fragments.countP (Fragment.declares "k_b_ref") = 1 := by
  obtain ⟨succeeds, unnamed, scalarKey⟩ :
      observe
        (run [.tileViews "L1", .tileUpdates, .tileLoop { transfers := true }] false "k"
          (.ofFragments [scratchKernel (.int 4) scalarScheme]))
        (fun _ final => ["k.x.L1", "k:scratch:L1", "k/b/ref"].map final.context.mangled.find?)
        { context := scratchContext } =
          some [some "k_x_L1", some "k_scratch_L1", some "k_b_ref"] ∧
      observe (makeTileViews "L1" (.ofFragments [scratchKernel (.int 4) scalarScheme]) "k")
        (fun viewed _ => viewed.fragments.map Fragment.subject?) { context := scratchContext } =
          some [none] ∧
      scalarScheme.perTile.find? "b" = some [4, 2] := by
    decide +kernel
  obtain ⟨tiled, final, ran, given⟩ := exists_of_observe succeeds
  simp only [List.map_cons, List.map_nil, List.cons.injEq, and_true] at given
  have member : scratchKernel (.int 4) scalarScheme ∈
      (Block.ofFragments [scratchKernel (.int 4) scalarScheme]).fragments :=
    List.mem_singleton_self _
  obtain ⟨viewed, record, viewing, -, -, -, -, once_iff, apart⟩ :=
    views_declared_once member rfl ran
  have distinct : DistinctViews (scratchTiling scalarScheme) "k" "L1"
      (scratchKernel (.int 4) scalarScheme) scratchContext final.context := by
    have oneKey : ∀ key name, ScratchKey (scratchTiling scalarScheme) "k" "L1"
        (scratchKernel (.int 4) scalarScheme) scratchContext final.context key name →
          key = "a" := by
      intro key name chosen
      have listed := Dict.mem_of_find?_ofList chosen.1
      have notTiled := chosen.2.2.1
      rw [tensorKeys_scratchTiling] at notTiled
      simp only [List.mem_cons, Prod.mk.injEq, reduceCtorEq, and_false, List.not_mem_nil,
        or_false] at listed notTiled
      exact (listed.resolve_left fun tiled => notTiled tiled.1).1
    refine ⟨?_, ?_, apart ?_ _ _⟩
    · rintro key - ⟨schedule, listed, outward⟩
      obtain rfl := List.mem_singleton.mp listed
      cases outward
    · intro first second name firstChosen secondChosen
      rw [oneKey first name firstChosen, oneKey second name secondChosen]
    · intro first second identifier firstGiven
      cases firstGiven
  have undeclared : ∀ fragment ∈ viewed.fragments, ∀ view,
      fragment.declares view = false := by
    rw [observe, viewing] at unnamed
    intro fragment listed view
    have subject := List.mem_map_of_mem (f := Fragment.subject?) listed
    rw [Option.some.inj unnamed, List.mem_singleton] at subject
    exact Fragment.declares_of_subject_none subject view
  have once := once_iff.mpr
    ⟨distinct, fun fragment listed view _ => undeclared fragment listed view⟩
  have tiledKey : (scratchTiling scalarScheme).Tiles .inward "x" :=
    ⟨_, List.mem_cons_self, by decide⟩
  exact ⟨tiled, final, ran, once _ ⟨_, .tensor tiledKey, given.1⟩,
    once _ ⟨_, .scratch (scratchKey_scratchKernel given.1), given.2.1⟩,
    once _ ⟨_, .scalar scalarKey, given.2.2⟩⟩

/-- Two keys that are bound to the same scratch storage declare its view twice. -/
theorem sharedScratch_declared_twice :
    ∃ tiled final,
      run [.tileViews "L1", .tileUpdates, .tileLoop {}] false "k"
        (.ofFragments [scratchKernel (.name "scratch") {}]) { context := scratchContext } =
          .ok tiled final ∧
      IsView (scratchTiling {}) "k" "L1" (scratchKernel (.name "scratch") {}) scratchContext
        final.context "k_scratch_L1" ∧
      tiled.fragments.countP (Fragment.declares "k_scratch_L1") = 2 := by
  have succeeds : observe
      (run [.tileViews "L1", .tileUpdates, .tileLoop {}] false "k"
        (.ofFragments [scratchKernel (.name "scratch") {}]))
      (fun tiled final => (["k.x.L1", "k:scratch:L1"].map final.context.mangled.find?,
        tiled.fragments.countP (Fragment.declares "k_scratch_L1")))
      { context := scratchContext } = some ([some "k_x_L1", some "k_scratch_L1"], 2) := by
    decide +kernel
  obtain ⟨tiled, final, ran, seen⟩ := exists_of_observe succeeds
  obtain ⟨given, twice⟩ := Prod.mk.inj seen
  simp only [List.map_cons, List.map_nil, List.cons.injEq, and_true] at given
  exact ⟨tiled, final, ran,
    ⟨_, .scratch (scratchKey_scratchKernel given.1), given.2⟩, twice⟩

end Pipeline

end TensorLowering
