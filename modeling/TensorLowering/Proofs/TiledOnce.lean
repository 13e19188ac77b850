import TensorLowering.Proofs.Moves
import TensorLowering.Proofs.TiledBlocks

/-! # Kernels are tiled once

Tiling takes the tiling of a kernel away, and no pass adds code with a tiling
(`TensorLowering.Pass.yields_kernelsIf`). So only the first of the passes of a pipeline that tile
finds a kernel, unless an operation comes with a record that declares one
(`TensorLowering.Composes.pipeline_once`).
-/

namespace TensorLowering

/-- Code without a kernel that is still to be tiled. -/
def Untiled (fragments : List Fragment) : Prop := ∀ fragment ∈ fragments, fragment.tiling = none

theorem untiled_nil : Untiled [] := List.forall_mem_nil _

theorem Untiled.append {first second : List Fragment} (untiled : Untiled first)
    (later : Untiled second) : Untiled (first ++ second) :=
  List.forall_mem_append.mpr ⟨untiled, later⟩

theorem untiled_singleton {fragment : Fragment} (plain : fragment.tiling = none) :
    Untiled [fragment] :=
  List.forall_mem_singleton.mpr plain

theorem untiled_map {α : Type} {items : List α} {code : α → Fragment}
    (plain : ∀ item, (code item).tiling = none) : Untiled (items.map code) :=
  List.forall_mem_map.mpr fun item _ => plain item

/-- The record of a block, if there is one, declares no kernel. -/
def Block.PlainRecord (block : Block) : Prop :=
  ∀ record, block.record = some record → Untiled record.declarations

/-- The record of a block declares no kernel, and there is a kernel in its code only under a
condition. -/
structure Block.KernelsIf (condition : Prop) (block : Block) : Prop where
  code : ∀ fragment ∈ block.fragments, fragment.tiling ≠ none → condition
  record : block.PlainRecord

namespace Block.KernelsIf

variable {condition : Prop} {block : Block}

theorem of_plainRecord (record : block.PlainRecord) : block.KernelsIf True :=
  ⟨fun _ _ _ => trivial, record⟩

theorem untiled (spent : block.KernelsIf False) : Untiled block.fragments :=
  fun fragment member => Classical.byContradiction (spent.code fragment member)

theorem of_untiled (untiled : Untiled block.fragments) (record : block.PlainRecord) :
    block.KernelsIf condition :=
  ⟨fun fragment member tiled => absurd (untiled fragment member) tiled, record⟩

theorem prepend (kernels : block.KernelsIf condition) {added : List Fragment}
    (untiled : Untiled added) : (block.prepend added).KernelsIf condition where
  code := List.forall_mem_append.mpr
    ⟨fun fragment member tiled => absurd (untiled fragment member) tiled, kernels.code⟩
  record := kernels.record

theorem append (kernels : block.KernelsIf condition) {added : List Fragment}
    (untiled : Untiled added) : (block.append added).KernelsIf condition where
  code := List.forall_mem_append.mpr
    ⟨kernels.code, fun fragment member tiled => absurd (untiled fragment member) tiled⟩
  record := kernels.record

theorem updateTiles (kernels : block.KernelsIf condition) :
    block.updateTiles.KernelsIf condition := by
  unfold Block.updateTiles
  split
  · exact kernels
  · exact kernels.prepend (untiled_map fun _ => rfl)

theorem indent (kernels : block.KernelsIf condition) (margin : String) :
    (block.indent margin).KernelsIf condition :=
  ⟨List.forall_mem_map.mpr kernels.code, kernels.record⟩

theorem loopOverTiles (kernels : block.KernelsIf condition) (options : TileLoopOptions) :
    (block.loopOverTiles options).KernelsIf condition := by
  unfold Block.loopOverTiles
  split
  · exact kernels
  · next record recorded =>
      have body : (if options.transfers then block.addTransfers record else block).KernelsIf
          condition := by
        split
        · have inward : Untiled (record.transfers .inward).reverse := by
            intro fragment member
            exact untiled_map (fun _ => rfl) fragment (List.mem_reverse.mp member)
          exact (kernels.prepend inward).append (untiled_map fun _ => rfl)
        · exact kernels
      have loop := ((body.indent "    ").prepend
        (@untiled_singleton ⟨options.frame.1, record.loopBindings, none⟩ rfl)).append
        (@untiled_singleton ⟨options.frame.2, record.loopBindings, none⟩ rfl)
      exact loop.prepend (kernels.record record recorded)

end Block.KernelsIf

/-! ### The answers of steps -/

namespace Lowering

/-- Every answer of a step has a property. -/
structure Yields {α : Type} (property : α → Prop) (step : Lowering α) : Prop where
  holds : ∀ {workspace answer final}, step workspace = .ok answer final → property answer

section Yields

variable {α β : Type} {property : α → Prop} {result : β → Prop}

theorem yields_pure {answer : α} (holds : property answer) : Yields property (pure answer) where
  holds ran := (pure_eq_ok ran).1 ▸ holds

theorem yields_throw (error : Error) : Yields property (throw error : Lowering α) where
  holds ran := by cases ran

theorem yields_ask {question : Context → Except Error α}
    (holds : ∀ context answer, question context = .ok answer → property answer) :
    Yields property (ask question) where
  holds ran := holds _ _ (ask_eq_ok ran).1

/-- Any step, followed by one with a property of its own. -/
theorem yields_bind {first : Lowering α} {next : α → Lowering β}
    (yields : ∀ answer, Yields result (next answer)) : Yields result (first >>= next) where
  holds ran := by
    obtain ⟨middle, between, -, nextRan⟩ := bind_eq_ok ran
    exact (yields middle).holds nextRan

theorem Yields.bind {first : Lowering α} {next : α → Lowering β} (yields : Yields property first)
    (nextYields : ∀ answer, property answer → Yields result (next answer)) :
    Yields result (first >>= next) where
  holds ran := by
    obtain ⟨middle, between, firstRan, nextRan⟩ := bind_eq_ok ran
    exact (nextYields middle (yields.holds firstRan)).holds nextRan

theorem yields_mapM {step : α → Lowering β} (yields : ∀ item, Yields result (step item))
    (items : List α) : Yields (fun answers => ∀ answer ∈ answers, result answer)
      (items.mapM step) := by
  induction items with
  | nil => exact yields_pure (List.forall_mem_nil _)
  | cons item items ih =>
      rw [List.mapM_cons]
      refine (yields item).bind fun answer holds => ?_
      exact ih.bind fun answers each => yields_pure (List.forall_mem_cons.mpr ⟨holds, each⟩)

theorem yields_foldlM {step : β → α → Lowering β}
    (yields : ∀ state item, result state → Yields result (step state item)) (items : List α)
    {state : β} (start : result state) : Yields result (items.foldlM step state) := by
  induction items generalizing state with
  | nil => exact yields_pure start
  | cons item items ih =>
      rw [List.foldlM_cons]
      exact (yields state item start).bind fun next holds => ih holds

end Yields

/-! ### Passes add no kernels -/

section Code

variable (templates : Option LifetimeTemplates) (operation : String)

theorem yields_lifetimeCode {make : LifetimeTemplates → Registry → Buffer → Except Error Fragment}
    (plain : ∀ {templates types buffer fragment}, make templates types buffer = .ok fragment →
      fragment.tiling = none) (name : String) :
    Yields Untiled (lifetimeCode templates make name) := by
  apply yields_bind
  intro buffer
  cases templates with
  | none => exact yields_pure untiled_nil
  | some templates =>
      have made : Yields (·.tiling = none) (askTypes (make templates · buffer)) :=
        yields_ask fun _ _ made => plain made
      exact made.bind fun fragment plain => yields_pure (untiled_singleton plain)

theorem tiling_allocation {templates : LifetimeTemplates} {types : Registry} {buffer : Buffer}
    {fragment : Fragment} (made : templates.allocation types buffer = .ok fragment) :
    fragment.tiling = none := by
  obtain ⟨_, -, rfl⟩ := LifetimeTemplates.written_eq_ok made
  rfl

theorem tiling_release {templates : LifetimeTemplates} {types : Registry} {buffer : Buffer}
    {fragment : Fragment} (freed : templates.release types buffer = .ok fragment) :
    fragment.tiling = none := by
  obtain ⟨_, -, rfl⟩ := LifetimeTemplates.written_eq_ok freed
  rfl

theorem yields_allocateAll (names : List String) :
    Yields Untiled (allocateAll templates operation names) := by
  induction names with
  | nil => exact yields_pure untiled_nil
  | cons name names ih =>
      apply ih.bind
      intro later untiled
      apply yields_bind
      intro _
      exact (yields_lifetimeCode templates tiling_allocation name).bind fun code plain =>
        yields_pure (plain.append untiled)

theorem yields_releaseCode (owners : List String) :
    Yields Untiled (releaseCode templates owners) := by
  induction owners with
  | nil => exact yields_pure untiled_nil
  | cons owner owners ih =>
      apply (yields_lifetimeCode templates tiling_release owner).bind
      intro code plain
      exact ih.bind fun later untiled => yields_pure (plain.append untiled)

theorem yields_deallocateAll (names : List String) :
    Yields (fun answer => Untiled answer.2) (deallocateAll templates operation names) := by
  induction names with
  | nil => exact yields_pure untiled_nil
  | cons name names ih =>
      apply yields_bind
      intro owners
      apply (yields_releaseCode templates owners).bind
      intro code plain
      exact ih.bind fun later untiled => yields_pure (plain.append untiled)

theorem yields_endLifetimes (annotate : Bool) (opened : OpenLifetimes) :
    Yields Untiled (endLifetimes templates annotate operation opened) := by
  apply (yields_deallocateAll templates operation opened.freed).bind
  rintro ⟨owners, code⟩ plain
  dsimp only at plain ⊢
  split
  · next templates =>
      apply yields_bind
      intro levels
      have comments : Yields Untiled (usageComments templates operation levels) := by
        apply yields_ask
        intro context answer asked
        cases asked
        exact untiled_map fun _ => rfl
      exact comments.bind fun later untiled => yields_pure (plain.append untiled)
  · exact yields_pure plain

theorem yields_manageLifetimes {condition : Prop} {block : Block}
    (kernels : block.KernelsIf condition) (annotate : Bool) :
    Yields (Block.KernelsIf condition) (manageLifetimes templates annotate block operation) := by
  have opens : Yields (fun opened => Untiled opened.code)
      (beginLifetimes templates block operation) := by
    apply yields_bind
    intro names
    apply yields_bind
    intro buffers
    apply yields_bind
    intro allocated
    exact (yields_allocateAll templates operation allocated).bind fun code plain =>
      yields_pure plain
  apply opens.bind
  intro opened plain
  apply (yields_endLifetimes templates operation annotate opened).bind
  intro after untiled
  exact yields_pure ((kernels.prepend plain).append untiled)

theorem yields_resolveFuture (templates : FutureTemplates) (name : String) :
    Yields (fun code => Untiled code.1 ∧ Untiled code.2)
      (resolveFuture templates operation name) := by
  apply yields_bind
  intro buffer
  apply yields_bind
  intro isFuture
  split
  · exact yields_pure ⟨untiled_nil, untiled_nil⟩
  · split
    · split
      · refine yields_pure ⟨?_, untiled_nil⟩
        split
        · exact untiled_singleton rfl
        · exact untiled_nil
      · apply yields_bind
        intro _
        refine yields_pure ⟨untiled_singleton rfl, ?_⟩
        split
        · exact untiled_singleton rfl
        · exact untiled_nil
    · exact yields_throw _

theorem yields_resolveFutures {condition : Prop} {block : Block}
    (kernels : block.KernelsIf condition) (templates : FutureTemplates) :
    Yields (Block.KernelsIf condition) (resolveFutures templates block operation) := by
  apply yields_bind
  intro names
  apply (yields_mapM (yields_resolveFuture operation templates) names).bind
  intro code plain
  refine yields_pure ((kernels.prepend ?_).append ?_)
  · exact List.forall_mem_flatMap.mpr fun added member => (plain added member).1
  · exact List.forall_mem_flatMap.mpr fun added member => (plain added member).2

theorem untiled_structCode {template : Template} {types : Registry} {buffer : Buffer}
    {code : List Fragment} (coded : structCode template types buffer = .ok code) :
    Untiled code := by
  unfold structCode at coded
  split at coded
  · next value _ =>
      cases named : types.typeName buffer.type with
      | error error => rw [named] at coded; cases coded
      | ok typeName =>
          cases written : types.literal value with
          | error error => rw [named, written] at coded; cases coded
          | ok literal =>
              rw [named, written] at coded
              cases coded
              exact untiled_singleton rfl
  · cases coded
    exact untiled_nil

theorem yields_declareStructs (template : Template) (names : List String) :
    Yields Untiled (declareStructs template names) := by
  induction names with
  | nil => exact yields_pure untiled_nil
  | cons name names ih =>
      apply ih.bind
      intro later untiled
      apply yields_bind
      intro buffer
      have declared : Yields Untiled (askTypes (structCode template · buffer)) :=
        yields_ask fun _ _ coded => untiled_structCode coded
      exact declared.bind fun code plain => yields_pure (plain.append untiled)

/-- A closure is called by code without a kernel. -/
theorem yields_makeClosure {condition : Prop} (options : ClosureOptions) (block : Block) :
    Yields (Block.KernelsIf condition) (makeClosure options block operation) where
  holds ran := by
    obtain ⟨fields, body, made⟩ := makeClosure_eq_ok ran
    rw [made.wrapped_eq]
    refine .of_untiled ?_ fun record recorded => by cases recorded
    exact List.forall_mem_cons.mpr ⟨rfl, untiled_map fun _ => rfl⟩

end Code

/-! ### Tiling takes kernels away -/

section Tiling

/-- A draft of a kernel that is no longer to be tiled, and whose record declares none. -/
def TiledDraft (draft : TileDraft) : Prop :=
  draft.fragment.tiling = none ∧ Untiled draft.record.declarations

variable {draft : TileDraft} (tiled : TiledDraft draft) (tiling : Tiling)
  (operation level arena : String)

theorem yields_viewDeclaration (name : String) :
    Yields (·.tiling = none) (viewDeclaration name) := by
  apply yields_bind
  intro buffer
  apply yields_bind
  exact fun _ => yields_pure rfl

include tiled

theorem TiledDraft.rebind (key view : String) {declaration : Fragment}
    (plain : declaration.tiling = none) : TiledDraft (draft.rebind key view declaration) :=
  ⟨tiled.1, tiled.2.append (untiled_singleton plain)⟩

theorem yields_tileTensor (entry : String × List Nat × Direction) :
    Yields TiledDraft (tileTensor tiling operation level arena draft entry) := by
  iterate 9
    apply yields_bind
    intro _
  apply (yields_viewDeclaration _).bind
  intro declaration plain
  exact yields_pure (TiledDraft.rebind tiled _ _ plain)

theorem yields_placeTransient (entry : String × String) :
    Yields TiledDraft (placeTransient tiling operation level arena draft entry) := by
  iterate 4
    apply yields_bind
    intro _
  apply (yields_viewDeclaration _).bind
  intro declaration plain
  exact yields_pure (TiledDraft.rebind tiled _ _ plain)

theorem yields_tileScalar (entry : String × List Int) :
    Yields TiledDraft (tileScalar tiling operation level draft entry) := by
  iterate 5
    apply yields_bind
    intro _
  apply (yields_viewDeclaration _).bind
  intro declaration plain
  exact yields_pure (TiledDraft.rebind tiled _ _ plain)

omit tiled

theorem yields_tileKernel (kernel : Fragment) :
    Yields TiledDraft (tileKernel tiling level operation kernel) := by
  iterate 5
    apply yields_bind
    intro _
  apply (yields_foldlM (fun _ entry tiled => yields_tileTensor tiled tiling operation level _ entry)
    _ ⟨rfl, untiled_nil⟩).bind
  intro tensors tiled
  apply yields_bind
  intro transients
  apply (yields_foldlM (fun _ entry tiled =>
    yields_placeTransient tiled tiling operation level _ entry) _ tiled).bind
  intro placed tiled
  apply (yields_foldlM (fun _ entry tiled => yields_tileScalar tiled tiling operation level entry)
    _ tiled).bind
  intro scalars tiled
  exact yields_pure tiled

end Tiling

/-- A block that was tiled has no kernel left. -/
theorem yields_makeTileViews {block : Block} (record : block.PlainRecord)
    (level operation : String) :
    Yields (Block.KernelsIf False) (makeTileViews level block operation) where
  holds ran := by
    rcases makeTileViews_cases ran with ⟨plain, rfl, -⟩ |
      ⟨before, kernel, tiling, after, draft, -, plain, -, drafting, rfl⟩
    · exact .of_untiled plain record
    · obtain ⟨fragment, declarations⟩ :=
        (yields_tileKernel tiling operation level kernel).holds drafting
      obtain ⟨earlier, later⟩ := List.forall_mem_append.mp plain
      refine .of_untiled ?_ fun record recorded => ?_
      · exact List.forall_mem_append.mpr ⟨earlier, List.forall_mem_cons.mpr ⟨fragment, later⟩⟩
      · obtain rfl := Option.some.inj recorded
        exact declarations

/-- Tiling makes no move on a block without a kernel. -/
theorem tilingMoves_of_untiled {block : Block} (untiled : Untiled block.fragments)
    (level operation : String) (workspace : Workspace) :
    tilingMoves level operation block workspace = [] := by
  have first : firstMoves level operation block.fragments workspace = [] := by
    generalize block.fragments = fragments at untiled
    induction fragments with
    | nil => rfl
    | cons fragment fragments ih =>
        obtain ⟨plain, later⟩ := List.forall_mem_cons.mp untiled
        rw [firstMoves, plain]
        exact ih later
  rw [tilingMoves, first, ite_self]

theorem leaves_makeTileViews_of_untiled {block : Block} (untiled : Untiled block.fragments)
    (level operation : String) (workspace : Workspace) :
    leaves (makeTileViews level block operation workspace) = workspace.context := by
  have first : leaves (tileFirst level operation block.fragments workspace) =
      workspace.context := by
    generalize block.fragments = fragments at untiled
    induction fragments with
    | nil => rfl
    | cons fragment fragments ih =>
        obtain ⟨plain, later⟩ := List.forall_mem_cons.mp untiled
        rw [tileFirst, plain]
        dsimp only
        rw [leaves_bind fun _ _ => rfl]
        exact ih later
  rw [makeTileViews]
  split
  · rfl
  · change leaves ((tileFirst level operation block.fragments >>= _) workspace) = _
    rw [leaves_bind fun _ _ => rfl, first]

end Lowering

/-! ### Passes in a pipeline -/

/-- The level in which a pass tiles. -/
def Pass.tiledLevel? : Pass → Option String
  | .tileViews level => some level
  | _ => none

/-- The level in which a pipeline tiles: that of the first pass that does. -/
def Pipeline.tiledLevel? (passes : List Pass) : Option String := passes.findSome? Pass.tiledLevel?

/-- **No pass adds a kernel.** -/
theorem Pass.yields_kernelsIf {condition : Prop} {block : Block}
    (kernels : block.KernelsIf condition) (pass : Pass) (annotate : Bool) (operation : String) :
    Lowering.Yields (Block.KernelsIf condition) (pass.apply annotate operation block) := by
  cases pass with
  | tileViews level =>
      refine ⟨fun ran => ?_⟩
      have spent := (Lowering.yields_makeTileViews kernels.record level operation).holds ran
      exact .of_untiled spent.untiled spent.record
  | tileUpdates => exact Lowering.yields_pure kernels.updateTiles
  | tileLoop options => exact Lowering.yields_pure (kernels.loopOverTiles options)
  | futures templates => exact Lowering.yields_resolveFutures operation kernels templates
  | closures options => exact Lowering.yields_makeClosure operation options block
  | structs template =>
      apply Lowering.yields_bind
      intro names
      exact (Lowering.yields_declareStructs _ names).bind fun code plain =>
        Lowering.yields_pure (kernels.prepend plain)
  | lifetimes templates =>
      exact Lowering.yields_manageLifetimes (some templates) operation kernels annotate
  | bookkeeping => exact Lowering.yields_manageLifetimes none operation kernels annotate

namespace Composes

variable {trace : Context → List Move → Context → Prop} (composes : Composes trace)
  {annotate : Bool} {passes : List Pass} (operation : String)
include composes

/-- The moves of passes over a block without a kernel. -/
theorem pipeline_spent
    (each : ∀ pass ∈ passes, pass.tiledLevel? = none → ∀ operation block workspace,
      trace workspace.context (pass.moves annotate operation block workspace)
        (leaves (pass.apply annotate operation block workspace)))
    (completed : Nat) {block : Block} (spent : block.KernelsIf False) (workspace : Workspace) :
    trace workspace.context (Pipeline.moves annotate operation passes block workspace)
      (leaves (Pipeline.runFrom annotate operation completed passes block workspace)) := by
  induction passes generalizing completed block workspace with
  | nil => exact composes.nil workspace.context
  | cons pass passes ih =>
      obtain ⟨own, others⟩ := List.forall_mem_cons.mp each
      rw [Pipeline.moves, ← movesAfter_during _ operation pass.kind.name completed]
      refine composes.bind ?_ fun passed middle ran => ih others (completed + 1) ?_ middle
      · rw [leaves_during]
        cases tiles : pass.tiledLevel? with
        | none => exact own tiles operation block workspace
        | some level =>
            cases pass with
            | tileViews other =>
                rw [Pass.moves, Pass.apply, Lowering.tilingMoves_of_untiled spent.untiled,
                  Lowering.leaves_makeTileViews_of_untiled spent.untiled]
                exact composes.nil workspace.context
            | _ => cases tiles
      · exact (pass.yields_kernelsIf spent annotate operation).holds (Lowering.during_eq_ok ran)

/-- **Kernels are tiled once.** The moves of passes over a block whose record declares no kernel are
those of passes of which only one tiles. -/
theorem pipeline_once
    (each : ∀ pass ∈ passes, (∀ level, pass.tiledLevel? = some level →
      Pipeline.tiledLevel? passes = some level) → ∀ operation block workspace,
        trace workspace.context (pass.moves annotate operation block workspace)
          (leaves (pass.apply annotate operation block workspace)))
    (completed : Nat) {block : Block} (record : block.PlainRecord) (workspace : Workspace) :
    trace workspace.context (Pipeline.moves annotate operation passes block workspace)
      (leaves (Pipeline.runFrom annotate operation completed passes block workspace)) := by
  induction passes generalizing completed block workspace with
  | nil => exact composes.nil workspace.context
  | cons pass passes ih =>
      obtain ⟨own, others⟩ := List.forall_mem_cons.mp each
      rw [Pipeline.moves, ← movesAfter_during _ operation pass.kind.name completed]
      cases tiles : pass.tiledLevel? with
      | some level =>
          -- The first pass that tiles leaves no kernel for the others.
          have first : Pipeline.tiledLevel? (pass :: passes) = some level :=
            List.findSome?_cons_of_isSome (by rw [tiles]; rfl) |>.trans tiles
          refine composes.bind ?_ fun passed middle ran => ?_
          · rw [leaves_during]
            refine own (fun other same => ?_) operation block workspace
            rw [first, ← tiles, same]
          · refine composes.pipeline_spent operation (fun other member plain => ?_)
              (completed + 1) ?_ middle
            · exact others other member fun level same => by rw [plain] at same; cases same
            · cases pass with
              | tileViews other =>
                  exact (Lowering.yields_makeTileViews record other operation).holds
                    (Lowering.during_eq_ok ran)
              | _ => cases tiles
      | none =>
          have same : Pipeline.tiledLevel? (pass :: passes) = Pipeline.tiledLevel? passes :=
            List.findSome?_cons_of_isNone (by rw [tiles]; rfl)
          refine composes.bind ?_ fun passed middle ran => ?_
          · rw [leaves_during]
            exact own (fun level isTiled => by rw [tiles] at isTiled; cases isTiled) operation block
              workspace
          · refine ih (fun other member once => others other member ?_) (completed + 1) ?_ middle
            · rw [same]
              exact once
            · exact ((pass.yields_kernelsIf (.of_plainRecord record) annotate operation).holds
                (Lowering.during_eq_ok ran)).record

end Composes

end TensorLowering
