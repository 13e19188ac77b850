import TensorLowering.Proofs.TiledOnce
import TensorLowering.Proofs.ViewPlacement

/-! # Views stay in bounds

A view is in bounds of its arena when it is made, and stays so until its name is made something
else: arenas only grow, and nothing takes their place
(`TensorLowering.Schedule.views_stay_in_bounds`). The exceptions are a context that gives the arena
an identifier which other buffers may get as well
(`TensorLowering.Schedule.sharedName_drops_arena`), and an operation whose record declares a kernel,
which a later pass tiles in another level (`TensorLowering.Schedule.declaredKernel_drops_arena`).
-/

namespace TensorLowering

/-- A view stays in bounds while its arena stays and its name goes on denoting it. -/
theorem Placement.InBounds.evolve {placement : Placement} {start finish : Context}
    {bound : Option String} (inBounds : placement.InBounds start)
    (evolves : start.Evolves bound finish)
    (apart : ∀ {arena}, finish.mangled.find? (arenaName placement.level) = some arena →
      bound ≠ some arena)
    (kept : bound = some placement.view → (finish.find? placement.view).map Buffer.kind =
      (start.find? placement.view).map Buffer.kind) : placement.InBounds finish := by
  obtain ⟨range, arena, storage, ranged, given, refers, stored, room⟩ := inBounds
  have stillGiven := evolves.named given
  obtain ⟨grown, grownStored, grows⟩ := evolves.kept (apart stillGiven) stored
  refine ⟨range, arena, grown, ranged, stillGiven, ?_, grownStored,
    Nat.le_trans room grows.size⟩
  -- A step that binds the name of the view was asked to leave it; others cannot reach it.
  by_cases rebound : bound = some placement.view
  · exact (kept rebound).trans refers
  · obtain ⟨view, found, kind⟩ := Option.map_eq_some_iff.mp refers
    obtain ⟨after, afterFound, same⟩ := evolves.kept rebound found
    have kinds : after.core.kind = view.core.kind := congrArg Buffer.kind same.core
    rw [afterFound, ← kind]
    exact congrArg some kinds

namespace Lowering

variable {tiling : Tiling} {level operation : String} {workspace : Workspace} {move : Move}

/-- A step that is seen to place a view has run, and has placed the view. -/
theorem exists_places {logical arena : String} {constraint : MemoryConstraint}
    {known : Option String} {step : Lowering TileDraft} {draft : TileDraft}
    (own : ∀ {next final}, step workspace = .ok next final → ∃ placement,
      Places constraint level arena (placingMove logical level constraint known step workspace)
        draft next placement)
    {placement : Placement}
    (placed : (placingMove logical level constraint known step workspace).places =
      some placement) :
    ∃ draft next, Places constraint level arena
      (placingMove logical level constraint known step workspace) draft next placement := by
  obtain ⟨context, observed, -⟩ := Option.bind_eq_some_iff.mp placed
  obtain ⟨next, final, ran, -⟩ := exists_of_observe observed
  obtain ⟨other, places⟩ := own ran
  obtain rfl := Option.some.inj (places.noted.symm.trans placed)
  exact ⟨draft, next, places⟩

theorem level_of_places {α : Type} {logical : String} {constraint : MemoryConstraint}
    {known : Option String} {step : Lowering α} {placement : Placement}
    (placed : (placingMove logical level constraint known step workspace).places =
      some placement) : placement.level = level := by
  obtain ⟨context, -, located⟩ := Option.bind_eq_some_iff.mp placed
  obtain ⟨view, -, located⟩ := Option.bind_eq_some_iff.mp located
  obtain ⟨tensor, -, located⟩ := Option.bind_eq_some_iff.mp located
  cases located
  rfl

/-- Tiling a kernel in a level provides the arena of this level and places views there. -/
theorem levels_kernelMoves {kernel : Fragment}
    (member : move ∈ kernelMoves tiling level operation kernel workspace) :
    (∀ {placement}, move.places = some placement → placement.level = level) ∧
      ∀ {opened}, move.opens = some opened → opened = level := by
  rcases List.mem_cons.mp member with rfl | later
  · refine ⟨fun placed => (by cases placed), fun opens => ?_⟩
    obtain ⟨opened, final, -, same⟩ := exists_of_observe opens
    exact same.symm
  · obtain ⟨opened, middle, -, made⟩ := mem_movesAfter later
    let inLevel (move : Move) : Prop :=
      (∀ {placement}, move.places = some placement → placement.level = level) ∧
        ∀ {opened}, move.opens = some opened → opened = level
    refine (composes_forall inLevel).views ?_ ?_ ?_ opened.2 middle move made
    · intro draft entry workspace move single
      obtain rfl := List.mem_singleton.mp single
      exact ⟨level_of_places, fun opens => (by cases opens)⟩
    · intro draft entry workspace move single
      obtain rfl := List.mem_singleton.mp single
      exact ⟨level_of_places, fun opens => (by cases opens)⟩
    · intro draft entry workspace move single
      obtain rfl := List.mem_singleton.mp single
      exact ⟨fun placed => (by cases placed), fun opens => (by cases opens)⟩

end Lowering

/-- A move provides the arena of a level, or places a view there. -/
def Move.Reaches (level : String) (move : Move) : Prop :=
  move.opens = some level ∨ ∃ placement, move.places = some placement ∧ placement.level = level

/-- A move does not make a name something else. -/
def Move.KeepsName (name : String) (move : Move) : Prop :=
  move.binds = some name →
    (move.finish.find? name).map Buffer.kind = (move.start.find? name).map Buffer.kind

/-! ### Moves of a run -/

/-- What a move leaves of the arena of a level: a view that it has placed there is in bounds, and
an arena that it has made is declared. -/
structure Move.Sited (level : String) (move : Move) : Prop where
  inBounds : ∀ {placement}, move.places = some placement → placement.level = level →
    placement.InBounds move.finish
  holds : ∀ {arena}, move.opens = some level →
    move.finish.mangled.find? (arenaName level) = some arena →
      move.start.isBuffer arena = false → move.finish.HoldsArena arena

/-- A move that has nothing to do with a level. -/
theorem Move.Sited.of_aside {level : String} {move : Move} (aside : ¬ move.Reaches level) :
    move.Sited level where
  inBounds placed same := absurd (.inr ⟨_, placed, same⟩) aside
  holds opened := absurd (.inl opened) aside

/-- Sound moves that keep a property of contexts, and are sited if it holds at their start. They
reach a level only if it is tiled. -/
structure Grounded (tiled : String → Prop) (ready : Context → Prop) (level : String)
    (start : Context) (moves : List Move) (finish : Context) : Prop
    extends Sound tiled start moves finish where
  stays : ready start → ready finish
  sited : ready start → ∀ move ∈ moves, move.Sited level
  isTiled : ∀ move ∈ moves, move.Reaches level → tiled level

theorem composes_grounded (tiled : String → Prop) (ready : Context → Prop) (level : String) :
    Composes (Grounded tiled ready level) where
  nil context := ⟨(composes_sound tiled).nil context, id,
    fun _ _ member => absurd member List.not_mem_nil,
    fun _ member => absurd member List.not_mem_nil⟩
  append first second := by
    refine ⟨(composes_sound tiled).append first.toSound second.toSound,
      fun before => second.stays (first.stays before), fun before => ?_, ?_⟩
    · exact List.forall_mem_append.mpr
        ⟨first.sited before, second.sited (first.stays before)⟩
    · exact List.forall_mem_append.mpr ⟨first.isTiled, second.isTiled⟩

namespace Grounded

variable {tiled : String → Prop} {level : String} {start finish : Context} {moves : List Move}
  {workspace : Workspace}

/-- Moves that have nothing to do with a level. -/
theorem of_aside (sound : Sound tiled start moves finish)
    (aside : ∀ move ∈ moves, ¬ move.Reaches level) :
    Grounded tiled (·.ArenaApart level) level start moves finish :=
  ⟨sound, fun apart => (sound.arenaApart apart).1,
    fun _ move member => .of_aside (aside move member),
    fun move member reaches => absurd reaches (aside move member)⟩

section Kernel

variable (isTiled : tiled level) (views : ViewsApart tiled level) {tiling : Tiling}
  {arena : String} {extent : Nat}
  (extentIs : tiling.constraint.arenaExtent? level = some extent)

include isTiled views extentIs in
/-- A move that makes a view while the arena is provided. -/
theorem view {move : Move} (sound : Sound tiled start [move] finish)
    (places : ∀ {placement}, move.places = some placement →
      ∃ draft next, Lowering.Places tiling.constraint level arena move draft next placement)
    (closed : move.opens = none) :
    Grounded tiled (fun context => context.ArenaApart level ∧
      context.Provides level arena extent) level start [move] finish := by
  refine ⟨sound, fun ready => ⟨(sound.arenaApart ready.1).1, sound.provides views ready.1 ready.2⟩,
    fun ready other member => ?_, fun _ _ _ => isTiled⟩
  obtain rfl := List.mem_singleton.mp member
  have ends : other.finish = finish := sound.follow.2
  have provides : other.finish.Provides level arena extent :=
    ends ▸ sound.provides views ready.1 ready.2
  constructor
  · intro placement placed _
    obtain ⟨draft, next, own⟩ := places placed
    exact own.inBounds provides extentIs
  · intro arena opens
    rw [closed] at opens
    cases opens

include isTiled views extentIs in
/-- The moves that make the views of a kernel while the arena is provided. -/
theorem makeViews (operation arena : String) (draft : TileDraft) (workspace : Workspace) :
    Grounded tiled (fun context => context.ArenaApart level ∧
        context.Provides level arena extent) level workspace.context
      (Lowering.viewMoves tiling level operation arena draft workspace)
      (leaves (Lowering.makeViews tiling level operation arena draft workspace)) := by
  apply (composes_grounded tiled _ level).views
  · intro draft entry workspace
    exact view isTiled views extentIs (.tensor isTiled tiling operation draft workspace arena entry)
      (Lowering.exists_places Lowering.places_tensorMove) rfl
  · intro draft entry workspace
    exact view isTiled views extentIs
      (.scratch isTiled tiling operation draft workspace arena entry)
      (Lowering.exists_places Lowering.places_transientMove) rfl
  · intro draft entry workspace
    exact view isTiled views extentIs (.scalar isTiled tiling operation draft workspace entry)
      (fun placed => by cases placed) rfl

include isTiled in
theorem opening (tiling : Tiling) (operation : String) (kernel : Fragment) (workspace : Workspace) :
    Grounded tiled (·.ArenaApart level) level workspace.context
      [Lowering.openingMove tiling level operation kernel workspace]
      (leaves (Lowering.openTiling tiling level operation kernel workspace)) := by
  have sound : Sound tiled _ _ _ := .opening tiling level operation kernel workspace
  refine ⟨sound, fun apart => (sound.arenaApart apart).1, fun _ move member => ?_,
    fun _ _ _ => isTiled⟩
  obtain rfl := List.mem_singleton.mp member
  constructor
  · intro placement placed
    cases placed
  · intro arena opens given new
    obtain ⟨opened, final, ran, -⟩ := exists_of_observe opens
    obtain ⟨extent, -, provides, holds, -, -⟩ := Lowering.openTiling_eq_ok ran
    have ends : (Lowering.openingMove tiling level operation kernel workspace).finish =
      final.context := congrArg leaves ran
    rw [ends] at given ⊢
    obtain rfl := Option.some.inj (provides.given.symm.trans given)
    exact holds new

include isTiled views in
/-- The moves that tile a kernel in the level. -/
theorem kernel (tiling : Tiling) (operation : String) (kernel : Fragment) (workspace : Workspace) :
    Grounded tiled (·.ArenaApart level) level workspace.context
      (Lowering.kernelMoves tiling level operation kernel workspace)
      (leaves (Lowering.tileKernel tiling level operation kernel workspace)) := by
  rw [Lowering.tileKernel_eq]
  refine (composes_grounded tiled _ level).bind (opening isTiled tiling operation kernel workspace)
    fun opened middle ran => ?_
  -- From here on the arena is provided, and the views are made on top of that.
  obtain ⟨extent, extentIs, provides, -, -, -⟩ := Lowering.openTiling_eq_ok ran
  have made := makeViews isTiled views extentIs operation opened.1 opened.2 middle
  exact ⟨made.toSound, fun apart => (made.toSound.arenaApart apart).1,
    fun apart => made.sited ⟨apart, provides⟩, made.isTiled⟩

end Kernel

/-- The moves of a pass. -/
theorem pass (views : tiled level → ViewsApart tiled level) (pass : Pass)
    (isTiled : ∀ level, pass = .tileViews level → tiled level)
    (annotate : Bool) (operation : String) (block : Block) (workspace : Workspace) :
    Grounded tiled (·.ArenaApart level) level workspace.context
      (pass.moves annotate operation block workspace)
      (leaves (pass.apply annotate operation block workspace)) := by
  have sound := Sound.pass pass isTiled annotate operation block workspace
  cases pass with
  | tileViews other =>
      refine (composes_grounded tiled _ level).tiling
        (fun tiling operation fragment workspace => ?_)
        operation block workspace
      by_cases same : other = level
      · subst same
        have here := isTiled other rfl
        exact kernel here (views here) tiling operation fragment workspace
      · refine of_aside (.kernel (isTiled other rfl) tiling operation fragment workspace) ?_
        intro move member
        obtain ⟨places, opens⟩ := Lowering.levels_kernelMoves member
        rintro (opened | ⟨placement, placed, inLevel⟩)
        · exact same (opens opened).symm
        · exact same ((places placed).symm.trans inLevel)
  | _ =>
      refine of_aside sound fun move member => ?_
      obtain rfl := List.mem_singleton.mp member
      rintro (opened | ⟨placement, placed, -⟩)
      · cases opened
      · cases placed

/-! ### Later points -/

section Later

variable (grounded : Grounded tiled (·.ArenaApart level) level start moves finish)
  (views : tiled level → ViewsApart tiled level) (apart : start.ArenaApart level)
include grounded views apart

/-- A view that was placed in the level is in bounds after later moves, unless one of them has made
its name something else. -/
theorem inBounds {before passed rest : List Move} {placing : Move} {placement : Placement}
    {point : Context} (split : moves = before ++ placing :: (passed ++ rest))
    (placed : placing.places = some placement) (inLevel : placement.level = level)
    (kept : ∀ move ∈ passed, move.KeepsName placement.view)
    (follow : Follow placing.finish passed point) : placement.InBounds point := by
  subst inLevel
  have within : ∀ move ∈ passed, move ∈ moves := by
    intro move member
    rw [split]
    exact List.mem_append_right _ (.tail _ (List.mem_append_left _ member))
  have listed : placing ∈ moves := split ▸ List.mem_append_right _ (.head _)
  have first := (grounded.sited apart placing listed).inBounds placed rfl
  have viewsApart := views (grounded.isTiled placing listed (.inr ⟨placement, placed, rfl⟩))
  refine (follow.invariant (fun move member now => ?_) first).1
  exact now.evolve (grounded.evolves move (within move member))
    (grounded.toSound.binds_ne viewsApart apart (within move member)) (kept move member)

/-- An arena that was made is held to the end. -/
theorem holdsArena {opening : Move} (member : opening ∈ moves) (opens : opening.opens = some level)
    {arena : String} (given : opening.finish.mangled.find? (arenaName level) = some arena)
    (new : opening.start.isBuffer arena = false) : finish.HoldsArena arena := by
  have viewsApart := views (grounded.isTiled opening member (.inl opens))
  obtain ⟨before, later, rfl⟩ := List.append_of_mem member
  obtain ⟨middle, -, -, rest⟩ := grounded.follow.split
  let held (context : Context) : Prop :=
    context.mangled.find? (arenaName level) = some arena ∧ context.HoldsArena arena
  have step : ∀ move ∈ later, held move.start → held move.finish := by
    intro move listed now
    have within : move ∈ before ++ opening :: later := List.mem_append_right _ (.tail _ listed)
    have evolves := grounded.evolves move within
    have stillGiven := evolves.named now.1
    exact ⟨stillGiven,
      now.2.evolve evolves (grounded.toSound.binds_ne viewsApart apart within stillGiven)⟩
  have first : held opening.finish :=
    ⟨given, (grounded.sited apart opening member).holds opens given new⟩
  exact (rest.invariant step first).1.2

end Later

end Grounded

namespace Schedule

/-- No view of a run takes the place of the arena of a level: the operations have no record that
declares a kernel, so the run tiles in one level only, or no view of another level in which its
pipeline tiles is named like the arena. -/
def SparesArena (pipeline : List Pass) (operations : List Operation) (level : String) : Prop :=
  (∀ operation ∈ operations, operation.block.PlainRecord) ∨
    ViewsApart (fun other => Pass.tileViews other ∈ pipeline) level

theorem grounded_moves {pipeline : List Pass} {operations : List Operation} {level : String}
    (spares : SparesArena pipeline operations level) (annotate : Bool) (context : Context) :
    ∃ tiled, (tiled level → ViewsApart tiled level) ∧
      Grounded tiled (·.ArenaApart level) level context
        (moves pipeline annotate operations { context })
        (run pipeline annotate operations context).2 := by
  rcases spares with plain | apart
  · -- The run tiles in the level of the first pass that does.
    let tiled (other : String) : Prop := Pipeline.tiledLevel? pipeline = some other
    have views : tiled level → ViewsApart tiled level := by
      intro here other there different
      exact absurd (Option.some.inj (there.symm.trans here)) different
    refine ⟨tiled, views, ?_⟩
    have composes := composes_grounded tiled (·.ArenaApart level) level
    refine composes.schedule (fun operation listed => ?_) context
    refine composes.pipeline_once operation.name (fun pass _ once => ?_) 0 (plain operation listed)
    exact Grounded.pass views pass (fun other same => once other (same ▸ rfl)) annotate
  · refine ⟨_, fun _ => apart, ?_⟩
    have composes := composes_grounded (fun other => Pass.tileViews other ∈ pipeline)
      (·.ArenaApart level) level
    refine composes.schedule (fun operation _ => ?_) context
    refine composes.pipeline (fun pass member => ?_) operation.name 0 operation.block
    exact Grounded.pass (fun _ => apart) pass (fun _ same => same ▸ member) annotate

end Schedule

/-! ### Ranges out of reach -/

namespace Lowering

variable {level operation : String} {workspace : Workspace}

/-- A kernel with a range out of reach is refused before anything is changed. -/
theorem tileKernel_of_overflow {tiling : Tiling} {range : AddressRange} (kernel : Fragment)
    (ranged : range ∈ tiling.constraint.ranges level)
    (overflows : addressLimit ≤ range.offset + range.length) :
    ∃ error, tileKernel tiling level operation kernel workspace = .error error workspace := by
  have noExtent : tiling.extent operation level =
      .error (.tiling operation (.rangeOverflow level)) := by
    rw [Tiling.extent, MemoryConstraint.arenaExtent?_eq_none ranged overflows]
  unfold tileKernel
  cases checked : tiling.checkCounts operation with
  | error error => exact ⟨error, bind_of_error (ask_of_error rfl) _⟩
  | ok answer =>
      have asked : ask (fun _ => .ok answer) workspace = .ok answer workspace := rfl
      rw [bind_of_ok asked]
      exact ⟨_, bind_of_error (ask_of_error noExtent) _⟩

/-- A block with a range out of reach is refused before anything is changed. -/
theorem makeTileViews_of_overflow {block : Block} {fragment : Fragment} {tiling : Tiling}
    {range : AddressRange} (member : fragment ∈ block.fragments)
    (own : fragment.tiling = some tiling) (ranged : range ∈ tiling.constraint.ranges level)
    (overflows : addressLimit ≤ range.offset + range.length) :
    ∃ error, makeTileViews level block operation workspace = .error error workspace :=
  makeTileViews_of_refused member own (tileKernel_of_overflow fragment ranged overflows)

end Lowering

namespace Schedule

/-- **Views stay in bounds.** If the identifier of the arena of a level is its own, and no view can
take the place of the arena, then the moves of a run lead to the context that it leaves behind,
and:
* a view that was placed in the level is in bounds from then on, until a move makes its name
  something else;
* an arena that was made is declared with its final size if the run succeeds;
* tiling a block in the level provides the arena and places all views that are declared, except for
  those of scalars;
* tiling a block in the level fails, and changes nothing, if a range in the level is out of
  reach. -/
theorem views_stay_in_bounds (pipeline : List Pass) (annotate : Bool) (operations : List Operation)
    (context : Context) (level : String) (apart : context.ArenaApart level)
    (spares : SparesArena pipeline operations level) :
    Follow context (moves pipeline annotate operations { context })
      (run pipeline annotate operations context).2 ∧
    (∀ before placing passed rest placement point,
      moves pipeline annotate operations { context } = before ++ placing :: (passed ++ rest) →
      placing.places = some placement → placement.level = level →
      (∀ move ∈ passed, move.KeepsName placement.view) → Follow placing.finish passed point →
        placement.InBounds point) ∧
    (∀ opening ∈ moves pipeline annotate operations { context }, opening.opens = some level →
      ∀ arena, opening.finish.mangled.find? (arenaName level) = some arena →
        opening.start.isBuffer arena = false → ∀ program final,
          run pipeline annotate operations context = (.ok program, final) →
            ∃ storage, final.find? arena = some storage ∧
              "static uint8_t " ++ arena ++ "[" ++ toString storage.size ++ "];" ∈
                program.statics) ∧
    (∀ operation block workspace tiled final,
      (Pass.tileViews level).apply annotate operation block workspace = .ok tiled final →
      (∃ fragment ∈ block.fragments, fragment.tiling.isSome = true) →
        let tilingMoves := (Pass.tileViews level).moves annotate operation block workspace
        (∃ opening later, tilingMoves = opening :: later ∧ opening.opens = some level) ∧
        ∃ record, tiled.record = some record ∧
          record.views.Perm (placedViews tilingMoves ++ record.replacements.map Prod.fst)) ∧
    ∀ operation block workspace, ∀ fragment ∈ block.fragments, ∀ tiling,
      fragment.tiling = some tiling → ∀ range ∈ tiling.constraint.ranges level,
        addressLimit ≤ range.offset + range.length → ∃ error,
          (Pass.tileViews level).apply annotate operation block workspace =
            .error error workspace := by
  obtain ⟨tiled, views, grounded⟩ := grounded_moves spares annotate context
  refine ⟨(sound_moves pipeline annotate operations context).follow, ?_, ?_, ?_, ?_⟩
  · intro before placing passed rest placement point split placed inLevel kept follow
    exact grounded.inBounds views apart split placed inLevel kept follow
  · intro opening member opens arena given new program final ran
    have holds := grounded.holdsArena views apart member opens given new
    obtain ⟨workspace, -, -, declares⟩ := stages_of_run ran
    rw [ran] at holds
    exact holds.declared declares
  · intro operation block workspace tiled final ran hasTiling
    exact Lowering.views_makeTileViews ran hasTiling
  · intro operation block workspace fragment member tiling own range ranged overflows
    exact Lowering.makeTileViews_of_overflow member own ranged overflows

/-- A tensor and a result, with identifiers that are already given. -/
def scaleContext (mangled : Dict String) : Context where
  types := { kinds := [.float 32 23 8] }
  globals := ⟨[{ name := "x", type := ⟨0⟩, size := 256 }]⟩
  locals := ⟨[{ name := "y", type := ⟨0⟩, size := 64, users := ["sink"] }]⟩
  mangled

/-- A kernel that is tiled on the tensor. -/
def scaleKernel (level : String) (range : AddressRange) : Fragment :=
  { Fragment.ofSource "scale(${in}, ${out});" [("in", .name "x"), ("out", .name "y")] with
    tiling := some {
      constraint := ⟨.ofList [("x", .ofList [(level, range)])]⟩
      schedules := [{ inputs := .ofList [("in", [0, 128])] }] } }

def scaleOperation (name level : String) (range : AddressRange) : Operation :=
  ⟨name, .ofFragments [scaleKernel level range]⟩

/-- Two kernels, of which the second needs more of the arena. -/
def growingSchedule : List Operation :=
  [scaleOperation "k" "L1" ⟨0, 32⟩, scaleOperation "l" "L1" ⟨32, 64⟩]

theorem views_stay_in_bounds_growingSchedule :
    ∃ placement program final,
      run [.tileViews "L1"] false growingSchedule (scaleContext .empty) = (.ok program, final) ∧
      placement ∈ (moves [.tileViews "L1"] false growingSchedule
        { context := scaleContext .empty }).filterMap Move.places ∧
      placement.view = "k_in_L1" ∧ placement.InBounds final ∧
      "static uint8_t L1_arena[96];" ∈ program.statics := by
  have apart : (scaleContext .empty).ArenaApart "L1" := .of_absent rfl
  have plain : ∀ operation ∈ growingSchedule, operation.block.PlainRecord := by
    simp [growingSchedule, scaleOperation, Block.ofFragments, Block.PlainRecord]
  obtain ⟨follow, inBounds, declared, -, -⟩ := views_stay_in_bounds [.tileViews "L1"] false
    growingSchedule (scaleContext .empty) "L1" apart (.inl plain)
  obtain ⟨shape, succeeds, size⟩ :
      (moves [.tileViews "L1"] false growingSchedule
        { context := scaleContext .empty }).map (fun move =>
          ((move.opens, move.start.isBuffer "L1_arena", move.finish.mangled.find? "L1_arena"),
            move.binds, move.places.map fun placement => (placement.view, placement.level))) =
        [((some "L1", false, some "L1_arena"), none, none),
          ((none, true, some "L1_arena"), some "k_in_L1", some ("k_in_L1", "L1")),
          ((some "L1", true, some "L1_arena"), none, none),
          ((none, true, some "L1_arena"), some "l_in_L1", some ("l_in_L1", "L1"))] ∧
      (run [.tileViews "L1"] false growingSchedule (scaleContext .empty)).1.isOk = true ∧
      ((run [.tileViews "L1"] false growingSchedule (scaleContext .empty)).2.find?
        "L1_arena").map Buffer.size = some 96 := by
    decide +kernel
  obtain ⟨program, ran⟩ := exists_of_isOk succeeds
  obtain ⟨opening, _, split, openingIs, shape⟩ := List.map_eq_cons_iff.mp shape
  obtain ⟨placing, _, rfl, placingIs, shape⟩ := List.map_eq_cons_iff.mp shape
  obtain ⟨next, _, rfl, nextIs, shape⟩ := List.map_eq_cons_iff.mp shape
  obtain ⟨last, _, rfl, lastIs, shape⟩ := List.map_eq_cons_iff.mp shape
  obtain rfl := List.map_eq_nil_iff.mp shape
  simp only [Prod.mk.injEq] at openingIs placingIs nextIs lastIs
  obtain ⟨placement, placed, named⟩ := Option.map_eq_some_iff.mp placingIs.2.2
  simp only [Prod.mk.injEq] at named
  rw [split] at follow ⊢
  have inFinal := inBounds [opening] placing [next, last] [] placement _ split placed named.2
    (by simp [Move.KeepsName, nextIs, lastIs, named]) follow.2.2
  obtain ⟨⟨opens, new, given⟩, -, -⟩ := openingIs
  obtain ⟨storage, found, isDeclared⟩ := declared opening (by simp [split]) opens "L1_arena" given
    new program _ ran
  rw [found] at size
  have sizeIs : storage.size = 96 := Option.some.inj size
  rw [sizeIs] at isDeclared
  refine ⟨placement, program, _, ran, ?_, named.1, inFinal, isDeclared⟩
  simp [placed]

/-- A context in which the arena has the identifier that the struct of a closure gets. -/
def sharedNameContext : Context := scaleContext (.ofList [("L1_arena", "k_closure_args")])

/-- The struct of the closure replaces the arena. The view of the kernel then refers to a struct
that is too small, and the arena is not declared. -/
theorem sharedName_drops_arena :
    ∃ program final,
      run [.tileViews "L1", .closures {}] false [scaleOperation "k" "L1" ⟨0, 128⟩]
        sharedNameContext = (.ok program, final) ∧
      program.statics = [] ∧
      ∃ placement ∈ (moves [.tileViews "L1", .closures {}] false [scaleOperation "k" "L1" ⟨0, 128⟩]
          { context := sharedNameContext }).filterMap Move.places,
        (final.find? placement.view).map Buffer.kind = some (.reference "k_closure_args" 0) ∧
        ¬ placement.InBounds final := by
  generalize outcome : run [.tileViews "L1", .closures {}] false
    [scaleOperation "k" "L1" ⟨0, 128⟩] sharedNameContext = result
  obtain ⟨placed, statics, refers, shared, small⟩ :
      (moves [.tileViews "L1", .closures {}] false [scaleOperation "k" "L1" ⟨0, 128⟩]
        { context := sharedNameContext }).filterMap Move.places =
          [⟨"k_in_L1", "L1", "x", ⟨.ofList [("x", .ofList [("L1", ⟨0, 128⟩)])]⟩⟩] ∧
      result.1.toOption.map Program.statics = some [] ∧
      (result.2.find? "k_in_L1").map Buffer.kind = some (.reference "k_closure_args" 0) ∧
      result.2.mangled.find? "L1_arena" = some "k_closure_args" ∧
      (result.2.find? "k_closure_args").map Buffer.size = some 4 := by
    rw [← outcome]
    decide +kernel
  obtain ⟨answer, final⟩ := result
  cases answer with
  | error failure => cases statics
  | ok program =>
      refine ⟨program, final, rfl, Option.some.inj statics, _, placed ▸ List.mem_singleton_self _,
        refers, ?_⟩
      rintro ⟨range, arena, storage, ranged, given, -, stored, room⟩
      obtain rfl : ⟨0, 128⟩ = range := Option.some.inj ranged
      obtain rfl := Option.some.inj (shared.symm.trans given)
      rw [stored] at small
      have size : storage.size = 4 := Option.some.inj small
      rw [size] at room
      exact absurd room (by decide)

/-- A kernel that is tiled in one level, and an operation whose record declares a kernel, which the
tile loop puts into the code and a later pass tiles in another level. -/
def declaredKernelSchedule : List Operation :=
  [scaleOperation "j" "k.in.L" ⟨0, 128⟩,
    ⟨"k", { Block.ofFragments [] with
      record := some { level := "L", loopVariable := "i", tileCount := 1
                       declarations := [scaleKernel "L_arena" ⟨0, 128⟩] } }⟩]

def declaredKernelPipeline : List Pass :=
  [.tileViews "k.in.L", .tileLoop { opening := some "do", closing := some "od" },
    .tileViews "L_arena"]

/-- The view of the declared kernel has the name of the arena in which the first kernel has its
view, and replaces it. -/
theorem declaredKernel_drops_arena :
    (scaleContext .empty).ArenaApart "k.in.L" ∧
    ((moves declaredKernelPipeline false declaredKernelSchedule
      { context := scaleContext .empty }).filterMap Move.places).map
        (fun placement => (placement.view, placement.level)) =
      [("j_in_k_in_L", "k.in.L"), ("k_in_L_arena", "L_arena")] ∧
    let outcome := run declaredKernelPipeline false declaredKernelSchedule (scaleContext .empty)
    (outcome.2.find? "j_in_k_in_L").map Buffer.kind = some (.reference "k_in_L_arena" 0) ∧
    (outcome.2.find? "k_in_L_arena").map (fun buffer => (buffer.kind, buffer.size)) =
      some (.reference "L_arena_arena" 0, 0) ∧
    outcome.1.toOption.map Program.statics = some ["static uint8_t L_arena_arena[128];"] := by
  refine ⟨.of_absent rfl, ?_⟩
  decide +kernel

end Schedule

end TensorLowering
