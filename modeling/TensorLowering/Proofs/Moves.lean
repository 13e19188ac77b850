import TensorLowering.Proofs.Evolution
import TensorLowering.Proofs.ScheduleSteps

/-! # The moves of a run

The lowering of a schedule is a sequence of moves. A pass is one move, but tiling a kernel is
several: one that provides the arena, and one for each view that is made. So a move replaces the
buffer under at most one name. The moves of a run lead from the context at its start to the context
that it leaves behind, also if it fails (`TensorLowering.Schedule.sound_moves`).
-/

namespace TensorLowering

/-- A view in the arena of a level, which lies where a constraint places a tensor. -/
structure Placement where
  view : String
  level : String
  tensor : String
  constraint : MemoryConstraint
  deriving DecidableEq, Inhabited

/-- A part of a run, with the contexts before and after it: the level whose arena it provides, the
name under which it may replace a buffer, and the placement of the view that it has made. -/
structure Move where
  start : Context
  finish : Context
  opens : Option String := none
  binds : Option String := none
  places : Option Placement := none
  deriving DecidableEq, Inhabited

/-- The context that a run leaves behind, also if it fails. -/
def leaves {ε α : Type} : EStateM.Result ε Workspace α → Context
  | .ok _ workspace => workspace.context
  | .error _ workspace => workspace.context

/-- The moves that come after a step, none if it fails. -/
def movesAfter {ε α : Type} (step : EStateM ε Workspace α) (moves : α → Workspace → List Move)
    (workspace : Workspace) : List Move :=
  (observe step moves workspace).getD []

namespace Lowering

/-- A step as a move that replaces no buffer. -/
def quietMove {α : Type} (step : Lowering α) (workspace : Workspace) : Move where
  start := workspace.context
  finish := leaves (step workspace)

/-- A step as a move that binds the identifier of a logical name. -/
def bindingMove {α : Type} (logical : String) (step : Lowering α) (workspace : Workspace) : Move :=
  { quietMove step workspace with
    binds := (leaves (step workspace)).mangled.find? logical }

/-- A step as a move that places a view of a tensor. -/
def placingMove {α : Type} (logical level : String) (constraint : MemoryConstraint)
    (tensor : Option String) (step : Lowering α) (workspace : Workspace) : Move :=
  { bindingMove logical step workspace with
    places := (observe step (fun _ final => final.context) workspace).bind fun final => do
      return { view := ← final.mangled.find? logical, level, tensor := ← tensor, constraint } }

/-- The moves of a loop. -/
def foldMoves {σ ι : Type} (step : σ → ι → Lowering σ) (move : σ → ι → Workspace → Move) :
    List ι → σ → Workspace → List Move
  | [], _, _ => []
  | item :: items, state, workspace =>
      move state item workspace ::
        movesAfter (step state item) (foldMoves step move items) workspace

/-! ### Tiling a kernel -/

section Kernel

variable (tiling : Tiling) (level operation : String)

/-- Tiling a kernel up to where its arena is provided. -/
def openTiling (kernel : Fragment) : Lowering (String × TileDraft) := do
  ask fun _ => tiling.checkCounts operation
  let extent ← ask fun _ => tiling.extent operation level
  let arena ← ensureArena level extent
  occupy level extent
  let loopVariable ← mangle (operation ++ "_tile")
  return (arena,
    ⟨{ kernel with tiling := none }, { level, loopVariable, tileCount := tiling.tileCount }⟩)

/-- Tiling a kernel from there on. -/
def makeViews (arena : String) (draft : TileDraft) : Lowering TileDraft := do
  let draft ← tiling.schedule.tensors.foldlM (tileTensor tiling operation level arena) draft
  let transients ← ask fun context => .ok (levelTransients context level draft.fragment.bindings)
  let draft ← transients.foldlM (placeTransient tiling operation level arena) draft
  let draft ← tiling.scheme.perTile.entries.foldlM (tileScalar tiling operation level) draft
  let template := draft.fragment.template.dereference tiling.scheme.perTile.keys
  return { draft with fragment := { draft.fragment with template } }

theorem tileKernel_eq (kernel : Fragment) :
    tileKernel tiling level operation kernel =
      openTiling tiling level operation kernel >>= fun opened =>
        makeViews tiling level operation opened.1 opened.2 := by
  simp only [tileKernel, openTiling, makeViews, bind_assoc, pure_bind]

/-- The view of a tensor lies where its root does. -/
def tensorMove (arena : String) (draft : TileDraft) (entry : String × List Nat × Direction)
    (workspace : Workspace) : Move :=
  placingMove (operation ++ "." ++ entry.1 ++ "." ++ level) level tiling.constraint
    (((draft.fragment.bindings.find? entry.1).bind Binding.name?).bind fun external =>
      (workspace.context.resolveRoot external).toOption)
    (tileTensor tiling operation level arena draft entry) workspace

/-- The view of scratch storage lies where the storage does. -/
def transientMove (arena : String) (draft : TileDraft) (entry : String × String)
    (workspace : Workspace) : Move :=
  placingMove (operation ++ ":" ++ entry.2 ++ ":" ++ level) level tiling.constraint (some entry.2)
    (placeTransient tiling operation level arena draft entry) workspace

/-- The view of a scalar lies in a table. -/
def scalarMove (draft : TileDraft) (entry : String × List Int) (workspace : Workspace) : Move :=
  bindingMove (operation ++ "/" ++ entry.1 ++ "/ref")
    (tileScalar tiling operation level draft entry) workspace

/-- The moves that make the views of a kernel: those of tensors, of scratch storage and of
scalars. -/
def viewMoves (arena : String) (draft : TileDraft) (workspace : Workspace) : List Move :=
  foldMoves (tileTensor tiling operation level arena) (tensorMove tiling level operation arena)
    tiling.schedule.tensors draft workspace ++
  movesAfter (tiling.schedule.tensors.foldlM (tileTensor tiling operation level arena) draft)
    (fun draft tiled =>
      let transients := levelTransients tiled.context level draft.fragment.bindings
      foldMoves (placeTransient tiling operation level arena)
        (transientMove tiling level operation arena) transients draft tiled ++
      movesAfter (transients.foldlM (placeTransient tiling operation level arena) draft)
        (foldMoves (tileScalar tiling operation level) (scalarMove tiling level operation)
          tiling.scheme.perTile.entries)
        tiled)
    workspace

/-- The move that provides the arena. -/
def openingMove (kernel : Fragment) (workspace : Workspace) : Move :=
  { quietMove (openTiling tiling level operation kernel) workspace with
    opens := observe (openTiling tiling level operation kernel) (fun _ _ => level) workspace }

/-- The moves that tile a kernel. -/
def kernelMoves (kernel : Fragment) (workspace : Workspace) : List Move :=
  openingMove tiling level operation kernel workspace ::
    movesAfter (openTiling tiling level operation kernel)
      (fun opened => viewMoves tiling level operation opened.1 opened.2) workspace

end Kernel

/-- The moves that tile the first fragment with a tiling. -/
def firstMoves (level operation : String) : List Fragment → Workspace → List Move
  | [], _ => []
  | fragment :: fragments, workspace =>
      match fragment.tiling with
      | some tiling => kernelMoves tiling level operation fragment workspace
      | none => firstMoves level operation fragments workspace

/-- The moves that tile a block, none if it is refused. -/
def tilingMoves (level operation : String) (block : Block) (workspace : Workspace) : List Move :=
  if 1 < (block.fragments.filter (·.tiling.isSome)).length then []
  else firstMoves level operation block.fragments workspace

end Lowering

/-- The moves of a pass. -/
def Pass.moves (annotate : Bool) (operation : String) (block : Block) (workspace : Workspace) :
    Pass → List Move
  | .tileViews level => Lowering.tilingMoves level operation block workspace
  | .closures options =>
      let step := Lowering.makeClosure options block operation
      [{ Lowering.quietMove step workspace with
        binds := ((leaves (step workspace)).mangled.find? (operation ++ "_closure")).map
          (· ++ "_args") }]
  | pass => [Lowering.quietMove (pass.apply annotate operation block) workspace]

/-- The moves of passes over the block of an operation. -/
def Pipeline.moves (annotate : Bool) (operation : String) :
    List Pass → Block → Workspace → List Move
  | [], _, _ => []
  | pass :: passes, block, workspace =>
      pass.moves annotate operation block workspace ++
        movesAfter (pass.apply annotate operation block) (moves annotate operation passes) workspace

/-- The moves of the lowering of a schedule. -/
def Schedule.moves (pipeline : List Pass) (annotate : Bool) :
    List Operation → Workspace → List Move
  | [], _ => []
  | operation :: operations, workspace =>
      Pipeline.moves annotate operation.name pipeline operation.block workspace ++
        movesAfter (lowerOperation pipeline annotate operation)
          (fun _ => moves pipeline annotate operations) workspace

theorem Lowering.evolves_openTiling (tiling : Tiling) (level operation : String) (kernel : Fragment)
    (workspace : Workspace) :
    workspace.context.Evolves none
      ((openTiling tiling level operation kernel).finish workspace) := by
  have start := Context.Evolves.refl none workspace.context
  have frame := Context.clearFrame_evolves none workspace.context
  refine finish_ask_bind start fun _ _ => finish_ask_bind start fun extent _ => ?_
  have ensured := finish_ensureArena frame.openFrame (start.mangle (level ++ "_arena")) extent
  refine finish_bind (fun _ _ ran => finish_of_error ran ▸ ensured) fun arena middle ran => ?_
  have rest : Preserves (Context.Evolves none workspace.context) (do
      occupy level extent
      let loopVariable ← mangle (operation ++ "_tile")
      return (arena, (⟨{ kernel with tiling := none },
        { level, loopVariable, tileCount := tiling.tileCount }⟩ : TileDraft))) := by
    apply (preserves_occupy frame.openFrame level extent).bind
    intro _ _
    exact (preserves_mangle_evolves none _).bind fun _ _ => preserves_pure _
  exact rest.finish (finish_of_ok ran ▸ ensured)

/-! ### Putting moves together -/

section Runs

variable {ε α β : Type} {first : EStateM ε Workspace α} {next : α → EStateM ε Workspace β}
  {workspace : Workspace}

theorem Lowering.finish_eq_leaves (step : Lowering α) (workspace : Workspace) :
    step.finish workspace = leaves (step workspace) := by
  rw [finish]
  cases step workspace <;> rfl

theorem leaves_bind (keeps : ∀ answer middle, leaves (next answer middle) = middle.context) :
    leaves ((first >>= next) workspace) = leaves (first workspace) := by
  change leaves (EStateM.bind first next workspace) = _
  rw [EStateM.bind]
  cases first workspace with
  | ok answer middle => exact keeps answer middle
  | error error middle => rfl

theorem leaves_during (step : Lowering α) (operation stage : String) (completed : Nat) :
    leaves (step.during operation stage completed workspace) = leaves (step workspace) := by
  rw [Lowering.during]
  cases step workspace <;> rfl

theorem movesAfter_of_ok {moves : α → Workspace → List Move} {answer : α} {final : Workspace}
    (ran : first workspace = .ok answer final) :
    movesAfter first moves workspace = moves answer final := by
  rw [movesAfter, observe, ran]
  rfl

theorem mem_movesAfter {moves : α → Workspace → List Move} {move : Move}
    (member : move ∈ movesAfter first moves workspace) :
    ∃ answer final, first workspace = .ok answer final ∧ move ∈ moves answer final := by
  rw [movesAfter] at member
  cases observed : observe first moves workspace with
  | none =>
      rw [observed] at member
      exact absurd member List.not_mem_nil
  | some later =>
      rw [observed] at member
      obtain ⟨answer, final, ran, rfl⟩ := exists_of_observe observed
      exact ⟨answer, final, ran, member⟩

theorem movesAfter_during (step : Lowering α) (operation stage : String) (completed : Nat)
    (moves : α → Workspace → List Move) :
    movesAfter (step.during operation stage completed) moves workspace =
      movesAfter step moves workspace := by
  rw [movesAfter, movesAfter, observe, observe, Lowering.during]
  cases step workspace <;> rfl

end Runs

namespace Schedule

variable {pipeline : List Pass} {annotate : Bool}

/-- Writing the code of an operation leaves the context alone. -/
theorem leaves_rendered {operation stage : String} {completed : Nat} {name : String}
    (block : Block) (middle : Workspace) :
    leaves ((do
      let code ← (Lowering.renderBlock block).during operation stage completed
      return ({ name, block, code } : LoweredOperation) : Scheduling LoweredOperation) middle) =
        middle.context := by
  have keeps : Lowering.Preserves (· = middle.context) (Lowering.renderBlock block) :=
    Lowering.preserves_renderBlock block
  rw [leaves_bind fun _ _ => rfl, leaves_during, ← Lowering.finish_eq_leaves]
  exact keeps.finish rfl

/-- After the operations, the lowering of a schedule leaves the context alone. -/
theorem run_snd (operations : List Operation) (context : Context) :
    (run pipeline annotate operations context).2 =
      leaves (operations.mapM (lowerOperation pipeline annotate) { context }) := by
  have ended : (run pipeline annotate operations context).2 =
      leaves (lower pipeline annotate operations { context }) := by
    rw [run]
    cases lower pipeline annotate operations { context } <;> rfl
  rw [ended, lower, leaves_bind]
  intro lowered middle
  have keeps : Lowering.Preserves (· = middle.context)
      (Lowering.ask Context.staticDeclarations) := Lowering.preserves_ask _
  rw [leaves_bind fun _ _ => rfl, leaves_during, ← Lowering.finish_eq_leaves]
  exact keeps.finish rfl

end Schedule

/-- A property of moves that lead from one context to another, which holds of sequences if it holds
of their parts. -/
structure Composes (trace : Context → List Move → Context → Prop) : Prop where
  nil : ∀ context, trace context [] context
  append : ∀ {first second third : Context} {moves later : List Move},
    trace first moves second → trace second later third → trace first (moves ++ later) third

namespace Composes

variable {trace : Context → List Move → Context → Prop} (composes : Composes trace)
include composes

theorem bind {ε α β : Type} {first : EStateM ε Workspace α} {next : α → EStateM ε Workspace β}
    {more : α → Workspace → List Move} {start : Context} {moves : List Move}
    {workspace : Workspace} (head : trace start moves (leaves (first workspace)))
    (later : ∀ answer middle, first workspace = .ok answer middle →
      trace middle.context (more answer middle) (leaves (next answer middle))) :
    trace start (moves ++ movesAfter first more workspace)
      (leaves ((first >>= next) workspace)) := by
  change trace start _ (leaves (EStateM.bind first next workspace))
  rw [movesAfter, observe, EStateM.bind]
  cases outcome : first workspace with
  | ok answer middle =>
      rw [outcome] at head
      exact composes.append head (later answer middle outcome)
  | error error middle =>
      rw [outcome] at head
      rw [Option.getD_none, List.append_nil]
      exact head

theorem foldMoves {σ ι : Type} {step : σ → ι → Lowering σ} {move : σ → ι → Workspace → Move}
    (each : ∀ state item workspace,
      trace workspace.context [move state item workspace] (leaves (step state item workspace)))
    (items : List ι) (state : σ) (workspace : Workspace) :
    trace workspace.context (Lowering.foldMoves step move items state workspace)
      (leaves (items.foldlM step state workspace)) := by
  induction items generalizing state workspace with
  | nil => exact composes.nil workspace.context
  | cons item items ih =>
      rw [List.foldlM_cons]
      exact composes.bind (each state item workspace) fun next middle _ => ih next middle

/-- The moves that make the views of a kernel. -/
theorem views {tiling : Tiling} {level operation arena : String}
    (tensor : ∀ draft entry workspace, trace workspace.context
      [Lowering.tensorMove tiling level operation arena draft entry workspace]
      (leaves (Lowering.tileTensor tiling operation level arena draft entry workspace)))
    (scratch : ∀ draft entry workspace, trace workspace.context
      [Lowering.transientMove tiling level operation arena draft entry workspace]
      (leaves (Lowering.placeTransient tiling operation level arena draft entry workspace)))
    (scalar : ∀ draft entry workspace, trace workspace.context
      [Lowering.scalarMove tiling level operation draft entry workspace]
      (leaves (Lowering.tileScalar tiling operation level draft entry workspace)))
    (draft : TileDraft) (workspace : Workspace) :
    trace workspace.context (Lowering.viewMoves tiling level operation arena draft workspace)
      (leaves (Lowering.makeViews tiling level operation arena draft workspace)) := by
  refine composes.bind (composes.foldMoves tensor _ draft workspace) fun tensors tiled _ => ?_
  have listed : Lowering.ask (fun context =>
      .ok (Lowering.levelTransients context level tensors.fragment.bindings)) tiled =
        .ok (Lowering.levelTransients tiled.context level tensors.fragment.bindings) tiled := rfl
  rw [bind_of_ok listed]
  refine composes.bind (composes.foldMoves scratch _ tensors tiled) fun placed middle _ => ?_
  rw [leaves_bind fun _ _ => rfl]
  exact composes.foldMoves scalar _ placed middle

/-- The moves that tile a block. -/
theorem tiling {level : String}
    (kernel : ∀ tiling operation kernel workspace, trace workspace.context
      (Lowering.kernelMoves tiling level operation kernel workspace)
      (leaves (Lowering.tileKernel tiling level operation kernel workspace)))
    (operation : String) (block : Block) (workspace : Workspace) :
    trace workspace.context (Lowering.tilingMoves level operation block workspace)
      (leaves (Lowering.makeTileViews level block operation workspace)) := by
  have first : ∀ fragments, trace workspace.context
      (Lowering.firstMoves level operation fragments workspace)
      (leaves (Lowering.tileFirst level operation fragments workspace)) := by
    intro fragments
    induction fragments with
    | nil => exact composes.nil workspace.context
    | cons fragment fragments ih =>
        rw [Lowering.firstMoves, Lowering.tileFirst]
        cases fragment.tiling with
        | some tiling =>
            dsimp only
            rw [leaves_bind fun _ _ => rfl]
            exact kernel tiling operation fragment workspace
        | none =>
            dsimp only
            rw [leaves_bind fun _ _ => rfl]
            exact ih
  rw [Lowering.tilingMoves, Lowering.makeTileViews]
  split
  · exact composes.nil workspace.context
  · change trace _ _ (leaves ((Lowering.tileFirst level operation block.fragments >>= _) workspace))
    rw [leaves_bind fun _ _ => rfl]
    exact first block.fragments

/-- The moves of passes. -/
theorem pipeline {annotate : Bool} {passes : List Pass}
    (each : ∀ pass ∈ passes, ∀ operation block workspace,
      trace workspace.context (pass.moves annotate operation block workspace)
        (leaves (pass.apply annotate operation block workspace)))
    (operation : String) (completed : Nat) (block : Block) (workspace : Workspace) :
    trace workspace.context (Pipeline.moves annotate operation passes block workspace)
      (leaves (Pipeline.runFrom annotate operation completed passes block workspace)) := by
  induction passes generalizing completed block workspace with
  | nil => exact composes.nil workspace.context
  | cons pass passes ih =>
      obtain ⟨own, others⟩ := List.forall_mem_cons.mp each
      rw [Pipeline.moves, ← movesAfter_during _ operation pass.kind.name completed]
      refine composes.bind ?_ fun passed middle _ => ih others (completed + 1) passed middle
      rw [leaves_during]
      exact own operation block workspace

/-- The moves of a schedule lead to the context that its lowering leaves behind. -/
theorem schedule {annotate : Bool} {pipeline : List Pass} {operations : List Operation}
    (each : ∀ operation ∈ operations, ∀ workspace, trace workspace.context
      (Pipeline.moves annotate operation.name pipeline operation.block workspace)
      (leaves (Pipeline.run pipeline annotate operation.name operation.block workspace)))
    (context : Context) :
    trace context (Schedule.moves pipeline annotate operations { context })
      (Schedule.run pipeline annotate operations context).2 := by
  have lowered : ∀ workspace : Workspace,
      trace workspace.context (Schedule.moves pipeline annotate operations workspace)
        (leaves (operations.mapM (Schedule.lowerOperation pipeline annotate) workspace)) := by
    induction operations with
    | nil => exact fun workspace => composes.nil workspace.context
    | cons operation operations ih =>
        intro workspace
        obtain ⟨own, others⟩ := List.forall_mem_cons.mp each
        rw [List.mapM_cons]
        refine composes.bind ?_ fun lowered middle _ => ?_
        · rw [Schedule.lowerOperation, leaves_bind Schedule.leaves_rendered]
          exact own workspace
        · rw [leaves_bind fun _ _ => rfl]
          exact ih others middle
  rw [Schedule.run_snd]
  exact lowered { context }

end Composes

theorem composes_forall (property : Move → Prop) :
    Composes fun _ moves _ => ∀ move ∈ moves, property move where
  nil _ _ member := absurd member List.not_mem_nil
  append first second _ member := (List.mem_append.mp member).elim (first _) (second _)

/-! ### What moves do -/

/-- Each move starts where the one before it has finished. -/
def Follow : Context → List Move → Context → Prop
  | start, [], finish => start = finish
  | start, move :: moves, finish => move.start = start ∧ Follow move.finish moves finish

theorem Follow.append {first second third : Context} {moves later : List Move}
    (follow : Follow first moves second) (next : Follow second later third) :
    Follow first (moves ++ later) third := by
  induction moves generalizing first with
  | nil => exact follow ▸ next
  | cons move moves ih => exact ⟨follow.1, ih follow.2⟩

theorem Follow.split {first third : Context} {moves later : List Move}
    (follow : Follow first (moves ++ later) third) :
    ∃ second, Follow first moves second ∧ Follow second later third := by
  induction moves generalizing first with
  | nil => exact ⟨first, rfl, follow⟩
  | cons move moves ih =>
      obtain ⟨second, earlier, rest⟩ := ih follow.2
      exact ⟨second, ⟨follow.1, earlier⟩, rest⟩

/-- What every move keeps holds after each of them. -/
theorem Follow.invariant {property : Context → Prop} {start finish : Context} {moves : List Move}
    (follow : Follow start moves finish)
    (keeps : ∀ move ∈ moves, property move.start → property move.finish)
    (before : property start) : property finish ∧ ∀ move ∈ moves, property move.finish := by
  induction moves generalizing start with
  | nil => exact ⟨follow ▸ before, fun _ member => absurd member List.not_mem_nil⟩
  | cons move moves ih =>
      obtain ⟨own, others⟩ := List.forall_mem_cons.mp keeps
      have after := own (follow.1 ▸ before)
      obtain ⟨last, each⟩ := ih follow.2 others after
      exact ⟨last, List.forall_mem_cons.mpr ⟨after, each⟩⟩

/-- The logical names of views: those of tensors and of scratch storage in a level, and those of
scalars. -/
inductive IsViewName (level : String) : String → Prop
  | tensor (operation key : String) : IsViewName level (operation ++ "." ++ key ++ "." ++ level)
  | scratch (operation name : String) : IsViewName level (operation ++ ":" ++ name ++ ":" ++ level)
  | scalar (operation key : String) : IsViewName level (operation ++ "/" ++ key ++ "/ref")

/-- Moves follow each other and replace buffers under the names of views and of closures only. -/
structure Sound (tiled : String → Prop) (start : Context) (moves : List Move) (finish : Context) :
    Prop where
  follow : Follow start moves finish
  evolves : ∀ move ∈ moves, move.start.Evolves move.binds move.finish
  origin : ∀ move ∈ moves, ∀ {name}, move.binds = some name →
    (∃ level logical, tiled level ∧ IsViewName level logical ∧
      move.finish.mangled.find? logical = some name) ∨ ∃ closure, name = closure ++ "_args"

theorem composes_sound (tiled : String → Prop) : Composes (Sound tiled) where
  nil _ := ⟨rfl, fun _ member => absurd member List.not_mem_nil,
    fun _ member => absurd member List.not_mem_nil⟩
  append first second := by
    refine ⟨first.follow.append second.follow, ?_, ?_⟩
    · intro move member
      rcases List.mem_append.mp member with earlier | later
      · exact first.evolves move earlier
      · exact second.evolves move later
    · intro move member
      rcases List.mem_append.mp member with earlier | later
      · exact first.origin move earlier
      · exact second.origin move later

namespace Sound

open Context (Evolves EvolvesBy clearFrame_evolves)

variable {tiled : String → Prop} {workspace : Workspace}

theorem single (move : Move) (evolves : move.start.Evolves move.binds move.finish)
    (origin : ∀ {name}, move.binds = some name →
      (∃ level logical, tiled level ∧ IsViewName level logical ∧
        move.finish.mangled.find? logical = some name) ∨ ∃ closure, name = closure ++ "_args") :
    Sound tiled move.start [move] move.finish where
  follow := ⟨rfl, rfl⟩
  evolves _ member := List.mem_singleton.mp member ▸ evolves
  origin _ member := List.mem_singleton.mp member ▸ origin

theorem quiet {α : Type} {step : Lowering α}
    (evolves : workspace.context.Evolves none (step.finish workspace)) :
    Sound tiled workspace.context [Lowering.quietMove step workspace]
      (leaves (step workspace)) := by
  rw [Lowering.finish_eq_leaves] at evolves
  exact single (Lowering.quietMove step workspace) evolves fun bound => by cases bound

/-- A move that binds the name of a view. -/
theorem binding {α : Type} {step : Lowering α} {level logical : String} (isTiled : tiled level)
    (named : IsViewName level logical)
    (evolves : EvolvesBy logical "" workspace.context (step.finish workspace)) (move : Move)
    (starts : move.start = workspace.context) (finishes : move.finish = leaves (step workspace))
    (binds : move.binds = (leaves (step workspace)).mangled.find? logical) :
    Sound tiled workspace.context [move] (leaves (step workspace)) := by
  have whole : ∀ found : Option String, found.map (· ++ "") = found := by
    intro found
    cases found <;> simp
  rw [Lowering.finish_eq_leaves, EvolvesBy, whole, ← binds] at evolves
  rw [← finishes, ← starts] at evolves ⊢
  refine single move evolves fun {name} bound => .inl ⟨level, logical, isTiled, named, ?_⟩
  rw [finishes, ← binds, bound]

section Views

variable {level : String} (isTiled : tiled level) (tiling : Tiling) (operation : String)
  (draft : TileDraft) (workspace : Workspace)
include isTiled

theorem tensor (arena : String) (entry : String × List Nat × Direction) :
    Sound tiled workspace.context
      [Lowering.tensorMove tiling level operation arena draft entry workspace]
      (leaves (Lowering.tileTensor tiling operation level arena draft entry workspace)) :=
  binding isTiled (.tensor operation entry.1)
    (Lowering.evolves_tileTensor tiling operation level arena draft workspace entry) _ rfl rfl rfl

theorem scratch (arena : String) (entry : String × String) :
    Sound tiled workspace.context
      [Lowering.transientMove tiling level operation arena draft entry workspace]
      (leaves (Lowering.placeTransient tiling operation level arena draft entry workspace)) :=
  binding isTiled (.scratch operation entry.2)
    (Lowering.evolves_placeTransient tiling operation level arena draft workspace entry) _
      rfl rfl rfl

theorem scalar (entry : String × List Int) :
    Sound tiled workspace.context
      [Lowering.scalarMove tiling level operation draft entry workspace]
      (leaves (Lowering.tileScalar tiling operation level draft entry workspace)) :=
  binding isTiled (.scalar operation entry.1)
    (Lowering.evolves_tileScalar tiling operation level draft workspace entry) _ rfl rfl rfl

/-- The moves that make the views of a kernel. -/
theorem views (arena : String) :
    Sound tiled workspace.context
      (Lowering.viewMoves tiling level operation arena draft workspace)
      (leaves (Lowering.makeViews tiling level operation arena draft workspace)) :=
  (composes_sound tiled).views
    (fun draft entry workspace => tensor isTiled tiling operation draft workspace arena entry)
    (fun draft entry workspace => scratch isTiled tiling operation draft workspace arena entry)
    (fun draft entry workspace => scalar isTiled tiling operation draft workspace entry)
    draft workspace

end Views

theorem opening (tiling : Tiling) (level operation : String) (kernel : Fragment)
    (workspace : Workspace) :
    Sound tiled workspace.context [Lowering.openingMove tiling level operation kernel workspace]
      (leaves (Lowering.openTiling tiling level operation kernel workspace)) := by
  have evolves := Lowering.evolves_openTiling tiling level operation kernel workspace
  rw [Lowering.finish_eq_leaves] at evolves
  exact single (Lowering.openingMove tiling level operation kernel workspace) evolves
    fun bound => by cases bound

/-- The moves that tile a kernel. -/
theorem kernel {level : String} (isTiled : tiled level) (tiling : Tiling) (operation : String)
    (kernel : Fragment) (workspace : Workspace) :
    Sound tiled workspace.context (Lowering.kernelMoves tiling level operation kernel workspace)
      (leaves (Lowering.tileKernel tiling level operation kernel workspace)) := by
  rw [Lowering.tileKernel_eq]
  refine (composes_sound tiled).bind (opening tiling level operation kernel workspace)
    fun opened middle _ => ?_
  exact views isTiled tiling operation opened.2 middle opened.1

/-- The moves of a pass. -/
theorem pass (pass : Pass) (isTiled : ∀ level, pass = .tileViews level → tiled level)
    (annotate : Bool) (operation : String) (block : Block) (workspace : Workspace) :
    Sound tiled workspace.context (pass.moves annotate operation block workspace)
      (leaves (pass.apply annotate operation block workspace)) := by
  have start := Evolves.refl none workspace.context
  have frame := (clearFrame_evolves none workspace.context).toFrame
  cases pass with
  | tileViews level =>
      exact (composes_sound tiled).tiling (kernel (isTiled level rfl)) operation block workspace
  | tileUpdates => exact quiet start
  | tileLoop options => exact quiet start
  | futures templates =>
      exact quiet ((Lowering.preserves_resolveFutures frame templates block operation).finish start)
  | closures options =>
      have evolves := Lowering.evolves_makeClosure options block operation workspace
      rw [Lowering.finish_eq_leaves] at evolves
      refine single {
        Lowering.quietMove (Lowering.makeClosure options block operation) workspace with
        binds := ((leaves (Lowering.makeClosure options block operation workspace)).mangled.find?
          (operation ++ "_closure")).map (· ++ "_args") } evolves fun bound => ?_
      obtain ⟨closure, -, rfl⟩ := Option.map_eq_some_iff.mp bound
      exact .inr ⟨closure, rfl⟩
  | structs template =>
      exact quiet ((Lowering.preserves_initializeStructs _ block).finish start)
  | lifetimes templates =>
      exact quiet
        ((Lowering.preserves_manageLifetimes frame _ annotate block operation).finish start)
  | bookkeeping =>
      exact quiet
        ((Lowering.preserves_manageLifetimes frame _ annotate block operation).finish start)

end Sound

/-- **The moves of a run are sound.** -/
theorem Schedule.sound_moves (pipeline : List Pass) (annotate : Bool) (operations : List Operation)
    (context : Context) :
    Sound (fun level => Pass.tileViews level ∈ pipeline) context
      (moves pipeline annotate operations { context })
      (run pipeline annotate operations context).2 := by
  refine (composes_sound _).schedule (fun operation _ => ?_) context
  refine (composes_sound _).pipeline (fun pass member => ?_) operation.name 0 operation.block
  exact Sound.pass pass (fun _ same => same ▸ member) annotate

end TensorLowering
