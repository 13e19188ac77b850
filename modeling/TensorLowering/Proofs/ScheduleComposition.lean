import TensorLowering.Proofs.Agreement
import TensorLowering.Proofs.ScheduleSteps

/-! # Schedules in two parts

No pass shows which templates have been read before it (`TensorLowering.Pass.oblivious_apply`), so
neither does the lowering of an operation. A schedule can therefore be cut anywhere: lowering its
second part in the context that its first part leaves behind, with nothing read yet, ends as
lowering the whole does (`TensorLowering.Schedule.run_append`).
-/

namespace TensorLowering

namespace Lowering

/-! ### Buffers and definitions -/

theorem oblivious_modifyBuffer (name : String) (update : Buffer → Buffer) :
    Oblivious (modifyBuffer name update) :=
  (oblivious_ask _).bind fun _ => oblivious_change _

theorem oblivious_discardBuffer (name : String) : Oblivious (discardBuffer name) := by
  apply (oblivious_ask _).bind
  intro known
  apply oblivious_ite
  · exact (oblivious_attempt _).bind fun _ => oblivious_pure _
  · exact oblivious_pure _

theorem oblivious_hoist (name code : String) : Oblivious (hoist name code) :=
  (oblivious_attempt _).bind fun _ => oblivious_pure _

/-! ### Lifetimes -/

section Lifetimes

variable (templates : Option LifetimeTemplates) (operation : String)

theorem oblivious_lifetimeCode
    (code : LifetimeTemplates → Registry → Buffer → Except Error Fragment) (name : String) :
    Oblivious (lifetimeCode templates code name) := by
  apply (oblivious_ask _).bind
  intro buffer
  cases templates with
  | none => exact oblivious_pure []
  | some templates => exact (oblivious_ask _).bind fun _ => oblivious_pure _

theorem oblivious_allocateAll (names : List String) :
    Oblivious (allocateAll templates operation names) := by
  induction names with
  | nil => exact oblivious_pure []
  | cons name names ih =>
      apply ih.bind
      intro later
      apply (oblivious_attempt _).bind
      intro _
      exact (oblivious_lifetimeCode templates _ name).bind fun _ => oblivious_pure _

theorem oblivious_releaseCode (owners : List String) :
    Oblivious (releaseCode templates owners) := by
  induction owners with
  | nil => exact oblivious_pure []
  | cons owner owners ih =>
      apply (oblivious_lifetimeCode templates _ owner).bind
      intro code
      exact ih.bind fun _ => oblivious_pure _

theorem oblivious_deallocateAll (names : List String) :
    Oblivious (deallocateAll templates operation names) := by
  induction names with
  | nil => exact oblivious_pure ([], [])
  | cons name names ih =>
      apply (oblivious_perform _).bind
      intro owners
      apply (oblivious_releaseCode templates owners).bind
      intro code
      exact ih.bind fun _ => oblivious_pure _

theorem oblivious_beginLifetimes (block : Block) :
    Oblivious (beginLifetimes templates block operation) := by
  apply (oblivious_references block _).bind
  intro names
  apply (oblivious_lookups names).bind
  intro buffers
  apply (oblivious_ask _).bind
  intro allocated
  exact (oblivious_allocateAll templates operation allocated).bind fun _ => oblivious_pure _

theorem oblivious_endLifetimes (annotate : Bool) (opened : OpenLifetimes) :
    Oblivious (endLifetimes templates annotate operation opened) := by
  apply (oblivious_deallocateAll templates operation opened.freed).bind
  intro closed
  dsimp only
  split
  · apply (oblivious_ask _).bind
    intro levels
    exact (oblivious_ask _).bind fun _ => oblivious_pure _
  · exact oblivious_pure _

theorem oblivious_manageLifetimes (annotate : Bool) (block : Block) :
    Oblivious (manageLifetimes templates annotate block operation) := by
  apply (oblivious_beginLifetimes templates operation block).bind
  intro opened
  exact (oblivious_endLifetimes templates operation annotate opened).bind fun _ =>
    oblivious_pure _

end Lifetimes

/-! ### Structs and futures -/

theorem oblivious_declareStructs (template : Template) (names : List String) :
    Oblivious (declareStructs template names) := by
  induction names with
  | nil => exact oblivious_pure []
  | cons name names ih =>
      apply ih.bind
      intro later
      apply (oblivious_ask _).bind
      intro buffer
      exact (oblivious_ask _).bind fun _ => oblivious_pure _

theorem oblivious_initializeStructs (template : Template) (block : Block) :
    Oblivious (initializeStructs template block) := by
  apply (oblivious_references block _).bind
  intro names
  exact (oblivious_declareStructs template names).bind fun _ => oblivious_pure _

theorem oblivious_resolveFuture (templates : FutureTemplates) (operation name : String) :
    Oblivious (resolveFuture templates operation name) := by
  apply (oblivious_ask _).bind
  intro buffer
  apply (oblivious_ask _).bind
  intro isFuture
  apply oblivious_ite
  · exact oblivious_pure _
  · cases buffer.state with
    | none => exact oblivious_throw _
    | some state =>
        apply oblivious_ite
        · exact oblivious_pure _
        · exact (oblivious_modifyBuffer state _).bind fun _ => oblivious_pure _

theorem oblivious_resolveFutures (templates : FutureTemplates) (block : Block)
    (operation : String) : Oblivious (resolveFutures templates block operation) := by
  apply (oblivious_references block _).bind
  intro names
  exact (oblivious_mapM (oblivious_resolveFuture templates operation) names).bind fun _ =>
    oblivious_pure _

/-! ### Closures -/

theorem oblivious_closureFields (void : TypeId) (buffers : List Buffer) :
    Oblivious (closureFields void buffers) := by
  induction buffers with
  | nil => exact oblivious_pure []
  | cons buffer buffers ih =>
      apply (oblivious_change _).bind
      intro type
      exact ih.bind fun _ => oblivious_pure _

theorem oblivious_registerArgs (names : ClosureNames) (fields : List ClosureField) :
    Oblivious (registerArgs names fields) := by
  apply (oblivious_attempt _).bind
  intro structType
  apply (oblivious_ask _).bind
  intro value
  apply (oblivious_ask _).bind
  intro size
  apply (oblivious_ask _).bind
  intro registered
  apply oblivious_ite
  · exact (oblivious_discardBuffer _).bind fun _ => oblivious_attempt _
  · exact oblivious_pure _

section Inside

variable (templates : LifetimeTemplates) (operation : String)

theorem oblivious_allocateInside (names : List String) :
    Oblivious (allocateInside templates operation names) := by
  induction names with
  | nil => exact oblivious_pure []
  | cons name names ih =>
      apply (oblivious_attempt _).bind
      intro _
      apply (oblivious_ask _).bind
      intro buffer
      apply (oblivious_ask _).bind
      intro fragment
      apply (oblivious_render fragment).bind
      intro text
      exact ih.bind fun _ => oblivious_pure _

theorem oblivious_renderReleases (owners : List String) :
    Oblivious (renderReleases templates owners) := by
  induction owners with
  | nil => exact oblivious_pure []
  | cons owner owners ih =>
      apply (oblivious_ask _).bind
      intro buffer
      apply (oblivious_ask _).bind
      intro fragment
      apply (oblivious_render fragment).bind
      intro text
      exact ih.bind fun _ => oblivious_pure _

theorem oblivious_deallocateInside (names : List String) :
    Oblivious (deallocateInside templates operation names) := by
  induction names with
  | nil => exact oblivious_pure []
  | cons name names ih =>
      apply (oblivious_perform _).bind
      intro owners
      apply (oblivious_renderReleases templates owners).bind
      intro texts
      exact ih.bind fun _ => oblivious_pure _

theorem oblivious_liveInside (names : List String) :
    Oblivious (liveInside templates operation names) := by
  apply (oblivious_ask _).bind
  intro ordered
  apply (oblivious_allocateInside templates operation ordered).bind
  intro before
  exact (oblivious_deallocateInside templates operation ordered.reverse).bind fun _ =>
    oblivious_pure _

end Inside

theorem oblivious_hoistClosure (templates : ClosureTemplates) (names : ClosureNames)
    (declarations body : List String) :
    Oblivious (hoistClosure templates names declarations body) := by
  apply (oblivious_render _).bind
  intro structText
  apply (oblivious_render _).bind
  intro functionText
  exact (oblivious_hoist _ _).bind fun _ => oblivious_hoist _ _

theorem oblivious_makeClosure (options : ClosureOptions) (block : Block) (operation : String) :
    Oblivious (makeClosure options block operation) := by
  apply (oblivious_renderBlock block).bind
  intro code
  apply (oblivious_references block _).bind
  intro references
  apply (oblivious_change _).bind
  intro void
  apply (oblivious_lookups references).bind
  intro buffers
  apply (oblivious_closureFields void _).bind
  intro fields
  apply (oblivious_change _).bind
  intro closure
  apply (oblivious_registerArgs ⟨closure⟩ fields).bind
  intro _
  apply (oblivious_ask _).bind
  intro declarations
  apply (oblivious_ask _).bind
  intro loads
  apply (oblivious_liveInside options.memory operation _).bind
  intro texts
  exact (oblivious_hoistClosure options.templates ⟨closure⟩ declarations _).bind fun _ =>
    oblivious_pure _

/-! ### Tiles -/

section Tiles

variable (tiling : Tiling) (level operation arena : String) (draft : TileDraft)

theorem oblivious_ensureArena (extent : Nat) : Oblivious (ensureArena level extent) := by
  apply (oblivious_change _).bind
  intro name
  apply (oblivious_ask _).bind
  intro known
  apply oblivious_ite
  · exact (oblivious_modifyBuffer name _).bind fun _ => oblivious_pure name
  · apply (oblivious_change _).bind
    intro byte
    exact (oblivious_attempt _).bind fun _ => oblivious_pure name

theorem oblivious_bindView (name : String) (type : TypeId) (target : String) (offset : Nat) :
    Oblivious (bindView name type target offset level) :=
  (oblivious_discardBuffer name).bind fun _ => oblivious_attempt _

theorem oblivious_hoistTable (name : String) (type : TypeId) (values : List Int) :
    Oblivious (hoistTable name type values level) := by
  apply (oblivious_ask _).bind
  intro value
  apply (oblivious_ask _).bind
  intro code
  apply (oblivious_ask _).bind
  intro known
  apply oblivious_ite
  · apply (oblivious_ask _).bind
    intro size
    exact (oblivious_attempt _).bind fun _ => oblivious_hoist name code
  · exact oblivious_hoist name code

theorem oblivious_viewDeclaration (name : String) : Oblivious (viewDeclaration name) := by
  apply (oblivious_ask _).bind
  intro buffer
  exact (oblivious_ask _).bind fun _ => oblivious_pure _

theorem oblivious_tiledBuffer (fragment : Fragment) (key : String) :
    Oblivious (tiledBuffer operation fragment key) := by
  unfold tiledBuffer
  split
  · exact oblivious_pure _
  · exact oblivious_throw _

theorem oblivious_tileTensor (entry : String × List Nat × Direction) :
    Oblivious (tileTensor tiling operation level arena draft entry) := by
  apply (oblivious_tiledBuffer operation _ _).bind
  intro external
  apply (oblivious_ask _).bind
  intro root
  apply (oblivious_ask _).bind
  intro range
  apply (oblivious_ask _).bind
  intro buffer
  apply (oblivious_change _).bind
  intro view
  apply (oblivious_bindView level view _ arena _).bind
  intro _
  apply (oblivious_change _).bind
  intro table
  apply (oblivious_change _).bind
  intro word
  apply (oblivious_hoistTable level table word _).bind
  intro _
  exact (oblivious_viewDeclaration view).bind fun _ => oblivious_pure _

theorem oblivious_placeTransient (entry : String × String) :
    Oblivious (placeTransient tiling operation level arena draft entry) := by
  apply (oblivious_ask _).bind
  intro range
  apply (oblivious_ask _).bind
  intro buffer
  apply (oblivious_change _).bind
  intro view
  apply (oblivious_bindView level view _ arena _).bind
  intro _
  exact (oblivious_viewDeclaration view).bind fun _ => oblivious_pure _

theorem oblivious_scalarType (key : String) : Oblivious (scalarType tiling key) := by
  unfold scalarType
  split
  · exact oblivious_pure _
  · exact oblivious_change _

theorem oblivious_tileScalar (entry : String × List Int) :
    Oblivious (tileScalar tiling operation level draft entry) := by
  apply (oblivious_scalarType tiling _).bind
  intro type
  apply (oblivious_change _).bind
  intro table
  apply (oblivious_hoistTable level table type _).bind
  intro _
  apply (oblivious_change _).bind
  intro view
  apply (oblivious_bindView level view type table 0).bind
  intro _
  exact (oblivious_viewDeclaration view).bind fun _ => oblivious_pure _

theorem oblivious_tileKernel (kernel : Fragment) :
    Oblivious (tileKernel tiling level operation kernel) := by
  apply (oblivious_ask _).bind
  intro _
  apply (oblivious_ask _).bind
  intro extent
  apply (oblivious_ensureArena level extent).bind
  intro arena
  apply (oblivious_change _).bind
  intro _
  apply (oblivious_change _).bind
  intro loopVariable
  apply (oblivious_foldlM (oblivious_tileTensor tiling level operation arena) _ _).bind
  intro draft
  apply (oblivious_ask _).bind
  intro transients
  apply (oblivious_foldlM (oblivious_placeTransient tiling level operation arena) _ _).bind
  intro draft
  apply (oblivious_foldlM (oblivious_tileScalar tiling level operation) _ _).bind
  exact fun draft => oblivious_pure _

theorem oblivious_tileFirst (fragments : List Fragment) :
    Oblivious (tileFirst level operation fragments) := by
  induction fragments with
  | nil => exact oblivious_pure ([], none)
  | cons fragment fragments ih =>
      rw [tileFirst]
      split
      · next tiling _ =>
          exact (oblivious_tileKernel tiling level operation fragment).bind fun _ =>
            oblivious_pure _
      · exact ih.bind fun _ => oblivious_pure _

theorem oblivious_makeTileViews (block : Block) :
    Oblivious (makeTileViews level block operation) := by
  apply oblivious_ite
  · exact (oblivious_throw _).bind fun _ =>
      (oblivious_tileFirst level operation _).bind fun _ => oblivious_pure _
  · exact (oblivious_tileFirst level operation _).bind fun _ => oblivious_pure _

end Tiles

end Lowering

/-! ### Passes, operations and schedules -/

theorem Pass.oblivious_apply (annotate : Bool) (operation : String) (block : Block)
    (pass : Pass) : Oblivious (pass.apply annotate operation block) := by
  cases pass with
  | tileViews level => exact Lowering.oblivious_makeTileViews level operation block
  | tileUpdates => exact oblivious_pure _
  | tileLoop options => exact oblivious_pure _
  | futures templates => exact Lowering.oblivious_resolveFutures templates block operation
  | closures options => exact Lowering.oblivious_makeClosure options block operation
  | structs template => exact Lowering.oblivious_initializeStructs _ block
  | lifetimes templates =>
      exact Lowering.oblivious_manageLifetimes (some templates) operation annotate block
  | bookkeeping => exact Lowering.oblivious_manageLifetimes none operation annotate block

theorem Oblivious.during {α : Type} {step : Lowering α} (oblivious : Oblivious step)
    (operation stage : String) (completed : Nat) :
    Oblivious (step.during operation stage completed) := by
  intro context sources others
  have alike := oblivious.agree context sources others
  unfold Lowering.during
  generalize step { context, sources } = left, step { context, sources := others } = right
    at alike ⊢
  cases alike with
  | ok same holds => exact .ok same holds
  | error same => exact .error same

theorem Pipeline.oblivious_runFrom (annotate : Bool) (operation : String) (completed : Nat)
    (passes : List Pass) (block : Block) :
    Oblivious (runFrom annotate operation completed passes block) := by
  induction passes generalizing completed block with
  | nil => exact oblivious_pure block
  | cons pass passes ih =>
      apply ((pass.oblivious_apply annotate operation block).during operation _ completed).bind
      exact fun lowered => ih (completed + 1) lowered

namespace Schedule

variable (pipeline : List Pass) (annotate : Bool)

theorem oblivious_lowerOperation (operation : Operation) :
    Oblivious (lowerOperation pipeline annotate operation) := by
  apply (Pipeline.oblivious_runFrom annotate operation.name 0 pipeline operation.block).bind
  intro block
  exact ((Lowering.oblivious_renderBlock block).during _ _ _).bind fun _ => oblivious_pure _

/-- Make the program of lowered operations. -/
def assemble (operations : List LoweredOperation) : Scheduling Program := do
  let statics ← (Lowering.ask Context.staticDeclarations).during "" renderStage 0
  let definitions := (← get).context.definitions
  return { statics, definitions, operations }

/-- Lower the operations of a schedule that come after others. -/
def lowerAfter (earlier : List LoweredOperation) (operations : List Operation) :
    Scheduling Program := do
  let later ← operations.mapM (lowerOperation pipeline annotate)
  assemble (earlier ++ later)

theorem lower_eq (operations : List Operation) : lower pipeline annotate operations =
    operations.mapM (lowerOperation pipeline annotate) >>= assemble := rfl

/-- A schedule goes on with its later operations from where the earlier ones have led. -/
theorem lower_append {first second : List Operation} {earlier : List LoweredOperation}
    {workspace reached : Workspace}
    (lowering : first.mapM (lowerOperation pipeline annotate) workspace = .ok earlier reached) :
    lower pipeline annotate (first ++ second) workspace =
      lowerAfter pipeline annotate earlier second reached := by
  rw [lower_eq, List.mapM_append, bind_assoc, bind_of_ok lowering, bind_assoc]
  simp only [pure_bind]
  rfl

/-- Earlier operations go ahead of the later ones, and change nothing else. -/
theorem agree_assemble (context : Context) (earlier operations : List LoweredOperation) :
    Agree context (fun _ tail program =>
      program = { tail with operations := earlier ++ tail.operations })
      (assemble operations) (assemble (earlier ++ operations)) := by
  have declaring :=
    (Lowering.oblivious_ask Context.staticDeclarations).during "" renderStage 0
  apply (declaring.agree context).bind
  intro after statics others same
  cases same
  exact fun _ _ => .ok rfl rfl

theorem agree_lowerAfter (context : Context) (earlier : List LoweredOperation)
    (operations : List Operation) :
    Agree context (fun _ tail program =>
      program = { tail with operations := earlier ++ tail.operations })
      (lower pipeline annotate operations) (lowerAfter pipeline annotate earlier operations) := by
  have lowers := oblivious_mapM (oblivious_lowerOperation pipeline annotate) operations
  apply (lowers.agree context).bind
  intro after later others same
  rw [← same]
  exact agree_assemble after earlier later

variable {pipeline annotate}

/-- **A schedule in two parts.** If the first part can be lowered, the whole ends as the second part
does when it is lowered on its own, with nothing read yet, in the context that the first part
leaves behind: with the same failure, or with the same program but for the operations of the first
part, which go ahead. -/
theorem run_append {first : List Operation} {context middle : Context} {head : Program}
    (ran : run pipeline annotate first context = (.ok head, middle)) (second : List Operation) :
    (∃ failure final, run pipeline annotate second middle = (.error failure, final) ∧
      run pipeline annotate (first ++ second) context = (.error failure, final)) ∨
    ∃ tail final, run pipeline annotate second middle = (.ok tail, final) ∧
      run pipeline annotate (first ++ second) context =
        (.ok { tail with operations := head.operations ++ tail.operations }, final) := by
  obtain ⟨⟨reached, sources⟩, lowering, rfl⟩ := lowered_of_run ran
  have alike := agree_lowerAfter pipeline annotate reached head.operations second .empty sources
  rw [← lower_append pipeline annotate lowering] at alike
  unfold run
  generalize lower pipeline annotate second _ = left,
    lower pipeline annotate (first ++ second) _ = right at alike ⊢
  cases alike with
  | error same => exact .inl ⟨_, _, rfl, by rw [same]⟩
  | ok same holds => exact .inr ⟨_, _, rfl, by rw [same, holds]⟩

/-- A tensor that two operations pass on in turn. -/
def relayContext : Context where
  types := { kinds := [.float 32 23 8] }
  globals := ⟨[{ name := "x", type := ⟨0⟩, size := 64 }]⟩
  locals := ⟨[
    { name := "y", type := ⟨0⟩, size := 64, level := some "L1", users := ["store"] },
    { name := "z", type := ⟨0⟩, size := 64, level := some "L1" }]⟩

/-- Copy one tensor to another; every copy has the same template. -/
def relayOperation (name source target : String) : Operation :=
  ⟨name, .ofFragments [.ofSource "copy(${to}, ${from});"
    [("to", .name target), ("from", .name source)]]⟩

/-- The passes over the copies. -/
def relayPipeline : List Pass := [.structs none, .lifetimes {}]

/-- The second operation is lowered with templates that the first one has read. -/
theorem run_append_relay :
    ∃ head middle tail final,
      run relayPipeline true [relayOperation "load" "x" "y"] relayContext = (.ok head, middle) ∧
      run relayPipeline true [relayOperation "store" "y" "z"] middle = (.ok tail, final) ∧
      run relayPipeline true
          ([relayOperation "load" "x" "y"] ++ [relayOperation "store" "y" "z"]) relayContext =
        (.ok { tail with operations := head.operations ++ tail.operations }, final) := by
  obtain ⟨loads, succeeds⟩ :
      (run relayPipeline true [relayOperation "load" "x" "y"] relayContext).1.isOk = true ∧
      (run relayPipeline true
        ([relayOperation "load" "x" "y"] ++ [relayOperation "store" "y" "z"])
        relayContext).1.isOk = true := by
    decide +kernel
  obtain ⟨head, ran⟩ := exists_of_isOk loads
  obtain ⟨failure, final, -, failed⟩ | ⟨tail, final, later, whole⟩ :=
    run_append ran [relayOperation "store" "y" "z"]
  · rw [failed] at succeeds
    cases succeeds
  · exact ⟨head, _, tail, final, ran, later, whole⟩

end Schedule

end TensorLowering
