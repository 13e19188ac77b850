import TensorLowering.Proofs.TilingPeak

/-! # What tiled kernels occupy

While a schedule is tiled and its lifetimes are managed, each operation leaves a record with the
contexts at its start, while its kernel runs, and at its end
(`TensorLowering.Schedule.kernelHistory`). The peak after a tiled operation covers the extent of
its arena together with all that is live while its kernel runs only in three cases
(`TensorLowering.Schedule.peak_covers_kernel_iff`), because the extent is given back before the
operation allocates.
-/

namespace TensorLowering

/-- The contexts of an operation: at its start, between its allocations and its frees, and at
its end. -/
structure KernelRecord where
  operation : Operation
  block : Block
  start : Context
  kernel : Context
  finish : Context
  deriving DecidableEq, Inhabited

namespace KernelRecord

/-- The bytes of a level that are live while the kernel runs. -/
def occupied (record : KernelRecord) (level : String) : Nat :=
  Buffer.bytesAt record.kernel.buffers level Buffer.live

/-- The peak of a level after a tiled operation is the highest of the peak before it, of what was
in use at its start with the extent, and of what is in use while its kernel runs, if no counter has
wrapped around by then. -/
def Peaks (record : KernelRecord) (level : String) : Prop :=
  ∀ tiling, record.operation.block.tiling? = some tiling →
    ∃ extent, tiling.constraint.arenaExtent? level = some extent ∧
      (record.finish.overflowed = false →
        record.finish.peak level = max (record.start.peak level)
          (max (record.start.inUse level + extent) (record.kernel.inUse level)))

end KernelRecord

namespace Schedule

/-- The passes that tile operations and manage lifetimes after that. -/
def tilingPipeline (level : String) (options : TileLoopOptions) (templates : LifetimeTemplates) :
    List Pass :=
  [.tileViews level, .tileUpdates, .tileLoop options, .lifetimes templates]

/-- Lower an operation by these passes, and keep a record. -/
def recordKernel (level : String) (options : TileLoopOptions) (templates : LifetimeTemplates)
    (annotate : Bool) (operation : Operation) : Lowering KernelRecord := do
  let start := (← get).context
  let tiled ← Lowering.makeTileViews level operation.block operation.name
  let looped := tiled.updateTiles.loopOverTiles options
  let opened ← Lowering.beginLifetimes (some templates) looped operation.name
  let kernel := (← get).context
  let closing ← Lowering.endLifetimes (some templates) annotate operation.name opened
  let finish := (← get).context
  let block := (looped.prepend opened.code).append closing
  let _ ← Lowering.renderBlock block
  return { operation, block, start, kernel, finish }

/-- The records of a schedule; none if an operation cannot be lowered. -/
def kernelHistory (level : String) (options : TileLoopOptions) (templates : LifetimeTemplates)
    (annotate : Bool) (operations : List Operation) (context : Context) : List KernelRecord :=
  match operations.mapM (recordKernel level options templates annotate) { context } with
  | .ok records _ => records
  | .error _ _ => []

/-- Each record starts where the one before it has finished. -/
inductive KernelsFollow : Context → List KernelRecord → Context → Prop
  | nil (context : Context) : KernelsFollow context [] context
  | cons {record : KernelRecord} {records : List KernelRecord} {final : Context}
      (later : KernelsFollow record.finish records final) :
      KernelsFollow record.start (record :: records) final

variable {level : String} {options : TileLoopOptions} {templates : LifetimeTemplates}
  {annotate : Bool}

/-- Lowering an operation can be replayed with a record. -/
theorem recordKernel_of_lowerOperation {operation : Operation} {lowered : LoweredOperation}
    {workspace final : Workspace}
    (ran : lowerOperation (tilingPipeline level options templates) annotate operation workspace =
      .ok lowered final) :
    ∃ record, recordKernel level options templates annotate operation workspace =
        .ok record final ∧
      record.operation = operation ∧ record.block = lowered.block ∧
      record.start = workspace.context ∧ record.finish = final.context ∧ record.Peaks level := by
  obtain ⟨managed, passes, rendered, -⟩ := lowerOperation_eq_ok ran
  obtain ⟨tiled, tiledEnd, tiling, afterTiling⟩ := Pipeline.runFrom_cons_eq_ok passes
  obtain ⟨updated, updatedEnd, updating, afterUpdates⟩ := Pipeline.runFrom_cons_eq_ok afterTiling
  obtain ⟨rfl, rfl⟩ := pure_eq_ok updating
  obtain ⟨looped, loopedEnd, looping, afterLoop⟩ := Pipeline.runFrom_cons_eq_ok afterUpdates
  obtain ⟨rfl, rfl⟩ := pure_eq_ok looping
  obtain ⟨opened, kernel, beginning, afterOpening⟩ :=
    bind_eq_ok (Pipeline.runFrom_singleton_eq_ok afterLoop)
  obtain ⟨closing, closed, ending, afterClosing⟩ := bind_eq_ok afterOpening
  obtain ⟨blockSame, rfl⟩ := pure_eq_ok afterClosing
  rw [Pass.apply] at tiling
  have finishSame := Lowering.renderBlock_eq_ok rendered
  refine ⟨⟨operation, lowered.block, workspace.context, kernel.context, closed.context⟩, ?_, rfl,
    rfl, rfl, finishSame.symm, ?_⟩
  · have fetched : ∀ workspace : Workspace,
        (get : Lowering Workspace) workspace = .ok workspace workspace := fun _ => rfl
    unfold recordKernel
    rw [bind_of_ok (fetched _), bind_of_ok tiling, bind_of_ok beginning, bind_of_ok (fetched _),
      bind_of_ok ending, bind_of_ok (fetched _)]
    rw [← blockSame] at rendered ⊢
    exact bind_of_ok rendered _
  · intro tilingOf annotated
    obtain ⟨extent, extentIs, occupied⟩ := Lowering.makeTileViews_eq_ok annotated tiling
    refine ⟨extent, extentIs, fun exact => ?_⟩
    have opening := Lowering.beginLifetimes_eq_ok beginning
    obtain ⟨peaksSame, flagSame⟩ := Prod.mk.inj ((Lowering.endLifetimes_keeps _ _ _ _).eq ending)
    have exactKernel : kernel.context.overflowed = false := flagSame.symm.trans exact
    obtain ⟨useSame, peakLifted⟩ := occupied (opening.allocates.exact_start exactKernel)
    -- The counters at the start are arbitrary, but the extent came on top of what is in use.
    have within : tiledEnd.context.inUse level ≤ tiledEnd.context.peak level := by
      rw [useSame, peakLifted]
      omega
    have finishPeak : closed.context.peak level = kernel.context.peak level := by
      rw [Context.peak, peaksSame, Context.peak]
    rw [finishPeak, opening.allocates.peak_eq exactKernel within, peakLifted, Nat.max_assoc]

/-- The lowered operations of a schedule can be replayed with records. -/
theorem kernelsFollow_of_mapM {operations : List Operation} {lowered : List LoweredOperation}
    {workspace final : Workspace}
    (ran : operations.mapM (lowerOperation (tilingPipeline level options templates) annotate)
      workspace = .ok lowered final) :
    ∃ records, operations.mapM (recordKernel level options templates annotate) workspace =
        .ok records final ∧
      KernelsFollow workspace.context records final.context ∧
      records.map KernelRecord.operation = operations ∧
      records.map KernelRecord.block = lowered.map LoweredOperation.block ∧
      ∀ record ∈ records, record.Peaks level := by
  induction operations generalizing workspace lowered with
  | nil =>
      obtain ⟨rfl, rfl⟩ := pure_eq_ok ran
      exact ⟨[], rfl, .nil _, rfl, rfl, List.forall_mem_nil _⟩
  | cons operation operations ih =>
      obtain ⟨first, later, between, lowering, laterRan, rfl⟩ := mapM_cons_eq_ok ran
      obtain ⟨record, recording, rfl, blockSame, startSame, finishSame, peaks⟩ :=
        recordKernel_of_lowerOperation lowering
      obtain ⟨records, replayed, follow, operationsSame, blocksSame, laterPeaks⟩ := ih laterRan
      refine ⟨record :: records, ?_, ?_, ?_, ?_, List.forall_mem_cons.mpr ⟨peaks, laterPeaks⟩⟩
      · rw [List.mapM_cons, bind_of_ok recording, bind_of_ok replayed]
        rfl
      · rw [← startSame]
        rw [← finishSame] at follow
        exact .cons follow
      · rw [List.map_cons, operationsSame]
      · rw [List.map_cons, List.map_cons, blockSame, blocksSame]

/-- **What the peak covers.** As long as no counter has wrapped around, the peak after a tiled
operation is the highest of the peak before it, of what was in use at its start with the extent of
its arena, and of what is in use while its kernel runs. So it covers the extent together with all
that is live while the kernel runs exactly if an earlier peak covers them, or no more is live then
than was in use at the start, or what is in use then without being live makes up for the extent. -/
theorem peak_covers_kernel_iff {operations : List Operation} {context final : Context}
    {program : Program}
    (ran : run (tilingPipeline level options templates) annotate operations context =
      (.ok program, final)) :
    let records := kernelHistory level options templates annotate operations context
    KernelsFollow context records final ∧
    records.map KernelRecord.operation = operations ∧
    records.map KernelRecord.block = program.operations.map LoweredOperation.block ∧
    ∀ record ∈ records, ∀ tiling, record.operation.block.tiling? = some tiling →
      ∃ extent, tiling.constraint.arenaExtent? level = some extent ∧
        (record.finish.overflowed = false →
          record.finish.peak level = max (record.start.peak level)
            (max (record.start.inUse level + extent) (record.kernel.inUse level)) ∧
          (extent + record.occupied level ≤ record.finish.peak level ↔
            extent + record.occupied level ≤ record.start.peak level ∨
            record.occupied level ≤ record.start.inUse level ∨
            extent + record.occupied level ≤ record.kernel.inUse level)) := by
  obtain ⟨workspace, lowering, rfl⟩ := lowered_of_run ran
  obtain ⟨records, replayed, follow, operationsSame, blocksSame, peaks⟩ :=
    kernelsFollow_of_mapM lowering
  have historyEq : kernelHistory level options templates annotate operations context =
      records := by
    rw [kernelHistory, replayed]
  intro history
  rw [show history = records from historyEq]
  refine ⟨follow, operationsSame, blocksSame, ?_⟩
  intro record member tiling annotated
  obtain ⟨extent, extentIs, peakEq⟩ := peaks record member tiling annotated
  refine ⟨extent, extentIs, fun exact => ⟨peakEq exact, ?_⟩⟩
  rw [peakEq exact]
  omega

/-- A tensor that is tiled in two halves of 128 bytes. -/
def halvedTiling : Tiling where
  constraint := ⟨.ofList [("x", .ofList [("L1", ⟨0, 128⟩)])]⟩
  schedules := [{ inputs := .ofList [("in", [0, 128])] }]

/-- A tensor of another level, and a result of 64 bytes in the tiled level. -/
def halvedContext : Context where
  types := { kinds := [.float 32 23 8] }
  globals := ⟨[{ name := "x", type := ⟨0⟩, size := 256 }]⟩
  locals := ⟨[{ name := "y", type := ⟨0⟩, size := 64, level := some "L1", users := ["sink"] }]⟩

/-- One operation on the halves of the tensor, which makes the result. -/
def halvedSchedule : List Operation :=
  [⟨"scale", .ofFragments [{ Fragment.ofSource "scale(${in}, ${out});"
    [("in", .name "x"), ("out", .name "y")] with tiling := some halvedTiling }]⟩]

theorem run_halvedSchedule :
    (run (tilingPipeline "L1" {} {}) false halvedSchedule halvedContext).1.isOk = true ∧
    (kernelHistory "L1" {} {} false halvedSchedule halvedContext).length = 1 ∧
    ∀ record ∈ kernelHistory "L1" {} {} false halvedSchedule halvedContext,
      record.operation.block.tiling? = some halvedTiling ∧ record.finish.overflowed = false ∧
      record.start.peak "L1" = 0 ∧ record.start.inUse "L1" = 0 ∧ record.kernel.inUse "L1" = 64 ∧
      record.occupied "L1" = 64 ∧ record.finish.peak "L1" = 128 := by
  decide +kernel

theorem peak_covers_kernel_iff_halvedSchedule :
    ∃ program final,
      run (tilingPipeline "L1" {} {}) false halvedSchedule halvedContext = (.ok program, final) ∧
      ∃ record, kernelHistory "L1" {} {} false halvedSchedule halvedContext = [record] ∧
        record.finish.peak "L1" = 128 ∧ record.occupied "L1" = 64 ∧
        ¬ 128 + record.occupied "L1" ≤ record.finish.peak "L1" := by
  obtain ⟨succeeds, single, measured⟩ := run_halvedSchedule
  obtain ⟨program, ran⟩ := exists_of_isOk succeeds
  obtain ⟨-, -, -, covers⟩ := peak_covers_kernel_iff ran
  generalize kernelHistory "L1" {} {} false halvedSchedule halvedContext = records at *
  obtain ⟨record, rfl⟩ := List.length_eq_one_iff.mp single
  have member : record ∈ [record] := List.mem_singleton_self record
  obtain ⟨tiled, exact, peak, inUse, kernel, occupied, -⟩ := measured record member
  obtain ⟨extent, extentIs, law⟩ := covers record member _ tiled
  obtain rfl : 128 = extent := Option.some.inj extentIs
  obtain ⟨peakIs, covered⟩ := law exact
  rw [peak, inUse, kernel] at peakIs
  rw [peak, inUse, kernel, occupied] at covered
  refine ⟨program, _, ran, record, rfl, peakIs, occupied, ?_⟩
  rw [occupied, covered]
  decide

/-- The peak after the operation is 128 bytes, but 64 bytes are live next to the extent of 128 bytes
while its kernel runs. -/
theorem halvedSchedule_uncovered :
    (run (tilingPipeline "L1" {} {}) false halvedSchedule halvedContext).1.isOk = true ∧
    ∃ record ∈ kernelHistory "L1" {} {} false halvedSchedule halvedContext,
      record.operation.block.tiling? = some halvedTiling ∧
      halvedTiling.constraint.arenaExtent? "L1" = some 128 ∧
      record.finish.peak "L1" < 128 + record.occupied "L1" := by
  obtain ⟨succeeds, single, measured⟩ := run_halvedSchedule
  refine ⟨succeeds, ?_⟩
  obtain ⟨record, records⟩ := List.length_eq_one_iff.mp single
  have member : record ∈ kernelHistory "L1" {} {} false halvedSchedule halvedContext :=
    records ▸ List.mem_singleton_self record
  obtain ⟨tiled, -, -, -, -, occupied, peak⟩ := measured record member
  refine ⟨record, member, tiled, rfl, ?_⟩
  rw [peak, occupied]
  decide

end Schedule

end TensorLowering
