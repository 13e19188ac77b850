import TensorLowering.Proofs.LifetimePhases
import TensorLowering.Proofs.ScheduleSteps

/-! # The history of a schedule

While a schedule is lowered with lifetimes, each operation leaves a record: the contexts
before and after it, what it opened, and the code that closes it. The records of a successful
run (`TensorLowering.Schedule.history`) follow one another, and their blocks are those of the
program (`TensorLowering.Schedule.recorded_of_run`).
-/

namespace TensorLowering

/-- What an operation did to lifetimes. -/
structure OperationRecord where
  operation : Operation
  start : Context
  opened : OpenLifetimes
  closing : List Fragment
  finish : Context
  deriving DecidableEq, Inhabited

/-- The block of the operation between the code that opens and the code that closes
lifetimes. -/
def OperationRecord.block (record : OperationRecord) : Block :=
  (record.operation.block.prepend record.opened.code).append record.closing

namespace Schedule

/-- Lower an operation, and keep a record of its lifetimes. -/
def record (templates : LifetimeTemplates) (annotate : Bool) (operation : Operation) :
    Lowering OperationRecord := do
  let start := (← get).context
  let opened ← Lowering.beginLifetimes (some templates) operation.block operation.name
  let closing ← Lowering.endLifetimes (some templates) annotate operation.name opened
  let finish := (← get).context
  let record : OperationRecord := { operation, start, opened, closing, finish }
  let _ ← Lowering.renderBlock record.block
  return record

/-- The records of a schedule; none if an operation cannot be lowered. -/
def history (templates : LifetimeTemplates) (annotate : Bool) (operations : List Operation)
    (context : Context) : List OperationRecord :=
  match operations.mapM (record templates annotate) { context } with
  | .ok records _ => records
  | .error _ _ => []

/-- Each record starts where the one before it has finished, and tells the two phases of its
operation. -/
inductive Recorded (templates : LifetimeTemplates) :
    Context → List OperationRecord → Context → Prop
  | nil (context : Context) : Recorded templates context [] context
  | cons {record : OperationRecord} {records : List OperationRecord} {middle final : Context}
      {owners : List String}
      (opening : Opening templates record.operation.block record.operation.name record.start
        record.opened middle)
      (closing : Closing templates middle record.opened.freed owners record.closing record.finish)
      (later : Recorded templates record.finish records final) :
      Recorded templates record.start (record :: records) final

variable {templates : LifetimeTemplates} {annotate : Bool}

/-- What every allocation and every freeing of a live buffer keeps, a schedule keeps. -/
theorem Recorded.preserves {context final : Context} {records : List OperationRecord}
    (recorded : Recorded templates context records final) {property : Context → Prop}
    (allocated : ∀ {context name buffer after}, Context.Allocation context name buffer after →
      property context → property after)
    (freed : ∀ {context name buffer released after}, context.find? name = some buffer →
      buffer.live = true → Context.Deallocation context name buffer released after →
        property context → property after) (before : property context) : property final := by
  induction recorded with
  | nil => exact before
  | cons opening closing _ ih =>
      have middle := opening.allocates.preserves allocated before
      exact ih (closing.frees.preserves freed middle)

/-- Lowering an operation can be replayed with a record. -/
theorem record_of_lowerOperation {operation : Operation} {lowered : LoweredOperation}
    {workspace final : Workspace} (sound : workspace.context.Sound)
    (ran : lowerOperation [.lifetimes templates] annotate operation workspace =
      .ok lowered final) :
    ∃ recorded middle owners, record templates annotate operation workspace = .ok recorded final ∧
      recorded.operation = operation ∧ recorded.block = lowered.block ∧
      recorded.start = workspace.context ∧ recorded.finish = final.context ∧
      Opening templates operation.block operation.name workspace.context recorded.opened middle ∧
      Closing templates middle recorded.opened.freed owners recorded.closing final.context := by
  obtain ⟨managed, managing, rendered, -⟩ := lowerOperation_eq_ok ran
  obtain ⟨opened, middle, beginning, rest⟩ :=
    bind_eq_ok (Pipeline.runFrom_singleton_eq_ok managing)
  obtain ⟨closing, third, ending, rest⟩ := bind_eq_ok rest
  obtain ⟨blockSame, rfl⟩ := pure_eq_ok rest
  have opening := Lowering.beginLifetimes_eq_ok beginning
  obtain ⟨owners, closed⟩ :=
    Lowering.endLifetimes_eq_ok (opening.allocates.sound sound) ending
  have finishSame := Lowering.renderBlock_eq_ok rendered
  refine ⟨{ operation, start := workspace.context, opened, closing, finish := third.context },
    middle.context, owners, ?_, rfl, blockSame, rfl, finishSame.symm, opening,
    finishSame ▸ closed⟩
  have fetched : ∀ workspace : Workspace,
      (get : Lowering Workspace) workspace = .ok workspace workspace := fun _ => rfl
  unfold record
  rw [bind_of_ok (fetched _), bind_of_ok beginning, bind_of_ok ending, bind_of_ok (fetched _)]
  rw [← blockSame] at rendered
  exact bind_of_ok rendered _

/-- The lowered operations of a schedule can be replayed with records. -/
theorem recorded_of_mapM {operations : List Operation} {lowered : List LoweredOperation}
    {workspace final : Workspace} (sound : workspace.context.Sound)
    (ran : operations.mapM (lowerOperation [.lifetimes templates] annotate) workspace =
      .ok lowered final) :
    ∃ records, operations.mapM (record templates annotate) workspace = .ok records final ∧
      Recorded templates workspace.context records final.context ∧
      records.map OperationRecord.operation = operations ∧
      records.map OperationRecord.block = lowered.map LoweredOperation.block := by
  induction operations generalizing workspace lowered with
  | nil =>
      obtain ⟨rfl, rfl⟩ := pure_eq_ok ran
      exact ⟨[], rfl, .nil _, rfl, rfl⟩
  | cons operation operations ih =>
      obtain ⟨first, later, between, lowering, laterRan, rfl⟩ := mapM_cons_eq_ok ran
      obtain ⟨recorded, middle, owners, recording, rfl, blockSame, startSame, finishSame, opening,
        closing⟩ := record_of_lowerOperation sound lowering
      have soundBetween := closing.frees.sound (opening.allocates.sound sound)
      obtain ⟨records, replayed, followed, operationsSame, blocksSame⟩ := ih soundBetween laterRan
      refine ⟨recorded :: records, ?_, ?_, ?_, ?_⟩
      · rw [List.mapM_cons, bind_of_ok recording, bind_of_ok replayed]
        rfl
      · -- The record names the contexts that the two workspaces hold.
        rw [← startSame, ← finishSame] at *
        exact .cons opening closing followed
      · rw [List.map_cons, operationsSame]
      · rw [List.map_cons, List.map_cons, blockSame, blocksSame]

/-- **A run with lifetimes leaves its history.** -/
theorem recorded_of_run {operations : List Operation} {context final : Context}
    {program : Program} (sound : context.Sound)
    (ran : run [.lifetimes templates] annotate operations context = (.ok program, final)) :
    Recorded templates context (history templates annotate operations context) final ∧
      (history templates annotate operations context).map OperationRecord.operation = operations ∧
      (history templates annotate operations context).map OperationRecord.block =
        program.operations.map LoweredOperation.block := by
  obtain ⟨workspace, lowering, rfl⟩ := lowered_of_run ran
  have start : Workspace.context { context } = context := rfl
  obtain ⟨records, replayed, followed, operationsSame, blocksSame⟩ :=
    recorded_of_mapM (start ▸ sound) lowering
  have historyEq : history templates annotate operations context = records := by
    rw [history, replayed]
  rw [historyEq]
  exact ⟨followed, operationsSame, blocksSame⟩

end Schedule

end TensorLowering
