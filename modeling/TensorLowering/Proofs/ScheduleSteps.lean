import TensorLowering.Proofs.LoweringSteps
import TensorLowering.Schedule

/-! # Successful schedules

A schedule that is lowered is taken apart into its operations, and an operation into its
passes.
-/

namespace TensorLowering

namespace Pipeline

variable {annotate : Bool} {operation : String}

theorem runFrom_cons_eq_ok {pass : Pass} {passes : List Pass} {completed : Nat}
    {block lowered : Block} {workspace final : Workspace}
    (ran : runFrom annotate operation completed (pass :: passes) block workspace =
      .ok lowered final) :
    ∃ passed middle, pass.apply annotate operation block workspace = .ok passed middle ∧
      runFrom annotate operation (completed + 1) passes passed middle = .ok lowered final := by
  obtain ⟨passed, middle, applying, later⟩ := bind_eq_ok ran
  exact ⟨passed, middle, Lowering.during_eq_ok applying, later⟩

/-- The last pass of a pipeline gives its result. -/
theorem runFrom_singleton_eq_ok {pass : Pass} {completed : Nat} {block lowered : Block}
    {workspace final : Workspace}
    (ran : runFrom annotate operation completed [pass] block workspace = .ok lowered final) :
    pass.apply annotate operation block workspace = .ok lowered final := by
  obtain ⟨passed, middle, applying, later⟩ := runFrom_cons_eq_ok ran
  obtain ⟨rfl, rfl⟩ := pure_eq_ok later
  exact applying

end Pipeline

namespace Schedule

variable {pipeline : List Pass} {annotate : Bool}

/-- An operation is lowered by the passes, and then written. -/
theorem lowerOperation_eq_ok {operation : Operation} {lowered : LoweredOperation}
    {workspace final : Workspace}
    (ran : lowerOperation pipeline annotate operation workspace = .ok lowered final) :
    ∃ middle, Pipeline.run pipeline annotate operation.name operation.block workspace =
        .ok lowered.block middle ∧
      Lowering.renderBlock lowered.block middle = .ok lowered.code final ∧
      lowered.name = operation.name := by
  obtain ⟨block, middle, passes, rest⟩ := bind_eq_ok ran
  obtain ⟨text, last, rendering, rest⟩ := bind_eq_ok rest
  obtain ⟨rfl, rfl⟩ := pure_eq_ok rest
  exact ⟨middle, passes, Lowering.during_eq_ok rendering, rfl⟩

theorem exists_of_isOk {operations : List Operation} {context : Context}
    (succeeds : (run pipeline annotate operations context).1.isOk = true) :
    ∃ program, run pipeline annotate operations context =
      (.ok program, (run pipeline annotate operations context).2) := by
  cases outcome : run pipeline annotate operations context with
  | mk result final =>
      rw [outcome] at succeeds
      cases result with
      | ok program => exact ⟨program, rfl⟩
      | error failure => cases succeeds

/-- A schedule that is lowered has lowered its operations one after the other, and has then declared
its static storage. -/
theorem stages_of_run {operations : List Operation} {context final : Context} {program : Program}
    (ran : run pipeline annotate operations context = (.ok program, final)) :
    ∃ workspace, operations.mapM (lowerOperation pipeline annotate) { context } =
      .ok program.operations workspace ∧ workspace.context = final ∧
      final.staticDeclarations = .ok program.statics := by
  unfold run at ran
  cases outcome : lower pipeline annotate operations { context } with
  | error failure workspace => rw [outcome] at ran; cases ran
  | ok answer workspace =>
      rw [outcome] at ran
      cases ran
      obtain ⟨lowered, middle, lowering, afterLowering⟩ := bind_eq_ok outcome
      obtain ⟨statics, last, declaring, afterStatics⟩ := bind_eq_ok afterLowering
      obtain ⟨declared, rfl⟩ := Lowering.ask_eq_ok (Lowering.during_eq_ok declaring)
      obtain ⟨seen, same, fetched, answered⟩ := bind_eq_ok afterStatics
      cases fetched
      obtain ⟨rfl, rfl⟩ := pure_eq_ok answered
      exact ⟨last, lowering, rfl, declared⟩

theorem lowered_of_run {operations : List Operation} {context final : Context} {program : Program}
    (ran : run pipeline annotate operations context = (.ok program, final)) :
    ∃ workspace, operations.mapM (lowerOperation pipeline annotate) { context } =
      .ok program.operations workspace ∧ workspace.context = final := by
  obtain ⟨workspace, lowering, same, -⟩ := stages_of_run ran
  exact ⟨workspace, lowering, same⟩

end Schedule

end TensorLowering
