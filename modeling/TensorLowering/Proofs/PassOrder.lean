import Mathlib.Data.List.Basic
import TensorLowering.Pipeline

/-! # Warnings about the order of passes

A kind of pass is out of order if some occurrence of it comes before every occurrence of a kind that
has to run earlier. The scan over a pipeline finds exactly the pairs of such kinds
(`TensorLowering.PassKind.mem_violations_iff`). The sentence that is written for a pair names them
the other way round: it accuses the kind that has to run earlier
(`TensorLowering.Pipeline.warnings_exact`).
-/

namespace TensorLowering

namespace PassKind

/-- Some occurrence of a kind comes before every occurrence of another. -/
def Precedes (kinds : List PassKind) (early late : PassKind) : Prop :=
  ∃ place : Nat, kinds[place]? = some early ∧
    ∀ other : Nat, kinds[other]? = some late → place < other

/-- Two kinds of a pipeline are out of order: the first relies on the second, but some occurrence of
it comes before every occurrence of the second. -/
structure OutOfOrder (kinds : List PassKind) (offender required : PassKind) : Prop where
  relies : required ∈ offender.after
  occurs : required ∈ kinds
  early : Precedes kinds offender required

/-- The sentence that a kind runs too early. -/
def accusation (offender required : PassKind) : String :=
  offender.name ++ " runs before " ++ required.name ++ " but expects its output"

/-! ### The scan -/

/-- No two kinds have to run before each other; in particular, none has to run before itself. -/
theorem after_asymm {first second : PassKind} (relies : second ∈ first.after) :
    first ∉ second.after := by
  revert relies
  cases first <;> cases second <;> decide

theorem precedes_cons_iff {kind early late : PassKind} {kinds : List PassKind} :
    Precedes (kind :: kinds) early late ↔
      kind ≠ late ∧ (kind = early ∨ Precedes kinds early late) := by
  constructor
  · intro precedes
    obtain ⟨place, here, before⟩ := precedes
    have different : kind ≠ late := fun same => Nat.not_lt_zero place (before 0 (same ▸ rfl))
    refine ⟨different, ?_⟩
    cases place with
    | zero => exact .inl (Option.some.inj here)
    | succ place =>
        refine .inr ⟨place, here, fun other there => ?_⟩
        exact Nat.lt_of_succ_lt_succ (before (other + 1) there)
  · intro held
    obtain ⟨different, same | ⟨place, here, before⟩⟩ := held
    · refine ⟨0, same ▸ rfl, fun other there => ?_⟩
      cases other with
      | zero => exact absurd (Option.some.inj there) different
      | succ other => exact Nat.succ_pos other
    · refine ⟨place + 1, here, fun other there => ?_⟩
      cases other with
      | zero => exact absurd (Option.some.inj there) different
      | succ other => exact Nat.succ_lt_succ (before other there)

/-- The scan lists the pairs out of order whose second kind was not seen before. -/
theorem mem_violationsAfter_iff {seen kinds : List PassKind} {offender required : PassKind} :
    (offender, required) ∈ violationsAfter seen kinds ↔
      required ∉ seen ∧ OutOfOrder kinds offender required := by
  induction kinds generalizing seen with
  | nil =>
      refine iff_of_false List.not_mem_nil fun held => ?_
      exact List.not_mem_nil held.2.occurs
  | cons kind kinds ih =>
      have here : (offender, required) ∈ (kind.after.filter fun required =>
          !seen.contains required && kinds.contains required).map (kind, ·) ↔
          kind = offender ∧ required ∈ offender.after ∧ required ∉ seen ∧ required ∈ kinds := by
        simp only [List.mem_map, List.mem_filter, Prod.mk.injEq, Bool.and_eq_true,
          Bool.not_eq_true', List.contains_eq_mem, decide_eq_true_eq, decide_eq_false_iff_not]
        constructor
        · intro held
          obtain ⟨_, ⟨relies, unseen, later⟩, rfl, rfl⟩ := held
          exact ⟨rfl, relies, unseen, later⟩
        · intro held
          obtain ⟨rfl, relies, unseen, later⟩ := held
          exact ⟨required, ⟨relies, unseen, later⟩, rfl, rfl⟩
      rw [violationsAfter, List.mem_append, here, ih, List.mem_cons, not_or]
      constructor
      · intro held
        rcases held with ⟨rfl, relies, unseen, later⟩ | ⟨⟨different, unseen⟩, relies, later, early⟩
        · have different : kind ≠ required := by
            intro same
            subst same
            exact after_asymm relies relies
          exact ⟨unseen, relies, List.mem_cons_of_mem _ later,
            precedes_cons_iff.mpr ⟨different, .inl rfl⟩⟩
        · exact ⟨unseen, relies, List.mem_cons_of_mem _ later,
            precedes_cons_iff.mpr ⟨Ne.symm different, .inr early⟩⟩
      · intro held
        obtain ⟨unseen, relies, occurs, early⟩ := held
        obtain ⟨different, early⟩ := precedes_cons_iff.mp early
        have later : required ∈ kinds := (List.mem_cons.mp occurs).resolve_left (Ne.symm different)
        rcases early with rfl | early
        · exact .inl ⟨rfl, relies, unseen, later⟩
        · exact .inr ⟨⟨Ne.symm different, unseen⟩, relies, later, early⟩

theorem mem_violations_iff {kinds : List PassKind} {offender required : PassKind} :
    (offender, required) ∈ violations kinds ↔ OutOfOrder kinds offender required := by
  rw [violations, mem_violationsAfter_iff]
  exact and_iff_right List.not_mem_nil

/-! ### The sentence -/

theorem ofName?_name (kind : PassKind) : ofName? kind.name = some kind := by
  cases kind <;> rfl

theorem name_injective : Function.Injective name := by
  intro first second same
  have found := ofName?_name first
  rw [same, ofName?_name] at found
  exact (Option.some.inj found).symm

theorem name_unspaced (kind : PassKind) : ∀ char ∈ kind.name.toList, (char != ' ') = true := by
  rw [← List.all_eq_true]
  cases kind <;> rfl

/-- The first word of a sentence is the name of the first kind. -/
theorem takeWhile_accusation (offender required : PassKind) :
    (accusation offender required).toList.takeWhile (· != ' ') = offender.name.toList := by
  have split : (accusation offender required).toList =
      offender.name.toList ++ ' ' :: "runs before ".toList ++
        (required.name ++ " but expects its output").toList := by
    simp only [accusation, String.toList_append, List.append_assoc]
    rfl
  rw [split, List.append_assoc, List.takeWhile_append_of_pos (name_unspaced offender),
    List.cons_append, List.takeWhile_cons_of_neg (by decide), List.append_nil]

/-- A sentence tells which kinds it is about. -/
theorem accusation_inj {offender required other otherRequired : PassKind} :
    accusation offender required = accusation other otherRequired ↔
      offender = other ∧ required = otherRequired := by
  refine ⟨fun same => ?_, fun ⟨first, second⟩ => by rw [first, second]⟩
  have words := congrArg (fun text => text.toList.takeWhile (· != ' ')) same
  simp only [takeWhile_accusation, String.toList_inj] at words
  obtain rfl := name_injective words
  refine ⟨rfl, name_injective ?_⟩
  simpa only [accusation, String.append_left_inj, String.append_right_inj] using same

/-- The wording of a violation accuses the kind that has to run earlier. -/
theorem warning_eq_accusation (violation : PassKind × PassKind) :
    warning violation = accusation violation.2 violation.1 := rfl

end PassKind

namespace Pipeline

open PassKind

/-- **What the warnings say.** Every warning is a sentence that one kind runs too early for another.
It is logged exactly if, with the roles exchanged, the second kind is out of order with the first.
So the sentences accuse exactly the kinds that are out of order only if no kinds are. -/
theorem warnings_exact (pipeline : List Pass) :
    (∀ text ∈ warnings pipeline, ∃ first second, text = accusation first second) ∧
    (∀ first second, accusation first second ∈ warnings pipeline ↔
      OutOfOrder (pipeline.map Pass.kind) second first) ∧
    ((∀ offender required, accusation offender required ∈ warnings pipeline ↔
        OutOfOrder (pipeline.map Pass.kind) offender required) ↔
      ∀ offender required, ¬OutOfOrder (pipeline.map Pass.kind) offender required) := by
  have logged : ∀ first second, accusation first second ∈ warnings pipeline ↔
      OutOfOrder (pipeline.map Pass.kind) second first := by
    intro first second
    simp only [warnings, List.mem_map, Prod.exists, warning_eq_accusation, accusation_inj,
      mem_violations_iff]
    exact ⟨fun ⟨_, _, outOfOrder, same, other⟩ => other ▸ same ▸ outOfOrder,
      fun outOfOrder => ⟨second, first, outOfOrder, rfl, rfl⟩⟩
  refine ⟨fun text member => ?_, logged, fun named offender required outOfOrder => ?_, ?_⟩
  · obtain ⟨violation, -, rfl⟩ := List.mem_map.mp member
    exact ⟨violation.2, violation.1, warning_eq_accusation violation⟩
  · -- The sentence about this pair would accuse both kinds of relying on each other.
    have accused := (logged offender required).mp ((named offender required).mpr outOfOrder)
    exact after_asymm outOfOrder.relies accused.relies
  · intro inOrder offender required
    rw [logged]
    exact iff_of_false (inOrder required offender) (inOrder offender required)

/-- Lifetimes are managed between two runs of the pass that makes tile views, and once before. -/
def earlyLifetimes : List Pass :=
  [.lifetimes {}, .tileViews "L1", .lifetimes {}, .tileViews "L2"]

theorem earlyLifetimes_outOfOrder :
    OutOfOrder (earlyLifetimes.map Pass.kind) .lifetimes .tileViews where
  relies := by decide
  occurs := by decide
  early := precedes_cons_iff.mpr ⟨by decide, .inl rfl⟩

/-- A warning is logged that accuses the tile views, and none that accuses the lifetimes. -/
theorem warnings_exact_earlyLifetimes :
    OutOfOrder (earlyLifetimes.map Pass.kind) .lifetimes .tileViews ∧
    accusation .tileViews .lifetimes ∈ warnings earlyLifetimes ∧
    accusation .lifetimes .tileViews ∉ warnings earlyLifetimes ∧
    ¬ ∀ offender required, accusation offender required ∈ warnings earlyLifetimes ↔
      OutOfOrder (earlyLifetimes.map Pass.kind) offender required := by
  obtain ⟨-, logged, named⟩ := warnings_exact earlyLifetimes
  refine ⟨earlyLifetimes_outOfOrder, (logged _ _).mpr earlyLifetimes_outOfOrder, ?_, ?_⟩
  · intro accused
    exact List.not_mem_nil ((logged _ _).mp accused).relies
  · intro same
    exact named.mp same _ _ earlyLifetimes_outOfOrder

/-- The only warning says that the tile views run before the lifetimes and expect their output, but
tile views rely on nothing. No warning says that the lifetimes run too early, as they do. -/
theorem earlyLifetimes_misnamed :
    warnings earlyLifetimes = ["tiling_variable_replacement runs before memory_management" ++
      " but expects its output"] ∧
    accusation .tileViews .lifetimes ∈ warnings earlyLifetimes ∧
    ¬OutOfOrder (earlyLifetimes.map Pass.kind) .tileViews .lifetimes ∧
    OutOfOrder (earlyLifetimes.map Pass.kind) .lifetimes .tileViews ∧
    accusation .lifetimes .tileViews ∉ warnings earlyLifetimes := by
  have only : warnings earlyLifetimes = [accusation .tileViews .lifetimes] := rfl
  refine ⟨rfl, ?_, ?_, earlyLifetimes_outOfOrder, ?_⟩
  · rw [only]
    exact List.mem_singleton_self _
  · intro outOfOrder
    exact List.not_mem_nil outOfOrder.relies
  · rw [only, List.mem_singleton, accusation_inj]
    decide

end Pipeline

end TensorLowering
