import TensorLowering.Proofs.Identifiers
import TensorLowering.Proofs.Invariants
import TensorLowering.Proofs.Ledger

/-! # Identifiers along a history

A history gives identifiers to logical names while buffers are added, removed, allocated and freed
and code is hoisted. Only giving an identifier changes which identifiers are given, and what it
gives was given to no other name. So in every history a logical name keeps its identifier, and two
logical names never share one (`TensorLowering.Naming.identifiers_stable_distinct_fresh`).
-/

namespace TensorLowering

namespace Context

/-! ### What leaves identifiers alone -/

/-- The prefix of identifiers, and the identifiers given so far. -/
def naming (context : Context) : String × Dict String := (context.namePrefix, context.mangled)

theorem naming_modify (context : Context) (name : String) (change : Buffer → Buffer) :
    (context.modify name change).naming = context.naming := by
  unfold modify
  split <;> rfl

theorem naming_push (context : Context) (buffer : Buffer) (scope : Scope) :
    (context.push buffer scope).naming = context.naming := by
  cases scope <;> rfl

theorem naming_drop (context : Context) (name : String) :
    (context.drop name).naming = context.naming := by
  unfold drop
  split <;> rfl

theorem naming_of_atRest_eq {first second : Context} (same : first.atRest = second.atRest) :
    first.naming = second.naming := by
  have atRest : first.atRest.naming = second.atRest.naming := by rw [same]
  exact atRest

theorem naming_add {context after : Context} {buffer : Buffer} {scope : Scope}
    (added : context.add buffer scope = .ok after) : after.naming = context.naming := by
  rcases add_cases added with ⟨-, rfl⟩ | ⟨target, -, -, rfl⟩
  · exact context.naming_push buffer scope
  · rw [naming_push, naming_modify]

theorem naming_remove {context after : Context} {name : String} {buffer : Buffer}
    (removed : context.remove name = .ok (buffer, after)) : after.naming = context.naming := by
  obtain ⟨-, rfl | ⟨target, rfl⟩⟩ := remove_cases removed
  · exact context.naming_drop name
  · rw [naming_modify, naming_drop]

theorem naming_hoist {context after : Context} {name code : String} {isNew : Bool}
    (hoisted : context.hoist name code = .ok (isNew, after)) : after.naming = context.naming := by
  unfold hoist at hoisted
  split at hoisted
  · split at hoisted
    · cases hoisted
      rfl
    · cases hoisted
  · cases hoisted
    rfl

theorem namePrefix_mangle (context : Context) (name : String) :
    (context.mangle name).2.namePrefix = context.namePrefix := by
  unfold mangle
  split <;> rfl

/-! ### Identifiers that are apart -/

/-- No two logical names have the same identifier. -/
def IdentifiersApart (context : Context) : Prop :=
  ∀ first second identifier, context.mangled.find? first = some identifier →
    context.mangled.find? second = some identifier → first = second

/-- A new identifier is apart from those given before. -/
theorem IdentifiersApart.mangle {context : Context} (apart : context.IdentifiersApart)
    (name : String) : (context.mangle name).2.IdentifiersApart := by
  cases given : context.mangled.find? name with
  | some identifier =>
      rw [mangle_of_given given]
      exact apart
  | none =>
      rw [mangle_of_new given]
      intro first second identifier firstGiven secondGiven
      rw [Dict.find?_insert] at firstGiven secondGiven
      by_cases isFirst : name = first
      · by_cases isSecond : name = second
        · exact isFirst.symm.trans isSecond
        · rw [if_pos isFirst] at firstGiven
          rw [if_neg isSecond] at secondGiven
          cases firstGiven
          exact absurd rfl (ne_freshIdentifier_of_given secondGiven name)
      · rw [if_neg isFirst] at firstGiven
        by_cases isSecond : name = second
        · rw [if_pos isSecond] at secondGiven
          cases secondGiven
          exact absurd rfl (ne_freshIdentifier_of_given firstGiven name)
        · rw [if_neg isSecond] at secondGiven
          exact apart first second identifier firstGiven secondGiven

theorem given_mangle_of_given {context : Context} {name identifier : String}
    (given : context.mangled.find? name = some identifier) (other : String) :
    (context.mangle other).2.mangled.find? name = some identifier := by
  cases otherGiven : context.mangled.find? other with
  | some _ =>
      rw [mangle_of_given otherGiven]
      exact given
  | none =>
      have different : other ≠ name := by
        rintro rfl
        exact Option.some_ne_none _ (given.symm.trans otherGiven)
      rw [mangle_of_new otherGiven, Dict.find?_insert_of_ne _ _ different]
      exact given

end Context

/-! ### Steps and histories -/

namespace Naming

/-- An operation on a context: one on its buffers, giving an identifier, or hoisting code. -/
inductive Step where
  | ledger (step : Ledger.Step)
  | mangle (name : String)
  | hoist (name code : String)
  deriving DecidableEq

/-- The context after a step, whether or not the step failed. -/
def Step.after (context : Context) : Step → Context
  | .ledger step => step.after context
  | .mangle name => (context.mangle name).2
  | .hoist name code =>
      match context.hoist name code with
      | .ok (_, after) => after
      | .error _ => context

/-- The context after a history. -/
def final (context : Context) (steps : List Step) : Context := steps.foldl Step.after context

/-- The context after a history that starts without buffers, with a prefix for identifiers. -/
def reached (types : Registry) (namePrefix : String) (steps : List Step) : Context :=
  final { types, namePrefix } steps

theorem naming_ledger (context : Context) (step : Ledger.Step) :
    (step.after context).naming = context.naming := by
  cases step with
  | add buffer scope =>
      rw [Ledger.Step.after, Ledger.Step.perform]
      split
      · next after added => exact Context.naming_add added
      · rfl
  | remove name =>
      rw [Ledger.Step.after, Ledger.Step.perform]
      split
      · next buffer after removed => exact Context.naming_remove removed
      · rfl
  | allocate name operation =>
      rw [Ledger.Step.after, Ledger.Step.perform]
      split
      · next after allocated =>
          exact Context.naming_of_atRest_eq (Context.atRest_allocate allocated)
      · rfl
  | deallocate name operation =>
      exact Context.naming_of_atRest_eq (context.atRest_deallocate name operation)

/-- A step gives an identifier, or leaves all of them alone. -/
theorem naming_after (context : Context) (step : Step) :
    (∃ name, step = .mangle name) ∨ (step.after context).naming = context.naming := by
  cases step with
  | ledger step => exact .inr (naming_ledger context step)
  | mangle name => exact .inl ⟨name, rfl⟩
  | hoist name code =>
      refine .inr ?_
      rw [Step.after]
      split
      · next isNew after hoisted => exact Context.naming_hoist hoisted
      · rfl

theorem namePrefix_after (context : Context) (step : Step) :
    (step.after context).namePrefix = context.namePrefix := by
  rcases naming_after context step with ⟨name, rfl⟩ | same
  · exact context.namePrefix_mangle name
  · exact congrArg Prod.fst same

theorem identifiersApart_after {context : Context} (apart : context.IdentifiersApart)
    (step : Step) : (step.after context).IdentifiersApart := by
  rcases naming_after context step with ⟨name, rfl⟩ | same
  · exact apart.mangle name
  · have sameNames : (step.after context).mangled = context.mangled := congrArg Prod.snd same
    unfold Context.IdentifiersApart
    rw [sameNames]
    exact apart

theorem given_after {context : Context} {name identifier : String}
    (given : context.mangled.find? name = some identifier) (step : Step) :
    (step.after context).mangled.find? name = some identifier := by
  rcases naming_after context step with ⟨other, rfl⟩ | same
  · exact Context.given_mangle_of_given given other
  · have sameNames : (step.after context).mangled = context.mangled := congrArg Prod.snd same
    rw [sameNames]
    exact given

/-- A step gives an identifier to no other name than its own. -/
theorem new_after {context : Context} {name : String} {step : Step}
    (new : context.mangled.find? name = none) (other : step ≠ .mangle name) :
    (step.after context).mangled.find? name = none := by
  rcases naming_after context step with ⟨mangled, rfl⟩ | same
  · have different : mangled ≠ name := fun same => other (congrArg Step.mangle same)
    cases given : context.mangled.find? mangled with
    | some identifier =>
        rw [Step.after, Context.mangle_of_given given]
        exact new
    | none =>
        rw [Step.after, Context.mangle_of_new given, Dict.find?_insert_of_ne _ _ different]
        exact new
  · have sameNames : (step.after context).mangled = context.mangled := congrArg Prod.snd same
    rw [sameNames]
    exact new

theorem namePrefix_final (context : Context) (steps : List Step) :
    (final context steps).namePrefix = context.namePrefix := by
  induction steps generalizing context with
  | nil => rfl
  | cons step steps ih => exact (ih _).trans (namePrefix_after context step)

theorem identifiersApart_final {context : Context} (apart : context.IdentifiersApart)
    (steps : List Step) : (final context steps).IdentifiersApart := by
  induction steps generalizing context with
  | nil => exact apart
  | cons step steps ih => exact ih (identifiersApart_after apart step)

theorem given_final {context : Context} {name identifier : String}
    (given : context.mangled.find? name = some identifier) (steps : List Step) :
    (final context steps).mangled.find? name = some identifier := by
  induction steps generalizing context with
  | nil => exact given
  | cons step steps ih => exact ih (given_after given step)

theorem new_final {context : Context} {name : String} {steps : List Step}
    (new : context.mangled.find? name = none) (never : .mangle name ∉ steps) :
    (final context steps).mangled.find? name = none := by
  induction steps generalizing context with
  | nil => exact new
  | cons step steps ih =>
      rw [List.mem_cons, not_or] at never
      obtain ⟨other, neverLater⟩ := never
      exact ih (new_after new (Ne.symm other)) neverLater

/-- **Identifiers are stable, distinct and fresh.** In every history a logical name that has been
given an identifier keeps it, whatever happens later, and asking again changes nothing; every other
name has or gets another identifier. A name that is given an identifier for the first time gets the
first candidate that is not taken, and no buffer but one of the logical name itself is named so. -/
theorem identifiers_stable_distinct_fresh (types : Registry) (namePrefix : String)
    (earlier later : List Step) (name other : String) :
    (reached types namePrefix (earlier ++ .mangle name :: later)).mangle name =
        (((reached types namePrefix earlier).mangle name).1,
          reached types namePrefix (earlier ++ .mangle name :: later)) ∧
      (other ≠ name →
        ((reached types namePrefix (earlier ++ .mangle name :: later)).mangle other).1 ≠
          ((reached types namePrefix earlier).mangle name).1) ∧
      (.mangle name ∉ earlier →
        (∃ number, ((reached types namePrefix earlier).mangle name).1 =
            Context.candidate (namePrefix ++ Context.sanitize name) number ∧
          (reached types namePrefix earlier).isTaken name
            (Context.candidate (namePrefix ++ Context.sanitize name) number) = false ∧
          ∀ smaller < number, (reached types namePrefix earlier).isTaken name
            (Context.candidate (namePrefix ++ Context.sanitize name) smaller) = true) ∧
        ∀ buffer ∈ (reached types namePrefix earlier).buffers,
          buffer.name = ((reached types namePrefix earlier).mangle name).1 →
            buffer.name = name) := by
  have start : Context.IdentifiersApart { types, namePrefix } := fun _ _ _ given => nomatch given
  have split : reached types namePrefix (earlier ++ .mangle name :: later) =
      final ((reached types namePrefix earlier).mangle name).2 later := by
    rw [reached, final, List.foldl_append]
    rfl
  have still := given_final ((reached types namePrefix earlier).given_mangle name) later
  rw [← split] at still
  refine ⟨Context.mangle_of_given still, fun different same => different ?_, fun never => ?_⟩
  · -- Once the other name has its identifier, both are given in one context.
    have apart := (identifiersApart_final start (earlier ++ .mangle name :: later)).mangle other
    refine apart _ _ _ ?_ (Context.given_mangle_of_given still other)
    exact ((reached types namePrefix _).given_mangle other).trans (congrArg some same)
  · have new : (reached types namePrefix earlier).mangled.find? name = none := new_final rfl never
    have samePrefix : (reached types namePrefix earlier).namePrefix = namePrefix :=
      namePrefix_final _ earlier
    rw [Context.mangle_of_new new]
    refine ⟨?_, fun buffer member named => ?_⟩
    · have first := (reached types namePrefix earlier).freshIdentifier_eq_candidate name
      rwa [samePrefix] at first
    · have known : (reached types namePrefix earlier).isBuffer buffer.name = true :=
        (Context.isBuffer_iff_mem _ _).mpr (Context.mem_names_iff.mpr ⟨buffer, member, rfl⟩)
      rw [named] at known
      exact named.trans (Context.eq_of_isBuffer_freshIdentifier known)

/-- A logical name whose identifier collides with a buffer, which is removed later. -/
def collidingHistory : List Step :=
  [.ledger (.add { name := "k_a_b", type := ⟨0⟩, size := 64 } .locals), .mangle "a.b",
    .ledger (.allocate "k_a_b" "p"), .hoist "f" "void f(void);", .ledger (.remove "k_a_b")]

theorem identifiers_stable_distinct_fresh_collidingHistory :
    "a.b" ≠ "a_b" ∧ .mangle "a_b" ∉ collidingHistory ∧
      (reached {} "k_" (collidingHistory ++ .mangle "a_b" :: [.mangle "a/b"])).mangle "a_b" =
        (((reached {} "k_" collidingHistory).mangle "a_b").1,
          reached {} "k_" (collidingHistory ++ .mangle "a_b" :: [.mangle "a/b"])) ∧
      ((reached {} "k_" (collidingHistory ++ .mangle "a_b" :: [.mangle "a/b"])).mangle "a.b").1 ≠
        ((reached {} "k_" collidingHistory).mangle "a_b").1 ∧
      ∀ buffer ∈ (reached {} "k_" collidingHistory).buffers,
        buffer.name = ((reached {} "k_" collidingHistory).mangle "a_b").1 →
          buffer.name = "a_b" := by
  have different : "a.b" ≠ "a_b" := by decide
  have never : .mangle "a_b" ∉ collidingHistory := by decide
  obtain ⟨stable, distinct, fresh⟩ :=
    identifiers_stable_distinct_fresh {} "k_" collidingHistory [.mangle "a/b"] "a_b" "a.b"
  exact ⟨different, never, stable, distinct different, (fresh never).2⟩

end Naming

end TensorLowering
