import TensorLowering.Proofs.DeferredRelease
import TensorLowering.Proofs.TargetOrder

/-! # Views come after what they view

A reference is added after its target. So where a run only builds up and uses buffers, no local
buffer views one that was added later, and none views itself (`TensorLowering.Context.Layered`).
Names in the order of the local buffers have their targets first already, and ordering them by
targets leaves them as they are (`TensorLowering.Context.sortByTargets_of_targetsFirst`).
-/

namespace TensorLowering

namespace Context

open Relation

/-- No local buffer views a later one, and no buffer views itself. -/
structure Layered (context : Context) : Prop where
  forward : context.locals.names.Pairwise fun first second => ¬ context.Views first second
  irrefl : ∀ name, ¬ context.Views name name

theorem layered_initial (types : Registry) : Layered { types } where
  forward := .nil
  irrefl name := not_views_of_root rfl name

/-! ### Adding a buffer -/

section Adding

variable {context after : Context} {buffer : Buffer} {scope : Scope}

theorem Mirrored.isBuffer_of_views (mirrored : Mirrored context) {view owner : String}
    (views : context.Views view owner) : context.isBuffer owner = true := by
  obtain ⟨last, -, targets⟩ := TransGen.tail'_iff.mp views
  by_contra absent
  rw [isBuffer_iff_mem] at absent
  rw [← mirrored, aliasesOf_of_absent absent] at targets
  exact List.not_mem_nil targets

theorem ne_of_isBuffer_of_fresh {name fresh : String} (known : context.isBuffer name = true)
    (new : context.isBuffer fresh = false) : name ≠ fresh := by
  rintro rfl
  exact Bool.false_ne_true (new.symm.trans known)

/-- A buffer that is there gets no new views by adding a fresh one. -/
theorem Mirrored.views_of_add (mirrored : Mirrored context)
    (fresh : context.isBuffer buffer.name = false) (added : context.add buffer scope = .ok after)
    {view owner : String} (older : view ≠ buffer.name) (views : after.Views view owner) :
    context.Views view owner := by
  induction views with
  | single targets =>
      rw [targetOf_add fresh added, if_neg older] at targets
      exact TransGen.single targets
  | tail _ targets ih =>
      have known := ne_of_isBuffer_of_fresh (mirrored.isBuffer_of_views ih) fresh
      rw [targetOf_add fresh added, if_neg known] at targets
      exact TransGen.tail ih targets

/-- No buffer that is there views a fresh one. -/
theorem Mirrored.not_views_fresh (mirrored : Mirrored context)
    (fresh : context.isBuffer buffer.name = false) (added : context.add buffer scope = .ok after)
    {view : String} (older : view ≠ buffer.name) : ¬ after.Views view buffer.name := by
  intro views
  have known := mirrored.isBuffer_of_views (mirrored.views_of_add fresh added older views)
  exact ne_of_isBuffer_of_fresh known fresh rfl

/-- A fresh buffer does not view itself, since its target was there before. -/
theorem Mirrored.not_views_self (mirrored : Mirrored context)
    (fresh : context.isBuffer buffer.name = false)
    (added : context.add buffer scope = .ok after) : ¬ after.Views buffer.name buffer.name := by
  intro views
  have targets := targetOf_add fresh added buffer.name
  rw [if_pos rfl] at targets
  rcases add_cases added with ⟨root, -⟩ | ⟨target, isView, known, -⟩
  · exact not_views_of_root (targets.trans root) _ views
  · have apart := ne_of_isBuffer_of_fresh known fresh
    rcases (views_iff (targets.trans isView) _).mp views with same | further
    · exact apart same.symm
    · exact mirrored.not_views_fresh fresh added apart further

theorem localNames_add (added : context.add buffer scope = .ok after) :
    after.locals.names =
      context.locals.names ++ if Scope.locals = scope then [buffer.name] else [] := by
  have pushed : ∀ before : Context, (before.push buffer scope).locals.names =
      before.locals.names ++ if Scope.locals = scope then [buffer.name] else [] := by
    intro before
    have entries := congrArg (List.map Buffer.name) (before.entries_push buffer scope .locals)
    rw [List.map_append] at entries
    refine entries.trans (congrArg (_ ++ ·) ?_)
    split <;> rfl
  rcases add_cases added with ⟨-, rfl⟩ | ⟨target, -, -, rfl⟩
  · exact pushed context
  · rw [pushed]
    exact congrArg (· ++ _)
      (map_entries_modify (Buffer.name_addAlias buffer.name) context target .locals)

/-- Adding a fresh buffer leaves views behind what they view. -/
theorem Layered.add (layered : Layered context) (mirrored : Mirrored context)
    (fresh : context.isBuffer buffer.name = false)
    (added : context.add buffer scope = .ok after) : Layered after := by
  have older : ∀ {name}, name ∈ context.locals.names → name ≠ buffer.name := by
    intro name listed
    refine ne_of_isBuffer_of_fresh ?_ fresh
    rw [isBuffer_iff_mem]
    exact List.mem_append_left _ listed
  refine ⟨?_, fun name views => ?_⟩
  · rw [localNames_add added, List.pairwise_append]
    refine ⟨?_, ?_, ?_⟩
    · refine layered.forward.imp_of_mem fun listed _ apart views => ?_
      exact apart (mirrored.views_of_add fresh added (older listed) views)
    · split
      · exact List.pairwise_singleton _ _
      · exact .nil
    · intro first listed second new
      split at new
      · rw [List.mem_singleton.mp new]
        exact mirrored.not_views_fresh fresh added (older listed)
      · exact absurd new List.not_mem_nil
  · by_cases new : name = buffer.name
    · rw [new] at views
      exact mirrored.not_views_self fresh added views
    · exact layered.irrefl name (mirrored.views_of_add fresh added new views)

theorem layered_congr {first second : Context} (same : first.atRest = second.atRest) :
    Layered first ↔ Layered second := by
  have names : first.locals.names = second.locals.names :=
    map_entries_of_atRest_eq (fun _ => rfl) same .locals
  have views := views_congr same
  constructor
  · rintro ⟨forward, irrefl⟩
    exact ⟨names ▸ views ▸ forward, views ▸ irrefl⟩
  · rintro ⟨forward, irrefl⟩
    exact ⟨names ▸ views ▸ forward, views ▸ irrefl⟩

end Adding

/-! ### Names in the order of the local buffers -/

variable {context : Context} {listed placed remaining names : List String}

theorem Layered.pairwise (layered : Layered context)
    (ordered : names.Sublist context.locals.names) :
    names.Pairwise fun first second => ¬ context.Views first second :=
  layered.forward.sublist ordered

theorem Layered.targetsFirst (layered : Layered context)
    (ordered : names.Sublist context.locals.names) : context.TargetsFirst names names := by
  intro before name after split target targets member
  have views : context.Views name target := TransGen.single targets
  have apart := layered.pairwise ordered
  rw [split, List.pairwise_append, List.pairwise_cons] at apart
  rw [split, List.mem_append, List.mem_cons] at member
  rcases member with earlier | rfl | later
  · exact earlier
  · exact absurd views (layered.irrefl _)
  · exact absurd views (apart.2.1.1 target later)

/-- A round places all names if their targets come first. -/
theorem TargetsFirst.sortRound_eq (first : context.TargetsFirst listed listed)
    (split : listed = placed ++ remaining) :
    context.sortRound listed placed remaining = (listed, []) := by
  induction remaining generalizing placed with
  | nil => rw [Context.sortRound, split, List.append_nil]
  | cons name rest ih =>
      have ready : ¬ context.isWaiting listed placed name = true := by
        rw [isWaiting_iff]
        rintro ⟨target, targets, member, missing⟩
        exact missing (first placed name rest split target targets member)
      rw [Context.sortRound, if_neg ready]
      exact ih (by rw [split, List.append_assoc, List.singleton_append])

/-- Names that have their targets first stay in their order. -/
theorem sortByTargets_of_targetsFirst (known : ∀ name ∈ names, context.isBuffer name = true)
    (first : context.TargetsFirst names names) : context.sortByTargets names = .ok names := by
  rw [sortByTargets_of_known known]
  cases names with
  | nil => rfl
  | cons name rest =>
      have done : context.sortWithin (name :: rest) rest.length (name :: rest) [] =
          .ok (name :: rest) := by rw [sortWithin]
      rw [List.length_cons, sortWithin, first.sortRound_eq (List.nil_append _).symm]
      · exact (if_neg (Nat.succ_ne_zero rest.length)).trans done
      · exact List.cons_ne_nil name rest

end Context

namespace Ledger

/-- A plain step leaves views behind what they view. -/
theorem Performed.layered {context after : Context} {step : Step}
    {result : Except Error (List String)} (performed : Performed context step result after)
    (mirrored : context.Mirrored) (before : context.Layered) (plain : step.Plain context) :
    after.Layered := by
  cases performed with
  | failed idle => exact before
  | added added => exact before.add mirrored plain.2.2 added
  | removed removed => exact plain.elim
  | allocated allocation => exact (Context.layered_congr allocation.atRest_eq).mpr before
  | freed found live freed => exact (Context.layered_congr freed.atRest_eq).mpr before

/-- In every state of a run that builds up buffers, views come after what they view. -/
theorem layered_states (types : Registry) {steps : List Step}
    (plain : Along Step.Plain { types } steps) :
    ∀ state ∈ states { types } steps, state.Accounted ∧ state.Mirrored ∧ state.Layered := by
  refine holds_states (fun context step books now => ?_)
    ⟨accounted_initial types, mirrored_initial types, Context.layered_initial types⟩ plain
  obtain ⟨accounted, mirrored, layered⟩ := books
  have outcome := performed accounted.toSound step
  exact ⟨outcome.accounted accounted now.careful, outcome.mirrored mirrored now,
    outcome.layered mirrored layered now⟩

end Ledger

end TensorLowering
