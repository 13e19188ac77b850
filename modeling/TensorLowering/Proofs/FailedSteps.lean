import TensorLowering.Proofs.Dictionaries
import TensorLowering.Proofs.Invariants
import TensorLowering.Proofs.Ledger

/-! # Steps that fail

An operation on buffers checks all that it needs before it changes anything, but for one case:
freeing a live reference makes it dead first and then follows its targets as long as releases are
pending. If this meets a pending release of a buffer that was removed, the operation fails halfway
(`TensorLowering.Ledger.fails_with_change_iff`). This needs a removal of a buffer whose release was
pending.
-/

namespace TensorLowering

namespace Context

/-- Following targets from a name and settling what is pending meets a pending release of a name
that denotes no buffer. -/
inductive Stranded : Context → String → Prop
  | missing {context : Context} {name : String}
      (pending : context.pendingRelease.contains name = true) (absent : context.find? name = none) :
      Stranded context name
  | settled {context : Context} {name target : String} {buffer : Buffer}
      (pending : context.pendingRelease.contains name = true)
      (found : context.find? name = some buffer)
      (unviewed : context.hasLiveAliases name = .ok false) (views : buffer.target? = some target)
      (later : Stranded (context.settle buffer) target) : Stranded context name

theorem stranded_iff {context : Context} {name : String} : Stranded context name ↔
    context.pendingRelease.contains name = true ∧ (context.find? name = none ∨
      ∃ buffer target, context.find? name = some buffer ∧
        context.hasLiveAliases name = .ok false ∧ buffer.target? = some target ∧
          Stranded (context.settle buffer) target) := by
  constructor
  · intro stranded
    cases stranded with
    | missing pending absent => exact ⟨pending, .inl absent⟩
    | settled pending found unviewed views later =>
        exact ⟨pending, .inr ⟨_, _, found, unviewed, views, later⟩⟩
  · rintro ⟨pending, absent | ⟨buffer, target, found, unviewed, views, later⟩⟩
    · exact .missing pending absent
    · exact .settled pending found unviewed views later

/-- How one round of settling fails. -/
theorem settleChain_succ_fails_iff {bound : Nat} {context : Context} {released : List String}
    {name : String} :
    (∃ error, (settleChain (bound + 1) context released name).1 = .error error) ↔
      context.pendingRelease.contains name = true ∧ (context.find? name = none ∨
        ∃ buffer target, context.find? name = some buffer ∧
          context.hasLiveAliases name = .ok false ∧ buffer.target? = some target ∧
            ∃ error, (settleChain bound (context.settle buffer) (released ++ [name]) target).1 =
              .error error) := by
  rw [settleChain]
  by_cases pending : context.pendingRelease.contains name = true
  · cases found : context.find? name with
    | none => simp [pending, lookup, found]
    | some buffer =>
        cases viewed : (context.aliasClosure name).any context.isLive <;>
          cases views : buffer.target? <;>
            simp [pending, lookup, found, hasLiveAliases_eq found, viewed, views]
  · simp [pending]

/-- Settling a chain of targets fails exactly if the chain is stranded. -/
theorem settleChain_fails_iff {bound : Nat} {context : Context} {released : List String}
    {name : String} (enough : context.pendingRelease.keys.length < bound) :
    (∃ error, (settleChain bound context released name).1 = .error error) ↔
      Stranded context name := by
  induction bound generalizing context released name with
  | zero => exact absurd enough (Nat.not_lt_zero _)
  | succ bound ih =>
      rw [settleChain_succ_fails_iff, stranded_iff]
      refine and_congr_right fun pending => or_congr_right ?_
      refine exists_congr fun buffer => exists_congr fun target => and_congr_right fun found =>
        and_congr_right fun _ => and_congr_right fun _ => ih ?_
      -- A round settles a pending release, so the rounds do not run out.
      have erased := Dict.length_keys_erase ((name_of_find? found).symm ▸ pending)
      exact Nat.lt_of_lt_of_le erased (Nat.le_of_lt_succ enough)

/-- Freeing a live buffer makes it dead, even if it fails then. -/
theorem isLive_deallocate {context : Context} {name : String} (live : context.isLive name = true)
    (operation : String) : (context.deallocate name operation).2.isLive name = false := by
  obtain ⟨buffer, found, -⟩ := exists_of_isLive live
  obtain ⟨_, _, changed⟩ := deallocate_changes live operation
  have retired : (context.retire name).find? name = some { buffer with live := false } := by
    rw [find?_retire, if_pos rfl, found, Option.map_some]
  rw [changed]
  exact isLive_eq retired

/-- Freeing a live buffer fails exactly if it is a reference and its target is stranded. -/
theorem deallocate_fails_iff {context : Context} {name : String} (live : context.isLive name = true)
    (operation : String) :
    (∃ error, (context.deallocate name operation).1 = .error error) ↔
      ∃ target, context.targetOf name = some target ∧ (context.retire name).Stranded target := by
  obtain ⟨buffer, found, live⟩ := exists_of_isLive live
  rw [targetOf_eq found]
  cases views : buffer.target? with
  | none =>
      obtain ⟨released, after, result, -⟩ := deallocate_root found live views operation
      simp [result]
  | some target =>
      rw [deallocate_reference found live views, settleChain_fails_iff (Nat.lt_succ_self _)]
      simp

/-! ### Pending releases of buffers that exist -/

/-- Every pending release is that of a buffer that exists. -/
def PendingKnown (context : Context) : Prop :=
  ∀ name, context.pendingRelease.contains name = true → context.isBuffer name = true

namespace PendingKnown

variable {context after : Context}

theorem of_names_eq (known : context.PendingKnown) (names : after.names = context.names)
    (fewer : ∀ name, after.pendingRelease.contains name = true →
      context.pendingRelease.contains name = true) : after.PendingKnown := by
  intro name pending
  rw [isBuffer_iff_mem, names, ← isBuffer_iff_mem]
  exact known name (fewer name pending)

theorem settle (known : context.PendingKnown) (buffer : Buffer) :
    (context.settle buffer).PendingKnown := by
  refine known.of_names_eq rfl fun name pending => ?_
  change (context.pendingRelease.erase buffer.name).contains name = true at pending
  rw [Dict.contains_erase, Bool.and_eq_true] at pending
  exact pending.2

theorem retire (known : context.PendingKnown) (name : String) :
    (context.retire name).PendingKnown := by
  refine known.of_names_eq (context.names_retire name) fun other pending => ?_
  rwa [retire_pendingRelease] at pending

theorem settleChain (known : context.PendingKnown) (bound : Nat) (released : List String)
    (name : String) : (context.settleChain bound released name).2.PendingKnown := by
  fun_induction Context.settleChain bound context released name with
  | case5 bound context released name _ buffer _ _ _ _ _ ih => exact ih (known.settle buffer)
  | case6 bound context released name _ buffer => exact known.settle buffer
  | _ => exact known

theorem deallocate (known : context.PendingKnown) (name operation : String) :
    (context.deallocate name operation).2.PendingKnown := by
  fun_cases Context.deallocate context name operation with
  | case1 | case2 => exact known
  | case3 => exact (known.retire name).settleChain _ _ _
  | case4 => exact known.retire name
  | case5 buffer looked =>
      intro other pending
      change ((context.retire name).pendingRelease.insert name ()).contains other = true at pending
      change (context.retire name).isBuffer other = true
      rw [Dict.contains_insert, Bool.or_eq_true, decide_eq_true_eq] at pending
      rcases pending with rfl | pending
      · rw [isBuffer_iff, find?_retire, if_pos rfl, Option.isSome_map]
        unfold lookup at looked
        split at looked
        · next found => rw [found]; rfl
        · cases looked
      · exact known.retire name other pending
  | case6 => exact known.retire name

theorem allocate (known : context.PendingKnown) {name operation : String}
    (allocated : context.allocate name operation = .ok after) : after.PendingKnown := by
  obtain ⟨buffer, allocation⟩ := allocation_of_allocate allocated
  refine known.of_names_eq allocation.names_eq fun other pending => ?_
  rw [allocation.pending_eq, Bool.and_eq_true] at pending
  exact pending.2

theorem add (known : context.PendingKnown) {buffer : Buffer} {scope : Scope}
    (added : context.add buffer scope = .ok after) : after.PendingKnown := by
  have pushed : ∀ {context : Context}, context.PendingKnown →
      (context.push buffer scope).PendingKnown := by
    intro context known name pending
    rw [push_pendingRelease] at pending
    rw [isBuffer_iff_mem, names_eq_map, ((context.buffers_push_perm buffer scope).map _).mem_iff]
    have listed := (context.isBuffer_iff_mem name).mp (known name pending)
    rw [names_eq_map] at listed
    exact List.mem_cons_of_mem _ listed
  rcases add_cases added with ⟨-, rfl⟩ | ⟨target, -, -, rfl⟩
  · exact pushed known
  · refine pushed (known.of_names_eq (names_modify context (Buffer.name_addAlias _)) ?_)
    intro name pending
    rwa [modify_pendingRelease] at pending

theorem remove (known : context.PendingKnown) {name : String} {old : Buffer}
    (kept : context.pendingRelease.contains name = true → (context.drop name).isBuffer name = true)
    (removed : context.remove name = .ok (old, after)) : after.PendingKnown := by
  have dropped : (context.drop name).PendingKnown := by
    intro other pending
    rw [drop_pendingRelease] at pending
    by_cases same : other = name
    · subst same
      exact kept pending
    · rw [isBuffer_iff, find?_drop_of_ne context same, ← isBuffer_iff]
      exact known other pending
  obtain ⟨-, rfl | ⟨target, rfl⟩⟩ := remove_cases removed
  · exact dropped
  · refine dropped.of_names_eq (names_modify _ fun _ => rfl) fun other pending => ?_
    rwa [modify_pendingRelease] at pending

theorem not_stranded (known : context.PendingKnown) (name : String) :
    ¬ Stranded context name := by
  intro stranded
  induction stranded with
  | missing pending absent =>
      have isBuffer := known _ pending
      rw [isBuffer_iff, absent] at isBuffer
      cases isBuffer
  | settled _ _ _ _ _ ih => exact ih (known.settle _)

end PendingKnown

end Context

namespace Ledger

namespace Step

/-- A step frees a live reference whose target is stranded. -/
def StopsHalfway (context : Context) : Step → Prop
  | .deallocate name _ => context.isLive name = true ∧
      ∃ target, context.targetOf name = some target ∧ (context.retire name).Stranded target
  | .add _ _ | .remove _ | .allocate _ _ => False

/-- A step does not remove a buffer whose release is pending, unless its name then denotes another
buffer. -/
def KeepsPending (context : Context) : Step → Prop
  | .remove name => context.pendingRelease.contains name = true →
      (context.drop name).isBuffer name = true
  | .add _ _ | .allocate _ _ | .deallocate _ _ => True

instance (context : Context) : (step : Step) → Decidable (KeepsPending context step)
  | .remove _ => inferInstanceAs (Decidable (_ → _))
  | .add _ _ | .allocate _ _ | .deallocate _ _ => .isTrue trivial

end Step

/-- A step fails and changes the context exactly if it frees a live reference whose target is
stranded. -/
theorem fails_and_changes_iff (context : Context) (step : Step) :
    ((∃ error, (step.perform context).1 = .error error) ∧ step.after context ≠ context) ↔
      step.StopsHalfway context := by
  cases step with
  | add buffer scope =>
      rw [Step.after, Step.perform]
      split <;> simp [Step.StopsHalfway]
  | remove name =>
      rw [Step.after, Step.perform]
      split <;> simp [Step.StopsHalfway]
  | allocate name operation =>
      rw [Step.after, Step.perform]
      split <;> simp [Step.StopsHalfway]
  | deallocate name operation =>
      rw [Step.StopsHalfway, Step.after, Step.perform]
      cases live : context.isLive name with
      | false =>
          obtain ⟨error, result⟩ := Context.deallocate_of_dead live operation
          simp [result]
      | true =>
          have changed : (context.deallocate name operation).2 ≠ context := by
            intro same
            have dead := Context.isLive_deallocate live operation
            rw [same, live] at dead
            cases dead
          rw [Context.deallocate_fails_iff live, and_iff_left changed]
          simp

theorem pendingKnown_after {context : Context} (known : context.PendingKnown) {step : Step}
    (keeps : step.KeepsPending context) : (step.after context).PendingKnown := by
  cases step with
  | add buffer scope =>
      rw [Step.after, Step.perform]
      split
      · next after added => exact known.add added
      · exact known
  | remove name =>
      rw [Step.after, Step.perform]
      split
      · next old after removed => exact known.remove keeps removed
      · exact known
  | allocate name operation =>
      rw [Step.after, Step.perform]
      split
      · next after allocated => exact known.allocate allocated
      · exact known
  | deallocate name operation => exact known.deallocate name operation

theorem pendingKnown_final {context : Context} (known : context.PendingKnown) {steps : List Step}
    (keeps : Along Step.KeepsPending context steps) : (final context steps).PendingKnown := by
  induction steps generalizing context with
  | nil => exact known
  | cons step steps ih => exact ih (pendingKnown_after known keeps.1) keeps.2

/-- **A step that fails changes nothing, but for one case.** In the state after any run, a step
fails and changes the context exactly if it frees a live reference whose target is stranded. After a
run that removes no buffer with a pending release there is no such step. -/
theorem fails_with_change_iff (types : Registry) (steps : List Step) (step : Step) :
    let state := final { types } steps
    (((∃ error, (step.perform state).1 = .error error) ∧ step.after state ≠ state) ↔
      step.StopsHalfway state) ∧
    (Along Step.KeepsPending { types } steps → ¬ step.StopsHalfway state) := by
  intro state
  refine ⟨fails_and_changes_iff state step, fun keeps => ?_⟩
  have initial : Context.PendingKnown { types } :=
    fun _ pending => absurd pending Bool.false_ne_true
  have known : state.PendingKnown := pendingKnown_final initial keeps
  cases step with
  | deallocate name operation =>
      rintro ⟨-, target, -, stranded⟩
      exact (known.retire name).not_stranded target stranded
  | add _ _ | remove _ | allocate _ _ => exact id

theorem fails_with_change_iff_reallocatingRun :
    Along Step.KeepsPending {} reallocatingRun ∧
      ∀ step error, (Step.perform (final {} reallocatingRun) step).1 = .error error →
        step.after (final {} reallocatingRun) = final {} reallocatingRun := by
  have keeps : Along Step.KeepsPending {} reallocatingRun := by decide
  refine ⟨keeps, fun step error failed => ?_⟩
  obtain ⟨changes, sound⟩ := fails_with_change_iff {} reallocatingRun step
  by_contra changed
  exact sound keeps (changes.mp ⟨⟨error, failed⟩, changed⟩)

/-- A run that removes a buffer while its release is pending. -/
def orphaningRun : List Step :=
  [.add { name := "b", type := ⟨0⟩, size := 64 } .locals,
    .add { name := "r", type := ⟨0⟩, kind := .reference "b" 0 } .locals,
    .allocate "b" "p", .allocate "r" "p", .deallocate "b" "c", .remove "b"]

/-- Freeing the reference fails then, since its target is gone, but the reference is dead. -/
theorem orphaningRun_fails_halfway :
    (Step.perform (final {} orphaningRun) (.deallocate "r" "c")).1 = .error (.unknownBuffer "b") ∧
      (final {} orphaningRun).isLive "r" = true ∧
      ((Step.deallocate "r" "c").after (final {} orphaningRun)).isLive "r" = false := by
  refine ⟨rfl, ?_, ?_⟩ <;> decide

end Ledger

end TensorLowering
