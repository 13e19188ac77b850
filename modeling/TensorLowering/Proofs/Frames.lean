import TensorLowering.Proofs.LoweringSteps

/-! # What lowering steps leave alone

A step keeps a view of the context if no successful run of it changes the view
(`TensorLowering.Lowering.Keeps`). Sequences and loops of such steps keep it too. Only
reserving and releasing storage changes the counters of the arenas, so every other step keeps
them.
-/

namespace TensorLowering

namespace Lowering

/-- No successful run of a step changes a view of the context. -/
def Keeps {α β : Type} (view : Context → β) (step : Lowering α) : Prop :=
  ∀ workspace answer final, step workspace = .ok answer final →
    view final.context = view workspace.context

section Keeps

variable {α β γ δ : Type} {view : Context → δ}

theorem Keeps.eq {step : Lowering α} (keeps : Keeps view step) {workspace final : Workspace}
    {answer : α} (ran : step workspace = .ok answer final) :
    view final.context = view workspace.context :=
  keeps _ _ _ ran

theorem keeps_pure (answer : α) : Keeps view (pure answer) := by
  intro workspace result final ran
  obtain ⟨-, rfl⟩ := pure_eq_ok ran
  rfl

theorem keeps_throw (error : Error) : Keeps view (throw error : Lowering α) := by
  intro workspace result final ran
  cases ran

theorem keeps_ask (question : Context → Except Error α) : Keeps view (ask question) := by
  intro workspace answer final ran
  rw [(ask_eq_ok ran).2]

theorem keeps_change {step : Context → α × Context}
    (same : ∀ context, view (step context).2 = view context) : Keeps view (change step) := by
  intro workspace answer final ran
  cases ran
  exact same workspace.context

theorem keeps_attempt {step : Context → Except Error (α × Context)}
    (same : ∀ context answer after, step context = .ok (answer, after) →
      view after = view context) : Keeps view (attempt step) := by
  intro workspace answer final ran
  exact same _ _ _ (attempt_eq_ok ran)

theorem keeps_perform {step : Context → Except Error α × Context}
    (same : ∀ context, view (step context).2 = view context) : Keeps view (perform step) := by
  intro workspace answer final ran
  have performed := perform_eq_ok ran
  rw [← same workspace.context, performed]

theorem Keeps.bind {first : Lowering α} {next : α → Lowering β} (keeps : Keeps view first)
    (nextKeeps : ∀ answer, Keeps view (next answer)) : Keeps view (first >>= next) := by
  intro workspace result final ran
  obtain ⟨answer, middle, firstRan, nextRan⟩ := bind_eq_ok ran
  rw [(nextKeeps answer).eq nextRan, keeps.eq firstRan]

theorem keeps_ite {condition : Prop} [Decidable condition] {first second : Lowering α}
    (firstKeeps : Keeps view first) (secondKeeps : Keeps view second) :
    Keeps view (if condition then first else second) := by
  split
  · exact firstKeeps
  · exact secondKeeps

theorem keeps_foldlM {step : β → α → Lowering β}
    (keeps : ∀ state item, Keeps view (step state item))
    (items : List α) (state : β) : Keeps view (items.foldlM step state) := by
  induction items generalizing state with
  | nil => exact keeps_pure state
  | cons item items ih =>
      rw [List.foldlM_cons]
      exact (keeps state item).bind ih

theorem keeps_lookup (name : String) : Keeps view (lookup name) := keeps_ask _

theorem keeps_askTypes (question : Registry → Except Error α) : Keeps view (askTypes question) :=
  keeps_ask _

end Keeps

end Lowering

namespace Context

/-- The counters of the arenas, and whether one of them has wrapped around. -/
def counters (context : Context) : Dict Nat × Dict Nat × Bool :=
  (context.dynamicSize, context.maxDynamicSize, context.overflowed)

theorem inUse_congr {first second : Context} (same : first.counters = second.counters)
    (level : String) : first.inUse level = second.inUse level :=
  congrArg (fun counters : Dict Nat × Dict Nat × Bool => counters.1.getD level 0) same

theorem peak_congr {first second : Context} (same : first.counters = second.counters)
    (level : String) : first.peak level = second.peak level :=
  congrArg (fun counters : Dict Nat × Dict Nat × Bool => counters.2.1.getD level 0) same

theorem overflowed_congr {first second : Context} (same : first.counters = second.counters) :
    first.overflowed = second.overflowed :=
  congrArg (fun counters : Dict Nat × Dict Nat × Bool => counters.2.2) same

theorem counters_modify (context : Context) (name : String) (change : Buffer → Buffer) :
    (context.modify name change).counters = context.counters := by
  unfold modify
  split <;> rfl

theorem counters_drop (context : Context) (name : String) :
    (context.drop name).counters = context.counters := by
  unfold drop
  split <;> rfl

theorem counters_push (context : Context) (buffer : Buffer) (scope : Scope) :
    (context.push buffer scope).counters = context.counters := by
  cases scope <;> rfl

theorem counters_add {context after : Context} {buffer : Buffer} {scope : Scope}
    (added : context.add buffer scope = .ok after) : after.counters = context.counters := by
  unfold add at added
  simp only [bind, Except.bind] at added
  split at added
  · cases added
  · split at added
    · cases added
    · split at added
      · cases added
        exact context.counters_push buffer scope
      · split at added
        · cases added
          rw [counters_push, counters_modify]
        · cases added

theorem counters_remove {context after : Context} {name : String} {buffer : Buffer}
    (removed : context.remove name = .ok (buffer, after)) : after.counters = context.counters := by
  unfold remove at removed
  simp only [bind, Except.bind] at removed
  split at removed
  · cases removed
  · split at removed
    · cases removed
      exact context.counters_drop name
    · cases removed
      rw [counters_modify, counters_drop]

theorem counters_mangle (context : Context) (name : String) :
    (context.mangle name).2.counters = context.counters := by
  unfold mangle
  split <;> rfl

theorem counters_hoist {context after : Context} {name code : String} {isNew : Bool}
    (hoisted : context.hoist name code = .ok (isNew, after)) :
    after.counters = context.counters := by
  unfold hoist at hoisted
  split at hoisted
  · split at hoisted
    · cases hoisted; rfl
    · cases hoisted
  · cases hoisted; rfl

end Context

namespace Lowering

open Context (counters)

theorem modifyBuffer_keeps (name : String) (update : Buffer → Buffer) :
    Keeps counters (modifyBuffer name update) := by
  apply (keeps_lookup name).bind
  intro buffer
  apply keeps_change
  intro context
  exact context.counters_modify name update

theorem add_keeps (buffer : Buffer) (scope : Scope) : Keeps counters (add buffer scope) := by
  apply keeps_attempt
  intro context answer after added
  cases outcome : context.add buffer scope with
  | error error => rw [outcome] at added; cases added
  | ok result =>
      rw [outcome] at added
      cases added
      exact Context.counters_add outcome

theorem discardBuffer_keeps (name : String) : Keeps counters (discardBuffer name) := by
  apply (keeps_ask _).bind
  intro known
  apply keeps_ite
  · apply Keeps.bind
    · exact keeps_attempt fun _ _ _ removed => Context.counters_remove removed
    · exact fun _ => keeps_pure ()
  · exact keeps_pure ()

theorem mangle_keeps (name : String) : Keeps counters (mangle name) :=
  keeps_change fun context => context.counters_mangle name

theorem hoist_keeps (name code : String) : Keeps counters (hoist name code) := by
  apply Keeps.bind
  · exact keeps_attempt fun _ _ _ hoisted => Context.counters_hoist hoisted
  · exact fun _ => keeps_pure ()

theorem intern_keeps (make : Registry → TypeId × Registry) : Keeps counters (intern make) :=
  keeps_change fun _ => rfl

end Lowering

end TensorLowering
