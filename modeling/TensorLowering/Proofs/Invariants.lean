import TensorLowering.Proofs.LoweringSteps
import TensorLowering.Proofs.Accounting

/-! # Invariants of lowering steps

A step maintains a property of the context if no run of it breaks the property, also no run that
fails halfway (`TensorLowering.Lowering.Maintains`). Sequences and loops of such steps maintain it
too. An answer can come with a fact that the next steps rely on.
-/

namespace TensorLowering

namespace Context

/-! ### What allocating and freeing leaves alone -/

/-- Freeing changes nothing that is seen at rest. -/
theorem atRest_deallocate (context : Context) (name operation : String) :
    (context.deallocate name operation).2.atRest = context.atRest := by
  cases live : context.isLive name with
  | false =>
      obtain ⟨error, failed⟩ := deallocate_of_dead live operation
      rw [failed]
  | true =>
      obtain ⟨_, _, changed⟩ := deallocate_changes live operation
      rw [changed]
      exact context.atRest_modify name fun _ => rfl

theorem atRest_allocate {context after : Context} {name operation : String}
    (allocated : context.allocate name operation = .ok after) : after.atRest = context.atRest := by
  obtain ⟨buffer, allocation⟩ := allocation_of_allocate allocated
  exact allocation.atRest_eq

end Context

namespace Lowering

/-- The context that a run of a step leaves behind, also if it fails. -/
def finish {α : Type} (step : Lowering α) (workspace : Workspace) : Context :=
  match step workspace with
  | .ok _ final => final.context
  | .error _ final => final.context

theorem finish_of_ok {α : Type} {step : Lowering α} {workspace final : Workspace} {answer : α}
    (ran : step workspace = .ok answer final) : step.finish workspace = final.context := by
  rw [finish, ran]

theorem finish_of_error {α : Type} {step : Lowering α} {workspace final : Workspace}
    {error : Error} (ran : step workspace = .error error final) :
    step.finish workspace = final.context := by
  rw [finish, ran]

/-- No run of a step breaks a property of the context, and its answers are as stated. -/
structure Maintains {α : Type} (property : Context → Prop) (fact : α → Prop) (step : Lowering α) :
    Prop where
  ok : ∀ {workspace answer final}, property workspace.context →
    step workspace = .ok answer final → property final.context ∧ fact answer
  error : ∀ {workspace error final}, property workspace.context →
    step workspace = .error error final → property final.context

/-- No run of a step breaks a property of the context. -/
abbrev Preserves {α : Type} (property : Context → Prop) (step : Lowering α) : Prop :=
  Maintains property (fun _ => True) step

section Rules

variable {α β γ : Type} {property : Context → Prop}

theorem Maintains.finish {fact : α → Prop} {step : Lowering α}
    (maintains : Maintains property fact step) {workspace : Workspace}
    (before : property workspace.context) : property (step.finish workspace) := by
  cases outcome : step workspace with
  | ok answer final =>
      rw [finish_of_ok outcome]
      exact (maintains.ok before outcome).1
  | error error final =>
      rw [finish_of_error outcome]
      exact maintains.error before outcome

theorem maintains_pure {fact : α → Prop} {answer : α} (holds : fact answer) :
    Maintains property fact (pure answer) where
  ok before ran := by
    obtain ⟨rfl, rfl⟩ := pure_eq_ok ran
    exact ⟨before, holds⟩
  error _ ran := by cases ran

theorem preserves_pure (answer : α) : Preserves property (pure answer) := maintains_pure trivial

theorem maintains_throw {fact : α → Prop} (error : Error) :
    Maintains property fact (throw error : Lowering α) where
  ok _ ran := by cases ran
  error before ran := by cases ran; exact before

theorem maintains_ask {fact : α → Prop} {question : Context → Except Error α}
    (answers : ∀ context answer, property context → question context = .ok answer → fact answer) :
    Maintains property fact (ask question) where
  ok before ran := by
    obtain ⟨answered, rfl⟩ := ask_eq_ok ran
    exact ⟨before, answers _ _ before answered⟩
  error {workspace} _ _ before ran := by
    unfold ask at ran
    cases asked : question workspace.context with
    | ok answer => rw [asked] at ran; cases ran
    | error error => rw [asked] at ran; cases ran; exact before

theorem preserves_ask (question : Context → Except Error α) : Preserves property (ask question) :=
  maintains_ask fun _ _ _ _ => trivial

theorem maintains_change {fact : α → Prop} {step : Context → α × Context}
    (keeps : ∀ context, property context → property (step context).2 ∧ fact (step context).1) :
    Maintains property fact (change step) where
  ok before ran := by cases ran; exact keeps _ before
  error _ ran := by cases ran

theorem preserves_attempt {step : Context → Except Error (α × Context)}
    (keeps : ∀ context answer after, property context → step context = .ok (answer, after) →
      property after) : Preserves property (attempt step) where
  ok before ran := ⟨keeps _ _ _ before (attempt_eq_ok ran), trivial⟩
  error before ran := attempt_eq_error ran ▸ before

theorem preserves_perform {step : Context → Except Error α × Context}
    (keeps : ∀ context, property context → property (step context).2) :
    Preserves property (perform step) where
  ok {workspace} _ _ before ran := by
    have kept := keeps _ before
    rw [perform_eq_ok ran] at kept
    exact ⟨kept, trivial⟩
  error {workspace} _ _ before ran := by
    have kept := keeps _ before
    unfold perform at ran
    cases performed : step workspace.context with
    | mk result context =>
        rw [performed] at ran kept
        cases result with
        | ok value => cases ran
        | error error => cases ran; exact kept

theorem Maintains.bind {fact : α → Prop} {nextFact : β → Prop} {first : Lowering α}
    {next : α → Lowering β} (maintains : Maintains property fact first)
    (nextMaintains : ∀ answer, fact answer → Maintains property nextFact (next answer)) :
    Maintains property nextFact (first >>= next) where
  ok before ran := by
    obtain ⟨answer, middle, firstRan, nextRan⟩ := bind_eq_ok ran
    obtain ⟨kept, holds⟩ := maintains.ok before firstRan
    exact (nextMaintains answer holds).ok kept nextRan
  error {workspace} _ _ before ran := by
    change EStateM.bind first next workspace = _ at ran
    unfold EStateM.bind at ran
    cases outcome : first workspace with
    | error error middle =>
        rw [outcome] at ran
        cases ran
        exact maintains.error before outcome
    | ok answer middle =>
        rw [outcome] at ran
        obtain ⟨kept, holds⟩ := maintains.ok before outcome
        exact (nextMaintains answer holds).error kept ran

theorem preserves_of_finish {step : Lowering α}
    (keeps : ∀ workspace : Workspace, property workspace.context →
      property (step.finish workspace)) : Preserves property step where
  ok before ran := ⟨finish_of_ok ran ▸ keeps _ before, trivial⟩
  error before ran := finish_of_error ran ▸ keeps _ before

/-- What a sequence leaves behind is left by its second part, unless its first part fails. -/
theorem finish_bind {first : Lowering α} {next : α → Lowering β} {workspace : Workspace}
    (failed : ∀ error final, first workspace = .error error final → property final.context)
    (later : ∀ answer middle, first workspace = .ok answer middle →
      property ((next answer).finish middle)) :
    property ((first >>= next).finish workspace) := by
  cases outcome : first workspace with
  | ok answer middle =>
      rw [finish, bind_of_ok outcome]
      exact later answer middle outcome
  | error error middle =>
      have stopped : (first >>= next) workspace = .error error middle := by
        change EStateM.bind first next workspace = _
        rw [EStateM.bind, outcome]
      rw [finish_of_error stopped]
      exact failed error middle outcome

theorem finish_ask_bind {question : Context → Except Error α} {next : α → Lowering β}
    {workspace : Workspace} (before : property workspace.context)
    (later : ∀ answer, question workspace.context = .ok answer →
      property ((next answer).finish workspace)) :
    property ((ask question >>= next).finish workspace) := by
  refine finish_bind (fun error final ran => ?_) fun answer middle ran => ?_
  · exact (preserves_ask question).error before ran
  · obtain ⟨asked, rfl⟩ := ask_eq_ok ran
    exact later answer asked

/-- First steps may keep more than what the steps after them keep from there on. -/
theorem Maintains.finish_bind {narrow : Context → Prop} {fact : α → Prop} {first : Lowering α}
    {next : α → Lowering β} (maintains : Maintains narrow fact first)
    (wider : ∀ context, narrow context → property context) {workspace : Workspace}
    (before : narrow workspace.context)
    (later : ∀ answer middle, narrow middle.context → fact answer →
      property ((next answer).finish middle)) :
    property ((first >>= next).finish workspace) := by
  refine Lowering.finish_bind (fun error final ran => ?_) fun answer middle ran => ?_
  · exact wider _ (maintains.error before ran)
  · obtain ⟨kept, holds⟩ := maintains.ok before ran
    exact later answer middle kept holds

theorem maintains_ite {fact : α → Prop} {condition : Prop} [Decidable condition]
    {first second : Lowering α} (firstMaintains : condition → Maintains property fact first)
    (secondMaintains : ¬ condition → Maintains property fact second) :
    Maintains property fact (if condition then first else second) := by
  split
  · next holds => exact firstMaintains holds
  · next fails => exact secondMaintains fails

theorem preserves_mapM {step : α → Lowering β}
    (preserves : ∀ item, Preserves property (step item)) (items : List α) :
    Preserves property (items.mapM step) := by
  induction items with
  | nil => exact preserves_pure []
  | cons item items ih =>
      rw [List.mapM_cons]
      apply (preserves item).bind
      intro result _
      exact ih.bind fun _ _ => preserves_pure _

end Rules

/-! ### Steps that leave the context alone -/

section Reading

variable {property : Context → Prop}

theorem preserves_lookup (name : String) : Preserves property (lookup name) := preserves_ask _

theorem preserves_askTypes {α : Type} (question : Registry → Except Error α) :
    Preserves property (askTypes question) :=
  preserves_ask _

theorem preserves_read (template : Template) : Preserves property (read template) where
  ok before ran := by
    rw [(read_eq_ok ran).2]
    exact ⟨before, trivial⟩
  error before ran := by
    unfold read at ran
    split at ran
    · cases ran
    · cases ran; exact before

theorem preserves_render (fragment : Fragment) : Preserves property (render fragment) := by
  apply (preserves_read _).bind
  exact fun _ _ => preserves_ask _

theorem preserves_renderBlock (block : Block) : Preserves property (renderBlock block) := by
  apply (preserves_mapM preserves_render _).bind
  exact fun _ _ => preserves_pure _

theorem preserves_references (block : Block) (query : ReferenceQuery) :
    Preserves property (references block query) := by
  have touching : ∀ fragment, Preserves property (touched fragment) := by
    intro fragment
    apply (preserves_read _).bind
    exact fun _ _ => preserves_ask _
  apply (preserves_mapM touching _).bind
  exact fun _ _ => preserves_ask _

end Reading

end Lowering

end TensorLowering
