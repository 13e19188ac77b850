import TensorLowering.Proofs.LoweringSteps

/-! # Two runs from one context

Two steps agree from a context if they end alike whichever templates each of them has read
before: both fail with one error or both answer, and both leave the same context
(`TensorLowering.Agree`). The answers may differ; the relation between them is carried from
step to step. A step that agrees with itself and gives one answer does not show what has been
read (`TensorLowering.Oblivious`).
-/

namespace TensorLowering

variable {ε α β γ δ : Type}

/-- Two outcomes with one context, and with one error or with related answers. -/
inductive Alike (related : Context → α → β → Prop) :
    EStateM.Result ε Workspace α → EStateM.Result ε Workspace β → Prop where
  | ok {first second : Workspace} {answer : α} {other : β} (same : first.context = second.context)
      (holds : related first.context answer other) :
      Alike related (.ok answer first) (.ok other second)
  | error {first second : Workspace} {error : ε} (same : first.context = second.context) :
      Alike related (.error error first) (.error error second)

/-- Two steps end alike from a context, whichever templates each has read before. -/
def Agree (context : Context) (related : Context → α → β → Prop) (first : EStateM ε Workspace α)
    (second : EStateM ε Workspace β) : Prop :=
  ∀ sources others,
    Alike related (first { context, sources }) (second { context, sources := others })

section Rules

variable {context : Context} {related : Context → α → β → Prop}
  {first : EStateM ε Workspace α} {second : EStateM ε Workspace β}

/-- What the first of two steps that agree answers can be noted. -/
theorem Agree.note (agree : Agree context related first second) (fact : Context → α → Prop)
    (answers : ∀ sources answer final, first { context, sources } = .ok answer final →
      fact final.context answer) :
    Agree context (fun after answer other => related after answer other ∧ fact after answer)
      first second := by
  intro sources others
  have alike := agree sources others
  have noted := answers sources
  generalize first { context, sources } = left, second { context, sources := others } = right
    at alike noted ⊢
  cases alike with
  | ok same holds => exact .ok same ⟨holds, noted _ _ rfl⟩
  | error same => exact .error same

theorem agree_pure {answer : α} {other : β} (holds : related context answer other) :
    Agree context related (pure answer : EStateM ε Workspace α) (pure other) :=
  fun _ _ => .ok rfl holds

theorem agree_throw (error : ε) :
    Agree context related (throw error : EStateM ε Workspace α)
      (throw error : EStateM ε Workspace β) :=
  fun _ _ => .error rfl

theorem Agree.bind {later : Context → γ → δ → Prop} {next : α → EStateM ε Workspace γ}
    {follow : β → EStateM ε Workspace δ} (agree : Agree context related first second)
    (nextAgree : ∀ after answer other, related after answer other →
      Agree after later (next answer) (follow other)) :
    Agree context later (first >>= next) (second >>= follow) := by
  intro sources others
  change Alike later (EStateM.bind first next _) (EStateM.bind second follow _)
  unfold EStateM.bind
  have alike := agree sources others
  generalize first { context, sources } = left, second { context, sources := others } = right
    at alike ⊢
  cases alike with
  | error same => exact .error same
  | @ok after other answer value same holds =>
      -- The two runs go on from one context, each with the templates it has read.
      obtain ⟨reached, sources⟩ := after
      obtain ⟨_, others⟩ := other
      cases same
      exact nextAgree reached answer value holds sources others

end Rules

/-! ### Steps that do not show what has been read -/

/-- A step ends alike with every cache, with one answer. -/
def Oblivious (step : EStateM ε Workspace α) : Prop :=
  ∀ context, Agree context (fun _ => Eq) step step

section Oblivious

variable {first second : EStateM ε Workspace α}

theorem Oblivious.agree (oblivious : Oblivious first) (context : Context) :
    Agree context (fun _ => Eq) first first :=
  oblivious context

theorem oblivious_pure (answer : α) : Oblivious (pure answer : EStateM ε Workspace α) :=
  fun _ => agree_pure rfl

theorem oblivious_throw (error : ε) : Oblivious (throw error : EStateM ε Workspace α) :=
  fun _ => agree_throw error

theorem Oblivious.bind {next : α → EStateM ε Workspace β} (oblivious : Oblivious first)
    (later : ∀ answer, Oblivious (next answer)) : Oblivious (first >>= next) := by
  intro context
  apply (oblivious.agree context).bind
  intro after answer other same
  rw [← same]
  exact later answer after

theorem oblivious_ite {condition : Prop} [Decidable condition] (holds : Oblivious first)
    (fails : Oblivious second) : Oblivious (if condition then first else second) := by
  split
  · exact holds
  · exact fails

theorem oblivious_mapM {step : α → EStateM ε Workspace β}
    (oblivious : ∀ item, Oblivious (step item)) (items : List α) :
    Oblivious (items.mapM step) := by
  induction items with
  | nil => exact oblivious_pure []
  | cons item items ih =>
      rw [List.mapM_cons]
      apply (oblivious item).bind
      intro result
      exact ih.bind fun _ => oblivious_pure _

theorem oblivious_foldlM {step : β → α → EStateM ε Workspace β}
    (oblivious : ∀ state item, Oblivious (step state item)) (items : List α) (state : β) :
    Oblivious (items.foldlM step state) := by
  induction items generalizing state with
  | nil => exact oblivious_pure state
  | cons item items ih =>
      rw [List.foldlM_cons]
      exact (oblivious state item).bind ih

end Oblivious

/-! ### Single steps -/

namespace Lowering

theorem oblivious_ask (question : Context → Except Error α) : Oblivious (ask question) := by
  intro context sources others
  cases asked : question context with
  | ok answer =>
      simp only [ask, asked]
      exact .ok rfl rfl
  | error error =>
      simp only [ask, asked]
      exact .error rfl

/-- A question that only one of two steps asks, and that has an answer, does not set them apart. -/
theorem agree_ask_bind {context : Context} {related : Context → γ → β → Prop}
    {question : Context → Except Error α} {answer : α} (asked : question context = .ok answer)
    {next : α → Lowering γ} {second : Lowering β}
    (agree : Agree context related (next answer) second) :
    Agree context related (ask question >>= next) second := by
  intro sources others
  have answered : ask question { context, sources } = .ok answer { context, sources } := by
    simp only [ask, asked]
  rw [bind_of_ok answered]
  exact agree sources others

theorem oblivious_attempt (step : Context → Except Error (α × Context)) :
    Oblivious (attempt step) := by
  intro context sources others
  cases tried : step context with
  | ok value =>
      simp only [attempt, tried]
      exact .ok rfl rfl
  | error error =>
      simp only [attempt, tried]
      exact .error rfl

theorem oblivious_perform (step : Context → Except Error α × Context) :
    Oblivious (perform step) := by
  intro context sources others
  cases performed : step context with
  | mk result after =>
      cases result with
      | ok answer =>
          simp only [perform, performed]
          exact .ok rfl rfl
      | error error =>
          simp only [perform, performed]
          exact .error rfl

theorem oblivious_change (step : Context → α × Context) : Oblivious (change step) :=
  fun _ _ _ => .ok rfl rfl

/-- A template gives the same answer whether it is read or found among those that have been. -/
theorem oblivious_read (template : Template) : Oblivious (read template) := by
  intro context sources others
  cases readable : Template.parse template.source with
  | ok parsed =>
      obtain ⟨kept, reading⟩ := read_of_readable readable { context, sources }
      obtain ⟨added, rereading⟩ := read_of_readable readable { context, sources := others }
      rw [reading, rereading]
      exact .ok rfl rfl
  | error fault =>
      rw [read_of_unreadable readable, read_of_unreadable readable]
      exact .error rfl

theorem oblivious_render (fragment : Fragment) : Oblivious (render fragment) :=
  (oblivious_read _).bind fun _ => oblivious_ask _

theorem oblivious_renderBlock (block : Block) : Oblivious (renderBlock block) :=
  (oblivious_mapM oblivious_render _).bind fun _ => oblivious_pure _

theorem oblivious_references (block : Block) (query : ReferenceQuery) :
    Oblivious (references block query) := by
  have touching : ∀ fragment, Oblivious (touched fragment) :=
    fun _ => (oblivious_read _).bind fun _ => oblivious_ask _
  exact (oblivious_mapM touching _).bind fun _ => oblivious_ask _

theorem oblivious_lookups (names : List String) : Oblivious (names.mapM lookup) :=
  oblivious_mapM (fun _ => oblivious_ask _) names

/-! ### What both runs answer -/

section Answers

variable {context : Context}

theorem agree_ask (question : Context → Except Error α) :
    Agree context (fun after answer other => answer = other ∧
        question context = .ok answer ∧ after = context)
      (ask question) (ask question) := by
  apply ((oblivious_ask question).agree context).note
    fun after answer => question context = .ok answer ∧ after = context
  intro sources answer final ran
  exact (ask_eq_ok ran).imp_right (congrArg Workspace.context)

theorem agree_lookup (name : String) :
    Agree context (fun after buffer other => buffer = other ∧
        context.find? name = some buffer ∧ after = context)
      (lookup name) (lookup name) := by
  have oblivious : Oblivious (lookup name) := oblivious_ask _
  apply (oblivious.agree context).note
    fun after buffer => context.find? name = some buffer ∧ after = context
  intro sources buffer final ran
  exact (lookup_eq_ok ran).imp_right (congrArg Workspace.context)

theorem agree_lookups (names : List String) :
    Agree context (fun after buffers others => buffers = others ∧
        buffers = names.filterMap context.find? ∧ after = context)
      (names.mapM lookup) (names.mapM lookup) := by
  apply ((oblivious_lookups names).agree context).note
    fun after buffers => buffers = names.filterMap context.find? ∧ after = context
  exact fun _ _ _ ran => mapM_lookup_eq_ok ran

theorem agree_references (block : Block) (query : ReferenceQuery) :
    Agree context (fun after names others => names = others ∧
        names = block.references context query ∧ after = context)
      (references block query) (references block query) := by
  apply ((oblivious_references block query).agree context).note
    fun after names => names = block.references context query ∧ after = context
  exact fun _ _ _ => references_eq_ok

theorem agree_allocate (name operation : String) :
    Agree context (fun after answer other => answer = other ∧
        context.allocate name operation = .ok after)
      (allocate name operation) (allocate name operation) := by
  have oblivious : Oblivious (allocate name operation) := oblivious_attempt _
  apply (oblivious.agree context).note
    fun after _ => context.allocate name operation = .ok after
  exact fun _ _ _ ran => allocate_eq_ok ran

theorem agree_deallocate (name operation : String) :
    Agree context (fun after owners others => owners = others ∧
        context.deallocate name operation = (.ok owners, after))
      (deallocate name operation) (deallocate name operation) := by
  have oblivious : Oblivious (deallocate name operation) := oblivious_perform _
  apply (oblivious.agree context).note
    fun after owners => context.deallocate name operation = (.ok owners, after)
  exact fun _ _ _ ran => deallocate_eq_ok ran

end Answers

end Lowering

end TensorLowering
