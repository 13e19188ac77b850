import Mathlib.Data.List.Forall2
import TensorLowering.Pipeline
import TensorLowering.Proofs.Buffers

/-! # Successful lowering steps

A sequence of steps that succeeds is taken apart into its steps, and each kind of step says
what it answers and what it leaves behind. The references of a block are a function of the
block and of the context (`TensorLowering.Block.references`).
-/

namespace TensorLowering

/-! ### Matched lists -/

section Matched

variable {α β : Type} {related : α → β → Prop}

theorem exists_of_forall₂ {first : List α} {second : List β}
    (matched : List.Forall₂ related first second) {item : α} (member : item ∈ first) :
    ∃ other ∈ second, related item other := by
  induction matched with
  | nil => exact absurd member List.not_mem_nil
  | cons here _ ih =>
      rcases List.mem_cons.mp member with rfl | member
      · exact ⟨_, List.mem_cons_self, here⟩
      · obtain ⟨other, listed, fits⟩ := ih member
        exact ⟨other, List.mem_cons_of_mem _ listed, fits⟩

theorem exists_split_of_forall₂ {first : List α} {before after : List β} {other : β}
    (matched : List.Forall₂ related first (before ++ other :: after)) :
    ∃ earlier item later, first = earlier ++ item :: later ∧ related item other ∧
      List.Forall₂ related later after := by
  have rest := List.forall₂_drop_append first before (other :: after) matched
  obtain ⟨item, later, here, follows, split⟩ := List.forall₂_cons_right_iff.mp rest
  refine ⟨first.take before.length, item, later, ?_, here, follows⟩
  rw [← split, List.take_append_drop]

end Matched

/-! ### Sequences -/

section Sequences

variable {ε σ α β : Type}

theorem bind_of_ok {first : EStateM ε σ α} {state middle : σ} {answer : α}
    (ran : first state = .ok answer middle) (next : α → EStateM ε σ β) :
    (first >>= next) state = next answer middle := by
  change EStateM.bind first next state = _
  rw [EStateM.bind, ran]

theorem bind_of_error {first : EStateM ε σ α} {state middle : σ} {error : ε}
    (ran : first state = .error error middle) (next : α → EStateM ε σ β) :
    (first >>= next) state = .error error middle := by
  change EStateM.bind first next state = _
  rw [EStateM.bind, ran]

theorem bind_eq_ok {first : EStateM ε σ α} {next : α → EStateM ε σ β} {state final : σ}
    {result : β} (ran : (first >>= next) state = .ok result final) :
    ∃ answer middle, first state = .ok answer middle ∧ next answer middle = .ok result final := by
  change EStateM.bind first next state = .ok result final at ran
  unfold EStateM.bind at ran
  cases answered : first state with
  | error error middle => rw [answered] at ran; cases ran
  | ok answer middle =>
      rw [answered] at ran
      exact ⟨answer, middle, rfl, ran⟩

theorem pure_eq_ok {answer result : α} {state final : σ}
    (ran : (pure answer : EStateM ε σ α) state = .ok result final) :
    answer = result ∧ state = final := by
  cases ran
  exact ⟨rfl, rfl⟩

/-- What a run that succeeds shows of its answer and its last state. -/
def observe {γ : Type} (step : EStateM ε σ α) (view : α → σ → γ) (state : σ) : Option γ :=
  match step state with
  | .ok answer final => some (view answer final)
  | .error _ _ => none

theorem exists_of_observe {γ : Type} {step : EStateM ε σ α} {view : α → σ → γ} {state : σ}
    {seen : γ} (observed : observe step view state = some seen) :
    ∃ answer final, step state = .ok answer final ∧ view answer final = seen := by
  unfold observe at observed
  cases outcome : step state with
  | ok answer final =>
      rw [outcome] at observed
      exact ⟨answer, final, rfl, Option.some.inj observed⟩
  | error error final =>
      rw [outcome] at observed
      cases observed

theorem mapM_cons_eq_ok {step : α → EStateM ε σ β} {item : α} {items : List α} {results : List β}
    {state final : σ} (ran : (item :: items).mapM step state = .ok results final) :
    ∃ result later middle, step item state = .ok result middle ∧
      items.mapM step middle = .ok later final ∧ results = result :: later := by
  rw [List.mapM_cons] at ran
  obtain ⟨result, middle, head, ran⟩ := bind_eq_ok ran
  obtain ⟨later, last, tail, ran⟩ := bind_eq_ok ran
  obtain ⟨rfl, rfl⟩ := pure_eq_ok ran
  exact ⟨result, later, middle, head, tail, rfl⟩

end Sequences

namespace Lowering

variable {α : Type} {workspace final : Workspace}

/-! ### Single steps -/

theorem ask_eq_ok {question : Context → Except Error α} {answer : α}
    (ran : ask question workspace = .ok answer final) :
    question workspace.context = .ok answer ∧ final = workspace := by
  unfold ask at ran
  cases asked : question workspace.context with
  | error error => rw [asked] at ran; cases ran
  | ok value =>
      rw [asked] at ran
      cases ran
      exact ⟨rfl, rfl⟩

theorem ask_of_error {question : Context → Except Error α} {error : Error}
    (fails : question workspace.context = .error error) :
    ask question workspace = .error error workspace := by
  rw [ask, fails]

theorem attempt_eq_ok {step : Context → Except Error (α × Context)} {answer : α}
    (ran : attempt step workspace = .ok answer final) :
    step workspace.context = .ok (answer, final.context) := by
  unfold attempt at ran
  cases tried : step workspace.context with
  | error error => rw [tried] at ran; cases ran
  | ok value =>
      rw [tried] at ran
      cases ran
      rfl

theorem attempt_eq_error {step : Context → Except Error (α × Context)} {error : Error}
    (ran : attempt step workspace = .error error final) : final = workspace := by
  unfold attempt at ran
  cases tried : step workspace.context with
  | error error => rw [tried] at ran; cases ran; rfl
  | ok value => rw [tried] at ran; cases ran

theorem perform_eq_ok {step : Context → Except Error α × Context} {answer : α}
    (ran : perform step workspace = .ok answer final) :
    step workspace.context = (.ok answer, final.context) := by
  unfold perform at ran
  cases performed : step workspace.context with
  | mk result context =>
      rw [performed] at ran
      cases result with
      | error error => cases ran
      | ok value => cases ran; rfl

theorem lookup_eq_ok {name : String} {buffer : Buffer}
    (ran : lookup name workspace = .ok buffer final) :
    workspace.context.find? name = some buffer ∧ final = workspace := by
  obtain ⟨found, same⟩ := ask_eq_ok ran
  refine ⟨?_, same⟩
  unfold Context.lookup at found
  cases search : workspace.context.find? name with
  | none => rw [search] at found; cases found
  | some value => rw [search] at found; cases found; rfl

theorem allocate_eq_ok {name operation : String}
    (ran : allocate name operation workspace = .ok () final) :
    workspace.context.allocate name operation = .ok final.context := by
  have tried := attempt_eq_ok ran
  cases allocated : workspace.context.allocate name operation with
  | error error => simp [allocated, bind, Except.bind] at tried
  | ok context => simpa [allocated, bind, Except.bind, pure, Except.pure] using tried

theorem deallocate_eq_ok {name operation : String} {owners : List String}
    (ran : deallocate name operation workspace = .ok owners final) :
    workspace.context.deallocate name operation = (.ok owners, final.context) :=
  perform_eq_ok ran

theorem change_eq_ok {step : Context → α × Context} {answer : α}
    (ran : change step workspace = .ok answer final) :
    answer = (step workspace.context).1 ∧ final.context = (step workspace.context).2 := by
  cases ran
  exact ⟨rfl, rfl⟩

theorem mangle_eq_ok {name identifier : String}
    (ran : mangle name workspace = .ok identifier final) :
    identifier = (workspace.context.mangle name).1 ∧
      final.context = (workspace.context.mangle name).2 :=
  change_eq_ok ran

theorem intern_eq_ok {make : Registry → TypeId × Registry} {type : TypeId}
    (ran : intern make workspace = .ok type final) :
    type = (make workspace.context.types).1 ∧
      final.context = { workspace.context with types := (make workspace.context.types).2 } :=
  change_eq_ok ran

theorem add_eq_ok {buffer : Buffer} {scope : Scope}
    (ran : add buffer scope workspace = .ok () final) :
    workspace.context.add buffer scope = .ok final.context := by
  have tried := attempt_eq_ok ran
  cases added : workspace.context.add buffer scope with
  | error error => simp [added, bind, Except.bind] at tried
  | ok context => simpa [added, bind, Except.bind, pure, Except.pure] using tried

theorem discardBuffer_eq_ok {name : String} (ran : discardBuffer name workspace = .ok () final) :
    workspace.context.isBuffer name = false ∧ final.context = workspace.context ∨
      ∃ buffer, workspace.context.remove name = .ok (buffer, final.context) := by
  obtain ⟨known, middle, asking, ran⟩ := bind_eq_ok ran
  obtain ⟨answer, rfl⟩ := ask_eq_ok asking
  cases answer
  split at ran
  · obtain ⟨buffer, last, removing, ran⟩ := bind_eq_ok ran
    obtain ⟨-, rfl⟩ := pure_eq_ok ran
    exact .inr ⟨buffer, attempt_eq_ok removing⟩
  · next unknown =>
      obtain ⟨-, rfl⟩ := pure_eq_ok ran
      exact .inl ⟨Bool.not_eq_true _ ▸ unknown, rfl⟩

theorem read_eq_ok {template : Template} {parsed : Parsed}
    (ran : read template workspace = .ok parsed final) :
    Template.parse template.source = .ok parsed ∧ final.context = workspace.context := by
  have answers := workspace.sources.map_fst_read template.source
  unfold read at ran
  cases outcome : workspace.sources.read template.source with
  | error fault => rw [outcome] at ran; cases ran
  | ok value =>
      rw [outcome] at ran answers
      cases ran
      exact ⟨answers.symm, rfl⟩

/-- A template that can be read is read, whatever has been read before. -/
theorem read_of_readable {template : Template} {parsed : Parsed}
    (readable : Template.parse template.source = .ok parsed) (workspace : Workspace) :
    ∃ sources, read template workspace = .ok parsed { workspace with sources } := by
  have answers := workspace.sources.map_fst_read template.source
  rw [readable] at answers
  cases outcome : workspace.sources.read template.source with
  | error fault => rw [outcome] at answers; cases answers
  | ok value =>
      rw [outcome] at answers
      cases answers
      exact ⟨value.2, by rw [read, outcome]⟩

theorem read_of_unreadable {template : Template} {fault : TemplateFault}
    (unreadable : Template.parse template.source = .error fault) (workspace : Workspace) :
    read template workspace = .error (.template fault) workspace := by
  have answers := workspace.sources.map_fst_read template.source
  rw [unreadable] at answers
  cases outcome : workspace.sources.read template.source with
  | ok value => rw [outcome] at answers; cases answers
  | error found =>
      rw [outcome] at answers
      cases answers
      rw [read, outcome]

theorem during_eq_ok {step : Lowering α} {operation stage : String} {completed : Nat} {answer : α}
    (ran : step.during operation stage completed workspace = .ok answer final) :
    step workspace = .ok answer final := by
  unfold during at ran
  cases outcome : step workspace with
  | error error middle => rw [outcome] at ran; cases ran
  | ok value middle => rw [outcome] at ran; cases ran; rfl

/-- Steps over a list that leave the context alone all see the same context. -/
theorem mapM_eq_ok {β : Type} {step : α → Lowering β} (answer : Context → α → β → Prop)
    (answers : ∀ item workspace result final, step item workspace = .ok result final →
      answer workspace.context item result ∧ final.context = workspace.context)
    {items : List α} {results : List β} (ran : items.mapM step workspace = .ok results final) :
    List.Forall₂ (answer workspace.context) items results ∧
      final.context = workspace.context := by
  induction items generalizing workspace results with
  | nil =>
      obtain ⟨rfl, rfl⟩ := pure_eq_ok ran
      exact ⟨.nil, rfl⟩
  | cons item items ih =>
      obtain ⟨result, later, middle, head, tail, rfl⟩ := mapM_cons_eq_ok ran
      obtain ⟨headAnswer, headSame⟩ := answers _ _ _ _ head
      obtain ⟨tailAnswers, tailSame⟩ := ih tail
      rw [headSame] at tailAnswers tailSame
      exact ⟨.cons headAnswer tailAnswers, tailSame⟩

/-- What each round of a loop carries on holds when the loop is done. -/
theorem foldlM_eq_ok {β : Type} {step : β → α → Lowering β}
    {invariant : List α → β → Workspace → Prop}
    (rounds : ∀ {done item state workspace next final}, invariant done state workspace →
      step state item workspace = .ok next final → invariant (done ++ [item]) next final)
    {items done : List α} {state result : β} (before : invariant done state workspace)
    (ran : items.foldlM step state workspace = .ok result final) :
    invariant (done ++ items) result final := by
  induction items generalizing done state workspace with
  | nil =>
      obtain ⟨rfl, rfl⟩ := pure_eq_ok ran
      rwa [List.append_nil]
  | cons item items ih =>
      rw [List.foldlM_cons] at ran
      obtain ⟨next, middle, round, later⟩ := bind_eq_ok ran
      rw [List.append_cons]
      exact ih (rounds before round) later

theorem mapM_lookup_eq_ok {names : List String} {buffers : List Buffer}
    (ran : names.mapM lookup workspace = .ok buffers final) :
    buffers = names.filterMap workspace.context.find? ∧ final.context = workspace.context := by
  obtain ⟨found, same⟩ := mapM_eq_ok (fun context name buffer => context.find? name = some buffer)
    (fun _ _ _ _ ran => (lookup_eq_ok ran).imp id (congrArg Workspace.context)) ran
  refine ⟨?_, same⟩
  clear ran
  induction found with
  | nil => rfl
  | cons head _ ih => rw [List.filterMap_cons_some head, ih]

/-- Writing the text of a block leaves the context alone. -/
theorem renderBlock_eq_ok {block : Block} {text : String}
    (ran : renderBlock block workspace = .ok text final) : final.context = workspace.context := by
  obtain ⟨texts, middle, rendered, ran⟩ := bind_eq_ok ran
  obtain ⟨-, rfl⟩ := pure_eq_ok ran
  have leaves : ∀ fragment workspace text final, render fragment workspace = .ok text final →
      True ∧ final.context = workspace.context := by
    intro fragment workspace text final ran
    obtain ⟨parsed, middle, reading, ran⟩ := bind_eq_ok ran
    obtain ⟨-, rfl⟩ := ask_eq_ok ran
    exact ⟨trivial, (read_eq_ok reading).2⟩
  exact (mapM_eq_ok (fun _ _ _ => True) leaves rendered).2

end Lowering

/-! ### References -/

/-- The buffers that a fragment touches; none if its template cannot be read. -/
def Fragment.touched (fragment : Fragment) (context : Context) : List String :=
  match Template.parse fragment.template.source with
  | .ok parsed => parsed.touched context fragment.bindings
  | .error _ => []

/-- The references of a block in a context. -/
def Block.references (block : Block) (context : Context) (query : ReferenceQuery) :
    List String :=
  context.referencesAmong query
    (block.fragments.flatMap (·.touched context) ++ block.tiledBuffers context)

namespace Lowering

variable {workspace final : Workspace}

theorem touched_eq_ok {fragment : Fragment} {names : List String}
    (ran : touched fragment workspace = .ok names final) :
    names = fragment.touched workspace.context ∧ final.context = workspace.context := by
  obtain ⟨parsed, middle, reading, ran⟩ := bind_eq_ok ran
  obtain ⟨readable, same⟩ := read_eq_ok reading
  obtain ⟨answer, rfl⟩ := ask_eq_ok ran
  refine ⟨?_, same⟩
  rw [Fragment.touched, readable, ← same]
  exact (Except.ok.inj answer).symm

theorem references_eq_ok {block : Block} {query : ReferenceQuery} {names : List String}
    (ran : references block query workspace = .ok names final) :
    names = block.references workspace.context query ∧ final.context = workspace.context := by
  obtain ⟨lists, middle, listing, ran⟩ := bind_eq_ok ran
  obtain ⟨answer, rfl⟩ := ask_eq_ok ran
  obtain ⟨touched, same⟩ := mapM_eq_ok (fun context fragment names =>
    names = fragment.touched context) (fun _ _ _ _ ran => touched_eq_ok ran) listing
  refine ⟨?_, same⟩
  have flattened : lists.flatten = block.fragments.flatMap (·.touched workspace.context) := by
    clear listing answer ran
    generalize block.fragments = fragments at touched ⊢
    induction touched with
    | nil => rfl
    | cons head _ ih => rw [List.flatten_cons, List.flatMap_cons, head, ih]
  rw [flattened, same] at answer
  exact (Except.ok.inj answer).symm

end Lowering

end TensorLowering
