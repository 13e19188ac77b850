import TensorLowering.Proofs.ClosureReferences
import TensorLowering.Proofs.LifetimePhases
import TensorLowering.Proofs.ScheduleSteps

/-! # Structs of closures

Structs are no arguments of a closure, and the code that calls it refers to no struct but its own.
So declaring the structs of that code declares the struct of the closure only, and another struct
that the block uses is declared exactly if the block does so itself
(`TensorLowering.Pipeline.struct_initialised_iff`).
-/

namespace TensorLowering

/-- A fragment declares a struct buffer with its value. -/
def Fragment.Initialises (fragment : Fragment) (name : String) : Prop :=
  fragment.template = structTemplate ∧ fragment.subject? = some name

instance (fragment : Fragment) (name : String) : Decidable (fragment.Initialises name) :=
  inferInstanceAs (Decidable (_ ∧ _))

/-! ### Declared structs -/

theorem structCode_eq_ok {types : Registry} {buffer : Buffer} {code : List Fragment}
    (made : structCode structTemplate types buffer = .ok code) (name : String) :
    (∃ fragment ∈ code, fragment.Initialises name) ↔
      buffer.isStruct = true ∧ buffer.name = name := by
  unfold structCode at made
  split at made
  · next value kind =>
      have struct : buffer.isStruct = true := by rw [Buffer.isStruct, kind]
      simp only [bind, Except.bind] at made
      split at made
      · cases made
      · split at made
        · cases made
        · cases made
          simp [struct, Fragment.Initialises, Fragment.subject?, Dict.ofList, Dict.find?_insert,
            Binding.name?]
  · next plain =>
      cases made
      have noStruct : buffer.isStruct = false := by
        unfold Buffer.isStruct
        split
        · next value kind => exact absurd kind (plain value)
        · rfl
      simp [noStruct]

namespace Lowering

variable {workspace final : Workspace}

/-- The structs among some buffers are declared, and nothing else. -/
theorem declareStructs_eq_ok {names : List String} {code : List Fragment}
    (ran : declareStructs structTemplate names workspace = .ok code final) :
    final.context = workspace.context ∧ ∀ name, (∃ fragment ∈ code, fragment.Initialises name) ↔
      name ∈ names ∧ (workspace.context.find? name).any Buffer.isStruct = true := by
  induction names generalizing final code with
  | nil =>
      obtain ⟨rfl, rfl⟩ := pure_eq_ok ran
      exact ⟨rfl, by simp⟩
  | cons head names ih =>
      obtain ⟨later, middle, laterRan, afterLater⟩ := bind_eq_ok ran
      obtain ⟨buffer, looked, looking, afterLook⟩ := bind_eq_ok afterLater
      obtain ⟨found, rfl⟩ := lookup_eq_ok looking
      obtain ⟨own, coded, coding, answered⟩ := bind_eq_ok afterLook
      obtain ⟨structured, rfl⟩ := ask_eq_ok coding
      obtain ⟨rfl, rfl⟩ := pure_eq_ok answered
      obtain ⟨same, declared⟩ := ih laterRan
      refine ⟨same, fun name => ?_⟩
      rw [same] at found
      have named := Context.name_of_find? found
      have ownDeclared := structCode_eq_ok structured name
      constructor
      · rintro ⟨fragment, member, initialises⟩
        rcases List.mem_append.mp member with member | member
        · obtain ⟨struct, rfl⟩ := ownDeclared.mp ⟨fragment, member, initialises⟩
          rw [named, found]
          exact ⟨List.mem_cons_self, struct⟩
        · exact ((declared name).mp ⟨fragment, member, initialises⟩).imp_left
            (List.mem_cons_of_mem _)
      · rintro ⟨listed, struct⟩
        rcases List.mem_cons.mp listed with rfl | listed
        · rw [found] at struct
          obtain ⟨fragment, member, initialises⟩ := ownDeclared.mpr ⟨struct, named⟩
          exact ⟨fragment, List.mem_append_left _ member, initialises⟩
        · obtain ⟨fragment, member, initialises⟩ := (declared name).mpr ⟨listed, struct⟩
          exact ⟨fragment, List.mem_append_right _ member, initialises⟩

/-- Declaring the structs of a block puts their declarations before its code. -/
theorem initializeStructs_eq_ok {block output : Block}
    (ran : initializeStructs structTemplate block workspace = .ok output final) :
    final.context = workspace.context ∧ ∀ name,
      (∃ fragment ∈ output.fragments, fragment.Initialises name) ↔
        (name ∈ block.references workspace.context .unrolled ∧
          (workspace.context.find? name).any Buffer.isStruct = true) ∨
        ∃ fragment ∈ block.fragments, fragment.Initialises name := by
  obtain ⟨names, listed, listing, afterNames⟩ := bind_eq_ok ran
  obtain ⟨code, declared, declaring, answered⟩ := bind_eq_ok afterNames
  obtain ⟨rfl, rfl⟩ := pure_eq_ok answered
  obtain ⟨namesAre, sameListed⟩ := references_eq_ok listing
  obtain ⟨sameDeclared, initialised⟩ := declareStructs_eq_ok declaring
  refine ⟨sameDeclared.trans sameListed, fun name => ?_⟩
  rw [← namesAre, ← sameListed, ← initialised name, Block.prepend]
  simp only [List.mem_append, or_and_right, exists_or]

end Lowering

/-! ### Structs that a closure leaves behind -/

namespace Registers

variable {args : String} {value : TypedValue} {start final : Context}

theorem kind_args (registers : Registers args value start final) :
    (final.find? args).map Buffer.kind = some (.struct value) := by
  cases registers with
  | kept present => exact present
  | added _ put | replaced _ put =>
      rw [Context.eq_push_of_add_ofStruct put]
      exact congrArg (Option.map Buffer.kind) (Context.find?_push_locals _ _)

/-- Registering the struct of a closure keeps the kinds of other buffers. -/
theorem kind_other (registers : Registers args value start final) {other : String}
    (different : args ≠ other) :
    (final.find? other).map Buffer.kind = (start.find? other).map Buffer.kind := by
  cases registers with
  | kept _ => rfl
  | added _ put => rw [Context.eq_push_of_add_ofStruct put, Context.find?_push_of_ne _ different]
  | replaced removed put =>
      rw [Context.eq_push_of_add_ofStruct put, Context.find?_push_of_ne _ different]
      obtain ⟨-, rfl | ⟨target, rfl⟩⟩ := Context.remove_cases removed
      · rw [Context.find?_drop_of_ne _ different.symm]
      · have shape : Context.SameShape ((start.drop args).modify target (·.dropAlias args))
            (start.drop args) :=
          Context.sameShape_modify _ target fun _ => rfl
        rw [shape.kind_eq, Context.find?_drop_of_ne _ different.symm]

/-- A deployed local buffer that has the name of the struct makes way for such a buffer only. -/
theorem exists_deployed (registers : Registers args value start final)
    (present : ∃ buffer ∈ start.locals.entries, buffer.deploy = true ∧ buffer.name = args) :
    ∃ buffer ∈ final.locals.entries, buffer.deploy = true ∧ buffer.name = args := by
  cases registers with
  | kept _ => exact present
  | added _ put | replaced _ put =>
      rw [Context.eq_push_of_add_ofStruct put]
      exact ⟨_, List.mem_append_right _ List.mem_cons_self, rfl, rfl⟩

end Registers

theorem Context.SameShape.exists_deployed {first second : Context} (same : SameShape first second)
    {name : String}
    (present : ∃ buffer ∈ first.locals.entries, buffer.deploy = true ∧ buffer.name = name) :
    ∃ buffer ∈ second.locals.entries, buffer.deploy = true ∧ buffer.name = name := by
  obtain ⟨buffer, listed, deployed, rfl⟩ := present
  have shaped := List.mem_map_of_mem (f := Buffer.shape) listed
  rw [same.locals] at shaped
  obtain ⟨other, otherListed, shapes⟩ := List.mem_map.mp shaped
  exact ⟨other, otherListed, (congrArg (·.2.2) shapes).trans deployed, congrArg Prod.fst shapes⟩

namespace MadeClosure

variable {options : ClosureOptions} {block wrapped : Block} {start : Workspace} {final : Context}
  {names : ClosureNames} {fields : List ClosureField} {body : ClosureBody}

/-- The arguments of a closure are no structs. -/
theorem plain_of_mem_fields
    (made : MadeClosure options block start wrapped final names fields body) {name : String}
    (listed : name ∈ fields.map ClosureField.name) :
    ∃ buffer, start.context.find? name = some buffer ∧ buffer.isStruct = false := by
  rw [made.fields_eq, ClosureOptions.map_name_arguments] at listed
  obtain ⟨-, chosen⟩ := List.mem_filter.mp listed
  obtain ⟨buffer, found, plain⟩ := (Option.any_eq_true _ _).mp chosen
  exact ⟨buffer, found, by simpa using (Bool.and_eq_true_iff.mp plain).1⟩

/-- Making a closure keeps the kinds of all buffers but its struct. -/
theorem kind_other (made : MadeClosure options block start wrapped final names fields body)
    {other : String} (different : names.args ≠ other) :
    (final.find? other).map Buffer.kind = (start.context.find? other).map Buffer.kind := by
  obtain ⟨prior, value, after, priorShape, -, registers, finalShape⟩ := made.registered
  rw [finalShape.kind_eq, registers.kind_other different, priorShape.kind_eq]

theorem isStruct_eq_false_of_mem_fields
    (made : MadeClosure options block start wrapped final names fields body) {name : String}
    (listed : name ∈ fields.map ClosureField.name) (different : names.args ≠ name) :
    (final.find? name).any Buffer.isStruct = false := by
  obtain ⟨buffer, found, plain⟩ := made.plain_of_mem_fields listed
  have kinds := made.kind_other different
  rw [found] at kinds
  obtain ⟨other, otherFound, kind⟩ := Option.map_eq_some_iff.mp kinds
  rw [otherFound, Option.any_some, Buffer.isStruct, kind]
  exact plain

/-- The code that calls a closure touches the struct and the arguments of the closure. -/
theorem mem_spread_final (made : MadeClosure options block start wrapped final names fields body)
    (usual : options.templates.call = ({} : ClosureTemplates).call) (name : String) :
    name ∈ final.spread .unrolled (wrapped.named final) ↔
      name = names.args ∨ name ∈ fields.map ClosureField.name ∧ final.isBuffer name = true := by
  obtain ⟨prior, value, after, -, valued, registers, finalShape⟩ := made.registered
  refine made.mem_spread usual valued ?_ (fun other listed different => ?_) name
  · rw [finalShape.kind_eq, registers.kind_args]
  · have plain := made.isStruct_eq_false_of_mem_fields listed (Ne.symm different)
    cases found : final.find? other with
    | none => rw [Context.pointees, found]; rfl
    | some buffer =>
        rw [found] at plain
        exact Context.pointees_of_plain found plain

/-- Of structs, the code that calls a closure refers to that of the closure only. -/
theorem eq_args_of_struct
    (made : MadeClosure options block start wrapped final names fields body)
    (usual : options.templates.call = ({} : ClosureTemplates).call) {name : String}
    (member : name ∈ wrapped.references final .unrolled)
    (struct : (final.find? name).any Buffer.isStruct = true) : name = names.args := by
  rw [Block.references, Context.referencesAmong_unrolled, ← Block.named] at member
  obtain ⟨buffer, listed, rfl⟩ := List.mem_map.mp member
  obtain ⟨-, chosen⟩ := List.mem_filter.mp listed
  rw [Bool.and_eq_true, List.contains_iff_mem, made.mem_spread_final usual] at chosen
  rcases chosen.2 with same | ⟨argument, -⟩
  · exact same
  · by_contra different
    rw [made.isStruct_eq_false_of_mem_fields argument (Ne.symm different)] at struct
    exact Bool.false_ne_true struct

/-- If a block refers to a buffer with the name of the struct of its closure, then so does the code
that calls the closure, and it is the struct. -/
theorem args_mem_references
    (made : MadeClosure options block start wrapped final names fields body)
    (usual : options.templates.call = ({} : ClosureTemplates).call)
    (member : names.args ∈ block.references start.context .unrolled) :
    names.args ∈ wrapped.references final .unrolled ∧
      (final.find? names.args).any Buffer.isStruct = true := by
  obtain ⟨prior, value, after, priorShape, -, registers, finalShape⟩ := made.registered
  constructor
  · have present := registers.exists_deployed
      (priorShape.symm.exists_deployed (Context.exists_of_mem_references member))
    obtain ⟨buffer, listed, deployed, named⟩ := finalShape.symm.exists_deployed present
    rw [Block.references, Context.referencesAmong_unrolled, ← Block.named]
    refine List.mem_map.mpr ⟨buffer, List.mem_filter.mpr ⟨listed, ?_⟩, named⟩
    rw [deployed, Bool.true_and, List.contains_iff_mem, made.mem_spread_final usual]
    exact .inl named
  · have kind := registers.kind_args
    rw [← finalShape.kind_eq] at kind
    obtain ⟨struct, found, kind⟩ := Option.map_eq_some_iff.mp kind
    rw [found, Option.any_some, Buffer.isStruct, kind]

/-- The usual code that calls a closure declares no struct. -/
theorem not_initialises_wrapped
    (made : MadeClosure options block start wrapped final names fields body)
    (usual : options.templates = {}) (name : String) :
    ¬ ∃ fragment ∈ wrapped.fragments, fragment.Initialises name := by
  rintro ⟨fragment, listed, template, -⟩
  rw [made.wrapped_eq, usual] at listed
  rcases List.mem_cons.mp listed with rfl | returned
  · change ({} : ClosureTemplates).call = structTemplate at template
    exact absurd template (by decide)
  · obtain ⟨field, -, rfl⟩ := List.mem_map.mp returned
    change ({} : ClosureTemplates).writeBack = structTemplate at template
    exact absurd template (by decide)

/-- The usual code that gives and returns storage in the body declares no struct. -/
theorem not_initialises_around
    (made : MadeClosure options block start wrapped final names fields body)
    (usual : options.memory = {}) (name : String) {fragment : Fragment}
    (listed : fragment ∈ body.before ∨ fragment ∈ body.after) : ¬ fragment.Initialises name := by
  rintro ⟨template, -⟩
  rcases listed with before | after
  · obtain ⟨types, buffer, allocates⟩ := made.before_eq fragment before
    rw [(LifetimeTemplates.allocation_eq_ok allocates).template_eq, usual] at template
    split at template
    · exact absurd template (by decide)
    · exact absurd template (by decide)
  · obtain ⟨types, buffer, releases⟩ := made.after_eq fragment after
    rw [(LifetimeTemplates.release_eq_ok releases).template_eq, usual] at template
    exact absurd template (by decide)

end MadeClosure

namespace Pipeline

/-- **Which structs are declared.** After closures have been made, declaring structs declares
those of closures only. A struct that a block refers to is declared, before the call of its closure
or in the body, exactly if it is the struct of the closure or the block declares it itself. -/
theorem struct_initialised_iff {writeBack annotate : Bool} {window : Option LevelWindow}
    {operation : String} {block output : Block} {start final : Workspace}
    (ran : run [.closures { writeBack, window }, .structs none] annotate operation block start =
      .ok output final) :
    let names := ClosureNames.ofOperation operation start.context
    (∀ name, (∃ fragment ∈ output.fragments, fragment.Initialises name) → name = names.args) ∧
    ∃ body : ClosureBody, body.Hoisted {} names final.context ∧
      (∃ rest, Lowering.renderBlock block start = .ok body.code rest) ∧
      ∀ name ∈ block.references start.context .unrolled,
        ((∃ fragment ∈ output.fragments ++ (body.before ++ block.fragments ++ body.after),
          fragment.Initialises name) ↔
            name = names.args ∨ ∃ fragment ∈ block.fragments, fragment.Initialises name) := by
  intro names
  obtain ⟨wrapped, middle, closing, later⟩ := runFrom_cons_eq_ok ran
  have declaring := runFrom_singleton_eq_ok later
  obtain ⟨fields, body, made⟩ := Lowering.makeClosure_eq_ok closing
  obtain ⟨sameFinal, initialised⟩ := Lowering.initializeStructs_eq_ok declaring
  have declaredOnly : ∀ name, (∃ fragment ∈ output.fragments, fragment.Initialises name) ↔
      name ∈ wrapped.references middle.context .unrolled ∧
        (middle.context.find? name).any Buffer.isStruct = true := by
    intro name
    rw [initialised, or_iff_left]
    exact made.not_initialises_wrapped rfl name
  have ownOnly : ∀ name, (∃ fragment ∈ output.fragments, fragment.Initialises name) →
      name = names.args := by
    intro name declared
    obtain ⟨member, struct⟩ := (declaredOnly name).mp declared
    exact made.eq_args_of_struct rfl member struct
  refine ⟨ownOnly, body, sameFinal ▸ made.hoisted, made.rendered, fun name member => ?_⟩
  constructor
  · rintro ⟨fragment, listed, initialises⟩
    rw [List.mem_append, List.mem_append, List.mem_append] at listed
    rcases listed with called | (before | own) | after
    · exact .inl (ownOnly name ⟨fragment, called, initialises⟩)
    · exact absurd initialises (made.not_initialises_around rfl name (.inl before))
    · exact .inr ⟨fragment, own, initialises⟩
    · exact absurd initialises (made.not_initialises_around rfl name (.inr after))
  · rintro (rfl | ⟨fragment, listed, initialises⟩)
    · obtain ⟨fragment, listed, initialises⟩ :=
        (declaredOnly _).mpr (made.args_mem_references rfl member)
      exact ⟨fragment, List.mem_append_left _ listed, initialises⟩
    · exact ⟨fragment, by simp [listed], initialises⟩

/-- A tensor and two structs with a pointer to it. -/
def pairContext : Context where
  types := { kinds := [.float 32 23 8, .pointer ⟨0⟩, .struct "pair_t" [("p", ⟨1⟩)]] }
  locals := ⟨[
    { name := "x", type := ⟨0⟩, size := 64 },
    .ofStruct "s" ⟨⟨2⟩, .struct [("p", .pointer (some "x"))]⟩ 4,
    .ofStruct "t" ⟨⟨2⟩, .struct [("p", .pointer (some "x"))]⟩ 4]⟩

/-- A kernel on both structs; the second one is declared before it. -/
def pairBlock : Block := .ofFragments [
  { template := structTemplate
    bindings := .ofList
      [("name", .name "t"), ("type", .code "pair_t"), ("value", .code "\x7b .p = x \x7d")] },
  .ofSource "k(&${a}, &${b});" [("a", .name "s"), ("b", .name "t")]]

theorem struct_initialised_iff_pairBlock :
    ∃ output final body,
      run [.closures {}, .structs none] false "k" pairBlock { context := pairContext } =
        .ok output final ∧
      ClosureBody.Hoisted body {} ⟨"k_closure"⟩ final.context ∧
      (¬ ∃ fragment ∈ output.fragments ++ (body.before ++ pairBlock.fragments ++ body.after),
        fragment.Initialises "s") ∧
      ∃ fragment ∈ output.fragments ++ (body.before ++ pairBlock.fragments ++ body.after),
        fragment.Initialises "t" := by
  have succeeds : observe (run [.closures {}, .structs none] false "k" pairBlock)
      (fun _ _ => ()) { context := pairContext } = some () := by
    decide +kernel
  have names : ClosureNames.ofOperation "k" pairContext = ⟨"k_closure"⟩ := by decide +kernel
  have references : pairBlock.references pairContext .unrolled = ["x", "s", "t"] := by
    decide +kernel
  obtain ⟨output, final, ran, -⟩ := exists_of_observe succeeds
  obtain ⟨-, body, hoisted, -, initialised⟩ := struct_initialised_iff ran
  rw [references, names] at initialised
  refine ⟨output, final, body, ran, names ▸ hoisted, ?_, ?_⟩
  · rw [initialised "s" (by decide)]
    decide +kernel
  · rw [initialised "t" (by decide)]
    decide +kernel

/-- A kernel on the first struct. -/
def bareBlock : Block := .ofFragments [.ofSource "k(&${a});" [("a", .name "s")]]

/-- The struct that the kernel takes is declared neither before the call of the closure nor in its
body. -/
theorem bareBlock_undeclared :
    "s" ∈ bareBlock.references pairContext .unrolled ∧
    (pairContext.find? "s").any Buffer.isStruct = true ∧
    ∃ output final,
      run [.closures {}, .structs none] false "k" bareBlock { context := pairContext } =
        .ok output final ∧
      (∀ fragment ∈ output.fragments, ¬ fragment.Initialises "s") ∧
      final.context.definitions.map Definition.code =
        ["typedef struct \x7b\n    float* x;\n\x7d k_closure_args_t;",
          "static void k_closure(void* closure_args) \x7b\n" ++
            "    k_closure_args_t* args = (k_closure_args_t*)closure_args;\n" ++
            "    float* x = args->x;\n    k(&s);\n\x7d"] := by
  have evaluated : observe (run [.closures {}, .structs none] false "k" bareBlock)
      (fun output final => (output.fragments.map Fragment.subject?,
        final.context.definitions.map Definition.code)) { context := pairContext } =
      some ([some "k_closure_args", none],
        ["typedef struct \x7b\n    float* x;\n\x7d k_closure_args_t;",
          "static void k_closure(void* closure_args) \x7b\n" ++
            "    k_closure_args_t* args = (k_closure_args_t*)closure_args;\n" ++
            "    float* x = args->x;\n    k(&s);\n\x7d"]) := by
    decide +kernel
  obtain ⟨output, final, ran, seen⟩ := exists_of_observe evaluated
  obtain ⟨subjects, definitions⟩ := Prod.mk.inj seen
  refine ⟨by decide +kernel, by decide +kernel, output, final, ran, ?_, definitions⟩
  rintro fragment listed ⟨-, subject⟩
  have member := List.mem_map_of_mem (f := Fragment.subject?) listed
  rw [subjects, subject] at member
  exact absurd member (by decide)

end Pipeline

end TensorLowering
