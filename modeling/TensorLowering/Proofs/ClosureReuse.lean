import TensorLowering.Proofs.ClosureReferences

/-! # Closures that are made again

Making a closure lists types, gives an identifier, registers a struct buffer and hoists code. Making
it again finds all of this and changes nothing (`TensorLowering.Lowering.makeClosure_again`): the
new struct buffer may be touched by the block, but it leads to nothing that the block did not refer
to before.
-/

namespace TensorLowering

open Relation

/-! ### Steps that stay -/

namespace Lowering

/-- A step stays in a context: it succeeds there with an answer and leaves the context alone. -/
def Stays {α : Type} (step : Lowering α) (context : Context) (answer : α) : Prop :=
  ∀ sources, ∃ seen, step { context, sources } = .ok answer { context, sources := seen }

section Rules

variable {α β : Type} {context : Context}

theorem stays_pure (answer : α) : Stays (pure answer) context answer :=
  fun sources => ⟨sources, rfl⟩

theorem Stays.bind {first : Lowering α} {next : α → Lowering β} {answer : α} {result : β}
    (stays : Stays first context answer) (later : Stays (next answer) context result) :
    Stays (first >>= next) context result := by
  intro sources
  obtain ⟨middle, firstRan⟩ := stays sources
  obtain ⟨seen, nextRan⟩ := later middle
  exact ⟨seen, (bind_of_ok firstRan next).trans nextRan⟩

theorem stays_ask {question : Context → Except Error α} {answer : α}
    (asked : question context = .ok answer) : Stays (ask question) context answer := by
  intro sources
  exact ⟨sources, by rw [ask, asked]⟩

theorem stays_change {step : Context → α × Context} {answer : α}
    (same : step context = (answer, context)) : Stays (change step) context answer := by
  intro sources
  exact ⟨sources, by rw [change, same]⟩

theorem stays_attempt {step : Context → Except Error (α × Context)} {answer : α}
    (same : step context = .ok (answer, context)) : Stays (attempt step) context answer := by
  intro sources
  exact ⟨sources, by rw [attempt, same]⟩

theorem stays_mapM {step : α → Lowering β} {items : List α} {results : List β}
    (each : List.Forall₂ (fun item result => Stays (step item) context result) items results) :
    Stays (items.mapM step) context results := by
  induction each with
  | nil => exact stays_pure []
  | cons head _ ih =>
      rw [List.mapM_cons]
      exact head.bind (ih.bind (stays_pure _))

end Rules

section Reading

variable (context : Context)

theorem stays_read {template : Template} {parsed : Parsed}
    (reads : Template.parse template.source = .ok parsed) :
    Stays (read template) context parsed := by
  intro sources
  exact read_of_readable reads { context, sources }

theorem stays_render {fragment : Fragment} {text : String} (renders : fragment.Renders text) :
    Stays (render fragment) context text := by
  obtain ⟨parsed, reads, rendered⟩ := renders
  refine (stays_read context reads).bind (stays_ask ?_)
  rw [rendered]
  rfl

/-- The text of a block does not depend on the context. -/
theorem stays_renderBlock {block : Block} {code : String} {workspace final : Workspace}
    (ran : renderBlock block workspace = .ok code final) :
    Stays (renderBlock block) context code := by
  obtain ⟨texts, middle, rendering, answered⟩ := bind_eq_ok ran
  obtain ⟨rfl, -⟩ := pure_eq_ok answered
  obtain ⟨rendered, -⟩ := mapM_eq_ok (fun _ fragment text => fragment.Renders text)
    (fun _ _ _ _ ran => render_eq_ok ran) rendering
  refine (stays_mapM (rendered.imp fun _ _ renders => ?_)).bind (stays_pure _)
  exact stays_render context renders

theorem stays_references {block : Block}
    (readable : ∀ fragment ∈ block.fragments, fragment.Readable) (query : ReferenceQuery) :
    Stays (references block query) context (block.references context query) := by
  intro sources
  obtain ⟨⟨after, seen⟩, ran⟩ := references_of_readable readable query { context, sources }
  obtain rfl : after = context := (references_eq_ok ran).2
  exact ⟨seen, ran⟩

theorem stays_lookups (names : List String)
    (known : ∀ name ∈ names, context.isBuffer name = true) :
    Stays (names.mapM lookup) context (names.filterMap context.find?) := by
  induction names with
  | nil => exact stays_pure []
  | cons name names ih =>
      obtain ⟨here, later⟩ := List.forall_mem_cons.mp known
      obtain ⟨buffer, found⟩ := Option.isSome_iff_exists.mp ((context.isBuffer_iff name).mp here)
      have looked : Stays (lookup name) context buffer :=
        stays_ask (by rw [Context.lookup, found])
      rw [List.mapM_cons, List.filterMap_cons_some found]
      exact looked.bind ((ih later).bind (stays_pure _))

end Reading

/-! ### What was registered is found again -/

variable {workspace final : Workspace} {context : Context}

theorem stays_intern {kind : TypeKind} {type : TypeId} (lists : context.types.Lists kind type) :
    Stays (intern (·.intern kind)) context type := by
  apply stays_change
  simp only [lists.intern_eq]

theorem stays_mangle {name identifier : String}
    (given : context.mangled.find? name = some identifier) :
    Stays (mangle name) context identifier :=
  stays_change (Context.mangle_of_given given)

theorem stays_hoist {name code : String}
    (hoisted : context.definitions.find? (·.name = name) = some ⟨name, code⟩) :
    Stays (hoist name code) context () := by
  have again : context.hoist name code = .ok (false, context) := by
    rw [Context.hoist, hoisted]
    exact if_pos rfl
  exact (stays_attempt again).bind (stays_pure _)

/-- The types of the arguments stay listed. -/
theorem closureFields_again {void : TypeId} {buffers : List Buffer} {fields : List ClosureField}
    (ran : closureFields void buffers workspace = .ok fields final) :
    workspace.context.types.ListedIn final.context.types ∧
      (final.context.types.ListedIn context.types →
        Stays (closureFields void buffers) context fields) := by
  induction buffers generalizing workspace fields with
  | nil =>
      obtain ⟨rfl, rfl⟩ := pure_eq_ok ran
      exact ⟨fun _ _ lists => lists, fun _ => stays_pure _⟩
  | cons buffer buffers ih =>
      obtain ⟨type, middle, interning, rest⟩ := bind_eq_ok ran
      obtain ⟨rfl, same⟩ := intern_eq_ok interning
      obtain ⟨later, last, laterRan, answered⟩ := bind_eq_ok rest
      obtain ⟨rfl, rfl⟩ := pure_eq_ok answered
      obtain ⟨grows, again⟩ := ih laterRan
      rw [same] at grows
      refine ⟨fun _ _ lists => grows (Registry.listedIn_intern _ _ lists), fun listed => ?_⟩
      refine (stays_intern (listed (grows (Registry.lists_intern _ _)))).bind ?_
      exact (again listed).bind (stays_pure _)

/-- Hoisting code adds it to the definitions, unless it is there. -/
theorem hoist_again {name code : String} (ran : hoist name code workspace = .ok () final) :
    ∃ more, final.context =
        { workspace.context with definitions := workspace.context.definitions ++ more } ∧
      final.context.definitions.find? (·.name = name) = some ⟨name, code⟩ := by
  obtain ⟨isNew, middle, hoisting, answered⟩ := bind_eq_ok ran
  obtain ⟨-, rfl⟩ := pure_eq_ok answered
  have hoisted := attempt_eq_ok hoisting
  unfold Context.hoist at hoisted
  split at hoisted
  · next definition found =>
      split at hoisted
      · next same =>
          have named : definition.name = name := by simpa using List.find?_some found
          obtain ⟨-, unchanged⟩ := Prod.mk.inj (Except.ok.inj hoisted)
          refine ⟨[], by rw [List.append_nil]; exact unchanged.symm, ?_⟩
          rw [← unchanged, found, ← named, ← same]
      · cases hoisted
  · next absent =>
      obtain ⟨-, changed⟩ := Prod.mk.inj (Except.ok.inj hoisted)
      refine ⟨[⟨name, code⟩], changed.symm, ?_⟩
      rw [← changed, List.find?_append, absent]
      simp

theorem hoistClosure_again {templates : ClosureTemplates} {names : ClosureNames}
    {declarations body : List String}
    (ran : hoistClosure templates names declarations body workspace = .ok () final) :
    (∃ definitions, final.context = { workspace.context with definitions }) ∧
      Stays (hoistClosure templates names declarations body) final.context () := by
  obtain ⟨structText, structured, structRendering, afterStruct⟩ := bind_eq_ok ran
  obtain ⟨functionText, rendered, rendering, afterFunction⟩ := bind_eq_ok afterStruct
  obtain ⟨_, structHoisted, structHoisting, hoisting⟩ := bind_eq_ok afterFunction
  obtain ⟨structRenders, structSame⟩ := render_eq_ok structRendering
  obtain ⟨renders, same⟩ := render_eq_ok rendering
  obtain ⟨first, firstIs, structFound⟩ := hoist_again structHoisting
  obtain ⟨second, secondIs, found⟩ := hoist_again hoisting
  rw [same, structSame] at firstIs
  refine ⟨⟨_, secondIs.trans (by rw [firstIs])⟩, ?_⟩
  have structStill : final.context.definitions.find? (·.name = names.argsType) =
      some ⟨names.argsType, structText⟩ := by
    rw [secondIs, List.find?_append, structFound]
    rfl
  refine (stays_render _ structRenders).bind ((stays_render _ renders).bind ?_)
  exact (stays_hoist structStill).bind (stays_hoist found)

/-- The struct of a closure is found again with its type and its value. -/
theorem registerArgs_again {names : ClosureNames} {fields : List ClosureField}
    (ran : registerArgs names fields workspace = .ok () final)
    (free : workspace.context.isBuffer names.args = false) :
    (∃ types value size, value.value = argumentValue fields ∧
        workspace.context.types.ListedIn types ∧
        final.context = { workspace.context with types }.push
          (.ofStruct names.args value size) .locals) ∧
      ∀ context, context.types = final.context.types →
        context.find? names.args = final.context.find? names.args →
          Stays (registerArgs names fields) context () := by
  obtain ⟨structType, interned, interning, afterType⟩ := bind_eq_ok ran
  obtain ⟨types, made, internedIs⟩ := internStruct_eq_ok interning
  obtain ⟨value, valued, making, afterValue⟩ := bind_eq_ok afterType
  obtain ⟨valueMade, rfl⟩ := ask_eq_ok making
  obtain ⟨size, sized, sizing, afterSize⟩ := bind_eq_ok afterValue
  obtain ⟨sizeIs, rfl⟩ := ask_eq_ok sizing
  obtain ⟨registered, looked, looking, afterLook⟩ := bind_eq_ok afterSize
  obtain ⟨found, rfl⟩ := ask_eq_ok looking
  obtain rfl := Except.ok.inj found
  have absent : looked.context.find? names.args = none := by
    rw [← Option.isNone_iff_eq_none, ← Option.isSome_eq_false_iff, ← Bool.not_eq_true,
      ← Context.isBuffer_iff, internedIs]
    exact Bool.eq_false_iff.mp free
  have pushed : final.context =
      looked.context.push (.ofStruct names.args value size) .locals := by
    rw [absent, if_pos (by simp)] at afterLook
    obtain ⟨_, cleared, discarding, adding⟩ := bind_eq_ok afterLook
    have put := Context.eq_push_of_add_ofStruct (add_eq_ok adding)
    obtain ⟨-, same⟩ | ⟨old, removed⟩ := discardBuffer_eq_ok discarding
    · rwa [same] at put
    · have present := (Context.remove_cases removed).1
      rw [absent] at present
      cases present
  refine ⟨⟨types, value, size, congrArg TypedValue.value (Registry.make_eq_ok valueMade),
    Registry.listedIn_struct made, by rw [pushed, internedIs]⟩, ?_⟩
  intro context typesSame foundSame
  have typesAre : context.types = types := by rw [typesSame, pushed, internedIs]; rfl
  have structStays : Stays (internChecked (·.struct names.argsType
      (fields.map fun field => (field.name, field.type)))) context structType := by
    have again := Registry.struct_again made
    rw [← typesAre] at again
    apply stays_attempt
    simp only [again, bind, Except.bind, pure, Except.pure]
  have lookedTypes : looked.context.types = context.types := by rw [typesAre, internedIs]
  rw [lookedTypes] at valueMade sizeIs
  refine structStays.bind ((stays_ask valueMade).bind ((stays_ask sizeIs).bind ?_))
  have looks : Stays (ask fun context => .ok (context.find? names.args)) context
      (context.find? names.args) := stays_ask rfl
  refine looks.bind ?_
  have present : (context.find? names.args).map Buffer.kind = some (.struct value) := by
    rw [foundSame, pushed]
    exact congrArg (Option.map Buffer.kind) (Context.find?_push_locals _ _)
  rw [present, if_neg (by simp)]
  exact stays_pure _

theorem stays_liveInside_nil (templates : LifetimeTemplates) (operation : String)
    (context : Context) : Stays (liveInside templates operation []) context ([], []) := by
  have sorted : Stays (ask (·.sortByTargets [])) context [] := stays_ask rfl
  exact sorted.bind ((stays_pure []).bind ((stays_pure []).bind (stays_pure _)))

end Lowering

/-! ### A new struct leads to nothing new -/

theorem Block.mem_named_congr {first second : Context} {name : String}
    (same : first.isBuffer name = second.isBuffer name) (block : Block) :
    name ∈ block.named first ↔ name ∈ block.named second := by
  rw [named, named, List.mem_append, List.mem_append, List.mem_flatMap, List.mem_flatMap]
  simp only [Fragment.mem_touched_iff, same]
  rw [tiledBuffers, tiledBuffers]
  cases block.record with
  | none => rfl
  | some record => simp only [List.mem_filter, same]

namespace Context

theorem isBuffer_push (context : Context) (buffer : Buffer) (scope : Scope) (name : String) :
    (context.push buffer scope).isBuffer name =
      (decide (buffer.name = name) || context.isBuffer name) := by
  rw [Bool.eq_iff_iff, Bool.or_eq_true, decide_eq_true_eq, isBuffer_iff_mem, isBuffer_iff_mem,
    names_eq_map, names_eq_map, ((context.buffers_push_perm buffer scope).map _).mem_iff,
    List.map_cons, List.mem_cons, eq_comm]

theorem isBuffer_of_mem_locals {context : Context} {buffer : Buffer}
    (entry : buffer ∈ context.locals.entries) : context.isBuffer buffer.name = true := by
  rw [isBuffer_iff_mem, names_eq_map]
  exact List.mem_map_of_mem (List.mem_append_left _ entry)

theorem isBuffer_of_mem_references {context : Context} {block : Block} {name : String}
    (member : name ∈ block.references context .unrolled) : context.isBuffer name = true := by
  obtain ⟨buffer, entry, -, rfl⟩ := exists_of_mem_references member
  exact isBuffer_of_mem_locals entry

theorem isBuffer_of_pointsTo {context : Context} {source target : String}
    (points : context.PointsTo source target) :
    context.isBuffer source = true ∧ context.isBuffer target = true := by
  constructor
  · rw [isBuffer_iff_mem]
    by_contra absent
    rw [PointsTo, pointees_of_absent absent] at points
    exact List.not_mem_nil points
  · rw [PointsTo, pointees] at points
    split at points
    · exact (List.mem_filter.mp points).2
    · exact absurd points List.not_mem_nil

section NewStruct

variable {context : Context} {struct : Buffer} {value : TypedValue} {block : Block}

theorem pointsTo_push_iff {source target : String} (apart : struct.name ≠ source)
    (other : struct.name ≠ target) :
    (context.push struct .locals).PointsTo source target ↔ context.PointsTo source target := by
  have sameTarget : (context.push struct .locals).isBuffer target = context.isBuffer target := by
    rw [isBuffer_push, decide_eq_false other, Bool.false_or]
  rw [PointsTo, PointsTo, pointees, pointees, find?_push_of_ne context apart]
  split
  · rw [List.mem_filter, List.mem_filter, sameTarget]
  · rfl

theorem mem_of_pointsTo_push (kind : struct.kind = .struct value) {target : String}
    (points : (context.push struct .locals).PointsTo struct.name target) :
    target ∈ value.value.pointerTargets := by
  rw [PointsTo, pointees, find?_push_locals, Option.map_some, kind] at points
  exact (List.mem_filter.mp points).1

/-- A new struct with pointers to touched buffers adds nothing but itself to what is touched. -/
theorem mem_spread_push (new : context.isBuffer struct.name = false)
    (kind : struct.kind = .struct value)
    (inside : ∀ name ∈ value.value.pointerTargets,
      name ∈ context.spread .unrolled (block.named context))
    {name : String} (different : struct.name ≠ name) :
    name ∈ (context.push struct .locals).spread .unrolled
        (block.named (context.push struct .locals)) ↔
      name ∈ context.spread .unrolled (block.named context) := by
  have sameBuffer : ∀ {other}, struct.name ≠ other →
      (context.push struct .locals).isBuffer other = context.isBuffer other := by
    intro other apart
    rw [isBuffer_push, decide_eq_false apart, Bool.false_or]
  rw [mem_spread_iff _ rfl]
  constructor
  · rintro ⟨source, named, path⟩
    -- On the way only the new struct was not touched before.
    suffices touched :
        struct.name = name ∨ name ∈ context.spread .unrolled (block.named context) from
      touched.resolve_left different
    clear different
    induction path with
    | refl =>
        by_cases same : struct.name = source
        · exact .inl same
        · rw [Block.mem_named_congr (sameBuffer same)] at named
          exact .inr ((mem_spread_iff _ rfl _ _).mpr ⟨source, named, .refl⟩)
    | @tail middle target _ points ih =>
        by_cases same : struct.name = target
        · exact .inl same
        · right
          by_cases atStruct : struct.name = middle
          · exact inside target (mem_of_pointsTo_push kind (atStruct ▸ points))
          · obtain ⟨start, startNamed, startPath⟩ :=
              (mem_spread_iff _ rfl _ _).mp (ih.resolve_left atStruct)
            have step := (pointsTo_push_iff atStruct same).mp points
            exact (mem_spread_iff _ rfl _ _).mpr ⟨start, startNamed, startPath.tail step⟩
  · intro touched
    obtain ⟨source, named, path⟩ := (mem_spread_iff _ rfl _ _).mp touched
    have known : ∀ {other}, context.isBuffer other = true → struct.name ≠ other := by
      rintro _ isBuffer rfl
      exact Bool.false_ne_true (new.symm.trans isBuffer)
    have startApart := known (Block.isBuffer_of_mem_named named)
    refine ⟨source, (Block.mem_named_congr (sameBuffer startApart) block).mpr named, ?_⟩
    clear different touched
    induction path with
    | refl => exact .refl
    | tail _ points ih =>
        obtain ⟨middleKnown, targetKnown⟩ := isBuffer_of_pointsTo points
        exact ih.tail ((pointsTo_push_iff (known middleKnown) (known targetKnown)).mpr points)

/-- So a block refers to what it referred to before, and perhaps to the new struct. -/
theorem references_push (new : context.isBuffer struct.name = false)
    (kind : struct.kind = .struct value)
    (inside : ∀ name ∈ value.value.pointerTargets,
      name ∈ context.spread .unrolled (block.named context)) :
    ∃ own, (own = [] ∨ own = [struct.name]) ∧
      block.references (context.push struct .locals) .unrolled =
        block.references context .unrolled ++ own := by
  let touched := (context.push struct .locals).spread .unrolled
    (block.named (context.push struct .locals))
  refine ⟨([struct].filter fun buffer => buffer.deploy && touched.contains buffer.name).map
    Buffer.name, ?_, ?_⟩
  · rw [List.filter_singleton]
    cases struct.deploy && touched.contains struct.name
    · exact .inl rfl
    · exact .inr rfl
  · rw [Block.references, Block.references, referencesAmong_unrolled, referencesAmong_unrolled,
      ← Block.named, ← Block.named]
    change ((context.locals.entries ++ [struct]).filter _).map Buffer.name = _
    rw [List.filter_append, List.map_append]
    congr 2
    apply List.filter_congr
    intro buffer listed
    have different : struct.name ≠ buffer.name := by
      intro same
      exact Bool.false_ne_true (new.symm.trans (same ▸ isBuffer_of_mem_locals listed))
    rw [Bool.eq_iff_iff, Bool.and_eq_true, Bool.and_eq_true, List.contains_iff_mem,
      List.contains_iff_mem, mem_spread_push new kind inside different]

end NewStruct

end Context

/-! ### The same closure -/

namespace ClosureOptions

variable {options : ClosureOptions} {block : Block} {context : Context}

/-- The block of a closure touches the arguments. -/
theorem mem_spread_of_mem_arguments {name : String}
    (member : name ∈ (options.arguments block context).map Buffer.name) :
    name ∈ context.spread .unrolled (block.named context) := by
  rw [map_name_arguments] at member
  have listed := (List.mem_filter.mp member).1
  rw [Block.references, Context.referencesAmong_unrolled, List.mem_map] at listed
  obtain ⟨buffer, chosen, rfl⟩ := listed
  exact List.contains_iff_mem.mp (Bool.and_eq_true_iff.mp (List.mem_filter.mp chosen).2).2

/-- Without a window all buffers are passed. -/
theorem kept_eq_nil (whole : options.window = none) : options.kept block context = [] := by
  refine List.filter_eq_nil_iff.mpr fun buffer _ => ?_
  simp [admits, whole]

/-- A struct that points to arguments is no new argument. -/
theorem arguments_push {struct : Buffer} {value : TypedValue}
    (new : context.isBuffer struct.name = false) (kind : struct.kind = .struct value)
    (inside : ∀ name ∈ value.value.pointerTargets,
      name ∈ context.spread .unrolled (block.named context)) :
    options.arguments block (context.push struct .locals) = options.arguments block context := by
  obtain ⟨own, ownIs, referencesAre⟩ := Context.references_push new kind inside
  have structDrops : (own.filterMap (context.push struct .locals).find?).filter (!·.isStruct) =
      [] := by
    obtain rfl | rfl := ownIs
    · rfl
    · rw [List.filterMap_cons_some (context.find?_push_locals struct)]
      exact List.filter_cons_of_neg (by simp [Buffer.isStruct, kind])
  have found : (block.references context .unrolled).filterMap (context.push struct .locals).find? =
      (block.references context .unrolled).filterMap context.find? := by
    refine List.filterMap_congr fun name listed => context.find?_push_of_ne ?_ _
    rintro rfl
    exact Bool.false_ne_true (new.symm.trans (Context.isBuffer_of_mem_references listed))
  rw [arguments, arguments, referencesAre, List.filterMap_append, List.filter_append, structDrops,
    List.append_nil, found]

end ClosureOptions

namespace ClosureRun

variable {options : ClosureOptions} {block : Block} {operation : String} {start final : Workspace}

/-- Up to the struct of its arguments a closure lists types and takes a name. -/
theorem named_frame (run : ClosureRun options block operation start final) :
    ∃ mangled, run.named.context =
        { start.context with types := run.filled.context.types, mangled } ∧
      mangled.find? (operation ++ "_closure") =
        some (ClosureNames.ofOperation operation start.context).closure := by
  obtain ⟨types, filledIs⟩ := run.filled_eq
  refine ⟨run.named.context.mangled, ?_, ?_⟩
  · rw [run.named_eq, filledIs, Context.mangle]
    split <;> rfl
  · rw [run.named_eq, Context.given_mangle, filledIs, Context.mangle_types]
    rfl

theorem lived_eq (run : ClosureRun options block operation start final)
    (whole : options.window = none) :
    run.before = [] ∧ run.after = [] ∧ run.lived.context = run.registered.context := by
  have living := run.living
  rw [ClosureOptions.kept_eq_nil whole] at living
  obtain ⟨seen, lives⟩ := Lowering.stays_liveInside_nil options.memory operation
    run.registered.context run.registered.sources
  obtain ⟨texts, lived⟩ := EStateM.Result.ok.inj (living.symm.trans lives)
  obtain ⟨before, after⟩ := Prod.mk.inj texts
  exact ⟨before, after, by rw [lived]⟩

end ClosureRun

namespace Lowering

/-- **A closure is made once.** Where all arguments are passed and no buffer had the name of the
struct, making the same closure again gives the same call and leaves the context as it is. -/
theorem makeClosure_again {options : ClosureOptions} {block wrapped : Block} {operation : String}
    {start final : Workspace} (whole : options.window = none)
    (free : start.context.isBuffer
      (ClosureNames.ofOperation operation start.context).args = false)
    (ran : makeClosure options block operation start = .ok wrapped final) :
    ∀ sources, ∃ seen,
      makeClosure options block operation { context := final.context, sources } =
        .ok wrapped { context := final.context, sources := seen } := by
  obtain ⟨run, rfl⟩ := closureRun_of_makeClosure ran
  obtain ⟨mangled, namedIs, given⟩ := run.named_frame
  obtain ⟨beforeIs, afterIs, livedIs⟩ := run.lived_eq whole
  have newArgs : run.named.context.isBuffer
      (ClosureNames.ofOperation operation start.context).args = false := by
    rw [namedIs]
    exact free
  obtain ⟨⟨types, value, size, valueIs, typesGrow, registeredIs⟩, argsAgain⟩ :=
    registerArgs_again run.registering newArgs
  obtain ⟨⟨definitions, finalIs⟩, hoistsAgain⟩ := hoistClosure_again run.hoisting
  rw [livedIs] at finalIs
  obtain ⟨fieldsGrow, fieldsAgain⟩ := @closureFields_again _ _ final.context _ _ _ run.filling
  -- What was listed before the struct is listed at the end.
  have typesLast : run.filled.context.types.ListedIn final.context.types := by
    rw [finalIs, registeredIs]
    rwa [namedIs] at typesGrow
  have voidListed : run.typed.context.types.Lists .void start.context.types.void.1 := by
    rw [run.typed_eq]
    exact Registry.lists_intern start.context.types .void
  let struct := Buffer.ofStruct (ClosureNames.ofOperation operation start.context).args value size
  have finalFrame : final.context =
      { start.context.push struct .locals with types, mangled, definitions } := by
    rw [finalIs, registeredIs, namedIs]
    rfl
  have sameArguments :
      options.arguments block final.context = options.arguments block start.context := by
    have inside : ∀ name ∈ value.value.pointerTargets,
        name ∈ start.context.spread .unrolled (block.named start.context) := by
      intro name pointed
      rw [valueIs, mem_pointerTargets_argumentValue, (closureFields_eq_ok run.filling).1] at pointed
      exact ClosureOptions.mem_spread_of_mem_arguments pointed
    have shape : Context.SameShape final.context (start.context.push struct .locals) := by
      rw [finalFrame]
      exact ⟨rfl, rfl⟩
    have finds : final.context.find? = (start.context.push struct .locals).find? := by
      rw [finalFrame]
      rfl
    have new : start.context.isBuffer struct.name = false := free
    rw [← ClosureOptions.arguments_push new rfl inside, ClosureOptions.arguments,
      ClosureOptions.arguments, shape.references_eq, finds]
  obtain ⟨rest, rendering⟩ := run.rendering
  refine (stays_renderBlock _ rendering).bind ((stays_references _ run.readable _).bind ?_)
  refine (stays_intern (typesLast (fieldsGrow voidListed))).bind ?_
  refine (stays_lookups _ _ fun _ => Context.isBuffer_of_mem_references).bind ?_
  have fieldsStay := fieldsAgain typesLast
  rw [← sameArguments] at fieldsStay
  refine fieldsStay.bind ?_
  have names : Stays (mangle (operation ++ "_closure")) final.context
      (ClosureNames.ofOperation operation start.context).closure := by
    apply stays_mangle
    rw [finalFrame]
    exact given
  refine names.bind ((argsAgain final.context ?_ ?_).bind ?_)
  · rw [finalIs]
  · rw [finalIs]
    rfl
  have declaring := run.declaring
  have loading := run.loading
  have sameTypes : run.registered.context.types = final.context.types := by rw [finalIs]
  rw [sameTypes] at declaring loading
  refine (stays_ask declaring).bind ((stays_ask loading).bind ?_)
  rw [beforeIs, afterIs] at hoistsAgain
  have lives : Stays (liveInside options.memory operation
      ((options.kept block final.context).map Buffer.name)) final.context ([], []) := by
    rw [ClosureOptions.kept_eq_nil whole]
    exact stays_liveInside_nil _ _ _
  exact lives.bind (hoistsAgain.bind (stays_pure _))

/-- Code that also names the struct that its own closure will have. -/
def selfNamingBlock : Block where
  fragments := [.ofSource "run(&${args}, &${own});"
    [("args", .name "outer"), ("own", .name "run_closure_args")]]

theorem makeClosure_again_selfNamingBlock :
    ∃ wrapped final,
      makeClosure {} selfNamingBlock "run" { context := nestedContext } = .ok wrapped final ∧
      final.context.locals.names = nestedContext.locals.names ++ ["run_closure_args"] ∧
      ∃ seen,
        makeClosure {} selfNamingBlock "run" { context := final.context } =
          .ok wrapped { context := final.context, sources := seen } := by
  have succeeds : observe (makeClosure {} selfNamingBlock "run")
      (fun _ final => final.context.locals.names) { context := nestedContext } =
      some (nestedContext.locals.names ++ ["run_closure_args"]) := by
    decide +kernel
  obtain ⟨wrapped, final, ran, registered⟩ := exists_of_observe succeeds
  have free :
      nestedContext.isBuffer (ClosureNames.ofOperation "run" nestedContext).args = false := by
    decide +kernel
  exact ⟨wrapped, final, ran, registered, @makeClosure_again {} selfNamingBlock wrapped "run"
    { context := nestedContext } final rfl free ran _⟩

end Lowering

end TensorLowering
