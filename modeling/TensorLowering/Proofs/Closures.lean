import TensorLowering.Proofs.AcceptedValues
import TensorLowering.Proofs.Bookkeeping
import TensorLowering.Proofs.FutureEvents
import TensorLowering.Proofs.Identifiers
import TensorLowering.Proofs.LifetimePhases

/-! # Made closures

A closure that was made is taken apart: its arguments, the lines that load them, the code around
the code of the block, the struct buffer that is registered, and the call that takes the place of
the block (`TensorLowering.Lowering.makeClosure_eq_ok`).
-/

namespace TensorLowering

namespace Context

namespace SameShape

variable {first second third : Context}

theorem refl (context : Context) : SameShape context context := ⟨rfl, rfl⟩

theorem symm (same : SameShape first second) : SameShape second first :=
  ⟨same.locals.symm, same.globals.symm⟩

theorem trans (same : SameShape first second) (next : SameShape second third) :
    SameShape first third :=
  ⟨same.locals.trans next.locals, same.globals.trans next.globals⟩

theorem of_atRest_eq (same : first.atRest = second.atRest) : SameShape first second := by
  have middle := (sameShape_atRest first).symm
  rw [same] at middle
  exact middle.trans (sameShape_atRest second)

theorem push (same : SameShape first second) (buffer : Buffer) (scope : Scope) :
    SameShape (first.push buffer scope) (second.push buffer scope) := by
  cases scope with
  | locals =>
      refine ⟨?_, same.globals⟩
      simp only [Context.push, BufferTable.push, List.map_append, same.locals]
  | globals =>
      refine ⟨same.locals, ?_⟩
      simp only [Context.push, BufferTable.push, List.map_append, same.globals]

end SameShape

theorem mangle_types (context : Context) (types : Registry) (name : String) :
    ({ context with types }.mangle name).1 = (context.mangle name).1 := by
  cases given : context.mangled.find? name with
  | none => rw [mangle_of_new given, mangle_of_new (by exact given)]; rfl
  | some identifier => rw [mangle_of_given given, mangle_of_given (by exact given)]

theorem sameShape_mangle (context : Context) (name : String) :
    SameShape (context.mangle name).2 context := by
  unfold mangle
  split <;> exact ⟨rfl, rfl⟩

/-- Bookkeeping keeps the shape of a context. -/
theorem frame_sameShape (origin : Context) : Frame (SameShape · origin) where
  resting same shape := (SameShape.of_atRest_eq same).symm.trans shape
  typed _ shape := ⟨shape.locals, shape.globals⟩
  defined _ shape := ⟨shape.locals, shape.globals⟩
  modified {context} name change keeps shape := by
    refine (sameShape_modify context name fun buffer => ?_).trans shape
    have sameCore := (keeps buffer).1
    rw [Buffer.core, Buffer.core, Buffer.mk.injEq] at sameCore
    rw [Buffer.shape, Buffer.shape]
    grind

end Context

/-- A value that was made has the type that was asked for. -/
theorem Registry.make_eq_ok {registry : Registry} {type : TypeId} {value : Value}
    {typed : TypedValue} (made : registry.make type value = .ok typed) : typed = ⟨type, value⟩ :=
  (make_eq_ok_iff.mp made).1

/-- The template of a fragment can be read. -/
def Fragment.Readable (fragment : Fragment) : Prop :=
  ∃ parsed, Template.parse fragment.template.source = .ok parsed

theorem Fragment.readable_iff {fragment : Fragment} :
    fragment.Readable ↔ (Template.parse fragment.template.source).isOk = true := by
  unfold Readable
  cases Template.parse fragment.template.source <;> simp [Except.isOk, Except.toBool]

/-- A fragment has a text. -/
def Fragment.Renders (fragment : Fragment) (text : String) : Prop :=
  ∃ parsed, Template.parse fragment.template.source = .ok parsed ∧
    parsed.render fragment.template.indirections fragment.bindings = .ok text

namespace Lowering

variable {workspace final : Workspace}

/-! ### Single steps -/

theorem render_eq_ok {fragment : Fragment} {text : String}
    (ran : render fragment workspace = .ok text final) :
    fragment.Renders text ∧ final.context = workspace.context := by
  obtain ⟨parsed, middle, reading, asking⟩ := bind_eq_ok ran
  obtain ⟨readable, same⟩ := read_eq_ok reading
  obtain ⟨rendered, rfl⟩ := ask_eq_ok asking
  refine ⟨⟨parsed, readable, ?_⟩, same⟩
  cases outcome : parsed.render fragment.template.indirections fragment.bindings with
  | error fault => rw [outcome] at rendered; cases rendered
  | ok result => rw [outcome] at rendered; cases rendered; rfl

theorem touched_of_readable {fragment : Fragment} (readable : fragment.Readable)
    (workspace : Workspace) : ∃ final, touched fragment workspace =
      .ok (fragment.touched workspace.context) final ∧ final.context = workspace.context := by
  obtain ⟨parsed, reads⟩ := readable
  obtain ⟨sources, reading⟩ := read_of_readable reads workspace
  refine ⟨{ workspace with sources }, ?_, rfl⟩
  rw [touched, bind_of_ok reading, Fragment.touched, reads]
  rfl

theorem mapM_touched_of_readable {fragments : List Fragment}
    (readable : ∀ fragment ∈ fragments, fragment.Readable) (workspace : Workspace) :
    ∃ final, fragments.mapM touched workspace =
      .ok (fragments.map (·.touched workspace.context)) final ∧
      final.context = workspace.context := by
  induction fragments generalizing workspace with
  | nil => exact ⟨workspace, rfl, rfl⟩
  | cons fragment fragments ih =>
      obtain ⟨headReadable, tailReadable⟩ := List.forall_mem_cons.mp readable
      obtain ⟨middle, head, headSame⟩ := touched_of_readable headReadable workspace
      obtain ⟨final, tail, tailSame⟩ := ih tailReadable middle
      rw [headSame] at tail tailSame
      refine ⟨final, ?_, tailSame⟩
      rw [List.mapM_cons, bind_of_ok head, bind_of_ok tail]
      rfl

/-- The references of a block are found if its templates can be read. -/
theorem references_of_readable {block : Block}
    (readable : ∀ fragment ∈ block.fragments, fragment.Readable) (query : ReferenceQuery)
    (workspace : Workspace) :
    ∃ final, references block query workspace =
      .ok (block.references workspace.context query) final := by
  obtain ⟨final, listing, same⟩ := mapM_touched_of_readable readable workspace
  refine ⟨final, ?_⟩
  rw [references, bind_of_ok listing, ask, Block.references, same, List.flatMap_def]

theorem readable_of_references {block : Block} {query : ReferenceQuery} {names : List String}
    (ran : references block query workspace = .ok names final) :
    ∀ fragment ∈ block.fragments, fragment.Readable := by
  obtain ⟨lists, middle, listing, -⟩ := bind_eq_ok ran
  obtain ⟨read, -⟩ := mapM_eq_ok (fun _ fragment _ => fragment.Readable)
    (fun fragment workspace names final ran => by
      obtain ⟨parsed, middle, reading, asking⟩ := bind_eq_ok ran
      exact ⟨⟨parsed, (read_eq_ok reading).1⟩, (touched_eq_ok ran).2⟩) listing
  clear listing ran
  generalize block.fragments = fragments at read
  induction read with
  | nil => exact fun _ member => absurd member List.not_mem_nil
  | cons head _ ih => exact List.forall_mem_cons.mpr ⟨head, ih⟩

theorem hoist_eq_ok {name code : String} (ran : hoist name code workspace = .ok () final) :
    ⟨name, code⟩ ∈ final.context.definitions := by
  obtain ⟨isNew, middle, hoisting, ran⟩ := bind_eq_ok ran
  obtain ⟨-, rfl⟩ := pure_eq_ok ran
  have hoisted := attempt_eq_ok hoisting
  unfold Context.hoist at hoisted
  split at hoisted
  · next definition listed =>
      split at hoisted
      · next same =>
          have named : definition.name = name := by simpa using List.find?_some listed
          rw [← (Prod.mk.inj (Except.ok.inj hoisted)).2]
          rw [← named, ← same]
          exact List.mem_of_find?_eq_some listed
      · cases hoisted
  · rw [← (Prod.mk.inj (Except.ok.inj hoisted)).2]
    exact List.mem_append_right _ List.mem_cons_self

/-! ### The arguments -/

theorem closureFields_eq_ok {void : TypeId} {buffers : List Buffer} {fields : List ClosureField}
    (ran : closureFields void buffers workspace = .ok fields final) :
    fields.map ClosureField.name = buffers.map Buffer.name ∧
      ∃ types, final.context = { workspace.context with types } := by
  induction buffers generalizing workspace final fields with
  | nil =>
      obtain ⟨rfl, rfl⟩ := pure_eq_ok ran
      exact ⟨rfl, workspace.context.types, rfl⟩
  | cons buffer buffers ih =>
      obtain ⟨type, middle, interning, rest⟩ := bind_eq_ok ran
      obtain ⟨-, same⟩ := intern_eq_ok interning
      obtain ⟨later, last, laterRan, answered⟩ := bind_eq_ok rest
      obtain ⟨rfl, rfl⟩ := pure_eq_ok answered
      obtain ⟨named, types, laterSame⟩ := ih laterRan
      rw [same] at laterSame
      exact ⟨by rw [List.map_cons, List.map_cons, named], types, laterSame⟩

end Lowering

/-- The struct value with a pointer to each argument. -/
def argumentValue (fields : List ClosureField) : Value :=
  .ofFields (fields.map fun field => (field.name, .pointer (some field.name)))

/-- The struct buffer of a closure has been registered: it is there with the value already, or
what had its name with another value is removed and it is added. -/
inductive Registers (args : String) (value : TypedValue) (start : Context) : Context → Prop
  | kept (present : (start.find? args).map Buffer.kind = some (.struct value)) :
      Registers args value start start
  | added {size : Nat} {final : Context} (new : start.isBuffer args = false)
      (put : start.add (.ofStruct args value size) .locals = .ok final) :
      Registers args value start final
  | replaced {size : Nat} {old : Buffer} {cleared final : Context}
      (removed : start.remove args = .ok (old, cleared))
      (put : cleared.add (.ofStruct args value size) .locals = .ok final)
      (differs : (start.find? args).map Buffer.kind ≠ some (.struct value)) :
      Registers args value start final

namespace Lowering

variable {workspace final : Workspace}

theorem internStruct_eq_ok {name : String} {fields : List (String × TypeId)} {type : TypeId}
    (ran : internChecked (·.struct name fields) workspace = .ok type final) :
    ∃ types, workspace.context.types.struct name fields = .ok (type, types) ∧
      final.context = { workspace.context with types } := by
  have made := attempt_eq_ok ran
  cases outcome : workspace.context.types.struct name fields with
  | error error => simp [outcome, bind, Except.bind] at made
  | ok answer =>
      simp only [outcome, bind, Except.bind, pure, Except.pure, Except.ok.injEq,
        Prod.mk.injEq] at made
      exact ⟨answer.2, by rw [← made.1], made.2.symm⟩

theorem registerArgs_eq_ok {names : ClosureNames} {fields : List ClosureField}
    (ran : registerArgs names fields workspace = .ok () final) :
    ∃ types value, value.value = argumentValue fields ∧
      Registers names.args value { workspace.context with types } final.context := by
  obtain ⟨structType, interned, interning, afterType⟩ := bind_eq_ok ran
  obtain ⟨types, -, sameTables⟩ := internStruct_eq_ok interning
  obtain ⟨value, valued, making, afterValue⟩ := bind_eq_ok afterType
  obtain ⟨made, rfl⟩ := ask_eq_ok making
  obtain ⟨size, sized, sizing, afterSize⟩ := bind_eq_ok afterValue
  obtain ⟨-, rfl⟩ := ask_eq_ok sizing
  obtain ⟨registered, looked, looking, afterLook⟩ := bind_eq_ok afterSize
  obtain ⟨found, rfl⟩ := ask_eq_ok looking
  refine ⟨types, value, congrArg TypedValue.value (Registry.make_eq_ok made), ?_⟩
  rw [← sameTables]
  obtain rfl := Except.ok.inj found
  split at afterLook
  · next differs =>
      obtain ⟨_, cleared, discarding, adding⟩ := bind_eq_ok afterLook
      have put := add_eq_ok adding
      obtain ⟨new, same⟩ | ⟨old, removed⟩ := discardBuffer_eq_ok discarding
      · rw [same] at put
        exact .added new put
      · exact .replaced removed put differs
  · next present =>
      obtain ⟨-, rfl⟩ := pure_eq_ok afterLook
      exact .kept (Decidable.not_not.mp present)

/-! ### The code in the body -/

theorem codes_of_render {code : Registry → Buffer → Except Error Fragment} {name text : String}
    {buffer : Buffer} {fragment : Fragment} {looked coded : Workspace}
    (looking : lookup name workspace = .ok buffer looked)
    (coding : askTypes (code · buffer) looked = .ok fragment coded)
    (rendering : render fragment coded = .ok text final) :
    workspace.context.Codes code name fragment ∧ fragment.Renders text ∧
      final.context = workspace.context := by
  obtain ⟨found, rfl⟩ := lookup_eq_ok looking
  obtain ⟨made, rfl⟩ := ask_eq_ok coding
  obtain ⟨renders, same⟩ := render_eq_ok rendering
  exact ⟨⟨buffer, found, made⟩, renders, same⟩

/-- Buffers get storage in their order, and the texts are those of the code for it. -/
theorem allocateInside_eq_ok {templates : LifetimeTemplates} {operation : String}
    {names texts : List String}
    (ran : allocateInside templates operation names workspace = .ok texts final) :
    workspace.context.Allocates names.reverse final.context ∧
      ∃ fragments, List.Forall₂ (workspace.context.Codes templates.allocation) names fragments ∧
        List.Forall₂ Fragment.Renders fragments texts := by
  induction names generalizing workspace final texts with
  | nil =>
      obtain ⟨rfl, rfl⟩ := pure_eq_ok ran
      exact ⟨.nil _, [], .nil, .nil⟩
  | cons name names ih =>
      obtain ⟨_, allocated, allocating, ran⟩ := bind_eq_ok ran
      obtain ⟨buffer, looked, looking, ran⟩ := bind_eq_ok ran
      obtain ⟨fragment, coded, coding, ran⟩ := bind_eq_ok ran
      obtain ⟨text, rendered, rendering, ran⟩ := bind_eq_ok ran
      obtain ⟨later, last, laterRan, ran⟩ := bind_eq_ok ran
      obtain ⟨rfl, rfl⟩ := pure_eq_ok ran
      obtain ⟨made, allocation⟩ := Context.allocation_of_allocate (allocate_eq_ok allocating)
      obtain ⟨codes, renders, same⟩ := codes_of_render looking coding rendering
      obtain ⟨allocates, fragments, laterCodes, laterRender⟩ := ih laterRan
      rw [same] at allocates laterCodes
      have codesBefore := fun name fragment codes =>
        @Context.Codes.congr _ _ allocation.atRest_eq templates.allocation (fun _ _ => rfl) name
          fragment codes
      rw [List.reverse_cons]
      refine ⟨allocates.append (.cons (.nil _) allocation), fragment :: fragments, ?_, ?_⟩
      · exact .cons (codesBefore name fragment codes) (laterCodes.imp codesBefore)
      · exact .cons renders laterRender

theorem renderReleases_eq_ok {templates : LifetimeTemplates} {owners texts : List String}
    (ran : renderReleases templates owners workspace = .ok texts final) :
    final.context = workspace.context ∧
      ∃ fragments, List.Forall₂ (workspace.context.Codes templates.release) owners fragments ∧
        List.Forall₂ Fragment.Renders fragments texts := by
  induction owners generalizing workspace final texts with
  | nil =>
      obtain ⟨rfl, rfl⟩ := pure_eq_ok ran
      exact ⟨rfl, [], .nil, .nil⟩
  | cons owner owners ih =>
      obtain ⟨buffer, looked, looking, ran⟩ := bind_eq_ok ran
      obtain ⟨fragment, coded, coding, ran⟩ := bind_eq_ok ran
      obtain ⟨text, rendered, rendering, ran⟩ := bind_eq_ok ran
      obtain ⟨later, last, laterRan, ran⟩ := bind_eq_ok ran
      obtain ⟨rfl, rfl⟩ := pure_eq_ok ran
      obtain ⟨codes, renders, same⟩ := codes_of_render looking coding rendering
      obtain ⟨laterSame, fragments, laterCodes, laterRender⟩ := ih laterRan
      rw [same] at laterSame laterCodes
      exact ⟨laterSame, fragment :: fragments, .cons codes laterCodes, .cons renders laterRender⟩

/-- Buffers are freed in their order, and the texts are those of the code that returns the storage
of the owners. -/
theorem deallocateInside_eq_ok {templates : LifetimeTemplates} {operation : String}
    {names texts : List String}
    (ran : deallocateInside templates operation names workspace = .ok texts final) :
    ∃ owners fragments,
      (workspace.context.Sound → workspace.context.Frees names owners final.context) ∧
      List.Forall₂ (workspace.context.Codes templates.release) owners fragments ∧
      List.Forall₂ Fragment.Renders fragments texts := by
  induction names generalizing workspace final texts with
  | nil =>
      obtain ⟨rfl, rfl⟩ := pure_eq_ok ran
      exact ⟨[], [], fun _ => .nil _, .nil, .nil⟩
  | cons name names ih =>
      obtain ⟨owners, freed, freeing, ran⟩ := bind_eq_ok ran
      obtain ⟨releases, released, releasing, ran⟩ := bind_eq_ok ran
      obtain ⟨later, last, laterRan, ran⟩ := bind_eq_ok ran
      obtain ⟨rfl, rfl⟩ := pure_eq_ok ran
      have result := deallocate_eq_ok freeing
      obtain ⟨same, first, firstCodes, firstRender⟩ := renderReleases_eq_ok releasing
      obtain ⟨laterOwners, fragments, frees, laterCodes, laterRender⟩ := ih laterRan
      rw [same] at frees laterCodes
      have sameAtRest := workspace.context.atRest_deallocate name operation
      rw [result] at sameAtRest
      have codesBefore := fun name fragment codes =>
        @Context.Codes.congr _ _ sameAtRest templates.release (fun _ _ => rfl) name fragment codes
      refine ⟨owners ++ laterOwners, first ++ fragments, fun sound => ?_,
        List.rel_append (firstCodes.imp codesBefore) (laterCodes.imp codesBefore),
        List.rel_append firstRender laterRender⟩
      rcases Context.deallocate_cases sound name operation with
        ⟨-, error, failed⟩ | ⟨buffer, _, _, succeeded, found, live, step⟩
      · rw [failed] at result
        cases result
      · rw [succeeded] at result
        cases result
        exact .cons found live step (frees (sound.deallocation found live step))

/-- Buffers get storage before the code of a body and are freed after it in the reverse order. -/
theorem liveInside_eq_ok {templates : LifetimeTemplates} {operation : String}
    {names before after : List String}
    (ran : liveInside templates operation names workspace = .ok (before, after) final) :
    ∃ ordered owners middle opening closing,
      workspace.context.sortByTargets names = .ok ordered ∧
      workspace.context.Allocates ordered.reverse middle ∧
      (workspace.context.Sound → middle.Frees ordered.reverse owners final.context) ∧
      List.Forall₂ (workspace.context.Codes templates.allocation) ordered opening ∧
      List.Forall₂ (workspace.context.Codes templates.release) owners closing ∧
      List.Forall₂ Fragment.Renders opening before ∧
      List.Forall₂ Fragment.Renders closing after := by
  obtain ⟨ordered, sorted, sorting, afterSort⟩ := bind_eq_ok ran
  obtain ⟨openingTexts, opened, allocating, afterOpening⟩ := bind_eq_ok afterSort
  obtain ⟨closingTexts, closed, deallocating, answered⟩ := bind_eq_ok afterOpening
  obtain ⟨same, rfl⟩ := pure_eq_ok answered
  obtain ⟨rfl, rfl⟩ := Prod.mk.inj same
  obtain ⟨sorts, rfl⟩ := ask_eq_ok sorting
  obtain ⟨allocates, opening, openingCodes, openingRenders⟩ := allocateInside_eq_ok allocating
  obtain ⟨owners, closing, frees, closingCodes, closingRenders⟩ :=
    deallocateInside_eq_ok deallocating
  refine ⟨ordered, owners, opened.context, opening, closing, sorts, allocates,
    fun sound => frees (allocates.sound sound), openingCodes, ?_, openingRenders, closingRenders⟩
  exact closingCodes.imp fun _ _ codes => codes.congr allocates.atRest_eq fun _ _ => rfl

theorem hoistClosure_eq_ok {templates : ClosureTemplates} {names : ClosureNames}
    {declarations body : List String}
    (ran : hoistClosure templates names declarations body workspace = .ok () final) :
    ∃ text, Fragment.Renders {
        template := templates.function
        bindings := .ofList
          [("name", .code names.closure), ("args_type", .code names.argsType),
            ("body", .code ("\n".intercalate body))] } text ∧
      ⟨names.closure, text⟩ ∈ final.context.definitions := by
  obtain ⟨structText, structured, -, afterStruct⟩ := bind_eq_ok ran
  obtain ⟨functionText, rendered, rendering, afterFunction⟩ := bind_eq_ok afterStruct
  obtain ⟨_, structHoisted, -, hoisting⟩ := bind_eq_ok afterFunction
  exact ⟨functionText, (render_eq_ok rendering).1, hoist_eq_ok hoisting⟩

end Lowering

/-! ### Made closures -/

/-- The buffers that a closure of a block takes as arguments: the references of the block that are
no structs and that the window admits. -/
def ClosureOptions.arguments (options : ClosureOptions) (block : Block) (context : Context) :
    List Buffer :=
  (((block.references context .unrolled).filterMap context.find?).filter (!·.isStruct)).filter
    options.admits

/-- The buffers that live in the body of a closure: the references of its block that are no structs
and that the window does not admit. -/
def ClosureOptions.kept (options : ClosureOptions) (block : Block) (context : Context) :
    List Buffer :=
  (((block.references context .unrolled).filterMap context.find?).filter (!·.isStruct)).filter
    (!options.admits ·)

/-- The names of the closure of an operation. -/
def ClosureNames.ofOperation (operation : String) (context : Context) : ClosureNames :=
  ⟨(context.mangle (operation ++ "_closure")).1⟩

/-- The steps that made a closure, with the workspaces between them. -/
structure ClosureRun (options : ClosureOptions) (block : Block) (operation : String)
    (start final : Workspace) where
  code : String
  fields : List ClosureField
  declarations : List String
  loads : List String
  before : List String
  after : List String
  typed : Workspace
  filled : Workspace
  named : Workspace
  registered : Workspace
  lived : Workspace
  readable : ∀ fragment ∈ block.fragments, fragment.Readable
  rendering : ∃ rest, Lowering.renderBlock block start = .ok code rest
  typed_eq : typed.context = { start.context with types := start.context.types.void.2 }
  filling : Lowering.closureFields start.context.types.void.1
    (options.arguments block start.context) typed = .ok fields filled
  filled_eq : ∃ types, filled.context = { start.context with types }
  named_eq : named.context = (filled.context.mangle (operation ++ "_closure")).2
  registering : Lowering.registerArgs (.ofOperation operation start.context) fields named =
    .ok () registered
  declaring : Lowering.fieldDeclarations registered.context.types fields = .ok declarations
  loading : Lowering.fieldLoads registered.context.types fields = .ok loads
  living : Lowering.liveInside options.memory operation
    ((options.kept block start.context).map Buffer.name) registered = .ok (before, after) lived
  hoisting : Lowering.hoistClosure options.templates (.ofOperation operation start.context)
    declarations (loads ++ (before ++ Text.lines code ++ after).map ("    " ++ ·)) lived =
      .ok () final

/-- The block that calls the closure. -/
def ClosureRun.wrapped {options : ClosureOptions} {block : Block} {operation : String}
    {start final : Workspace} (run : ClosureRun options block operation start final) : Block :=
  let names := ClosureNames.ofOperation operation start.context
  block.wrap.append (Lowering.closureCall options.templates names ::
    (if options.writeBack then run.fields.filter (!·.isOpaque) else []).map
      (Lowering.closureWriteBack options.templates names))

/-- The body of a closure: lines that load its arguments, the code that gives storage to buffers
for the time of the body, the text of the block, and the code that returns the storage. -/
structure ClosureBody where
  loads : List String
  before : List Fragment
  code : String
  after : List Fragment

namespace ClosureBody

/-- The lines of a body. -/
def Lines (body : ClosureBody) (lines : List String) : Prop :=
  ∃ opening closing, List.Forall₂ Fragment.Renders body.before opening ∧
    List.Forall₂ Fragment.Renders body.after closing ∧
    lines = body.loads ++ (opening ++ Text.lines body.code ++ closing).map ("    " ++ ·)

/-- The function of a closure with a body is hoisted. -/
def Hoisted (body : ClosureBody) (templates : ClosureTemplates) (names : ClosureNames)
    (context : Context) : Prop :=
  ∃ lines text, body.Lines lines ∧ ⟨names.closure, text⟩ ∈ context.definitions ∧
    Fragment.Renders {
      template := templates.function
      bindings := .ofList
        [("name", .code names.closure), ("args_type", .code names.argsType),
          ("body", .code ("\n".intercalate lines))] } text

end ClosureBody

/-- A closure that was made from a block, with its names, its arguments and its body. -/
structure MadeClosure (options : ClosureOptions) (block : Block) (start : Workspace)
    (wrapped : Block) (final : Context) (names : ClosureNames) (fields : List ClosureField)
    (body : ClosureBody) : Prop where
  readable : ∀ fragment ∈ block.fragments, fragment.Readable
  rendered : ∃ rest, Lowering.renderBlock block start = .ok body.code rest
  fields_eq : fields.map ClosureField.name =
    (options.arguments block start.context).map Buffer.name
  registered : ∃ prior value after, Context.SameShape prior start.context ∧
    value.value = argumentValue fields ∧ Registers names.args value prior after ∧
    Context.SameShape final after
  wrapped_eq : wrapped = block.wrap.append
    (Lowering.closureCall options.templates names ::
      (if options.writeBack then fields.filter (!·.isOpaque) else []).map
        (Lowering.closureWriteBack options.templates names))
  before_eq : ∀ fragment ∈ body.before,
    ∃ types buffer, options.memory.allocation types buffer = .ok fragment
  after_eq : ∀ fragment ∈ body.after,
    ∃ types buffer, options.memory.release types buffer = .ok fragment
  hoisted : body.Hoisted options.templates names final

namespace Lowering

theorem closureRun_of_makeClosure {options : ClosureOptions} {block wrapped : Block}
    {operation : String} {workspace final : Workspace}
    (ran : makeClosure options block operation workspace = .ok wrapped final) :
    ∃ run : ClosureRun options block operation workspace final, wrapped = run.wrapped := by
  obtain ⟨code, rendered, rendering, afterCode⟩ := bind_eq_ok ran
  have sameRendered := renderBlock_eq_ok rendering
  obtain ⟨references, listed, listing, afterReferences⟩ := bind_eq_ok afterCode
  obtain ⟨referencesAre, sameListed⟩ := references_eq_ok listing
  rw [sameRendered] at referencesAre sameListed
  obtain ⟨void, voided, voiding, afterVoid⟩ := bind_eq_ok afterReferences
  obtain ⟨voidIs, sameVoided⟩ := intern_eq_ok voiding
  rw [sameListed] at voidIs sameVoided
  obtain ⟨found, looked, looking, afterLookups⟩ := bind_eq_ok afterVoid
  obtain ⟨foundAre, sameLooked⟩ := mapM_lookup_eq_ok looking
  rw [sameVoided] at foundAre sameLooked
  obtain ⟨fields, filled, filling, afterFields⟩ := bind_eq_ok afterLookups
  obtain ⟨-, types, filledIs⟩ := closureFields_eq_ok filling
  rw [sameLooked] at filledIs
  obtain ⟨closure, mangled, mangling, afterName⟩ := bind_eq_ok afterFields
  obtain ⟨closureIs, sameMangled⟩ := mangle_eq_ok mangling
  obtain ⟨_, registered, registering, afterArgs⟩ := bind_eq_ok afterName
  obtain ⟨declarations, declared, declaring, afterDeclarations⟩ := bind_eq_ok afterArgs
  obtain ⟨declarationsAre, rfl⟩ := ask_eq_ok declaring
  obtain ⟨loads, loaded, loading, afterLoads⟩ := bind_eq_ok afterDeclarations
  obtain ⟨loadsAre, rfl⟩ := ask_eq_ok loading
  obtain ⟨⟨before, after⟩, lived, living, afterInside⟩ := bind_eq_ok afterLoads
  obtain ⟨_, hoisted, hoisting, last⟩ := bind_eq_ok afterInside
  obtain ⟨rfl, rfl⟩ := pure_eq_ok last
  have namesAre : ClosureNames.mk closure = .ofOperation operation workspace.context := by
    rw [closureIs, filledIs, Context.mangle_types]
    exact congrArg ClosureNames.mk (Context.mangle_types _ _ _)
  rw [namesAre] at registering hoisting
  subst foundAre referencesAre voidIs
  exact ⟨⟨code, fields, declarations, loads, before, after, looked, filled, mangled, loaded, lived,
    readable_of_references listing, ⟨_, rendering⟩, sameLooked, filling, ⟨types, filledIs⟩,
    sameMangled, registering, declarationsAre, loadsAre, living, hoisting⟩, namesAre ▸ rfl⟩

/-- **A closure that was made** has the arguments, the body and the call that its block gives it. -/
theorem makeClosure_eq_ok {options : ClosureOptions} {block wrapped : Block} {operation : String}
    {workspace final : Workspace}
    (ran : makeClosure options block operation workspace = .ok wrapped final) :
    ∃ fields body, MadeClosure options block workspace wrapped final.context
      (.ofOperation operation workspace.context) fields body := by
  obtain ⟨run, rfl⟩ := closureRun_of_makeClosure ran
  obtain ⟨types, filledIs⟩ := run.filled_eq
  have priorShape : Context.SameShape run.named.context workspace.context := by
    rw [run.named_eq, filledIs]
    exact (Context.sameShape_mangle _ _).trans ⟨rfl, rfl⟩
  obtain ⟨argTypes, value, value_eq, registers⟩ := registerArgs_eq_ok run.registering
  obtain ⟨_, _, _, opening, closing, -, -, -, openingCodes, closingCodes, openingIs, closingIs⟩ :=
    liveInside_eq_ok run.living
  refine ⟨run.fields, ⟨run.loads, opening, run.code, closing⟩, run.readable, run.rendering,
    (closureFields_eq_ok run.filling).1,
    ⟨{ run.named.context with types := argTypes }, value, _, ?_, value_eq, registers, ?_⟩, rfl,
    Context.exists_of_codes openingCodes, Context.exists_of_codes closingCodes, ?_⟩
  · exact ⟨priorShape.locals, priorShape.globals⟩
  · have frame := Context.frame_sameShape run.registered.context
    have livedShape := (preserves_liveInside frame.resting _ _ _).ok (.refl _) run.living
    exact ((preserves_hoistClosure frame _ _ _ _).ok livedShape.1 run.hoisting).1
  · obtain ⟨text, rendersTo, defined⟩ := hoistClosure_eq_ok run.hoisting
    exact ⟨_, text, ⟨run.before, run.after, openingIs, closingIs, rfl⟩, defined, rendersTo⟩

end Lowering

end TensorLowering
