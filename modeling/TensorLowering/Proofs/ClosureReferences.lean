import TensorLowering.Proofs.Closures
import TensorLowering.Proofs.Dictionaries
import TensorLowering.Proofs.Ledger

/-! # What a closure refers to

The code of a closure names its struct buffer only, and the buffers that the code of the block
touched are reached through the pointers in it. So the call refers to the arguments of the closure
and to its struct (`TensorLowering.Lowering.references_makeClosure`). These references are found
unless arguments are copied back by a template that cannot be parsed, which making the closure does
not notice (`TensorLowering.Lowering.tornBlock_unreadable`).
-/

namespace TensorLowering

open Relation

/-! ### The value of the arguments -/

theorem Value.mem_pointerTargetsFields {name : String} {fields : List (String × Value)} :
    name ∈ pointerTargetsFields fields ↔ ∃ field ∈ fields, name ∈ field.2.pointerTargets := by
  induction fields with
  | nil => simp [pointerTargetsFields]
  | cons field fields ih => simp [pointerTargetsFields, ih]

/-- The struct of a closure points to its arguments. -/
theorem mem_pointerTargets_argumentValue {fields : List ClosureField} {name : String} :
    name ∈ (argumentValue fields).pointerTargets ↔ name ∈ fields.map ClosureField.name := by
  rw [argumentValue, Value.ofFields, Value.pointerTargets, Value.mem_pointerTargetsFields]
  constructor
  · rintro ⟨entry, member, pointed⟩
    obtain ⟨field, listed, rfl⟩ := List.mem_map.mp (Dict.mem_of_mem_ofList member)
    rw [Value.pointerTargets, List.mem_singleton] at pointed
    exact pointed ▸ List.mem_map_of_mem listed
  · intro listed
    have keyed : name ∈ (fields.map fun field =>
        (field.name, Value.pointer (some field.name))).map Prod.fst := by
      rwa [List.map_map]
    obtain ⟨value, found⟩ := Option.isSome_iff_exists.mp (Dict.isSome_find?_ofList keyed)
    have member := Dict.mem_of_search found
    refine ⟨_, member, ?_⟩
    obtain ⟨field, -, same⟩ := List.mem_map.mp (Dict.mem_of_mem_ofList member)
    cases same
    exact List.mem_singleton_self _

/-! ### References as buffers -/

namespace Context

theorem filterMap_find?_referencesAmong {context : Context}
    (distinct : context.locals.names.Nodup) (touched : List String) :
    (context.referencesAmong .unrolled touched).filterMap context.find? =
      context.locals.entries.filter fun buffer =>
        buffer.deploy && (context.spread .unrolled touched).contains buffer.name := by
  rw [referencesAmong_unrolled, List.filterMap_map]
  refine (List.filterMap_congr fun buffer member => ?_).trans List.filterMap_some
  exact find?_of_mem_locals distinct (List.mem_filter.mp member).1

theorem pointees_of_plain {context : Context} {name : String} {buffer : Buffer}
    (found : context.find? name = some buffer) (plain : buffer.isStruct = false) :
    context.pointees name = [] := by
  rw [pointees, found, Option.map_some]
  rw [Buffer.isStruct] at plain
  split
  · next kind =>
      rw [Option.some.inj kind] at plain
      cases plain
  · rfl

theorem eq_push_of_add_ofStruct {context after : Context} {name : String} {value : TypedValue}
    {size : Nat} {scope : Scope} (put : context.add (.ofStruct name value size) scope = .ok after) :
    after = context.push (.ofStruct name value size) scope := by
  obtain ⟨-, same⟩ | ⟨target, views, -⟩ := add_cases put
  · exact same
  · cases views

end Context

/-- The arguments of a closure are local buffers. -/
theorem ClosureOptions.arguments_eq {context : Context} (distinct : context.locals.names.Nodup)
    (options : ClosureOptions) (block : Block) :
    options.arguments block context = context.locals.entries.filter fun buffer =>
      options.admits buffer && (!buffer.isStruct && (buffer.deploy &&
        (context.spread .unrolled (block.named context)).contains buffer.name)) := by
  rw [arguments, Block.references, Context.filterMap_find?_referencesAmong distinct,
    List.filter_filter, List.filter_filter]
  simp only [Bool.and_assoc, Block.named]

theorem ClosureOptions.mem_arguments_iff {context : Context}
    (distinct : context.locals.names.Nodup) {options : ClosureOptions} {block : Block}
    {buffer : Buffer} : buffer ∈ options.arguments block context ↔
      buffer ∈ context.locals.entries ∧ options.admits buffer = true ∧ buffer.isStruct = false ∧
        buffer.deploy = true ∧ buffer.name ∈ context.spread .unrolled (block.named context) := by
  rw [arguments_eq distinct, List.mem_filter]
  simp only [Bool.and_eq_true, Bool.not_eq_true_eq_eq_false, List.contains_iff_mem]

/-- The arguments of a closure are references of its block, in the same order. -/
theorem ClosureOptions.map_name_arguments (options : ClosureOptions) (block : Block)
    (context : Context) :
    (options.arguments block context).map Buffer.name =
      (block.references context .unrolled).filter fun name =>
        (context.find? name).any fun buffer => !buffer.isStruct && options.admits buffer := by
  rw [arguments, List.filter_filter]
  generalize block.references context .unrolled = names
  induction names with
  | nil => rfl
  | cons name names ih =>
      cases found : context.find? name with
      | none =>
          rw [List.filterMap_cons_none found, List.filter_cons_of_neg (by simp [found]), ih]
      | some buffer =>
          have named := Context.name_of_find? found
          rw [List.filterMap_cons_some found]
          cases struct : buffer.isStruct <;> cases admitted : options.admits buffer <;>
            simp [struct, admitted, found, named, ih]

/-! ### The code of a closure -/

namespace Lowering

theorem eq_of_mem_touched_closureCall {templates : ClosureTemplates} {names : ClosureNames}
    {context : Context} {name : String}
    (member : name ∈ (closureCall templates names).touched context) : name = names.args := by
  obtain ⟨parsed, -, key, -, bound, -⟩ := Fragment.mem_touched_iff.mp member
  simp only [closureCall, Dict.ofList, List.foldl_cons, List.foldl_nil, Dict.find?_insert,
    Dict.find?_empty] at bound
  grind

theorem eq_of_mem_touched_closureWriteBack {templates : ClosureTemplates} {names : ClosureNames}
    {field : ClosureField} {context : Context} {name : String}
    (member : name ∈ (closureWriteBack templates names field).touched context) :
    name = names.args ∨ name = field.name := by
  obtain ⟨parsed, -, key, -, bound, -⟩ := Fragment.mem_touched_iff.mp member
  simp only [closureWriteBack, Dict.ofList, List.foldl_cons, List.foldl_nil, Dict.find?_insert,
    Dict.find?_empty] at bound
  grind

theorem parse_closureCall : Template.parse ({} : ClosureTemplates).call.source =
    .ok ⟨[.hole [.verbatim [], .name "name".toList, .verbatim []], .text "(&".toList,
      .hole [.verbatim [], .name "args".toList, .verbatim []], .text ");".toList]⟩ := by
  decide +kernel

/-- The usual call names the struct of its closure. -/
theorem args_mem_touched_closureCall {templates : ClosureTemplates}
    (usual : templates.call = ({} : ClosureTemplates).call) {names : ClosureNames}
    {context : Context} (known : context.isBuffer names.args = true) :
    names.args ∈ (closureCall templates names).touched context := by
  have reads := parse_closureCall
  rw [← usual] at reads
  refine Fragment.mem_touched_iff.mpr ⟨_, reads, "args", ?_, ?_, known⟩
  · rw [Parsed.names, List.mem_eraseDups]
    simp [Segment.items, Item.names, closureCall, Dict.ofList, Dict.contains, Dict.find?_insert]
  · simp [closureCall, Dict.ofList]

end Lowering

theorem Block.isBuffer_of_mem_named {block : Block} {context : Context} {name : String}
    (member : name ∈ block.named context) : context.isBuffer name = true := by
  rcases List.mem_append.mp member with touched | tiled
  · obtain ⟨fragment, -, touched⟩ := List.mem_flatMap.mp touched
    obtain ⟨_, -, _, -, -, known⟩ := Fragment.mem_touched_iff.mp touched
    exact known
  · rw [tiledBuffers] at tiled
    split at tiled
    · exact (List.mem_filter.mp tiled).2
    · exact absurd tiled List.not_mem_nil

namespace MadeClosure

variable {options : ClosureOptions} {block wrapped : Block} {start : Workspace} {final : Context}
  {names : ClosureNames} {fields : List ClosureField} {body : ClosureBody}

/-- The code of a closure touches its struct and arguments only. -/
theorem mem_named (made : MadeClosure options block start wrapped final names fields body)
    {context : Context} {name : String} (member : name ∈ wrapped.named context) :
    name = names.args ∨
      name ∈ fields.map ClosureField.name := by
  rw [made.wrapped_eq] at member
  rcases List.mem_append.mp member with touched | tiled
  · obtain ⟨fragment, listed, touched⟩ := List.mem_flatMap.mp touched
    rcases List.mem_cons.mp listed with rfl | returned
    · exact .inl (Lowering.eq_of_mem_touched_closureCall touched)
    · obtain ⟨field, chosen, rfl⟩ := List.mem_map.mp returned
      refine (Lowering.eq_of_mem_touched_closureWriteBack touched).imp_right fun same => ?_
      have listedField : field ∈ fields := by
        split at chosen
        · exact (List.mem_filter.mp chosen).1
        · exact absurd chosen List.not_mem_nil
      exact same ▸ List.mem_map_of_mem listedField
  · exact absurd tiled List.not_mem_nil

theorem args_mem_named (made : MadeClosure options block start wrapped final names fields body)
    (usual : options.templates.call = ({} : ClosureTemplates).call) {context : Context}
    (known : context.isBuffer names.args = true) :
    names.args ∈ wrapped.named context := by
  rw [made.wrapped_eq]
  apply List.mem_append_left
  exact List.mem_flatMap.mpr
    ⟨_, List.mem_cons_self, Lowering.args_mem_touched_closureCall usual known⟩

/-- From the struct of a closure its arguments are reached, and nothing else if they are no
structs. -/
theorem mem_spread (made : MadeClosure options block start wrapped final names fields body)
    (usual : options.templates.call = ({} : ClosureTemplates).call) {context : Context}
    {value : TypedValue} (valued : value.value = argumentValue fields)
    (struct : (context.find? names.args).map
      Buffer.kind = some (.struct value))
    (plain : ∀ name ∈ fields.map ClosureField.name,
      name ≠ names.args → context.pointees name = [])
    (name : String) :
    name ∈ context.spread .unrolled (wrapped.named context) ↔
      name = names.args ∨
        name ∈ fields.map ClosureField.name ∧ context.isBuffer name = true := by
  rw [Context.mem_spread_iff context rfl]
  generalize argsAre : names.args = args at struct plain ⊢
  have pointed : ∀ target, context.PointsTo args target ↔
      target ∈ fields.map ClosureField.name ∧ context.isBuffer target = true := by
    intro target
    rw [Context.PointsTo, Context.pointees, struct, List.mem_filter, valued,
      mem_pointerTargets_argumentValue]
  have known : context.isBuffer args = true := by
    rw [Context.isBuffer_iff, ← Option.isSome_map (f := Buffer.kind), struct]
    rfl
  constructor
  · rintro ⟨source, named, path⟩
    induction path with
    | refl =>
        refine (made.mem_named named).imp (·.trans argsAre) fun listed => ⟨listed, ?_⟩
        exact Block.isBuffer_of_mem_named named
    | tail _ step ih =>
        rcases ih with rfl | ⟨listed, -⟩
        · exact .inr ((pointed _).mp step)
        · next middle target _ =>
            by_cases same : middle = args
            · exact .inr ((pointed _).mp (same ▸ step))
            · rw [Context.PointsTo, plain middle listed same] at step
              exact absurd step List.not_mem_nil
  · have start := made.args_mem_named usual (argsAre ▸ known)
    rw [argsAre] at start
    rintro (rfl | reached)
    · exact ⟨name, start, .refl⟩
    · exact ⟨args, start, .single ((pointed name).mpr reached)⟩

/-- Where no buffer has its name, the struct of a closure is added after all local buffers. -/
theorem sameShape_push (made : MadeClosure options block start wrapped final names fields body)
    (free : start.context.isBuffer names.args = false) :
    ∃ value size, value.value = argumentValue fields ∧
      Context.SameShape final (start.context.push (.ofStruct names.args value size) .locals) := by
  obtain ⟨prior, value, after, priorShape, valued, registers, finalShape⟩ := made.registered
  have new : prior.isBuffer names.args = false := by
    rw [priorShape.isBuffer_eq, free]
  have absent : prior.find? names.args = none := by
    rw [← Option.isNone_iff_eq_none, ← Option.isSome_eq_false_iff, ← Bool.not_eq_true,
      ← Context.isBuffer_iff, new]
    exact Bool.false_ne_true
  cases registers with
  | kept present => rw [absent] at present; cases present
  | replaced removed _ =>
      have present := (Context.remove_cases removed).1
      rw [absent] at present
      cases present
  | @added size _ _ put =>
      refine ⟨value, size, valued, finalShape.trans ?_⟩
      rw [Context.eq_push_of_add_ofStruct put]
      exact priorShape.push _ _

/-- With its struct after all local buffers, a closure refers to its arguments and its struct. -/
theorem references_push (made : MadeClosure options block start wrapped final names fields body)
    (usual : options.templates.call = ({} : ClosureTemplates).call)
    (distinct : start.context.locals.names.Nodup)
    (free : start.context.isBuffer names.args = false)
    {value : TypedValue} (valued : value.value = argumentValue fields) {size : Nat} :
    wrapped.references (start.context.push (.ofStruct names.args value size) .locals) .unrolled =
      (options.arguments block start.context).map Buffer.name ++ [names.args] := by
  generalize structIs : Buffer.ofStruct names.args value size = struct
  have named : struct.name = names.args := by
    rw [← structIs]
    rfl
  have found : (start.context.push struct .locals).find? names.args = some struct :=
    named ▸ start.context.find?_push_locals struct
  have argument : ∀ name ∈ fields.map ClosureField.name, ∃ buffer,
      buffer ∈ options.arguments block start.context ∧ buffer.name = name := by
    intro name listed
    rw [made.fields_eq] at listed
    exact List.mem_map.mp listed
  have apart : ∀ buffer ∈ start.context.locals.entries, struct.name ≠ buffer.name := by
    intro buffer member same
    have known : start.context.isBuffer buffer.name = true := by
      rw [Context.isBuffer_iff, Context.find?_of_mem_locals distinct member]
      rfl
    rw [← same, named, free] at known
    exact Bool.false_ne_true known
  have kept : ∀ buffer ∈ start.context.locals.entries,
      (start.context.push struct .locals).find? buffer.name = some buffer := by
    intro buffer member
    rw [start.context.find?_push_of_ne (apart buffer member)]
    exact Context.find?_of_mem_locals distinct member
  have plain : ∀ name ∈ fields.map ClosureField.name, name ≠ names.args →
      (start.context.push struct .locals).pointees name = [] := by
    intro name listed _
    obtain ⟨buffer, member, rfl⟩ := argument name listed
    obtain ⟨isLocal, -, plain, -⟩ := (ClosureOptions.mem_arguments_iff distinct).mp member
    exact Context.pointees_of_plain (kept buffer isLocal) plain
  have reached := made.mem_spread usual valued (by rw [found, ← structIs]; rfl) plain
  rw [Block.references, Context.referencesAmong_unrolled, ← Block.named]
  change ((start.context.locals.entries ++ [struct]).filter _).map Buffer.name = _
  rw [List.filter_append, List.map_append]
  congr 1
  · have listedAre := options.arguments_eq distinct block
    rw [listedAre]
    refine congrArg _ (List.filter_congr fun buffer isLocal => ?_)
    -- Both conditions say that the buffer is an argument.
    rw [Bool.eq_iff_iff, Bool.and_eq_true, List.contains_iff_mem, reached]
    constructor
    · rintro ⟨-, same | ⟨listed, -⟩⟩
      · exact absurd (named.trans same.symm) (apart buffer isLocal)
      · obtain ⟨other, member, same⟩ := argument _ listed
        rw [listedAre, List.mem_filter] at member
        have found := Context.find?_of_mem_locals distinct member.1
        rw [same, Context.find?_of_mem_locals distinct isLocal] at found
        exact Option.some.inj found ▸ member.2
    · intro chosen
      have member : buffer ∈ options.arguments block start.context :=
        listedAre ▸ List.mem_filter.mpr ⟨isLocal, chosen⟩
      obtain ⟨-, -, -, deployed, -⟩ := (ClosureOptions.mem_arguments_iff distinct).mp member
      refine ⟨deployed, .inr ⟨made.fields_eq ▸ List.mem_map_of_mem member, ?_⟩⟩
      rw [Context.isBuffer_iff, kept buffer isLocal]
      rfl
  · rw [List.filter_cons_of_pos, List.filter_nil, List.map_singleton, named]
    rw [Bool.and_eq_true, List.contains_iff_mem, reached, ← structIs]
    exact ⟨rfl, .inl rfl⟩

/-- The call of a closure can be read, and so can the copies back, if there are any, exactly if the
template for them can. -/
theorem readable_wrapped_iff
    (made : MadeClosure options block start wrapped final names fields body)
    (usual : options.templates.call = ({} : ClosureTemplates).call) :
    (∀ fragment ∈ wrapped.fragments, fragment.Readable) ↔
      wrapped.fragments.length = 1 ∨
        (Template.parse options.templates.writeBack.source).isOk = true := by
  rw [made.wrapped_eq]
  generalize (if options.writeBack then fields.filter (!·.isOpaque) else []) = copied
  change (∀ fragment ∈ Lowering.closureCall options.templates names ::
    copied.map (Lowering.closureWriteBack options.templates names), fragment.Readable) ↔ _
  have callReads : (Lowering.closureCall options.templates names).Readable := by
    rw [Fragment.Readable, Lowering.closureCall, usual]
    exact ⟨_, Lowering.parse_closureCall⟩
  rw [List.forall_mem_cons, List.forall_mem_map]
  cases copied with
  | nil => exact iff_of_true ⟨callReads, List.forall_mem_nil _⟩ (.inl rfl)
  | cons field copied =>
      constructor
      · intro readable
        have reads := readable.2 field List.mem_cons_self
        rw [Fragment.readable_iff] at reads
        exact .inr reads
      · rintro (alone | parses)
        · exact absurd (Nat.succ.inj alone) (Nat.succ_ne_zero _)
        · exact ⟨callReads, fun _ _ => Fragment.readable_iff.mpr parses⟩

end MadeClosure

namespace Lowering

/-- **A closure refers to its arguments and its struct.** The references of the code that calls a
closure are those of the block that are no structs and that the window admits, in the same order,
and after them the struct of the closure, which is new. They are found exactly if nothing is copied
back or the template for the copies can be parsed. -/
theorem references_makeClosure {options : ClosureOptions} {block wrapped : Block}
    {operation : String} {start final : Workspace}
    (usual : options.templates.call = ({} : ClosureTemplates).call)
    (distinct : start.context.locals.names.Nodup)
    (free : start.context.isBuffer
      (ClosureNames.ofOperation operation start.context).args = false)
    (ran : makeClosure options block operation start = .ok wrapped final) :
    let args := (ClosureNames.ofOperation operation start.context).args
    let passed := (block.references start.context .unrolled).filter fun name =>
      (start.context.find? name).any fun buffer => !buffer.isStruct && options.admits buffer
    (∃ seen, references block .unrolled start =
      .ok (block.references start.context .unrolled) seen) ∧
    wrapped.references final.context .unrolled = passed ++ [args] ∧
    ((∃ seen, references wrapped .unrolled final = .ok (passed ++ [args]) seen) ↔
      wrapped.fragments.length = 1 ∨
        (Template.parse options.templates.writeBack.source).isOk = true) ∧
    ∃ struct, final.context.locals.find? args = some struct ∧ struct.isStruct = true := by
  intro args passed
  obtain ⟨fields, body, made⟩ := makeClosure_eq_ok ran
  obtain ⟨value, size, valued, shape⟩ := made.sameShape_push free
  have passedAre : (options.arguments block start.context).map Buffer.name = passed :=
    options.map_name_arguments block start.context
  have refers : wrapped.references final.context .unrolled = passed ++ [args] := by
    rw [shape.references_eq, ← passedAre]
    exact made.references_push usual distinct free valued
  refine ⟨references_of_readable made.readable _ _, refers, ?_, ?_⟩
  · rw [← made.readable_wrapped_iff usual, ← refers]
    exact ⟨fun ⟨_, ran⟩ => readable_of_references ran,
      fun readable => references_of_readable readable _ _⟩
  · have kinds := BufferTable.map_kind_findIn_congr args shape.locals
    rw [Context.push, BufferTable.push, BufferTable.findIn_append] at kinds
    obtain ⟨struct, found, kind⟩ := Option.map_eq_some_iff.mp (kinds.trans (by
      simp [BufferTable.findIn, Buffer.ofStruct, args]; rfl))
    exact ⟨struct, found, by rw [Buffer.isStruct, kind]⟩

/-- A tensor, a struct with a pointer to a struct with a pointer to the tensor, and storage in the
last level of the window. -/
def nestedContext : Context where
  types := {
    kinds := [.float 32 23 8, .pointer ⟨0⟩, .struct "inner_t" [("p", ⟨1⟩)], .pointer ⟨2⟩,
      .struct "outer_t" [("q", ⟨3⟩)]] }
  locals := ⟨[
    .ofStruct "outer" ⟨⟨4⟩, .struct [("q", .pointer (some "inner"))]⟩ 4,
    { name := "scratch", type := ⟨0⟩, size := 16, level := some "L2", kind := .transient },
    { name := "x", type := ⟨0⟩, size := 64, level := some "L1" },
    .ofStruct "inner" ⟨⟨2⟩, .struct [("p", .pointer (some "x"))]⟩ 4,
    { name := "y", type := ⟨0⟩, size := 64, level := some "L2" }]⟩

/-- Code that names the outer struct and scratch storage, on tiles of another tensor. -/
def nestedBlock : Block where
  fragments := [.ofSource "run(&${args}, ${scratch});"
    [("args", .name "outer"), ("scratch", .name "scratch")]]
  record := some {
    level := "L2", loopVariable := "run_tile", tileCount := 1
    tiled := [⟨.inward, "y", "tile", "offsets", 16⟩] }

/-- Arguments are written back, and buffers of the last level live in the body. -/
def nestedOptions : ClosureOptions := { writeBack := true, window := some ⟨"L1", "L2"⟩ }

theorem references_makeClosure_nestedBlock :
    nestedBlock.references nestedContext .unrolled =
      ["outer", "scratch", "x", "inner", "y"] ∧
    ∃ wrapped final,
      makeClosure nestedOptions nestedBlock "run" { context := nestedContext } =
        .ok wrapped final ∧
      wrapped.references final.context .unrolled = ["x", "run_closure_args"] ∧
      ∃ seen, references wrapped .unrolled final = .ok ["x", "run_closure_args"] seen := by
  obtain ⟨succeeds, distinct, free, passed, listed, parses⟩ :
      observe (makeClosure nestedOptions nestedBlock "run") (fun _ _ => ())
        { context := nestedContext } = some () ∧
      nestedContext.locals.names.Nodup ∧
      nestedContext.isBuffer (ClosureNames.ofOperation "run" nestedContext).args = false ∧
      (nestedBlock.references nestedContext .unrolled).filter (fun name =>
        (nestedContext.find? name).any fun buffer =>
          !buffer.isStruct && nestedOptions.admits buffer) ++
        [(ClosureNames.ofOperation "run" nestedContext).args] = ["x", "run_closure_args"] ∧
      nestedBlock.references nestedContext .unrolled = ["outer", "scratch", "x", "inner", "y"] ∧
      (Template.parse nestedOptions.templates.writeBack.source).isOk = true := by
    decide +kernel
  obtain ⟨wrapped, final, ran, -⟩ := exists_of_observe succeeds
  obtain ⟨-, refers, found, -⟩ := @references_makeClosure nestedOptions nestedBlock wrapped "run"
    { context := nestedContext } final rfl distinct free ran
  rw [passed] at refers found
  exact ⟨listed, wrapped, final, ran, refers, found.mpr (.inr parses)⟩

/-- A tensor. -/
def tornContext : Context where
  types := { kinds := [.float 32 23 8] }
  locals := ⟨[{ name := "x", type := ⟨0⟩, size := 64 }]⟩

/-- Code on the tensor. -/
def tornBlock : Block := .ofFragments [.ofSource "k(${a});" [("a", .name "x")]]

/-- Arguments are copied back by a template whose hole is not closed. -/
def tornOptions : ClosureOptions where
  writeBack := true
  templates := { writeBack := { source := "$\x7boops" } }

/-- The closure is made, but the references of the code that calls it cannot be found. -/
theorem tornBlock_unreadable :
    tornOptions.templates.call = ({} : ClosureTemplates).call ∧
    tornContext.locals.names.Nodup ∧
    tornContext.isBuffer (ClosureNames.ofOperation "k" tornContext).args = false ∧
    ∃ wrapped final,
      makeClosure tornOptions tornBlock "k" { context := tornContext } = .ok wrapped final ∧
      observe (references wrapped .unrolled) (fun names _ => names) final = none := by
  obtain ⟨distinct, free, fails⟩ :
      tornContext.locals.names.Nodup ∧
      tornContext.isBuffer (ClosureNames.ofOperation "k" tornContext).args = false ∧
      observe (makeClosure tornOptions tornBlock "k")
        (fun wrapped final => observe (references wrapped .unrolled) (fun names _ => names) final)
        { context := tornContext } = some none := by
    decide +kernel
  exact ⟨rfl, distinct, free, exists_of_observe fails⟩

end Lowering

end TensorLowering
