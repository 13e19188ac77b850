import TensorLowering.Proofs.Decoding
import TensorLowering.Proofs.Moves

/-! # Arenas

The arena of a level goes by the identifier of one logical name. A view, or the struct of a closure,
takes the place of the arena only if it gets the same identifier. A run never gives it that: if the
identifier of the arena is its own at the start (`TensorLowering.Context.ArenaApart`), no move
replaces the arena (`TensorLowering.Sound.binds_ne`). So an arena stays, and has room for all ranges
that a constraint gives tensors in the level (`TensorLowering.Lowering.openTiling_eq_ok`). An arena
that tiling has made is declared with its size (`TensorLowering.Context.HoldsArena.declared`).
-/

namespace TensorLowering

theorem getLast?_toList_append (text : String) {ending : String} {last : Char}
    (ends : ending.toList.getLast? = some last) : (text ++ ending).toList.getLast? = some last := by
  rw [String.toList_append, List.getLast?_append, ends]
  rfl

/-- The logical name of the arena of a level. -/
def arenaName (level : String) : String := level ++ "_arena"

/-- If the arena of a level has an identifier, no other logical name has it, and it is not spelled
like the struct of a closure. -/
structure Context.ArenaApart (level : String) (context : Context) : Prop where
  sole : ∀ {arena other}, context.mangled.find? (arenaName level) = some arena →
    context.mangled.find? other = some arena → other = arenaName level
  noStruct : ∀ {arena}, context.mangled.find? (arenaName level) = some arena →
    ∀ closure, arena ≠ closure ++ "_args"

namespace Context

/-- A new identifier of an arena ends in a letter or a digit that no struct of a closure ends in. -/
theorem freshIdentifier_arenaName_ne (context : Context) (level closure : String) :
    context.freshIdentifier (arenaName level) ≠ closure ++ "_args" := by
  intro same
  obtain ⟨suffix, spelled, ending⟩ := context.toList_freshIdentifier (arenaName level)
  have args : (closure ++ "_args").toList.getLast? = some 's' := getLast?_toList_append _ rfl
  rw [← same, spelled, ← List.append_assoc, List.getLast?_append] at args
  rcases ending with rfl | ⟨digit, last, isDigit⟩
  · have arena : (arenaName level).toList.getLast? = some 'a' := getLast?_toList_append _ rfl
    rw [List.getLast?_append, toList_sanitize, List.getLast?_map, arena] at args
    have letters : some 'a' = some 's' := args
    exact absurd letters (by decide)
  · rw [last] at args
    cases args
    exact absurd isDigit (by decide)

namespace ArenaApart

variable {level : String} {start finish : Context} {bound : Option String}

/-- New identifiers are given to one logical name each, so the identifier of an arena stays its
own. -/
theorem evolve (apart : start.ArenaApart level) (evolves : start.Evolves bound finish) :
    finish.ArenaApart level := by
  cases before : start.mangled.find? (arenaName level) with
  | none =>
      refine ⟨fun given => (evolves.fresh given before).2 _, fun given => ?_⟩
      obtain ⟨⟨known, rfl⟩, -⟩ := evolves.fresh given before
      exact known.freshIdentifier_arenaName_ne level
  | some identifier =>
      have still := evolves.named before
      constructor
      · intro arena other given otherGiven
        obtain rfl := Option.some.inj (still.symm.trans given)
        cases otherBefore : start.mangled.find? other with
        | none => exact ((evolves.fresh otherGiven otherBefore).2 _ given).symm
        | some earlier =>
            have same := (evolves.named otherBefore).symm.trans otherGiven
            exact apart.sole before (otherBefore.trans same)
      · intro arena given
        obtain rfl := Option.some.inj (still.symm.trans given)
        exact apart.noStruct before

theorem of_absent {context : Context} (absent : context.mangled.find? (arenaName level) = none) :
    context.ArenaApart level :=
  ⟨fun given => absurd (absent.symm.trans given) (by simp),
    fun given => absurd (absent.symm.trans given) (by simp)⟩

end ArenaApart

end Context

/-! ### What may take the place of an arena -/

/-- No view of another tiled level is named like the arena of a level. -/
def ViewsApart (tiled : String → Prop) (level : String) : Prop :=
  ∀ other, tiled other → other ≠ level → ¬ IsViewName other (arenaName level)

/-- A view in a level is not named like the arena of the level: it has more separators than there
are in the name of the level. -/
theorem not_isViewName_arenaName (level : String) : ¬ IsViewName level (arenaName level) := by
  intro named
  generalize same : arenaName level = name at named
  have spelled := congrArg String.toList same
  cases named with
  | tensor operation key =>
      have dots := congrArg (List.count '.') spelled
      simp [arenaName, List.count_append] at dots
      omega
  | scratch operation name =>
      have colons := congrArg (List.count ':') spelled
      simp [arenaName, List.count_append] at colons
      omega
  | scalar operation key =>
      have last := congrArg List.getLast? spelled
      rw [arenaName, getLast?_toList_append _ rfl, getLast?_toList_append _ rfl] at last
      exact absurd last (by decide)

namespace Sound

variable {tiled : String → Prop} {level : String} {start finish : Context} {moves : List Move}

/-- The identifier of the arena stays its own. -/
theorem arenaApart (sound : Sound tiled start moves finish) (apart : start.ArenaApart level) :
    finish.ArenaApart level ∧ ∀ move ∈ moves, move.finish.ArenaApart level :=
  sound.follow.invariant (fun move member before => before.evolve (sound.evolves move member)) apart

/-- No move replaces the arena. -/
theorem binds_ne (sound : Sound tiled start moves finish) (views : ViewsApart tiled level)
    (apart : start.ArenaApart level) {move : Move} (member : move ∈ moves) {arena : String}
    (given : move.finish.mangled.find? (arenaName level) = some arena) :
    move.binds ≠ some arena := by
  have apartNow := (sound.arenaApart apart).2 move member
  intro binds
  rcases sound.origin move member binds with ⟨other, logical, isTiled, named, bound⟩ | ⟨_, rfl⟩
  · obtain rfl := apartNow.sole given bound
    by_cases same : other = level
    · exact not_isViewName_arenaName level (same ▸ named)
    · exact views other isTiled same named
  · exact apartNow.noStruct given _ rfl

end Sound

/-! ### What an arena provides -/

/-- A context has an arena for a level with at least the given size. -/
structure Context.Provides (level arena : String) (extent : Nat) (context : Context) : Prop where
  given : context.mangled.find? (arenaName level) = some arena
  stored : ∃ storage, context.find? arena = some storage ∧ extent ≤ storage.size

/-- An arena stays, with at least its size, as long as no other buffer takes its place. -/
theorem Context.Provides.evolve {level arena : String} {extent : Nat} {start finish : Context}
    {bound : Option String} (provides : start.Provides level arena extent)
    (evolves : start.Evolves bound finish) (apart : bound ≠ some arena) :
    finish.Provides level arena extent := by
  obtain ⟨storage, found, room⟩ := provides.stored
  obtain ⟨after, afterFound, grown⟩ := evolves.kept apart found
  exact ⟨evolves.named provides.given, after, afterFound, Nat.le_trans room grown.size⟩

/-- Sound moves keep an arena. -/
theorem Sound.provides {tiled : String → Prop} {level arena : String} {extent : Nat}
    {start finish : Context} {moves : List Move} (sound : Sound tiled start moves finish)
    (views : ViewsApart tiled level) (apart : start.ArenaApart level)
    (provides : start.Provides level arena extent) :
    finish.Provides level arena extent := by
  refine (sound.follow.invariant (fun move member before => ?_) provides).1
  have evolves := sound.evolves move member
  exact before.evolve evolves (sound.binds_ne views apart member (evolves.named before.given))

/-- Storage of bytes is declared with its size. -/
theorem Context.staticDeclaration_of_byte {types : Registry} {buffer : Buffer}
    (byte : types.kinds[buffer.type.index]? = some (.int 8 false)) :
    staticDeclaration types buffer =
      .ok ("static uint8_t " ++ buffer.name ++ "[" ++ toString buffer.size ++ "];") := by
  have kindIs : types.kind buffer.type = .ok (.int 8 false) := by rw [Registry.kind, byte]
  have size : types.sizeBytes buffer.type = .ok 1 := by
    rw [Registry.sizeBytes, Registry.width, Registry.widthWithin, kindIs]
    rfl
  have named : types.typeName buffer.type = .ok "uint8_t" := by
    rw [Registry.typeName, Registry.nameWithin, kindIs]
    rfl
  have count : (buffer.size + max 1 1 - 1) / max 1 1 = buffer.size := by simp
  rw [staticDeclaration, size, named]
  change Except.ok ("static " ++ "uint8_t" ++ " " ++ buffer.name ++ "[" ++
    toString ((buffer.size + max 1 1 - 1) / max 1 1) ++ "];") = _
  rw [count]
  rfl

/-- A context declares an arena: a global array of bytes. -/
structure Context.HoldsArena (arena : String) (context : Context) : Prop where
  located : context.isLocal arena = false
  stored : ∃ storage, context.find? arena = some storage ∧ Context.isStatic storage = true ∧
    context.types.kinds[storage.type.index]? = some (.int 8 false)

namespace Context.HoldsArena

variable {arena : String} {start finish : Context} {bound : Option String}

theorem evolve (holds : start.HoldsArena arena) (evolves : start.Evolves bound finish)
    (apart : bound ≠ some arena) : finish.HoldsArena arena := by
  obtain ⟨storage, found, static, byte⟩ := holds.stored
  obtain ⟨after, afterFound, grown⟩ := evolves.kept apart found
  have types : after.core.type = storage.core.type := congrArg Buffer.type grown.core
  have statics : isStatic after.core = isStatic storage.core := congrArg isStatic grown.core
  refine ⟨(evolves.located apart found).trans holds.located, after, afterFound,
    statics.trans static, ?_⟩
  have sameType : after.type = storage.type := types
  obtain ⟨later, whole⟩ := evolves.typed
  have listed := (List.getElem?_eq_some_iff.mp byte).1
  rw [sameType, ← whole, List.getElem?_append_left listed]
  exact byte

/-- The declaration of an arena has as many bytes as the arena. -/
theorem declared {context : Context} {statics : List String} (holds : context.HoldsArena arena)
    (declares : context.staticDeclarations = .ok statics) :
    ∃ storage, context.find? arena = some storage ∧
      "static uint8_t " ++ arena ++ "[" ++ toString storage.size ++ "];" ∈ statics := by
  obtain ⟨storage, found, static, byte⟩ := holds.stored
  have notLocal : context.locals.find? arena = none := by
    have located := holds.located
    rwa [isLocal, BufferTable.contains, Option.isSome_eq_false_iff, Option.isNone_iff_eq_none]
      at located
  have global : context.globals.find? arena = some storage := by
    rw [find?, notLocal] at found
    exact found
  have listed := List.mem_filter.mpr ⟨BufferTable.mem_of_findIn global, static⟩
  obtain ⟨text, member, written⟩ := Json.exists_of_mem_of_mapM_eq_ok declares storage listed
  have named : storage.name = arena := BufferTable.name_of_findIn global
  rw [staticDeclaration_of_byte byte, named] at written
  cases written
  exact ⟨storage, found, member⟩

end Context.HoldsArena

/-! ### The extent of an arena -/

namespace MemoryConstraint

theorem ends_of_foldlM {ranges : List AddressRange} {start extent : Nat}
    (folded : ranges.foldlM (fun extent range => range.end?.map (max extent)) start =
      some extent) :
    start ≤ extent ∧ ∀ range ∈ ranges, ∃ stop, range.end? = some stop ∧ stop ≤ extent := by
  induction ranges generalizing start with
  | nil =>
      cases folded
      exact ⟨Nat.le_refl _, fun _ member => absurd member List.not_mem_nil⟩
  | cons range ranges ih =>
      rw [List.foldlM_cons] at folded
      obtain ⟨next, nextIs, later⟩ := Option.bind_eq_some_iff.mp folded
      obtain ⟨stop, stopIs, rfl⟩ := Option.map_eq_some_iff.mp nextIs
      obtain ⟨least, others⟩ := ih later
      refine ⟨by omega, List.forall_mem_cons.mpr ⟨⟨stop, stopIs, by omega⟩, others⟩⟩

theorem mem_ranges {constraint : MemoryConstraint} {tensor level : String} {range : AddressRange}
    (found : constraint.range? tensor level = some range) : range ∈ constraint.ranges level := by
  obtain ⟨levels, tensorFound, levelFound⟩ := Option.bind_eq_some_iff.mp found
  refine List.mem_filterMap.mpr ⟨levels, ?_, levelFound⟩
  exact List.mem_map_of_mem (f := Prod.snd) (Dict.mem_entries_iff.mpr tensorFound)

/-- The extent covers every range. -/
theorem end_le_extent {constraint : MemoryConstraint} {tensor level : String}
    {range : AddressRange} {extent : Nat} (found : constraint.range? tensor level = some range)
    (extentIs : constraint.arenaExtent? level = some extent) :
    range.offset + range.length ≤ extent := by
  obtain ⟨stop, stopIs, within⟩ := (ends_of_foldlM extentIs).2 range (mem_ranges found)
  unfold AddressRange.end? at stopIs
  split at stopIs
  · cases stopIs
    exact within
  · cases stopIs

/-- There is no extent if a range is out of reach. -/
theorem arenaExtent?_eq_none {constraint : MemoryConstraint} {level : String}
    {range : AddressRange} (member : range ∈ constraint.ranges level)
    (overflows : addressLimit ≤ range.offset + range.length) :
    constraint.arenaExtent? level = none := by
  rw [Option.eq_none_iff_forall_ne_some]
  intro extent extentIs
  obtain ⟨stop, stopIs, -⟩ := (ends_of_foldlM extentIs).2 range member
  rw [AddressRange.end?, if_neg (Nat.not_lt.mpr overflows)] at stopIs
  exact Option.some_ne_none _ stopIs.symm

end MemoryConstraint

namespace Lowering

open Context (clearFrame_evolves clearFrame_given)

variable {tiling : Tiling} {level operation arena : String} {draft next : TileDraft}
  {workspace final : Workspace}

theorem extent_eq_ok {extent : Nat} (asked : tiling.extent operation level = .ok extent) :
    tiling.constraint.arenaExtent? level = some extent := by
  unfold Tiling.extent at asked
  split at asked
  · next held =>
      cases asked
      exact held
  · cases asked

theorem range_eq_ok {tensor : String} {range : AddressRange}
    (asked : tiling.range tensor level = .ok range) :
    tiling.constraint.range? tensor level = some range := by
  unfold Tiling.range at asked
  split at asked
  · next held =>
      cases asked
      exact held
  · cases asked

theorem given_of_mangle {logical identifier : String}
    (ran : mangle logical workspace = .ok identifier final) :
    final.context.mangled.find? logical = some identifier := by
  obtain ⟨rfl, finalIs⟩ := mangle_eq_ok ran
  exact finalIs ▸ workspace.context.given_mangle logical

/-- An arena that is new is global storage of bytes. -/
theorem holdsArena_ensureArena {extent : Nat}
    (ran : ensureArena level extent workspace = .ok arena final)
    (new : workspace.context.isBuffer arena = false) : final.context.HoldsArena arena := by
  obtain ⟨name, named, naming, afterName⟩ := bind_eq_ok ran
  obtain ⟨-, namedIs⟩ := mangle_eq_ok naming
  obtain ⟨known, asked, asking, afterAsk⟩ := bind_eq_ok afterName
  obtain ⟨knownIs, rfl⟩ := ask_eq_ok asking
  cases knownIs
  have unknown : ∀ other, asked.context.isBuffer other = workspace.context.isBuffer other := by
    intro other
    rw [Bool.eq_iff_iff, Context.isBuffer_iff, Context.isBuffer_iff, namedIs, Context.find?_mangle]
  split at afterAsk
  · next known =>
      obtain ⟨_, grown, -, last⟩ := bind_eq_ok afterAsk
      obtain ⟨rfl, -⟩ := pure_eq_ok last
      exact absurd (known.symm.trans ((unknown _).trans new)) (by simp)
  · next absent =>
      obtain ⟨byte, interned, interning, afterType⟩ := bind_eq_ok afterAsk
      obtain ⟨_, added, adding, last⟩ := bind_eq_ok afterType
      obtain ⟨rfl, rfl⟩ := pure_eq_ok last
      obtain ⟨rfl, internedIs⟩ := intern_eq_ok interning
      have still : interned.context.isBuffer name = false := by
        rw [internedIs]
        exact Bool.not_eq_true _ ▸ absent
      rcases Context.add_cases (add_eq_ok adding) with ⟨-, same⟩ | ⟨_, targeted, -⟩
      · rw [same]
        refine ⟨?_, _, Context.find?_push_self still _, rfl, ?_⟩
        · exact (Bool.or_eq_false_iff.mp still).1
        · rw [internedIs]
          exact Registry.getElem?_intern _ _
      · cases targeted

/-- When the views of a kernel are made, its arena is provided; it is global storage of bytes if it
was not there before. -/
theorem openTiling_eq_ok {kernel : Fragment} {opened : String × TileDraft}
    (ran : openTiling tiling level operation kernel workspace = .ok opened final) :
    ∃ extent, tiling.constraint.arenaExtent? level = some extent ∧
      final.context.Provides level opened.1 extent ∧
      (workspace.context.isBuffer opened.1 = false → final.context.HoldsArena opened.1) ∧
      opened.2.record.declarations = [] ∧ opened.2.record.replacements = [] := by
  obtain ⟨_, checked, checking, afterCheck⟩ := bind_eq_ok ran
  obtain ⟨-, rfl⟩ := ask_eq_ok checking
  obtain ⟨extent, asked, asking, afterExtent⟩ := bind_eq_ok afterCheck
  obtain ⟨extentIs, rfl⟩ := ask_eq_ok asking
  obtain ⟨arena, ensured, ensuring, afterArena⟩ := bind_eq_ok afterExtent
  obtain ⟨_, occupied, occupying, afterOccupy⟩ := bind_eq_ok afterArena
  obtain ⟨loopVariable, looped, looping, last⟩ := bind_eq_ok afterOccupy
  obtain ⟨rfl, rfl⟩ := pure_eq_ok last
  have frame := clearFrame_evolves none ensured.context
  have occupied :=
    ((preserves_occupy frame.openFrame level extent).ok (.refl none _) occupying).1
  have looped := ((preserves_mangle_evolves none (operation ++ "_tile")).ok occupied looping).1
  obtain ⟨arenaIs, room⟩ := ensureArena_eq_ok ensuring
  have named : (asked.context.mangle (arenaName level)).2.Evolves none ensured.context :=
    finish_of_ok ensuring ▸
      finish_ensureArena (clearFrame_evolves none _).openFrame (.refl none _) extent
  have provided : ensured.context.Provides level arena extent :=
    ⟨arenaIs ▸ named.named (asked.context.given_mangle _), room⟩
  exact ⟨extent, extent_eq_ok extentIs, provided.evolve looped (by simp),
    fun new => (holdsArena_ensureArena ensuring new).evolve looped (by simp), rfl, rfl⟩

end Lowering

end TensorLowering
