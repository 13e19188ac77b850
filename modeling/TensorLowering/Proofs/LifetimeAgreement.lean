import TensorLowering.Proofs.Agreement
import TensorLowering.Proofs.Dictionaries
import TensorLowering.Proofs.Invariants
import TensorLowering.Proofs.TargetOrder

/-! # Lifetimes with and without code

The books of an operation are kept in the same way whether or not code is written for them. What
can go wrong with the code alone is that the type of a buffer has no name. If the types of the
buffers concerned have names, both ways end alike, and the code is one fragment for each buffer
that was made and for each owner whose storage was returned
(`TensorLowering.Lowering.manageLifetimes_agree`).
-/

namespace TensorLowering

namespace Context

/-! ### The books -/

/-- Make buffers live, the last one first. -/
def allocateAll (context : Context) (operation : String) (names : List String) :
    Except Error Context :=
  names.foldrM (fun name reached => reached.allocate name operation) context

/-- The owners whose storage is returned by freeing buffers in order, up to the first failure. -/
def releases (context : Context) (operation : String) : List String → List String
  | [] => []
  | name :: names =>
      match context.deallocate name operation with
      | (.ok owners, after) => owners ++ after.releases operation names
      | (.error _, _) => []

/-- Whether the type of the buffer that a name denotes has a name. -/
def hasTypeName (context : Context) (name : String) : Bool :=
  (context.find? name).all fun buffer => (context.types.typeName buffer.type).isOk

theorem hasTypeName_atRest (context : Context) (name : String) :
    context.atRest.hasTypeName name = context.hasTypeName name := by
  rw [hasTypeName, find?_atRest, Option.all_map]
  rfl

theorem hasTypeName_congr {first second : Context} (same : first.atRest = second.atRest)
    (name : String) : first.hasTypeName name = second.hasTypeName name := by
  rw [← hasTypeName_atRest, same, hasTypeName_atRest]

theorem exists_typeName {context : Context} {name : String} {buffer : Buffer}
    (named : context.hasTypeName name = true) (found : context.find? name = some buffer) :
    ∃ typeName, context.types.typeName buffer.type = .ok typeName := by
  rw [hasTypeName, found, Option.all_some] at named
  cases typed : context.types.typeName buffer.type with
  | ok typeName => exact ⟨typeName, rfl⟩
  | error error => rw [typed] at named; cases named

/-- The levels of the buffers that names denote, each of them once. -/
def levelsOf (context : Context) (names : List String) : List String :=
  let levels : NameSet := .ofList <|
    (names.filterMap context.find?).map fun buffer => (buffer.levelKey, ())
  levels.keys

theorem mem_levelsOf_iff {context : Context} {names : List String} {level : String} :
    level ∈ context.levelsOf names ↔
      ∃ name ∈ names, ∃ buffer, context.find? name = some buffer ∧ buffer.levelKey = level := by
  rw [levelsOf, Dict.mem_keys_ofList, List.map_map, List.mem_map]
  constructor
  · intro held
    obtain ⟨buffer, listed, levelIs⟩ := held
    obtain ⟨name, member, found⟩ := List.mem_filterMap.mp listed
    exact ⟨name, member, buffer, found, levelIs⟩
  · intro held
    obtain ⟨name, member, buffer, found, levelIs⟩ := held
    exact ⟨buffer, List.mem_filterMap.mpr ⟨name, member, found⟩, levelIs⟩

theorem levelsOf_atRest (context : Context) (names : List String) :
    context.atRest.levelsOf names = context.levelsOf names := by
  have foundAtRest : context.atRest.find? = fun name => (context.find? name).map Buffer.atRest :=
    funext context.find?_atRest
  rw [levelsOf, foundAtRest, ← List.map_filterMap, List.map_map]
  rfl

theorem levelsOf_congr {first second : Context} (same : first.atRest = second.atRest)
    (names : List String) : first.levelsOf names = second.levelsOf names := by
  rw [← levelsOf_atRest, same, levelsOf_atRest]

end Context

/-- The owners whose storage an operation returns, in the order in which it does. -/
def Block.released (block : Block) (context : Context) (operation : String) : List String :=
  let lifetimes := block.lifetimes context operation
  match (context.sortByTargets lifetimes.allocated).bind (context.allocateAll operation) with
  | .ok opened => opened.releases operation lifetimes.freed
  | .error _ => []

theorem Block.released_eq {block : Block} {context opened : Context} {operation : String}
    {allocated : List String}
    (sorted : context.sortByTargets (block.lifetimes context operation).allocated = .ok allocated)
    (allocates : context.allocateAll operation allocated = .ok opened) :
    block.released context operation =
      opened.releases operation (block.lifetimes context operation).freed := by
  rw [released, sorted, Except.bind, allocates]

theorem Block.mem_references_of_allocated {block : Block} {context : Context}
    {operation name : String} (member : name ∈ (block.lifetimes context operation).allocated) :
    name ∈ block.references context .unrolled := by
  obtain ⟨buffer, chosen, rfl⟩ := List.mem_map.mp member
  obtain ⟨listed, isListed, found⟩ := List.mem_filterMap.mp (List.mem_of_mem_filter chosen)
  rwa [Context.name_of_find? found]

namespace LifetimeTemplates

variable {templates : LifetimeTemplates} {types : Registry} {buffer : Buffer} {typeName : String}

theorem exists_bindings (typed : types.typeName buffer.type = .ok typeName) :
    ∃ description, bindings types buffer = .ok description := by
  rw [bindings, typed]
  exact ⟨_, rfl⟩

/-- There is code for a buffer whose type has a name. -/
theorem exists_allocation (typed : types.typeName buffer.type = .ok typeName) :
    ∃ fragment, templates.allocation types buffer = .ok fragment := by
  obtain ⟨description, described⟩ := exists_bindings typed
  rw [allocation, described]
  exact ⟨_, rfl⟩

theorem exists_release (typed : types.typeName buffer.type = .ok typeName) :
    ∃ fragment, templates.release types buffer = .ok fragment := by
  obtain ⟨description, described⟩ := exists_bindings typed
  rw [release, described]
  exact ⟨_, rfl⟩

end LifetimeTemplates

namespace Lowering

variable {templates : LifetimeTemplates} {operation : String} {context : Context}

/-- With code there is one fragment for a buffer, without code there is none. -/
theorem agree_lifetimeCode {make : LifetimeTemplates → Registry → Buffer → Except Error Fragment}
    (writes : ∀ {types buffer typeName}, types.typeName buffer.type = .ok typeName →
      ∃ fragment, make templates types buffer = .ok fragment)
    {name : String} (named : context.hasTypeName name = true) :
    Agree context (fun after code silent => after = context ∧ silent = [] ∧
        ∃ fragment, code = [fragment] ∧ context.Codes (make templates) name fragment)
      (lifetimeCode (some templates) make name) (lifetimeCode none make name) := by
  apply (agree_lookup name).bind
  intro after buffer other answers
  obtain ⟨-, found, rfl⟩ := answers
  obtain ⟨typeName, typed⟩ := Context.exists_typeName named found
  obtain ⟨fragment, made⟩ := writes typed
  exact agree_ask_bind made (agree_pure ⟨rfl, rfl, fragment, rfl, buffer, found, made⟩)

/-- Making buffers ends alike with and without code, and there is one fragment for each. -/
theorem agree_allocateAll {names : List String}
    (named : ∀ name ∈ names, context.hasTypeName name = true) :
    Agree context (fun after code silent => silent = [] ∧
        context.allocateAll operation names = .ok after ∧ after.atRest = context.atRest ∧
        List.Forall₂ (context.Codes templates.allocation) names code)
      (allocateAll (some templates) operation names) (allocateAll none operation names) := by
  induction names with
  | nil => exact agree_pure ⟨rfl, rfl, rfl, .nil⟩
  | cons name names ih =>
      apply (ih fun other member => named other (List.mem_cons_of_mem _ member)).bind
      intro middle later silent answers
      obtain ⟨rfl, laterAllocated, laterSame, laterCodes⟩ := answers
      apply (agree_allocate name operation).bind
      intro after _ _ answers
      obtain ⟨-, allocated⟩ := answers
      have same : after.atRest = context.atRest :=
        (Context.atRest_allocate allocated).trans laterSame
      have stillNamed : after.hasTypeName name = true := by
        rw [Context.hasTypeName_congr same]
        exact named name List.mem_cons_self
      apply (agree_lifetimeCode LifetimeTemplates.exists_allocation stillNamed).bind
      intro still code none answers
      obtain ⟨rfl, rfl, fragment, rfl, codes⟩ := answers
      refine agree_pure ⟨rfl, ?_, same, .cons (codes.congr same fun _ _ => rfl) laterCodes⟩
      rw [Context.allocateAll, List.foldrM_cons, ← Context.allocateAll, laterAllocated]
      exact allocated

theorem agree_releaseCode {owners : List String}
    (named : ∀ owner ∈ owners, context.hasTypeName owner = true) :
    Agree context (fun after code silent => after = context ∧ silent = [] ∧
        List.Forall₂ (context.Codes templates.release) owners code)
      (releaseCode (some templates) owners) (releaseCode none owners) := by
  induction owners with
  | nil => exact agree_pure ⟨rfl, rfl, .nil⟩
  | cons owner owners ih =>
      apply (agree_lifetimeCode LifetimeTemplates.exists_release
        (named owner List.mem_cons_self)).bind
      intro after code none answers
      obtain ⟨rfl, rfl, fragment, rfl, codes⟩ := answers
      apply (ih fun other member => named other (List.mem_cons_of_mem _ member)).bind
      intro still later none answers
      obtain ⟨rfl, rfl, laterCodes⟩ := answers
      exact agree_pure ⟨rfl, rfl, .cons codes laterCodes⟩

/-- Freeing buffers ends alike with and without code, and there is one fragment for each owner whose
storage is returned. -/
theorem agree_deallocateAll {names : List String}
    (named : ∀ owner ∈ context.releases operation names, context.hasTypeName owner = true) :
    Agree context (fun after closed silent => closed.1 = context.releases operation names ∧
        silent = (closed.1, []) ∧ after.atRest = context.atRest ∧
        List.Forall₂ (context.Codes templates.release) closed.1 closed.2)
      (deallocateAll (some templates) operation names) (deallocateAll none operation names) := by
  induction names generalizing context with
  | nil => exact agree_pure ⟨rfl, rfl, rfl, .nil⟩
  | cons name names ih =>
      apply (agree_deallocate name operation).bind
      intro middle owners _ answers
      obtain ⟨rfl, freed⟩ := answers
      have same : middle.atRest = context.atRest := by
        have rests := context.atRest_deallocate name operation
        rwa [freed] at rests
      have releasesIs : context.releases operation (name :: names) =
          owners ++ middle.releases operation names := by
        rw [Context.releases, freed]
      rw [releasesIs] at named ⊢
      have stillNamed : ∀ owner ∈ owners ++ middle.releases operation names,
          middle.hasTypeName owner = true := by
        intro owner member
        rw [Context.hasTypeName_congr same]
        exact named owner member
      -- The code of a release is written after the release, but types do not change.
      apply (agree_releaseCode fun owner member =>
        stillNamed owner (List.mem_append_left _ member)).bind
      intro after code none answers
      obtain ⟨still, rfl, codes⟩ := answers
      rw [still]
      apply (ih fun owner member => stillNamed owner (List.mem_append_right _ member)).bind
      intro last later silent answers
      obtain ⟨laterIs, rfl, lastSame, laterCodes⟩ := answers
      have codesBefore : ∀ name fragment, middle.Codes templates.release name fragment →
          context.Codes templates.release name fragment :=
        fun _ _ codes => codes.congr same fun _ _ => rfl
      refine agree_pure ⟨?_, rfl, lastSame.trans same, List.rel_append ?_ ?_⟩
      · rw [laterIs]
      · exact codes.imp codesBefore
      · exact laterCodes.imp codesBefore

/-- Opening the lifetimes of an operation ends alike with and without code. -/
theorem agree_beginLifetimes {block : Block}
    (named : ∀ name ∈ block.references context .unrolled, context.hasTypeName name = true) :
    Agree context (fun after opened silent => silent = { opened with code := [] } ∧
        opened.freed = (block.lifetimes context operation).freed ∧
        context.sortByTargets (block.lifetimes context operation).allocated =
          .ok opened.allocated ∧
        context.allocateAll operation opened.allocated = .ok after ∧
        after.atRest = context.atRest ∧
        List.Forall₂ (context.Codes templates.allocation) opened.allocated opened.code)
      (beginLifetimes (some templates) block operation) (beginLifetimes none block operation) := by
  apply (agree_references block .unrolled).bind
  intro _ names _ answers
  obtain ⟨namesSame, namesIs, still⟩ := answers
  rw [still, ← namesSame]
  apply (agree_lookups names).bind
  intro _ buffers _ answers
  obtain ⟨buffersSame, buffersIs, still⟩ := answers
  rw [still, ← buffersSame]
  have lifetimesIs : Lifetimes.classify operation buffers = block.lifetimes context operation := by
    rw [Block.lifetimes, buffersIs, namesIs]
  rw [lifetimesIs]
  apply (agree_ask _).bind
  intro _ allocated _ answers
  obtain ⟨allocatedSame, sorted, still⟩ := answers
  rw [still, ← allocatedSame]
  have allocatedNamed : ∀ name ∈ allocated, context.hasTypeName name = true := by
    intro name member
    have chosen := (Context.perm_of_sortByTargets sorted).mem_iff.mp member
    exact named name (Block.mem_references_of_allocated chosen)
  apply (agree_allocateAll allocatedNamed).bind
  intro after code silent answers
  obtain ⟨rfl, allocating, same, codes⟩ := answers
  exact agree_pure ⟨rfl, rfl, sorted, allocating, same, codes⟩

/-- Closing the lifetimes of an operation ends alike with and without code. -/
theorem agree_endLifetimes {opened : OpenLifetimes} (annotate : Bool)
    (named : ∀ owner ∈ context.releases operation opened.freed,
      context.hasTypeName owner = true) :
    Agree context (fun after code silent => silent = [] ∧
        ∃ released, List.Forall₂ (context.Codes templates.release)
            (context.releases operation opened.freed) released ∧
          code = released ++ if annotate then
            (context.levelsOf (opened.allocated ++ context.releases operation opened.freed)).map
              fun level => templates.comment operation level (after.inUse level)
            else [])
      (endLifetimes (some templates) annotate operation opened)
      (endLifetimes none annotate operation { opened with code := [] }) := by
  apply (agree_deallocateAll named).bind
  intro after closed silent answers
  obtain ⟨owners, released⟩ := closed
  obtain ⟨ownersIs, rfl, same, codes⟩ := answers
  dsimp only at ownersIs codes
  rw [← ownersIs]
  cases annotate with
  | false => exact agree_pure ⟨rfl, released, codes, (List.append_nil _).symm⟩
  | true =>
      apply agree_ask_bind
      · rfl
      apply agree_ask_bind
      · rfl
      refine agree_pure ⟨rfl, released, codes, ?_⟩
      rw [if_pos rfl, ← Context.levelsOf_congr same]
      rfl

end Lowering

/-- The code for the lifetimes of an operation: one fragment that makes each of its new buffers,
targets before the references into them, one that frees each owner whose storage it returns, in that
order, and a note on each level of all these buffers, with the bytes that are in use at last. -/
structure LifetimeCode (templates : LifetimeTemplates) (block : Block) (operation : String)
    (context finish : Context) where
  allocated : List String
  sorted : context.sortByTargets (block.lifetimes context operation).allocated = .ok allocated
  targetOrder : context.TargetOrder (block.lifetimes context operation).allocated allocated
  opened : Context
  allocates : context.allocateAll operation allocated = .ok opened
  made : List Fragment
  makes : List.Forall₂ (fun name fragment => ∃ buffer, context.find? name = some buffer ∧
    templates.Makes context.types buffer fragment) allocated made
  released : List Fragment
  frees : List.Forall₂ (fun owner fragment => ∃ buffer, context.find? owner = some buffer ∧
    templates.Frees context.types buffer fragment) (block.released context operation) released
  levels : List String
  levels_nodup : levels.Nodup
  mem_levels_iff : ∀ level, level ∈ levels ↔
    ∃ name ∈ allocated ++ block.released context operation,
      ∃ buffer, context.find? name = some buffer ∧ buffer.levelKey = level
  comments : List Fragment
  notes : List.Forall₂ (fun level => templates.Notes operation level (finish.inUse level))
    levels comments

/-- A block with the code for the lifetimes around it, and with the notes on the levels at last if
they are asked for. -/
def LifetimeCode.around {templates : LifetimeTemplates} {block : Block} {operation : String}
    {context finish : Context} (code : LifetimeCode templates block operation context finish)
    (annotate : Bool) : Block :=
  { block with fragments :=
      code.made ++ block.fragments ++ code.released ++ if annotate then code.comments else [] }

/-- There is a note on each level. -/
theorem LifetimeCode.exists_note {templates : LifetimeTemplates} {block : Block}
    {operation : String} {context finish : Context}
    (code : LifetimeCode templates block operation context finish) {level : String}
    (member : level ∈ code.levels) :
    ∃ comment ∈ code.comments,
      templates.Notes operation level (finish.inUse level) comment := by
  have notes := code.notes
  generalize code.levels = levels, code.comments = comments at member notes ⊢
  induction notes with
  | nil => cases member
  | cons first _ ih =>
      rcases List.mem_cons.mp member with rfl | later
      · exact ⟨_, List.mem_cons_self, first⟩
      · obtain ⟨comment, listed, notes⟩ := ih later
        exact ⟨comment, List.mem_cons_of_mem _ listed, notes⟩

namespace Lowering

variable {operation : String} {context : Context} {block : Block}

/-- **Keeping the books with and without code.** If the types of the buffers that a block refers to
and of the owners whose storage is returned have names, both ways fail with the same error or
both succeed, and they leave the same context. Without code the block stays as it is, and with code
it has the code for the lifetimes around it. -/
theorem manageLifetimes_agree (templates : LifetimeTemplates) (annotate : Bool)
    (namedReferences : ∀ name ∈ block.references context .unrolled,
      context.hasTypeName name = true)
    (namedOwners : ∀ owner ∈ block.released context operation,
      context.hasTypeName owner = true) :
    Agree context (fun finish emitted silent => silent = block ∧
        ∃ code : LifetimeCode templates block operation context finish,
          emitted = code.around annotate)
      (manageLifetimes (some templates) annotate block operation)
      (manageLifetimes none annotate block operation) := by
  apply (agree_beginLifetimes namedReferences).bind
  intro middle opened silent answers
  obtain ⟨rfl, freedIs, sorted, allocates, same, made⟩ := answers
  have owners := Block.released_eq sorted allocates
  rw [← freedIs] at owners
  have stillNamed : ∀ owner ∈ middle.releases operation opened.freed,
      middle.hasTypeName owner = true := by
    intro owner member
    rw [Context.hasTypeName_congr same]
    exact namedOwners owner (owners ▸ member)
  apply (agree_endLifetimes annotate stillNamed).bind
  intro finish code none answers
  obtain ⟨rfl, released, codes, rfl⟩ := answers
  have releasedCodes : List.Forall₂ (context.Codes templates.release)
      (block.released context operation) released := by
    rw [owners]
    exact codes.imp fun _ _ codes => codes.congr same fun _ _ => rfl
  refine agree_pure ⟨?_, {
    allocated := opened.allocated
    sorted
    targetOrder := Context.targetOrder_of_sortByTargets sorted
    opened := middle
    allocates
    made := opened.code
    makes := made.imp fun _ _ ⟨buffer, found, made⟩ =>
      ⟨buffer, found, LifetimeTemplates.allocation_eq_ok made⟩
    released
    frees := releasedCodes.imp fun _ _ ⟨buffer, found, freed⟩ =>
      ⟨buffer, found, LifetimeTemplates.release_eq_ok freed⟩
    levels := context.levelsOf (opened.allocated ++ block.released context operation)
    levels_nodup := Dict.nodup_keys _
    mem_levels_iff := fun level => Context.mem_levelsOf_iff
    comments := _
    notes := List.forall₂_map_right_iff.mpr <| List.forall₂_same.mpr fun level _ =>
      templates.notes_comment operation level (finish.inUse level) }, ?_⟩
  · rw [Block.prepend, Block.append, List.nil_append, List.append_nil]
  · rw [Context.levelsOf_congr same, ← owners, LifetimeCode.around, Block.prepend, Block.append,
      List.append_assoc _ released]

/-- A view that is listed before its target, and an input that is live. -/
def sharedContext : Context where
  types := { kinds := [.float 32 23 8] }
  locals := ⟨[
    { name := "v", type := ⟨0⟩, level := some "L1", kind := .reference "b" 8 },
    { name := "b", type := ⟨0⟩, size := 64, level := some "L1", aliases := ["v"] },
    { name := "x", type := ⟨0⟩, size := 32, level := some "L2", users := ["fill"], live := true }]⟩
  dynamicSize := .ofList [("L2", 32)]
  maxDynamicSize := .ofList [("L2", 32)]

/-- An operation that makes the view and its target, and uses up the input. -/
def sharedBlock : Block :=
  .ofFragments [.ofSource "fill(${out}, ${view}, ${in});"
    [("out", .name "b"), ("view", .name "v"), ("in", .name "x")]]

/-- The operation touches both levels. -/
theorem perm_levels_sharedBlock {finish : Context}
    (code : LifetimeCode {} sharedBlock "fill" sharedContext finish)
    (owners : sharedBlock.released sharedContext "fill" = ["x"])
    (allocated : code.allocated = ["b", "v"]) : code.levels.Perm ["L1", "L2"] := by
  refine (List.perm_ext_iff_of_nodup code.levels_nodup (by decide)).mpr fun level => ?_
  rw [code.mem_levels_iff, allocated, owners]
  have only : ∀ name ∈ ["b", "v", "x"], ∀ buffer ∈ sharedContext.find? name,
      buffer.levelKey ∈ ["L1", "L2"] := by decide
  have all : ∀ level ∈ ["L1", "L2"], ∃ name ∈ ["b", "v", "x"],
      (sharedContext.find? name).map Buffer.levelKey = some level := by decide
  constructor
  · rintro ⟨name, member, buffer, found, rfl⟩
    exact only name member buffer found
  · intro member
    obtain ⟨name, listed, level⟩ := all level member
    obtain ⟨buffer, found, rfl⟩ := Option.map_eq_some_iff.mp level
    exact ⟨name, listed, buffer, found, rfl⟩

theorem manageLifetimes_agree_sharedBlock :
    sharedBlock.released sharedContext "fill" = ["x"] ∧
    ∃ (first second : Workspace)
      (code : LifetimeCode {} sharedBlock "fill" sharedContext first.context),
      manageLifetimes (some {}) true sharedBlock "fill" { context := sharedContext } =
        .ok (code.around true) first ∧
      manageLifetimes none true sharedBlock "fill" { context := sharedContext } =
        .ok sharedBlock second ∧
      first.context = second.context ∧
      code.allocated = ["b", "v"] ∧
      code.made.map (fun fragment => (fragment.template, fragment.subject?)) =
        [(({} : LifetimeTemplates).alloc, some "b"),
          (({} : LifetimeTemplates).reference, some "v")] ∧
      code.released.map (fun fragment => (fragment.template, fragment.subject?)) =
        [(({} : LifetimeTemplates).dealloc, some "x")] ∧
      code.comments.length = 2 ∧
      (∃ comment ∈ code.comments, LifetimeTemplates.Notes {} "fill" "L1" 64 comment) ∧
      ∃ comment ∈ code.comments, LifetimeTemplates.Notes {} "fill" "L2" 0 comment := by
  obtain ⟨owners, sorted, succeeds, namedReferences, namedOwners⟩ :
      sharedBlock.released sharedContext "fill" = ["x"] ∧
      sharedContext.sortByTargets (sharedBlock.lifetimes sharedContext "fill").allocated =
        .ok ["b", "v"] ∧
      observe (manageLifetimes none true sharedBlock "fill")
        (fun _ final => (final.context.inUse "L1", final.context.inUse "L2"))
        { context := sharedContext } = some (64, 0) ∧
      (∀ name ∈ sharedBlock.references sharedContext .unrolled,
        sharedContext.hasTypeName name = true) ∧
      ∀ owner ∈ sharedBlock.released sharedContext "fill",
        sharedContext.hasTypeName owner = true := by
    decide +kernel
  obtain ⟨kept, second, ran, inUse⟩ := exists_of_observe succeeds
  have alike := manageLifetimes_agree {} true namedReferences namedOwners .empty .empty
  rw [ran] at alike ⊢
  refine ⟨owners, ?_⟩
  generalize manageLifetimes _ true sharedBlock "fill" _ = outcome at alike ⊢
  cases alike with
  | @ok first _ _ _ same holds =>
      obtain ⟨keptIs, code, emittedIs⟩ := holds
      have allocated : code.allocated = ["b", "v"] :=
        Except.ok.inj (code.sorted.symm.trans sorted)
      have levels := perm_levels_sharedBlock code owners allocated
      rw [← same, Prod.mk.injEq] at inUse
      refine ⟨first, second, code, ?_, ?_, same, allocated, ?_, ?_, ?_, ?_, ?_⟩
      · rw [emittedIs]
      · rw [keptIs]
      · rw [LifetimeTemplates.map_of_makes (Context.forall₂_filterMap_find? code.makes), allocated]
        decide +kernel
      · rw [LifetimeTemplates.map_of_frees (Context.forall₂_filterMap_find? code.frees), owners]
        decide +kernel
      · rw [← code.notes.length_eq, levels.length_eq]
        rfl
      · rw [← inUse.1]
        exact code.exists_note (levels.mem_iff.mpr (by decide))
      · rw [← inUse.2]
        exact code.exists_note (levels.mem_iff.mpr (by decide))

end Lowering

end TensorLowering
