import TensorLowering.Proofs.ManagedBuffers

/-! # What tiling writes into a kernel

While a kernel is tiled, its keys are rebound one after the other to views under unmanaged names,
and the record notes the buffers that were bound to the keys of tiled tensors. All the rest of the
kernel stays (`TensorLowering.TileDraft.Follows`).
-/

namespace TensorLowering

/-- A fragment binds no managed name. -/
def Fragment.Aside (context : Context) (fragment : Fragment) : Prop :=
  ∀ {key name}, fragment.bindings.find? key = some (.name name) → context.Unmanaged name

/-- A draft of a tiled kernel: the keys of tensors and some others are bound to views, and the
record notes what the keys of tensors were bound to. -/
structure TileDraft.Follows (origin : Context) (kernel : Fragment) (tensors others : List String)
    (draft : TileDraft) : Prop where
  source : draft.fragment.template.source = kernel.template.source
  untouched : ∀ {key}, key ∉ tensors → key ∉ others →
    draft.fragment.bindings.find? key = kernel.bindings.find? key
  rebound : ∀ {key}, key ∈ tensors ∨ key ∈ others →
    ∃ view, draft.fragment.bindings.find? key = some (.name view) ∧ origin.Unmanaged view
  externals : ∀ {name}, ¬ origin.Unmanaged name →
    (name ∈ draft.record.tiled.map TiledTensor.external ↔
      ∃ key ∈ tensors, kernel.bindings.find? key = some (.name name))
  tiled : ∀ tensor ∈ draft.record.tiled,
    origin.Unmanaged tensor.view ∧ origin.Unmanaged tensor.offsets
  declarations : ∀ declaration ∈ draft.record.declarations,
    declaration.Aside origin ∧ declaration.template = ({} : LifetimeTemplates).reference
  replacements : ∀ replacement ∈ draft.record.replacements,
    origin.Unmanaged replacement.1 ∧ origin.Unmanaged replacement.2

namespace TileDraft.Follows

variable {origin : Context} {kernel : Fragment} {tensors others : List String} {draft : TileDraft}
  {key view : String} {declaration : Fragment}

theorem start (origin : Context) (kernel : Fragment) (level loopVariable : String) (count : Nat) :
    TileDraft.Follows origin kernel [] []
      ⟨{ kernel with tiling := none }, { level, loopVariable, tileCount := count }⟩ where
  source := rfl
  untouched _ _ := rfl
  rebound listed := absurd listed (by simp)
  externals _ := by simp
  tiled _ member := absurd member List.not_mem_nil
  declarations _ member := absurd member List.not_mem_nil
  replacements _ member := absurd member List.not_mem_nil

/-- Binding a key of a tensor to a view and noting what it was bound to. -/
theorem tensor (follows : draft.Follows origin kernel tensors []) {tensor : TiledTensor}
    (bound : draft.fragment.bindings.find? key = some (.name tensor.external))
    (unmanaged : origin.Unmanaged view) (aside : declaration.Aside origin)
    (written : declaration.template = ({} : LifetimeTemplates).reference)
    (noted : origin.Unmanaged tensor.view ∧ origin.Unmanaged tensor.offsets) :
    ((draft.rebind key view declaration).noteTensor tensor).Follows origin kernel
      (tensors ++ [key]) [] where
  source := follows.source
  untouched {other} noTensor noOther := by
    rw [List.mem_append, List.mem_singleton, not_or] at noTensor
    rw [← follows.untouched noTensor.1 noOther]
    exact Dict.find?_insert_of_ne _ _ (Ne.symm noTensor.2)
  rebound {other} listed := by
    change ∃ view', (draft.fragment.bindings.insert key (.name view)).find? other = _ ∧ _
    rw [Dict.find?_insert]
    split
    · exact ⟨view, rfl, unmanaged⟩
    · next different =>
        refine follows.rebound (listed.imp_left fun member => ?_)
        rw [List.mem_append, List.mem_singleton] at member
        exact member.resolve_right (Ne.symm different)
  externals {name} managed := by
    change name ∈ (draft.record.tiled ++ [tensor]).map TiledTensor.external ↔ _
    rw [List.map_append, List.mem_append, follows.externals managed, List.map_singleton,
      List.mem_singleton]
    by_cases again : key ∈ tensors
    · -- The key is bound to a view by now, so what is noted is no managed name.
      have noted : name ≠ tensor.external := by
        rintro rfl
        obtain ⟨other, found, otherUnmanaged⟩ := follows.rebound (.inl again)
        obtain rfl := Binding.name.inj (Option.some.inj (bound.symm.trans found))
        exact managed otherUnmanaged
      simp only [noted, or_false, List.mem_append, List.mem_singleton, or_and_right, exists_or,
        exists_eq_left]
      exact ⟨.inl, fun found => found.elim id fun here => ⟨key, again, here⟩⟩
    · rw [follows.untouched again List.not_mem_nil] at bound
      simp only [List.mem_append, List.mem_singleton, or_and_right, exists_or, exists_eq_left,
        bound, Option.some.injEq, Binding.name.injEq]
      rw [eq_comm]
  tiled other member := by
    rcases List.mem_append.mp member with listed | last
    · exact follows.tiled other listed
    · exact List.mem_singleton.mp last ▸ noted
  declarations other member := by
    rcases List.mem_append.mp member with listed | last
    · exact follows.declarations other listed
    · exact List.mem_singleton.mp last ▸ ⟨aside, written⟩
  replacements := follows.replacements

/-- Binding another key to a view. -/
theorem rebind (follows : draft.Follows origin kernel tensors others)
    (unmanaged : origin.Unmanaged view) (aside : declaration.Aside origin)
    (written : declaration.template = ({} : LifetimeTemplates).reference) :
    (draft.rebind key view declaration).Follows origin kernel tensors (others ++ [key]) where
  source := follows.source
  untouched {other} noTensor noOther := by
    rw [List.mem_append, List.mem_singleton, not_or] at noOther
    rw [← follows.untouched noTensor noOther.1]
    exact Dict.find?_insert_of_ne _ _ (Ne.symm noOther.2)
  rebound {other} listed := by
    change ∃ view', (draft.fragment.bindings.insert key (.name view)).find? other = _ ∧ _
    rw [Dict.find?_insert]
    split
    · exact ⟨view, rfl, unmanaged⟩
    · next different =>
        refine follows.rebound (listed.imp_right fun member => ?_)
        rw [List.mem_append, List.mem_singleton] at member
        exact member.resolve_right (Ne.symm different)
  externals := follows.externals
  tiled := follows.tiled
  declarations other member := by
    rcases List.mem_append.mp member with listed | last
    · exact follows.declarations other listed
    · exact List.mem_singleton.mp last ▸ ⟨aside, written⟩
  replacements := follows.replacements

theorem noteReplacement (follows : draft.Follows origin kernel tensors others) {table : String}
    (viewAside : origin.Unmanaged view) (tableAside : origin.Unmanaged table) :
    (draft.noteReplacement view table).Follows origin kernel tensors others where
  source := follows.source
  untouched := follows.untouched
  rebound := follows.rebound
  externals := follows.externals
  tiled := follows.tiled
  declarations := follows.declarations
  replacements other member := by
    rcases List.mem_append.mp member with listed | last
    · exact follows.replacements other listed
    · exact List.mem_singleton.mp last ▸ ⟨viewAside, tableAside⟩

theorem dereference (follows : draft.Follows origin kernel tensors others) (names : List String) :
    { draft with
      fragment := { draft.fragment with
        template := draft.fragment.template.dereference names } }.Follows origin kernel tensors
          others where
  source := follows.source
  untouched := follows.untouched
  rebound := follows.rebound
  externals := follows.externals
  tiled := follows.tiled
  declarations := follows.declarations
  replacements := follows.replacements

end TileDraft.Follows

namespace Lowering

open Context (Tended openFrame_tended)

variable {origin : Context} {operation level arena : String} {tiling : Tiling}
  {workspace final : Workspace}

/-! ### Identifiers of an operation -/

/-- A logical name that goes on after the operation with a character that stands in no identifier
has an unmanaged identifier. -/
theorem maintains_mangle {logical : String} {char : Char} {rest : List Char}
    (spelled : logical.toList = operation.toList ++ char :: rest)
    (unfit : isIdentifierChar char = false) :
    Maintains (Tended origin (operation ++ "_tile")) origin.Unmanaged (mangle logical) := by
  apply maintains_change
  intro context tended
  have different : logical ≠ operation ++ "_tile" := by
    rintro rfl
    rw [String.toList_append, List.append_cancel_left_eq] at spelled
    obtain ⟨rfl, -⟩ := List.cons.inj spelled.symm
    exact absurd unfit (by decide)
  have member : char ∈ logical.toList := by
    rw [spelled]
    exact List.mem_append_right _ List.mem_cons_self
  have unmanaged := tended.unmanaged_mangle member unfit different
  exact ⟨tended.mangle_of_unmanaged unmanaged, unmanaged⟩

/-- The declaration of a view binds the names of the view and of its target. -/
theorem aside_of_viewDeclaration {view target : String} {type : TypeId} {offset : Nat}
    {declaration : Fragment}
    (denotes : (workspace.context.find? view).map Buffer.core =
      some (madeView view type target offset level).core)
    (viewAside : origin.Unmanaged view) (targetAside : origin.Unmanaged target)
    (ran : viewDeclaration view workspace = .ok declaration final) :
    declaration.Aside origin ∧
      declaration.template = ({} : LifetimeTemplates).reference ∧ final = workspace := by
  obtain ⟨buffer, bindings, found, described, rfl, rfl⟩ := viewDeclaration_eq_ok ran
  rw [found] at denotes
  have core := Option.some.inj denotes
  refine ⟨fun bound => ?_, rfl, rfl⟩
  rcases LifetimeTemplates.eq_of_bindings described bound with named | targeted
  · exact named ▸ congrArg Buffer.name core ▸ viewAside
  · have same := (congrArg Buffer.target? core).symm.trans targeted
    exact Option.some.inj same ▸ targetAside

/-! ### The steps of tiling -/

section Steps

variable {kernel : Fragment} {tensors others : List String} {draft next : TileDraft}
  (arenaAside : origin.Unmanaged arena)
  (tended : Tended origin (operation ++ "_tile") workspace.context)
include tended

include arenaAside in
theorem tileTensor_follows (follows : draft.Follows origin kernel tensors [])
    {entry : String × List Nat × Direction}
    (ran : tileTensor tiling operation level arena draft entry workspace = .ok next final) :
    Tended origin (operation ++ "_tile") final.context ∧
      next.Follows origin kernel (tensors ++ [entry.1]) [] := by
  have frame := openFrame_tended origin (operation ++ "_tile")
  obtain ⟨external, found, finding, afterExternal⟩ := bind_eq_ok ran
  obtain ⟨bound, rfl⟩ := tiledBuffer_eq_ok finding
  obtain ⟨root, resolved, resolving, afterRoot⟩ := bind_eq_ok afterExternal
  obtain ⟨-, rfl⟩ := ask_eq_ok resolving
  obtain ⟨range, placed, placing, afterRange⟩ := bind_eq_ok afterRoot
  obtain ⟨-, rfl⟩ := ask_eq_ok placing
  obtain ⟨buffer, looked, looking, afterLookup⟩ := bind_eq_ok afterRange
  obtain ⟨-, rfl⟩ := lookup_eq_ok looking
  obtain ⟨view, named, naming, afterName⟩ := bind_eq_ok afterLookup
  obtain ⟨_, viewed, viewing, afterView⟩ := bind_eq_ok afterName
  obtain ⟨table, tabled, tabling, afterTable⟩ := bind_eq_ok afterView
  obtain ⟨word, worded, wording, afterWord⟩ := bind_eq_ok afterTable
  obtain ⟨_, hoisted, hoisting, afterHoist⟩ := bind_eq_ok afterWord
  obtain ⟨declaration, declared, declaring, last⟩ := bind_eq_ok afterHoist
  obtain ⟨rfl, rfl⟩ := pure_eq_ok last
  have viewName : (operation ++ "." ++ entry.1 ++ "." ++ level).toList =
      operation.toList ++ '.' :: (entry.1.toList ++ '.' :: level.toList) := by simp
  have tableName : (operation ++ "/" ++ entry.1 ++ "/offsets").toList =
      operation.toList ++ '/' :: (entry.1.toList ++ "/offsets".toList) := by simp
  obtain ⟨namedTended, viewAside⟩ := (maintains_mangle viewName rfl).ok tended naming
  have viewedTended := ((preserves_bindView frame viewAside _ _ _ _).ok namedTended viewing).1
  obtain ⟨tabledTended, tableAside⟩ := (maintains_mangle tableName rfl).ok viewedTended tabling
  have wordedTended := ((preserves_intern frame.toFrame fun registry =>
    registry.kinds_intern _).ok tabledTended wording).1
  have hoistedTended := ((preserves_hoistTable frame _ _ _ _).ok wordedTended hoisting).1
  -- Meanwhile the name of the view goes on denoting it.
  have hoistedMade := denotes_of_table (bindView_eq_ok viewing) tabling wording hoisting
  obtain ⟨aside, written, rfl⟩ :=
    aside_of_viewDeclaration hoistedMade viewAside arenaAside declaring
  exact ⟨hoistedTended, follows.tensor bound viewAside aside written ⟨viewAside, tableAside⟩⟩

include arenaAside in
theorem placeTransient_follows (follows : draft.Follows origin kernel tensors others)
    {entry : String × String}
    (ran : placeTransient tiling operation level arena draft entry workspace = .ok next final) :
    Tended origin (operation ++ "_tile") final.context ∧
      next.Follows origin kernel tensors (others ++ [entry.1]) := by
  have frame := openFrame_tended origin (operation ++ "_tile")
  obtain ⟨range, placed, placing, afterRange⟩ := bind_eq_ok ran
  obtain ⟨-, rfl⟩ := ask_eq_ok placing
  obtain ⟨buffer, looked, looking, afterLookup⟩ := bind_eq_ok afterRange
  obtain ⟨-, rfl⟩ := lookup_eq_ok looking
  obtain ⟨view, named, naming, afterName⟩ := bind_eq_ok afterLookup
  obtain ⟨_, viewed, viewing, afterView⟩ := bind_eq_ok afterName
  obtain ⟨declaration, declared, declaring, last⟩ := bind_eq_ok afterView
  obtain ⟨rfl, rfl⟩ := pure_eq_ok last
  have viewName : (operation ++ ":" ++ entry.2 ++ ":" ++ level).toList =
      operation.toList ++ ':' :: (entry.2.toList ++ ':' :: level.toList) := by simp
  obtain ⟨namedTended, viewAside⟩ := (maintains_mangle viewName rfl).ok tended naming
  have viewedTended := ((preserves_bindView frame viewAside _ _ _ _).ok namedTended viewing).1
  have made := congrArg (Option.map Buffer.core) (bindView_eq_ok viewing)
  obtain ⟨aside, written, rfl⟩ := aside_of_viewDeclaration made viewAside arenaAside declaring
  exact ⟨viewedTended, follows.rebind viewAside aside written⟩

theorem tileScalar_follows (follows : draft.Follows origin kernel tensors others)
    {entry : String × List Int}
    (ran : tileScalar tiling operation level draft entry workspace = .ok next final) :
    Tended origin (operation ++ "_tile") final.context ∧
      next.Follows origin kernel tensors (others ++ [entry.1]) := by
  have frame := openFrame_tended origin (operation ++ "_tile")
  obtain ⟨type, typed, typing, afterType⟩ := bind_eq_ok ran
  obtain ⟨table, tabled, tabling, afterTable⟩ := bind_eq_ok afterType
  obtain ⟨_, hoisted, hoisting, afterHoist⟩ := bind_eq_ok afterTable
  obtain ⟨view, named, naming, afterName⟩ := bind_eq_ok afterHoist
  obtain ⟨_, viewed, viewing, afterView⟩ := bind_eq_ok afterName
  obtain ⟨declaration, declared, declaring, last⟩ := bind_eq_ok afterView
  obtain ⟨rfl, rfl⟩ := pure_eq_ok last
  have tableName : (operation ++ "/" ++ entry.1 ++ "/tiles").toList =
      operation.toList ++ '/' :: (entry.1.toList ++ "/tiles".toList) := by simp
  have viewName : (operation ++ "/" ++ entry.1 ++ "/ref").toList =
      operation.toList ++ '/' :: (entry.1.toList ++ "/ref".toList) := by simp
  have typedTended := ((preserves_scalarType frame tiling entry.1).ok tended typing).1
  obtain ⟨tabledTended, tableAside⟩ := (maintains_mangle tableName rfl).ok typedTended tabling
  have hoistedTended := ((preserves_hoistTable frame _ _ _ _).ok tabledTended hoisting).1
  obtain ⟨namedTended, viewAside⟩ := (maintains_mangle viewName rfl).ok hoistedTended naming
  have viewedTended := ((preserves_bindView frame viewAside _ _ _ _).ok namedTended viewing).1
  have made := congrArg (Option.map Buffer.core) (bindView_eq_ok viewing)
  obtain ⟨aside, written, rfl⟩ := aside_of_viewDeclaration made viewAside tableAside declaring
  exact ⟨viewedTended,
    (follows.rebind viewAside aside written).noteReplacement viewAside tableAside⟩

end Steps

/-! ### Whole kernels -/

theorem mem_levelTransients_iff {context : Context} {bindings : Bindings} {key name : String} :
    (key, name) ∈ levelTransients context level bindings ↔
      bindings.find? key = some (.name name) ∧ isLevelTransient context level name = true := by
  unfold levelTransients
  rw [List.mem_filterMap]
  constructor
  · rintro ⟨⟨other, binding⟩, member, chosen⟩
    dsimp only at chosen
    cases named : binding.name? with
    | none => rw [named] at chosen; cases chosen
    | some found =>
        rw [named] at chosen
        dsimp only at chosen
        split at chosen
        · next transient =>
            cases chosen
            rw [Binding.name?_eq_some_iff.mp named] at member
            exact ⟨Dict.mem_entries_iff.mp member, transient⟩
        · cases chosen
  · rintro ⟨bound, transient⟩
    refine ⟨(key, .name name), Dict.mem_entries_iff.mpr bound, ?_⟩
    dsimp only [Binding.name?]
    rw [if_pos transient]

theorem mem_keys_levelTransients_iff {context : Context} {bindings : Bindings} {key name : String}
    (bound : bindings.find? key = some (.name name)) :
    key ∈ (levelTransients context level bindings).map Prod.fst ↔
      isLevelTransient context level name = true := by
  rw [List.mem_map]
  constructor
  · rintro ⟨⟨other, found⟩, member, rfl⟩
    obtain ⟨otherBound, transient⟩ := mem_levelTransients_iff.mp member
    rw [bound] at otherBound
    exact Binding.name.inj (Option.some.inj otherBound) ▸ transient
  · intro transient
    exact ⟨(key, name), mem_levelTransients_iff.mpr ⟨bound, transient⟩, rfl⟩

theorem isLevelTransient_eq (context : Context) (name : String) :
    isLevelTransient context level name =
      ((context.find? name).map Buffer.core).any fun buffer =>
        buffer.isTransient && decide (buffer.level = some level) := by
  unfold isLevelTransient
  cases context.find? name <;> rfl

/-- Tiling a kernel leaves managed names alone, and a draft of its keys and of those of its tensors:
the other keys that are rebound are those of the scalars and of the scratch storage of the level. -/
theorem tileKernel_follows {kernel : Fragment} {draft : TileDraft}
    (tended : Tended origin (operation ++ "_tile") workspace.context)
    (arenaAside : origin.Unmanaged (workspace.context.mangle (level ++ "_arena")).1)
    (ran : tileKernel tiling level operation kernel workspace = .ok draft final) :
    Tended origin (operation ++ "_tile") final.context ∧
      ∃ placed, draft.Follows origin kernel (tiling.schedule.tensors.map Prod.fst)
          (placed ++ tiling.scheme.perTile.keys) ∧
        ∀ {key name}, kernel.bindings.find? key = some (.name name) → ¬ origin.Unmanaged name →
          key ∉ tiling.schedule.tensors.map Prod.fst →
            (key ∈ placed ↔ isLevelTransient origin level name = true) := by
  have frame := openFrame_tended origin (operation ++ "_tile")
  obtain ⟨_, checked, checking, afterCheck⟩ := bind_eq_ok ran
  obtain ⟨-, rfl⟩ := ask_eq_ok checking
  obtain ⟨extent, asked, asking, afterExtent⟩ := bind_eq_ok afterCheck
  obtain ⟨-, rfl⟩ := ask_eq_ok asking
  obtain ⟨arena, ensured, ensuring, afterArena⟩ := bind_eq_ok afterExtent
  obtain ⟨_, occupied, occupying, afterOccupy⟩ := bind_eq_ok afterArena
  obtain ⟨loopVariable, looped, looping, afterLoop⟩ := bind_eq_ok afterOccupy
  obtain ⟨tensorDraft, tiled, tilingTensors, afterTensors⟩ := bind_eq_ok afterLoop
  obtain ⟨transients, listed, listing, afterListing⟩ := bind_eq_ok afterTensors
  obtain ⟨transientsAre, rfl⟩ := ask_eq_ok listing
  obtain ⟨transientDraft, placed, placing, afterTransients⟩ := bind_eq_ok afterListing
  obtain ⟨scalarDraft, scaled, scaling, last⟩ := bind_eq_ok afterTransients
  obtain ⟨rfl, rfl⟩ := pure_eq_ok last
  have ensuredTended : Tended origin (operation ++ "_tile") ensured.context :=
    finish_of_ok ensuring ▸ finish_ensureArena frame (tended.mangle_of_unmanaged arenaAside) extent
  rw [← (ensureArena_eq_ok ensuring).1] at arenaAside
  have occupiedTended := ((preserves_occupy frame level extent).ok ensuredTended occupying).1
  have loopedTended : Tended origin (operation ++ "_tile") looped.context :=
    (mangle_eq_ok looping).2 ▸ occupiedTended.mangle_exempt
  -- The three loops carry on the draft, each with the keys that it has rebound.
  let tensorKeys := tiling.schedule.tensors.map Prod.fst
  let tensorsDone (done : List (String × List Nat × Direction)) (draft : TileDraft)
      (workspace : Workspace) : Prop :=
    Tended origin (operation ++ "_tile") workspace.context ∧
      draft.Follows origin kernel (done.map Prod.fst) []
  let transientsDone (done : List (String × String)) (draft : TileDraft)
      (workspace : Workspace) : Prop :=
    Tended origin (operation ++ "_tile") workspace.context ∧
      draft.Follows origin kernel tensorKeys (done.map Prod.fst)
  let scalarsDone (done : List (String × List Int)) (draft : TileDraft)
      (workspace : Workspace) : Prop :=
    Tended origin (operation ++ "_tile") workspace.context ∧
      draft.Follows origin kernel tensorKeys (transients.map Prod.fst ++ done.map Prod.fst)
  have afterTensors : tensorsDone ([] ++ tiling.schedule.tensors) tensorDraft listed := by
    refine foldlM_eq_ok (fun before ran => ?_) ⟨loopedTended, .start _ _ _ _ _⟩ tilingTensors
    obtain ⟨tended, follows⟩ := tileTensor_follows arenaAside before.1 before.2 ran
    exact ⟨tended, by rwa [List.map_append]⟩
  have afterTransients : transientsDone ([] ++ transients) transientDraft placed := by
    refine foldlM_eq_ok (fun before ran => ?_) afterTensors placing
    obtain ⟨tended, follows⟩ := placeTransient_follows arenaAside before.1 before.2 ran
    exact ⟨tended, by rwa [List.map_append]⟩
  have afterScalars : scalarsDone ([] ++ tiling.scheme.perTile.entries) scalarDraft scaled := by
    refine foldlM_eq_ok (fun before ran => ?_) ⟨afterTransients.1, ?_⟩ scaling
    · obtain ⟨tended, follows⟩ := tileScalar_follows before.1 before.2 ran
      exact ⟨tended, by rwa [List.map_append, ← List.append_assoc]⟩
    · rw [List.map_nil, List.append_nil]
      exact afterTransients.2
  refine ⟨afterScalars.1, transients.map Prod.fst, afterScalars.2.dereference _, ?_⟩
  intro key name bound managed noTensor
  cases transientsAre
  have still := afterTensors.2.untouched noTensor List.not_mem_nil
  rw [isLevelTransient_eq, ← afterTensors.1.kept managed, ← isLevelTransient_eq]
  exact mem_keys_levelTransients_iff (still.trans bound)

end Lowering

end TensorLowering
