import TensorLowering.Proofs.DraftSteps

/-! # Drafts of kernels

The draft of a kernel is made in three loops, over its tensors, its scratch storage and its scalars.
At their end the record has a table for each tensor and each scalar and a declaration for each view
(`TensorLowering.Lowering.tileKernel_drafted`), and the scratch storage is that of the keys that are
not tiled (`TensorLowering.Lowering.ScratchKey`).
-/

namespace TensorLowering

namespace Lowering

variable {tiling : Tiling} {operation level arena : String} {draft next : TileDraft}
  {workspace final : Workspace}

/-! ### Records -/

/-- The logical names of the views of tensors, of scratch storage and of scalars. -/
def viewNames (operation level : String) (tensors : List (String × List Nat × Direction))
    (scratch : List (String × String)) (scalars : List (String × List Int)) : List String :=
  tensors.map (tensorName operation level ·.1) ++
    (scratch.map (scratchName operation level ·.2) ++ scalars.map (scalarName operation ·.1))

/-- The record of a tensor names the table of its offsets. -/
structure TensorNoted (operation : String) (context : Context)
    (entry : String × List Nat × Direction) (tensor : TiledTensor) : Prop where
  direction : tensor.direction = entry.2.2
  tabled : context.mangled.find? (operation ++ "/" ++ entry.1 ++ "/offsets") = some tensor.offsets
  nonneg : ∀ offset ∈ entry.2.1, 0 ≤ signedWord offset
  defined : ⟨tensor.offsets, tableText "uint32_t" tensor.offsets
    ((entry.2.1.map signedWord).map toString)⟩ ∈ context.definitions

/-- The replacement of a scalar names the table of its values. -/
structure ScalarNoted (operation : String) (context : Context) (entry : String × List Int)
    (replacement : String × String) : Prop where
  tabled : context.mangled.find? (operation ++ "/" ++ entry.1 ++ "/tiles") = some replacement.2
  defined : ∃ type, ⟨replacement.2, tableText type replacement.2 (entry.2.map toString)⟩ ∈
    context.definitions

/-- A fragment declares the view that has the identifier of a logical name. -/
def ViewNoted (context : Context) (logical : String) (declaration : Fragment) : Prop :=
  ∃ view, context.mangled.find? logical = some view ∧ declaration.IsDeclaration view

/-- What the record of a draft has of the tensors, scratch storage and scalars so far. -/
structure Drafted (operation level : String) (tensors : List (String × List Nat × Direction))
    (scratch : List (String × String)) (scalars : List (String × List Int)) (draft : TileDraft)
    (context : Context) : Prop where
  tiled : List.Forall₂ (TensorNoted operation context) tensors draft.record.tiled
  replaced : List.Forall₂ (ScalarNoted operation context) scalars draft.record.replacements
  declared : List.Forall₂ (ViewNoted context) (viewNames operation level tensors scratch scalars)
    draft.record.declarations

section Drafted

variable {tensors : List (String × List Nat × Direction)} {scratch : List (String × String)}
  {scalars : List (String × List Int)} {start finish : Context}

theorem TensorNoted.retain {entry : String × List Nat × Direction} {tensor : TiledTensor}
    (noted : TensorNoted operation start entry tensor) (retains : start.Retains finish) :
    TensorNoted operation finish entry tensor :=
  ⟨noted.direction, retains.named noted.tabled, noted.nonneg, retains.defined noted.defined⟩

theorem ScalarNoted.retain {entry : String × List Int} {replacement : String × String}
    (noted : ScalarNoted operation start entry replacement) (retains : start.Retains finish) :
    ScalarNoted operation finish entry replacement :=
  ⟨retains.named noted.tabled, noted.defined.imp fun _ member => retains.defined member⟩

theorem ViewNoted.retain {logical : String} {declaration : Fragment}
    (noted : ViewNoted start logical declaration) (retains : start.Retains finish) :
    ViewNoted finish logical declaration :=
  noted.imp fun _ declared => declared.imp_left retains.named

theorem MakesView.noted {logical view : String} {declaration : Fragment}
    (makes : MakesView logical view declaration start finish) :
    ViewNoted finish logical declaration := ⟨view, makes.viewed, makes.declared⟩

theorem Drafted.retain (drafted : Drafted operation level tensors scratch scalars draft start)
    (retains : start.Retains finish) :
    Drafted operation level tensors scratch scalars draft finish where
  tiled := drafted.tiled.imp fun _ _ noted => noted.retain retains
  replaced := drafted.replaced.imp fun _ _ noted => noted.retain retains
  declared := drafted.declared.imp fun _ _ noted => noted.retain retains

theorem Drafted.addTensor (drafted : Drafted operation level tensors [] [] draft start)
    {entry : String × List Nat × Direction} {tensor : TiledTensor} {declaration : Fragment}
    (step : TensorStep operation level entry tensor declaration draft next start finish) :
    Drafted operation level (tensors ++ [entry]) [] [] next finish := by
  have before := drafted.retain step.retains
  have noted : TensorNoted operation finish entry tensor :=
    ⟨step.direction, step.tabled, step.nonneg, step.defined⟩
  rw [step.drafted]
  refine ⟨List.rel_append before.tiled (.cons noted .nil), before.replaced, ?_⟩
  have views : viewNames operation level (tensors ++ [entry]) [] [] =
      viewNames operation level tensors [] [] ++ [tensorName operation level entry.1] := by
    simp [viewNames]
  rw [views]
  exact List.rel_append before.declared (.cons step.noted .nil)

theorem Drafted.addScratch (drafted : Drafted operation level tensors scratch [] draft start)
    {entry : String × String} {view : String} {declaration : Fragment}
    (step : ScratchStep operation level entry view declaration draft next start finish) :
    Drafted operation level tensors (scratch ++ [entry]) [] next finish := by
  have before := drafted.retain step.retains
  rw [step.drafted]
  refine ⟨before.tiled, before.replaced, ?_⟩
  have views : viewNames operation level tensors (scratch ++ [entry]) [] =
      viewNames operation level tensors scratch [] ++ [scratchName operation level entry.2] := by
    simp [viewNames]
  rw [views]
  exact List.rel_append before.declared (.cons step.noted .nil)

theorem Drafted.addScalar (drafted : Drafted operation level tensors scratch scalars draft start)
    {entry : String × List Int} {view table : String} {declaration : Fragment}
    (step : ScalarStep operation entry view table declaration draft next start finish) :
    Drafted operation level tensors scratch (scalars ++ [entry]) next finish := by
  have before := drafted.retain step.retains
  have noted : ScalarNoted operation finish entry (view, table) := ⟨step.tabled, step.defined⟩
  rw [step.drafted]
  refine ⟨before.tiled, List.rel_append before.replaced (.cons noted .nil), ?_⟩
  have views : viewNames operation level tensors scratch (scalars ++ [entry]) =
      viewNames operation level tensors scratch scalars ++ [scalarName operation entry.1] := by
    simp [viewNames]
  rw [views]
  exact List.rel_append before.declared (.cons step.noted .nil)

end Drafted

/-! ### Whole kernels -/

theorem isLevelTransient_ensureArena {kept : String} {extent : Nat}
    (ran : ensureArena kept extent workspace = .ok arena final) (name : String) :
    isLevelTransient final.context level name = isLevelTransient workspace.context level name := by
  obtain ⟨identifier, named, naming, afterName⟩ := bind_eq_ok ran
  rw [← isLevelTransient_mangle naming]
  obtain ⟨known, asked, asking, afterAsk⟩ := bind_eq_ok afterName
  obtain ⟨knownIs, rfl⟩ := ask_eq_ok asking
  cases knownIs
  split at afterAsk
  · obtain ⟨_, grown, growing, last⟩ := bind_eq_ok afterAsk
    obtain ⟨-, rfl⟩ := pure_eq_ok last
    obtain ⟨buffer, looked, looking, changing⟩ := bind_eq_ok growing
    obtain ⟨-, rfl⟩ := lookup_eq_ok looking
    have changed : grown.context = looked.context.modify identifier fun arena =>
        { arena with size := max arena.size extent } := (change_eq_ok changing).2
    have cores := (looked.context.sameCores_modify identifier fun buffer =>
      show ({ buffer with size := max buffer.size extent } : Buffer).core = buffer.core from rfl)
    rw [isLevelTransient_eq, changed, ← cores.find?_eq, ← isLevelTransient_eq]
  · next unknown =>
      obtain ⟨byte, interned, interning, afterType⟩ := bind_eq_ok afterAsk
      obtain ⟨_, added, adding, last⟩ := bind_eq_ok afterType
      obtain ⟨-, rfl⟩ := pure_eq_ok last
      rw [← isLevelTransient_intern interning]
      have new : interned.context.isBuffer identifier = false := by
        rw [(intern_eq_ok interning).2]
        exact Bool.not_eq_true _ ▸ unknown
      rcases Context.add_cases (add_eq_ok adding) with ⟨-, same⟩ | ⟨_, targeted, -⟩
      · rw [same]
        exact isLevelTransient_push new rfl name
      · cases targeted

/-- What is settled before the views of a kernel are made. -/
structure Opened (tiling : Tiling) (level operation : String) (kernel : Fragment)
    (draft : TileDraft) (start finish : Context) : Prop where
  counted : tiling.checkCounts operation = .ok ()
  fragment : draft.fragment = { kernel with tiling := none }
  record : draft.record = { level, loopVariable := draft.record.loopVariable,
                            tileCount := tiling.tileCount }
  scratch : ∀ name, isLevelTransient finish level name = isLevelTransient start level name
  retains : start.Retains finish

theorem opened_of_openTiling {kernel : Fragment} {opened : String × TileDraft}
    (ran : openTiling tiling level operation kernel workspace = .ok opened final) :
    Opened tiling level operation kernel opened.2 workspace.context final.context := by
  obtain ⟨_, checked, checking, afterCheck⟩ := bind_eq_ok ran
  obtain ⟨counted, rfl⟩ := ask_eq_ok checking
  obtain ⟨extent, asked, asking, afterExtent⟩ := bind_eq_ok afterCheck
  obtain ⟨-, rfl⟩ := ask_eq_ok asking
  obtain ⟨arena, ensured, ensuring, afterArena⟩ := bind_eq_ok afterExtent
  obtain ⟨_, occupied, occupying, afterOccupy⟩ := bind_eq_ok afterArena
  obtain ⟨loopVariable, looped, looping, last⟩ := bind_eq_ok afterOccupy
  obtain ⟨rfl, rfl⟩ := pure_eq_ok last
  refine ⟨counted, rfl, rfl, fun name => ?_, ?_⟩
  · have same : occupied.context.find? name = ensured.context.find? name := by
      rw [(change_eq_ok occupying).2]
      rfl
    rw [isLevelTransient_mangle looping, isLevelTransient, same,
      ← isLevelTransient_ensureArena ensuring, isLevelTransient]
  · have kept : ensured.context.Retains occupied.context := by
      rw [(change_eq_ok occupying).2]
      exact ⟨id, List.Subset.refl _, id⟩
    have ensuredKept := ((retains_ensureArena level _).ok (.refl _) ensuring).1
    exact ((retains_mangle _).ok (ensuredKept.trans kept) looping).1

/-- What holds after some tensors of a kernel have been tiled. -/
structure TensorsDrafted (operation level : String) (kernel : Fragment) (origin : Context)
    (done : List (String × List Nat × Direction)) (draft : TileDraft) (context : Context) :
    Prop where
  drafted : Drafted operation level done [] [] draft context
  kept : ∀ {key}, key ∉ done.map Prod.fst →
    draft.fragment.bindings.find? key = kernel.bindings.find? key
  rebound : ∀ {key}, key ∈ done.map Prod.fst → ∃ view,
    context.mangled.find? (tensorName operation level key) = some view ∧
      draft.fragment.bindings.find? key = some (.name view)
  scratch : ∀ name, isLevelTransient context level name = true ↔
    isLevelTransient origin level name = true ∧ ∀ key ∈ done.map Prod.fst,
      context.mangled.find? (tensorName operation level key) ≠ some name
  retains : origin.Retains context

theorem Opened.start {kernel : Fragment} {origin context : Context}
    (opened : Opened tiling level operation kernel draft origin context) :
    TensorsDrafted operation level kernel origin [] draft context where
  drafted := by
    constructor
    · rw [opened.record]
      exact .nil
    · rw [opened.record]
      exact .nil
    · rw [opened.record]
      exact .nil
  kept _ := by rw [opened.fragment]
  rebound listed := absurd listed List.not_mem_nil
  scratch name := by simp [opened.scratch]
  retains := opened.retains

theorem TensorsDrafted.step {kernel : Fragment} {origin start finish : Context}
    {done : List (String × List Nat × Direction)}
    (before : TensorsDrafted operation level kernel origin done draft start)
    {entry : String × List Nat × Direction} {tensor : TiledTensor} {declaration : Fragment}
    (step : TensorStep operation level entry tensor declaration draft next start finish) :
    TensorsDrafted operation level kernel origin (done ++ [entry]) next finish where
  drafted := before.drafted.addTensor step
  kept {key} other := by
    rw [List.map_append, List.mem_append, List.map_singleton, List.mem_singleton, not_or] at other
    rw [step.drafted, ← before.kept other.1]
    exact Dict.find?_insert_of_ne _ _ (Ne.symm other.2)
  rebound {key} listed := by
    rw [List.map_append, List.mem_append, List.map_singleton, List.mem_singleton] at listed
    by_cases here : entry.1 = key
    · subst here
      refine ⟨tensor.view, step.viewed, ?_⟩
      rw [step.drafted]
      exact Dict.find?_insert_self _ _ _
    · obtain ⟨view, given, bound⟩ := before.rebound (listed.resolve_right (Ne.symm here))
      refine ⟨view, step.retains.named given, ?_⟩
      rw [step.drafted, ← bound]
      exact Dict.find?_insert_of_ne _ _ here
  scratch name := by
    have earlier : ∀ key ∈ done.map Prod.fst,
        start.mangled.find? (tensorName operation level key) =
          finish.mangled.find? (tensorName operation level key) := by
      intro key listed
      obtain ⟨view, given, -⟩ := before.rebound listed
      rw [given, step.retains.named given]
    rw [step.scratch, Bool.and_eq_true, decide_eq_true_iff, before.scratch name, List.map_append,
      List.map_singleton]
    simp only [List.forall_mem_append, List.forall_mem_singleton, step.viewed, ne_eq,
      Option.some.injEq]
    constructor
    · rintro ⟨notHere, transient, notEarlier⟩
      exact ⟨transient, fun key listed => earlier key listed ▸ notEarlier key listed, notHere⟩
    · rintro ⟨transient, notEarlier, notHere⟩
      exact ⟨notHere, transient,
        fun key listed => (earlier key listed).symm ▸ notEarlier key listed⟩
  retains := before.retains.trans step.retains

/-- A key of a kernel that is bound to scratch storage of a level when all tensors have been tiled:
it is not tiled itself, and the storage is not under the identifier of the view of a tensor. -/
def ScratchKey (tiling : Tiling) (operation level : String) (kernel : Fragment)
    (origin context : Context) (key name : String) : Prop :=
  kernel.bindings.find? key = some (.name name) ∧ isLevelTransient origin level name = true ∧
    key ∉ tiling.schedule.tensors.map Prod.fst ∧
    ∀ tiled ∈ tiling.schedule.tensors.map Prod.fst,
      context.mangled.find? (tensorName operation level tiled) ≠ some name

/-- What a kernel has become: its record has all tensors, the scratch storage of its keys, and all
scalars. -/
structure KernelDrafted (tiling : Tiling) (operation level : String) (kernel : Fragment)
    (scratch : List (String × String)) (draft : TileDraft) (origin context : Context) : Prop
    extends Drafted operation level tiling.schedule.tensors scratch tiling.scheme.perTile.entries
      draft context where
  counted : tiling.checkCounts operation = .ok ()
  tileCount : draft.record.tileCount = tiling.tileCount
  keys : (scratch.map Prod.fst).Nodup
  chosen : ∀ {key name}, (key, name) ∈ scratch ↔
    ScratchKey tiling operation level kernel origin context key name
  retains : origin.Retains context

theorem nodup_keys_levelTransients (context : Context) (bindings : Bindings) :
    ((levelTransients context level bindings).map Prod.fst).Nodup := by
  have distinct := bindings.nodup_keys
  rw [Dict.keys, List.Nodup, List.pairwise_map] at distinct
  rw [List.Nodup, List.pairwise_map]
  apply distinct.filterMap
  intro first second different found foundIs other otherIs
  dsimp only at foundIs otherIs
  cases firstNamed : first.2.name? with
  | none => rw [firstNamed] at foundIs; cases foundIs
  | some name =>
      cases secondNamed : second.2.name? with
      | none => rw [secondNamed] at otherIs; cases otherIs
      | some otherName =>
          rw [firstNamed] at foundIs
          rw [secondNamed] at otherIs
          dsimp only at foundIs otherIs
          split at foundIs
          · split at otherIs
            · cases foundIs
              cases otherIs
              exact different
            · cases otherIs
          · cases foundIs

theorem TensorsDrafted.mem_scratch_iff {kernel : Fragment} {origin middle context : Context}
    (after : TensorsDrafted operation level kernel origin tiling.schedule.tensors draft middle)
    (retains : middle.Retains context) {key name : String} :
    (key, name) ∈ levelTransients middle level draft.fragment.bindings ↔
      ScratchKey tiling operation level kernel origin context key name := by
  have given : ∀ tiled ∈ tiling.schedule.tensors.map Prod.fst,
      middle.mangled.find? (tensorName operation level tiled) =
        context.mangled.find? (tensorName operation level tiled) := by
    intro tiled listed
    obtain ⟨view, given, -⟩ := after.rebound listed
    rw [given, retains.named given]
  rw [mem_levelTransients_iff, after.scratch]
  constructor
  · rintro ⟨bound, transient, apart⟩
    have noTensor : key ∉ tiling.schedule.tensors.map Prod.fst := by
      intro listed
      obtain ⟨view, viewed, rebound⟩ := after.rebound listed
      rw [rebound] at bound
      cases bound
      exact apart key listed viewed
    refine ⟨after.kept noTensor ▸ bound, transient, noTensor, fun tiled listed => ?_⟩
    exact given tiled listed ▸ apart tiled listed
  · rintro ⟨bound, transient, noTensor, apart⟩
    refine ⟨(after.kept noTensor).trans bound, transient, fun tiled listed => ?_⟩
    exact (given tiled listed).symm ▸ apart tiled listed

theorem tileKernel_drafted {kernel : Fragment}
    (ran : tileKernel tiling level operation kernel workspace = .ok draft final) :
    ∃ scratch, KernelDrafted tiling operation level kernel scratch draft workspace.context
      final.context := by
  rw [tileKernel_eq] at ran
  obtain ⟨opening, opened, openingRan, afterOpening⟩ := bind_eq_ok ran
  have isOpened := opened_of_openTiling openingRan
  obtain ⟨tensors, tiled, tilingTensors, afterTiling⟩ := bind_eq_ok afterOpening
  obtain ⟨transients, listed, listing, afterListing⟩ := bind_eq_ok afterTiling
  obtain ⟨transientsAre, rfl⟩ := ask_eq_ok listing
  cases transientsAre
  obtain ⟨placed, stored, placing, afterPlacing⟩ := bind_eq_ok afterListing
  obtain ⟨scaled, last, scaling, returned⟩ := bind_eq_ok afterPlacing
  obtain ⟨rfl, rfl⟩ := pure_eq_ok returned
  let scratch := levelTransients listed.context level tensors.fragment.bindings
  -- The three loops carry on the draft, each with the entries that it has done.
  let tensorsDone (done : List (String × List Nat × Direction)) (draft : TileDraft)
      (reached : Workspace) : Prop :=
    TensorsDrafted operation level kernel workspace.context done draft reached.context ∧
      draft.record.tileCount = tiling.tileCount
  let scratchDone (done : List (String × String)) (draft : TileDraft) (reached : Workspace) :
      Prop :=
    Drafted operation level tiling.schedule.tensors done [] draft reached.context ∧
      listed.context.Retains reached.context ∧ draft.record.tileCount = tiling.tileCount
  let scalarsDone (done : List (String × List Int)) (draft : TileDraft) (reached : Workspace) :
      Prop :=
    Drafted operation level tiling.schedule.tensors scratch done draft reached.context ∧
      listed.context.Retains reached.context ∧ draft.record.tileCount = tiling.tileCount
  have afterTensors : tensorsDone ([] ++ tiling.schedule.tensors) tensors listed := by
    refine foldlM_eq_ok (fun before ran => ?_)
      ⟨isOpened.start, congrArg TileRecord.tileCount isOpened.record⟩ tilingTensors
    obtain ⟨tensor, declaration, step⟩ := tensorStep_of_tileTensor ran
    exact ⟨before.1.step step, step.drafted ▸ before.2⟩
  have afterScratch : scratchDone ([] ++ scratch) placed stored := by
    refine foldlM_eq_ok (fun before ran => ?_)
      ⟨afterTensors.1.drafted, .refl _, afterTensors.2⟩ placing
    obtain ⟨view, declaration, step⟩ := scratchStep_of_placeTransient ran
    exact ⟨before.1.addScratch step, before.2.1.trans step.retains, step.drafted ▸ before.2.2⟩
  have afterScalars : scalarsDone ([] ++ tiling.scheme.perTile.entries) scaled last := by
    refine foldlM_eq_ok (fun before ran => ?_) afterScratch scaling
    obtain ⟨view, table, declaration, step⟩ := scalarStep_of_tileScalar ran
    exact ⟨before.1.addScalar step, before.2.1.trans step.retains, step.drafted ▸ before.2.2⟩
  obtain ⟨drafted, retains, count⟩ := afterScalars
  exact ⟨scratch, ⟨drafted.tiled, drafted.replaced, drafted.declared⟩, isOpened.counted, count,
    nodup_keys_levelTransients _ _, afterTensors.1.mem_scratch_iff retains,
    afterTensors.1.retains.trans retains⟩

end Lowering

end TensorLowering
