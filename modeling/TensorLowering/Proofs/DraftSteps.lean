import TensorLowering.Proofs.NameHistory
import TensorLowering.Proofs.ViewPlacement

/-! # Steps of a draft

Tiling a kernel changes a draft by three kinds of steps, which make the view of a tensor, of scratch
storage or of a scalar. Each step adds one declaration to the draft, and the first and the last also
define a table (`TensorLowering.Lowering.TensorStep`, `TensorLowering.Lowering.ScratchStep`,
`TensorLowering.Lowering.ScalarStep`). Identifiers and definitions that a context has once, it
retains (`TensorLowering.Context.Retains`).
-/

namespace TensorLowering

namespace Context

/-! ### Identifiers and definitions stay -/

/-- Logical names keep their identifiers, definitions stay, and no identifier is given twice. -/
structure Retains (start finish : Context) : Prop where
  named : ∀ {logical identifier}, start.mangled.find? logical = some identifier →
    finish.mangled.find? logical = some identifier
  defined : start.definitions ⊆ finish.definitions
  apart : start.IdentifiersApart → finish.IdentifiersApart

namespace Retains

variable {start context after : Context}

theorem refl (start : Context) : start.Retains start := ⟨id, List.Subset.refl _, id⟩

theorem trans (first : start.Retains context) (second : context.Retains after) :
    start.Retains after :=
  ⟨fun given => second.named (first.named given), List.Subset.trans first.defined second.defined,
    fun apart => second.apart (first.apart apart)⟩

theorem of_modify (context : Context) (name : String) (change : Buffer → Buffer) :
    context.Retains (context.modify name change) := by
  unfold modify
  split <;> exact ⟨id, List.Subset.refl _, id⟩

theorem of_push (context : Context) (buffer : Buffer) (scope : Scope) :
    context.Retains (context.push buffer scope) := by
  cases scope <;> exact ⟨id, List.Subset.refl _, id⟩

theorem of_drop (context : Context) (name : String) : context.Retains (context.drop name) := by
  unfold drop
  split <;> exact ⟨id, List.Subset.refl _, id⟩

theorem of_mangle (context : Context) (name : String) :
    context.Retains (context.mangle name).2 := by
  refine ⟨((Evolves.refl none context).mangle name).named, ?_, fun apart => apart.mangle name⟩
  unfold mangle
  split <;> exact List.Subset.refl _

theorem of_add {buffer : Buffer} {scope : Scope} (added : context.add buffer scope = .ok after) :
    context.Retains after := by
  rcases add_cases added with ⟨-, rfl⟩ | ⟨target, -, -, rfl⟩
  · exact of_push context buffer scope
  · exact (of_modify context target _).trans (of_push _ buffer scope)

theorem of_remove {name : String} {buffer : Buffer}
    (removed : context.remove name = .ok (buffer, after)) : context.Retains after := by
  obtain ⟨-, rfl | ⟨target, rfl⟩⟩ := remove_cases removed
  · exact of_drop context name
  · exact (of_drop context name).trans (of_modify _ target _)

theorem of_hoist {name code : String} {isNew : Bool}
    (hoisted : context.hoist name code = .ok (isNew, after)) : context.Retains after := by
  unfold hoist at hoisted
  split at hoisted
  · split at hoisted
    · cases hoisted
      exact refl _
    · cases hoisted
  · cases hoisted
    exact ⟨id, List.subset_append_left _ _, id⟩

end Retains

end Context

namespace Lowering

open Context (Retains)

section Retaining

variable {start : Context}

theorem retains_mangle (name : String) : Preserves start.Retains (mangle name) :=
  maintains_change fun context retains => ⟨retains.trans (.of_mangle context name), trivial⟩

theorem retains_intern (make : Registry → TypeId × Registry) :
    Preserves start.Retains (intern make) :=
  maintains_change fun _ retains => ⟨⟨retains.named, retains.defined, retains.apart⟩, trivial⟩

theorem retains_add (buffer : Buffer) (scope : Scope) :
    Preserves start.Retains (add buffer scope) := by
  apply preserves_attempt
  intro context answer after retains added
  cases outcome : context.add buffer scope with
  | error error => simp [outcome, bind, Except.bind] at added
  | ok result =>
      simp only [outcome, bind, Except.bind, pure, Except.pure, Except.ok.injEq,
        Prod.mk.injEq] at added
      exact retains.trans (added.2 ▸ .of_add outcome)

theorem retains_discardBuffer (name : String) : Preserves start.Retains (discardBuffer name) := by
  apply (preserves_ask _).bind
  intro known _
  apply maintains_ite
  · intro _
    have removes : Preserves start.Retains (attempt (·.remove name)) :=
      preserves_attempt fun _ _ _ retains removed => retains.trans (.of_remove removed)
    exact removes.bind fun _ _ => preserves_pure _
  · exact fun _ => preserves_pure _

theorem retains_hoist (name code : String) : Preserves start.Retains (hoist name code) := by
  have hoists : Preserves start.Retains (attempt (·.hoist name code)) :=
    preserves_attempt fun _ _ _ retains hoisted => retains.trans (.of_hoist hoisted)
  exact hoists.bind fun _ _ => preserves_pure _

theorem retains_bindView (name : String) (type : TypeId) (target : String) (offset : Nat)
    (level : String) : Preserves start.Retains (bindView name type target offset level) :=
  (retains_discardBuffer name).bind fun _ _ => retains_add _ _

theorem retains_hoistTable (name : String) (type : TypeId) (values : List Int) (level : String) :
    Preserves start.Retains (hoistTable name type values level) := by
  apply (preserves_askTypes _).bind
  intro value _
  apply (preserves_askTypes _).bind
  intro code _
  apply (preserves_ask _).bind
  intro known _
  apply maintains_ite
  · intro _
    apply (preserves_askTypes _).bind
    intro size _
    exact (retains_add _ _).bind fun _ _ => retains_hoist name code
  · exact fun _ => retains_hoist name code

theorem retains_ensureArena (level : String) (extent : Nat) :
    Preserves start.Retains (ensureArena level extent) := by
  apply (retains_mangle _).bind
  intro name _
  apply (preserves_ask _).bind
  intro known _
  apply maintains_ite
  · intro _
    have grows : Preserves start.Retains
        (modifyBuffer name fun arena => { arena with size := max arena.size extent }) := by
      apply (preserves_lookup name).bind
      intro _ _
      exact maintains_change fun context retains =>
        ⟨retains.trans (.of_modify context _ _), trivial⟩
    exact grows.bind fun _ _ => preserves_pure _
  · intro _
    apply (retains_intern _).bind
    intro byte _
    exact (retains_add _ _).bind fun _ _ => preserves_pure _

theorem retains_scalarType (tiling : Tiling) (key : String) :
    Preserves start.Retains (scalarType tiling key) := by
  unfold scalarType
  split
  · exact preserves_pure _
  · exact retains_intern _

end Retaining

end Lowering

/-! ### Tables -/

/-- The definition of a table of numbers. -/
def tableText (type name : String) (items : List String) : String :=
  "static const " ++ type ++ " " ++ name ++ "[" ++ toString items.length ++ "] = " ++
    ("\x7b" ++ ", ".intercalate items ++ "\x7d") ++ ";"

theorem Value.text_ints (values : List Int) :
    (Value.array (values.map .int)).text =
      "\x7b" ++ ", ".intercalate (values.map toString) ++ "\x7d" := by
  have items : textItems (values.map .int) = values.map toString := by
    induction values with
    | nil => rfl
    | cons value values ih => rw [List.map_cons, textItems, text, ih, List.map_cons]
  rw [text, items]

namespace Registry

variable {types : Registry} {type : TypeId}

theorem typeName_word (word : types.kinds[type.index]? = some (.int 32 false)) :
    types.typeName type = .ok "uint32_t" := by
  have kindIs : types.kind type = .ok (.int 32 false) := by rw [kind, word]
  rw [typeName, nameWithin, kindIs]
  rfl

theorem check_word (word : types.kinds[type.index]? = some (.int 32 false)) (value : Int) :
    types.check true (.int value) type =
      .ok (decide (0 ≤ value) && decide (value ≤ 4294967295)) := by
  have kindIs : types.kind type = .ok (.int 32 false) := by rw [kind, word]
  simp only [check, kindIs]
  rfl

/-- The numbers of a table of words are not negative. -/
theorem nonneg_of_make (word : types.kinds[type.index]? = some (.int 32 false)) {values : List Int}
    {made : TypedValue} (making : types.make type (.array (values.map .int)) = .ok made) :
    ∀ value ∈ values, 0 ≤ value := by
  have checked := check_array_iff.mp (make_eq_ok_iff.mp making).2.1
  intro value member
  have fits := checked _ (List.mem_map_of_mem member)
  rw [check_word word] at fits
  exact of_decide_eq_true (Bool.and_eq_true_iff.mp (Except.ok.inj fits)).1

end Registry

/-- A word that is not negative as a signed number is the number itself. -/
theorem signedWord_eq {number : Nat} (inWord : number < addressLimit)
    (nonneg : 0 ≤ signedWord number) : signedWord number = number := by
  have balanced : ∀ limit : Nat, number < limit → 0 ≤ Int.bmod number limit →
      Int.bmod number limit = number := by
    intro limit less nonneg
    have small : (number : Int) % limit = number :=
      Int.emod_eq_of_lt (Int.natCast_nonneg _) (Int.ofNat_lt.mpr less)
    rw [Int.bmod_def, small] at nonneg ⊢
    split at nonneg
    · next low => rw [if_pos low]
    · omega
  exact balanced _ inWord nonneg

/-! ### Scratch storage -/

namespace Lowering

variable {tiling : Tiling} {operation level arena : String} {draft next : TileDraft}
  {workspace final : Workspace}

theorem core_bindView {name target : String} {type : TypeId} {offset : Nat}
    (ran : bindView name type target offset level workspace = .ok () final) {other : String}
    (different : name ≠ other) :
    (final.context.find? other).map Buffer.core =
      (workspace.context.find? other).map Buffer.core := by
  obtain ⟨_, discarded, discarding, adding⟩ := bind_eq_ok ran
  have kept : (discarded.context.find? other).map Buffer.core =
      (workspace.context.find? other).map Buffer.core := by
    rcases discardBuffer_eq_ok discarding with ⟨-, same⟩ | ⟨buffer, removed⟩
    · rw [same]
    · obtain ⟨-, same | ⟨target, same⟩⟩ := Context.remove_cases removed
      · rw [same, Context.find?_drop_of_ne _ different.symm]
      · rw [same, ← (Context.sameCores_modify _ target fun buffer =>
          (buffer.core_dropAlias name).1).find?_eq, Context.find?_drop_of_ne _ different.symm]
  rw [← kept]
  rcases Context.add_cases (add_eq_ok adding) with ⟨-, same⟩ | ⟨target, -, -, same⟩
  · rw [same, Context.find?_push_of_ne _ (by exact different)]
  · rw [same, Context.find?_push_of_ne _ (by exact different),
      ← (Context.sameCores_modify _ target fun buffer =>
        (buffer.core_addAlias _).1).find?_eq]

/-- A view is no scratch storage, and making it leaves other names alone. -/
theorem isLevelTransient_bindView {name target kept : String} {type : TypeId} {offset : Nat}
    (ran : bindView name type target offset kept workspace = .ok () final) (other : String) :
    isLevelTransient final.context level other =
      (decide (name ≠ other) && isLevelTransient workspace.context level other) := by
  by_cases same : name = other
  · subst same
    rw [isLevelTransient_eq, bindView_eq_ok ran]
    simp [madeView, Buffer.ofReference, Buffer.core, Buffer.isTransient]
  · rw [isLevelTransient_eq, core_bindView ran same, ← isLevelTransient_eq, decide_eq_true same,
      Bool.true_and]

theorem isLevelTransient_push {context : Context} {buffer : Buffer} {scope : Scope}
    (new : context.isBuffer buffer.name = false) (storage : buffer.isTransient = false)
    (name : String) :
    isLevelTransient (context.push buffer scope) level name =
      isLevelTransient context level name := by
  by_cases same : buffer.name = name
  · have absent : context.find? name = none := Context.isBuffer_eq_false_iff.mp (same ▸ new)
    rw [isLevelTransient, isLevelTransient, absent, ← same, Context.find?_push_self new]
    simp [storage]
  · rw [isLevelTransient, isLevelTransient, Context.find?_push_of_ne context same]

theorem isLevelTransient_hoist {name code : String}
    (ran : hoist name code workspace = .ok () final) (other : String) :
    isLevelTransient final.context level other =
      isLevelTransient workspace.context level other := by
  obtain ⟨isNew, middle, hoisting, last⟩ := bind_eq_ok ran
  obtain ⟨-, rfl⟩ := pure_eq_ok last
  have hoisted := attempt_eq_ok hoisting
  unfold Context.hoist at hoisted
  split at hoisted
  · split at hoisted
    · rw [← (Prod.mk.inj (Except.ok.inj hoisted)).2]
    · cases hoisted
  · rw [← (Prod.mk.inj (Except.ok.inj hoisted)).2]
    rfl

theorem tableCode_eq_ok {types : Registry} {name code : String} {type : TypeId}
    {values : List Int} {value : TypedValue}
    (made : types.make type (.array (values.map .int)) = .ok value)
    (written : tableCode types name type values.length value = .ok code) :
    ∃ typeName, types.typeName type = .ok typeName ∧
      code = tableText typeName name (values.map toString) := by
  cases named : types.typeName type with
  | error error => simp [tableCode, named, bind, Except.bind] at written
  | ok typeName =>
      obtain rfl := Registry.make_eq_ok made
      have code_eq : tableCode types name type values.length ⟨type, .array (values.map .int)⟩ =
          .ok (tableText typeName name (values.map toString)) := by
        have length_eq : (values.map toString).length = values.length := List.length_map _
        unfold tableCode tableText
        rw [named, length_eq]
        dsimp only
        rw [Value.text_ints]
        rfl
      exact ⟨typeName, rfl, Except.ok.inj (written.symm.trans code_eq)⟩

/-- A table that was hoisted is defined, with its numbers in order; its name is new or stands for no
scratch storage. -/
theorem hoistTable_eq_ok {name kept : String} {type : TypeId} {values : List Int}
    (ran : hoistTable name type values kept workspace = .ok () final) :
    (∃ typeName made, workspace.context.types.typeName type = .ok typeName ∧
      workspace.context.types.make type (.array (values.map .int)) = .ok made ∧
      ⟨name, tableText typeName name (values.map toString)⟩ ∈ final.context.definitions) ∧
    ∀ level other, isLevelTransient final.context level other =
      isLevelTransient workspace.context level other := by
  obtain ⟨value, valued, valuing, afterValue⟩ := bind_eq_ok ran
  obtain ⟨made, rfl⟩ := ask_eq_ok valuing
  obtain ⟨code, coded, coding, afterCode⟩ := bind_eq_ok afterValue
  obtain ⟨written, rfl⟩ := ask_eq_ok coding
  obtain ⟨known, asked, asking, afterAsk⟩ := bind_eq_ok afterCode
  obtain ⟨knownIs, rfl⟩ := ask_eq_ok asking
  cases knownIs
  obtain ⟨typeName, named, rfl⟩ := tableCode_eq_ok made written
  split at afterAsk
  · next new =>
      obtain ⟨size, sized, sizing, afterSize⟩ := bind_eq_ok afterAsk
      obtain ⟨-, rfl⟩ := ask_eq_ok sizing
      obtain ⟨_, added, adding, hoisting⟩ := bind_eq_ok afterSize
      refine ⟨⟨typeName, value, named, made, hoist_eq_ok hoisting⟩, fun level other => ?_⟩
      rw [isLevelTransient_hoist hoisting]
      rcases Context.add_cases (add_eq_ok adding) with ⟨-, same⟩ | ⟨target, views, -⟩
      · rw [same]
        exact isLevelTransient_push (Bool.not_eq_true' _ ▸ new) rfl other
      · cases views
  · exact ⟨⟨typeName, value, named, made, hoist_eq_ok afterAsk⟩,
      fun _ => isLevelTransient_hoist afterAsk⟩

end Lowering

/-! ### The three kinds of steps -/

/-- A fragment is the declaration of a view. -/
def Fragment.IsDeclaration (fragment : Fragment) (view : String) : Prop :=
  fragment.template = ({} : LifetimeTemplates).reference ∧ fragment.subject? = some view

namespace Lowering

/-- The logical name of the view of a tiled key. -/
def tensorName (operation level key : String) : String := operation ++ "." ++ key ++ "." ++ level

/-- The logical name of the view of scratch storage. -/
def scratchName (operation level name : String) : String := operation ++ ":" ++ name ++ ":" ++ level

/-- The logical name of the view of a scalar. -/
def scalarName (operation key : String) : String := operation ++ "/" ++ key ++ "/ref"

/-- A logical name has an identifier, and a fragment declares a view of this name. -/
structure MakesView (logical view : String) (declaration : Fragment) (start finish : Context) :
    Prop where
  retains : start.Retains finish
  viewed : finish.mangled.find? logical = some view
  declared : declaration.IsDeclaration view
  scratch : ∀ level name, isLevelTransient finish level name =
    (decide (view ≠ name) && isLevelTransient start level name)

/-- The step that tiles a tensor: a key that is bound to a buffer is bound to a view, and the
offsets of the tiles are in a table. -/
structure TensorStep (operation level : String) (entry : String × List Nat × Direction)
    (tensor : TiledTensor) (declaration : Fragment) (draft next : TileDraft)
    (start finish : Context) : Prop
    extends
      MakesView (tensorName operation level entry.1) tensor.view declaration start finish where
  direction : tensor.direction = entry.2.2
  bound : draft.fragment.bindings.find? entry.1 = some (.name tensor.external)
  tabled : finish.mangled.find? (operation ++ "/" ++ entry.1 ++ "/offsets") = some tensor.offsets
  nonneg : ∀ offset ∈ entry.2.1, 0 ≤ signedWord offset
  defined : ⟨tensor.offsets, tableText "uint32_t" tensor.offsets
    ((entry.2.1.map signedWord).map toString)⟩ ∈ finish.definitions
  drafted : next = (draft.rebind entry.1 tensor.view declaration).noteTensor tensor

/-- The step that places scratch storage: a key is bound to a view. -/
structure ScratchStep (operation level : String) (entry : String × String) (view : String)
    (declaration : Fragment) (draft next : TileDraft) (start finish : Context) : Prop
    extends MakesView (scratchName operation level entry.2) view declaration start finish where
  drafted : next = draft.rebind entry.1 view declaration

/-- The step that replaces a scalar: a key is bound to a view of a table with its values. -/
structure ScalarStep (operation : String) (entry : String × List Int) (view table : String)
    (declaration : Fragment) (draft next : TileDraft) (start finish : Context) : Prop
    extends MakesView (scalarName operation entry.1) view declaration start finish where
  tabled : finish.mangled.find? (operation ++ "/" ++ entry.1 ++ "/tiles") = some table
  defined : ∃ type, ⟨table, tableText type table (entry.2.map toString)⟩ ∈ finish.definitions
  drafted : next = (draft.rebind entry.1 view declaration).noteReplacement view table

variable {tiling : Tiling} {operation level arena : String} {draft next : TileDraft}
  {workspace final : Workspace}

theorem isDeclaration_of_viewDeclaration {view : String} {buffer : Buffer} {declaration : Fragment}
    (found : (workspace.context.find? view).map Buffer.core = some buffer.core)
    (named : buffer.name = view)
    (ran : viewDeclaration view workspace = .ok declaration final) :
    declaration.IsDeclaration view ∧ final = workspace := by
  obtain ⟨core, bindings, coreFound, described, rfl, rfl⟩ := viewDeclaration_eq_ok ran
  rw [coreFound] at found
  have names : core.core.name = buffer.core.name := congrArg Buffer.name (Option.some.inj found)
  have isView : core.name = view := names.trans named
  have describe := LifetimeTemplates.describe_of_bindings described
  exact ⟨⟨rfl, isView ▸ describe.subject?_eq _⟩, rfl⟩

theorem isLevelTransient_mangle {logical identifier : String}
    (ran : mangle logical workspace = .ok identifier final) (name : String) :
    isLevelTransient final.context level name = isLevelTransient workspace.context level name := by
  rw [isLevelTransient, isLevelTransient, (mangle_eq_ok ran).2, Context.find?_mangle]

theorem isLevelTransient_intern {make : Registry → TypeId × Registry} {type : TypeId}
    (ran : intern make workspace = .ok type final) (name : String) :
    isLevelTransient final.context level name = isLevelTransient workspace.context level name := by
  rw [(intern_eq_ok ran).2]
  rfl

theorem isLevelTransient_scalarType {key : String} {type : TypeId}
    (ran : scalarType tiling key workspace = .ok type final) (name : String) :
    isLevelTransient final.context level name = isLevelTransient workspace.context level name := by
  unfold scalarType at ran
  cases given : tiling.scheme.types.find? key with
  | some type =>
      rw [given] at ran
      rw [(pure_eq_ok ran).2]
  | none =>
      rw [given] at ran
      exact isLevelTransient_intern ran name

/-- What naming and binding a view does. -/
theorem makesView_of_bindView {logical view target : String} {type : TypeId} {offset : Nat}
    {start named viewed : Workspace} {declaration : Fragment}
    (naming : mangle logical start = .ok view named)
    (viewing : bindView view type target offset level named = .ok () viewed)
    (declared : declaration.IsDeclaration view) :
    MakesView logical view declaration start.context viewed.context where
  retains := ((retains_bindView _ _ _ _ _).ok
    ((retains_mangle logical).ok (.refl _) naming).1 viewing).1
  viewed := ((retains_bindView _ _ _ _ _).ok (.refl _) viewing).1.named (given_of_mangle naming)
  declared := declared
  scratch level name := by
    rw [isLevelTransient_bindView viewing, isLevelTransient_mangle naming]

theorem tensorStep_of_tileTensor {entry : String × List Nat × Direction}
    (ran : tileTensor tiling operation level arena draft entry workspace = .ok next final) :
    ∃ tensor declaration, TensorStep operation level entry tensor declaration draft next
      workspace.context final.context := by
  obtain ⟨external, seen, seeing, afterSeeing⟩ := bind_eq_ok ran
  obtain ⟨bound, rfl⟩ := tiledBuffer_eq_ok seeing
  obtain ⟨root, asked, asking, afterRoot⟩ := bind_eq_ok afterSeeing
  obtain ⟨-, rfl⟩ := ask_eq_ok asking
  obtain ⟨range, ranged, ranging, afterRange⟩ := bind_eq_ok afterRoot
  obtain ⟨-, rfl⟩ := ask_eq_ok ranging
  obtain ⟨buffer, looked, looking, afterLookup⟩ := bind_eq_ok afterRange
  obtain ⟨-, rfl⟩ := lookup_eq_ok looking
  obtain ⟨view, named, naming, afterName⟩ := bind_eq_ok afterLookup
  obtain ⟨_, viewed, viewing, afterView⟩ := bind_eq_ok afterName
  obtain ⟨table, tabled, tabling, afterTable⟩ := bind_eq_ok afterView
  obtain ⟨word, worded, wording, afterWord⟩ := bind_eq_ok afterTable
  obtain ⟨_, hoisted, hoisting, afterHoist⟩ := bind_eq_ok afterWord
  obtain ⟨declaration, declared, declaring, last⟩ := bind_eq_ok afterHoist
  obtain ⟨rfl, rfl⟩ := pure_eq_ok last
  have made := denotes_of_table (bindView_eq_ok viewing) tabling wording hoisting
  obtain ⟨declares, rfl⟩ := isDeclaration_of_viewDeclaration made rfl declaring
  have makes := makesView_of_bindView naming viewing declares
  -- The steps from the view to the end of the table retain what was there, and touch no scratch.
  have kept := ((retains_hoistTable _ _ _ _).ok
    ((retains_intern _).ok ((retains_mangle _).ok (.refl _) tabling).1 wording).1 hoisting).1
  have keptTable := ((retains_hoistTable _ _ _ _).ok
    ((retains_intern _).ok (.refl _) wording).1 hoisting).1
  have isWord : worded.context.types.kinds[word.index]? = some (.int 32 false) := by
    rw [(intern_eq_ok wording).1, (intern_eq_ok wording).2]
    exact Registry.getElem?_intern _ _
  obtain ⟨⟨typeName, value, typed, making, defined⟩, -⟩ := hoistTable_eq_ok hoisting
  rw [Registry.typeName_word isWord] at typed
  cases typed
  refine ⟨{ direction := entry.2.2, external, view, offsets := table, bytes := range.length },
    declaration, ⟨makes.retains.trans kept, kept.named makes.viewed, declares, ?_⟩, rfl, bound,
    keptTable.named (given_of_mangle tabling), ?_, defined, rfl⟩
  · intro level name
    rw [← makes.scratch, (hoistTable_eq_ok hoisting).2, isLevelTransient_intern wording,
      isLevelTransient_mangle tabling]
  · intro offset member
    exact Registry.nonneg_of_make isWord making _ (List.mem_map_of_mem member)

theorem scratchStep_of_placeTransient {entry : String × String}
    (ran : placeTransient tiling operation level arena draft entry workspace = .ok next final) :
    ∃ view declaration, ScratchStep operation level entry view declaration draft next
      workspace.context final.context := by
  obtain ⟨range, ranged, ranging, afterRange⟩ := bind_eq_ok ran
  obtain ⟨-, rfl⟩ := ask_eq_ok ranging
  obtain ⟨buffer, looked, looking, afterLookup⟩ := bind_eq_ok afterRange
  obtain ⟨-, rfl⟩ := lookup_eq_ok looking
  obtain ⟨view, named, naming, afterName⟩ := bind_eq_ok afterLookup
  obtain ⟨_, viewed, viewing, afterView⟩ := bind_eq_ok afterName
  obtain ⟨declaration, declared, declaring, last⟩ := bind_eq_ok afterView
  obtain ⟨rfl, rfl⟩ := pure_eq_ok last
  have made := congrArg (Option.map Buffer.core) (bindView_eq_ok viewing)
  obtain ⟨declares, rfl⟩ := isDeclaration_of_viewDeclaration made rfl declaring
  exact ⟨view, declaration, makesView_of_bindView naming viewing declares, rfl⟩

theorem scalarStep_of_tileScalar {entry : String × List Int}
    (ran : tileScalar tiling operation level draft entry workspace = .ok next final) :
    ∃ view table declaration, ScalarStep operation entry view table declaration draft next
      workspace.context final.context := by
  obtain ⟨type, typed, typing, afterType⟩ := bind_eq_ok ran
  obtain ⟨table, tabled, tabling, afterTable⟩ := bind_eq_ok afterType
  obtain ⟨_, hoisted, hoisting, afterHoist⟩ := bind_eq_ok afterTable
  obtain ⟨view, named, naming, afterName⟩ := bind_eq_ok afterHoist
  obtain ⟨_, viewed, viewing, afterView⟩ := bind_eq_ok afterName
  obtain ⟨declaration, declared, declaring, last⟩ := bind_eq_ok afterView
  obtain ⟨rfl, rfl⟩ := pure_eq_ok last
  have made := congrArg (Option.map Buffer.core) (bindView_eq_ok viewing)
  obtain ⟨declares, rfl⟩ := isDeclaration_of_viewDeclaration made rfl declaring
  have makes := makesView_of_bindView naming viewing declares
  have before := ((retains_hoistTable _ _ _ _).ok ((retains_mangle _).ok
    ((retains_scalarType tiling entry.1).ok (.refl _) typing).1 tabling).1 hoisting).1
  have kept := ((retains_hoistTable _ _ _ _).ok (.refl tabled.context) hoisting).1
  obtain ⟨⟨typeName, value, -, -, defined⟩, -⟩ := hoistTable_eq_ok hoisting
  refine ⟨view, table, declaration, ⟨before.trans makes.retains, makes.viewed, declares, ?_⟩,
    makes.retains.named (kept.named (given_of_mangle tabling)),
    ⟨typeName, makes.retains.defined defined⟩, rfl⟩
  intro level name
  rw [makes.scratch, (hoistTable_eq_ok hoisting).2, isLevelTransient_mangle tabling,
    isLevelTransient_scalarType typing]

end Lowering

end TensorLowering
