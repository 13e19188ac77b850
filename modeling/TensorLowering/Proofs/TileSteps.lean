import TensorLowering.Proofs.Bookkeeping
import TensorLowering.Proofs.Dictionaries
import TensorLowering.Proofs.Ledger
import TensorLowering.Proofs.References
import TensorLowering.Proofs.Views

/-! # Steps that make views

Tiling makes views and tables under identifiers of its own. A property that bookkeeping cannot
break, and that can bear that static buffers come and go under certain names
(`TensorLowering.Context.OpenFrame`), is maintained by all these steps. Where a view was made, its
name denotes it (`TensorLowering.Lowering.bindView_eq_ok`).
-/

namespace TensorLowering

theorem Buffer.core_addAlias (buffer : Buffer) (name : String) :
    (buffer.addAlias name).core = buffer.core ∧ buffer.size ≤ (buffer.addAlias name).size := by
  rw [addAlias]
  split <;> exact ⟨rfl, Nat.le_refl _⟩

theorem Buffer.core_dropAlias (buffer : Buffer) (name : String) :
    (buffer.dropAlias name).core = buffer.core ∧ buffer.size ≤ (buffer.dropAlias name).size :=
  ⟨rfl, Nat.le_refl _⟩

theorem BufferTable.findIn_map {view : Buffer → Buffer}
    (named : ∀ buffer, (view buffer).name = buffer.name) (name : String) (entries : List Buffer) :
    findIn name (entries.map view) = (findIn name entries).map view := by
  induction entries with
  | nil => rfl
  | cons head rest ih =>
      rw [List.map_cons, findIn, ih, findIn, named]
      cases findIn name rest with
      | some found => rfl
      | none =>
          dsimp only [Option.map_none]
          split <;> rfl

namespace Context

/-- Two contexts list the same buffers, apart from their books. -/
def SameCores (first second : Context) : Prop :=
  first.locals.entries.map Buffer.core = second.locals.entries.map Buffer.core ∧
    first.globals.entries.map Buffer.core = second.globals.entries.map Buffer.core

namespace SameCores

variable {first second : Context}

theorem of_atRest_eq (same : first.atRest = second.atRest) : SameCores first second := by
  have locals := congrArg (fun context => context.locals.entries.map Buffer.core) same
  have globals := congrArg (fun context => context.globals.entries.map Buffer.core) same
  simp only [atRest, List.map_map] at locals globals
  exact ⟨locals, globals⟩

theorem find?_eq (same : SameCores first second) (name : String) :
    (first.find? name).map Buffer.core = (second.find? name).map Buffer.core := by
  have named : ∀ buffer : Buffer, buffer.core.name = buffer.name := fun _ => rfl
  rw [find?_eq_findIn, find?_eq_findIn, ← BufferTable.findIn_map named,
    ← BufferTable.findIn_map named, List.map_append, List.map_append, same.1, same.2]

end SameCores

theorem sameCores_modify (context : Context) (name : String) {change : Buffer → Buffer}
    (keeps : ∀ buffer, (change buffer).core = buffer.core) :
    SameCores context (context.modify name change) := by
  unfold modify
  split
  · exact ⟨(BufferTable.map_modifyIn keeps name _).symm, rfl⟩
  · exact ⟨rfl, (BufferTable.map_modifyIn keeps name _).symm⟩

/-! ### Names that come and go -/

/-- A property that bookkeeping cannot break, and that bears that static buffers are added under
free or new names and that buffers under free names are dropped. -/
structure OpenFrame (free : String → Prop) (property : Context → Prop) : Prop
    extends Frame property where
  pushed : ∀ {context : Context} {buffer : Buffer} (scope : Scope),
    free buffer.name ∨ context.isBuffer buffer.name = false →
      buffer.deploy = false → buffer.isStruct = false →
        property context → property (context.push buffer scope)
  dropped : ∀ {context : Context} {name : String}, free name →
    property context → property (context.drop name)

namespace OpenFrame

variable {free : String → Prop} {property : Context → Prop} (frame : OpenFrame free property)
  {context after : Context}
include frame

theorem add {buffer : Buffer} {scope : Scope}
    (admitted : free buffer.name ∨ context.isBuffer buffer.name = false)
    (static : buffer.deploy = false) (plain : buffer.isStruct = false) (before : property context)
    (added : context.add buffer scope = .ok after) : property after := by
  rcases add_cases added with ⟨-, rfl⟩ | ⟨target, -, -, rfl⟩
  · exact frame.pushed scope admitted static plain before
  · refine frame.pushed scope ?_ static plain
      (frame.modified target (·.core_addAlias buffer.name) before)
    rwa [isBuffer_modify context fun other => Buffer.name_addAlias _ other]

theorem remove {name : String} {buffer : Buffer} (isFree : free name)
    (before : property context) (removed : context.remove name = .ok (buffer, after)) :
    property after := by
  obtain ⟨-, rfl | ⟨target, rfl⟩⟩ := remove_cases removed
  · exact frame.dropped isFree before
  · exact frame.modified target (·.core_dropAlias name) (frame.dropped isFree before)

end OpenFrame

/-- A property that bookkeeping cannot break, and that bears that any buffers are added under free
or new names and dropped under free names. -/
structure ClearFrame (free : String → Prop) (property : Context → Prop) : Prop
    extends Frame property where
  pushed : ∀ {context : Context} {buffer : Buffer} (scope : Scope),
    free buffer.name ∨ context.isBuffer buffer.name = false →
      property context → property (context.push buffer scope)
  dropped : ∀ {context : Context} {name : String}, free name →
    property context → property (context.drop name)

theorem ClearFrame.openFrame {free : String → Prop} {property : Context → Prop}
    (frame : ClearFrame free property) : OpenFrame free property where
  toFrame := frame.toFrame
  pushed scope admitted _ _ := frame.pushed scope admitted
  dropped := frame.dropped

/-- What a name denotes stays, apart from its books, if other names come and go. -/
theorem openFrame_denotes (name : String) (core : Buffer) :
    OpenFrame (· ≠ name) fun context => (context.find? name).map Buffer.core = some core where
  resting same before := ((SameCores.of_atRest_eq same).find?_eq name).symm.trans before
  typed _ before := before
  defined _ before := before
  modified {context} other change keeps before :=
    ((context.sameCores_modify other fun buffer => (keeps buffer).1).find?_eq name).symm.trans
      before
  pushed {context} buffer scope admitted _ _ before := by
    have different : buffer.name ≠ name := by
      rcases admitted with different | absent
      · exact different
      · rintro rfl
        rw [isBuffer_eq_false_iff.mp absent] at before
        cases before
    rw [find?_push_of_ne context different]
    exact before
  dropped {context} other different before := by
    rw [find?_drop_of_ne context (Ne.symm different)]
    exact before

theorem find?_mangle (context : Context) (logical name : String) :
    (context.mangle logical).2.find? name = context.find? name := by
  unfold mangle
  split <;> rfl

end Context

namespace Lowering

open Context (OpenFrame)

section Frames

variable {free : String → Prop} {property : Context → Prop} (frame : OpenFrame free property)
include frame

theorem finish_add {workspace : Workspace} {buffer : Buffer} {scope : Scope}
    (admitted : free buffer.name ∨ workspace.context.isBuffer buffer.name = false)
    (static : buffer.deploy = false) (plain : buffer.isStruct = false)
    (before : property workspace.context) : property ((add buffer scope).finish workspace) := by
  cases outcome : add buffer scope workspace with
  | ok answer final =>
      rw [finish_of_ok outcome]
      exact frame.add admitted static plain before (add_eq_ok outcome)
  | error error final =>
      rw [finish_of_error outcome, attempt_eq_error outcome]
      exact before

theorem preserves_discardBuffer {name : String} (isFree : free name) :
    Preserves property (discardBuffer name) := by
  apply (preserves_ask _).bind
  intro known _
  apply maintains_ite
  · intro _
    have removes : Preserves property (attempt (·.remove name)) :=
      preserves_attempt fun _ _ _ before removed => frame.remove isFree before removed
    exact removes.bind fun _ _ => preserves_pure _
  · exact fun _ => preserves_pure _

theorem preserves_bindView {name : String} (isFree : free name) (type : TypeId) (target : String)
    (offset : Nat) (level : String) :
    Preserves property (bindView name type target offset level) := by
  apply (preserves_discardBuffer frame isFree).bind
  intro _ _
  exact preserves_of_finish fun _ => finish_add frame (.inl isFree) rfl rfl

/-- A table is added only if its name is new. -/
theorem preserves_hoistTable (name : String) (type : TypeId) (values : List Int) (level : String) :
    Preserves property (hoistTable name type values level) := by
  apply preserves_of_finish
  intro workspace before
  refine finish_ask_bind before fun value _ => finish_ask_bind before fun code _ =>
    finish_ask_bind before fun known knownIs => ?_
  have hoists := preserves_hoist frame.toFrame name code
  split
  · next new =>
      refine finish_ask_bind before fun size _ => ?_
      let table : Buffer :=
        { Buffer.ofConstant name value (size * values.length) with level := some level }
      have unknown : workspace.context.isBuffer table.name = false := by
        cases knownIs
        exact Bool.not_eq_true' _ ▸ new
      have added : property ((add table .globals).finish workspace) :=
        finish_add frame (.inr unknown) rfl rfl before
      refine finish_bind (fun _ _ ran => finish_of_error ran ▸ added) fun _ middle ran => ?_
      exact hoists.finish (finish_of_ok ran ▸ added)
  · exact hoists.finish before

/-- An arena is made only if its name is new; otherwise it may grow. -/
theorem finish_ensureArena {workspace : Workspace} {level : String}
    (named : property (workspace.context.mangle (level ++ "_arena")).2) (extent : Nat) :
    property ((ensureArena level extent).finish workspace) := by
  refine finish_bind (fun _ _ ran => by cases ran) fun name middle mangling => ?_
  have before : property middle.context := (mangle_eq_ok mangling).2 ▸ named
  refine finish_ask_bind before fun known knownIs => ?_
  split
  · have grows : Preserves property
        (modifyBuffer name fun arena => { arena with size := max arena.size extent }) :=
      preserves_modifyBuffer frame.toFrame name fun _ => ⟨rfl, Nat.le_max_left _ _⟩
    exact (grows.bind fun _ _ => preserves_pure name).finish before
  · next new =>
      refine finish_bind (fun _ _ ran => by cases ran) fun byte interned ran => ?_
      obtain ⟨-, internedIs⟩ := intern_eq_ok ran
      have typed : property interned.context :=
        internedIs ▸ frame.typed (Registry.kinds_intern _ _) before
      let arena : Buffer :=
        { name, type := byte, size := extent, level := some level, deploy := false }
      have unknown : interned.context.isBuffer arena.name = false := by
        cases knownIs
        rw [internedIs]
        exact Bool.not_eq_true _ ▸ new
      have added : property ((add arena .globals).finish interned) :=
        finish_add frame (.inr unknown) rfl rfl typed
      refine finish_bind (fun _ _ ran => finish_of_error ran ▸ added) fun _ final ran => ?_
      exact (preserves_pure name).finish (finish_of_ok ran ▸ added)

theorem preserves_occupy (level : String) (bytes : Nat) :
    Preserves property (occupy level bytes) := by
  apply maintains_change
  intro context before
  exact ⟨frame.resting (by rfl) before, trivial⟩

theorem preserves_scalarType (tiling : Tiling) (key : String) :
    Preserves property (scalarType tiling key) := by
  unfold scalarType
  split
  · exact preserves_pure _
  · exact preserves_intern frame.toFrame fun registry => registry.kinds_intern _

end Frames

/-! ### What was made -/

/-- The view that a name is made. -/
def madeView (name : String) (type : TypeId) (target : String) (offset : Nat) (level : String) :
    Buffer :=
  { Buffer.ofReference name type target offset with level := some level, deploy := false }

variable {workspace final : Workspace} {level : String}

/-- A name that was made a view denotes it. -/
theorem bindView_eq_ok {name target : String} {type : TypeId} {offset : Nat}
    (ran : bindView name type target offset level workspace = .ok () final) :
    final.context.find? name = some (madeView name type target offset level) := by
  obtain ⟨_, discarded, -, adding⟩ := bind_eq_ok ran
  change add (madeView name type target offset level) .locals discarded = _ at adding
  rcases Context.add_cases (add_eq_ok adding) with ⟨-, same⟩ | ⟨_, -, -, same⟩
  · exact same ▸ Context.find?_push_locals _ _
  · exact same ▸ Context.find?_push_locals _ _

/-- A name goes on denoting its buffer while a table of numbers is made. -/
theorem denotes_of_table {name : String} {buffer : Buffer}
    {viewed tabled worded hoisted : Workspace}
    {logical table : String} {width : Nat} {word : TypeId} {values : List Int}
    (found : viewed.context.find? name = some buffer)
    (tabling : mangle logical viewed = .ok table tabled)
    (wording : intern (·.int width false) tabled = .ok word worded)
    (hoisting : hoistTable table word values level worded = .ok () hoisted) :
    (hoisted.context.find? name).map Buffer.core = some buffer.core := by
  have still := Context.openFrame_denotes name buffer.core
  have tabledFound : (tabled.context.find? name).map Buffer.core = some buffer.core := by
    rw [(mangle_eq_ok tabling).2, Context.find?_mangle, found]
    rfl
  have wordedFound := ((preserves_intern still.toFrame fun registry =>
    registry.kinds_intern _).ok tabledFound wording).1
  exact ((preserves_hoistTable still _ _ _ _).ok wordedFound hoisting).1

/-- The arena of a level has the identifier of its logical name, and room for the extent. -/
theorem ensureArena_eq_ok {extent : Nat} {arena : String}
    (ran : ensureArena level extent workspace = .ok arena final) :
    arena = (workspace.context.mangle (level ++ "_arena")).1 ∧
      ∃ buffer, final.context.find? arena = some buffer ∧ extent ≤ buffer.size := by
  obtain ⟨name, named, naming, afterName⟩ := bind_eq_ok ran
  obtain ⟨nameIs, -⟩ := mangle_eq_ok naming
  obtain ⟨known, asked, asking, afterAsk⟩ := bind_eq_ok afterName
  obtain ⟨knownIs, rfl⟩ := ask_eq_ok asking
  cases knownIs
  split at afterAsk
  · next known =>
      obtain ⟨_, grown, growing, last⟩ := bind_eq_ok afterAsk
      obtain ⟨rfl, rfl⟩ := pure_eq_ok last
      obtain ⟨buffer, looked, looking, changing⟩ := bind_eq_ok growing
      obtain ⟨found, rfl⟩ := lookup_eq_ok looking
      have changed : grown.context = looked.context.modify name fun arena =>
          { arena with size := max arena.size extent } := (change_eq_ok changing).2
      refine ⟨nameIs, { buffer with size := max buffer.size extent }, ?_, Nat.le_max_right _ _⟩
      rw [changed, Context.find?_modify _ (by exact fun _ => rfl), if_pos rfl, found]
      rfl
  · next unknown =>
      obtain ⟨byte, interned, interning, afterType⟩ := bind_eq_ok afterAsk
      obtain ⟨_, added, adding, last⟩ := bind_eq_ok afterType
      obtain ⟨rfl, rfl⟩ := pure_eq_ok last
      obtain ⟨-, internedIs⟩ := intern_eq_ok interning
      refine ⟨nameIs,
        { name, type := byte, size := extent, level := some level, deploy := false }, ?_,
        Nat.le_refl _⟩
      rcases Context.add_cases (add_eq_ok adding) with ⟨-, same⟩ | ⟨_, targeted, -⟩
      · rw [same]
        exact Context.find?_push_self (by rw [internedIs]; exact Bool.not_eq_true _ ▸ unknown) _
      · cases targeted

/-- The declaration of a view is written after the buffer that its name denotes. -/
theorem viewDeclaration_eq_ok {name : String} {declaration : Fragment}
    (ran : viewDeclaration name workspace = .ok declaration final) :
    ∃ buffer bindings, workspace.context.find? name = some buffer ∧
      LifetimeTemplates.bindings workspace.context.types buffer = .ok bindings ∧
      declaration = { template := ({} : LifetimeTemplates).reference, bindings } ∧
      final = workspace := by
  obtain ⟨buffer, looked, looking, afterLookup⟩ := bind_eq_ok ran
  obtain ⟨found, rfl⟩ := lookup_eq_ok looking
  obtain ⟨bindings, described, describing, last⟩ := bind_eq_ok afterLookup
  obtain ⟨bindingsAre, rfl⟩ := ask_eq_ok describing
  obtain ⟨rfl, rfl⟩ := pure_eq_ok last
  exact ⟨buffer, bindings, found, bindingsAre, rfl, rfl⟩

theorem tiledBuffer_eq_ok {operation key external : String} {fragment : Fragment}
    (ran : tiledBuffer operation fragment key workspace = .ok external final) :
    fragment.bindings.find? key = some (.name external) ∧ final = workspace := by
  unfold tiledBuffer at ran
  cases bound : (fragment.bindings.find? key).bind Binding.name? with
  | none => rw [bound] at ran; cases ran
  | some name =>
      rw [bound] at ran
      obtain ⟨rfl, rfl⟩ := pure_eq_ok ran
      obtain ⟨binding, found, named⟩ := Option.bind_eq_some_iff.mp bound
      exact ⟨Binding.name?_eq_some_iff.mp named ▸ found, rfl⟩

end Lowering

/-- The names that the description of a buffer binds are its own and that of its target. -/
theorem LifetimeTemplates.eq_of_bindings {types : Registry} {buffer : Buffer} {bindings : Bindings}
    (described : LifetimeTemplates.bindings types buffer = .ok bindings) {key name : String}
    (bound : bindings.find? key = some (.name name)) :
    name = buffer.name ∨ buffer.target? = some name := by
  unfold LifetimeTemplates.bindings at described
  cases typed : types.typeName buffer.type with
  | error error => rw [typed] at described; cases described
  | ok typeName =>
      rw [typed] at described
      cases described
      have listed := Dict.mem_of_find?_ofList bound
      cases kind : buffer.kind with
      | reference target offset =>
          simp only [kind, Binding.ofSize, List.mem_append, List.mem_cons, Prod.mk.injEq,
            Binding.name.injEq, reduceCtorEq, and_false, List.not_mem_nil, or_false] at listed
          rcases listed with ⟨-, rfl⟩ | ⟨-, rfl⟩
          · exact .inl rfl
          · exact .inr (by rw [Buffer.target?, kind])
      | _ => simp_all [Binding.ofSize]

end TensorLowering
