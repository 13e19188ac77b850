import TensorLowering.Proofs.Closures
import TensorLowering.Proofs.Identifiers
import TensorLowering.Proofs.TileSteps

/-! # How steps change a context

A step of a run may replace the buffer under one name, that of a view or of the struct of a
closure. All other names go on denoting what they denote, in the same scope and with no less room;
logical names keep their identifiers, and new identifiers are given to one logical name only
(`TensorLowering.Context.Evolves`).
-/

namespace TensorLowering

/-- A buffer after some bookkeeping: it may have grown. -/
structure Buffer.Outgrows (after before : Buffer) : Prop where
  core : after.core = before.core
  size : before.size ≤ after.size

namespace Buffer.Outgrows

theorem refl (buffer : Buffer) : buffer.Outgrows buffer := ⟨rfl, Nat.le_refl _⟩

theorem trans {first second third : Buffer} (later : third.Outgrows second)
    (earlier : second.Outgrows first) : third.Outgrows first :=
  ⟨later.core.trans earlier.core, Nat.le_trans earlier.size later.size⟩

end Buffer.Outgrows

namespace Context

/-! ### Look-ups under bookkeeping -/

theorem SameCores.isLocal_eq {first second : Context} (same : SameCores first second)
    (name : String) : first.isLocal name = second.isLocal name := by
  have names := congrArg (List.map Buffer.name) same.1
  rw [List.map_map, List.map_map] at names
  rw [Bool.eq_iff_iff, isLocal, isLocal, BufferTable.contains_iff, BufferTable.contains_iff]
  exact iff_of_eq (congrArg (name ∈ ·) names)

theorem find?_of_atRest_eq {first second : Context} (same : first.atRest = second.atRest)
    {name : String} {buffer : Buffer} (found : first.find? name = some buffer) :
    ∃ after, second.find? name = some after ∧ after.Outgrows buffer := by
  have rests : first.atRest.find? name = second.atRest.find? name := by rw [same]
  rw [find?_atRest, find?_atRest, found] at rests
  obtain ⟨after, afterFound, restEq⟩ := Option.map_eq_some_iff.mp rests.symm
  have cores : after.atRest.core = buffer.atRest.core := congrArg Buffer.core restEq
  have sizes : buffer.atRest.size = after.atRest.size := congrArg Buffer.size restEq.symm
  exact ⟨after, afterFound, cores, Nat.le_of_eq sizes⟩

theorem find?_of_modify {context : Context} (changed : String) {change : Buffer → Buffer}
    (keeps : ∀ buffer, (change buffer).core = buffer.core ∧ buffer.size ≤ (change buffer).size)
    {name : String} {buffer : Buffer} (found : context.find? name = some buffer) :
    ∃ after, (context.modify changed change).find? name = some after ∧ after.Outgrows buffer := by
  have keepsName : ∀ buffer, (change buffer).name = buffer.name := by
    intro buffer
    have names : (change buffer).core.name = buffer.core.name :=
      congrArg Buffer.name (keeps buffer).1
    exact names
  rw [context.find?_modify keepsName]
  split
  · next same =>
      subst same
      rw [found]
      exact ⟨change buffer, rfl, (keeps buffer).1, (keeps buffer).2⟩
  · exact ⟨buffer, found, .refl buffer⟩

theorem isLocal_push_of_ne (context : Context) {buffer : Buffer} {other : String}
    (different : buffer.name ≠ other) (scope : Scope) :
    (context.push buffer scope).isLocal other = context.isLocal other := by
  cases scope <;> simp [push, isLocal, BufferTable.contains, BufferTable.find?_push, different]

theorem isLocal_drop_of_ne (context : Context) {name other : String} (different : other ≠ name) :
    (context.drop name).isLocal other = context.isLocal other := by
  rw [drop]
  split <;> simp [isLocal, BufferTable.contains, BufferTable.find?_erase_of_ne different]

/-! ### Changes of a context -/

/-- How a step may change a context that replaces the buffer under at most one name. -/
structure Evolves (bound : Option String) (start finish : Context) : Prop where
  kept : ∀ {name buffer}, bound ≠ some name → start.find? name = some buffer →
    ∃ after, finish.find? name = some after ∧ after.Outgrows buffer
  located : ∀ {name buffer}, bound ≠ some name → start.find? name = some buffer →
    finish.isLocal name = start.isLocal name
  named : ∀ {logical identifier}, start.mangled.find? logical = some identifier →
    finish.mangled.find? logical = some identifier
  fresh : ∀ {logical identifier}, finish.mangled.find? logical = some identifier →
    start.mangled.find? logical = none →
      (∃ known : Context, identifier = known.freshIdentifier logical) ∧
        ∀ other, finish.mangled.find? other = some identifier → other = logical
  typed : start.types.kinds <+: finish.types.kinds

namespace Evolves

variable {bound : Option String} {start finish : Context}

theorem refl (bound : Option String) (start : Context) : Evolves bound start start where
  kept {_ buffer} _ found := ⟨buffer, found, .refl buffer⟩
  located _ _ := rfl
  named := id
  fresh given new := absurd (new.symm.trans given) (by simp)
  typed := List.prefix_rfl

theorem weaken (evolves : Evolves none start finish) (bound : Option String) :
    Evolves bound start finish where
  kept _ := evolves.kept (by simp)
  located _ := evolves.located (by simp)
  named := evolves.named
  fresh := evolves.fresh
  typed := evolves.typed

/-- A change that gives no identifiers. -/
theorem step (evolves : Evolves bound start finish) {next : Context}
    (keeps : ∀ {name buffer}, bound ≠ some name → finish.find? name = some buffer →
      (∃ after, next.find? name = some after ∧ after.Outgrows buffer) ∧
        next.isLocal name = finish.isLocal name)
    (sameNames : next.mangled = finish.mangled)
    (grows : finish.types.kinds <+: next.types.kinds) : Evolves bound start next where
  kept other found := by
    obtain ⟨middle, middleFound, grown⟩ := evolves.kept other found
    obtain ⟨⟨after, afterFound, more⟩, -⟩ := keeps other middleFound
    exact ⟨after, afterFound, more.trans grown⟩
  located other found := by
    obtain ⟨middle, middleFound, -⟩ := evolves.kept other found
    exact (keeps other middleFound).2.trans (evolves.located other found)
  named := by
    rw [sameNames]
    exact evolves.named
  fresh := by
    rw [sameNames]
    exact evolves.fresh
  typed := evolves.typed.trans grows

/-- Giving an identifier to a logical name. -/
theorem mangle (evolves : Evolves bound start finish) (logical : String) :
    Evolves bound start (finish.mangle logical).2 := by
  cases given : finish.mangled.find? logical with
  | some identifier =>
      rw [mangle_of_given given]
      exact evolves
  | none =>
      rw [mangle_of_new given]
      refine ⟨evolves.kept, evolves.located, ?_, ?_, evolves.typed⟩
      · intro other identifier found
        have still := evolves.named found
        have different : logical ≠ other := by
          rintro rfl
          rw [given] at still
          exact Option.some_ne_none _ still.symm
        rw [Dict.find?_insert_of_ne _ _ different]
        exact still
      · intro other identifier found new
        rw [Dict.find?_insert] at found
        split at found
        · next same =>
            subst same
            cases found
            refine ⟨⟨finish, rfl⟩, fun second secondFound => ?_⟩
            rw [Dict.find?_insert] at secondFound
            split at secondFound
            · next same => exact same.symm
            · exact absurd rfl (ne_freshIdentifier_of_given secondFound logical)
        · obtain ⟨spelled, sole⟩ := evolves.fresh found new
          refine ⟨spelled, fun second secondFound => ?_⟩
          rw [Dict.find?_insert] at secondFound
          split at secondFound
          · exact absurd (Option.some.inj secondFound).symm
              (ne_freshIdentifier_of_given found logical)
          · exact sole second secondFound

end Evolves

/-- Bookkeeping, and all that is done under the bound name or a new one, is such a change. -/
theorem clearFrame_evolves (bound : Option String) (start : Context) :
    ClearFrame (bound = some ·) (Evolves bound start) where
  resting {first second} same evolves := by
    have names : first.atRest.mangled = second.atRest.mangled := by rw [same]
    have types : first.atRest.types = second.atRest.types := by rw [same]
    have sameTypes : second.types = first.types := types.symm
    refine evolves.step (fun _ found => ?_) names.symm (sameTypes ▸ List.prefix_rfl)
    exact ⟨find?_of_atRest_eq same found, ((SameCores.of_atRest_eq same).isLocal_eq _).symm⟩
  typed grows evolves := evolves.step (fun _ found => ⟨⟨_, found, .refl _⟩, rfl⟩) rfl grows
  defined _ evolves :=
    evolves.step (fun _ found => ⟨⟨_, found, .refl _⟩, rfl⟩) rfl List.prefix_rfl
  modified {context} changed change keeps evolves := by
    refine evolves.step (fun _ found => ⟨find?_of_modify changed keeps found, ?_⟩) ?_ ?_
    · exact ((context.sameCores_modify changed fun buffer => (keeps buffer).1).isLocal_eq _).symm
    · unfold modify
      split <;> rfl
    · unfold modify
      split <;> exact List.prefix_rfl
  pushed {context buffer} scope admitted evolves := by
    have different : ∀ {name known}, bound ≠ some name → context.find? name = some known →
        buffer.name ≠ name := by
      rintro name known other found rfl
      rcases admitted with free | new
      · exact other free
      · rw [isBuffer_eq_false_iff, found] at new
        cases new
    refine evolves.step (fun other found => ⟨⟨_, ?_, .refl _⟩, ?_⟩) ?_ ?_
    · rw [find?_push_of_ne context (different other found)]
      exact found
    · exact isLocal_push_of_ne context (different other found) scope
    · cases scope <;> rfl
    · cases scope <;> exact List.prefix_rfl
  dropped {context name} free evolves := by
    have different : ∀ {other}, bound ≠ some other → other ≠ name := by
      rintro _ apart rfl
      exact apart free
    refine evolves.step (fun other found => ⟨⟨_, ?_, .refl _⟩, ?_⟩) ?_ ?_
    · rw [find?_drop_of_ne context (different other)]
      exact found
    · exact isLocal_drop_of_ne context (different other)
    · unfold drop
      split <;> rfl
    · unfold drop
      split <;> exact List.prefix_rfl

/-! ### Names that are bound -/

/-- A change after which a logical name has an identifier, and which replaces at most the buffer
under this identifier with a suffix. -/
structure Binds (logical suffix identifier : String) (start finish : Context) : Prop where
  evolves : Evolves (some (identifier ++ suffix)) start finish
  given : finish.mangled.find? logical = some identifier

theorem Binds.mangle {logical suffix identifier : String} {start finish : Context}
    (binds : Binds logical suffix identifier start finish) (other : String) :
    Binds logical suffix identifier start (finish.mangle other).2 :=
  ⟨binds.evolves.mangle other, ((Evolves.refl none finish).mangle other).named binds.given⟩

/-- A logical name keeps its identifier whatever happens to buffers. -/
theorem clearFrame_given (logical identifier : String) :
    ClearFrame (fun _ => True) fun context =>
      context.mangled.find? logical = some identifier where
  resting {first second} same given := by
    have names : first.atRest.mangled = second.atRest.mangled := by rw [same]
    have sameNames : first.mangled = second.mangled := names
    exact sameNames ▸ given
  typed _ given := given
  defined _ given := given
  modified {context} name change keeps given := by
    unfold modify
    split <;> exact given
  pushed {context buffer} scope admitted given := by cases scope <;> exact given
  dropped {context name} free given := by
    unfold drop
    split <;> exact given

theorem clearFrame_binds (logical suffix identifier : String) (start : Context) :
    ClearFrame (some (identifier ++ suffix) = some ·)
      (Binds logical suffix identifier start) := by
  have frame := clearFrame_evolves (some (identifier ++ suffix)) start
  have names := clearFrame_given logical identifier
  refine { resting := ?_, typed := ?_, defined := ?_, modified := ?_, pushed := ?_, dropped := ?_ }
  · intro first second same binds
    exact ⟨frame.resting same binds.evolves, names.resting same binds.given⟩
  · exact fun grows binds => ⟨frame.typed grows binds.evolves, binds.given⟩
  · exact fun definitions binds => ⟨frame.defined definitions binds.evolves, binds.given⟩
  · intro context name change keeps binds
    exact ⟨frame.modified name keeps binds.evolves, names.modified name keeps binds.given⟩
  · intro context buffer scope admitted binds
    exact ⟨frame.pushed scope admitted binds.evolves, names.pushed scope (.inl trivial) binds.given⟩
  · intro context name free binds
    exact ⟨frame.dropped free binds.evolves, names.dropped trivial binds.given⟩

/-- A change that replaces at most the buffer under the identifier of a logical name with a
suffix. -/
def EvolvesBy (logical suffix : String) (start finish : Context) : Prop :=
  Evolves ((finish.mangled.find? logical).map (· ++ suffix)) start finish

theorem Binds.evolvesBy {logical suffix identifier : String} {start finish : Context}
    (binds : Binds logical suffix identifier start finish) :
    EvolvesBy logical suffix start finish := by
  rw [EvolvesBy, binds.given]
  exact binds.evolves

end Context

namespace Lowering

open Context (ClearFrame Evolves EvolvesBy Binds clearFrame_evolves clearFrame_binds)

variable {start : Context} {logical suffix : String}

/-! ### Steps that bind a name -/

theorem preserves_mangle_evolves (bound : Option String) (name : String) :
    Preserves (Evolves bound start) (mangle name) :=
  maintains_change fun _ evolves => ⟨evolves.mangle name, trivial⟩

theorem preserves_mangle_given (logical identifier name : String) :
    Preserves (fun context => context.mangled.find? logical = some identifier) (mangle name) :=
  maintains_change fun context given =>
    ⟨((Evolves.refl none context).mangle name).named given, trivial⟩

theorem preserves_mangle_binds (identifier name : String) :
    Preserves (Binds logical suffix identifier start) (mangle name) :=
  maintains_change fun _ binds => ⟨binds.mangle name, trivial⟩

/-- Once a logical name has its identifier, the steps after that may bind it. -/
theorem finish_mangle_bind {β : Type} {next : String → Lowering β} {workspace : Workspace}
    (before : Evolves none start workspace.context)
    (later : ∀ identifier, Preserves (Binds logical suffix identifier start) (next identifier)) :
    EvolvesBy logical suffix start ((mangle logical >>= next).finish workspace) := by
  refine finish_bind (fun _ _ ran => by cases ran) fun identifier middle ran => ?_
  obtain ⟨rfl, middleIs⟩ := mangle_eq_ok ran
  have binds : Binds logical suffix (workspace.context.mangle logical).1 start middle.context := by
    rw [middleIs]
    exact ⟨(before.mangle logical).weaken _, workspace.context.given_mangle logical⟩
  exact ((later _).finish binds).evolvesBy

/-- Steps before a name is bound. -/
theorem finish_before {α β : Type} {first : Lowering α} {next : α → Lowering β}
    {workspace : Workspace} (quiet : Preserves (Evolves none start) first)
    (before : Evolves none start workspace.context)
    (later : ∀ answer middle, Evolves none start middle.context →
      EvolvesBy logical suffix start ((next answer).finish middle)) :
    EvolvesBy logical suffix start ((first >>= next).finish workspace) := by
  have wider : ∀ context, Evolves none start context → EvolvesBy logical suffix start context :=
    fun _ evolves => evolves.weaken _
  exact quiet.finish_bind wider before fun answer middle evolves _ => later answer middle evolves

theorem preserves_tiledBuffer {property : Context → Prop} (operation key : String)
    (fragment : Fragment) : Preserves property (tiledBuffer operation fragment key) := by
  unfold tiledBuffer
  split
  · exact preserves_pure _
  · exact maintains_throw _

theorem preserves_viewDeclaration {property : Context → Prop} (name : String) :
    Preserves property (viewDeclaration name) := by
  apply (preserves_lookup name).bind
  intro buffer _
  exact (preserves_askTypes _).bind fun _ _ => preserves_pure _

section Tiling

variable (tiling : Tiling) (operation level arena : String) (draft : TileDraft)
  (workspace : Workspace)

theorem evolves_tileTensor (entry : String × List Nat × Direction) :
    EvolvesBy (operation ++ "." ++ entry.1 ++ "." ++ level) "" workspace.context
      ((tileTensor tiling operation level arena draft entry).finish workspace) := by
  refine finish_before (preserves_tiledBuffer _ _ _) (.refl _ _) fun external first evolves => ?_
  refine finish_before (preserves_ask _) evolves fun root second evolves => ?_
  refine finish_before (preserves_ask _) evolves fun range third evolves => ?_
  refine finish_before (preserves_lookup _) evolves fun buffer fourth evolves => ?_
  refine finish_mangle_bind evolves fun view => ?_
  have frame := clearFrame_binds (operation ++ "." ++ entry.1 ++ "." ++ level) "" view
    workspace.context
  apply (preserves_bindView frame.openFrame (by rw [String.append_empty]) _ _ _ _).bind
  intro _ _
  apply (preserves_mangle_binds view _).bind
  intro table _
  apply (preserves_intern frame.toFrame fun registry => registry.kinds_intern _).bind
  intro word _
  apply (preserves_hoistTable frame.openFrame _ _ _ _).bind
  intro _ _
  exact (preserves_viewDeclaration view).bind fun _ _ => preserves_pure _

theorem evolves_placeTransient (entry : String × String) :
    EvolvesBy (operation ++ ":" ++ entry.2 ++ ":" ++ level) "" workspace.context
      ((placeTransient tiling operation level arena draft entry).finish workspace) := by
  refine finish_before (preserves_ask _) (.refl _ _) fun range first evolves => ?_
  refine finish_before (preserves_lookup _) evolves fun buffer second evolves => ?_
  refine finish_mangle_bind evolves fun view => ?_
  have frame := clearFrame_binds (operation ++ ":" ++ entry.2 ++ ":" ++ level) "" view
    workspace.context
  apply (preserves_bindView frame.openFrame (by rw [String.append_empty]) _ _ _ _).bind
  intro _ _
  exact (preserves_viewDeclaration view).bind fun _ _ => preserves_pure _

theorem evolves_tileScalar (entry : String × List Int) :
    EvolvesBy (operation ++ "/" ++ entry.1 ++ "/ref") "" workspace.context
      ((tileScalar tiling operation level draft entry).finish workspace) := by
  have quiet := clearFrame_evolves none workspace.context
  refine finish_before (preserves_scalarType quiet.openFrame _ _) (.refl _ _)
    fun type first evolves => ?_
  refine finish_before (preserves_mangle_evolves _ _) evolves fun table second evolves => ?_
  refine finish_before (preserves_hoistTable quiet.openFrame _ _ _ _) evolves
    fun _ third evolves => ?_
  refine finish_mangle_bind evolves fun view => ?_
  have frame := clearFrame_binds (operation ++ "/" ++ entry.1 ++ "/ref") "" view workspace.context
  apply (preserves_bindView frame.openFrame (by rw [String.append_empty]) _ _ _ _).bind
  intro _ _
  exact (preserves_viewDeclaration view).bind fun _ _ => preserves_pure _

end Tiling

/-! ### Closures -/

theorem preserves_addStruct {free : String → Prop} {property : Context → Prop}
    (frame : ClearFrame free property) {name : String} (isFree : free name) (value : TypedValue)
    (size : Nat) : Preserves property (add (.ofStruct name value size) .locals) := by
  apply preserves_of_finish
  intro workspace before
  cases outcome : add (.ofStruct name value size) .locals workspace with
  | ok answer final =>
      rw [finish_of_ok outcome]
      rcases Context.add_cases (add_eq_ok outcome) with ⟨-, pushed⟩ | ⟨target, targets, -⟩
      · rw [pushed]
        exact frame.pushed .locals (.inl isFree) before
      · cases targets
  | error error final =>
      rw [finish_of_error outcome, attempt_eq_error outcome]
      exact before

theorem preserves_registerArgs {free : String → Prop} {property : Context → Prop}
    (frame : ClearFrame free property) {names : ClosureNames} (isFree : free names.args)
    (fields : List ClosureField) : Preserves property (registerArgs names fields) := by
  apply (preserves_internStruct frame.toFrame _ _).bind
  intro structType _
  apply (preserves_askTypes _).bind
  intro value _
  apply (preserves_askTypes _).bind
  intro size _
  apply (preserves_ask _).bind
  intro registered _
  apply maintains_ite
  · intro _
    apply (preserves_discardBuffer frame.openFrame isFree).bind
    intro _ _
    exact preserves_addStruct frame isFree value size
  · exact fun _ => preserves_pure _

theorem evolves_makeClosure (options : ClosureOptions) (block : Block) (operation : String)
    (workspace : Workspace) :
    EvolvesBy (operation ++ "_closure") "_args" workspace.context
      ((makeClosure options block operation).finish workspace) := by
  have quiet := (clearFrame_evolves none workspace.context).toFrame
  refine finish_before (preserves_renderBlock _) (.refl _ _) fun code first evolves => ?_
  refine finish_before (preserves_references _ _) evolves fun references second evolves => ?_
  refine finish_before (preserves_intern quiet fun registry => registry.kinds_intern _) evolves
    fun void third evolves => ?_
  refine finish_before (preserves_mapM preserves_lookup _) evolves fun buffers fourth evolves => ?_
  refine finish_before (preserves_closureFields quiet _ _) evolves fun fields fifth evolves => ?_
  refine finish_mangle_bind evolves fun closure => ?_
  have frame := clearFrame_binds (operation ++ "_closure") "_args" closure workspace.context
  apply (preserves_registerArgs frame rfl _).bind
  intro _ _
  apply (preserves_askTypes _).bind
  intro declarations _
  apply (preserves_askTypes _).bind
  intro loads _
  apply (preserves_liveInside frame.resting _ _ _).bind
  intro texts _
  exact (preserves_hoistClosure frame.toFrame _ _ _ _).bind fun _ _ => preserves_pure _

end Lowering

end TensorLowering
