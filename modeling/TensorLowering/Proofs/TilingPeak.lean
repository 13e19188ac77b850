import TensorLowering.Proofs.Frames
import TensorLowering.Proofs.LifetimePhases
import TensorLowering.Proofs.ScheduleSteps
import TensorLowering.Proofs.TiledBlocks

/-! # The peak of a tiled level

Tiling a kernel occupies the extent of its arena on top of what is in use, and gives it back
before the operation allocates anything
(`TensorLowering.Lowering.makeTileViews_eq_ok`). No other step of tiling touches the counters of
the arenas, and freeing lifts no peak (`TensorLowering.Lowering.endLifetimes_keeps`).
-/

namespace TensorLowering

namespace Context

/-- Bytes that are occupied for a moment, by a counter that does not wrap around, lift the peak, and
what is in use stays as it was. -/
theorem exact_occupied {context : Context} {level : String} {bytes : Nat}
    (exact : ((context.reserve level bytes).release level bytes).overflowed = false) :
    context.overflowed = false ∧
      ((context.reserve level bytes).release level bytes).inUse level = context.inUse level ∧
      ((context.reserve level bytes).release level bytes).peak level =
        max (context.peak level) (context.inUse level + bytes) := by
  change (context.reserve level bytes).overflowed = false at exact
  have taken := inUse_reserve_of_exact exact level
  rw [if_pos rfl] at taken
  refine ⟨(overflowed_reserve_eq_false_iff.mp exact).1, ?_, ?_⟩
  · rw [inUse_release, taken, if_pos rfl, Nat.add_sub_cancel]
  · rw [peak_release, peak_reserve, if_pos rfl, taken]

theorem counters_occupied_congr {first second : Context} (same : first.counters = second.counters)
    (level : String) (bytes : Nat) :
    ((first.reserve level bytes).release level bytes).counters =
      ((second.reserve level bytes).release level bytes).counters := by
  cases first
  cases second
  simp only [counters, Prod.mk.injEq] at same
  obtain ⟨rfl, rfl, rfl⟩ := same
  rfl

/-- The peaks, and whether a counter has wrapped around. -/
def highWater (context : Context) : Dict Nat × Bool :=
  (context.maxDynamicSize, context.overflowed)

/-- Freeing changes no peak, and no counter wraps around. -/
theorem highWater_deallocate (context : Context) (name operation : String) :
    (context.deallocate name operation).2.highWater = context.highWater := by
  cases live : context.isLive name with
  | false =>
      obtain ⟨error, failed⟩ := deallocate_of_dead live operation
      rw [failed]
  | true =>
      obtain ⟨_, _, changed⟩ := deallocate_changes live operation
      rw [changed]
      exact congrArg₂ Prod.mk (context.modify_maxDynamicSize name _)
        (context.modify_overflowed name _)

end Context

/-! ### Tiling a kernel -/

namespace Lowering

open Context (counters)

variable (level operation arena : String)

theorem ensureArena_keeps (extent : Nat) : Keeps counters (ensureArena level extent) := by
  apply (mangle_keeps _).bind
  intro name
  apply (keeps_ask _).bind
  intro known
  apply keeps_ite
  · apply (modifyBuffer_keeps name _).bind
    exact fun _ => keeps_pure name
  · apply (intern_keeps _).bind
    intro byte
    apply (add_keeps _ _).bind
    exact fun _ => keeps_pure name

theorem bindView_keeps (name : String) (type : TypeId) (target : String) (offset : Nat) :
    Keeps counters (bindView name type target offset level) :=
  (discardBuffer_keeps name).bind fun _ => add_keeps _ _

theorem hoistTable_keeps (name : String) (type : TypeId) (values : List Int) :
    Keeps counters (hoistTable name type values level) := by
  apply (keeps_askTypes _).bind
  intro value
  apply (keeps_askTypes _).bind
  intro code
  apply (keeps_ask _).bind
  intro known
  apply keeps_ite
  · apply (keeps_askTypes _).bind
    intro size
    apply (add_keeps _ _).bind
    exact fun _ => hoist_keeps name code
  · exact hoist_keeps name code

theorem viewDeclaration_keeps (name : String) : Keeps counters (viewDeclaration name) := by
  apply (keeps_lookup name).bind
  intro buffer
  apply (keeps_askTypes _).bind
  exact fun _ => keeps_pure _

theorem tiledBuffer_keeps (fragment : Fragment) (key : String) :
    Keeps counters (tiledBuffer operation fragment key) := by
  unfold tiledBuffer
  split
  · exact keeps_pure _
  · exact keeps_throw _

variable (tiling : Tiling) (draft : TileDraft)

theorem tileTensor_keeps (entry : String × List Nat × Direction) :
    Keeps counters (tileTensor tiling operation level arena draft entry) := by
  apply (tiledBuffer_keeps operation _ _).bind
  intro external
  apply (keeps_ask _).bind
  intro root
  apply (keeps_ask _).bind
  intro range
  apply (keeps_lookup root).bind
  intro buffer
  apply (mangle_keeps _).bind
  intro view
  apply (bindView_keeps level view _ arena _).bind
  intro _
  apply (mangle_keeps _).bind
  intro table
  apply (intern_keeps _).bind
  intro word
  apply (hoistTable_keeps level table word _).bind
  intro _
  apply (viewDeclaration_keeps view).bind
  exact fun _ => keeps_pure _

theorem placeTransient_keeps (entry : String × String) :
    Keeps counters (placeTransient tiling operation level arena draft entry) := by
  apply (keeps_ask _).bind
  intro range
  apply (keeps_lookup _).bind
  intro buffer
  apply (mangle_keeps _).bind
  intro view
  apply (bindView_keeps level view _ arena _).bind
  intro _
  apply (viewDeclaration_keeps view).bind
  exact fun _ => keeps_pure _

theorem scalarType_keeps (key : String) : Keeps counters (scalarType tiling key) := by
  unfold scalarType
  split
  · exact keeps_pure _
  · exact intern_keeps _

theorem tileScalar_keeps (entry : String × List Int) :
    Keeps counters (tileScalar tiling operation level draft entry) := by
  apply (scalarType_keeps tiling _).bind
  intro type
  apply (mangle_keeps _).bind
  intro table
  apply (hoistTable_keeps level table type _).bind
  intro _
  apply (mangle_keeps _).bind
  intro view
  apply (bindView_keeps level view type table 0).bind
  intro _
  apply (viewDeclaration_keeps view).bind
  exact fun _ => keeps_pure _

variable {level operation arena tiling draft}

/-- Tiling a kernel occupies the extent of its arena, and does nothing else to the counters. -/
theorem tileKernel_eq_ok {kernel : Fragment} {workspace final : Workspace}
    (ran : tileKernel tiling level operation kernel workspace = .ok draft final) :
    ∃ extent, tiling.constraint.arenaExtent? level = some extent ∧ final.context.counters =
      ((workspace.context.reserve level extent).release level extent).counters := by
  obtain ⟨_, checked, checking, afterCheck⟩ := bind_eq_ok ran
  obtain ⟨-, rfl⟩ := ask_eq_ok checking
  obtain ⟨extent, asked, asking, afterExtent⟩ := bind_eq_ok afterCheck
  obtain ⟨extentIs, rfl⟩ := ask_eq_ok asking
  obtain ⟨arena, ensured, ensuring, afterArena⟩ := bind_eq_ok afterExtent
  obtain ⟨_, occupied, occupying, views⟩ := bind_eq_ok afterArena
  cases occupying
  have ensuredSame := (ensureArena_keeps level extent).eq ensuring
  refine ⟨extent, ?_, ?_⟩
  · unfold Tiling.extent at extentIs
    split at extentIs
    · next held => cases extentIs; exact held
    · cases extentIs
  · -- After the extent is given back, buffers and definitions come and go, but no storage.
    refine Eq.trans (Keeps.eq ?_ views) (Context.counters_occupied_congr ensuredSame level extent)
    apply (mangle_keeps _).bind
    intro loopVariable
    apply (keeps_foldlM (tileTensor_keeps level operation arena tiling) _ _).bind
    intro draft
    apply (keeps_ask _).bind
    intro transients
    apply (keeps_foldlM (placeTransient_keeps level operation arena tiling) _ _).bind
    intro draft
    apply (keeps_foldlM (tileScalar_keeps level operation tiling) _ _).bind
    exact fun draft => keeps_pure _

variable {workspace final : Workspace}

/-- Tiling a block with a tiling lifts the peak of the level to what is in use with the extent,
and what is in use stays as it was, if no counter wraps around. -/
theorem makeTileViews_eq_ok {block tiledBlock : Block} {tiling : Tiling}
    (tiled : block.tiling? = some tiling)
    (ran : makeTileViews level block operation workspace = .ok tiledBlock final) :
    ∃ extent, tiling.constraint.arenaExtent? level = some extent ∧
      (final.context.overflowed = false →
        final.context.inUse level = workspace.context.inUse level ∧
        final.context.peak level =
          max (workspace.context.peak level) (workspace.context.inUse level + extent)) := by
  rcases makeTileViews_cases ran with ⟨plain, -, -⟩ |
    ⟨before, kernel, found, after, draft, split, plain, own, drafting, -⟩
  · rw [Block.tiling?_eq_none_iff.mpr plain] at tiled
    cases tiled
  · obtain rfl := Option.some.inj ((Block.tiling?_eq_some split plain own).symm.trans tiled)
    obtain ⟨extent, extentIs, same⟩ := tileKernel_eq_ok drafting
    refine ⟨extent, extentIs, fun exact => ?_⟩
    rw [Context.overflowed_congr same] at exact
    rw [Context.inUse_congr same, Context.peak_congr same]
    exact (Context.exact_occupied exact).2

/-! ### Freeing changes no peak -/

theorem deallocate_keeps (name operation : String) :
    Keeps Context.highWater (deallocate name operation) :=
  keeps_perform fun context => context.highWater_deallocate name operation

theorem lifetimeCode_keeps (templates : Option LifetimeTemplates)
    (code : LifetimeTemplates → Registry → Buffer → Except Error Fragment) (name : String) :
    Keeps Context.highWater (lifetimeCode templates code name) := by
  apply (keeps_lookup name).bind
  intro buffer
  cases templates with
  | none => exact keeps_pure []
  | some templates => exact (keeps_askTypes _).bind fun _ => keeps_pure _

theorem releaseCode_keeps (templates : Option LifetimeTemplates) (owners : List String) :
    Keeps Context.highWater (releaseCode templates owners) := by
  induction owners with
  | nil => exact keeps_pure []
  | cons owner owners ih =>
      apply (lifetimeCode_keeps templates _ owner).bind
      intro code
      exact ih.bind fun _ => keeps_pure _

theorem deallocateAll_keeps (templates : Option LifetimeTemplates) (operation : String)
    (names : List String) :
    Keeps Context.highWater (deallocateAll templates operation names) := by
  induction names with
  | nil => exact keeps_pure ([], [])
  | cons name names ih =>
      apply (deallocate_keeps name operation).bind
      intro owners
      apply (releaseCode_keeps templates owners).bind
      intro code
      exact ih.bind fun _ => keeps_pure _

theorem endLifetimes_keeps (templates : Option LifetimeTemplates) (annotate : Bool)
    (operation : String) (opened : OpenLifetimes) :
    Keeps Context.highWater (endLifetimes templates annotate operation opened) := by
  apply (deallocateAll_keeps templates operation opened.freed).bind
  rintro ⟨owners, code⟩
  dsimp only
  split
  · apply (keeps_ask _).bind
    intro levels
    exact (keeps_ask _).bind fun _ => keeps_pure _
  · exact keeps_pure code

end Lowering

end TensorLowering
