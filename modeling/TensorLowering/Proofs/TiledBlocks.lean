import TensorLowering.Proofs.LoweringSteps

/-! # Tiling a block

Only one fragment of a block may have a tiling. A block without a tiling stays as it is, and the
kernel of any other block is replaced by its draft, whose record becomes that of the block
(`TensorLowering.Lowering.makeTileViews_cases`). A block is refused with its kernel
(`TensorLowering.Lowering.makeTileViews_of_refused`).
-/

namespace TensorLowering

namespace Block

/-- The tiling of a block: that of the first fragment with one. -/
def tiling? (block : Block) : Option Tiling := block.fragments.findSome? Fragment.tiling

variable {block : Block}

theorem tiling?_eq_none_iff : block.tiling? = none ↔
    ∀ fragment ∈ block.fragments, fragment.tiling = none := by
  rw [tiling?, List.findSome?_eq_none_iff]

/-- The tiling of the only fragment with one is that of the block. -/
theorem tiling?_eq_some {before after : List Fragment} {kernel : Fragment} {tiling : Tiling}
    (split : block.fragments = before ++ kernel :: after)
    (plain : ∀ fragment ∈ before ++ after, fragment.tiling = none)
    (own : kernel.tiling = some tiling) : block.tiling? = some tiling :=
  List.findSome?_eq_some_iff.mpr ⟨before, kernel, after, split, own,
    fun fragment member => plain fragment (List.mem_append_left _ member)⟩

end Block

namespace Lowering

variable {level operation : String} {workspace final : Workspace}

/-- The first fragment with a tiling is tiled, if there is one. -/
theorem tileFirst_cases {fragments : List Fragment} {result : List Fragment × Option TileRecord}
    (ran : tileFirst level operation fragments workspace = .ok result final) :
    ((∀ fragment ∈ fragments, fragment.tiling = none) ∧ result = (fragments, none) ∧
      final = workspace) ∨
    ∃ before kernel tiling after draft, fragments = before ++ kernel :: after ∧
      (∀ fragment ∈ before, fragment.tiling = none) ∧ kernel.tiling = some tiling ∧
      tileKernel tiling level operation kernel workspace = .ok draft final ∧
      result = (before ++ draft.fragment :: after, some draft.record) := by
  induction fragments generalizing result final with
  | nil =>
      obtain ⟨rfl, rfl⟩ := pure_eq_ok ran
      exact .inl ⟨fun _ member => absurd member List.not_mem_nil, rfl, rfl⟩
  | cons fragment fragments ih =>
      rw [tileFirst] at ran
      cases own : fragment.tiling with
      | some tiling =>
          rw [own] at ran
          obtain ⟨draft, middle, drafting, last⟩ := bind_eq_ok ran
          obtain ⟨rfl, rfl⟩ := pure_eq_ok last
          exact .inr ⟨[], fragment, tiling, fragments, draft, rfl,
            fun _ member => absurd member List.not_mem_nil, own, drafting, rfl⟩
      | none =>
          rw [own] at ran
          obtain ⟨later, middle, laterRan, last⟩ := bind_eq_ok ran
          obtain ⟨rfl, rfl⟩ := pure_eq_ok last
          rcases ih laterRan with ⟨plain, rfl, rfl⟩ |
            ⟨before, kernel, tiling, after, draft, rfl, plain, tiled, drafting, rfl⟩
          · exact .inl ⟨List.forall_mem_cons.mpr ⟨own, plain⟩, rfl, rfl⟩
          · exact .inr ⟨fragment :: before, kernel, tiling, after, draft, rfl,
              List.forall_mem_cons.mpr ⟨own, plain⟩, tiled, drafting, rfl⟩

/-- A block either has no tiling and stays, or its only fragment with one is tiled. -/
theorem makeTileViews_cases {block tiled : Block}
    (ran : makeTileViews level block operation workspace = .ok tiled final) :
    ((∀ fragment ∈ block.fragments, fragment.tiling = none) ∧ tiled = block ∧
      final = workspace) ∨
    ∃ before kernel tiling after draft, block.fragments = before ++ kernel :: after ∧
      (∀ fragment ∈ before ++ after, fragment.tiling = none) ∧ kernel.tiling = some tiling ∧
      tileKernel tiling level operation kernel workspace = .ok draft final ∧
      tiled = { block with
        fragments := before ++ draft.fragment :: after
        record := some draft.record } := by
  unfold makeTileViews at ran
  split at ran
  · cases ran
  · next single =>
      obtain ⟨result, middle, firstRan, last⟩ := bind_eq_ok ran
      obtain ⟨rfl, rfl⟩ := pure_eq_ok last
      rcases tileFirst_cases firstRan with ⟨plain, rfl, rfl⟩ |
        ⟨before, kernel, tiling, after, draft, split, plain, own, drafting, rfl⟩
      · exact .inl ⟨plain, rfl, rfl⟩
      · refine .inr ⟨before, kernel, tiling, after, draft, split, ?_, own, drafting, rfl⟩
        have alone : (after.filter (·.tiling.isSome)).length = 0 := by
          rw [split, List.filter_append, List.filter_cons_of_pos (by rw [own]; rfl),
            List.length_append, List.length_cons] at single
          omega
        intro fragment member
        rcases List.mem_append.mp member with earlier | later
        · exact plain fragment earlier
        · have untiled := List.filter_eq_nil_iff.mp (List.length_eq_zero_iff.mp alone) _ later
          rwa [Option.not_isSome_iff_eq_none] at untiled

/-- If the kernel of a block is refused before anything is changed, so is the block. -/
theorem makeTileViews_of_refused {block : Block} {kernel : Fragment} {tiling : Tiling}
    (member : kernel ∈ block.fragments) (own : kernel.tiling = some tiling)
    (refused : ∃ error, tileKernel tiling level operation kernel workspace =
      .error error workspace) :
    ∃ error, makeTileViews level block operation workspace = .error error workspace := by
  have first : ∀ fragments : List Fragment, kernel ∈ fragments →
      ¬ 1 < (fragments.filter (·.tiling.isSome)).length →
        ∃ error, tileFirst level operation fragments workspace = .error error workspace := by
    intro fragments
    induction fragments with
    | nil => exact fun listed => absurd listed List.not_mem_nil
    | cons head fragments ih =>
        intro listed single
        rw [tileFirst]
        cases headTiling : head.tiling with
        | some other =>
            have here : kernel = head := by
              refine (List.mem_cons.mp listed).resolve_right fun later => single ?_
              have counted : 0 < (fragments.filter (·.tiling.isSome)).length :=
                List.length_pos_of_mem (List.mem_filter.mpr ⟨later, by rw [own]; rfl⟩)
              rw [List.filter_cons_of_pos (by rw [headTiling]; rfl), List.length_cons]
              exact Nat.succ_lt_succ counted
            subst here
            obtain rfl := Option.some.inj (own.symm.trans headTiling)
            obtain ⟨error, fails⟩ := refused
            exact ⟨error, bind_of_error fails _⟩
        | none =>
            have later : kernel ∈ fragments := by
              refine (List.mem_cons.mp listed).resolve_left fun here => ?_
              rw [here, headTiling] at own
              cases own
            rw [List.filter_cons_of_neg (by rw [headTiling]; simp)] at single
            obtain ⟨error, fails⟩ := ih later single
            exact ⟨error, bind_of_error fails _⟩
  unfold makeTileViews
  split
  · exact ⟨_, rfl⟩
  · next single =>
      obtain ⟨error, fails⟩ := first block.fragments member single
      exact ⟨error, bind_of_error fails _⟩

end Lowering

end TensorLowering
