import TensorLowering.Proofs.Arenas
import TensorLowering.Proofs.TiledReferences

/-! # Where views are placed

The view of a tiled tensor, or of scratch storage, is a reference into the arena of its level at the
offset that the constraint has for it (`TensorLowering.Lowering.places_tensorMove`,
`TensorLowering.Lowering.places_transientMove`). The views that a tiled block declares are those
that its moves have placed and those of scalars (`TensorLowering.Lowering.views_makeTileViews`).
-/

namespace TensorLowering

/-- A view is a reference into the arena of its level at the offset of its tensor, and the arena has
room for the range of the tensor. -/
def Placement.InBounds (placement : Placement) (context : Context) : Prop :=
  ∃ range arena storage,
    placement.constraint.range? placement.tensor placement.level = some range ∧
    context.mangled.find? (arenaName placement.level) = some arena ∧
    (context.find? placement.view).map Buffer.kind = some (.reference arena range.offset) ∧
    context.find? arena = some storage ∧ range.offset + range.length ≤ storage.size

/-- The views that a record declares. -/
def TileRecord.views (record : TileRecord) : List String :=
  record.declarations.filterMap Fragment.subject?

/-- The views that moves have placed. -/
def placedViews (moves : List Move) : List String :=
  moves.filterMap fun move => move.places.map Placement.view

namespace Lowering

open Context (clearFrame_given)

variable {tiling : Tiling} {level operation arena : String} {draft next : TileDraft}
  {workspace final : Workspace}

/-! ### Views that are made -/

/-- A move has placed a view of a tensor in an arena, and its draft declares the view. -/
structure Places (constraint : MemoryConstraint) (level arena : String) (move : Move)
    (draft next : TileDraft) (placement : Placement) : Prop where
  noted : move.places = some placement
  inLevel : placement.level = level
  given : placement.constraint = constraint
  refers : ∃ range, constraint.range? placement.tensor level = some range ∧
    (move.finish.find? placement.view).map Buffer.kind = some (.reference arena range.offset)
  views : next.record.views = draft.record.views ++ [placement.view]
  replacements : next.record.replacements = draft.record.replacements

theorem views_rebind (draft : TileDraft) (key : String) {view : String} {declaration : Fragment}
    {buffer : Buffer}
    (found : (workspace.context.find? view).map Buffer.core = some buffer.core)
    (named : buffer.name = view)
    (declaring : viewDeclaration view workspace = .ok declaration final) :
    (draft.rebind key view declaration).record.views = draft.record.views ++ [view] ∧
      (workspace.context.find? view).map Buffer.kind = some buffer.kind ∧ final = workspace := by
  obtain ⟨core, bindings, coreFound, described, rfl, rfl⟩ := viewDeclaration_eq_ok declaring
  rw [coreFound] at found
  have same : core.core = buffer.core := Option.some.inj found
  have names : core.core.name = buffer.core.name := congrArg Buffer.name same
  have kinds : core.core.kind = buffer.core.kind := congrArg Buffer.kind same
  refine ⟨?_, ?_, rfl⟩
  · have subject := (LifetimeTemplates.describe_of_bindings described).subject?_eq
      ({} : LifetimeTemplates).reference
    have isView : core.name = view := names.trans named
    rw [TileRecord.views, TileDraft.rebind, List.filterMap_append, List.filterMap_cons, subject,
      isView]
    rfl
  · rw [coreFound]
    exact congrArg some kinds

theorem places_placingMove {α : Type} {logical tensor view : String} {constraint : MemoryConstraint}
    {known : Option String} {step : Lowering α} {answer : α}
    (ran : step workspace = .ok answer final)
    (given : final.context.mangled.find? logical = some view) (isKnown : known = some tensor) :
    (placingMove logical level constraint known step workspace).places =
      some { view, level, tensor, constraint } := by
  rw [placingMove, observe, ran, isKnown]
  change ((final.context.mangled.find? logical).bind fun view => _) = _
  rw [given]
  rfl

/-- A tensor that is tiled is placed where its root is. -/
theorem places_tensorMove {entry : String × List Nat × Direction}
    (ran : tileTensor tiling operation level arena draft entry workspace = .ok next final) :
    ∃ placement, Places tiling.constraint level arena
      (tensorMove tiling level operation arena draft entry workspace) draft next placement := by
  have finishes : (tensorMove tiling level operation arena draft entry workspace).finish =
      final.context := congrArg leaves ran
  obtain ⟨external, seen, seeing, afterSeeing⟩ := bind_eq_ok ran
  obtain ⟨bound, rfl⟩ := tiledBuffer_eq_ok seeing
  obtain ⟨root, asked, asking, afterRoot⟩ := bind_eq_ok afterSeeing
  obtain ⟨rootIs, rfl⟩ := ask_eq_ok asking
  obtain ⟨range, ranged, ranging, afterRange⟩ := bind_eq_ok afterRoot
  obtain ⟨rangeIs, rfl⟩ := ask_eq_ok ranging
  obtain ⟨buffer, looked, looking, afterLookup⟩ := bind_eq_ok afterRange
  obtain ⟨-, rfl⟩ := lookup_eq_ok looking
  obtain ⟨view, named, naming, afterName⟩ := bind_eq_ok afterLookup
  obtain ⟨_, viewed, viewing, afterView⟩ := bind_eq_ok afterName
  obtain ⟨table, tabled, tabling, afterTable⟩ := bind_eq_ok afterView
  obtain ⟨word, worded, wording, afterWord⟩ := bind_eq_ok afterTable
  obtain ⟨_, hoisted, hoisting, afterHoist⟩ := bind_eq_ok afterWord
  obtain ⟨declaration, declared, declaring, last⟩ := bind_eq_ok afterHoist
  obtain ⟨rfl, rfl⟩ := pure_eq_ok last
  have frame := (clearFrame_given (operation ++ "." ++ entry.1 ++ "." ++ level) view).openFrame
  have viewedGiven :=
    ((preserves_bindView frame trivial _ _ _ _).ok (given_of_mangle naming) viewing).1
  have tabledGiven := ((preserves_mangle_given _ _ _).ok viewedGiven tabling).1
  have wordedGiven := ((preserves_intern frame.toFrame fun registry =>
    registry.kinds_intern _).ok tabledGiven wording).1
  have hoistedGiven := ((preserves_hoistTable frame _ _ _ _).ok wordedGiven hoisting).1
  have made := denotes_of_table (bindView_eq_ok viewing) tabling wording hoisting
  obtain ⟨views, refers, rfl⟩ := views_rebind draft entry.1 made rfl declaring
  have known : (((draft.fragment.bindings.find? entry.1).bind Binding.name?).bind fun external =>
      (looked.context.resolveRoot external).toOption) = some root := by
    rw [bound]
    change (looked.context.resolveRoot external).toOption = _
    rw [rootIs]
    rfl
  exact ⟨_, places_placingMove ran hoistedGiven known, rfl, rfl,
    ⟨range, range_eq_ok rangeIs, finishes ▸ refers⟩, views, rfl⟩

/-- Scratch storage is placed where the constraint has it. -/
theorem places_transientMove {entry : String × String}
    (ran : placeTransient tiling operation level arena draft entry workspace = .ok next final) :
    ∃ placement, Places tiling.constraint level arena
      (transientMove tiling level operation arena draft entry workspace) draft next placement := by
  have finishes : (transientMove tiling level operation arena draft entry workspace).finish =
      final.context := congrArg leaves ran
  obtain ⟨range, ranged, ranging, afterRange⟩ := bind_eq_ok ran
  obtain ⟨rangeIs, rfl⟩ := ask_eq_ok ranging
  obtain ⟨buffer, looked, looking, afterLookup⟩ := bind_eq_ok afterRange
  obtain ⟨-, rfl⟩ := lookup_eq_ok looking
  obtain ⟨view, named, naming, afterName⟩ := bind_eq_ok afterLookup
  obtain ⟨_, viewed, viewing, afterView⟩ := bind_eq_ok afterName
  obtain ⟨declaration, declared, declaring, last⟩ := bind_eq_ok afterView
  obtain ⟨rfl, rfl⟩ := pure_eq_ok last
  have frame := (clearFrame_given (operation ++ ":" ++ entry.2 ++ ":" ++ level) view).openFrame
  have viewedGiven :=
    ((preserves_bindView frame trivial _ _ _ _).ok (given_of_mangle naming) viewing).1
  have made := congrArg (Option.map Buffer.core) (bindView_eq_ok viewing)
  obtain ⟨views, refers, rfl⟩ := views_rebind draft entry.1 made rfl declaring
  exact ⟨_, places_placingMove ran viewedGiven rfl, rfl, rfl,
    ⟨range, range_eq_ok rangeIs, finishes ▸ refers⟩, views, rfl⟩

/-- A scalar is read through a view of a table, which is noted as a replacement. -/
theorem views_tileScalar {entry : String × List Int}
    (ran : tileScalar tiling operation level draft entry workspace = .ok next final) :
    ∃ view table, next.record.views = draft.record.views ++ [view] ∧
      next.record.replacements = draft.record.replacements ++ [(view, table)] := by
  obtain ⟨type, typed, typing, afterType⟩ := bind_eq_ok ran
  obtain ⟨table, tabled, tabling, afterTable⟩ := bind_eq_ok afterType
  obtain ⟨_, hoisted, hoisting, afterHoist⟩ := bind_eq_ok afterTable
  obtain ⟨view, named, naming, afterName⟩ := bind_eq_ok afterHoist
  obtain ⟨_, viewed, viewing, afterView⟩ := bind_eq_ok afterName
  obtain ⟨declaration, declared, declaring, last⟩ := bind_eq_ok afterView
  obtain ⟨rfl, rfl⟩ := pure_eq_ok last
  have made := congrArg (Option.map Buffer.core) (bindView_eq_ok viewing)
  obtain ⟨views, -, -⟩ := views_rebind draft entry.1 made rfl declaring
  exact ⟨view, table, views, rfl⟩

theorem Places.inBounds {constraint : MemoryConstraint} {move : Move} {placement : Placement}
    {extent : Nat} (places : Places constraint level arena move draft next placement)
    (provides : move.finish.Provides level arena extent)
    (extentIs : constraint.arenaExtent? level = some extent) :
    placement.InBounds move.finish := by
  obtain ⟨range, ranged, refers⟩ := places.refers
  obtain ⟨storage, stored, room⟩ := provides.stored
  have within := MemoryConstraint.end_le_extent ranged extentIs
  obtain ⟨-, rfl, rfl, -, -, -⟩ := places
  exact ⟨range, arena, storage, ranged, provides.given, refers, stored, Nat.le_trans within room⟩

/-! ### Views that are declared -/

/-- The views that a draft declares anew are those that moves have placed and those of scalars. -/
def Notes (draft : TileDraft) (moves : List Move) (next : TileDraft) : Prop :=
  ∃ replaced, next.record.replacements = draft.record.replacements ++ replaced ∧
    next.record.views.Perm (draft.record.views ++ (placedViews moves ++ replaced.map Prod.fst))

namespace Notes

theorem refl (draft : TileDraft) : Notes draft [] draft := ⟨[], by simp, by simp [placedViews]⟩

theorem append {middle : TileDraft} {moves later : List Move} (first : Notes draft moves middle)
    (second : Notes middle later next) : Notes draft (moves ++ later) next := by
  obtain ⟨replaced, replacements, views⟩ := first
  obtain ⟨others, moreReplacements, moreViews⟩ := second
  refine ⟨replaced ++ others, ?_, ?_⟩
  · rw [moreReplacements, replacements, List.append_assoc]
  · refine moreViews.trans (List.perm_iff_count.mpr fun view => ?_)
    have counts := views.count_eq view
    simp only [placedViews, List.filterMap_append, List.map_append, List.count_append] at counts ⊢
    omega

theorem of_places {constraint : MemoryConstraint} {move : Move} {placement : Placement}
    (places : Places constraint level arena move draft next placement) :
    Notes draft [move] next := by
  refine ⟨[], by rw [places.replacements, List.append_nil], ?_⟩
  rw [places.views, placedViews, List.filterMap_cons, places.noted]
  exact .refl _

theorem tensor {entry : String × List Nat × Direction}
    (ran : tileTensor tiling operation level arena draft entry workspace = .ok next final) :
    Notes draft [tensorMove tiling level operation arena draft entry workspace] next := by
  obtain ⟨placement, places⟩ := places_tensorMove ran
  exact of_places places

theorem scratch {entry : String × String}
    (ran : placeTransient tiling operation level arena draft entry workspace = .ok next final) :
    Notes draft [transientMove tiling level operation arena draft entry workspace] next := by
  obtain ⟨placement, places⟩ := places_transientMove ran
  exact of_places places

theorem scalar {entry : String × List Int}
    (ran : tileScalar tiling operation level draft entry workspace = .ok next final) :
    Notes draft [scalarMove tiling level operation draft entry workspace] next := by
  obtain ⟨view, table, views, replacements⟩ := views_tileScalar ran
  exact ⟨[(view, table)], replacements, views ▸ .refl _⟩

/-- A loop notes what its steps note. -/
theorem foldMoves {ι : Type} {step : TileDraft → ι → Lowering TileDraft}
    {move : TileDraft → ι → Workspace → Move}
    (each : ∀ {draft item workspace next final}, step draft item workspace = .ok next final →
      Notes draft [move draft item workspace] next)
    {items : List ι} {draft : TileDraft} {workspace : Workspace}
    (ran : items.foldlM step draft workspace = .ok next final) :
    Notes draft (Lowering.foldMoves step move items draft workspace) next := by
  induction items generalizing draft workspace with
  | nil =>
      obtain ⟨rfl, -⟩ := pure_eq_ok ran
      exact refl _
  | cons item items ih =>
      rw [List.foldlM_cons] at ran
      obtain ⟨middle, stepped, stepping, rest⟩ := bind_eq_ok ran
      rw [Lowering.foldMoves, movesAfter_of_ok stepping]
      exact (each stepping).append (ih rest)

end Notes

theorem notes_makeViews (ran : makeViews tiling level operation arena draft workspace =
    .ok next final) :
    Notes draft (viewMoves tiling level operation arena draft workspace) next := by
  obtain ⟨tensors, tiled, tilingTensors, afterTensors⟩ := bind_eq_ok ran
  obtain ⟨transients, listed, listing, afterListing⟩ := bind_eq_ok afterTensors
  obtain ⟨transientsAre, rfl⟩ := ask_eq_ok listing
  cases transientsAre
  obtain ⟨placed, stored, placing, afterPlacing⟩ := bind_eq_ok afterListing
  obtain ⟨scaled, last, scaling, returned⟩ := bind_eq_ok afterPlacing
  obtain ⟨rfl, rfl⟩ := pure_eq_ok returned
  have tensorsNoted := Notes.foldMoves Notes.tensor tilingTensors
  have scratchNoted := Notes.foldMoves Notes.scratch placing
  have scalarsNoted := Notes.foldMoves Notes.scalar scaling
  rw [viewMoves, movesAfter_of_ok tilingTensors]
  dsimp only
  rw [movesAfter_of_ok placing]
  exact tensorsNoted.append (scratchNoted.append scalarsNoted)

theorem views_tileKernel {kernel : Fragment}
    (ran : tileKernel tiling level operation kernel workspace = .ok draft final) :
    draft.record.views.Perm (placedViews (kernelMoves tiling level operation kernel workspace) ++
      draft.record.replacements.map Prod.fst) := by
  rw [tileKernel_eq] at ran
  obtain ⟨opened, middle, opening, making⟩ := bind_eq_ok ran
  obtain ⟨extent, -, -, -, undeclared, unreplaced⟩ := openTiling_eq_ok opening
  obtain ⟨replaced, replacements, views⟩ := notes_makeViews making
  rw [kernelMoves, movesAfter_of_ok opening]
  rw [unreplaced, List.nil_append] at replacements
  rw [TileRecord.views, TileRecord.views, undeclared, List.filterMap_nil, List.nil_append] at views
  rw [replacements]
  exact views

theorem firstMoves_append {before after : List Fragment} {kernel : Fragment}
    (plain : ∀ fragment ∈ before, fragment.tiling = none) (own : kernel.tiling = some tiling) :
    firstMoves level operation (before ++ kernel :: after) workspace =
      kernelMoves tiling level operation kernel workspace := by
  induction before with
  | nil => rw [List.nil_append, firstMoves, own]
  | cons fragment before ih =>
      obtain ⟨first, others⟩ := List.forall_mem_cons.mp plain
      rw [List.cons_append, firstMoves, first]
      exact ih others

/-- **The views of a tiled block.** They are those that its moves have placed, after one has
provided the arena, and those of scalars. -/
theorem views_makeTileViews {block tiled : Block}
    (ran : makeTileViews level block operation workspace = .ok tiled final)
    (hasTiling : ∃ fragment ∈ block.fragments, fragment.tiling.isSome = true) :
    (∃ opening later, tilingMoves level operation block workspace = opening :: later ∧
      opening.opens = some level) ∧
    ∃ record, tiled.record = some record ∧
      record.views.Perm (placedViews (tilingMoves level operation block workspace) ++
        record.replacements.map Prod.fst) := by
  rcases makeTileViews_cases ran with ⟨plain, -, -⟩ |
    ⟨before, kernel, tiling, after, draft, split, plain, own, drafting, rfl⟩
  · obtain ⟨fragment, member, isSome⟩ := hasTiling
    rw [plain fragment member] at isSome
    cases isSome
  · have single : ¬ 1 < (block.fragments.filter (·.tiling.isSome)).length := by
      have none : (before ++ after).filter (·.tiling.isSome) = [] := by
        rw [List.filter_eq_nil_iff]
        intro fragment member
        rw [plain fragment member]
        simp
      have counts := congrArg List.length none
      rw [List.filter_append, List.length_append, List.length_nil] at counts
      rw [split, List.filter_append, List.filter_cons_of_pos (by rw [own]; rfl),
        List.length_append, List.length_cons]
      omega
    rw [tilingMoves, if_neg single, split,
      firstMoves_append (fun fragment member => plain fragment (List.mem_append_left _ member)) own]
    refine ⟨⟨_, _, rfl, ?_⟩, draft.record, rfl, views_tileKernel drafting⟩
    rw [tileKernel_eq] at drafting
    obtain ⟨opened, middle, opening, -⟩ := bind_eq_ok drafting
    rw [openingMove, observe, opening]

end Lowering

end TensorLowering
