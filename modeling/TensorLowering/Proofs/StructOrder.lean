import TensorLowering.Proofs.ClosureStructs
import TensorLowering.Proofs.ReferenceReach

/-! # The order of struct initialisers

Every struct that a block uses is initialised once, before the code of the block, and initialisers
stand in the order in which the context lists the structs. The order of pointers plays no part: an
initialiser comes before those of the structs that point to it exactly if no struct points to one
that is listed later (`TensorLowering.Lowering.structs_initialised_in_order`). A struct that is
registered before the struct it points to is initialised too early, without any cycle of pointers
(`TensorLowering.Lowering.outerStruct_too_early`).
-/

namespace TensorLowering

open Relation

namespace Buffer

/-- The value of a struct buffer holds a pointer to another buffer. -/
def PointsAt (source target : Buffer) : Prop :=
  ∃ value, source.kind = .struct value ∧ value.value.Holds target.name

theorem pointsAt_ofStruct {name : String} {value : TypedValue} {size : Nat} {target : Buffer} :
    (Buffer.ofStruct name value size).PointsAt target ↔
      target.name ∈ value.value.pointerTargets := by
  simp [PointsAt, ofStruct, Value.holds_iff_mem]

/-- A fragment initialises a struct buffer: it has the given template, and binds the name of the
buffer, the name of its type and its value. -/
def InitialisedBy (types : Registry) (template : Template) (buffer : Buffer)
    (fragment : Fragment) : Prop :=
  ∃ value typeName literal, buffer.kind = .struct value ∧
    types.typeName buffer.type = .ok typeName ∧ types.literal value = .ok literal ∧
    fragment = {
      template
      bindings := .ofList
        [("name", .name buffer.name), ("type", .code typeName), ("value", .code literal)] }

variable {types : Registry} {template : Template}

theorem InitialisedBy.subject {buffer : Buffer} {fragment : Fragment}
    (initialised : buffer.InitialisedBy types template fragment) :
    fragment.subject? = some buffer.name := by
  obtain ⟨value, typeName, literal, -, -, -, rfl⟩ := initialised
  simp [Fragment.subject?, Dict.ofList, Dict.find?_insert, Binding.name?]

theorem InitialisedBy.name_eq {first second : Buffer} {fragment : Fragment}
    (initialised : first.InitialisedBy types template fragment)
    (other : second.InitialisedBy types template fragment) : first.name = second.name :=
  Option.some.inj (initialised.subject.symm.trans other.subject)

end Buffer

/-- The structs that a block uses, in the order of the context. -/
def Block.structs (block : Block) (context : Context) : List Buffer :=
  (block.reachedLocals context .unrolled).filter Buffer.isStruct

/-! ### What is added -/

theorem structCode_initialises {types : Registry} {template : Template} {buffer : Buffer}
    {code : List Fragment} (made : structCode template types buffer = .ok code) :
    List.Forall₂ (Buffer.InitialisedBy types template) ([buffer].filter Buffer.isStruct) code := by
  unfold structCode at made
  split at made
  · next value kind =>
      have struct : buffer.isStruct = true := by rw [Buffer.isStruct, kind]
      rw [List.filter_cons_of_pos struct, List.filter_nil]
      simp only [bind, Except.bind] at made
      split at made
      · cases made
      · next typeName named =>
          split at made
          · cases made
          · next literal written =>
              cases made
              exact .cons ⟨value, typeName, literal, kind, named, written, rfl⟩ .nil
  · next plain =>
      cases made
      have noStruct : ¬ buffer.isStruct = true := by
        unfold Buffer.isStruct
        split
        · next value kind => exact absurd kind (plain value)
        · exact Bool.false_ne_true
      rw [List.filter_cons_of_neg noStruct]
      exact .nil

namespace Lowering

variable {workspace final : Workspace} {template : Template}

/-- The structs among some buffers are initialised in their order. -/
theorem declareStructs_initialises {buffers : List Buffer} {code : List Fragment}
    (denoted : ∀ buffer ∈ buffers, workspace.context.find? buffer.name = some buffer)
    (ran : declareStructs template (buffers.map Buffer.name) workspace = .ok code final) :
    final.context = workspace.context ∧
      List.Forall₂ (Buffer.InitialisedBy workspace.context.types template)
        (buffers.filter Buffer.isStruct) code := by
  induction buffers generalizing final code with
  | nil =>
      obtain ⟨rfl, rfl⟩ := pure_eq_ok ran
      exact ⟨rfl, .nil⟩
  | cons buffer buffers ih =>
      obtain ⟨later, middle, laterRan, afterLater⟩ := bind_eq_ok ran
      obtain ⟨looked, _, looking, afterLook⟩ := bind_eq_ok afterLater
      obtain ⟨found, rfl⟩ := lookup_eq_ok looking
      obtain ⟨own, coded, coding, answered⟩ := bind_eq_ok afterLook
      obtain ⟨structured, rfl⟩ := ask_eq_ok coding
      obtain ⟨rfl, rfl⟩ := pure_eq_ok answered
      obtain ⟨denotedHead, denotedTail⟩ := List.forall_mem_cons.mp denoted
      obtain ⟨same, initialised⟩ := ih denotedTail laterRan
      rw [same] at found structured
      obtain rfl := Option.some.inj (denotedHead.symm.trans found)
      refine ⟨same, ?_⟩
      rw [← List.singleton_append, List.filter_append]
      exact List.rel_append (structCode_initialises structured) initialised

theorem initializeStructs_initialises {block output : Block}
    (distinct : workspace.context.locals.names.Nodup)
    (ran : initializeStructs template block workspace = .ok output final) :
    ∃ added, output = block.prepend added ∧ final.context = workspace.context ∧
      List.Forall₂ (Buffer.InitialisedBy workspace.context.types template)
        (block.structs workspace.context) added := by
  obtain ⟨names, listed, listing, afterNames⟩ := bind_eq_ok ran
  obtain ⟨added, declared, declaring, answered⟩ := bind_eq_ok afterNames
  obtain ⟨rfl, rfl⟩ := pure_eq_ok answered
  obtain ⟨rfl, same⟩ := references_eq_ok listing
  have noGlobals : block.reachedGlobals workspace.context .unrolled = [] :=
    List.filter_eq_nil_iff.mpr fun _ _ => by simp [ReferenceQuery.unrolled]
  rw [Block.references_eq, noGlobals, List.append_nil] at declaring
  have denoted : ∀ buffer ∈ block.reachedLocals workspace.context .unrolled,
      listed.context.find? buffer.name = some buffer := by
    intro buffer member
    rw [same]
    exact Context.find?_of_mem_locals distinct (List.mem_filter.mp member).1
  obtain ⟨kept, initialised⟩ := declareStructs_initialises denoted declaring
  rw [same] at kept initialised
  exact ⟨added, rfl, kept, initialised⟩

end Lowering

/-! ### The order of what is added -/

/-- After the initialiser of a struct come those of all other structs that point to it. -/
def InitialisedBeforeUse (types : Registry) (template : Template) (structs : List Buffer)
    (added : List Fragment) : Prop :=
  ∀ before code after, added = before ++ code :: after →
    ∀ target ∈ structs, target.InitialisedBy types template code →
      ∀ source ∈ structs, source ≠ target → source.PointsAt target →
        ∃ later ∈ after, source.InitialisedBy types template later

section Order

variable {types : Registry} {template : Template} {structs : List Buffer} {added : List Fragment}

theorem eq_of_initialised (distinct : (structs.map Buffer.name).Nodup) {first second : Buffer}
    (firstListed : first ∈ structs) (secondListed : second ∈ structs) {code : Fragment}
    (firstInitialised : first.InitialisedBy types template code)
    (secondInitialised : second.InitialisedBy types template code) : first = second :=
  List.inj_on_of_nodup_map distinct firstListed secondListed
    (firstInitialised.name_eq secondInitialised)

theorem map_subject
    (initialised : List.Forall₂ (Buffer.InitialisedBy types template) structs added) :
    added.map Fragment.subject? = (structs.map Buffer.name).map some := by
  induction initialised with
  | nil => rfl
  | cons here _ ih => rw [List.map_cons, List.map_cons, List.map_cons, here.subject, ih]

theorem countP_subject (distinct : (structs.map Buffer.name).Nodup)
    (initialised : List.Forall₂ (Buffer.InitialisedBy types template) structs added)
    {struct : Buffer} (listed : struct ∈ structs) :
    added.countP (·.subject? = some struct.name) = 1 := by
  have counted : added.countP (·.subject? = some struct.name) =
      (added.map Fragment.subject?).count (some struct.name) := by
    rw [List.count, List.countP_map]
    exact List.countP_congr fun fragment _ => by simp
  rw [counted, map_subject initialised]
  refine List.count_eq_one_of_mem (distinct.map fun _ _ => Option.some.inj) ?_
  exact List.mem_map_of_mem (List.mem_map_of_mem listed)

theorem pairwise_of_initialisedBeforeUse (distinct : (structs.map Buffer.name).Nodup)
    (initialised : List.Forall₂ (Buffer.InitialisedBy types template) structs added)
    (ordered : InitialisedBeforeUse types template structs added) :
    structs.Pairwise fun first second => ¬ first.PointsAt second := by
  rw [List.pairwise_iff_forall_sublist]
  intro first second listed points
  obtain ⟨early, rest, rfl, firstEarly, secondListed⟩ := List.cons_sublist_iff.mp listed
  obtain ⟨middle, late, rfl⟩ := List.append_of_mem (List.singleton_sublist.mp secondListed)
  rw [← List.append_assoc] at initialised
  obtain ⟨before, code, after, rfl, initialises, follows⟩ :=
    exists_split_of_forall₂ initialised.flip
  have firstListed : first ∈ early ++ (middle ++ second :: late) :=
    List.mem_append_left _ firstEarly
  have secondLater : second ∈ middle ++ second :: late :=
    List.mem_append_right _ List.mem_cons_self
  have apart : ∀ other ∈ middle ++ second :: late, first ≠ other :=
    fun other member => (List.nodup_append.mp distinct.of_map).2.2 first firstEarly other member
  obtain ⟨later, member, initialisesFirst⟩ := ordered before code after rfl second
    (List.mem_append_right _ secondLater) initialises first firstListed
    (apart second secondLater) points
  -- What initialises the first struct would also initialise one that is listed after the second.
  obtain ⟨third, thirdLate, initialisesThird⟩ := exists_of_forall₂ follows member
  have thirdLater : third ∈ middle ++ second :: late :=
    List.mem_append_right _ (List.mem_cons_of_mem _ thirdLate)
  exact apart third thirdLater (eq_of_initialised distinct firstListed
    (List.mem_append_right _ thirdLater) initialisesFirst initialisesThird)

theorem initialisedBeforeUse_of_pairwise (distinct : (structs.map Buffer.name).Nodup)
    (initialised : List.Forall₂ (Buffer.InitialisedBy types template) structs added)
    (ordered : structs.Pairwise fun first second => ¬ first.PointsAt second) :
    InitialisedBeforeUse types template structs added := by
  rintro before code after rfl target targetListed initialises source sourceListed different points
  obtain ⟨early, struct, late, rfl, initialisesStruct, follows⟩ :=
    exists_split_of_forall₂ initialised
  obtain rfl := eq_of_initialised distinct targetListed
    (List.mem_append_right _ List.mem_cons_self) initialises initialisesStruct
  rcases List.mem_append.mp sourceListed with earlier | later
  · exact absurd points
      ((List.pairwise_append.mp ordered).2.2 source earlier target List.mem_cons_self)
  · exact exists_of_forall₂ follows ((List.mem_cons.mp later).resolve_left different)

/-- Initialisers come before use exactly if no struct points to one that is listed later. -/
theorem initialisedBeforeUse_iff (distinct : (structs.map Buffer.name).Nodup)
    (initialised : List.Forall₂ (Buffer.InitialisedBy types template) structs added) :
    InitialisedBeforeUse types template structs added ↔
      structs.Pairwise fun first second => ¬ first.PointsAt second :=
  ⟨pairwise_of_initialisedBeforeUse distinct initialised,
    initialisedBeforeUse_of_pairwise distinct initialised⟩

end Order

theorem Block.nodup_structs {context : Context} (distinct : context.DistinctNames)
    (block : Block) : ((block.structs context).map Buffer.name).Nodup :=
  (distinct .locals).sublist ((List.filter_sublist.trans List.filter_sublist).map _)

/-- No struct is led back to itself by pointers among some structs. -/
def Acyclic (structs : List Buffer) : Prop :=
  ∀ struct, ¬ TransGen (fun source target =>
    source ∈ structs ∧ target ∈ structs ∧ source.PointsAt target) struct struct

namespace Lowering

/-- **Structs are initialised before the code, in the order of the context.** Every struct that a
block uses gets one initialiser, ahead of the code of the block. An initialiser comes before those
of the structs that point to it exactly if no struct of the block points to one that the context
lists after it. -/
theorem structs_initialised_in_order {template : Template} {block output : Block}
    {start final : Workspace} (distinct : start.context.DistinctNames)
    (ran : initializeStructs template block start = .ok output final) :
    let structs := block.structs start.context
    ∃ added, output = block.prepend added ∧ final.context = start.context ∧
      List.Forall₂ (Buffer.InitialisedBy start.context.types template) structs added ∧
      (∀ struct ∈ structs, added.countP (·.subject? = some struct.name) = 1) ∧
      (InitialisedBeforeUse start.context.types template structs added ↔
        structs.Pairwise fun first second => ¬ first.PointsAt second) := by
  intro structs
  obtain ⟨added, output_eq, same, initialised⟩ :=
    initializeStructs_initialises (distinct .locals) ran
  have once := block.nodup_structs distinct
  refine ⟨added, output_eq, same, initialised, fun struct listed => ?_,
    initialisedBeforeUse_iff once initialised⟩
  exact countP_subject once initialised listed

/-- A tensor and some structs. -/
def structContext (structs : List Buffer) : Context where
  types := { kinds := [.float 32 23 8, .pointer ⟨0⟩, .struct "inner_t" [("p", ⟨1⟩)],
    .pointer ⟨2⟩, .struct "outer_t" [("q", ⟨3⟩)]] }
  locals := ⟨{ name := "x", type := ⟨0⟩, size := 64 } :: structs⟩

/-- A struct that points to the tensor. -/
def innerStruct : Buffer := .ofStruct "inner" ⟨⟨2⟩, .struct [("p", .pointer (some "x"))]⟩ 4

/-- A struct that points to the other struct. -/
def outerStruct : Buffer := .ofStruct "outer" ⟨⟨4⟩, .struct [("q", .pointer (some "inner"))]⟩ 4

/-- Code that reads the outer struct. -/
def outerBlock : Block := .ofFragments [.ofSource "k(&${a});" [("a", .name "outer")]]

theorem innerStruct_pointsAt_iff {target : Buffer} :
    innerStruct.PointsAt target ↔ target.name = "x" :=
  Buffer.pointsAt_ofStruct.trans List.mem_singleton

theorem outerStruct_pointsAt_iff {target : Buffer} :
    outerStruct.PointsAt target ↔ target.name = "inner" :=
  Buffer.pointsAt_ofStruct.trans List.mem_singleton

theorem acyclic_outerStruct : Acyclic [outerStruct, innerStruct] := by
  -- The only pointer between the two leads from the outer struct to the inner one.
  have only : ∀ source target, source ∈ [outerStruct, innerStruct] ∧
      target ∈ [outerStruct, innerStruct] ∧ source.PointsAt target →
        source = outerStruct ∧ target = innerStruct := by
    simp only [List.mem_pair]
    rintro source target ⟨rfl | rfl, rfl | rfl, points⟩
    · exact absurd (outerStruct_pointsAt_iff.mp points) (by decide)
    · exact ⟨rfl, rfl⟩
    · exact absurd (innerStruct_pointsAt_iff.mp points) (by decide)
    · exact absurd (innerStruct_pointsAt_iff.mp points) (by decide)
  intro struct path
  obtain ⟨_, first, -⟩ := TransGen.head'_iff.mp path
  obtain ⟨_, -, last⟩ := TransGen.tail'_iff.mp path
  have outer := (only _ _ first).1
  have inner := (only _ _ last).2
  have differ : outerStruct ≠ innerStruct := by decide
  exact differ (outer.symm.trans inner)

theorem structs_initialised_in_order_innerFirst :
    let context := structContext [innerStruct, outerStruct]
    context.DistinctNames ∧ ∃ added final,
      initializeStructs structTemplate outerBlock { context } =
        .ok (outerBlock.prepend added) final ∧
      added.map Fragment.subject? = [some "inner", some "outer"] ∧
      InitialisedBeforeUse context.types structTemplate (outerBlock.structs context) added := by
  intro context
  have distinct : context.DistinctNames := by
    intro scope
    cases scope <;> decide
  have evaluated : observe (initializeStructs structTemplate outerBlock)
      (fun output _ => (output.fragments.take 2).map Fragment.subject?) { context } =
        some [some "inner", some "outer"] := by
    decide +kernel
  have structs : outerBlock.structs context = [innerStruct, outerStruct] := by decide +kernel
  obtain ⟨output, final, ran, seen⟩ := exists_of_observe evaluated
  obtain ⟨added, rfl, -, initialised, -, ordered⟩ := structs_initialised_in_order distinct ran
  refine ⟨distinct, added, final, ran, ?_, ordered.mpr ?_⟩
  · rw [← seen, Block.prepend, List.take_left' (initialised.length_eq ▸ structs ▸ rfl)]
  · rw [structs, List.pairwise_pair]
    exact fun points => absurd (innerStruct_pointsAt_iff.mp points) (by decide)

/-- A struct that is registered before the struct it points to is initialised before it. -/
theorem outerStruct_too_early :
    let context := structContext [outerStruct, innerStruct]
    context.DistinctNames ∧ Acyclic (outerBlock.structs context) ∧ ∃ added final,
      initializeStructs structTemplate outerBlock { context } =
        .ok (outerBlock.prepend added) final ∧
      added.map Fragment.subject? = [some "outer", some "inner"] ∧
      ¬ InitialisedBeforeUse context.types structTemplate (outerBlock.structs context) added := by
  intro context
  have distinct : context.DistinctNames := by
    intro scope
    cases scope <;> decide
  have structs : outerBlock.structs context = [outerStruct, innerStruct] := by decide +kernel
  have succeeds : observe (initializeStructs structTemplate outerBlock) (fun _ _ => ())
      { context } = some () := by
    decide +kernel
  obtain ⟨output, final, ran, -⟩ := exists_of_observe succeeds
  obtain ⟨added, rfl, -, initialised⟩ := initializeStructs_initialises (distinct .locals) ran
  refine ⟨distinct, structs ▸ acyclic_outerStruct, added, final, ran, ?_, ?_⟩
  · rw [map_subject initialised]
    exact structs ▸ rfl
  · rw [initialisedBeforeUse_iff (outerBlock.nodup_structs distinct) initialised, structs,
      List.pairwise_pair]
    exact not_not.mpr (outerStruct_pointsAt_iff.mpr rfl)

end Lowering

end TensorLowering
