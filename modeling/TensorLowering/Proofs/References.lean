import TensorLowering.Proofs.LoweringSteps
import TensorLowering.Proofs.Walk

/-! # What a block refers to

Which buffers a block refers to depends on the names, the kinds and the placement of the
buffers only (`TensorLowering.Context.SameShape.references_eq`). A buffer that can be referred
to is a reference of a block exactly if the block touches it: by an identifier of a template, as
the untiled buffer behind a tile, or from such a buffer through pointers in structs
(`TensorLowering.Block.mem_references_iff`).
-/

namespace TensorLowering

open Relation

/-- What decides whether a buffer is referred to. -/
def Buffer.shape (buffer : Buffer) : String × BufferKind × Bool :=
  (buffer.name, buffer.kind, buffer.deploy)

theorem BufferTable.map_kind_findIn_congr (name : String) {first second : List Buffer}
    (same : first.map Buffer.shape = second.map Buffer.shape) :
    (findIn name first).map Buffer.kind = (findIn name second).map Buffer.kind := by
  induction first generalizing second with
  | nil =>
      obtain rfl : second = [] := List.map_eq_nil_iff.mp same.symm
      rfl
  | cons buffer rest ih =>
      cases second with
      | nil => cases same
      | cons other others =>
          rw [List.map_cons, List.map_cons, List.cons.injEq] at same
          obtain ⟨head, tail⟩ := same
          have later := ih tail
          have named : buffer.name = other.name := congrArg Prod.fst head
          have kinds : buffer.kind = other.kind := congrArg (·.2.1) head
          rw [findIn, findIn, named]
          cases firstFound : findIn name rest <;> cases secondFound : findIn name others <;>
            rw [firstFound, secondFound] at later
          · dsimp only
            split
            · exact congrArg some kinds
            · rfl
          · cases later
          · cases later
          · exact later

theorem Binding.name?_eq_some_iff {binding : Binding} {name : String} :
    binding.name? = some name ↔ binding = .name name := by
  cases binding <;> simp [name?]

/-- A fragment touches the buffers whose names are bound to identifiers that its template uses. -/
theorem Fragment.mem_touched_iff {fragment : Fragment} {context : Context} {name : String} :
    name ∈ fragment.touched context ↔
      ∃ parsed, Template.parse fragment.template.source = .ok parsed ∧
        ∃ key ∈ parsed.names fragment.bindings,
          fragment.bindings.find? key = some (.name name) ∧ context.isBuffer name = true := by
  cases read : Template.parse fragment.template.source with
  | error fault => simp [touched, read]
  | ok parsed =>
      simp only [touched, read, Parsed.touched, List.mem_filter, List.mem_filterMap,
        Option.bind_eq_some_iff, Binding.name?_eq_some_iff, Except.ok.injEq, exists_eq_left',
        exists_eq_right]
      constructor
      · rintro ⟨⟨key, used, bound⟩, known⟩
        exact ⟨key, used, bound, known⟩
      · rintro ⟨key, used, bound, known⟩
        exact ⟨⟨key, used, bound⟩, known⟩

namespace Context

/-- Two contexts list buffers of the same shapes in the same order. -/
structure SameShape (first second : Context) : Prop where
  locals : first.locals.entries.map Buffer.shape = second.locals.entries.map Buffer.shape
  globals : first.globals.entries.map Buffer.shape = second.globals.entries.map Buffer.shape

theorem sameShape_atRest (context : Context) : SameShape context.atRest context :=
  ⟨List.map_map, List.map_map⟩

namespace SameShape

variable {first second : Context}

theorem table_names_eq {first second : List Buffer}
    (same : first.map Buffer.shape = second.map Buffer.shape) :
    first.map Buffer.name = second.map Buffer.name := by
  have names := congrArg (List.map Prod.fst) same
  rwa [List.map_map, List.map_map] at names

theorem names_eq (same : SameShape first second) : first.names = second.names := by
  rw [names, names, BufferTable.names, BufferTable.names, table_names_eq same.locals,
    BufferTable.names, BufferTable.names, table_names_eq same.globals]

theorem isBuffer_eq (same : SameShape first second) : first.isBuffer = second.isBuffer := by
  funext name
  rw [Bool.eq_iff_iff, isBuffer_iff_mem, isBuffer_iff_mem, same.names_eq]

theorem isLocal_eq (same : SameShape first second) : first.isLocal = second.isLocal := by
  funext name
  rw [Bool.eq_iff_iff, isLocal, isLocal, BufferTable.contains_iff, BufferTable.contains_iff,
    BufferTable.names, BufferTable.names, table_names_eq same.locals]

theorem kind_eq (same : SameShape first second) (name : String) :
    (first.find? name).map Buffer.kind = (second.find? name).map Buffer.kind := by
  rw [find?_eq_findIn, find?_eq_findIn]
  apply BufferTable.map_kind_findIn_congr
  rw [List.map_append, List.map_append, same.locals, same.globals]

theorem pointees_eq (same : SameShape first second) : first.pointees = second.pointees := by
  funext name
  rw [pointees, pointees, same.kind_eq, same.isBuffer_eq]

theorem pointerClosure_eq (same : SameShape first second) :
    first.pointerClosure = second.pointerClosure := by
  funext name
  rw [pointerClosure, pointerClosure, pointerGraph, pointerGraph, same.names_eq, same.pointees_eq]

theorem chosen_eq {first second : List Buffer}
    (same : first.map Buffer.shape = second.map Buffer.shape)
    (chosen : String × BufferKind × Bool → Bool) :
    (first.filter (chosen ∘ Buffer.shape)).map Buffer.name =
      (second.filter (chosen ∘ Buffer.shape)).map Buffer.name := by
  have names := congrArg (fun shapes => (shapes.filter chosen).map Prod.fst) same
  simp only [List.filter_map, List.map_map] at names
  exact names

theorem referencesAmong_eq (same : SameShape first second) (query : ReferenceQuery) :
    first.referencesAmong query = second.referencesAmong query := by
  funext touched
  have spreads : first.spread query touched = second.spread query touched := by
    rw [spread, spread, same.pointerClosure_eq]
  rw [referencesAmong, referencesAmong, spreads, List.map_append, List.map_append]
  generalize second.spread query touched = reached
  congr 1
  · exact chosen_eq same.locals fun (name, _, deploy) => deploy && reached.contains name
  · have globals := chosen_eq same.globals fun (name, kind, deploy) =>
      query.includeGlobals && (deploy && Buffer.isTensor { name, type := default, kind } &&
        !second.isLocal name) && reached.contains name
    simp only [isGlobalReference, same.isLocal_eq]
    exact globals

theorem touched_eq (same : SameShape first second) (fragment : Fragment) :
    fragment.touched first = fragment.touched second := by
  rw [Fragment.touched, Fragment.touched]
  split
  · rw [Parsed.touched, Parsed.touched, same.isBuffer_eq]
  · rfl

/-- Contexts of the same shape give a block the same references. -/
theorem references_eq (same : SameShape first second) (block : Block) (query : ReferenceQuery) :
    block.references first query = block.references second query := by
  rw [Block.references, Block.references, same.referencesAmong_eq]
  simp only [same.touched_eq, Block.tiledBuffers, same.isBuffer_eq]

end SameShape

/-! ### References are what is touched -/

theorem referencesAmong_unrolled (context : Context) (touched : List String) :
    context.referencesAmong .unrolled touched =
      (context.locals.entries.filter fun buffer =>
        buffer.deploy && (context.spread .unrolled touched).contains buffer.name).map
          Buffer.name := by
  have noGlobals : (context.globals.entries.filter fun buffer =>
      ReferenceQuery.unrolled.includeGlobals && context.isGlobalReference buffer &&
        (context.spread .unrolled touched).contains buffer.name) = [] :=
    List.filter_eq_nil_iff.mpr fun _ _ => Bool.false_ne_true
  rw [referencesAmong, noGlobals, List.append_nil]

/-- A buffer that is referred to is a local one that is deployed. -/
theorem exists_of_mem_references {context : Context} {touched : List String} {name : String}
    (member : name ∈ context.referencesAmong .unrolled touched) :
    ∃ buffer ∈ context.locals.entries, buffer.deploy = true ∧ buffer.name = name := by
  rw [referencesAmong_unrolled] at member
  obtain ⟨buffer, listed, named⟩ := List.mem_map.mp member
  obtain ⟨entry, chosen⟩ := List.mem_filter.mp listed
  exact ⟨buffer, entry, (Bool.and_eq_true_iff.mp chosen).1, named⟩

theorem referencesAmong_sublist (context : Context) (query : ReferenceQuery)
    (touched : List String) : (context.referencesAmong query touched).Sublist context.names := by
  rw [names_eq_map]
  exact (List.filter_sublist.append List.filter_sublist).map _

/-- A struct buffer leads by its pointers to other buffers. -/
def PointsTo (context : Context) (source target : String) : Prop := target ∈ context.pointees source

theorem pointees_of_absent {context : Context} {name : String} (absent : name ∉ context.names) :
    context.pointees name = [] := by
  rw [pointees, find?_eq_none_iff.mpr absent]
  rfl

/-- Following pointers meets what can be reached by one or more of them. -/
theorem mem_pointerClosure_iff (context : Context) (source target : String) :
    target ∈ context.pointerClosure source ↔ TransGen context.PointsTo source target := by
  have edges : Reach.Edge context.pointerGraph = context.PointsTo := by
    funext first second
    exact propext (Reach.edge_map_iff (fun _ absent => pointees_of_absent absent) first second)
  -- The walk meets what any number of pointers leads to, and the closure goes one pointer further.
  rw [pointerClosure, List.mem_flatMap, TransGen.tail'_iff]
  apply exists_congr
  intro last
  rw [Reach.mem_walk, Reach.LeadsTo, edges]
  constructor
  · rintro ⟨⟨-, start, member, path⟩, points⟩
    rw [List.mem_singleton] at member
    exact ⟨member ▸ path, points⟩
  · rintro ⟨path, points⟩
    refine ⟨⟨?_, source, List.mem_singleton_self _, path⟩, points⟩
    rw [pointerGraph, Reach.search_map, if_pos, Option.isSome_some]
    by_contra absent
    rw [PointsTo, pointees_of_absent absent] at points
    exact List.not_mem_nil points

theorem mem_spread_iff (context : Context) {query : ReferenceQuery}
    (unrolls : query.unrollStructs = true) (touched : List String) (name : String) :
    name ∈ context.spread query touched ↔
      ∃ source ∈ touched, ReflTransGen context.PointsTo source name := by
  rw [spread, if_pos unrolls, List.mem_append, List.mem_flatMap]
  constructor
  · rintro (member | ⟨source, member, reached⟩)
    · exact ⟨name, member, .refl⟩
    · have path := (context.mem_pointerClosure_iff source name).mp reached
      exact ⟨source, member, path.to_reflTransGen⟩
  · rintro ⟨source, member, path⟩
    rcases reflTransGen_iff_eq_or_transGen.mp path with rfl | path
    · exact .inl member
    · exact .inr ⟨source, member, (context.mem_pointerClosure_iff source name).mpr path⟩

/-- Whether a buffer of a context can be referred to: it is deployed, and it is local or general
storage. -/
def CanBeReferred (context : Context) (buffer : Buffer) : Prop :=
  buffer.deploy = true ∧
    (buffer ∈ context.locals.entries ∨ buffer ∈ context.globals.entries ∧ buffer.isTensor = true)

theorem CanBeReferred.mem_buffers {context : Context} {buffer : Buffer}
    (fit : context.CanBeReferred buffer) : buffer ∈ context.buffers := by
  rcases fit.2 with isLocal | ⟨isGlobal, -⟩
  · exact List.mem_append_left _ isLocal
  · exact List.mem_append_right _ isGlobal

/-- Of the buffers that can be referred to, those are references that the touched names lead
to. -/
theorem mem_referencesAmong_iff {context : Context} (distinct : context.names.Nodup)
    {buffer : Buffer} (fit : context.CanBeReferred buffer) (touched : List String) :
    buffer.name ∈ context.referencesAmong .everywhere touched ↔
      ∃ source ∈ touched, ReflTransGen context.PointsTo source buffer.name := by
  rw [← @mem_spread_iff context .everywhere rfl]
  simp only [referencesAmong, List.mem_map, List.mem_append, List.mem_filter, Bool.and_eq_true,
    List.contains_iff_mem]
  constructor
  · rintro ⟨other, ⟨-, -, reached⟩ | ⟨-, -, reached⟩, named⟩
    · exact named ▸ reached
    · exact named ▸ reached
  · intro reached
    obtain ⟨deployed, isLocal | ⟨isGlobal, tensor⟩⟩ := fit
    · exact ⟨buffer, .inl ⟨isLocal, deployed, reached⟩, rfl⟩
    · refine ⟨buffer, .inr ⟨isGlobal, ⟨rfl, ?_⟩, reached⟩, rfl⟩
      have hidden : context.isLocal buffer.name = false := by
        rw [← Bool.not_eq_true, isLocal, BufferTable.contains_iff]
        intro isLocal
        exact (List.nodup_append.mp distinct).2.2 _ isLocal _ (List.mem_map_of_mem isGlobal) rfl
      rw [isGlobalReference, deployed, tensor, hidden]
      rfl

end Context

namespace Block

/-- The buffers that a block names itself. -/
def named (block : Block) (context : Context) : List String :=
  block.fragments.flatMap (·.touched context) ++ block.tiledBuffers context

/-- A block touches what it names and what can be reached from there by pointers in structs. -/
def Touches (block : Block) (context : Context) (name : String) : Prop :=
  ∃ source ∈ block.named context, ReflTransGen context.PointsTo source name

/-- **A buffer is a reference of a block exactly if the block touches it.** -/
theorem mem_references_iff {block : Block} {context : Context} (distinct : context.names.Nodup)
    {buffer : Buffer} (fit : context.CanBeReferred buffer) :
    buffer.name ∈ block.references context .everywhere ↔ block.Touches context buffer.name :=
  Context.mem_referencesAmong_iff distinct fit _

theorem nodup_references {context : Context} (distinct : context.names.Nodup) (block : Block)
    (query : ReferenceQuery) : (block.references context query).Nodup :=
  distinct.sublist (context.referencesAmong_sublist query _)

end Block

end TensorLowering
