import TensorLowering.Proofs.BufferNames
import TensorLowering.Proofs.ClosureReferences
import TensorLowering.Proofs.Indentation

/-! # References are reachability

A block names the buffers that are bound to keys its templates use and the untiled buffers of its
tiles, and from a named buffer the pointers in structs lead on (`TensorLowering.Block.LeadsTo`). The
references of a block are the buffers it leads to, in the order of the context and each once
(`TensorLowering.Lowering.references_eq_reached`). They are found whenever the templates can be
read, also where structs point at each other in a cycle, and nothing but the set of named buffers
matters.
-/

namespace TensorLowering

open Relation

namespace Value

/-- A value holds a pointer to a name, at any depth. -/
inductive Holds (name : String) : Value → Prop
  | pointer : Holds name (.pointer (some name))
  | item {items : List Value} {item : Value} (member : item ∈ items) (held : Holds name item) :
      Holds name (.array items)
  | field {fields : List (String × Value)} {field : String × Value} (member : field ∈ fields)
      (held : Holds name field.2) : Holds name (.struct fields)

theorem mem_pointerTargetsItems {name : String} {items : List Value} :
    name ∈ pointerTargetsItems items ↔ ∃ item ∈ items, name ∈ item.pointerTargets := by
  induction items with
  | nil => simp [pointerTargetsItems]
  | cons item items ih => simp [pointerTargetsItems, ih]

theorem holds_of_mem {name : String} :
    ∀ value : Value, name ∈ value.pointerTargets → value.Holds name
  | .int _, listed => absurd listed List.not_mem_nil
  | .float _, listed => absurd listed List.not_mem_nil
  | .pointer none, listed => absurd listed List.not_mem_nil
  | .pointer (some target), listed => by
      rw [pointerTargets, List.mem_singleton] at listed
      exact listed ▸ .pointer
  | .array items, listed => by
      rw [pointerTargets, mem_pointerTargetsItems] at listed
      obtain ⟨item, member, listed⟩ := listed
      exact .item member (holds_of_mem item listed)
  | .struct fields, listed => by
      rw [pointerTargets, mem_pointerTargetsFields] at listed
      obtain ⟨field, member, listed⟩ := listed
      exact .field member (holds_of_mem field.2 listed)
termination_by value => sizeOf value
decreasing_by
  · have smaller := List.sizeOf_lt_of_mem member
    rw [array.sizeOf_spec]
    omega
  · have smaller := List.sizeOf_lt_of_mem member
    have part : sizeOf field.2 < sizeOf field := by
      obtain ⟨key, value⟩ := field
      change sizeOf value < 1 + sizeOf key + sizeOf value
      omega
    rw [struct.sizeOf_spec]
    omega

theorem mem_of_holds {name : String} {value : Value} (held : value.Holds name) :
    name ∈ value.pointerTargets := by
  induction held with
  | pointer => exact List.mem_singleton_self _
  | item member _ ih =>
      rw [pointerTargets, mem_pointerTargetsItems]
      exact ⟨_, member, ih⟩
  | field member _ ih =>
      rw [pointerTargets, mem_pointerTargetsFields]
      exact ⟨_, member, ih⟩

theorem holds_iff_mem {name : String} {value : Value} :
    value.Holds name ↔ name ∈ value.pointerTargets :=
  ⟨mem_of_holds, holds_of_mem value⟩

end Value

/-- Pointers lead from a struct buffer to the buffers that its value holds. -/
theorem Context.pointsTo_iff {context : Context} {source target : String} :
    context.PointsTo source target ↔
      ∃ value, (context.find? source).map Buffer.kind = some (.struct value) ∧
        value.value.Holds target ∧ context.isBuffer target = true := by
  rw [PointsTo, pointees]
  split
  · next value kind => simp [kind, Value.holds_iff_mem]
  · next plain =>
      refine ⟨fun listed => absurd listed List.not_mem_nil, ?_⟩
      rintro ⟨value, kind, -⟩
      exact absurd kind (plain value)

namespace Block

/-- A block names what is bound to a key that a template of it uses, and the untiled buffers of its
tiles. -/
def Names (block : Block) (name : String) : Prop :=
  (∃ fragment ∈ block.fragments, ∃ key,
    fragment.template.Uses key ∧ fragment.bindings.find? key = some (.name name)) ∨
  ∃ record ∈ block.record, ∃ tensor ∈ record.tiled, tensor.external = name

/-- The buffers that a block leads to: those it names and, if structs are unrolled, those that a
struct buffer it leads to holds pointers to. -/
inductive LeadsTo (block : Block) (context : Context) (query : ReferenceQuery) : String → Prop
  | named {name : String} (named : block.Names name) (known : context.isBuffer name = true) :
      LeadsTo block context query name
  | pointed {source target : String} {value : TypedValue}
      (unrolls : query.unrollStructs = true) (reached : LeadsTo block context query source)
      (struct : (context.find? source).map Buffer.kind = some (.struct value))
      (held : value.value.Holds target) (known : context.isBuffer target = true) :
      LeadsTo block context query target

variable {block : Block} {context : Context} {query : ReferenceQuery}

theorem mem_named_iff_names {name : String} :
    name ∈ block.named context ↔ block.Names name ∧ context.isBuffer name = true := by
  have tiled : name ∈ block.tiledBuffers context ↔
      (∃ record ∈ block.record, ∃ tensor ∈ record.tiled, tensor.external = name) ∧
        context.isBuffer name = true := by
    rw [tiledBuffers]
    cases block.record with
    | none => simp
    | some record => simp
  rw [named, List.mem_append, List.mem_flatMap, tiled, Names, or_and_right]
  refine or_congr ?_ Iff.rfl
  simp only [Fragment.mem_touched_iff_uses]
  constructor
  · rintro ⟨fragment, member, known, key, used, bound⟩
    exact ⟨⟨fragment, member, key, used, bound⟩, known⟩
  · rintro ⟨⟨fragment, member, key, used, bound⟩, known⟩
    exact ⟨fragment, member, known, key, used, bound⟩

theorem leadsTo_of_path {source name : String} (unrolls : query.unrollStructs = true)
    (path : ReflTransGen context.PointsTo source name)
    (start : block.LeadsTo context query source) : block.LeadsTo context query name := by
  induction path with
  | refl => exact start
  | tail _ points ih =>
      obtain ⟨value, struct, held, known⟩ := Context.pointsTo_iff.mp points
      exact .pointed unrolls ih struct held known

/-- Spreading the named buffers along pointers lists what a block leads to. -/
theorem mem_spread_named_iff {name : String} :
    name ∈ context.spread query (block.named context) ↔ block.LeadsTo context query name := by
  constructor
  · intro listed
    by_cases unrolls : query.unrollStructs = true
    · obtain ⟨source, member, path⟩ := (context.mem_spread_iff unrolls _ _).mp listed
      obtain ⟨names, known⟩ := mem_named_iff_names.mp member
      exact leadsTo_of_path unrolls path (.named names known)
    · rw [Context.spread, if_neg unrolls] at listed
      obtain ⟨names, known⟩ := mem_named_iff_names.mp listed
      exact .named names known
  · intro reached
    induction reached with
    | named names known =>
        have member := mem_named_iff_names.mpr ⟨names, known⟩
        rw [Context.spread]
        split
        · exact List.mem_append_left _ member
        · exact member
    | pointed unrolls _ struct held known ih =>
        obtain ⟨source, member, path⟩ := (context.mem_spread_iff unrolls _ _).mp ih
        have points := Context.pointsTo_iff.mpr ⟨_, struct, held, known⟩
        exact (context.mem_spread_iff unrolls _ _).mpr ⟨source, member, path.tail points⟩

instance (block : Block) (context : Context) (query : ReferenceQuery) :
    DecidablePred (block.LeadsTo context query) :=
  fun _ => decidable_of_iff _ mem_spread_named_iff

/-- Blocks that name the same lead to the same buffers. -/
theorem LeadsTo.of_names {other : Block} (same : ∀ name, block.Names name → other.Names name)
    {name : String} (reached : block.LeadsTo context query name) :
    other.LeadsTo context query name := by
  induction reached with
  | named names known => exact .named (same _ names) known
  | pointed unrolls _ struct held known ih => exact .pointed unrolls ih struct held known

/-- The local buffers of a context that a block leads to and that are deployed. -/
def reachedLocals (block : Block) (context : Context) (query : ReferenceQuery) : List Buffer :=
  context.locals.entries.filter fun buffer =>
    buffer.deploy ∧ block.LeadsTo context query buffer.name

/-- The global general storage of a context that a block leads to, that is deployed, and that no
local buffer hides. -/
def reachedGlobals (block : Block) (context : Context) (query : ReferenceQuery) : List Buffer :=
  context.globals.entries.filter fun buffer =>
    query.includeGlobals ∧ buffer.deploy ∧ buffer.isTensor ∧ context.isLocal buffer.name = false ∧
      block.LeadsTo context query buffer.name

/-- **The references of a block are the buffers it leads to.** -/
theorem references_eq (block : Block) (context : Context) (query : ReferenceQuery) :
    block.references context query =
      (block.reachedLocals context query ++ block.reachedGlobals context query).map
        Buffer.name := by
  have reached : ∀ name, (context.spread query (block.named context)).contains name =
      decide (block.LeadsTo context query name) := by
    intro name
    rw [Bool.eq_iff_iff, List.contains_iff_mem, decide_eq_true_iff, mem_spread_named_iff]
  change context.referencesAmong query (block.named context) = _
  simp only [Context.referencesAmong, reached, Context.isGlobalReference, reachedLocals,
    reachedGlobals]
  congr 2
  · refine List.filter_congr fun buffer _ => ?_
    simp
  · refine List.filter_congr fun buffer _ => ?_
    rw [Bool.eq_iff_iff]
    simp [and_assoc]

theorem references_congr {other : Block} (same : ∀ name, other.Names name ↔ block.Names name)
    (context : Context) (query : ReferenceQuery) :
    other.references context query = block.references context query := by
  have reached : other.LeadsTo context query = block.LeadsTo context query := by
    funext name
    exact propext ⟨.of_names fun name => (same name).mp, .of_names fun name => (same name).mpr⟩
  simp only [references_eq, reachedLocals, reachedGlobals, reached]

/-- The order of the fragments does not matter for what a block names. -/
theorem names_iff_of_perm {fragments : List Fragment} (shuffled : fragments.Perm block.fragments)
    (name : String) :
    Names { block with fragments } name ↔ block.Names name := by
  simp only [Names, shuffled.mem_iff]

end Block

namespace Lowering

/-- The references of a block are found, and finding them changes no context. -/
theorem references_reached {block : Block}
    (readable : ∀ fragment ∈ block.fragments, fragment.Readable) (query : ReferenceQuery)
    (context : Context) (sources : TemplateCache) :
    ∃ final, references block query { context, sources } =
        .ok ((block.reachedLocals context query ++ block.reachedGlobals context query).map
          Buffer.name) final ∧
      final.context = context := by
  obtain ⟨final, found⟩ := references_of_readable readable query { context, sources }
  rw [← Block.references_eq]
  exact ⟨final, found, (references_eq_ok found).2⟩

/-- **References are reachability.** If the templates of a block can be read, its references are
the deployed local buffers that it leads to, then the deployed global storage that it leads to and
that is not hidden, each in the order of the context and once. Nothing else about the block
matters, and in particular not the order of its fragments. -/
theorem references_eq_reached {context : Context} (distinct : context.DistinctNames)
    {block : Block} (readable : ∀ fragment ∈ block.fragments, fragment.Readable)
    (query : ReferenceQuery) :
    let names := (block.reachedLocals context query ++ block.reachedGlobals context query).map
      Buffer.name
    names.Nodup ∧
    (∀ sources, ∃ final, references block query { context, sources } = .ok names final ∧
      final.context = context) ∧
    (∀ fragments sources, fragments.Perm block.fragments →
      ∃ final, references { block with fragments } query { context, sources } =
        .ok names final) ∧
    ∀ (other : Block) sources, (∀ fragment ∈ other.fragments, fragment.Readable) →
      (∀ name, other.Names name ↔ block.Names name) →
        ∃ final, references other query { context, sources } = .ok names final := by
  intro names
  have alike : ∀ (other : Block) sources, (∀ fragment ∈ other.fragments, fragment.Readable) →
      (∀ name, other.Names name ↔ block.Names name) →
        ∃ final, references other query { context, sources } = .ok names final := by
    intro other sources otherReadable same
    obtain ⟨final, found, -⟩ := references_reached otherReadable query context sources
    rw [← Block.references_eq, Block.references_congr same, Block.references_eq] at found
    exact ⟨final, found⟩
  refine ⟨?_, references_reached readable query context, ?_, alike⟩
  · have listedOnce := distinct.nodup_referencesAmong query (block.named context)
    change (block.references context query).Nodup at listedOnce
    rwa [Block.references_eq] at listedOnce
  · intro fragments sources shuffled
    refine alike { block with fragments } sources ?_ (Block.names_iff_of_perm shuffled)
    intro fragment member
    exact readable fragment (shuffled.mem_iff.mp member)

/-- Two structs that point at each other, one of them also to weights and to a name that is no
buffer. A global buffer is hidden by a local one of its name. -/
def ringContext : Context where
  locals := ⟨[
    { name := "x", type := ⟨0⟩, size := 64 },
    .ofStruct "back" ⟨⟨1⟩, .struct [("next", .pointer (some "ring")),
      ("inner", .struct [("state", .pointer (some "state"))])]⟩ 8,
    { name := "spare", type := ⟨0⟩, size := 64 },
    { name := "state", type := ⟨0⟩, size := 16 },
    .ofStruct "ring" ⟨⟨1⟩, .struct [("next", .pointer (some "back")),
      ("rows", .array [.pointer none, .pointer (some "weights"), .pointer (some "gone")])]⟩ 8]⟩
  globals := ⟨[
    { name := "state", type := ⟨0⟩, size := 16 },
    { name := "weights", type := ⟨0⟩, size := 32 }]⟩

/-- Code that names the second struct before the tensor. -/
def ringBlock : Block := .ofFragments [
  .ofSource "step(&${ring}, ${n});" [("ring", .name "ring"), ("n", .int 3)],
  .ofSource "store(${y});" [("y", .name "x"), ("unused", .name "spare")]]

theorem references_ringBlock :
    ringContext.DistinctNames ∧
    (∃ final, references ringBlock .everywhere { context := ringContext } =
      .ok ["x", "back", "state", "ring", "weights"] final) ∧
    ∃ final, references { ringBlock with fragments := ringBlock.fragments.reverse } .everywhere
      { context := ringContext } = .ok ["x", "back", "state", "ring", "weights"] final := by
  have distinct : ringContext.DistinctNames := by
    intro scope
    cases scope <;> decide
  have readable : ∀ fragment ∈ ringBlock.fragments, fragment.Readable := by
    simp only [Fragment.readable_iff]
    decide +kernel
  have reached : (ringBlock.reachedLocals ringContext .everywhere ++
      ringBlock.reachedGlobals ringContext .everywhere).map Buffer.name =
        ["x", "back", "state", "ring", "weights"] := by
    decide +kernel
  obtain ⟨-, found, shuffled, -⟩ := references_eq_reached distinct readable .everywhere
  rw [reached] at found shuffled
  obtain ⟨final, answered, -⟩ := found .empty
  exact ⟨distinct, ⟨final, answered⟩, shuffled _ .empty (List.reverse_perm _)⟩

end Lowering

end TensorLowering
