import TensorLowering.Proofs.Closures
import TensorLowering.Proofs.Indentation

/-! # Loops over tiles

A loop over tiles consists of the declarations of the views, a line that opens the loop, the body
under a margin and a line that closes it
(`TensorLowering.Block.mem_loopOverTiles_iff`). A margin does not change what code names, and the
lines around the body name nothing. So the loop names what the block names and what the code made
from its record names (`TensorLowering.Block.mem_named_loopOverTiles`).
-/

namespace TensorLowering

namespace TileRecord

/-- The code that a record adds to the body of the loop: the updates of scalars, and the copies of
tiles if wanted. -/
def bodyCode (options : TileLoopOptions) (record : TileRecord) : List Fragment :=
  record.replacements.map record.update ++
    if options.transfers then record.tiled.map record.transfer else []

/-- The code that is made from a record. -/
def code (options : TileLoopOptions) (record : TileRecord) : List Fragment :=
  record.declarations ++ record.bodyCode options

end TileRecord

/-! ### Fragments under a margin -/

theorem blank_margin : ∀ char ∈ "    ".toList, Lexeme.isBlank char = true := by
  rw [← List.all_eq_true]
  rfl

namespace Fragment

variable {fragment : Fragment} {context : Context} {name : String}

/-- A margin does not change whether a fragment touches a buffer, unless a key of the buffer has a
line feed. -/
theorem mem_touched_indent
    (oneLine : ∀ key, fragment.bindings.find? key = some (.name name) → '\n' ∉ key.toList) :
    name ∈ touched { fragment with template := fragment.template.indent "    " } context ↔
      name ∈ fragment.touched context := by
  rw [mem_touched_iff_uses, mem_touched_iff_uses]
  refine and_congr_right fun _ => exists_congr fun key => ?_
  constructor
  · rintro ⟨used, bound⟩
    exact ⟨(Template.uses_indent blank_margin _ (oneLine key bound)).mp used, bound⟩
  · rintro ⟨used, bound⟩
    exact ⟨(Template.uses_indent blank_margin _ (oneLine key bound)).mpr used, bound⟩

/-- A fragment touches only what it binds. -/
theorem exists_bound_of_mem_touched (member : name ∈ fragment.touched context) :
    ∃ key, fragment.bindings.find? key = some (.name name) := by
  obtain ⟨-, key, -, bound⟩ := mem_touched_iff_uses.mp member
  exact ⟨key, bound⟩

end Fragment

/-! ### The code of a loop -/

namespace TileRecord

variable {record : TileRecord} {options : TileLoopOptions} {fragment : Fragment}

theorem mem_bodyCode_iff : fragment ∈ record.bodyCode options ↔
    (∃ replacement ∈ record.replacements, record.update replacement = fragment) ∨
      options.transfers = true ∧ ∃ tensor ∈ record.tiled, record.transfer tensor = fragment := by
  unfold bodyCode
  split
  · next transfers => simp [transfers]
  · next plain => simp [plain]

theorem mem_transfers_iff {direction : Direction} : fragment ∈ record.transfers direction ↔
    ∃ tensor ∈ record.tiled, tensor.direction = direction ∧ record.transfer tensor = fragment := by
  simp [transfers, and_assoc]

/-- The keys of the code in the body of the loop have no line feeds. -/
theorem oneLine_of_mem_bodyCode (member : fragment ∈ record.bodyCode options) {key : String}
    {binding : Binding} (bound : fragment.bindings.find? key = some binding) :
    '\n' ∉ key.toList := by
  rcases mem_bodyCode_iff.mp member with ⟨replacement, -, rfl⟩ | ⟨-, tensor, -, rfl⟩
  · have listed := List.mem_map_of_mem (f := Prod.fst) (Dict.mem_of_find?_ofList bound)
    exact (by decide : ∀ key ∈ ["reference", "table", "index"], '\n' ∉ key.toList) key listed
  · have listed := List.mem_map_of_mem (f := Prod.fst) (Dict.mem_of_find?_ofList bound)
    exact (by decide : ∀ key ∈ ["local", "external", "offsets", "index", "bytes"],
      '\n' ∉ key.toList) key listed

theorem readable_of_mem_bodyCode (member : fragment ∈ record.bodyCode options) :
    fragment.Readable := by
  rw [Fragment.readable_iff]
  rcases mem_bodyCode_iff.mp member with ⟨replacement, -, rfl⟩ | ⟨-, tensor, -, rfl⟩
  · change (Template.parse "${reference} = &${table}[${index}];").isOk = true
    decide +kernel
  · change (Template.parse (transferSource tensor.direction)).isOk = true
    cases tensor.direction <;> decide +kernel

theorem not_named_loopBindings (key name : String) :
    record.loopBindings.find? key ≠ some (.name name) := by
  intro bound
  have listed := Dict.mem_of_find?_ofList bound
  simp at listed

/-- The lines around a loop name no buffer. -/
theorem not_mem_touched_loopBindings {context : Context} {name : String} (template : Template) :
    name ∉ Fragment.touched { template, bindings := record.loopBindings } context := by
  intro touches
  obtain ⟨key, bound⟩ := Fragment.exists_bound_of_mem_touched touches
  exact not_named_loopBindings key name bound

end TileRecord

namespace Block

variable {block : Block} {context : Context} {options : TileLoopOptions} {record : TileRecord}

theorem mem_named_iff {name : String} : name ∈ block.named context ↔
    (∃ fragment ∈ block.fragments, name ∈ fragment.touched context) ∨
      name ∈ block.tiledBuffers context := by
  rw [named, List.mem_append, List.mem_flatMap]

/-- The code of the body of the loop. -/
theorem mem_body_iff {line : Fragment} :
    line ∈ (if options.transfers then
        (block.prepend (record.replacements.map record.update)).addTransfers record
      else block.prepend (record.replacements.map record.update)).fragments ↔
      line ∈ block.fragments ∨ line ∈ record.bodyCode options := by
  rw [TileRecord.mem_bodyCode_iff]
  split
  · next transfers =>
      simp only [addTransfers, prepend, append, List.mem_append, List.mem_reverse,
        TileRecord.mem_transfers_iff, List.mem_map, transfers, true_and]
      constructor
      · rintro ((⟨tensor, listed, -, rfl⟩ | updated | own) | ⟨tensor, listed, -, rfl⟩)
        · exact .inr (.inr ⟨tensor, listed, rfl⟩)
        · exact .inr (.inl updated)
        · exact .inl own
        · exact .inr (.inr ⟨tensor, listed, rfl⟩)
      · rintro (own | updated | ⟨tensor, listed, rfl⟩)
        · exact .inl (.inr (.inr own))
        · exact .inl (.inr (.inl updated))
        · cases direction : tensor.direction with
          | inward => exact .inl (.inl ⟨tensor, listed, direction, rfl⟩)
          | outward => exact .inr ⟨tensor, listed, direction, rfl⟩
  · next plain =>
      simp only [prepend, List.mem_append, List.mem_map, plain, Bool.false_eq_true, false_and,
        or_false]
      exact or_comm

theorem updateTiles_of_recorded (recorded : block.record = some record) :
    block.updateTiles = block.prepend (record.replacements.map record.update) := by
  rw [updateTiles, recorded]

theorem loopOverTiles_of_unrecorded (unrecorded : block.record = none) :
    block.updateTiles.loopOverTiles options = block := by
  rw [updateTiles, unrecorded]
  dsimp only
  rw [loopOverTiles, unrecorded]

/-- A loop over tiles consists of declarations, two lines around the loop and its body under a
margin. -/
theorem mem_loopOverTiles_iff (recorded : block.record = some record) {fragment : Fragment} :
    fragment ∈ (block.updateTiles.loopOverTiles options).fragments ↔
      fragment ∈ record.declarations ∨
        (fragment = { template := options.frame.1, bindings := record.loopBindings } ∨
          fragment = { template := options.frame.2, bindings := record.loopBindings }) ∨
        ∃ line, (line ∈ block.fragments ∨ line ∈ record.bodyCode options) ∧
          { line with template := line.template.indent "    " } = fragment := by
  have stillRecorded : (block.prepend (record.replacements.map record.update)).record =
    some record := recorded
  rw [updateTiles_of_recorded recorded, loopOverTiles, stillRecorded]
  simp only [← mem_body_iff]
  generalize (if options.transfers then _ else _ : Block) = body
  simp only [prepend, append, indent, mapFragments, List.mem_append, List.mem_singleton,
    List.mem_map]
  exact or_congr_right or_right_comm

/-- The templates of a loop over tiles can be read if those that it is made from can. -/
theorem readable_loopOverTiles (recorded : block.record = some record)
    (readable : ∀ fragment ∈ block.fragments, fragment.Readable)
    (declared : ∀ declaration ∈ record.declarations, declaration.Readable)
    (opening : (Template.parse options.frame.1.source).isOk = true)
    (closing : (Template.parse options.frame.2.source).isOk = true) :
    ∀ fragment ∈ (block.updateTiles.loopOverTiles options).fragments, fragment.Readable := by
  intro fragment member
  rcases (mem_loopOverTiles_iff recorded).mp member with
    listed | (rfl | rfl) | ⟨line, body, rfl⟩
  · exact declared fragment listed
  · exact Fragment.readable_iff.mpr opening
  · exact Fragment.readable_iff.mpr closing
  · rw [Fragment.readable_iff, Template.isOk_parse_indent blank_margin, ← Fragment.readable_iff]
    rcases body with own | added
    · exact readable line own
    · exact TileRecord.readable_of_mem_bodyCode added

theorem record_loopOverTiles (recorded : block.record = some record) :
    (block.updateTiles.loopOverTiles options).record = some record := by
  have stillRecorded : (block.prepend (record.replacements.map record.update)).record =
    some record := recorded
  rw [updateTiles_of_recorded recorded, loopOverTiles, stillRecorded]
  dsimp only [prepend, append, indent, mapFragments]
  split <;> exact recorded

/-- A loop over tiles names what the block names and what the code made from the record names. -/
theorem mem_named_loopOverTiles {name : String} (recorded : block.record = some record)
    (oneLine : ∀ fragment ∈ block.fragments, ∀ key,
      fragment.bindings.find? key = some (.name name) → '\n' ∉ key.toList) :
    name ∈ (block.updateTiles.loopOverTiles options).named context ↔
      name ∈ block.named context ∨
        ∃ fragment ∈ record.code options, name ∈ fragment.touched context := by
  have keptRecord : (block.updateTiles.loopOverTiles options).tiledBuffers context =
      block.tiledBuffers context := by
    rw [tiledBuffers, tiledBuffers, record_loopOverTiles recorded, recorded]
  have indented : ∀ line, line ∈ block.fragments ∨ line ∈ record.bodyCode options →
      (name ∈ Fragment.touched { line with template := line.template.indent "    " } context ↔
        name ∈ line.touched context) := by
    intro line listed
    apply Fragment.mem_touched_indent
    intro key bound
    rcases listed with own | added
    · exact oneLine line own key bound
    · exact TileRecord.oneLine_of_mem_bodyCode added bound
  rw [mem_named_iff, mem_named_iff, keptRecord]
  constructor
  · rintro (⟨fragment, member, touches⟩ | tiled)
    · rcases (mem_loopOverTiles_iff recorded).mp member with
        declared | (rfl | rfl) | ⟨line, listed, rfl⟩
      · exact .inr ⟨fragment, List.mem_append_left _ declared, touches⟩
      · exact absurd touches (record.not_mem_touched_loopBindings _)
      · exact absurd touches (record.not_mem_touched_loopBindings _)
      · rw [indented line listed] at touches
        rcases listed with own | added
        · exact .inl (.inl ⟨line, own, touches⟩)
        · exact .inr ⟨line, List.mem_append_right _ added, touches⟩
    · exact .inl (.inr tiled)
  · rintro ((⟨line, own, touches⟩ | tiled) | ⟨line, coded, touches⟩)
    · rw [← indented line (.inl own)] at touches
      exact .inl ⟨_, (mem_loopOverTiles_iff recorded).mpr (.inr (.inr ⟨line, .inl own, rfl⟩)),
        touches⟩
    · exact .inr tiled
    · rcases List.mem_append.mp coded with declared | added
      · exact .inl ⟨line, (mem_loopOverTiles_iff recorded).mpr (.inl declared), touches⟩
      · rw [← indented line (.inr added)] at touches
        exact .inl ⟨_, (mem_loopOverTiles_iff recorded).mpr (.inr (.inr ⟨line, .inr added, rfl⟩)),
          touches⟩

end Block

end TensorLowering
