import TensorLowering.Plan
import TensorLowering.Proofs.AliasLinks
import TensorLowering.Proofs.DocumentParts

/-! # Saved documents load unchanged

A loaded context or plan is written to a document that loads as the same context or plan
(`TensorLowering.saved_documents_load`). Loading completes alias lists, so a loaded context need
not be one that was written anywhere; what can be stored of it does not depend on its alias lists
(`TensorLowering.Context.Storable`).
-/

namespace TensorLowering

open Json Decoder

/-! ### Buffers -/

namespace BufferKind

theorem decodeValue_stable :
    Stable 2 decodeValue (By fun value => .obj [("value", value.toJson)]) := by
  apply record_stable (by decide)
  intro depth deep entries value read
  exact ⟨_, rfl, .refl _, Fields.kept_required TypedValue.decode_stable deep read⟩

theorem decodeReference_stable :
    Stable 1 decodeReference fun kind form => kind.toJson = .tagged "Reference" form := by
  apply record_stable (by decide)
  intro depth deep entries kind read
  simp only [bind_eq_ok_iff, return_eq_ok_iff] at read ⊢
  obtain ⟨target, readTarget, offset, readOffset, rfl⟩ := read
  have keptTarget := Fields.kept_required string_stable deep readTarget
  have keptOffset := Fields.kept_required (natBelow_stable _) deep readOffset
  exact ⟨_, rfl, .refl _, target, keptTarget, offset, keptOffset, rfl⟩

theorem decode_stable : Stable 3 decode (By toJson) := by
  apply variantWith_stable
  · simp [toJson, Dict.search]
  · simp only [List.forall_mem_cons]
    exact ⟨decodeValue_stable.tagged BufferKind.constant fun _ => rfl,
      decodeValue_stable.tagged BufferKind.struct fun _ => rfl,
      decodeReference_stable.mono (by decide), List.forall_mem_nil _⟩

end BufferKind

namespace Buffer

/-- What has to be read again of a buffer; the other fields always are. -/
structure Storable (depth : Nat) (buffer : Buffer) : Prop where
  type : TypeId.decode depth buffer.type.toJson = .ok buffer.type
  size : Decoder.nat64 depth (.ofNat buffer.size) = .ok buffer.size
  kind : BufferKind.decode depth buffer.kind.toJson = .ok buffer.kind

variable {depth : Nat} {buffer : Buffer}

theorem storable_unlinked_iff : buffer.unlinked.Storable depth ↔ buffer.Storable depth :=
  ⟨fun ⟨type, size, kind⟩ => ⟨type, size, kind⟩, fun ⟨type, size, kind⟩ => ⟨type, size, kind⟩⟩

theorem storable_of_decode (deep : 3 ≤ depth) {json : Json}
    (read : decode (depth + 1) json = .ok buffer) : buffer.Storable depth := by
  obtain ⟨entries, made⟩ := exists_of_record read
  simp only [bind_eq_ok_iff, return_eq_ok_iff] at made
  obtain ⟨name, -, type, readType, size, readSize, level, -, live, -, deploy, -, users, -, aliases,
    -, state, -, kind, readKind, rfl⟩ := made
  exact {
    type := Fields.kept_required TypeId.decode_stable (Nat.zero_le _) readType
    size := Fields.kept_optional (natBelow_stable _) (Nat.zero_le _) (.ofNat 0) rfl readSize
    kind := Fields.kept_optional BufferKind.decode_stable deep (.str "Variable") rfl readKind }

theorem decode_toJson (storable : buffer.Storable (depth + 1)) :
    decode (depth + 2) buffer.toJson = .ok buffer := by
  have namesKept : ∀ names : List String,
      Decoder.list Decoder.string (depth + 1) (.ofStrings names) = .ok names :=
    fun names => mapM_map_eq_ok fun _ _ => rfl
  have nameKept : ∀ name : Option String,
      Decoder.option Decoder.string (depth + 1) (.ofOption .str name) = .ok name := by
    intro name
    cases name <;> rfl
  refine record_eq_ok ?_ (by decide) (.refl _)
  simp only [bind_eq_ok_iff, return_eq_ok_iff]
  exact ⟨buffer.name, rfl, buffer.type, storable.type, buffer.size, storable.size, buffer.level,
    nameKept _, buffer.live, rfl, buffer.deploy, rfl, buffer.users, namesKept _, buffer.aliases,
    namesKept _, buffer.state, nameKept _, buffer.kind, storable.kind, rfl⟩

end Buffer

namespace BufferTable

variable {depth : Nat} {table : BufferTable}

theorem storable_of_decode (deep : 3 ≤ depth) {json : Json}
    (read : decode (depth + 3) json = .ok table) :
    ∀ buffer ∈ table.entries, buffer.Storable depth := by
  obtain ⟨entries, made⟩ := exists_of_record read
  simp only [bind_eq_ok_iff, return_eq_ok_iff] at made
  obtain ⟨buffers, readBuffers, rfl⟩ := made
  intro buffer member
  unfold Fields.required at readBuffers
  split at readBuffers
  · unfold Decoder.list at readBuffers
    split at readBuffers
    · obtain ⟨item, readItem⟩ := exists_of_mapM_eq_ok readBuffers buffer member
      exact Buffer.storable_of_decode deep readItem
    · cases readBuffers
  · cases readBuffers

theorem decode_toJson (storable : ∀ buffer ∈ table.entries, buffer.Storable (depth + 1)) :
    decode (depth + 4) table.toJson = .ok table := by
  refine record_eq_ok ?_ (by decide) (.refl _)
  simp only [bind_eq_ok_iff, return_eq_ok_iff]
  refine ⟨table.entries, ?_, rfl⟩
  exact mapM_map_eq_ok fun buffer member => Buffer.decode_toJson (storable buffer member)

end BufferTable

/-! ### Contexts -/

theorem Definition.decode_stable : Stable 1 Definition.decode (By Definition.toJson) := by
  apply record_stable (by decide)
  intro depth deep entries definition read
  simp only [bind_eq_ok_iff, return_eq_ok_iff] at read ⊢
  obtain ⟨name, readName, code, readCode, rfl⟩ := read
  have keptName := Fields.kept_required string_stable deep readName
  have keptCode := Fields.kept_required string_stable deep readCode
  exact ⟨_, rfl, .refl _, name, keptName, code, keptCode, rfl⟩

theorem NameSet.decode_stable : Stable 1 NameSet.decode (By NameSet.toJson) := by
  apply Stable.of_entered
  intro depth _ json set _
  have keysRead : Decoder.list Decoder.string (depth + 1) (NameSet.toJson set) = .ok set.keys :=
    mapM_map_eq_ok fun _ _ => rfl
  have entriesSame : set.keys.map (·, ()) = set.entries := by
    rw [Dict.keys, List.map_map]
    exact List.map_id _
  rw [NameSet.decode, keysRead]
  exact congrArg Except.ok ((congrArg Dict.ofList entriesSame).trans set.ofList_entries)

namespace Context

/-- What has to be read again of a context. -/
structure Storable (depth : Nat) (context : Context) : Prop where
  types : Registry.decode (depth + 4) context.types.toJson = .ok context.types
  buffers : ∀ buffer ∈ context.buffers, buffer.Storable (depth + 1)
  dynamicSize : Decoder.dict Decoder.nat64 (depth + 4) (.ofDict .ofNat context.dynamicSize) =
    .ok context.dynamicSize
  maxDynamicSize : Decoder.dict Decoder.nat64 (depth + 4) (.ofDict .ofNat context.maxDynamicSize) =
    .ok context.maxDynamicSize
  pendingRelease : NameSet.decode (depth + 4) (NameSet.toJson context.pendingRelease) =
    .ok context.pendingRelease
  mangled : Decoder.dict Decoder.string (depth + 4) (.ofDict .str context.mangled) =
    .ok context.mangled
  definitions : Decoder.list Definition.decode (depth + 4)
    (.ofList Definition.toJson context.definitions) = .ok context.definitions
  exact : context.overflowed = false

variable {depth : Nat} {context : Context}

theorem storable_of_decode (deep : 2 ≤ depth) {json : Json}
    (read : decode (depth + 5) json = .ok context) : context.Storable depth := by
  obtain ⟨entries, made⟩ := exists_of_record read
  simp only [bind_eq_ok_iff, return_eq_ok_iff] at made
  obtain ⟨types, readTypes, globals, readGlobals, locals, readLocals, dynamicSize, readSize,
    maxDynamicSize, readMaxSize, pendingRelease, readPending, namePrefix, -, mangled, readMangled,
    definitions, readDefinitions, rfl⟩ := made
  have sizeStable := dict_stable (natBelow_stable (Nat.pow 2 64))
  have noBuffers : BufferTable.decode (depth + 4) (.obj [("entries", .arr [])]) = .ok {} := rfl
  obtain ⟨globalsJson, readGlobals⟩ := Fields.exists_of_optional _ noBuffers readGlobals
  obtain ⟨localsJson, readLocals⟩ := Fields.exists_of_optional _ noBuffers readLocals
  exact {
    types := Fields.kept_optional Registry.decode_stable (by omega) (.obj []) rfl readTypes
    buffers := List.forall_mem_append.mpr
      ⟨BufferTable.storable_of_decode (by omega) readLocals,
        BufferTable.storable_of_decode (by omega) readGlobals⟩
    dynamicSize := Fields.kept_optional sizeStable (by omega) (.obj []) rfl readSize
    maxDynamicSize := Fields.kept_optional sizeStable (by omega) (.obj []) rfl readMaxSize
    pendingRelease := Fields.kept_optional NameSet.decode_stable (by omega) (.arr []) rfl
      readPending
    mangled := Fields.kept_optional (dict_stable string_stable) (by omega) (.obj []) rfl readMangled
    definitions := Fields.kept_optional (list_stable Definition.decode_stable) (by omega) (.arr [])
      rfl readDefinitions
    exact := rfl }

theorem decode_toJson (storable : context.Storable depth) :
    decode (depth + 5) context.toJson = .ok context := by
  refine record_eq_ok ?_ (by decide) (.refl _)
  simp only [bind_eq_ok_iff, return_eq_ok_iff]
  have globals := BufferTable.decode_toJson fun buffer member =>
    storable.buffers buffer (List.mem_append_right _ member)
  have locals := BufferTable.decode_toJson fun buffer member =>
    storable.buffers buffer (List.mem_append_left _ member)
  exact ⟨context.types, storable.types, context.globals, globals, context.locals, locals,
    context.dynamicSize, storable.dynamicSize, context.maxDynamicSize, storable.maxDynamicSize,
    context.pendingRelease, storable.pendingRelease, context.namePrefix, rfl, context.mangled,
    storable.mangled, context.definitions, storable.definitions, by rw [← storable.exact]⟩

theorem storable_unlinked_iff : context.unlinked.Storable depth ↔ context.Storable depth := by
  have buffers : (∀ buffer ∈ context.unlinked.buffers, buffer.Storable (depth + 1)) ↔
      ∀ buffer ∈ context.buffers, buffer.Storable (depth + 1) := by
    have mapped : context.unlinked.buffers = context.buffers.map Buffer.unlinked :=
      List.map_append.symm
    rw [mapped, List.forall_mem_map]
    simp only [Buffer.storable_unlinked_iff]
  constructor
  · intro storable
    exact { storable with buffers := buffers.mp storable.buffers }
  · intro storable
    exact { storable with buffers := buffers.mpr storable.buffers }

theorem Storable.linkAliases (storable : context.Storable depth) :
    context.linkAliases.Storable depth := by
  rw [← storable_unlinked_iff, unlinked_linkAliases, storable_unlinked_iff]
  exact storable

/-- A context that was loaded is loaded again from its tree. -/
theorem load_toJson {json : Json} (loaded : load json = .ok context) :
    load context.toJson = .ok context := by
  unfold load at loaded
  cases read : decode maxDepth json with
  | error fault => rw [read] at loaded; cases loaded
  | ok written =>
      rw [read] at loaded
      obtain ⟨rfl, checkedAgain⟩ := checked_of_checked loaded
      have storable : written.Storable 122 := storable_of_decode (by decide) read
      have again : decode maxDepth written.linkAliases.toJson = .ok written.linkAliases :=
        decode_toJson storable.linkAliases
      rw [load, again]
      exact checkedAgain

end Context

/-! ### Plans -/

theorem PlannedFragment.decode_stable :
    Stable 7 PlannedFragment.decode (By PlannedFragment.toJson) := by
  apply record_stable (by decide)
  intro depth deep entries planned read
  simp only [bind_eq_ok_iff, return_eq_ok_iff] at read ⊢
  obtain ⟨source, readSource, bindings, readBindings, tiling, readTiling, rfl⟩ := read
  obtain ⟨inner, rfl⟩ : ∃ inner, depth = inner + 1 := Nat.exists_eq_add_of_le' (by omega)
  have keptSource := Fields.kept_required string_stable (Nat.zero_le _) readSource
  have keptBindings := Fields.kept_optional Bindings.decode_stable (by omega) (.obj []) rfl
    readBindings
  have keptTiling := Fields.kept_optional (option_stable Tiling.decode_stable nofun) deep .null rfl
    readTiling
  cases tiling with
  | none =>
      -- No entry is written for it, and none is read as the default.
      refine ⟨_, rfl, ?_, source, keptSource, bindings, keptBindings, none, rfl, rfl⟩
      exact List.sublist_append_left ["template", "bindings"] ["tiling"]
  | some tiling =>
      exact ⟨_, rfl, .refl _, source, keptSource, bindings, keptBindings, some tiling, keptTiling,
        rfl⟩

theorem PlannedOperation.decode_stable :
    Stable 9 PlannedOperation.decode (By PlannedOperation.toJson) := by
  apply record_stable (by decide)
  intro depth deep entries planned read
  simp only [bind_eq_ok_iff, return_eq_ok_iff] at read ⊢
  obtain ⟨name, readName, fragments, readFragments, rfl⟩ := read
  have keptName := Fields.kept_required string_stable (Nat.zero_le _) readName
  have keptFragments := Fields.kept_required (list_stable PlannedFragment.decode_stable) deep
    readFragments
  exact ⟨_, rfl, .refl _, name, keptName, fragments, keptFragments, rfl⟩

namespace Plan

theorem decodeVerbosity_stable : Stable 1 decodeVerbosity (By verbosityToJson) := by
  apply record_stable (by decide)
  intro depth deep entries annotate read
  exact ⟨_, rfl, .refl _, Fields.kept_optional bool_stable deep (.bool false) rfl read⟩

/-- A plan that is read is read again with the alias lists of its context completed. -/
theorem decode_linked {plan : Plan} {json : Json} (read : decode maxDepth json = .ok plan) :
    decode maxDepth { plan with context := plan.context.linkAliases }.toJson =
      .ok { plan with context := plan.context.linkAliases } := by
  obtain ⟨entries, made⟩ := exists_of_record read
  simp only [bind_eq_ok_iff, return_eq_ok_iff] at made
  obtain ⟨context, readContext, operations, readOperations, pipeline, readPipeline, annotate,
    readAnnotate, entry, readEntry, rfl⟩ := made
  obtain ⟨contextJson, readContext⟩ := Fields.exists_of_optional (.obj []) rfl readContext
  have storable : context.Storable 121 := Context.storable_of_decode (by decide) readContext
  have keptContext := Context.decode_toJson storable.linkAliases
  have keptOperations := Fields.kept_required (list_stable PlannedOperation.decode_stable)
    (by decide) readOperations
  have keptPipeline := Fields.kept_required (list_stable Pass.decode_stable) (by decide)
    readPipeline
  have keptAnnotate := Fields.kept_optional decodeVerbosity_stable (by decide) (.obj []) rfl
    readAnnotate
  have keptEntry := Fields.kept_optional string_stable (Nat.zero_le _) (.str "dlc_run") rfl
    readEntry
  refine record_eq_ok ?_ (by decide) (.refl _)
  simp only [bind_eq_ok_iff, return_eq_ok_iff]
  exact ⟨context.linkAliases, keptContext, operations, keptOperations, pipeline, keptPipeline,
    annotate, keptAnnotate, entry, keptEntry, rfl⟩

/-- A plan that was loaded is loaded again from its tree. -/
theorem load_toJson {plan : Plan} {json : Json} (loaded : load json = .ok plan) :
    load plan.toJson = .ok plan := by
  unfold load at loaded
  cases read : decode maxDepth json with
  | error fault => rw [read] at loaded; cases loaded
  | ok written =>
      rw [read] at loaded
      obtain ⟨context, passed, rest⟩ := bind_eq_ok_iff.mp loaded
      obtain rfl := return_eq_ok_iff.mp rest
      obtain ⟨rfl, checkedAgain⟩ := Context.checked_of_checked passed
      rw [load, decode_linked read]
      exact bind_eq_ok_iff.mpr ⟨_, checkedAgain, rfl⟩

end Plan

/-- **Saved documents load unchanged.** A loaded context or plan is loaded again, with every field
as it was, from its tree and from every text that is read as its tree. -/
theorem saved_documents_load :
    (∀ json context, Context.load json = .ok context →
      Context.load context.toJson = .ok context ∧
      ∀ text, Json.parse? text = some context.toJson → Context.ofText text = .ok context) ∧
    (∀ json plan, Plan.load json = .ok plan →
      Plan.load plan.toJson = .ok plan ∧
      ∀ text, Json.parse? text = some plan.toJson → Plan.ofText text = .ok plan) := by
  constructor
  · intro json context loaded
    have again := Context.load_toJson loaded
    refine ⟨again, fun text reads => ?_⟩
    rw [Context.ofText, reads]
    exact again
  · intro json plan loaded
    have again := Plan.load_toJson loaded
    refine ⟨again, fun text reads => ?_⟩
    rw [Plan.ofText, reads]
    exact again

/-! ### Some documents -/

/-- A context with a hidden and a repeated name, and with a view that its target does not list. -/
def hidingDocument : Json :=
  .obj [("types", .obj [("descs", .arr [.str "Void"])]),
    ("globals", .obj [("entries", .arr [.obj [("name", .str "b"), ("ty", .int 0)]])]),
    ("locals", .obj [("entries", .arr [
      .obj [("name", .str "b"), ("ty", .int 0)],
      .obj [("name", .str "b"), ("ty", .int 0), ("size", .int 64)],
      .obj [("name", .str "r"), ("ty", .int 0),
        ("kind", .tagged "Reference" (.obj [("offset", .int 16), ("target", .str "b")]))]])])]

/-- The same context as it is loaded: the last buffer of a name is the one that is viewed. -/
def hidingContext : Context where
  types := { kinds := [.void] }
  globals := ⟨[{ name := "b", type := ⟨0⟩ }]⟩
  locals := ⟨[{ name := "b", type := ⟨0⟩ },
    { name := "b", type := ⟨0⟩, size := 64, aliases := ["r"] },
    { name := "r", type := ⟨0⟩, kind := .reference "b" 16 }]⟩

/-- A plan on that context that gives a whole number for a float and leaves out what it can. -/
def hidingPlanDocument : Json :=
  .obj [("pipeline", .arr [.obj [("pass", .str "memory_management")]]), ("context", hidingDocument),
    ("operations", .arr [.obj [("name", .str "scale"), ("fragments", .arr [
      .obj [("template", .str "f(${x});"),
        ("bindings", .obj [("x", .tagged "float" (.int 2))])]])]])]

/-- The same plan as it is loaded. -/
def hidingPlan : Plan where
  context := hidingContext
  operations :=
    [⟨"scale", [{ source := "f(${x});", bindings := .ofList [("x", .float (.ofInt 2))] }]⟩]
  pipeline := [.lifetimes {}]

/-- A text of the empty context. -/
def blankContextText : String :=
  "\x7b\"types\": \x7b\"descs\": [], \"pointer_width\": 32\x7d,
    \"globals\": \x7b\"entries\": []\x7d, \"locals\": \x7b\"entries\": []\x7d,
    \"dynamic_size\": \x7b\x7d, \"max_dynamic_size\": \x7b\x7d, \"pending_release\": [],
    \"name_prefix\": \"\", \"mangled\": \x7b\x7d, \"definitions\": []\x7d"

/-- A text of the plan that does nothing. -/
def blankPlanText : String :=
  "\x7b\"context\":
      \x7b\"types\": \x7b\"descs\": [], \"pointer_width\": 32\x7d,
        \"globals\": \x7b\"entries\": []\x7d, \"locals\": \x7b\"entries\": []\x7d,
        \"dynamic_size\": \x7b\x7d, \"max_dynamic_size\": \x7b\x7d, \"pending_release\": [],
        \"name_prefix\": \"\", \"mangled\": \x7b\x7d, \"definitions\": []\x7d,
    \"operations\": [], \"pipeline\": [], \"verbosity\": \x7b\"annotate\": false\x7d,
    \"entry\": \"dlc_run\"\x7d"

/-- Reading a text that is given by its characters; a literal is, and taking its characters out of
its encoding again is slow. -/
theorem Json.parse?_ofList (chars : List Char) :
    parse? (String.ofList chars) =
      (readValue? (2 * chars.length + 2) chars).bind fun read =>
        if (skipBlanks read.2).isEmpty then some read.1 else none := by
  unfold parse?
  simp only [String.toList_ofList]
  cases readValue? (2 * chars.length + 2) chars <;> rfl

set_option maxRecDepth 2000 in
theorem saved_documents_load_hidingDocument :
    (Context.load hidingDocument = .ok hidingContext ∧
      Context.load hidingContext.toJson = .ok hidingContext) ∧
    (Plan.load hidingPlanDocument = .ok hidingPlan ∧
      Plan.load hidingPlan.toJson = .ok hidingPlan) ∧
    Context.ofText blankContextText = .ok {} ∧
    Plan.ofText blankPlanText = .ok { operations := [], pipeline := [] } := by
  have contextLoaded : Context.load hidingDocument = .ok hidingContext := rfl
  have planLoaded : Plan.load hidingPlanDocument = .ok hidingPlan := rfl
  refine ⟨⟨contextLoaded, (saved_documents_load.1 _ _ contextLoaded).1⟩,
    ⟨planLoaded, (saved_documents_load.2 _ _ planLoaded).1⟩, ?_, ?_⟩
  · have blankLoaded : Context.load (.obj []) = .ok {} := rfl
    exact (saved_documents_load.1 _ _ blankLoaded).2 _ ((Json.parse?_ofList _).trans rfl)
  · have blankLoaded : Plan.load (.obj [("operations", .arr []), ("pipeline", .arr [])]) =
        .ok { operations := [], pipeline := [] } := rfl
    exact (saved_documents_load.2 _ _ blankLoaded).2 _ ((Json.parse?_ofList _).trans rfl)

end TensorLowering
