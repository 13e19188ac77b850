import TensorLowering.Document.Pass
import TensorLowering.Document.Tiling
import TensorLowering.Proofs.Decoding

/-! # Documents of parts

The decoders of types, values, templates, tilings and passes are stable: what they read they read
again from what is written. The number in each statement is the number of levels that the written
form may take.
-/

namespace TensorLowering

open Json Decoder

/-! ### Types -/

theorem TypeId.decode_stable : Stable 0 TypeId.decode (By TypeId.toJson) := by
  apply ((natBelow_stable _).map TypeId.mk).imp
  rintro _ _ ⟨index, rfl, rfl⟩
  rfl

namespace TypeKind

theorem decodeInt_stable :
    Stable 1 decodeInt fun kind form => kind.toJson = .tagged "Int" form := by
  apply record_stable (by decide)
  intro depth deep entries kind read
  simp only [bind_eq_ok_iff, return_eq_ok_iff] at read ⊢
  obtain ⟨width, readWidth, signed, readSigned, rfl⟩ := read
  have keptWidth := Fields.kept_required (natBelow_stable _) deep readWidth
  have keptSigned := Fields.kept_required bool_stable deep readSigned
  exact ⟨_, rfl, .refl _, width, keptWidth, signed, keptSigned, rfl⟩

theorem decodeFloat_stable :
    Stable 1 decodeFloat fun kind form => kind.toJson = .tagged "Float" form := by
  apply record_stable (by decide)
  intro depth deep entries kind read
  simp only [bind_eq_ok_iff, return_eq_ok_iff] at read ⊢
  obtain ⟨width, readWidth, mantissa, readMantissa, exponent, readExponent, rfl⟩ := read
  have keptWidth := Fields.kept_required (natBelow_stable _) deep readWidth
  have keptMantissa := Fields.kept_required (natBelow_stable _) deep readMantissa
  have keptExponent := Fields.kept_required (natBelow_stable _) deep readExponent
  exact ⟨_, rfl, .refl _, width, keptWidth, mantissa, keptMantissa, exponent, keptExponent, rfl⟩

theorem decodePointee_stable :
    Stable 1 decodePointee (By fun type => .obj [("pointee", type.toJson)]) := by
  apply record_stable (by decide)
  intro depth deep entries type read
  exact ⟨_, rfl, .refl _, Fields.kept_required TypeId.decode_stable deep read⟩

theorem decodeStruct_stable :
    Stable 3 decodeStruct fun kind form => kind.toJson = .tagged "Struct" form := by
  apply record_stable (by decide)
  intro depth deep entries kind read
  simp only [bind_eq_ok_iff, return_eq_ok_iff] at read ⊢
  obtain ⟨name, readName, fields, readFields, rfl⟩ := read
  have keptName := Fields.kept_required string_stable (Nat.zero_le _) readName
  have keptFields := Fields.kept_required
    (list_stable (pair_stable string_stable TypeId.decode_stable)) deep readFields
  exact ⟨_, rfl, .refl _, name, keptName, fields, keptFields, rfl⟩

theorem decode_stable : Stable 4 decode (By toJson) := by
  apply variantWith_stable
  · simp [toJson, Dict.search]
  · simp only [List.forall_mem_cons]
    have pointeeStable := decodePointee_stable.mono (show 1 ≤ 3 by decide)
    exact ⟨decodeInt_stable.mono (by decide), decodeFloat_stable.mono (by decide),
      pointeeStable.tagged TypeKind.pointer fun _ => rfl,
      pointeeStable.tagged TypeKind.future fun _ => rfl, decodeStruct_stable,
      List.forall_mem_nil _⟩

end TypeKind

theorem Registry.decode_stable : Stable 6 Registry.decode (By Registry.toJson) := by
  apply record_stable (by decide)
  intro depth deep entries registry read
  simp only [bind_eq_ok_iff, return_eq_ok_iff] at read ⊢
  obtain ⟨kinds, readKinds, pointerWidth, readWidth, rfl⟩ := read
  obtain ⟨inner, rfl⟩ : ∃ inner, depth = inner + 1 := Nat.exists_eq_add_of_le' (by omega)
  have keptKinds := Fields.kept_optional (list_stable TypeKind.decode_stable) deep
    (.arr []) rfl readKinds
  have keptWidth := Fields.kept_optional (natBelow_stable _) (Nat.zero_le _) (.ofNat 32) rfl
    readWidth
  exact ⟨_, rfl, .refl _, kinds, keptKinds, pointerWidth, keptWidth, rfl⟩

/-! ### Values -/

namespace Value

theorem itemsToJson_eq_map (items : List Value) : itemsToJson items = items.map toJson := by
  induction items with
  | nil => rfl
  | cons item items ih => rw [itemsToJson, ih, List.map_cons]

theorem fieldsToJson_eq_map (fields : List (String × Value)) :
    fieldsToJson fields = fields.map fun field => (field.1, toJson field.2) := by
  induction fields with
  | nil => rfl
  | cons field fields ih => rw [fieldsToJson, ih, List.map_cons]

theorem decodeScalar_stable : Stable 1 decodeScalar (By toJson) := by
  unfold decodeScalar Decoder.variant
  refine variantWith_stable ?_ ?_
  · exact List.forall_mem_nil _
  · simp only [List.forall_mem_cons]
    exact ⟨int64_stable.tagged Value.int fun _ => rfl,
      double_stable.tagged Value.float fun _ => rfl,
      (option_stable string_stable nofun).tagged Value.pointer fun _ => rfl,
      List.forall_mem_nil _⟩

theorem decode_tagged {tag : String} (notArray : tag ≠ "Array") (notStruct : tag ≠ "Struct")
    (depth : Nat) (content : Json) :
    decode depth (.tagged tag content) = decodeScalar depth (.tagged tag content) := by
  rw [tagged, decode]
  · intro _ _ _ same
    simp only [obj.injEq, List.cons.injEq, Prod.mk.injEq] at same
    exact notArray same.1.1
  · intro _ _ _ same
    simp only [obj.injEq, List.cons.injEq, Prod.mk.injEq] at same
    exact notStruct same.1.1

/-- A value without parts can be read again as a value. -/
theorem decode_of_decodeScalar {depth : Nat} {value : Value}
    (read : decodeScalar depth value.toJson = .ok value) :
    decode depth value.toJson = .ok value := by
  cases value with
  | int | float | pointer => exact (decode_tagged (by decide) (by decide) _ _).trans read
  | array | struct => cases depth <;> cases read

theorem decode_stable : Stable 0 decode (By toJson) := by
  apply Stable.of_kept
  intro depth deep json value read
  clear deep
  -- Each array and each struct takes two levels, so the parts are read two levels further down.
  induction depth using Nat.strongRecOn generalizing json value with
  | ind depth ih =>
      unfold decode at read
      split at read
      · next inner items =>
          obtain ⟨values, readItems, rest⟩ := bind_eq_ok_iff.mp read
          obtain rfl := return_eq_ok_iff.mp rest
          rw [toJson, tagged, itemsToJson_eq_map, decode, mapM_map_eq_ok]
          · rfl
          · intro value member
            obtain ⟨item, readItem⟩ := exists_of_mapM_eq_ok readItems value member
            exact ih inner (by omega) item value readItem
      · next inner entries =>
          obtain ⟨fields, readFields, rest⟩ := bind_eq_ok_iff.mp read
          obtain rfl := return_eq_ok_iff.mp rest
          rw [ofFields, toJson, tagged, fieldsToJson_eq_map, decode, mapM_map_eq_ok]
          · exact congrArg (fun dict : Dict Value => Except.ok (Value.struct dict.entries))
              (Dict.ofList_entries _)
          · intro field member
            obtain ⟨entry, readEntry⟩ :=
              exists_of_mapM_eq_ok readFields field (Dict.mem_of_mem_ofList member)
            obtain ⟨value, readValue, same⟩ := bind_eq_ok_iff.mp readEntry
            obtain rfl := return_eq_ok_iff.mp same
            exact bind_eq_ok_iff.mpr ⟨value, ih inner (by omega) _ value readValue, rfl⟩
      · apply decode_of_decodeScalar
        cases depth with
        | zero =>
            unfold decodeScalar Decoder.variant variantWith at read
            split at read <;> cases read
        | succ depth => exact decodeScalar_stable.kept (Nat.le_add_left _ _) read

end Value

theorem TypedValue.decode_stable : Stable 1 TypedValue.decode (By TypedValue.toJson) := by
  apply record_stable (by decide)
  intro depth deep entries typed read
  simp only [bind_eq_ok_iff, return_eq_ok_iff] at read ⊢
  obtain ⟨type, readType, value, readValue, rfl⟩ := read
  have keptType := Fields.kept_required TypeId.decode_stable deep readType
  have keptValue := Fields.kept_required Value.decode_stable deep readValue
  exact ⟨_, rfl, .refl _, type, keptType, value, keptValue, rfl⟩

/-! ### Templates -/

theorem Binding.decode_stable : Stable 2 Binding.decode (By Binding.toJson) := by
  unfold Binding.decode Decoder.variant
  refine variantWith_stable ?_ ?_
  · exact List.forall_mem_nil _
  · simp only [List.forall_mem_cons]
    have textStable := string_stable.mono (Nat.zero_le 1)
    exact ⟨textStable.tagged Binding.name fun _ => rfl,
      (int64_stable.mono (Nat.zero_le 1)).tagged Binding.int fun _ => rfl,
      (double_stable.mono (Nat.zero_le 1)).tagged Binding.float fun _ => rfl,
      (list_stable int64_stable).tagged Binding.ints fun _ => rfl,
      textStable.tagged Binding.code fun _ => rfl, List.forall_mem_nil _⟩

theorem Bindings.decode_stable : Stable 3 Bindings.decode (By Bindings.toJson) :=
  dict_stable Binding.decode_stable

theorem Indirection.decode_stable (lenient : Bool) :
    Stable 1 (Indirection.decode lenient) (By Indirection.toJson) := by
  apply variantWith_stable
  · simp [Indirection.toJson, Dict.search]
  · simp only [List.forall_mem_cons]
    exact ⟨string_stable.tagged Indirection.index fun _ => rfl, List.forall_mem_nil _⟩

namespace Template

variable (lenient : Bool)

theorem decode_stable : Stable 4 (decode lenient) (By toJson) := by
  apply record_stable (by decide)
  intro depth deep entries template read
  simp only [bind_eq_ok_iff, return_eq_ok_iff] at read ⊢
  obtain ⟨source, readSource, indirections, readIndirections, rfl⟩ := read
  obtain ⟨inner, rfl⟩ : ∃ inner, depth = inner + 1 := Nat.exists_eq_add_of_le' (by omega)
  have keptSource := Fields.kept_required string_stable (Nat.zero_le _) readSource
  have keptIndirections := Fields.kept_optional
    (dict_stable (list_stable (Indirection.decode_stable lenient))) deep (.obj []) rfl
    readIndirections
  exact ⟨_, rfl, .refl _, source, keptSource, indirections, keptIndirections, rfl⟩

/-- A template without indirections is read from its source. -/
theorem decode_source (depth : Nat) (source : String) :
    decode lenient (depth + 1) (.obj [("source", .str source)]) = .ok { source } := rfl

theorem fits_toJson (template : Template) : template.toJson.Fits 4 := by
  have indirectionFits : ∀ indirection : Indirection, indirection.toJson.Fits 1 := by
    intro indirection
    cases indirection with
    | deref => exact (Fits.str _).mono (Nat.zero_le _)
    | index subscript => exact .obj (List.forall_mem_singleton.mpr (.str subscript))
  apply Fits.obj
  simp only [List.forall_mem_cons]
  refine ⟨(Fits.str _).mono (Nat.zero_le _), ?_, List.forall_mem_nil _⟩
  exact .ofDict (Fits.ofList indirectionFits) _

end Template

/-! ### Tilings -/

theorem AddressRange.decode_stable : Stable 1 AddressRange.decode (By AddressRange.toJson) := by
  apply record_stable (by decide)
  intro depth deep entries range read
  simp only [bind_eq_ok_iff, return_eq_ok_iff] at read ⊢
  obtain ⟨offset, readOffset, length, readLength, rfl⟩ := read
  have keptOffset := Fields.kept_required (natBelow_stable _) deep readOffset
  have keptLength := Fields.kept_required (natBelow_stable _) deep readLength
  exact ⟨_, rfl, .refl _, offset, keptOffset, length, keptLength, rfl⟩

namespace MemoryConstraint

theorem decodeLevels_stable : Stable 3 decodeLevels (By levelsToJson) := by
  apply record_stable (by decide)
  intro depth deep entries levels read
  exact ⟨_, rfl, .refl _, Fields.kept_required (dict_stable AddressRange.decode_stable) deep read⟩

theorem decode_stable : Stable 5 decode (By toJson) := by
  apply record_stable (by decide)
  intro depth deep entries constraint read
  simp only [bind_eq_ok_iff, return_eq_ok_iff] at read ⊢
  obtain ⟨tensors, readTensors, rfl⟩ := read
  have keptTensors := Fields.kept_required (dict_stable decodeLevels_stable) deep readTensors
  exact ⟨_, rfl, .refl _, tensors, keptTensors, rfl⟩

end MemoryConstraint

namespace TileSchedule

theorem decode_stable : Stable 3 decode (By toJson) := by
  apply record_stable (by decide)
  intro depth deep entries schedule read
  simp only [bind_eq_ok_iff, return_eq_ok_iff] at read ⊢
  obtain ⟨inputs, readInputs, outputs, readOutputs, rfl⟩ := read
  obtain ⟨inner, rfl⟩ : ∃ inner, depth = inner + 1 := Nat.exists_eq_add_of_le' (by omega)
  have offsetsStable := dict_stable (list_stable (natBelow_stable (Nat.pow 2 64)))
  have keptInputs := Fields.kept_optional offsetsStable deep (.obj []) rfl readInputs
  have keptOutputs := Fields.kept_optional offsetsStable deep (.obj []) rfl readOutputs
  exact ⟨_, rfl, .refl _, inputs, keptInputs, outputs, keptOutputs, rfl⟩

theorem fits_toJson (schedule : TileSchedule) : schedule.toJson.Fits 3 := by
  have offsetsFit := fun offsets =>
    Fits.ofDict (Fits.ofList fun number : Nat => Fits.int number) offsets
  apply Fits.obj
  simp only [List.forall_mem_cons]
  exact ⟨offsetsFit _, offsetsFit _, List.forall_mem_nil _⟩

end TileSchedule

namespace TileScheme

theorem decode_stable : Stable 3 decode (By toJson) := by
  apply record_stable (by decide)
  intro depth deep entries scheme read
  simp only [bind_eq_ok_iff, return_eq_ok_iff] at read ⊢
  obtain ⟨perTile, readPerTile, types, readTypes, rfl⟩ := read
  obtain ⟨inner, rfl⟩ : ∃ inner, depth = inner + 1 := Nat.exists_eq_add_of_le' (by omega)
  have keptPerTile := Fields.kept_required (dict_stable (list_stable int64_stable)) deep readPerTile
  have keptTypes := Fields.kept_optional (dict_stable TypeId.decode_stable) (by omega) (.obj []) rfl
    readTypes
  exact ⟨_, rfl, .refl _, perTile, keptPerTile, types, keptTypes, rfl⟩

theorem fits_toJson (scheme : TileScheme) : scheme.toJson.Fits 3 := by
  apply Fits.obj
  simp only [List.forall_mem_cons]
  refine ⟨.ofDict (Fits.ofList Fits.int) _, ?_, List.forall_mem_nil _⟩
  exact (Fits.ofDict (fun type : TypeId => Fits.int type.index) _).mono (by decide)

end TileScheme

theorem Tiling.decode_stable : Stable 6 Tiling.decode (By Tiling.toJson) := by
  apply Stable.of_entered
  intro depth deep json tiling read
  unfold Tiling.decode at read
  split at read
  · rw [enter] at read
    simp only [bind_eq_ok_iff, return_eq_ok_iff] at read
    obtain ⟨_, -, fields, found, constraint, readConstraint, scheme, readScheme, schedules,
      readSchedules, rfl⟩ := read
    obtain ⟨known, rfl⟩ := Fields.eq_of_ofEntries found
    obtain ⟨inner, rfl⟩ : ∃ inner, depth = inner + 2 := Nat.exists_eq_add_of_le' (by omega)
    have keptConstraint := Fields.kept_required MemoryConstraint.decode_stable deep readConstraint
    have keptScheme := Fields.kept_optional TileScheme.decode_stable (by omega)
      (.obj [("per_tile", .obj [])]) rfl readScheme
    have keptSchedules := Fields.kept_optional (list_stable TileSchedule.decode_stable) (by omega)
      (.arr []) rfl readSchedules
    rw [Tiling.toJson, Tiling.decode, enter]
    simp only [bind_eq_ok_iff, return_eq_ok_iff]
    refine ⟨(), ?_, _, Fields.ofEntries_eq_ok (by decide) (.refl _), constraint, keptConstraint,
      scheme, keptScheme, schedules, keptSchedules, rfl⟩
    -- Only the constraint is not read whole.
    have whole : ∀ entry ∈ [("scheme", scheme.toJson),
        ("schedules", Json.ofList TileSchedule.toJson schedules)], entry.2.Fits 4 := by
      simp only [List.forall_mem_cons]
      exact ⟨scheme.fits_toJson.mono (by decide), .ofList TileSchedule.fits_toJson _,
        List.forall_mem_nil _⟩
    exact forM_eq_ok fun entry member => (whole entry member).readWhole_eq_ok (by omega)
  · cases read

/-! ### Passes -/

theorem LifetimeTemplates.decode_stable (lenient : Bool) :
    Stable 5 (LifetimeTemplates.decode lenient) (By LifetimeTemplates.toJson) := by
  apply record_stable (by decide)
  intro depth deep entries templates read
  simp only [bind_eq_ok_iff, return_eq_ok_iff] at read ⊢
  obtain ⟨alloc, readAlloc, dealloc, readDealloc, reference, readReference, usage, readUsage,
    rfl⟩ := read
  obtain ⟨inner, rfl⟩ : ∃ inner, depth = inner + 1 := Nat.exists_eq_add_of_le' (by omega)
  have stable := Template.decode_stable lenient
  have usual := Template.decode_source lenient inner
  have keptAlloc := Fields.kept_optional stable deep _ (usual _) readAlloc
  have keptDealloc := Fields.kept_optional stable deep _ (usual _) readDealloc
  have keptReference := Fields.kept_optional stable deep _ (usual _) readReference
  have keptUsage := Fields.kept_optional stable deep _ (usual _) readUsage
  exact ⟨_, rfl, .refl _, alloc, keptAlloc, dealloc, keptDealloc, reference, keptReference, usage,
    keptUsage, rfl⟩

theorem FutureTemplates.decode_stable :
    Stable 5 FutureTemplates.decode (By FutureTemplates.toJson) := by
  apply record_stable (by decide)
  intro depth deep entries templates read
  simp only [bind_eq_ok_iff, return_eq_ok_iff] at read ⊢
  obtain ⟨dispatch, readDispatch, resolve, readResolve, rfl⟩ := read
  obtain ⟨inner, rfl⟩ : ∃ inner, depth = inner + 1 := Nat.exists_eq_add_of_le' (by omega)
  have stable := Template.decode_stable true
  have usual := Template.decode_source true inner
  have keptDispatch := Fields.kept_optional stable deep _ (usual _) readDispatch
  have keptResolve := Fields.kept_optional stable deep _ (usual _) readResolve
  exact ⟨_, rfl, .refl _, dispatch, keptDispatch, resolve, keptResolve, rfl⟩

theorem ClosureTemplates.decode_stable :
    Stable 5 ClosureTemplates.decode (By ClosureTemplates.toJson) := by
  apply record_stable (by decide)
  intro depth deep entries templates read
  simp only [bind_eq_ok_iff, return_eq_ok_iff] at read ⊢
  obtain ⟨struct, readStruct, function, readFunction, call, readCall, writeBack, readWriteBack,
    rfl⟩ := read
  obtain ⟨inner, rfl⟩ : ∃ inner, depth = inner + 1 := Nat.exists_eq_add_of_le' (by omega)
  have stable := Template.decode_stable true
  have usual := Template.decode_source true inner
  have keptStruct := Fields.kept_optional stable deep _ (usual _) readStruct
  have keptFunction := Fields.kept_optional stable deep _ (usual _) readFunction
  have keptCall := Fields.kept_optional stable deep _ (usual _) readCall
  have keptWriteBack := Fields.kept_optional stable deep _ (usual _) readWriteBack
  exact ⟨_, rfl, .refl _, struct, keptStruct, function, keptFunction, call, keptCall, writeBack,
    keptWriteBack, rfl⟩

theorem LevelWindow.decode_stable : Stable 1 LevelWindow.decode (By LevelWindow.toJson) := by
  apply record_stable (by decide)
  intro depth deep entries window read
  simp only [bind_eq_ok_iff, return_eq_ok_iff] at read ⊢
  obtain ⟨start, readStart, stop, readStop, rfl⟩ := read
  have keptStart := Fields.kept_required string_stable deep readStart
  have keptStop := Fields.kept_required string_stable deep readStop
  exact ⟨_, rfl, .refl _, start, keptStart, stop, keptStop, rfl⟩

theorem Template.fits_obj (templates : List (String × Template)) :
    (Json.obj (templates.map fun entry => (entry.1, entry.2.toJson))).Fits 5 := by
  apply Fits.obj
  intro entry member
  obtain ⟨template, -, rfl⟩ := List.mem_map.mp member
  exact template.2.fits_toJson

theorem LifetimeTemplates.fits_toJson (templates : LifetimeTemplates) :
    templates.toJson.Fits 5 :=
  Template.fits_obj [("alloc", templates.alloc), ("dealloc", templates.dealloc),
    ("reference", templates.reference), ("annotation", templates.usage)]

namespace Pass

/-- A form is stable for a tag: a pass that it makes has the tag, and is made again from its
options as they are written. -/
structure FormStable (tag : String) (form : Form) : Prop where
  distinct : form.names.Nodup
  untagged : "pass" ∉ form.names
  again : ∀ depth, 5 ≤ depth → ∀ entries pass, form.body ⟨depth, entries⟩ = .ok pass →
    pass.tag = tag ∧ (pass.optionsToJson.map Prod.fst).Sublist form.names ∧
    (∀ option ∈ pass.optionsToJson, option.2.Fits 5) ∧
    form.body ⟨depth, pass.optionsToJson⟩ = .ok pass

theorem tileViewsForm_stable : FormStable PassKind.tileViews.name tileViewsForm where
  distinct := by decide
  untagged := by decide
  again depth deep entries pass read := by
    simp only [tileViewsForm, bind_eq_ok_iff, return_eq_ok_iff] at read ⊢
    obtain ⟨level, readLevel, rfl⟩ := read
    have keptLevel := Fields.kept_required string_stable (Nat.zero_le _) readLevel
    refine ⟨rfl, .refl _, ?_, level, keptLevel, rfl⟩
    exact List.forall_mem_singleton.mpr ((Fits.str level).mono (by decide))

theorem tileLoopForm_stable : FormStable PassKind.tileLoop.name tileLoopForm where
  distinct := by decide
  untagged := by decide
  again depth deep entries pass read := by
    simp only [tileLoopForm, bind_eq_ok_iff, return_eq_ok_iff] at read ⊢
    obtain ⟨transfers, readTransfers, opening, readOpening, closing, readClosing, rfl⟩ := read
    have lineStable := option_stable string_stable nofun
    have keptTransfers := Fields.kept_optional bool_stable (Nat.zero_le _) (.bool false) rfl
      readTransfers
    have keptOpening := Fields.kept_optional lineStable (Nat.zero_le _) .null rfl readOpening
    have keptClosing := Fields.kept_optional lineStable (Nat.zero_le _) .null rfl readClosing
    refine ⟨rfl, .refl _, ?_, transfers, keptTransfers, opening, keptOpening, closing, keptClosing,
      rfl⟩
    simp only [optionsToJson, List.forall_mem_cons]
    exact ⟨(Fits.bool _).mono (by decide), (Fits.ofOption Fits.str _).mono (by decide),
      (Fits.ofOption Fits.str _).mono (by decide), List.forall_mem_nil _⟩

theorem futuresForm_stable : FormStable PassKind.futures.name futuresForm where
  distinct := by decide
  untagged := by decide
  again depth deep entries pass read := by
    simp only [futuresForm, bind_eq_ok_iff, return_eq_ok_iff] at read ⊢
    obtain ⟨templates, readTemplates, rfl⟩ := read
    obtain ⟨inner, rfl⟩ : ∃ inner, depth = inner + 1 := Nat.exists_eq_add_of_le' (by omega)
    have keptTemplates := Fields.kept_optional FutureTemplates.decode_stable deep (.obj []) rfl
      readTemplates
    refine ⟨rfl, .refl _, ?_, templates, keptTemplates, rfl⟩
    exact List.forall_mem_singleton.mpr
      (Template.fits_obj [("dispatch", templates.dispatch), ("resolve", templates.resolve)])

theorem closuresForm_stable : FormStable PassKind.closures.name closuresForm where
  distinct := by decide
  untagged := by decide
  again depth deep entries pass read := by
    simp only [closuresForm, bind_eq_ok_iff, return_eq_ok_iff] at read ⊢
    obtain ⟨writeBack, readWriteBack, window, readWindow, templates, readTemplates, memory,
      readMemory, rfl⟩ := read
    obtain ⟨inner, rfl⟩ : ∃ inner, depth = inner + 1 := Nat.exists_eq_add_of_le' (by omega)
    have keptWriteBack := Fields.kept_optional bool_stable (Nat.zero_le _) (.bool false) rfl
      readWriteBack
    have keptWindow := Fields.kept_optional (option_stable LevelWindow.decode_stable nofun)
      (by omega) .null rfl readWindow
    have keptTemplates := Fields.kept_optional ClosureTemplates.decode_stable deep (.obj []) rfl
      readTemplates
    have keptMemory := Fields.kept_optional (LifetimeTemplates.decode_stable true) deep (.obj [])
      rfl readMemory
    refine ⟨rfl, .refl _, ?_, writeBack, keptWriteBack, window, keptWindow, templates,
      keptTemplates, memory, keptMemory, rfl⟩
    have windowFits : ∀ window : LevelWindow, window.toJson.Fits 1 := by
      intro window
      apply Fits.obj
      simp only [List.forall_mem_cons]
      exact ⟨.str _, .str _, List.forall_mem_nil _⟩
    simp only [optionsToJson, List.forall_mem_cons]
    exact ⟨(Fits.bool _).mono (by decide), (Fits.ofOption windowFits _).mono (by decide),
      Template.fits_obj [("structure", templates.struct), ("function", templates.function),
        ("call", templates.call), ("write_back", templates.writeBack)],
      memory.fits_toJson, List.forall_mem_nil _⟩

theorem structsForm_stable : FormStable PassKind.structs.name structsForm where
  distinct := by decide
  untagged := by decide
  again depth deep entries pass read := by
    simp only [structsForm, bind_eq_ok_iff, return_eq_ok_iff] at read ⊢
    obtain ⟨template, readTemplate, rfl⟩ := read
    have keptTemplate := Fields.kept_optional (option_stable string_stable nofun) (Nat.zero_le _)
      .null rfl readTemplate
    refine ⟨rfl, .refl _, ?_, template, keptTemplate, rfl⟩
    exact List.forall_mem_singleton.mpr ((Fits.ofOption Fits.str _).mono (by decide))

theorem lifetimesForm_stable : FormStable PassKind.lifetimes.name lifetimesForm where
  distinct := by decide
  untagged := by decide
  again depth deep entries pass read := by
    simp only [lifetimesForm, bind_eq_ok_iff, return_eq_ok_iff] at read ⊢
    obtain ⟨templates, readTemplates, rfl⟩ := read
    obtain ⟨inner, rfl⟩ : ∃ inner, depth = inner + 1 := Nat.exists_eq_add_of_le' (by omega)
    have keptTemplates := Fields.kept_optional (LifetimeTemplates.decode_stable true) deep
      (.obj []) rfl readTemplates
    refine ⟨rfl, .refl _, ?_, templates, keptTemplates, rfl⟩
    exact List.forall_mem_singleton.mpr templates.fits_toJson

theorem plainForm_stable (pass : Pass) (plain : pass.optionsToJson = []) :
    FormStable pass.tag (plainForm pass) where
  distinct := .nil
  untagged := List.not_mem_nil
  again depth deep entries made read := by
    cases read
    rw [plain]
    exact ⟨rfl, .refl _, List.forall_mem_nil _, rfl⟩

theorem forms_stable : ∀ entry ∈ forms, FormStable entry.1 entry.2 := by
  simp only [forms, List.forall_mem_cons]
  exact ⟨tileViewsForm_stable, plainForm_stable .tileUpdates rfl, tileLoopForm_stable,
    futuresForm_stable, closuresForm_stable, structsForm_stable, lifetimesForm_stable,
    plainForm_stable .bookkeeping rfl, List.forall_mem_nil _⟩

/-- A pass that is read is made by the form of a tag. -/
theorem exists_form_of_decode {depth : Nat} {json : Json} {pass : Pass}
    (read : decode (depth + 1) json = .ok pass) :
    ∃ tag form entries, Dict.search tag forms = some form ∧
      form.body ⟨depth, entries⟩ = .ok pass := by
  have known : ∀ {json form}, formOf json = .ok form →
      ∃ tag, Dict.search tag forms = some form := by
    intro json form found
    unfold formOf at found
    split at found
    · next tag =>
        split at found
        · next known => cases found; exact ⟨tag, known⟩
        · cases found
    · cases found
  unfold decode at read
  split at read
  · rw [enter] at read
    simp only [bind_eq_ok_iff] at read
    obtain ⟨tagJson, -, form, formFound, _, -, fields, fieldsFound, made⟩ := read
    obtain ⟨entries, rfl⟩ := Fields.eq_of_ofEntries fieldsFound
    obtain ⟨tag, tagFound⟩ := known formFound
    exact ⟨tag, form, entries, tagFound, made⟩
  · rw [enter] at read
    simp only [bind_eq_ok_iff] at read
    obtain ⟨form, formFound, _, -, fields, fieldsFound, made⟩ := read
    obtain ⟨entries, rfl⟩ := Fields.eq_of_ofItems fieldsFound
    obtain ⟨tag, tagFound⟩ := known formFound
    exact ⟨tag, form, entries, tagFound, made⟩
  · cases read

theorem decode_stable : Stable 6 decode (By toJson) := by
  apply Stable.of_entered
  intro depth deep json pass read
  obtain ⟨tag, form, entries, found, made⟩ := exists_form_of_decode read
  have stable := forms_stable _ (Dict.mem_of_search found)
  obtain ⟨tagged, known, fit, again⟩ := stable.again depth deep entries pass made
  have untagged : ∀ option ∈ pass.optionsToJson, option.1 ≠ "pass" := by
    intro option member isTag
    exact stable.untagged (isTag ▸ known.subset (List.mem_map_of_mem member))
  have tagOnce : tagOf (("pass", .str tag) :: pass.optionsToJson) = .ok (.str tag) := by
    have none : pass.optionsToJson.filter (·.1 = "pass") = [] := by
      rw [List.filter_eq_nil_iff]
      intro option member isTag
      exact untagged option member (of_decide_eq_true isTag)
    rw [tagOf, List.filter_cons_of_pos (by simp), none]
  have formFound : formOf (.str tag) = .ok form := by
    rw [formOf, found]
  have options : (("pass", .str tag) :: pass.optionsToJson).filter (·.1 ≠ "pass") =
      pass.optionsToJson := by
    rw [List.filter_cons_of_neg (by simp), List.filter_eq_self]
    intro option member
    exact decide_eq_true (untagged option member)
  rw [toJson, tagged, decode, enter]
  simp only [bind_eq_ok_iff, options]
  refine ⟨_, tagOnce, form, formFound, (), ?_, _,
    Fields.ofEntries_eq_ok stable.distinct known, again⟩
  exact forM_eq_ok fun option member => (fit option member).readWhole_eq_ok deep

end Pass

end TensorLowering
