import TensorLowering.Json.Decode
import TensorLowering.Json.Encode
import TensorLowering.Proofs.Dictionaries

/-! # Stable decoders

A decoder is stable for a way of writing values if it reads every value that it ever reads again
from the written form (`TensorLowering.Json.Decoder.Stable`). Written forms may be deeper than
the form that was read first, because defaults are written out, so a stable decoder needs some
levels of nesting to be left. Decoders of lists, dictionaries, cases and records of stable parts
are stable.
-/

namespace TensorLowering

namespace Json

/-! ### Successful readings -/

section Readings

variable {ε α β : Type}

theorem bind_eq_ok_iff {first : Except ε α} {next : α → Except ε β} {result : β} :
    (first >>= next) = .ok result ↔ ∃ answer, first = .ok answer ∧ next answer = .ok result := by
  cases first <;> simp [bind, Except.bind]

theorem return_eq_ok_iff {answer result : α} :
    (pure answer : Except ε α) = .ok result ↔ answer = result := by
  simp [pure, Except.pure]

theorem exists_of_mapM_eq_ok {read : α → Except ε β} {items : List α} {values : List β}
    (ran : items.mapM read = .ok values) : ∀ value ∈ values, ∃ item, read item = .ok value := by
  induction items generalizing values with
  | nil =>
      obtain rfl := return_eq_ok_iff.mp ran
      exact List.forall_mem_nil _
  | cons item items ih =>
      rw [List.mapM_cons, bind_eq_ok_iff] at ran
      obtain ⟨value, readItem, rest⟩ := ran
      obtain ⟨later, readLater, rest⟩ := bind_eq_ok_iff.mp rest
      obtain rfl := return_eq_ok_iff.mp rest
      exact List.forall_mem_cons.mpr ⟨⟨item, readItem⟩, ih readLater⟩

theorem exists_of_mem_of_mapM_eq_ok {read : α → Except ε β} {items : List α} {values : List β}
    (ran : items.mapM read = .ok values) :
    ∀ item ∈ items, ∃ value ∈ values, read item = .ok value := by
  induction items generalizing values with
  | nil => exact List.forall_mem_nil _
  | cons item items ih =>
      rw [List.mapM_cons, bind_eq_ok_iff] at ran
      obtain ⟨value, readItem, rest⟩ := ran
      obtain ⟨later, readLater, rest⟩ := bind_eq_ok_iff.mp rest
      obtain rfl := return_eq_ok_iff.mp rest
      refine List.forall_mem_cons.mpr
        ⟨⟨value, List.mem_cons_self, readItem⟩, fun other member => ?_⟩
      obtain ⟨found, listed, readOther⟩ := ih readLater other member
      exact ⟨found, List.mem_cons_of_mem _ listed, readOther⟩

theorem mapM_map_eq_ok {read : α → Except ε β} {write : β → α} {values : List β}
    (kept : ∀ value ∈ values, read (write value) = .ok value) :
    (values.map write).mapM read = .ok values := by
  induction values with
  | nil => rfl
  | cons value values ih =>
      obtain ⟨head, tail⟩ := List.forall_mem_cons.mp kept
      rw [List.map_cons, List.mapM_cons, head, ih tail]
      rfl

theorem forM_eq_ok {check : α → Except ε Unit} {items : List α}
    (passes : ∀ item ∈ items, check item = .ok ()) : items.forM check = .ok () := by
  induction items with
  | nil => rfl
  | cons item items ih =>
      obtain ⟨head, tail⟩ := List.forall_mem_cons.mp passes
      rw [List.forM, head]
      exact ih tail

theorem forM_eq_ok_iff {check : α → Except ε Unit} {items : List α} :
    items.forM check = .ok () ↔ ∀ item ∈ items, check item = .ok () := by
  refine ⟨fun ran => ?_, forM_eq_ok⟩
  induction items with
  | nil => exact List.forall_mem_nil _
  | cons item items ih =>
      obtain ⟨_, head, tail⟩ := bind_eq_ok_iff.mp ran
      exact List.forall_mem_cons.mpr ⟨head, ih tail⟩

end Readings

namespace Decoder

variable {α β : Type} {needed : Nat}

/-- Whatever a decoder reads with at least `needed` levels left, it reads again from a form in
which the value is written. -/
def Stable (needed : Nat) (decoder : Decoder α) (written : α → Json → Prop) : Prop :=
  ∀ depth, needed ≤ depth → ∀ json value, decoder depth json = .ok value →
    ∃ form, written value form ∧ decoder depth form = .ok value

/-- Values are written by a function. -/
def By (encode : α → Json) (value : α) (form : Json) : Prop := form = encode value

namespace Stable

variable {decoder : Decoder α} {written : α → Json → Prop} {encode : α → Json}

theorem of_kept (kept : ∀ depth, needed ≤ depth → ∀ json value, decoder depth json = .ok value →
    decoder depth (encode value) = .ok value) : Stable needed decoder (By encode) := by
  intro depth deep json value read
  exact ⟨encode value, rfl, kept depth deep json value read⟩

/-- A decoder that enters a level is stable if it is so with one level left. -/
theorem of_entered (kept : ∀ depth, needed ≤ depth → ∀ json value,
    decoder (depth + 1) json = .ok value → decoder (depth + 1) (encode value) = .ok value) :
    Stable (needed + 1) decoder (By encode) := by
  apply of_kept
  intro depth deep json value read
  cases depth with
  | zero => exact absurd deep (Nat.not_succ_le_zero needed)
  | succ depth => exact kept depth (Nat.le_of_succ_le_succ deep) json value read

theorem kept (stable : Stable needed decoder (By encode)) {depth : Nat} (deep : needed ≤ depth)
    {json : Json} {value : α} (read : decoder depth json = .ok value) :
    decoder depth (encode value) = .ok value := by
  obtain ⟨form, rfl, again⟩ := stable depth deep json value read
  exact again

theorem mono (stable : Stable needed decoder written) {more : Nat} (less : needed ≤ more) :
    Stable more decoder written :=
  fun depth deep => stable depth (Nat.le_trans less deep)

theorem imp (stable : Stable needed decoder written) {others : α → Json → Prop}
    (weaker : ∀ value form, written value form → others value form) :
    Stable needed decoder others := by
  intro depth deep json value read
  obtain ⟨form, isWritten, again⟩ := stable depth deep json value read
  exact ⟨form, weaker value form isWritten, again⟩

/-- A value that is made of a stable part is written as the part. -/
theorem map (stable : Stable needed decoder written) (make : α → β) :
    Stable needed (fun depth json => return make (← decoder depth json))
      (fun value form => ∃ part, value = make part ∧ written part form) := by
  intro depth deep json value read
  obtain ⟨part, readPart, rest⟩ := bind_eq_ok_iff.mp read
  obtain rfl := return_eq_ok_iff.mp rest
  obtain ⟨form, isWritten, again⟩ := stable depth deep json part readPart
  refine ⟨form, ⟨part, rfl, isWritten⟩, ?_⟩
  exact bind_eq_ok_iff.mpr ⟨part, again, rfl⟩

/-- A case with one stable part is written as its tag with the part. -/
theorem tagged (stable : Stable needed decoder (By encode)) (make : α → β) {tag : String}
    {encodeCase : β → Json}
    (isTagged : ∀ part, encodeCase (make part) = .tagged tag (encode part)) :
    Stable needed (fun depth json => return make (← decoder depth json))
      (fun value form => encodeCase value = .tagged tag form) := by
  apply (stable.map make).imp
  rintro _ _ ⟨part, rfl, rfl⟩
  exact isTagged part

end Stable

/-! ### Leaves -/

theorem string_stable : Stable 0 string (By .str) :=
  .of_kept fun _ _ _ _ _ => rfl

theorem bool_stable : Stable 0 bool (By .bool) :=
  .of_kept fun _ _ _ _ _ => rfl

theorem double_stable : Stable 0 double (By .float) :=
  .of_kept fun _ _ _ _ _ => rfl

theorem lt_of_natBelow {limit depth value : Nat} {json : Json}
    (read : natBelow limit depth json = .ok value) : value < limit := by
  unfold natBelow at read
  split at read
  · split at read
    · next below => exact Except.ok.inj read ▸ below
    · cases read
  · cases read

theorem natBelow_stable (limit : Nat) : Stable 0 (natBelow limit) (By .ofNat) :=
  .of_kept fun _ _ _ _ read => if_pos (lt_of_natBelow read)

theorem int64_stable : Stable 0 int64 (By .int) := by
  apply Stable.of_kept
  intro depth _ json value read
  unfold int64 at read
  split at read
  · split at read
    · next within =>
        cases read
        exact if_pos within
    · cases read
  · cases read

/-! ### Lists and dictionaries -/

section Collections

variable {decoder : Decoder α} {encode : α → Json}

theorem option_stable (stable : Stable needed decoder (By encode))
    (notNull : ∀ value, encode value ≠ .null) :
    Stable needed (option decoder) (By (ofOption encode)) := by
  have present : ∀ depth value, option decoder depth (encode value) =
      (decoder depth (encode value)).map some := by
    intro depth value
    rw [option]
    exact notNull value
  apply Stable.of_kept
  intro depth deep json value read
  unfold option at read
  split at read
  · cases read
    rfl
  · cases readPart : decoder depth json with
    | error fault => rw [readPart] at read; cases read
    | ok part =>
        rw [readPart] at read
        cases read
        change option decoder depth (encode part) = _
        rw [present, stable.kept deep readPart]
        rfl

/-- The items of an array are read one level down. -/
theorem exists_of_list {depth : Nat} {json : Json} {values : List α}
    (read : list decoder depth json = .ok values) :
    ∀ value ∈ values, ∃ inner item, depth = inner + 1 ∧ decoder inner item = .ok value := by
  intro value member
  unfold list at read
  split at read
  · cases depth with
    | zero => cases read
    | succ depth =>
        obtain ⟨item, readItem⟩ := exists_of_mapM_eq_ok read value member
        exact ⟨depth, item, rfl, readItem⟩
  · cases read

theorem list_stable (stable : Stable needed decoder (By encode)) :
    Stable (needed + 1) (list decoder) (By (ofList encode)) := by
  apply Stable.of_entered
  intro depth deep json values read
  apply mapM_map_eq_ok
  intro value member
  obtain ⟨inner, item, level, readItem⟩ := exists_of_list read value member
  cases level
  exact stable.kept deep readItem

theorem pair_stable {second : Decoder β} {encodeSecond : β → Json}
    (stable : Stable needed decoder (By encode))
    (secondStable : Stable needed second (By encodeSecond)) :
    Stable (needed + 1) (pair decoder second)
      (By fun value => .arr [encode value.1, encodeSecond value.2]) := by
  apply Stable.of_entered
  intro depth deep json value read
  unfold pair at read
  split at read
  · rw [enter] at read
    obtain ⟨first, readFirst, rest⟩ := bind_eq_ok_iff.mp read
    obtain ⟨other, readOther, rest⟩ := bind_eq_ok_iff.mp rest
    obtain rfl := return_eq_ok_iff.mp rest
    rw [pair, enter, stable.kept deep readFirst, secondStable.kept deep readOther]
    rfl
  · cases read

theorem dict_stable (stable : Stable needed decoder (By encode)) :
    Stable (needed + 1) (dict decoder) (By (ofDict encode)) := by
  apply Stable.of_entered
  intro depth deep json values read
  unfold dict at read
  split at read
  · rw [enter] at read
    obtain ⟨entries, readEntries, rest⟩ := bind_eq_ok_iff.mp read
    obtain rfl := return_eq_ok_iff.mp rest
    rw [ofDict, dict, enter, mapM_map_eq_ok]
    · exact congrArg Except.ok (Dict.ofList_entries _)
    · intro entry member
      obtain ⟨item, readItem⟩ :=
        exists_of_mapM_eq_ok readEntries entry (Dict.mem_of_mem_ofList member)
      obtain ⟨value, readValue, same⟩ := bind_eq_ok_iff.mp readItem
      obtain rfl := return_eq_ok_iff.mp same
      exact bind_eq_ok_iff.mpr ⟨value, stable.kept deep readValue, rfl⟩
  · cases read

end Collections

/-! ### Cases -/

/-- A case is a plain one, or its decoder has read it one level down. -/
theorem exists_of_variantWith {lenient : Bool} {plain : List (String × α)}
    {cases : List (String × Decoder α)} {depth : Nat} {json : Json} {value : α}
    (read : variantWith lenient plain cases depth json = .ok value) :
    (∃ tag, Dict.search tag plain = some value) ∨
      ∃ tag decoder inner content, depth = inner + 1 ∧ Dict.search tag plain = none ∧
        Dict.search tag cases = some decoder ∧ decoder inner content = .ok value := by
  unfold variantWith at read
  split at read
  · next tag =>
      cases found : Dict.search tag plain with
      | none => rw [found] at read; cases read
      | some known =>
          rw [found] at read
          cases read
          exact .inl ⟨tag, found⟩
  · next tag content =>
      cases depth with
      | zero => cases read
      | succ depth =>
          rw [enter] at read
          cases found : Dict.search tag plain with
          | some known =>
              rw [found] at read
              dsimp only at read
              split at read
              · cases read
                exact .inl ⟨tag, found⟩
              · cases read
          | none =>
              cases foundCase : Dict.search tag cases with
              | none => rw [found, foundCase] at read; cases read
              | some decoder =>
                  rw [found, foundCase] at read
                  exact .inr ⟨tag, decoder, depth, content, rfl, found, foundCase, read⟩
  · cases read

/-- Cases are stable if plain ones are written as their tags, and every other one as an object
from its tag to what its decoder reads again. -/
theorem variantWith_stable {lenient : Bool} {plain : List (String × α)}
    {cases : List (String × Decoder α)} {encode : α → Json}
    (plainWritten : ∀ entry ∈ plain, encode entry.2 = .str entry.1 ∧
      Dict.search entry.1 plain = some entry.2)
    (casesStable : ∀ entry ∈ cases, Stable needed entry.2
      fun value form => encode value = .tagged entry.1 form) :
    Stable (needed + 1) (variantWith lenient plain cases) (By encode) := by
  apply Stable.of_entered
  intro depth deep json value read
  rcases exists_of_variantWith read with
    ⟨tag, found⟩ | ⟨tag, decoder, inner, content, level, absent, found, readContent⟩
  · obtain ⟨isTag, again⟩ := plainWritten _ (Dict.mem_of_search found)
    rw [isTag, variantWith, again]
  · cases level
    obtain ⟨form, isWritten, again⟩ :=
      casesStable _ (Dict.mem_of_search found) depth deep content value readContent
    rw [isWritten, tagged, variantWith, enter, absent, found]
    exact again

end Decoder

/-! ### Records -/

theorem repeated?_eq_none {entries : List (String × Json)}
    (distinct : (entries.map Prod.fst).Nodup) : repeated? entries = none := by
  induction entries with
  | nil => rfl
  | cons entry rest ih =>
      rw [List.map_cons, List.nodup_cons] at distinct
      rw [repeated?, if_neg, ih distinct.2]
      intro again
      obtain ⟨other, member, same⟩ := List.any_eq_true.mp again
      exact distinct.1 (List.mem_map.mpr ⟨other, member, of_decide_eq_true same⟩)

namespace Fields

theorem ofEntries_eq_ok {depth : Nat} {names : List String} {entries : List (String × Json)}
    (distinct : names.Nodup) (known : (entries.map Prod.fst).Sublist names) :
    ofEntries depth names entries = .ok ⟨depth, entries⟩ := by
  have all : entries.filter (names.contains ·.1) = entries := by
    rw [List.filter_eq_self]
    intro entry member
    exact List.contains_iff_mem.mpr (known.subset (List.mem_map_of_mem member))
  rw [ofEntries, all, repeated?_eq_none (distinct.sublist known)]

theorem eq_of_ofEntries {depth : Nat} {names : List String} {entries : List (String × Json)}
    {fields : Fields} (found : ofEntries depth names entries = .ok fields) :
    ∃ known, fields = ⟨depth, known⟩ := by
  unfold ofEntries at found
  dsimp only at found
  split at found
  · cases found
  · cases found
    exact ⟨_, rfl⟩

theorem eq_of_ofItems {depth : Nat} {names : List String} {items : List Json} {fields : Fields}
    (found : ofItems depth names items = .ok fields) : ∃ known, fields = ⟨depth, known⟩ := by
  unfold ofItems at found
  split at found
  · cases found
  · cases found
    exact ⟨_, rfl⟩

variable {α : Type} {needed depth : Nat} {decoder : Decoder α} {encode : α → Json}
  {entries : List (String × Json)} {name : String} {value : α}

theorem exists_of_required (read : required ⟨depth, entries⟩ name decoder = .ok value) :
    ∃ json, decoder depth json = .ok value := by
  unfold required at read
  split at read
  · exact ⟨_, read⟩
  · cases read

/-- A field that is read can be read again. -/
theorem kept_required (stable : Decoder.Stable needed decoder (Decoder.By encode))
    (deep : needed ≤ depth)
    (read : required ⟨depth, entries⟩ name decoder = .ok value) :
    decoder depth (encode value) = .ok value := by
  obtain ⟨json, readJson⟩ := exists_of_required read
  exact stable.kept deep readJson

/-- A field with a default is read from a tree if the default can be. -/
theorem exists_of_optional {fallback : α} (source : Json)
    (readable : decoder depth source = .ok fallback)
    (read : optional ⟨depth, entries⟩ name fallback decoder = .ok value) :
    ∃ json, decoder depth json = .ok value := by
  unfold optional at read
  split at read
  · exact ⟨_, read⟩
  · cases read
    exact ⟨source, readable⟩

/-- A field with a default can be read again if the default can be read at all. -/
theorem kept_optional (stable : Decoder.Stable needed decoder (Decoder.By encode))
    (deep : needed ≤ depth) {fallback : α} (source : Json)
    (readable : decoder depth source = .ok fallback)
    (read : optional ⟨depth, entries⟩ name fallback decoder = .ok value) :
    decoder depth (encode value) = .ok value := by
  obtain ⟨json, readJson⟩ := exists_of_optional source readable read
  exact stable.kept deep readJson

end Fields

namespace Decoder

variable {α : Type} {depth : Nat} {names : List String} {body : Fields → Except Fault α}

/-- A record is made of fields, whether it was an object or an array. -/
theorem exists_of_record {json : Json} {value : α}
    (read : record names body (depth + 1) json = .ok value) :
    ∃ entries, body ⟨depth, entries⟩ = .ok value := by
  unfold record at read
  split at read
  · obtain ⟨fields, found, made⟩ := bind_eq_ok_iff.mp read
    obtain ⟨known, rfl⟩ := Fields.eq_of_ofEntries found
    exact ⟨known, made⟩
  · obtain ⟨fields, found, made⟩ := bind_eq_ok_iff.mp read
    obtain ⟨known, rfl⟩ := Fields.eq_of_ofItems found
    exact ⟨known, made⟩
  · cases read

theorem exists_fields_of_record {json : Json} {value : α}
    (read : record names body depth json = .ok value) : ∃ fields, body fields = .ok value := by
  cases depth with
  | zero =>
      unfold record at read
      split at read <;> cases read
  | succ depth =>
      obtain ⟨entries, made⟩ := exists_of_record read
      exact ⟨_, made⟩

theorem record_eq_ok {forms : List (String × Json)} {value : α}
    (made : body ⟨depth, forms⟩ = .ok value) (distinct : names.Nodup)
    (known : (forms.map Prod.fst).Sublist names) :
    record names body (depth + 1) (.obj forms) = .ok value := by
  rw [record, enter, Fields.ofEntries_eq_ok distinct known]
  exact made

/-- A record is stable if what its fields make can be made again from written fields. -/
theorem record_stable {needed : Nat} {written : α → Json → Prop} (distinct : names.Nodup)
    (again : ∀ depth, needed ≤ depth → ∀ entries value, body ⟨depth, entries⟩ = .ok value →
      ∃ forms, written value (.obj forms) ∧ (forms.map Prod.fst).Sublist names ∧
        body ⟨depth, forms⟩ = .ok value) :
    Stable (needed + 1) (record names body) written := by
  intro depth deep json value read
  cases depth with
  | zero => exact absurd deep (Nat.not_succ_le_zero needed)
  | succ depth =>
      obtain ⟨entries, made⟩ := exists_of_record read
      obtain ⟨forms, isWritten, known, remade⟩ :=
        again depth (Nat.le_of_succ_le_succ deep) entries value made
      exact ⟨.obj forms, isWritten, record_eq_ok remade distinct known⟩

end Decoder

/-! ### Trees that are read whole -/

/-- A tree is usable and has at most a number of levels. -/
structure Fits (bound : Nat) (json : Json) : Prop where
  usable : json.usable = true
  levels_le : json.levels ≤ bound

namespace Fits

variable {bound : Nat}

theorem readWhole_eq_ok {json : Json} (fits : Fits bound json) {depth : Nat}
    (deep : bound ≤ depth) : readWhole depth json = .ok () := by
  have shallow : ¬depth < json.levels := by
    have := fits.levels_le
    omega
  rw [readWhole, fits.usable, if_neg shallow]
  rfl

theorem mono {json : Json} (fits : Fits bound json) {more : Nat} (less : bound ≤ more) :
    Fits more json :=
  ⟨fits.usable, Nat.le_trans fits.levels_le less⟩

theorem str (value : String) : Fits 0 (.str value) := ⟨rfl, Nat.le_refl 0⟩

theorem bool (value : Bool) : Fits 0 (.bool value) := ⟨rfl, Nat.le_refl 0⟩

theorem int (value : Int) : Fits 0 (.int value) := ⟨rfl, Nat.le_refl 0⟩

theorem arr {items : List Json} (fit : ∀ item ∈ items, Fits bound item) :
    Fits (bound + 1) (.arr items) := by
  have all : usableItems items = true ∧ levelsItems items ≤ bound := by
    induction items with
    | nil => exact ⟨rfl, Nat.zero_le _⟩
    | cons item items ih =>
        obtain ⟨head, tail⟩ := List.forall_mem_cons.mp fit
        obtain ⟨usable, shallow⟩ := ih tail
        rw [usableItems, head.usable, usable, levelsItems]
        exact ⟨rfl, Nat.max_le.mpr ⟨head.levels_le, shallow⟩⟩
  exact ⟨all.1, Nat.succ_le_succ all.2⟩

theorem obj {entries : List (String × Json)} (fit : ∀ entry ∈ entries, Fits bound entry.2) :
    Fits (bound + 1) (.obj entries) := by
  have all : usableEntries entries = true ∧ levelsEntries entries ≤ bound := by
    induction entries with
    | nil => exact ⟨rfl, Nat.zero_le _⟩
    | cons entry entries ih =>
        obtain ⟨head, tail⟩ := List.forall_mem_cons.mp fit
        obtain ⟨usable, shallow⟩ := ih tail
        rw [usableEntries, head.usable, usable, levelsEntries]
        exact ⟨rfl, Nat.max_le.mpr ⟨head.levels_le, shallow⟩⟩
  exact ⟨all.1, Nat.succ_le_succ all.2⟩

theorem ofList {α : Type} {encode : α → Json} (fit : ∀ value, Fits bound (encode value))
    (values : List α) : Fits (bound + 1) (.ofList encode values) := by
  apply arr
  intro item member
  obtain ⟨value, -, rfl⟩ := List.mem_map.mp member
  exact fit value

theorem ofDict {α : Type} {encode : α → Json} (fit : ∀ value, Fits bound (encode value))
    (dict : Dict α) : Fits (bound + 1) (.ofDict encode dict) := by
  apply obj
  intro entry member
  obtain ⟨pair, -, rfl⟩ := List.mem_map.mp member
  exact fit pair.2

theorem ofOption {α : Type} {encode : α → Json} (fit : ∀ value, Fits bound (encode value))
    (value : Option α) : Fits bound (.ofOption encode value) := by
  cases value with
  | none => exact ⟨rfl, Nat.zero_le _⟩
  | some value => exact fit value

end Fits

end Json

end TensorLowering
