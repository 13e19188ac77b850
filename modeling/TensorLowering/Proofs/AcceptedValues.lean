import Mathlib.Data.List.Perm.Subperm
import Mathlib.Logic.Relation
import TensorLowering.Proofs.Dictionaries
import TensorLowering.Types.Check

/-! # Accepted values

A value descends along its type: an array passes its type on to its items, and a struct passes to
each field the type that the layout gives the field. A check descends the same way, but it compares
the fields of a struct inside by their number and by looking each one up, and it looks at no type of
an array without items. So what an accepted value lacks is exactly what follows from a layout that
lists a field twice and from an empty array of an unlisted or malformed type
(`TensorLowering.Registry.make_exact`).
-/

namespace TensorLowering

/-- The fields of every struct in a value are listed in the order of their names, each once. -/
inductive Value.Ordered : Value → Prop
  | int (value : Int) : Ordered (.int value)
  | float (value : Double) : Ordered (.float value)
  | pointer (name : Option String) : Ordered (.pointer name)
  | array {items : List Value} (each : ∀ item ∈ items, Ordered item) : Ordered (.array items)
  | struct {fields : List (String × Value)}
      (sorted : fields.Pairwise fun first second => first.1 < second.1)
      (each : ∀ field ∈ fields, Ordered field.2) : Ordered (.struct fields)

namespace Dict

variable {α : Type}

/-- In ordered entries, an entry is what its key is looked up to. -/
theorem search_eq_some_iff {entries : List (String × α)}
    (sorted : entries.Pairwise fun first second => first.1 < second.1) {key : String} {value : α} :
    search key entries = some value ↔ (key, value) ∈ entries :=
  (@mem_entries_iff α ⟨entries, sorted⟩ key value).symm

end Dict

namespace Registry

variable {registry : Registry} {lenient : Bool} {type : TypeId} {value : Value}

/-! ### Descending along a type -/

/-- An array holds its items, all with the type of the array. -/
inductive HoldsItem : TypedValue → TypedValue → Prop
  | item {type : TypeId} {items : List Value} {item : Value} (member : item ∈ items) :
      HoldsItem ⟨type, .array items⟩ ⟨type, item⟩

/-- A struct holds its fields, each with the types that its layout lists for the name. -/
inductive HoldsField (registry : Registry) : TypedValue → TypedValue → Prop
  | field {type fieldType : TypeId} {name field : String} {fields : List (String × TypeId)}
      {values : List (String × Value)} {value : Value}
      (layout : registry.kind type = .ok (.struct name fields))
      (listed : (field, fieldType) ∈ fields) (given : (field, value) ∈ values) :
      HoldsField registry ⟨type, .struct values⟩ ⟨fieldType, value⟩

/-- What is met while a value is descended along its type, the value included. -/
def Meets (registry : Registry) : TypedValue → TypedValue → Prop :=
  Relation.ReflTransGen fun whole part => HoldsItem whole part ∨ HoldsField registry whole part

/-- What an initialiser writes: the value and what its structs hold, but no item of an array. -/
def Writes (registry : Registry) : TypedValue → TypedValue → Prop :=
  Relation.ReflTransGen (HoldsField registry)

/-- A type is listed and well-formed. -/
def Valid (registry : Registry) (type : TypeId) : Prop :=
  ∃ kind, registry.kind type = .ok kind ∧ kind.fault? = none

/-- A struct has the keys that its layout names. -/
def KeysMatch (registry : Registry) (typed : TypedValue) : Prop :=
  ∀ values, typed.value = .struct values → ∃ name fields,
    registry.kind typed.type = .ok (.struct name fields) ∧
      ∀ key, key ∈ values.map Prod.fst ↔ key ∈ fields.map Prod.fst

/-! ### What a check tells -/

theorem checkKind_eq_ok_iff {kind : TypeKind} : checkKind kind = .ok () ↔ kind.fault? = none := by
  unfold checkKind
  cases kind.fault? <;> simp

theorem search_fieldChecks (registry : Registry) (lenient : Bool) (name : String)
    (values : List (String × Value)) :
    Dict.search name (registry.fieldChecks lenient values) =
      (Dict.search name values).map (registry.check lenient) := by
  induction values with
  | nil => rfl
  | cons entry values ih =>
      obtain ⟨key, value⟩ := entry
      rw [fieldChecks, Dict.search, Dict.search, ih]
      split <;> rfl

theorem checkFields_eq_true_iff {checks : List (String × (TypeId → Except Error Bool))}
    {fields : List (String × TypeId)} :
    checkFields checks fields = .ok true ↔
      ∀ field ∈ fields, ∃ check, Dict.search field.1 checks = some check ∧
        check field.2 = .ok true := by
  induction fields with
  | nil => simp [checkFields]
  | cons field fields ih =>
      obtain ⟨name, type⟩ := field
      rw [List.forall_mem_cons, ← ih, checkFields]
      cases Dict.search name checks with
      | none => simp
      | some check =>
          simp only [bind, Except.bind, Option.some.injEq, exists_eq_left']
          rcases check type with error | _ | _ <;> simp [pure, Except.pure]

/-- An array passes if all its items do. -/
theorem check_array_iff {items : List Value} :
    registry.check lenient (.array items) type = .ok true ↔
      ∀ item ∈ items, registry.check lenient item type = .ok true := by
  rw [check]
  induction items with
  | nil => simp [checkItems]
  | cons item items ih =>
      rw [List.forall_mem_cons, ← ih, checkItems]
      simp only [bind, Except.bind]
      rcases registry.check lenient item type with error | _ | _ <;> simp [pure, Except.pure]

/-- A struct passes if it has as many fields as its layout and each one that is looked up passes. -/
theorem check_struct_iff {values : List (String × Value)} :
    registry.check lenient (.struct values) type = .ok true ↔
      ∃ name fields, registry.kind type = .ok (.struct name fields) ∧
        fields.length = values.length ∧ ∀ field ∈ fields, ∃ value,
          Dict.search field.1 values = some value ∧
            registry.check lenient value field.2 = .ok true := by
  have inside : ∀ fields, checkFields (registry.fieldChecks lenient values) fields = .ok true ↔
      ∀ field ∈ fields, ∃ value, Dict.search field.1 values = some value ∧
        registry.check lenient value field.2 = .ok true := by
    intro fields
    rw [checkFields_eq_true_iff]
    simp only [search_fieldChecks, Option.map_eq_some_iff, ↓existsAndEq, and_true]
  rw [check]
  simp only [bind, Except.bind]
  cases registry.kind type with
  | error error => simp
  | ok kind =>
      cases kind with
      | struct name fields =>
          have sound : checkKind (.struct name fields) = .ok () := rfl
          simp only [sound, Except.ok.injEq, TypeKind.struct.injEq, ↓existsAndEq, and_true,
            true_and, ← inside]
          split
          · next differs => simp [differs, pure, Except.pure]
          · next same => simp [not_not.mp same]
      | _ =>
          refine iff_of_false (fun passed => ?_) (by simp)
          dsimp only at passed
          split at passed <;> cases passed

/-- A value that passes has a valid type, unless it is an array. -/
theorem valid_of_check (passed : registry.check lenient value type = .ok true)
    (noArray : ∀ items, value ≠ .array items) : registry.Valid type := by
  have leaf : ∀ fits : TypeKind → Bool,
      (registry.kind type >>= fun kind => checkKind kind >>= fun _ => pure (fits kind)) = .ok true →
        registry.Valid type := by
    intro fits passed
    simp only [bind, Except.bind] at passed
    split at passed
    · cases passed
    · next kind found =>
        refine ⟨kind, found, checkKind_eq_ok_iff.mp ?_⟩
        split at passed
        · cases passed
        · assumption
  cases value with
  | array items => exact absurd rfl (noArray items)
  | struct values =>
      obtain ⟨name, fields, found, -⟩ := check_struct_iff.mp passed
      exact ⟨_, found, rfl⟩
  | int number => simp only [check] at passed; exact leaf _ passed
  | float number => simp only [check] at passed; exact leaf _ passed
  | pointer name => simp only [check] at passed; exact leaf _ passed

/-- A typed value is made of what it is asked for, if the keys match and the value passes. -/
theorem make_eq_ok_iff {typed : TypedValue} :
    registry.make type value = .ok typed ↔
      typed = ⟨type, value⟩ ∧ registry.check true value type = .ok true ∧
        ∃ kind, registry.kind type = .ok kind ∧ matchFields kind value = .ok () := by
  unfold make
  simp only [bind, Except.bind]
  cases registry.kind type with
  | error error => simp
  | ok kind =>
      simp only [Except.ok.injEq, exists_eq_left']
      cases matchFields kind value with
      | error error => simp
      | ok _ =>
          rcases registry.check true value type with error | _ | _
          · simp
          · simp only [Bool.false_eq_true, if_false]
            cases registry.typeName type <;> simp [throw, throwThe, MonadExceptOf.throw]
          · simp [pure, Except.pure, eq_comm]

theorem mem_kinds_of_kind {kind : TypeKind} (found : registry.kind type = .ok kind) :
    kind ∈ registry.kinds := by
  unfold Registry.kind at found
  split at found
  · next listed =>
      cases found
      exact List.mem_of_getElem? listed
  · cases found

/-! ### Descending an accepted value -/

/-- What is met in a value that passes also passes. -/
theorem check_of_meets {whole part : TypedValue} (met : registry.Meets whole part)
    (ordered : whole.value.Ordered)
    (passed : registry.check lenient whole.value whole.type = .ok true) :
    part.value.Ordered ∧ registry.check lenient part.value part.type = .ok true := by
  induction met with
  | refl => exact ⟨ordered, passed⟩
  | tail before step ih =>
      obtain ⟨ordered, passed⟩ := ih
      rcases step with step | step
      · cases step with
        | item member =>
            cases ordered with
            | array each => exact ⟨each _ member, check_array_iff.mp passed _ member⟩
      · cases step with
        | field layout listed given =>
            cases ordered with
            | struct sorted each =>
                obtain ⟨_, _, found, -, fields⟩ := check_struct_iff.mp passed
                cases layout.symm.trans found
                obtain ⟨value, looked, passes⟩ := fields _ listed
                rw [(Dict.search_eq_some_iff sorted).mpr given] at looked
                cases looked
                exact ⟨each _ given, passes⟩

/-- Through arrays, descending a value that passes comes to a valid type, unless it ends at an empty
array. -/
theorem valid_of_empty_arrays (ordered : value.Ordered)
    (passed : registry.check lenient value type = .ok true)
    (empty : ∀ part, registry.Meets ⟨type, value⟩ part → part.value = .array [] →
      registry.Valid part.type) : registry.Valid type := by
  induction ordered with
  | @array items _ ih =>
      cases items with
      | nil => exact empty _ .refl rfl
      | cons item items =>
          refine ih item List.mem_cons_self (check_array_iff.mp passed _ List.mem_cons_self) ?_
          intro part met
          exact empty part (.head (.inl (.item List.mem_cons_self)) met)
  | _ => exact valid_of_check passed fun _ same => by cases same

/-- As many names as keys, all among the keys, are all the keys exactly if no name is repeated. -/
theorem mem_iff_iff_nodup {keys names : List String} (distinct : keys.Nodup)
    (count : names.length = keys.length) (among : names ⊆ keys) :
    (∀ key, key ∈ keys ↔ key ∈ names) ↔ names.Nodup := by
  refine ⟨fun same => ?_, fun single key => ?_⟩
  · have perm := (distinct.subperm fun key => (same key).mp).perm_of_length_le (Nat.le_of_eq count)
    exact perm.nodup_iff.mp distinct
  · exact ((single.subperm among).perm_of_length_le (Nat.le_of_eq count.symm)).mem_iff.symm

/-- A struct that passes has the keys of its layout exactly if the layout repeats no name. -/
theorem keysMatch_iff {values : List (String × Value)} {name : String}
    {fields : List (String × TypeId)} (ordered : (Value.struct values).Ordered)
    (passed : registry.check lenient (.struct values) type = .ok true)
    (layout : registry.kind type = .ok (.struct name fields)) :
    registry.KeysMatch ⟨type, .struct values⟩ ↔ (fields.map Prod.fst).Nodup := by
  obtain ⟨_, _, found, count, looked⟩ := check_struct_iff.mp passed
  cases layout.symm.trans found
  cases ordered with
  | struct sorted =>
      have among : fields.map Prod.fst ⊆ values.map Prod.fst := by
        intro key member
        obtain ⟨field, listed, rfl⟩ := List.mem_map.mp member
        obtain ⟨value, given, -⟩ := looked field listed
        exact List.mem_map_of_mem (Dict.mem_of_search given)
      have distinct : (values.map Prod.fst).Nodup := Dict.nodup_keys ⟨values, sorted⟩
      rw [← mem_iff_iff_nodup distinct (by simpa using count) among]
      simp [KeysMatch, layout]

/-! ### Initialisers of accepted values -/

theorem search_literalsOf (registry : Registry) (name : String) (values : List (String × Value)) :
    Dict.search name (registry.literalsOf values) =
      (Dict.search name values).map registry.literalOf := by
  induction values with
  | nil => rfl
  | cons entry values ih =>
      obtain ⟨key, value⟩ := entry
      rw [literalsOf, Dict.search, Dict.search, ih]
      split <;> rfl

theorem fieldLiterals_isOk_iff {missing : Error}
    {literals : List (String × (TypeId → Except Error String))} {fields : List (String × TypeId)} :
    (∃ texts, fieldLiterals missing literals fields = .ok texts) ↔
      ∀ field ∈ fields, ∃ literal, Dict.search field.1 literals = some literal ∧
        ∃ text, literal field.2 = .ok text := by
  induction fields with
  | nil => simp [fieldLiterals]
  | cons field fields ih =>
      obtain ⟨name, type⟩ := field
      rw [List.forall_mem_cons, ← ih, fieldLiterals]
      cases Dict.search name literals with
      | none => simp
      | some literal =>
          simp only [bind, Except.bind, Option.some.injEq, exists_eq_left']
          cases literal type with
          | error error => simp
          | ok text => cases fieldLiterals missing literals fields <;> simp [pure, Except.pure]

theorem literalOf_struct_iff {values : List (String × Value)} {name : String}
    {fields : List (String × TypeId)} (layout : registry.kind type = .ok (.struct name fields)) :
    (∃ text, registry.literalOf (.struct values) type = .ok text) ↔
      ∀ field ∈ fields, ∃ value, Dict.search field.1 values = some value ∧
        ∃ text, registry.literalOf value field.2 = .ok text := by
  have inside : ∀ missing, (∃ texts,
      fieldLiterals missing (registry.literalsOf values) fields = .ok texts) ↔
      ∀ field ∈ fields, ∃ value, Dict.search field.1 values = some value ∧
        ∃ text, registry.literalOf value field.2 = .ok text := by
    intro missing
    rw [fieldLiterals_isOk_iff]
    simp only [search_literalsOf, Option.map_eq_some_iff, ↓existsAndEq, and_true]
  rw [literalOf, layout]
  simp only [bind, Except.bind]
  rw [← inside]
  cases fieldLiterals _ (registry.literalsOf values) fields <;> simp [pure, Except.pure]

/-- A value that is no struct is written if its type is listed. -/
theorem literalOf_isOk_iff (noStruct : ∀ values, value ≠ .struct values) :
    (∃ text, registry.literalOf value type = .ok text) ↔ ∃ kind, registry.kind type = .ok kind := by
  rw [literalOf]
  · cases registry.kind type <;> simp [bind, Except.bind, pure, Except.pure]
  · exact noStruct

theorem eq_of_writes {part : TypedValue} (noStruct : ∀ values, value ≠ .struct values)
    (writes : registry.Writes ⟨type, value⟩ part) : part = ⟨type, value⟩ := by
  rcases Relation.ReflTransGen.cases_head writes with rfl | ⟨inner, step, -⟩
  · rfl
  · cases step
    exact absurd rfl (noStruct _)

/-- A value that passes is written exactly if every array that the initialiser comes to has a listed
type. -/
theorem literalOf_isOk_iff_arrays (ordered : value.Ordered)
    (passed : registry.check lenient value type = .ok true) :
    (∃ text, registry.literalOf value type = .ok text) ↔
      ∀ part items, registry.Writes ⟨type, value⟩ part → part.value = .array items →
        ∃ kind, registry.kind part.type = .ok kind := by
  induction ordered generalizing type with
  | struct sorted _ ih =>
      obtain ⟨name, fields, layout, -, looked⟩ := check_struct_iff.mp passed
      rw [literalOf_struct_iff layout]
      refine ⟨fun written part items writes isArray => ?_, fun listed field member => ?_⟩
      · rcases Relation.ReflTransGen.cases_head writes with rfl | ⟨inner, step, writes⟩
        · cases isArray
        · cases step with
          | field found member given =>
              cases layout.symm.trans found
              obtain ⟨value, lookup, passes⟩ := looked _ member
              obtain ⟨_, same, text⟩ := written _ member
              rw [(Dict.search_eq_some_iff sorted).mpr given] at lookup same
              cases lookup
              cases same
              exact (ih _ given passes).mp text part items writes isArray
      · obtain ⟨value, lookup, passes⟩ := looked field member
        have given := (Dict.search_eq_some_iff sorted).mp lookup
        refine ⟨value, lookup, (ih _ given passes).mpr fun part items writes => ?_⟩
        exact listed part items (.head (.field layout member given) writes)
  | array _ _ =>
      rw [literalOf_isOk_iff fun _ same => by cases same]
      refine ⟨fun listed part items writes _ => ?_, fun listed => listed _ _ .refl rfl⟩
      rw [eq_of_writes (fun _ same => by cases same) writes]
      exact listed
  | _ =>
      obtain ⟨kind, found, -⟩ := valid_of_check passed fun _ same => by cases same
      rw [literalOf_isOk_iff fun _ same => by cases same]
      refine iff_of_true ⟨kind, found⟩ fun part items writes isArray => ?_
      rw [eq_of_writes (fun _ same => by cases same) writes] at isArray
      cases isArray

/-- The keys of a struct that is made are those of its type. -/
theorem keysMatch_of_matchFields {kind : TypeKind} (found : registry.kind type = .ok kind)
    (matched : matchFields kind value = .ok ())
    (passed : registry.check lenient value type = .ok true) :
    registry.KeysMatch ⟨type, value⟩ := by
  rintro values rfl
  obtain ⟨name, fields, layout, -⟩ := check_struct_iff.mp passed
  cases found.symm.trans layout
  refine ⟨name, fields, layout, fun key => ?_⟩
  unfold matchFields at matched
  dsimp only at matched
  split at matched
  · next same =>
      rw [← same, sortedNames]
      exact (List.mergeSort_perm _ _).mem_iff
  · cases matched

/-- **What an accepted value is.** A value that is made is what was asked for, with the keys of its
type. It can be written exactly if the arrays that its structs hold have listed types. All types
that are met in it are valid exactly if those of the empty arrays are. All structs that are met in
it have the keys of their types exactly if no layout among these lists a field twice. -/
theorem make_exact {typed : TypedValue} (ordered : value.Ordered)
    (made : registry.make type value = .ok typed) :
    typed = ⟨type, value⟩ ∧ registry.KeysMatch typed ∧
    ((∃ text, registry.literal typed = .ok text) ↔
      ∀ part items, registry.Writes typed part → part.value = .array items →
        ∃ kind, registry.kind part.type = .ok kind) ∧
    ((∀ part, registry.Meets typed part → registry.Valid part.type) ↔
      ∀ part, registry.Meets typed part → part.value = .array [] → registry.Valid part.type) ∧
    ((∀ part, registry.Meets typed part → registry.KeysMatch part) ↔
      ∀ part values name fields, registry.Meets typed part → part.value = .struct values →
        registry.kind part.type = .ok (.struct name fields) → (fields.map Prod.fst).Nodup) := by
  obtain ⟨rfl, passed, kind, found, matched⟩ := make_eq_ok_iff.mp made
  have inside := fun part (met : registry.Meets ⟨type, value⟩ part) =>
    check_of_meets met ordered passed
  refine ⟨rfl, keysMatch_of_matchFields found matched passed,
    literalOf_isOk_iff_arrays ordered passed, ⟨fun valid part met _ => valid part met, ?_⟩, ?_, ?_⟩
  · intro empty part met
    obtain ⟨partOrdered, partPassed⟩ := inside part met
    exact valid_of_empty_arrays partOrdered partPassed fun last further =>
      empty last (met.trans further)
  · intro same part values name fields met isStruct layout
    obtain ⟨partOrdered, partPassed⟩ := inside part met
    obtain ⟨partType, _⟩ := part
    cases isStruct
    exact (keysMatch_iff partOrdered partPassed layout).mp (same _ met)
  · intro distinct part met values isStruct
    obtain ⟨partOrdered, partPassed⟩ := inside part met
    obtain ⟨partType, _⟩ := part
    cases isStruct
    obtain ⟨name, fields, layout, -⟩ := check_struct_iff.mp partPassed
    have single := distinct _ values name fields met rfl layout
    exact (keysMatch_iff partOrdered partPassed layout).mpr single values rfl

/-- A struct that holds pairs of bytes. -/
def pairsRegistry : Registry where
  kinds := [.int 8 true, .struct "pair_t" [("b", ⟨0⟩), ("a", ⟨0⟩)],
    .struct "outer_t" [("s", ⟨1⟩), ("n", ⟨0⟩)]]

/-- An array of two pairs, beside a byte. -/
def pairsValue : Value :=
  .struct [("n", .int 7), ("s", .array [.struct [("a", .int 1), ("b", .int 2)],
    .struct [("a", .int (-3)), ("b", .int 4)]])]

/-- The pairs inside the array have the keys of their layout, since no layout of the registry
repeats a name. -/
theorem make_exact_pairsValue :
    pairsValue.Ordered ∧ pairsRegistry.make ⟨2⟩ pairsValue = .ok ⟨⟨2⟩, pairsValue⟩ ∧
    (∃ text, pairsRegistry.literal ⟨⟨2⟩, pairsValue⟩ = .ok text) ∧
    ∀ part, pairsRegistry.Meets ⟨⟨2⟩, pairsValue⟩ part → pairsRegistry.KeysMatch part := by
  have pair : ∀ first second, (Value.struct [("a", .int first), ("b", .int second)]).Ordered := by
    intro first second
    refine .struct (List.pairwise_pair.mpr (by decide : "a" < "b")) ?_
    simpa using ⟨.int first, .int second⟩
  have ordered : pairsValue.Ordered := by
    refine .struct (by decide) ?_
    simpa using ⟨.int 7, .array (by simpa using ⟨pair 1 2, pair (-3) 4⟩)⟩
  have names : sortedNames [("s", ⟨1⟩), ("n", ⟨0⟩)] = ["n", "s"] := by
    simp [sortedNames, List.mergeSort]
  have made : pairsRegistry.make ⟨2⟩ pairsValue = .ok ⟨⟨2⟩, pairsValue⟩ :=
    make_eq_ok_iff.mpr ⟨rfl, rfl, _, rfl, if_pos names⟩
  obtain ⟨-, -, -, -, keys⟩ := make_exact ordered made
  refine ⟨ordered, made, ⟨_, rfl⟩, keys.mpr fun part values name fields _ _ layout => ?_⟩
  have listed : TypeKind.struct name fields ∈ pairsRegistry.kinds := mem_kinds_of_kind layout
  have distinct : ∀ kind ∈ pairsRegistry.kinds, ∀ name fields, kind = .struct name fields →
      (fields.map Prod.fst).Nodup := by
    simp [pairsRegistry]
  exact distinct _ listed name fields rfl

/-- A pair that names its fields alike, and a struct of it. -/
def alikeTypes : Except Error (TypeId × Registry) := do
  let (byte, registry) := ({} : Registry).int 8 true
  let (pair, registry) ← registry.struct "pair_t" [("a", byte), ("a", byte)]
  registry.struct "outer_t" [("s", pair)]

/-- The registry with these types. -/
def alikeRegistry : Registry where
  kinds := [.int 8 true, .struct "pair_t" [("a", ⟨0⟩), ("a", ⟨0⟩)], .struct "outer_t" [("s", ⟨1⟩)]]

/-- A struct with other keys in the pair. -/
def alikeValue : Value :=
  .struct [("s", .struct [("a", .int 1), ("b", .int 2)])]

/-- The struct is accepted, although its pair does not have the keys of the layout. An empty array
is accepted of an integer type without bits, which is not valid. -/
theorem alikeValue_accepted :
    alikeTypes = .ok (⟨2⟩, alikeRegistry) ∧ alikeValue.Ordered ∧
    alikeRegistry.make ⟨2⟩ alikeValue = .ok ⟨⟨2⟩, alikeValue⟩ ∧
    (∃ pair, alikeRegistry.Meets ⟨⟨2⟩, alikeValue⟩ pair ∧ ¬ alikeRegistry.KeysMatch pair) ∧
    let (nothing, registry) := ({} : Registry).int 0 true
    registry.make nothing (.array []) = .ok ⟨nothing, .array []⟩ ∧ ¬ registry.Valid nothing := by
  have ordered : alikeValue.Ordered := by
    have pair : (Value.struct [("a", .int 1), ("b", .int 2)]).Ordered :=
      .struct (by decide) (by simpa using ⟨.int 1, .int 2⟩)
    exact .struct (by decide) (by simpa using pair)
  have made : alikeRegistry.make ⟨2⟩ alikeValue = .ok ⟨⟨2⟩, alikeValue⟩ :=
    make_eq_ok_iff.mpr ⟨rfl, rfl, _, rfl, if_pos (List.mergeSort_of_pairwise (by decide))⟩
  have meets : alikeRegistry.Meets ⟨⟨2⟩, alikeValue⟩
      ⟨⟨1⟩, .struct [("a", .int 1), ("b", .int 2)]⟩ :=
    .single (.inr (.field rfl (List.mem_singleton_self _) (List.mem_singleton_self _)))
  refine ⟨rfl, ordered, made, ⟨_, meets, fun same => ?_⟩,
    make_eq_ok_iff.mpr ⟨rfl, rfl, _, rfl, rfl⟩, ?_⟩
  · obtain ⟨name, fields, layout, keys⟩ := same _ rfl
    cases layout
    exact absurd ((keys "b").mp (by decide)) (by decide)
  · rintro ⟨kind, found, sound⟩
    cases found
    cases sound

/-- A struct with a field of an unlisted type is accepted if the field is an empty array, but it
cannot be written. -/
theorem unlistedField_unwritable :
    let registry : Registry := { kinds := [.struct "open_t" [("u", ⟨9⟩)]] }
    let value : Value := .struct [("u", .array [])]
    registry.make ⟨0⟩ value = .ok ⟨⟨0⟩, value⟩ ∧
      registry.literal ⟨⟨0⟩, value⟩ = .error (.unknownType ⟨9⟩) :=
  ⟨make_eq_ok_iff.mpr ⟨rfl, rfl, _, rfl, if_pos (List.mergeSort_of_pairwise (by decide))⟩, rfl⟩

end Registry

end TensorLowering
