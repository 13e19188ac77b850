import TensorLowering.Types.Registry

/-! # Types that are listed

A type is the place of its descriptor in the list of a registry, and a search finds the last place.
The list only grows, so a descriptor that is listed keeps its type
(`TensorLowering.Registry.listedIn_request`), and a struct name that has one layout keeps it
(`TensorLowering.Registry.OneLayout.request`).
-/

namespace TensorLowering

namespace Registry

/-! ### Searching the list -/

theorem kind_eq_ok_iff {registry : Registry} {type : TypeId} {kind : TypeKind} :
    registry.kind type = .ok kind ↔ registry.kinds[type.index]? = some kind := by
  unfold Registry.kind
  cases registry.kinds[type.index]? <;> simp

/-- Listing a descriptor keeps the types that there are. -/
theorem kinds_intern (registry : Registry) (kind : TypeKind) :
    registry.kinds <+: (registry.intern kind).2.kinds := by
  unfold intern
  split
  · exact List.prefix_rfl
  · exact List.prefix_append _ _

/-- A descriptor that is listed at an index has what was looked for. -/
theorem getElem?_of_lastIndex? {property : TypeKind → Bool} {kinds : List TypeKind}
    {index : Nat} (found : lastIndex? property kinds = some index) :
    ∃ kind, kinds[index]? = some kind ∧ property kind = true := by
  induction kinds generalizing index with
  | nil => cases found
  | cons head kinds ih =>
      rw [lastIndex?] at found
      cases later : lastIndex? property kinds with
      | some next =>
          rw [later] at found
          cases found
          exact ih later
      | none =>
          rw [later] at found
          dsimp only at found
          split at found
          · next own =>
              cases found
              exact ⟨head, rfl, own⟩
          · cases found

theorem getElem?_intern (registry : Registry) (kind : TypeKind) :
    (registry.intern kind).2.kinds[(registry.intern kind).1.index]? = some kind := by
  unfold intern
  split
  · next index found =>
      obtain ⟨listed, listedAt, same⟩ := getElem?_of_lastIndex? found
      exact of_decide_eq_true same ▸ listedAt
  · exact List.getElem?_concat_length

theorem kinds_struct {registry after : Registry} {name : String} {fields : List (String × TypeId)}
    {type : TypeId} (made : registry.struct name fields = .ok (type, after)) :
    registry.kinds <+: after.kinds := by
  unfold struct at made
  split at made
  · split at made
    · cases made; exact List.prefix_rfl
    · cases made
  · have listed := registry.kinds_intern (.struct name fields)
    rwa [Except.ok.inj made] at listed

theorem lastIndex?_append (property : TypeKind → Bool) (kinds : List TypeKind) (last : TypeKind) :
    lastIndex? property (kinds ++ [last]) =
      if property last then some kinds.length else lastIndex? property kinds := by
  induction kinds with
  | nil => rfl
  | cons kind kinds ih =>
      rw [List.cons_append, lastIndex?, ih]
      split
      · next index found =>
          split at found
          · next holds => cases found; simp [holds]
          · next fails => simp [lastIndex?, found, fails]
      · next absent =>
          split at absent
          · cases absent
          · next fails => simp [lastIndex?, absent, fails]

theorem lastIndex?_eq_none_iff {property : TypeKind → Bool} {kinds : List TypeKind} :
    lastIndex? property kinds = none ↔ ∀ kind ∈ kinds, property kind = false := by
  induction kinds with
  | nil => simp [lastIndex?]
  | cons kind kinds ih =>
      rw [lastIndex?, List.forall_mem_cons, ← ih]
      cases lastIndex? property kinds <;> simp

/-- A descriptor is listed: asking for it gives its type and leaves the registry alone. -/
def Lists (registry : Registry) (kind : TypeKind) (type : TypeId) : Prop :=
  lastIndex? (· = kind) registry.kinds = some type.index

theorem Lists.intern_eq {registry : Registry} {kind : TypeKind} {type : TypeId}
    (lists : registry.Lists kind type) : registry.intern kind = (type, registry) := by
  rw [intern, lists]

theorem lists_intern (registry : Registry) (kind : TypeKind) :
    (registry.intern kind).2.Lists kind (registry.intern kind).1 := by
  unfold intern
  split
  · next index found => exact found
  · exact (lastIndex?_append _ _ _).trans (if_pos (decide_eq_true rfl))

/-- What is listed in a registry is listed in another as the same type. -/
def ListedIn (first second : Registry) : Prop :=
  ∀ ⦃kind type⦄, first.Lists kind type → second.Lists kind type

theorem listedIn_intern (registry : Registry) (kind : TypeKind) :
    registry.ListedIn (registry.intern kind).2 := by
  intro other type lists
  unfold intern
  split
  · exact lists
  · next absent =>
      -- The new descriptor is not the listed one, since it is new.
      have different : decide (kind = other) = false := by
        apply decide_eq_false
        rintro rfl
        rw [lists] at absent
        cases absent
      rw [Lists, lastIndex?_append, different, if_neg Bool.false_ne_true]
      exact lists

variable {registry after : Registry} {name : String} {fields : List (String × TypeId)}
  {type : TypeId}

theorem listedIn_struct (made : registry.struct name fields = .ok (type, after)) :
    registry.ListedIn after := by
  unfold struct at made
  split at made
  · split at made
    · cases made; exact fun _ _ lists => lists
    · cases made
  · have listed := registry.listedIn_intern (.struct name fields)
    rwa [Except.ok.inj made] at listed

/-- A struct type that was made is found when it is asked for again. -/
theorem struct_again (made : registry.struct name fields = .ok (type, after)) :
    after.struct name fields = .ok (type, after) := by
  unfold struct at made
  split at made
  · next index found =>
      split at made
      · next same =>
          cases made
          rw [struct, found]
          exact if_pos same
      · cases made
  · next absent =>
      have new : lastIndex? (· = .struct name fields) registry.kinds = none := by
        rw [lastIndex?_eq_none_iff] at absent ⊢
        intro kind listed
        apply decide_eq_false
        rintro rfl
        exact absurd (absent _ listed) (by simp [isStructNamed])
      rw [intern, new] at made
      cases made
      rw [struct, lastIndex?_append, if_pos (by simp [isStructNamed])]
      simp

theorem Lists.getElem? {registry : Registry} {kind : TypeKind} {type : TypeId}
    (lists : registry.Lists kind type) : registry.kinds[type.index]? = some kind := by
  obtain ⟨listed, listedAt, same⟩ := getElem?_of_lastIndex? lists
  exact of_decide_eq_true same ▸ listedAt

/-- A registry lists a descriptor as one type. -/
theorem Lists.type_eq_iff {registry : Registry} {kind other : TypeKind} {type otherType : TypeId}
    (lists : registry.Lists kind type) (others : registry.Lists other otherType) :
    type = otherType ↔ kind = other := by
  constructor
  · intro same
    subst same
    exact Option.some.inj (lists.getElem?.symm.trans others.getElem?)
  · intro same
    subst same
    obtain ⟨index⟩ := type
    obtain ⟨otherIndex⟩ := otherType
    exact congrArg TypeId.mk (Option.some.inj (Eq.trans (Eq.symm lists) others))

/-- The last descriptor with a property is also the last one with a stronger property that it
has. -/
theorem lastIndex?_of_imp {property stronger : TypeKind → Bool} {kinds : List TypeKind}
    {index : Nat} {kind : TypeKind} (implies : ∀ kind, stronger kind = true → property kind = true)
    (found : lastIndex? property kinds = some index) (listed : kinds[index]? = some kind)
    (holds : stronger kind = true) : lastIndex? stronger kinds = some index := by
  induction kinds generalizing index with
  | nil => cases found
  | cons head kinds ih =>
      rw [lastIndex?] at found ⊢
      cases later : lastIndex? property kinds with
      | some next =>
          rw [later] at found
          cases found
          rw [ih later listed]
      | none =>
          have none : lastIndex? stronger kinds = none := by
            rw [lastIndex?_eq_none_iff] at later ⊢
            intro other member
            have fails := later other member
            grind
          rw [later] at found
          dsimp only at found
          split at found
          · cases found
            cases listed
            rw [none, holds]
            rfl
          · cases found

theorem isStructNamed_iff {name : String} {kind : TypeKind} :
    isStructNamed name kind = true ↔ ∃ fields, kind = .struct name fields := by
  cases kind with
  | struct other fields => simp [isStructNamed]
  | _ => simp [isStructNamed]

/-- A struct type that was made is listed. -/
theorem lists_struct (made : registry.struct name fields = .ok (type, after)) :
    after.Lists (.struct name fields) type := by
  unfold struct at made
  split at made
  · next index found =>
      split at made
      · next listed =>
          cases made
          refine lastIndex?_of_imp (fun kind same => ?_) found listed (decide_eq_true rfl)
          exact isStructNamed_iff.mpr ⟨fields, of_decide_eq_true same⟩
      · cases made
  · have lists := registry.lists_intern (.struct name fields)
    rwa [Except.ok.inj made] at lists

/-! ### Requests -/

/-- Ask for a descriptor through its constructor. -/
def request (registry : Registry) : TypeKind → Except Error (TypeId × Registry)
  | .void => .ok registry.void
  | .int width signed => .ok (registry.int width signed)
  | .float width mantissa exponent => .ok (registry.float width mantissa exponent)
  | .pointer pointee => .ok (registry.pointerTo pointee)
  | .future pointee => .ok (registry.futureOf pointee)
  | .struct name fields => registry.struct name fields

variable {kind : TypeKind}

theorem request_eq_intern (registry : Registry)
    (plain : ¬∃ name fields, kind = .struct name fields) :
    registry.request kind = .ok (registry.intern kind) := by
  cases kind with
  | struct name fields => exact absurd ⟨name, fields, rfl⟩ plain
  | _ => rfl

theorem lists_request (made : registry.request kind = .ok (type, after)) :
    after.Lists kind type := by
  by_cases named : ∃ name fields, kind = .struct name fields
  · obtain ⟨name, fields, rfl⟩ := named
    exact lists_struct made
  · rw [request_eq_intern registry named] at made
    have lists := registry.lists_intern kind
    rwa [Except.ok.inj made] at lists

theorem listedIn_request (made : registry.request kind = .ok (type, after)) :
    registry.ListedIn after := by
  by_cases named : ∃ name fields, kind = .struct name fields
  · obtain ⟨name, fields, rfl⟩ := named
    exact listedIn_struct made
  · rw [request_eq_intern registry named] at made
    have listed := registry.listedIn_intern kind
    rwa [Except.ok.inj made] at listed

theorem intern_eq_or (registry : Registry) (kind : TypeKind) :
    (registry.intern kind).2 = registry ∨
      (registry.intern kind).2 = { registry with kinds := registry.kinds ++ [kind] } := by
  unfold intern
  split
  · exact .inl rfl
  · exact .inr rfl

/-- A request leaves the registry alone or lists the descriptor, whose struct name is then new. -/
theorem request_eq_ok (made : registry.request kind = .ok (type, after)) :
    after = registry ∨ after = { registry with kinds := registry.kinds ++ [kind] } ∧
      ∀ name fields other, kind = .struct name fields →
        TypeKind.struct name other ∉ registry.kinds := by
  by_cases named : ∃ name fields, kind = .struct name fields
  · obtain ⟨name, fields, rfl⟩ := named
    unfold request struct at made
    dsimp only at made
    split at made
    · split at made
      · cases made
        exact .inl rfl
      · cases made
    · next absent =>
        have grown := registry.intern_eq_or (.struct name fields)
        rw [Except.ok.inj made] at grown
        refine grown.imp_right fun listed => ⟨listed, fun _ _ other same member => ?_⟩
        cases same
        have fails := lastIndex?_eq_none_iff.mp absent _ member
        rw [isStructNamed_iff.mpr ⟨other, rfl⟩] at fails
        cases fails
  · rw [request_eq_intern registry named] at made
    have grown := registry.intern_eq_or kind
    rw [Except.ok.inj made] at grown
    exact grown.imp_right fun listed => ⟨listed, fun _ _ _ same => absurd ⟨_, _, same⟩ named⟩

theorem kinds_request (made : registry.request kind = .ok (type, after)) :
    registry.kinds <+: after.kinds := by
  rcases request_eq_ok made with rfl | ⟨rfl, -⟩
  · exact List.prefix_rfl
  · exact List.prefix_append _ _

/-- A struct name has one layout. -/
def OneLayout (registry : Registry) : Prop :=
  ∀ ⦃name fields other⦄, TypeKind.struct name fields ∈ registry.kinds →
    TypeKind.struct name other ∈ registry.kinds → fields = other

theorem OneLayout.request (layouts : registry.OneLayout)
    (made : registry.request kind = .ok (type, after)) : after.OneLayout := by
  rcases request_eq_ok made with rfl | ⟨rfl, new⟩
  · exact layouts
  · intro name fields other member otherMember
    simp only [List.mem_append, List.mem_singleton] at member otherMember
    rcases member with member | rfl <;> rcases otherMember with otherMember | same
    · exact layouts member otherMember
    · exact absurd member (new _ _ _ same.symm)
    · exact absurd otherMember (new _ _ _ rfl)
    · cases same
      rfl

/-- Where names have one layout, a request fails exactly if it gives a name another layout. -/
theorem OneLayout.request_eq_error_iff {error : Error} (layouts : registry.OneLayout) :
    registry.request kind = .error error ↔ ∃ name fields, kind = .struct name fields ∧
      error = .layoutConflict name ∧
        ∃ other, TypeKind.struct name other ∈ registry.kinds ∧ other ≠ fields := by
  constructor
  · intro failed
    cases kind with
    | struct name fields =>
        unfold Registry.request struct at failed
        dsimp only at failed
        split at failed
        · next index found =>
            split at failed
            · cases failed
            · next differs =>
                cases failed
                obtain ⟨listed, listedAt, named⟩ := getElem?_of_lastIndex? found
                obtain ⟨other, rfl⟩ := isStructNamed_iff.mp named
                refine ⟨name, fields, rfl, rfl, other, List.mem_of_getElem? listedAt, ?_⟩
                intro same
                exact differs (same ▸ listedAt)
        · cases failed
    | _ => cases failed
  · intro held
    obtain ⟨name, fields, rfl, rfl, other, member, differs⟩ := held
    unfold Registry.request struct
    dsimp only
    cases found : lastIndex? (isStructNamed name) registry.kinds with
    | none =>
        have fails := lastIndex?_eq_none_iff.mp found _ member
        rw [isStructNamed_iff.mpr ⟨other, rfl⟩] at fails
        cases fails
    | some index =>
        refine if_neg fun listedAt => differs ?_
        exact layouts member (List.mem_of_getElem? listedAt)

end Registry

end TensorLowering
