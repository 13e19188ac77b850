/-! # Dictionaries ordered by key

A dictionary keeps its entries strictly ordered by key, so that a document always
lists them in the same order and two dictionaries with the same look-ups are equal
(`TensorLowering.Dict.ext_find?`). Keys are compared character by character, by code
point.
-/

namespace TensorLowering

universe u v

/-- A finite map from names, its entries strictly ordered by name. -/
structure Dict (α : Type u) where
  entries : List (String × α)
  ordered : entries.Pairwise fun first second => first.1 < second.1
  deriving DecidableEq

namespace Dict

variable {α : Type u} {β : Type v}

/-- The first value that a list of entries gives to a key. -/
def search (key : String) : List (String × α) → Option α
  | [] => none
  | (name, value) :: rest => if name = key then some value else search key rest

/-- The dictionary without entries. -/
def empty : Dict α := ⟨[], .nil⟩

instance : EmptyCollection (Dict α) := ⟨empty⟩

instance : Inhabited (Dict α) := ⟨empty⟩

/-- The value under a key. -/
def find? (dict : Dict α) (key : String) : Option α := search key dict.entries

/-- Whether a key has a value. -/
def contains (dict : Dict α) (key : String) : Bool := (dict.find? key).isSome

/-- The value under a key, or a default. -/
def getD (dict : Dict α) (key : String) (fallback : α) : α := (dict.find? key).getD fallback

/-- The keys in order. -/
def keys (dict : Dict α) : List String := dict.entries.map Prod.fst

/-- The values in the order of their keys. -/
def values (dict : Dict α) : List α := dict.entries.map Prod.snd

/-- Put an entry at its place, replacing the one with the same key. -/
def place (key : String) (value : α) : List (String × α) → List (String × α)
  | [] => [(key, value)]
  | entry :: rest =>
      if key < entry.1 then (key, value) :: entry :: rest
      else if key = entry.1 then (key, value) :: rest
      else entry :: place key value rest

theorem mem_place {key : String} {value : α} {entry : String × α} :
    ∀ {entries : List (String × α)},
      entry ∈ place key value entries → entry = (key, value) ∨ entry ∈ entries
  | [], member => by simpa [place] using member
  | head :: rest, member => by
      rw [place] at member
      split at member
      · simpa using member
      · split at member
        · rcases List.mem_cons.mp member with same | member
          · exact .inl same
          · exact .inr (List.mem_cons_of_mem _ member)
        · rcases List.mem_cons.mp member with same | member
          · exact .inr (same ▸ List.mem_cons_self)
          · exact (mem_place member).imp_right (List.mem_cons_of_mem _)

private theorem lt_of_not_lt {first second : String} (notLess : ¬ second < first)
    (different : ¬ second = first) : first < second := by
  rcases Decidable.em (first < second) with less | notGreater
  · exact less
  · exact absurd (String.le_antisymm (String.not_lt.mp notGreater) (String.not_lt.mp notLess))
      different

theorem place_ordered (key : String) (value : α) :
    ∀ {entries : List (String × α)},
      entries.Pairwise (fun first second => first.1 < second.1) →
        (place key value entries).Pairwise fun first second => first.1 < second.1
  | [], _ => by simp [place]
  | head :: rest, ordered => by
      obtain ⟨above, restOrdered⟩ := List.pairwise_cons.mp ordered
      rw [place]
      split
      · next less =>
          refine List.pairwise_cons.mpr ⟨fun entry member => ?_, ordered⟩
          rcases List.mem_cons.mp member with same | member
          · exact same ▸ less
          · exact String.lt_trans less (above entry member)
      · split
        · next same =>
            refine List.pairwise_cons.mpr ⟨fun entry member => ?_, restOrdered⟩
            exact same ▸ above entry member
        · next notLess different =>
            have placed := place_ordered key value restOrdered
            refine List.pairwise_cons.mpr ⟨fun entry member => ?_, placed⟩
            rcases mem_place member with same | member
            · exact same ▸ lt_of_not_lt notLess different
            · exact above entry member

/-- Set the value under a key. -/
def insert (dict : Dict α) (key : String) (value : α) : Dict α :=
  ⟨place key value dict.entries, place_ordered key value dict.ordered⟩

/-- Remove a key. -/
def erase (dict : Dict α) (key : String) : Dict α :=
  ⟨dict.entries.filter (·.1 ≠ key), dict.ordered.filter _⟩

/-- Change the value under a key, starting from a default when there is none. -/
def alter (dict : Dict α) (key : String) (fallback : α) (change : α → α) : Dict α :=
  dict.insert key (change (dict.getD key fallback))

/-- The dictionary of a list of entries; a later entry replaces an earlier one. -/
def ofList (entries : List (String × α)) : Dict α :=
  entries.foldl (fun dict entry => dict.insert entry.1 entry.2) empty

/-! ### Look-ups -/

@[simp] theorem find?_empty (key : String) : (empty : Dict α).find? key = none := rfl

theorem search_place (key other : String) (value : α) (entries : List (String × α)) :
    search other (place key value entries) =
      if key = other then some value else search other entries := by
  induction entries with
  | nil => simp [place, search]
  | cons head rest ih => grind [place, search]

/-- Setting a key changes the look-up of that key only. -/
theorem find?_insert (dict : Dict α) (key other : String) (value : α) :
    (dict.insert key value).find? other = if key = other then some value else dict.find? other :=
  search_place key other value dict.entries

@[simp] theorem find?_insert_self (dict : Dict α) (key : String) (value : α) :
    (dict.insert key value).find? key = some value := by
  simp [find?_insert]

theorem find?_insert_of_ne (dict : Dict α) {key other : String} (value : α)
    (different : key ≠ other) : (dict.insert key value).find? other = dict.find? other := by
  simp [find?_insert, different]

/-- Removing a key changes the look-up of that key only. -/
theorem find?_erase (dict : Dict α) (key other : String) :
    (dict.erase key).find? other = if key = other then none else dict.find? other := by
  obtain ⟨entries, ordered⟩ := dict
  simp only [erase, find?]
  clear ordered
  induction entries with
  | nil => simp [search]
  | cons head rest ih => grind [search]

private theorem search_eq_none_of_above {key : String} {entries : List (String × α)}
    (above : ∀ entry ∈ entries, key < entry.1) : search key entries = none := by
  induction entries with
  | nil => rfl
  | cons head rest ih =>
      have less := above head List.mem_cons_self
      have different : head.1 ≠ key := fun same => String.lt_irrefl _ (same ▸ less)
      simp only [search, different, ↓reduceIte]
      exact ih fun entry member => above entry (List.mem_cons_of_mem _ member)

private theorem key_not_lt_of_search_eq {key other : String} {value otherValue : α}
    {left right : List (String × α)}
    (above : ∀ entry ∈ right, other < entry.1)
    (same : search key ((key, value) :: left) = search key ((other, otherValue) :: right)) :
    ¬ key < other := by
  intro less
  have absent : search key ((other, otherValue) :: right) = none :=
    search_eq_none_of_above fun entry member => by
      rcases List.mem_cons.mp member with head | member
      · exact head ▸ less
      · exact String.lt_trans less (above entry member)
  rw [absent] at same
  simp [search] at same

private theorem entries_eq_of_search_eq :
    ∀ {first second : List (String × α)},
      first.Pairwise (fun a b => a.1 < b.1) → second.Pairwise (fun a b => a.1 < b.1) →
        (∀ key, search key first = search key second) → first = second
  | [], [], _, _, _ => rfl
  | [], (name, _) :: _, _, _, same => by simpa [search] using same name
  | (name, _) :: _, [], _, _, same => by simpa [search] using same name
  | (leftKey, leftValue) :: left, (rightKey, rightValue) :: right, leftOrder, rightOrder, same => by
      obtain ⟨leftAbove, leftRest⟩ := List.pairwise_cons.mp leftOrder
      obtain ⟨rightAbove, rightRest⟩ := List.pairwise_cons.mp rightOrder
      have keyEq : leftKey = rightKey :=
        String.le_antisymm
          (String.not_lt.mp (key_not_lt_of_search_eq leftAbove (same rightKey).symm))
          (String.not_lt.mp (key_not_lt_of_search_eq rightAbove (same leftKey)))
      subst keyEq
      have valueEq : leftValue = rightValue := by simpa [search] using same leftKey
      subst valueEq
      have restEq : left = right := by
        refine entries_eq_of_search_eq leftRest rightRest fun key => ?_
        by_cases here : leftKey = key
        · subst here
          rw [search_eq_none_of_above leftAbove, search_eq_none_of_above rightAbove]
        · simpa [search, here] using same key
      rw [restEq]

/-- Dictionaries with the same look-ups are equal. -/
theorem ext_find? {first second : Dict α} (same : ∀ key, first.find? key = second.find? key) :
    first = second := by
  obtain ⟨left, leftOrder⟩ := first
  obtain ⟨right, rightOrder⟩ := second
  have entriesEq : left = right := entries_eq_of_search_eq leftOrder rightOrder same
  subst entriesEq
  rfl

end Dict

/-- A finite set of names, listed in order. -/
abbrev NameSet := Dict Unit

end TensorLowering
