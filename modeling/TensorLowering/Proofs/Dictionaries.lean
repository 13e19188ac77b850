import TensorLowering.Dict

/-! # Dictionaries and their entries

The entries of a dictionary are what its keys are looked up to, and no key is listed twice. A
dictionary is that of its entries (`TensorLowering.Dict.ofList_entries`), and the dictionary of a
list has the keys of the list (`TensorLowering.Dict.mem_keys_ofList`).
-/

namespace TensorLowering

namespace Dict

variable {α : Type}

/-! ### Keys and entries -/

theorem mem_of_search {entries : List (String × α)} {key : String} {value : α}
    (found : search key entries = some value) : (key, value) ∈ entries := by
  induction entries with
  | nil => cases found
  | cons entry rest ih =>
      rw [search] at found
      split at found
      · next same =>
          cases found
          rw [← same]
          exact List.mem_cons_self
      · exact List.mem_cons_of_mem _ (ih found)

/-- An entry of a dictionary is what its key is looked up to. -/
theorem mem_entries_iff {dict : Dict α} {key : String} {value : α} :
    (key, value) ∈ dict.entries ↔ dict.find? key = some value := by
  refine ⟨fun member => ?_, mem_of_search⟩
  obtain ⟨entries, ordered⟩ := dict
  change search key entries = some value
  induction entries with
  | nil => exact absurd member List.not_mem_nil
  | cons entry entries ih =>
      obtain ⟨above, ordered⟩ := List.pairwise_cons.mp ordered
      rw [search]
      rcases List.mem_cons.mp member with rfl | later
      · exact if_pos rfl
      · have different : entry.1 ≠ key :=
          fun same => String.lt_irrefl _ (same ▸ above (key, value) later)
        rw [if_neg different]
        exact ih ordered later

theorem contains_iff_mem_keys {dict : Dict α} {key : String} :
    dict.contains key = true ↔ key ∈ dict.keys := by
  rw [contains, Option.isSome_iff_exists, keys, List.mem_map]
  constructor
  · intro held
    obtain ⟨value, found⟩ := held
    exact ⟨(key, value), mem_entries_iff.mpr found, rfl⟩
  · intro held
    obtain ⟨entry, member, same⟩ := held
    exact ⟨entry.2, mem_entries_iff.mp (same ▸ member)⟩

theorem nodup_keys (dict : Dict α) : dict.keys.Nodup := by
  rw [keys, List.Nodup, List.pairwise_map]
  apply dict.ordered.imp
  intro first second less same
  exact String.lt_irrefl _ (same ▸ less)

theorem length_keys_erase {dict : Dict α} {key : String}
    (present : dict.contains key = true) : (dict.erase key).keys.length < dict.keys.length := by
  obtain ⟨value, found⟩ := Option.isSome_iff_exists.mp present
  rw [keys, keys, List.length_map, List.length_map, erase]
  apply List.length_filter_lt_length_iff_exists.mpr
  exact ⟨(key, value), mem_of_search found, by simp⟩

/-! ### Dictionaries of lists -/

theorem place_of_above {key : String} {value : α} {entries : List (String × α)}
    (above : ∀ entry ∈ entries, entry.1 < key) :
    place key value entries = entries ++ [(key, value)] := by
  induction entries with
  | nil => rfl
  | cons entry rest ih =>
      have less := above entry List.mem_cons_self
      have notLess : ¬key < entry.1 :=
        fun greater => String.lt_irrefl _ (String.lt_trans less greater)
      have different : ¬key = entry.1 := fun same => String.lt_irrefl _ (same ▸ less)
      rw [place, if_neg notLess, if_neg different, List.cons_append,
        ih fun entry member => above entry (List.mem_cons_of_mem _ member)]

theorem entries_foldl_insert (dict : Dict α) (entries : List (String × α))
    (ordered : (dict.entries ++ entries).Pairwise fun first second => first.1 < second.1) :
    (entries.foldl (fun dict entry => dict.insert entry.1 entry.2) dict).entries =
      dict.entries ++ entries := by
  induction entries generalizing dict with
  | nil => rw [List.foldl_nil, List.append_nil]
  | cons entry rest ih =>
      have above : ∀ other ∈ dict.entries, other.1 < entry.1 := by
        intro other member
        exact (List.pairwise_append.mp ordered).2.2 other member entry List.mem_cons_self
      have placed : (dict.insert entry.1 entry.2).entries = dict.entries ++ [entry] :=
        place_of_above above
      rw [List.append_cons, ← placed] at ordered
      rw [List.foldl_cons, ih _ ordered, placed, ← List.append_cons]

/-- A dictionary is that of its entries. -/
theorem ofList_entries (dict : Dict α) : ofList dict.entries = dict := by
  have same : (ofList dict.entries).entries = dict.entries :=
    entries_foldl_insert empty dict.entries dict.ordered
  cases made : ofList dict.entries
  rw [made] at same
  cases dict
  cases same
  rfl

theorem mem_of_mem_ofList {entries : List (String × α)} {entry : String × α}
    (member : entry ∈ (ofList entries).entries) : entry ∈ entries := by
  have placed : ∀ (entries : List (String × α)) (dict : Dict α),
      entry ∈ (entries.foldl (fun dict entry => dict.insert entry.1 entry.2) dict).entries →
        entry ∈ dict.entries ∨ entry ∈ entries := by
    intro entries
    induction entries with
    | nil => exact fun _ => .inl
    | cons head rest ih =>
        intro dict listed
        rcases ih _ listed with listed | listed
        · rcases mem_place listed with same | listed
          · exact .inr (same ▸ List.mem_cons_self)
          · exact .inl listed
        · exact .inr (List.mem_cons_of_mem _ listed)
  rcases placed entries empty member with none | member
  · exact nomatch none
  · exact member

theorem mem_of_find?_ofList {entries : List (String × α)} {key : String} {value : α}
    (found : (ofList entries).find? key = some value) : (key, value) ∈ entries :=
  mem_of_mem_ofList (mem_of_search found)

theorem isSome_find?_ofList {entries : List (String × α)} {key : String}
    (member : key ∈ entries.map Prod.fst) : ((ofList entries).find? key).isSome = true := by
  have inserted : ∀ (entries : List (String × α)) (dict : Dict α),
      key ∈ entries.map Prod.fst ∨ (dict.find? key).isSome = true →
        ((entries.foldl (fun dict entry => dict.insert entry.1 entry.2) dict).find? key).isSome =
          true := by
    intro entries
    induction entries with
    | nil => exact fun dict present => present.resolve_left List.not_mem_nil
    | cons head rest ih =>
        intro dict present
        apply ih
        rw [find?_insert]
        rw [List.map_cons, List.mem_cons] at present
        by_cases here : head.1 = key
        · exact .inr (by rw [if_pos here]; rfl)
        · rw [if_neg here]
          exact present.imp_left fun listed => listed.resolve_left fun same => here same.symm
  exact inserted entries empty (.inl member)

/-- The keys of a list are the keys of its dictionary. -/
theorem mem_keys_ofList {entries : List (String × α)} {key : String} :
    key ∈ (ofList entries).keys ↔ key ∈ entries.map Prod.fst := by
  refine ⟨fun member => ?_, fun member => contains_iff_mem_keys.mp (isSome_find?_ofList member)⟩
  obtain ⟨entry, listed, rfl⟩ := List.mem_map.mp member
  exact List.mem_map_of_mem (mem_of_mem_ofList listed)

end Dict

end TensorLowering
