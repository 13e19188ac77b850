import Mathlib.Algebra.GroupWithZero.Nat
import Mathlib.Algebra.Order.BigOperators.Group.List
import Mathlib.Algebra.Order.Group.Nat
import TensorLowering.Context.Arena

/-! # Contexts as lists of buffers

Where all names are distinct, a context is the list of its buffers: a look-up finds the
buffer of that name, a change under a name is a change of one list entry, and dropping a
name filters the list. Sums over the buffers then follow a change entry by entry.
-/

namespace TensorLowering

namespace Dict

variable {α : Type}

theorem contains_insert (dict : Dict α) (key other : String) (value : α) :
    (dict.insert key value).contains other = (decide (key = other) || dict.contains other) := by
  rw [contains, find?_insert]
  by_cases same : key = other <;> simp [same, contains]

theorem contains_erase (dict : Dict α) (key other : String) :
    (dict.erase key).contains other = (decide (key ≠ other) && dict.contains other) := by
  rw [contains, find?_erase]
  by_cases same : key = other <;> simp [same, contains]

theorem eq_empty_iff {dict : Dict α} : dict = .empty ↔ ∀ key, dict.contains key = false := by
  refine ⟨fun same _ => same ▸ rfl, fun nothing => ext_find? fun key => ?_⟩
  have absent := nothing key
  rw [contains, Option.isSome_eq_false_iff, Option.isNone_iff_eq_none] at absent
  rw [absent, find?_empty]

end Dict

namespace BufferTable

/-! ### Entries with distinct names -/

theorem findIn_eq_none_iff {name : String} {entries : List Buffer} :
    findIn name entries = none ↔ name ∉ entries.map Buffer.name := by
  rw [← findIn_isSome_iff, Bool.not_eq_true, Option.isSome_eq_false_iff, Option.isNone_iff_eq_none]

theorem findIn_eq_some_iff {name : String} {entries : List Buffer}
    (distinct : (entries.map Buffer.name).Nodup) (buffer : Buffer) :
    findIn name entries = some buffer ↔ buffer ∈ entries ∧ buffer.name = name := by
  constructor
  · intro found
    exact ⟨mem_of_findIn found, name_of_findIn found⟩
  · rintro ⟨member, named⟩
    induction entries with
    | nil => cases member
    | cons head rest ih =>
        obtain ⟨absent, restDistinct⟩ := List.nodup_cons.mp distinct
        rw [findIn]
        rcases List.mem_cons.mp member with rfl | later
        · rw [findIn_eq_none_iff.mpr (named ▸ absent)]
          exact if_pos named
        · rw [ih restDistinct later]

theorem map_of_absent {name : String} {change : Buffer → Buffer} {entries : List Buffer}
    (absent : name ∉ entries.map Buffer.name) :
    entries.map (fun buffer => if buffer.name = name then change buffer else buffer) = entries := by
  refine (List.map_congr_left fun buffer member => ?_).trans (List.map_id entries)
  exact if_neg fun same => absent (List.mem_map.mpr ⟨buffer, member, same⟩)

/-- Changing the entry of a name is a change along the list. -/
theorem modifyIn_eq_map {name : String} {change : Buffer → Buffer} {entries : List Buffer}
    (distinct : (entries.map Buffer.name).Nodup) :
    modifyIn name change entries =
      entries.map fun buffer => if buffer.name = name then change buffer else buffer := by
  induction entries with
  | nil => rfl
  | cons head rest ih =>
      obtain ⟨absent, restDistinct⟩ := List.nodup_cons.mp distinct
      rw [modifyIn, List.map_cons]
      by_cases here : head.name = name
      · rw [findIn_eq_none_iff.mpr (here ▸ absent), map_of_absent (here ▸ absent)]
        simp [here]
      · by_cases later : (findIn name rest).isSome
        · rw [if_pos later, ih restDistinct, if_neg here]
        · rw [if_neg later, if_neg here, if_neg here,
            map_of_absent (findIn_isSome_iff.not.mp later)]

/-- A change that leaves a view of buffers alone leaves the view of a table alone. -/
theorem map_modifyIn {β : Type} {view : Buffer → β} {change : Buffer → Buffer}
    (same : ∀ buffer, view (change buffer) = view buffer) (name : String) (entries : List Buffer) :
    (modifyIn name change entries).map view = entries.map view := by
  induction entries with
  | nil => rfl
  | cons buffer rest ih =>
      rw [modifyIn]
      split
      · rw [List.map_cons, List.map_cons, ih]
      · split
        · rw [List.map_cons, List.map_cons, same]
        · rfl

theorem filter_of_absent {name : String} {entries : List Buffer}
    (absent : name ∉ entries.map Buffer.name) : entries.filter (·.name ≠ name) = entries := by
  apply List.filter_eq_self.mpr
  intro buffer member
  apply decide_eq_true
  intro same
  exact absent (List.mem_map.mpr ⟨buffer, member, same⟩)

/-- Dropping the entry of a name filters the list. -/
theorem eraseIn_eq_filter {name : String} {entries : List Buffer}
    (distinct : (entries.map Buffer.name).Nodup) :
    eraseIn name entries = entries.filter (·.name ≠ name) := by
  induction entries with
  | nil => rfl
  | cons head rest ih =>
      obtain ⟨absent, restDistinct⟩ := List.nodup_cons.mp distinct
      rw [eraseIn]
      by_cases here : head.name = name
      · rw [findIn_eq_none_iff.mpr (here ▸ absent), List.filter_cons_of_neg (by simpa using here),
          filter_of_absent (here ▸ absent)]
        simp [here]
      · rw [List.filter_cons_of_pos (by simpa using here)]
        by_cases later : (findIn name rest).isSome
        · rw [if_pos later, ih restDistinct]
        · rw [if_neg later, if_neg here, filter_of_absent (findIn_isSome_iff.not.mp later)]

end BufferTable

/-- The buffer, not live. -/
def Buffer.atRest (buffer : Buffer) : Buffer := { buffer with live := false }

/-! ### Sums over buffers -/

namespace Buffer

/-- The bytes of the chosen buffers of a level. -/
def bytesAt (buffers : List Buffer) (level : String) (chosen : Buffer → Bool) : Nat :=
  ((buffers.filter fun buffer => buffer.levelKey = level && chosen buffer).map footprint).sum

/-- What a buffer adds to the bytes of a level. -/
def share (buffer : Buffer) (level : String) (chosen : Buffer → Bool) : Nat :=
  if buffer.levelKey = level ∧ chosen buffer then buffer.footprint else 0

theorem bytesAt_eq_sum (buffers : List Buffer) (level : String) (chosen : Buffer → Bool) :
    bytesAt buffers level chosen = (buffers.map (·.share level chosen)).sum := by
  induction buffers with
  | nil => rfl
  | cons buffer rest ih =>
      rw [List.map_cons, List.sum_cons, ← ih, bytesAt, List.filter_cons, share]
      by_cases counted : buffer.levelKey = level ∧ chosen buffer
      · simp [counted, bytesAt]
      · rw [if_neg counted, if_neg (by simpa using counted), Nat.zero_add]
        rfl

theorem bytesAt_eq_zero {buffers : List Buffer} {chosen : Buffer → Bool}
    (omitted : ∀ buffer ∈ buffers, chosen buffer = false) (level : String) :
    bytesAt buffers level chosen = 0 := by
  rw [bytesAt, List.filter_eq_nil_iff.mpr]
  · rfl
  · intro buffer member
    simp [omitted buffer member]

theorem share_of_chosen {buffer : Buffer} {chosen : Buffer → Bool} (counted : chosen buffer = true)
    (level : String) :
    buffer.share level chosen = if buffer.levelKey = level then buffer.footprint else 0 := by
  simp [share, counted]

theorem share_of_not_chosen {buffer : Buffer} {chosen : Buffer → Bool}
    (omitted : chosen buffer = false) (level : String) : buffer.share level chosen = 0 := by
  simp [share, omitted]

theorem target?_eq_none_iff {buffer : Buffer} :
    buffer.target? = none ↔ buffer.isReference = false := by
  unfold target? isReference
  cases buffer.kind <;> simp

/-- A reference has no bytes of its own. -/
theorem share_of_target {buffer : Buffer} {target : String}
    (views : buffer.target? = some target) (level : String) (chosen : Buffer → Bool) :
    buffer.share level chosen = 0 := by
  have none : buffer.footprint = 0 := by
    rw [target?] at views
    rw [footprint]
    split at views
    · next kind => rw [kind]
    · simp at views
  rw [share, none, ite_self]

theorem share_le_bytesAt {buffers : List Buffer} {buffer : Buffer} (member : buffer ∈ buffers)
    (level : String) (chosen : Buffer → Bool) :
    buffer.share level chosen ≤ bytesAt buffers level chosen := by
  rw [bytesAt_eq_sum]
  exact List.single_le_sum (fun _ _ => Nat.zero_le _) _ (List.mem_map.mpr ⟨buffer, member, rfl⟩)

theorem sum_congr {buffers : List Buffer} {before after : Buffer → Nat}
    (same : ∀ buffer ∈ buffers, after buffer = before buffer) :
    (buffers.map after).sum = (buffers.map before).sum :=
  congrArg List.sum (List.map_congr_left same)

/-- A sum over buffers moves with the one buffer whose summand changes. -/
theorem sum_update {buffers : List Buffer} (distinct : (buffers.map Buffer.name).Nodup)
    {buffer : Buffer} (member : buffer ∈ buffers) {before after : Buffer → Nat}
    (others : ∀ other ∈ buffers, other.name ≠ buffer.name → after other = before other) :
    (buffers.map after).sum + before buffer = (buffers.map before).sum + after buffer := by
  induction buffers with
  | nil => cases member
  | cons head rest ih =>
      obtain ⟨absent, restDistinct⟩ := List.nodup_cons.mp distinct
      simp only [List.map_cons, List.sum_cons]
      rcases List.mem_cons.mp member with rfl | later
      · have same : (rest.map after).sum = (rest.map before).sum :=
          sum_congr fun other inRest => others other (List.mem_cons_of_mem _ inRest) fun named =>
            absent (List.mem_map.mpr ⟨other, inRest, named⟩)
        omega
      · have moved := ih restDistinct later fun other inRest =>
          others other (List.mem_cons_of_mem _ inRest)
        have kept : after head = before head :=
          others head List.mem_cons_self fun named =>
            absent (List.mem_map.mpr ⟨buffer, later, named.symm⟩)
        omega

end Buffer

/-! ### Alias lists -/

namespace Buffer

theorem addAlias_aliases (name : String) (buffer : Buffer) :
    ∃ aliases, buffer.addAlias name = { buffer with aliases } := by
  rw [addAlias]
  split
  · exact ⟨buffer.aliases, rfl⟩
  · exact ⟨_, rfl⟩

theorem name_addAlias (name : String) (buffer : Buffer) :
    (buffer.addAlias name).name = buffer.name := by
  obtain ⟨aliases, same⟩ := addAlias_aliases name buffer
  rw [same]

end Buffer

/-! ### The buffers of a context -/

namespace Context

/-- All buffers, local ones first. -/
def buffers (context : Context) : List Buffer := context.locals.entries ++ context.globals.entries

theorem names_eq_map (context : Context) : context.names = context.buffers.map Buffer.name :=
  List.map_append.symm

theorem mem_names_iff {context : Context} {name : String} :
    name ∈ context.names ↔ ∃ buffer ∈ context.buffers, buffer.name = name := by
  rw [names_eq_map, List.mem_map]

theorem find?_eq_findIn (context : Context) (name : String) :
    context.find? name =
      BufferTable.findIn name (context.globals.entries ++ context.locals.entries) := by
  rw [BufferTable.findIn_append, find?, BufferTable.find?]
  cases BufferTable.findIn name context.locals.entries <;> rfl

theorem mem_of_find? {context : Context} {name : String} {buffer : Buffer}
    (found : context.find? name = some buffer) : buffer ∈ context.buffers := by
  rw [find?_eq_findIn] at found
  exact List.perm_append_comm.mem_iff.mp (BufferTable.mem_of_findIn found)

theorem name_of_find? {context : Context} {name : String} {buffer : Buffer}
    (found : context.find? name = some buffer) : buffer.name = name := by
  rw [find?_eq_findIn] at found
  exact BufferTable.name_of_findIn found

/-- A look-up finds the buffer of that name. -/
theorem find?_eq_some_iff {context : Context} (distinct : context.names.Nodup) {name : String}
    {buffer : Buffer} :
    context.find? name = some buffer ↔ buffer ∈ context.buffers ∧ buffer.name = name := by
  have swapped : (context.globals.entries ++ context.locals.entries).Perm context.buffers :=
    List.perm_append_comm
  have swappedDistinct :
      ((context.globals.entries ++ context.locals.entries).map Buffer.name).Nodup :=
    (swapped.map _).nodup_iff.mpr (context.names_eq_map ▸ distinct)
  rw [find?_eq_findIn, BufferTable.findIn_eq_some_iff swappedDistinct, swapped.mem_iff]

theorem find?_eq_some_of_mem {context : Context} (distinct : context.names.Nodup)
    {buffer : Buffer} (member : buffer ∈ context.buffers) :
    context.find? buffer.name = some buffer :=
  (find?_eq_some_iff distinct).mpr ⟨member, rfl⟩

theorem eq_of_name_eq {context : Context} (distinct : context.names.Nodup)
    {first second : Buffer} (firstMember : first ∈ context.buffers)
    (secondMember : second ∈ context.buffers) (named : first.name = second.name) :
    first = second := by
  have found := find?_eq_some_of_mem distinct firstMember
  rw [named, find?_eq_some_of_mem distinct secondMember] at found
  exact (Option.some.inj found).symm

/-- Apart from the scopes, a change under a name is a change along the list of buffers. -/
theorem buffers_modify {context : Context} (distinct : context.names.Nodup) (name : String)
    (change : Buffer → Buffer) :
    (context.modify name change).buffers =
      context.buffers.map fun buffer => if buffer.name = name then change buffer else buffer := by
  obtain ⟨localDistinct, globalDistinct, apart⟩ := List.nodup_append.mp distinct
  rw [modify, buffers, buffers, List.map_append]
  split
  · next isLocal =>
      have absent : name ∉ context.globals.names := fun inGlobals =>
        apart name ((context.locals.contains_iff name).mp isLocal) name inGlobals rfl
      rw [BufferTable.map_of_absent absent]
      exact congrArg (· ++ _) (BufferTable.modifyIn_eq_map localDistinct)
  · next notLocal =>
      have absent : name ∉ context.locals.names :=
        (context.locals.contains_iff name).not.mp notLocal
      rw [BufferTable.map_of_absent absent]
      exact congrArg (_ ++ ·) (BufferTable.modifyIn_eq_map globalDistinct)

theorem buffers_drop {context : Context} (distinct : context.names.Nodup) (name : String) :
    (context.drop name).buffers = context.buffers.filter (·.name ≠ name) := by
  obtain ⟨localDistinct, globalDistinct, apart⟩ := List.nodup_append.mp distinct
  rw [drop, buffers, buffers, List.filter_append]
  split
  · next isLocal =>
      have absent : name ∉ context.globals.names := fun inGlobals =>
        apart name ((context.locals.contains_iff name).mp isLocal) name inGlobals rfl
      rw [BufferTable.filter_of_absent absent]
      exact congrArg (· ++ _) (BufferTable.eraseIn_eq_filter localDistinct)
  · next notLocal =>
      rw [BufferTable.filter_of_absent ((context.locals.contains_iff name).not.mp notLocal)]
      exact congrArg (_ ++ ·) (BufferTable.eraseIn_eq_filter globalDistinct)

theorem buffers_push_perm (context : Context) (buffer : Buffer) (scope : Scope) :
    (context.push buffer scope).buffers.Perm (buffer :: context.buffers) := by
  cases scope with
  | locals =>
      change ((context.locals.entries ++ [buffer]) ++ context.globals.entries).Perm _
      rw [List.append_assoc]
      exact List.perm_middle
  | globals =>
      change (context.locals.entries ++ (context.globals.entries ++ [buffer])).Perm _
      rw [← List.append_assoc]
      exact List.perm_append_singleton buffer context.buffers

theorem names_modify (context : Context) {name : String} {change : Buffer → Buffer}
    (keepsName : ∀ buffer, (change buffer).name = buffer.name) :
    (context.modify name change).names = context.names := by
  rw [modify]
  split
  · exact congrArg (· ++ _) (BufferTable.map_name_modifyIn keepsName context.locals.entries)
  · exact congrArg (_ ++ ·) (BufferTable.map_name_modifyIn keepsName context.globals.entries)

/-! ### What a change of buffers leaves alone -/

@[simp] theorem modify_dynamicSize (context : Context) (name : String) (change : Buffer → Buffer) :
    (context.modify name change).dynamicSize = context.dynamicSize := by
  rw [modify]
  split <;> rfl

@[simp] theorem modify_maxDynamicSize (context : Context) (name : String)
    (change : Buffer → Buffer) :
    (context.modify name change).maxDynamicSize = context.maxDynamicSize := by
  rw [modify]
  split <;> rfl

@[simp] theorem modify_pendingRelease (context : Context) (name : String)
    (change : Buffer → Buffer) :
    (context.modify name change).pendingRelease = context.pendingRelease := by
  rw [modify]
  split <;> rfl

@[simp] theorem modify_overflowed (context : Context) (name : String)
    (change : Buffer → Buffer) : (context.modify name change).overflowed = context.overflowed := by
  rw [modify]
  split <;> rfl

@[simp] theorem inUse_modify (context : Context) (name level : String)
    (change : Buffer → Buffer) :
    (context.modify name change).inUse level = context.inUse level := by
  rw [inUse, modify_dynamicSize, inUse]

@[simp] theorem peak_modify (context : Context) (name level : String)
    (change : Buffer → Buffer) : (context.modify name change).peak level = context.peak level := by
  rw [peak, modify_maxDynamicSize, peak]

@[simp] theorem push_pendingRelease (context : Context) (buffer : Buffer) (scope : Scope) :
    (context.push buffer scope).pendingRelease = context.pendingRelease := by
  cases scope <;> rfl

@[simp] theorem push_overflowed (context : Context) (buffer : Buffer) (scope : Scope) :
    (context.push buffer scope).overflowed = context.overflowed := by
  cases scope <;> rfl

@[simp] theorem inUse_push (context : Context) (buffer : Buffer) (scope : Scope) (level : String) :
    (context.push buffer scope).inUse level = context.inUse level := by
  cases scope <;> rfl

@[simp] theorem peak_push (context : Context) (buffer : Buffer) (scope : Scope) (level : String) :
    (context.push buffer scope).peak level = context.peak level := by
  cases scope <;> rfl

@[simp] theorem drop_pendingRelease (context : Context) (name : String) :
    (context.drop name).pendingRelease = context.pendingRelease := by
  rw [drop]
  split <;> rfl

@[simp] theorem drop_overflowed (context : Context) (name : String) :
    (context.drop name).overflowed = context.overflowed := by
  rw [drop]
  split <;> rfl

@[simp] theorem inUse_drop (context : Context) (name level : String) :
    (context.drop name).inUse level = context.inUse level := by
  rw [drop]
  split <;> rfl

@[simp] theorem peak_drop (context : Context) (name level : String) :
    (context.drop name).peak level = context.peak level := by
  rw [drop]
  split <;> rfl

/-! ### Contexts at rest

Allocating and freeing only touch liveness, counters and pending releases. What does not look
at these has the same value in a context and in the context at rest. -/

/-- The context with nothing live, nothing pending and empty counters, none of which has wrapped
around. -/
def atRest (context : Context) : Context :=
  { context with
    locals := ⟨context.locals.entries.map Buffer.atRest⟩
    globals := ⟨context.globals.entries.map Buffer.atRest⟩
    dynamicSize := .empty
    maxDynamicSize := .empty
    pendingRelease := .empty
    overflowed := false }

theorem atRest_modify (context : Context) (name : String) {change : Buffer → Buffer}
    (same : ∀ buffer, (change buffer).atRest = buffer.atRest) :
    (context.modify name change).atRest = context.atRest := by
  rw [modify]
  split
  · simp only [atRest, BufferTable.modify, BufferTable.map_modifyIn same]
  · simp only [atRest, BufferTable.modify, BufferTable.map_modifyIn same]

theorem findIn_map_atRest (name : String) (entries : List Buffer) :
    BufferTable.findIn name (entries.map Buffer.atRest) =
      (BufferTable.findIn name entries).map Buffer.atRest := by
  induction entries with
  | nil => rfl
  | cons head rest ih =>
      rw [List.map_cons, BufferTable.findIn, ih, BufferTable.findIn]
      cases BufferTable.findIn name rest with
      | some found => rfl
      | none =>
          change (if head.name = name then _ else _) = _
          dsimp only
          split <;> rfl

theorem find?_atRest (context : Context) (name : String) :
    context.atRest.find? name = (context.find? name).map Buffer.atRest := by
  rw [find?_eq_findIn, find?_eq_findIn, ← findIn_map_atRest, List.map_append]
  rfl

theorem aliasesOf_atRest (context : Context) : context.atRest.aliasesOf = context.aliasesOf := by
  funext name
  rw [aliasesOf, find?_atRest, Option.map_map, aliasesOf]
  rfl

/-! ### Scopes -/

theorem find?_of_mem_locals {context : Context} (distinct : context.locals.names.Nodup)
    {buffer : Buffer} (member : buffer ∈ context.locals.entries) :
    context.find? buffer.name = some buffer := by
  have found : context.locals.find? buffer.name = some buffer :=
    (BufferTable.findIn_eq_some_iff distinct buffer).mpr ⟨member, rfl⟩
  rw [find?, found]

theorem entries_push (context : Context) (buffer : Buffer) (place scope : Scope) :
    ((context.push buffer place).table scope).entries =
      (context.table scope).entries ++ if scope = place then [buffer] else [] := by
  cases place <;> cases scope <;> simp [push, table, BufferTable.push]

theorem entries_drop_sublist (context : Context) (name : String) (scope : Scope) :
    ((context.drop name).table scope).entries.Sublist (context.table scope).entries := by
  rw [drop]
  split
  · cases scope
    · exact BufferTable.eraseIn_sublist name context.locals.entries
    · exact List.Sublist.refl _
  · cases scope
    · exact List.Sublist.refl _
    · exact BufferTable.eraseIn_sublist name context.globals.entries

section Views

variable {β : Type} {view : Buffer → β}

theorem map_entries_modify {change : Buffer → Buffer}
    (same : ∀ buffer, view (change buffer) = view buffer) (context : Context) (name : String)
    (scope : Scope) :
    ((context.modify name change).table scope).entries.map view =
      (context.table scope).entries.map view := by
  rw [modify]
  split
  · cases scope
    · exact BufferTable.map_modifyIn same name context.locals.entries
    · rfl
  · cases scope
    · rfl
    · exact BufferTable.map_modifyIn same name context.globals.entries

theorem map_entries_of_atRest_eq (same : ∀ buffer : Buffer, view buffer.atRest = view buffer)
    {first second : Context} (rests : first.atRest = second.atRest) (scope : Scope) :
    (first.table scope).entries.map view = (second.table scope).entries.map view := by
  have resting : ∀ context : Context, (context.table scope).entries.map view =
      (context.atRest.table scope).entries.map view := by
    intro context
    have views : view ∘ Buffer.atRest = view := funext same
    cases scope <;> simp only [table, atRest, List.map_map, views]
  rw [resting first, resting second, rests]

end Views

/-! ### Targets -/

/-- The target of the reference that a name denotes. -/
def targetOf (context : Context) (name : String) : Option String :=
  (context.find? name).bind Buffer.target?

theorem targetOf_eq {context : Context} {name : String} {buffer : Buffer}
    (found : context.find? name = some buffer) : context.targetOf name = buffer.target? := by
  rw [targetOf, found]
  rfl

theorem targetOf_atRest (context : Context) : context.atRest.targetOf = context.targetOf := by
  funext name
  rw [targetOf, find?_atRest, targetOf]
  cases context.find? name <;> rfl

theorem targetOf_congr {first second : Context} (same : first.atRest = second.atRest) :
    first.targetOf = second.targetOf := by
  rw [← targetOf_atRest, same, targetOf_atRest]

end Context

end TensorLowering
