import TensorLowering.Document.Context
import TensorLowering.Proofs.Buffers

/-! # Complete alias lists

Completing the alias lists of a context changes nothing but alias lists
(`TensorLowering.Context.unlinked_linkAliases`), and a second time it changes nothing at all
(`TensorLowering.Context.linkAliases_linkAliases`), also if names are repeated or hidden.
-/

namespace TensorLowering

/-- The buffer without its alias list. -/
def Buffer.unlinked (buffer : Buffer) : Buffer := { buffer with aliases := [] }

theorem Buffer.unlinked_addAlias (name : String) (buffer : Buffer) :
    (buffer.addAlias name).unlinked = buffer.unlinked := by
  obtain ⟨aliases, same⟩ := addAlias_aliases name buffer
  rw [same]
  rfl

theorem BufferTable.modifyIn_eq_self {name : String} {change : Buffer → Buffer}
    {entries : List Buffer}
    (same : ∀ buffer, findIn name entries = some buffer → change buffer = buffer) :
    modifyIn name change entries = entries := by
  induction entries with
  | nil => rfl
  | cons buffer rest ih =>
      rw [findIn] at same
      rw [modifyIn]
      cases found : findIn name rest with
      | some other =>
          rw [found] at same ih
          rw [if_pos Option.isSome_some, ih same]
      | none =>
          rw [found] at same
          rw [Option.isSome_none, if_neg Bool.false_ne_true]
          split
          · next named => rw [same buffer (if_pos named)]
          · rfl

namespace Context

/-- The context without alias lists. -/
def unlinked (context : Context) : Context :=
  { context with
    locals := ⟨context.locals.entries.map Buffer.unlinked⟩
    globals := ⟨context.globals.entries.map Buffer.unlinked⟩ }

theorem unlinked_modify (context : Context) (name : String) {change : Buffer → Buffer}
    (same : ∀ buffer, (change buffer).unlinked = buffer.unlinked) :
    (context.modify name change).unlinked = context.unlinked := by
  rw [modify]
  split
  · simp only [unlinked, BufferTable.modify, BufferTable.map_modifyIn same]
  · simp only [unlinked, BufferTable.modify, BufferTable.map_modifyIn same]

theorem modify_eq_self {context : Context} {name : String} {change : Buffer → Buffer}
    (same : ∀ buffer, context.find? name = some buffer → change buffer = buffer) :
    context.modify name change = context := by
  have unchanged : ∀ table : BufferTable,
      (∀ buffer, table.find? name = some buffer → change buffer = buffer) →
        table.modify name change = table :=
    fun table same => congrArg BufferTable.mk (BufferTable.modifyIn_eq_self same)
  rw [modify]
  cases inLocals : context.locals.find? name with
  | some buffer =>
      rw [if_pos (by rw [isLocal, BufferTable.contains, inLocals]; rfl), unchanged]
      intro other found
      apply same
      rw [find?, found]
  | none =>
      rw [if_neg (by rw [isLocal, BufferTable.contains, inLocals]; exact Bool.false_ne_true),
        unchanged]
      intro other found
      apply same
      rw [find?, inLocals, found]

/-! ### Links -/

/-- The references of a context, each as its target and its name, global ones first. -/
def links (context : Context) : List (String × String) :=
  (context.globals.entries ++ context.locals.entries).filterMap fun buffer =>
    buffer.target?.map (·, buffer.name)

/-- Enter a reference as an alias of its target. -/
def link (context : Context) (entry : String × String) : Context :=
  context.modify entry.1 (·.addAlias entry.2)

theorem linkAliases_eq_foldl (context : Context) :
    context.linkAliases = context.links.foldl link context := by
  rw [linkAliases, links, List.foldl_filterMap]
  congr 1
  funext linked buffer
  cases buffer.target? <;> rfl

theorem links_unlinked (context : Context) : context.unlinked.links = context.links := by
  rw [links, links, unlinked, ← List.map_append, List.filterMap_map]
  rfl

theorem unlinked_foldl_link (context : Context) (entries : List (String × String)) :
    (entries.foldl link context).unlinked = context.unlinked := by
  induction entries generalizing context with
  | nil => rfl
  | cons entry entries ih =>
      rw [List.foldl_cons, ih]
      exact context.unlinked_modify entry.1 (Buffer.unlinked_addAlias entry.2)

/-- Completing alias lists changes nothing else. -/
theorem unlinked_linkAliases (context : Context) :
    context.linkAliases.unlinked = context.unlinked := by
  rw [linkAliases_eq_foldl, unlinked_foldl_link]

/-- The buffer of a target lists the reference, if there is such a buffer. -/
def IsLinked (context : Context) (entry : String × String) : Prop :=
  ∀ buffer, context.find? entry.1 = some buffer → entry.2 ∈ buffer.aliases

theorem link_of_isLinked {context : Context} {entry : String × String}
    (linked : context.IsLinked entry) : context.link entry = context := by
  apply modify_eq_self
  intro buffer found
  rw [Buffer.addAlias, if_pos (List.contains_iff_mem.mpr (linked buffer found))]

theorem mem_aliases_addAlias {buffer : Buffer} {name other : String} :
    name ∈ (buffer.addAlias other).aliases ↔ name ∈ buffer.aliases ∨ name = other := by
  rw [Buffer.addAlias]
  split
  · next listed =>
      rw [List.contains_iff_mem] at listed
      exact ⟨.inl, fun either => either.elim id fun same => same ▸ listed⟩
  · exact List.mem_append.trans (or_congr_right List.mem_singleton)

theorem isLinked_link_self (context : Context) (entry : String × String) :
    (context.link entry).IsLinked entry := by
  intro buffer found
  rw [link, find?_modify _ (Buffer.name_addAlias entry.2), if_pos rfl, Option.map_eq_some_iff]
    at found
  obtain ⟨before, -, rfl⟩ := found
  exact mem_aliases_addAlias.mpr (.inr rfl)

theorem IsLinked.link {context : Context} {entry : String × String}
    (linked : context.IsLinked entry) (other : String × String) :
    (context.link other).IsLinked entry := by
  intro buffer found
  rw [Context.link, find?_modify _ (Buffer.name_addAlias other.2)] at found
  split at found
  · next same =>
      obtain ⟨before, foundBefore, rfl⟩ := Option.map_eq_some_iff.mp found
      exact mem_aliases_addAlias.mpr (.inl (linked before (same ▸ foundBefore)))
  · exact linked buffer found

theorem IsLinked.foldl_link {context : Context} {entry : String × String}
    (linked : context.IsLinked entry) (entries : List (String × String)) :
    (entries.foldl Context.link context).IsLinked entry := by
  induction entries generalizing context with
  | nil => exact linked
  | cons other entries ih => exact ih (linked.link other)

theorem isLinked_of_mem (context : Context) (entries : List (String × String)) :
    ∀ entry ∈ entries, (entries.foldl Context.link context).IsLinked entry := by
  induction entries generalizing context with
  | nil => exact List.forall_mem_nil _
  | cons other entries ih =>
      refine List.forall_mem_cons.mpr ⟨?_, ih _⟩
      exact (context.isLinked_link_self other).foldl_link entries

theorem foldl_link_of_isLinked {context : Context} {entries : List (String × String)}
    (linked : ∀ entry ∈ entries, context.IsLinked entry) :
    entries.foldl Context.link context = context := by
  induction entries with
  | nil => rfl
  | cons entry entries ih =>
      obtain ⟨head, tail⟩ := List.forall_mem_cons.mp linked
      rw [List.foldl_cons, link_of_isLinked head, ih tail]

/-- **Completing alias lists twice is completing them once.** -/
theorem linkAliases_linkAliases (context : Context) :
    context.linkAliases.linkAliases = context.linkAliases := by
  -- Names and targets tell the links, so the second pass enters the links of the first one.
  have sameLinks : context.linkAliases.links = context.links := by
    rw [← links_unlinked, unlinked_linkAliases, links_unlinked]
  rw [linkAliases_eq_foldl context.linkAliases, sameLinks, linkAliases_eq_foldl]
  exact foldl_link_of_isLinked (context.isLinked_of_mem context.links)

/-! ### Checks -/

theorem validate_unlinked (context : Context) : context.unlinked.validate = context.validate := by
  simp only [validate, unlinked, BufferTable.names, List.map_map]
  rfl

theorem validate_linkAliases (context : Context) :
    context.linkAliases.validate = context.validate := by
  rw [← validate_unlinked, unlinked_linkAliases, validate_unlinked]

/-- A context that has been checked passes the check unchanged. -/
theorem checked_of_checked {context result : Context} (passed : context.checked = .ok result) :
    result = context.linkAliases ∧ result.checked = .ok result := by
  unfold checked at passed ⊢
  cases valid : context.validate with
  | error error => rw [valid] at passed; cases passed
  | ok _ =>
      rw [valid] at passed
      cases passed
      refine ⟨rfl, ?_⟩
      rw [validate_linkAliases, valid, linkAliases_linkAliases]
      rfl

end Context

end TensorLowering
