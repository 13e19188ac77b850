import TensorLowering.Proofs.Ledger
import TensorLowering.Proofs.Walk

/-! # Aliases and targets

The alias lists are searched from the owner of storage towards its views; targets lead the
other way. Where each alias list holds exactly the references that target its buffer, the
search answers whether a live reference views the buffer through any number of targets
(`TensorLowering.Context.Mirrored.hasLiveAliases_iff`). Every run that adds buffers without
aliases keeps the lists and the targets in step.
-/

namespace TensorLowering

namespace Context

open Relation

/-- A name views another by one or more steps from a reference to its target. -/
def Views (context : Context) : String → String → Prop :=
  TransGen fun view target => context.targetOf view = some target

/-- The alias list of every buffer holds exactly the references that target it. -/
def Mirrored (context : Context) : Prop :=
  ∀ owner view, view ∈ context.aliasesOf owner ↔ context.targetOf view = some owner

/-! ### The search through alias lists -/

theorem aliasesOf_of_absent {context : Context} {name : String} (absent : name ∉ context.names) :
    context.aliasesOf name = [] := by
  rw [aliasesOf, find?_eq_none_iff.mpr absent]
  rfl

theorem edge_aliasGraph_iff (context : Context) (owner view : String) :
    Reach.Edge context.aliasGraph owner view ↔ view ∈ context.aliasesOf owner :=
  Reach.edge_map_iff (fun _ absent => aliasesOf_of_absent absent) owner view

theorem mem_names_of_isLive {context : Context} {name : String}
    (live : context.isLive name = true) : name ∈ context.names := by
  obtain ⟨buffer, found, -⟩ := exists_of_isLive live
  exact mem_names_of_find? found

/-- The search finds a live buffer if alias lists lead to one. -/
theorem hasLiveAliases_eq_true_iff {context : Context} {name : String} {buffer : Buffer}
    (found : context.find? name = some buffer) :
    context.hasLiveAliases name = .ok true ↔
      ∃ view, context.isLive view = true ∧
        TransGen (fun owner view => view ∈ context.aliasesOf owner) name view := by
  have edges :
      Reach.Edge context.aliasGraph = fun owner view => view ∈ context.aliasesOf owner := by
    funext owner view
    exact propext (context.edge_aliasGraph_iff owner view)
  rw [hasLiveAliases_eq found, Except.ok.injEq, List.any_eq_true]
  apply exists_congr
  intro view
  rw [aliasClosure, Reach.mem_walk, Reach.LeadsTo, edges, TransGen.head'_iff]
  constructor
  · rintro ⟨⟨-, first, member, path⟩, live⟩
    exact ⟨live, first, List.mem_reverse.mp member, path⟩
  · rintro ⟨live, first, member, path⟩
    refine ⟨⟨?_, first, List.mem_reverse.mpr member, path⟩, live⟩
    rw [aliasGraph, Reach.search_map, if_pos (mem_names_of_isLive live)]
    rfl

/-- **A search through alias lists finds the live views.** -/
theorem Mirrored.hasLiveAliases_iff {context : Context} (mirrored : Mirrored context)
    {name : String}
    {buffer : Buffer} (found : context.find? name = some buffer) :
    context.hasLiveAliases name = .ok true ↔
      ∃ view, context.isLive view = true ∧ context.Views view name := by
  have turned : (fun owner view => view ∈ context.aliasesOf owner) =
      Function.swap fun view target => context.targetOf view = some target := by
    funext owner view
    exact propext (mirrored owner view)
  rw [hasLiveAliases_eq_true_iff found, turned]
  exact exists_congr fun view => and_congr_right fun _ => transGen_swap

/-! ### Lists and targets under changes of a context -/

theorem mirrored_congr {first second : Context} (same : first.atRest = second.atRest) :
    Mirrored first ↔ Mirrored second := by
  rw [Mirrored, targetOf_congr same, ← aliasesOf_atRest, same, aliasesOf_atRest, Mirrored]

section Changes

variable {context after : Context} {buffer : Buffer}

theorem find?_push_self {context : Context} {buffer : Buffer}
    (fresh : context.isBuffer buffer.name = false) (scope : Scope) :
    (context.push buffer scope).find? buffer.name = some buffer := by
  have absent := isBuffer_eq_false_iff.mp fresh
  rw [find?] at absent
  cases held : context.locals.find? buffer.name with
  | some other => simp [held] at absent
  | none => cases scope <;> simp [push, find?, BufferTable.find?_push, held]

/-- Adding a buffer changes at most the alias lists of the others. -/
theorem find?_add_of_ne {scope : Scope} {other : String} (different : other ≠ buffer.name)
    (added : context.add buffer scope = .ok after) :
    (context.find? other = none ∧ after.find? other = none) ∨
      ∃ known aliases, context.find? other = some known ∧
        after.find? other = some { known with aliases } := by
  rcases add_cases added with ⟨-, rfl⟩ | ⟨target, -, -, rfl⟩
  · rw [find?_push_of_ne context (Ne.symm different)]
    cases context.find? other with
    | none => exact .inl ⟨rfl, rfl⟩
    | some known => exact .inr ⟨known, known.aliases, rfl, rfl⟩
  · rw [find?_push_of_ne _ (Ne.symm different), find?_modify context (Buffer.name_addAlias _)]
    by_cases same : other = target
    · subst same
      rw [if_pos rfl]
      cases context.find? other with
      | none => exact .inl ⟨rfl, rfl⟩
      | some known =>
          obtain ⟨aliases, eq⟩ := known.addAlias_aliases buffer.name
          exact .inr ⟨known, aliases, rfl, congrArg some eq⟩
    · rw [if_neg same]
      cases context.find? other with
      | none => exact .inl ⟨rfl, rfl⟩
      | some known => exact .inr ⟨known, known.aliases, rfl, rfl⟩

/-- Adding a fresh buffer gives its name a target and leaves all other targets alone. -/
theorem targetOf_add {scope : Scope} (fresh : context.isBuffer buffer.name = false)
    (added : context.add buffer scope = .ok after) (other : String) :
    after.targetOf other =
      if other = buffer.name then buffer.target? else context.targetOf other := by
  by_cases here : other = buffer.name
  · subst here
    rw [if_pos rfl, targetOf]
    rcases add_cases added with ⟨-, rfl⟩ | ⟨target, -, -, rfl⟩
    · rw [find?_push_self fresh]
      rfl
    · have freshStill : (context.modify target (·.addAlias buffer.name)).isBuffer buffer.name =
          false := (isBuffer_modify context (Buffer.name_addAlias _) _).trans fresh
      rw [find?_push_self freshStill]
      rfl
  · rw [if_neg here, targetOf, targetOf]
    rcases find?_add_of_ne here added with ⟨none, noneAfter⟩ | ⟨known, aliases, found, foundAfter⟩
    · rw [none, noneAfter]
    · rw [found, foundAfter]
      rfl

theorem isLive_add {scope : Scope} {other : String} (different : other ≠ buffer.name)
    (added : context.add buffer scope = .ok after) : after.isLive other = context.isLive other := by
  rw [isLive, isLive]
  rcases find?_add_of_ne different added with
    ⟨none, noneAfter⟩ | ⟨known, aliases, found, foundAfter⟩
  · rw [none, noneAfter]
  · rw [found, foundAfter]
    rfl

/-- Adding a fresh buffer without aliases lists it as an alias of its target only. -/
theorem mem_aliasesOf_add {scope : Scope} (fresh : context.isBuffer buffer.name = false)
    (unviewed : buffer.aliases = []) (added : context.add buffer scope = .ok after)
    (owner view : String) :
    view ∈ after.aliasesOf owner ↔
      view ∈ context.aliasesOf owner ∨ view = buffer.name ∧ buffer.target? = some owner := by
  have absent := isBuffer_eq_false_iff.mp fresh
  rcases add_cases added with ⟨root, rfl⟩ | ⟨target, views, known, rfl⟩
  · rw [root]
    by_cases here : owner = buffer.name
    · subst here
      simp [aliasesOf, find?_push_self fresh, absent, unviewed]
    · simp [aliasesOf, find?_push_of_ne context (Ne.symm here)]
  · have freshStill : (context.modify target (·.addAlias buffer.name)).isBuffer buffer.name =
        false := (isBuffer_modify context (Buffer.name_addAlias _) _).trans fresh
    have targetOther : target ≠ buffer.name := by
      rintro rfl
      rw [fresh] at known
      exact Bool.noConfusion known
    rw [views, Option.some.injEq]
    by_cases here : owner = buffer.name
    · subst here
      simp [aliasesOf, find?_push_self freshStill, absent, unviewed, targetOther]
    · rw [aliasesOf, find?_push_of_ne _ (Ne.symm here),
        find?_modify context (Buffer.name_addAlias _)]
      by_cases same : owner = target
      · subst same
        rw [isBuffer_iff] at known
        obtain ⟨found, lookup⟩ := Option.isSome_iff_exists.mp known
        rw [if_pos rfl, lookup, aliasesOf, lookup]
        simp only [Option.map_some, Option.getD_some, and_true]
        rw [Buffer.addAlias]
        split
        · next listed =>
            refine ⟨.inl, fun member => member.elim id ?_⟩
            rintro rfl
            exact List.contains_iff_mem.mp listed
        · rw [List.mem_append, List.mem_singleton]
      · simp [aliasesOf, same, Ne.symm same]

/-- Adding a fresh buffer without aliases keeps lists and targets in step. -/
theorem Mirrored.add {scope : Scope} (mirrored : Mirrored context)
    (fresh : context.isBuffer buffer.name = false) (unviewed : buffer.aliases = [])
    (added : context.add buffer scope = .ok after) : Mirrored after := by
  intro owner view
  rw [mem_aliasesOf_add fresh unviewed added, targetOf_add fresh added, mirrored]
  by_cases here : view = buffer.name
  · subst here
    simp [targetOf, isBuffer_eq_false_iff.mp fresh]
  · simp [here]

end Changes

end Context

end TensorLowering
