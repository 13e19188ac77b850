import TensorLowering.Proofs.ClosureReuse
import TensorLowering.Proofs.ScheduleBalance
import TensorLowering.Proofs.ViewOrder

/-! # Balanced closures

The buffers that live in the body of a closure get storage before its code and are freed after it,
in the reverse order. A view comes after what it views, so it is freed first, and no release has to
wait (`TensorLowering.Context.Frees.owners_eq`). In the end the counters are where they were, the
peaks have seen all these buffers at once, and the body has returned the storage of each buffer
that owns some (`TensorLowering.Lowering.makeClosure_balanced`). A counter that cannot hold all of
them on top of what is in use loses count (`TensorLowering.Lowering.brimmingBlock_wraps`).
-/

namespace TensorLowering

namespace Context

/-! ### Views are freed first -/

section Freeing

variable {context after : Context} {name : String} {buffer : Buffer} {names owners : List String}

/-- A buffer that no other live buffer views returns its storage, if it owns some, and leaves
nothing pending. -/
theorem Deallocation.owners_eq (freed : Deallocation context name buffer owners after)
    (found : context.find? name = some buffer) (mirrored : Mirrored context)
    (settled : ∀ other, context.pendingRelease.contains other = false)
    (unviewed : ∀ view, view ≠ name → context.isLive view = true → ¬ context.Views view name) :
    owners = [name].filter (fun name => (context.targetOf name).isNone) ∧
      ∀ other, after.pendingRelease.contains other = false := by
  have targets := targetOf_eq found
  have live := freed.isLive_eq
  have views := views_congr freed.atRest_eq
  have mirroredAfter := (mirrored_congr freed.atRest_eq).mpr mirrored
  have foundAfter := freed.find?_eq name
  rw [if_pos rfl, found, Option.map_some] at foundAfter
  have stillSettled : ∀ other, (context.retire name).pendingRelease.contains other = false :=
    fun other => context.retire_pendingRelease name ▸ settled other
  cases freed with
  | deferred root viewed =>
      obtain ⟨view, viewLive, viewsName⟩ := (mirroredAfter.hasLiveAliases_iff foundAfter).mp viewed
      rw [live, Bool.and_eq_true, decide_eq_true_eq] at viewLive
      exact absurd (views ▸ viewsName) (unviewed view viewLive.1 viewLive.2)
  | returned root _ =>
      rw [List.filter_cons_of_pos (by simp [targets, root])]
      exact ⟨rfl, stillSettled⟩
  | settled _ owing =>
      rw [settled] at owing
      exact absurd owing Bool.false_ne_true
  | kept isView _ =>
      rw [List.filter_cons_of_neg (by simp [targets, isView])]
      exact ⟨rfl, stillSettled⟩

/-- **Freeing views first defers no release.** If all live views of the names are among them, and
no name is viewed by a later one, the storage of each that owns some is returned in turn. -/
theorem Frees.owners_eq (frees : Frees context names owners after) (mirrored : Mirrored context)
    (settled : ∀ other, context.pendingRelease.contains other = false)
    (inside : ∀ name ∈ names, ∀ view, context.isLive view = true → context.Views view name →
      view ∈ names)
    (ordered : names.Pairwise fun first second => ¬ context.Views second first) :
    owners = names.filter (fun name => (context.targetOf name).isNone) ∧
      ∀ other, after.pendingRelease.contains other = false := by
  induction frees with
  | nil => exact ⟨rfl, settled⟩
  | @cons context middle after name names _ _ buffer found live first later ih =>
      obtain ⟨headLast, tailOrdered⟩ := List.pairwise_cons.mp ordered
      have sameTargets := targetOf_congr first.atRest_eq
      have sameViews := views_congr first.atRest_eq
      -- A live view of the first name would be among the later ones.
      have unviewed : ∀ view, view ≠ name → context.isLive view = true →
          ¬ context.Views view name := by
        intro view different viewLive views
        have member := inside name List.mem_cons_self view viewLive views
        exact headLast view (List.mem_of_ne_of_mem different member) views
      obtain ⟨firstOwners, settledMiddle⟩ := first.owners_eq found mirrored settled unviewed
      have insideMiddle : ∀ other ∈ names, ∀ view, middle.isLive view = true →
          middle.Views view other → view ∈ names := by
        intro other member view viewLive views
        rw [first.isLive_eq, Bool.and_eq_true, decide_eq_true_eq] at viewLive
        rw [sameViews] at views
        have listed := inside other (List.mem_cons_of_mem _ member) view viewLive.2 views
        exact List.mem_of_ne_of_mem viewLive.1 listed
      obtain ⟨laterOwners, settledAfter⟩ := ih
        ((mirrored_congr first.atRest_eq).mpr mirrored) settledMiddle insideMiddle
        (sameViews ▸ tailOrdered)
      refine ⟨?_, settledAfter⟩
      rw [firstOwners, laterOwners, sameTargets, ← List.filter_append, List.singleton_append]

end Freeing

/-! ### The counters -/

section Counters

variable {context after : Context} {names owners : List String}

theorem bytesOf_append (context : Context) (first second : List String) (level : String) :
    context.bytesOf (first ++ second) level =
      context.bytesOf first level + context.bytesOf second level := by
  simp only [bytesOf, Buffer.bytesAt_eq_sum, List.filterMap_append, List.map_append,
    List.sum_append]

theorem bytesOf_reverse (context : Context) (names : List String) (level : String) :
    context.bytesOf names.reverse level = context.bytesOf names level := by
  simp only [bytesOf, Buffer.bytesAt_eq_sum, List.filterMap_reverse, List.map_reverse,
    List.sum_reverse]

/-- References have no bytes of their own. -/
theorem bytesOf_filter_roots (context : Context) (names : List String) (level : String) :
    context.bytesOf (names.filter fun name => (context.targetOf name).isNone) level =
      context.bytesOf names level := by
  induction names with
  | nil => rfl
  | cons name names ih =>
      rw [← List.singleton_append, List.filter_append, bytesOf_append, bytesOf_append, ih]
      congr 1
      cases found : context.find? name with
      | none => rw [List.filter_cons_of_pos (by simp [targetOf, found])]; rfl
      | some buffer =>
          cases target : buffer.target? with
          | none => rw [List.filter_cons_of_pos (by simp [targetOf, found, target])]; rfl
          | some owner =>
              rw [List.filter_cons_of_neg (by simp [targetOf, found, target]),
                bytesOf_singleton found]
              have none := Buffer.share_of_target target level fun _ => true
              rw [Buffer.share_of_chosen rfl] at none
              exact none.symm

/-- Freeing lowers the counters by the bytes of the owners. -/
theorem Frees.inUse_eq (frees : Frees context names owners after) (level : String) :
    after.inUse level = context.inUse level - context.bytesOf owners level := by
  induction frees with
  | nil => rfl
  | cons found _ first later ih =>
      rw [ih, first.inUse_eq found, bytesOf_congr first.atRest_eq, bytesOf_append, Nat.sub_sub]

/-- A context is prepared for names to live for a while: its books are right and nothing is pending,
the names have their targets first, none of them views a later one, and no live buffer besides views
one of them. -/
structure Prepared (context : Context) (names : List String) : Prop where
  accounted : Accounted context
  mirrored : Mirrored context
  settled : context.pendingRelease = .empty
  known : ∀ name ∈ names, context.isBuffer name = true
  targetsFirst : context.TargetsFirst names names
  ordered : names.Pairwise fun first second => ¬ context.Views first second
  unviewed : ∀ view, context.isLive view = true → view ∉ names →
    ∀ name ∈ names, ¬ context.Views view name

/-- Buffers had storage for a while: they are dead before and after, and nothing is pending. Each
counter that can hold all of them on top of what is in use is where it was, and its peak has seen
them all at once. -/
structure Balanced (context : Context) (names : List String) (after : Context) : Prop where
  dead : ∀ name ∈ names, context.isLive name = false ∧ after.isLive name = false
  settled : after.pendingRelease = .empty
  counters : ∀ level, context.inUse level + context.bytesOf names level < counterLimit →
    after.inUse level = context.inUse level ∧
      after.peak level =
        max (context.peak level) (context.inUse level + context.bytesOf names level)

/-- **Allocating names and freeing them in the reverse order is balanced.** -/
theorem Prepared.balanced {middle : Context} (prepared : Prepared context names)
    (allocates : Allocates context names.reverse middle)
    (frees : Frees middle names.reverse owners after) :
    owners = (names.filter fun name => (context.targetOf name).isNone).reverse ∧
      Balanced context names after := by
  have settledBefore := Dict.eq_empty_iff.mp prepared.settled
  have sameViews := views_congr allocates.atRest_eq
  have settledMiddle : ∀ other, middle.pendingRelease.contains other = false := by
    intro other
    rw [allocates.pending_eq, settledBefore, Bool.and_false]
  have inside : ∀ name ∈ names.reverse, ∀ view, middle.isLive view = true →
      middle.Views view name → view ∈ names.reverse := by
    intro name member view live views
    by_contra outside
    rw [allocates.isLive_eq, Bool.or_eq_true, List.contains_iff_mem] at live
    rw [List.mem_reverse] at member outside
    have liveBefore := live.resolve_left (by rwa [List.mem_reverse])
    exact prepared.unviewed view liveBefore outside name member (sameViews ▸ views)
  obtain ⟨ownersAre, settledAfter⟩ := frees.owners_eq
    ((mirrored_congr allocates.atRest_eq).mpr prepared.mirrored) settledMiddle inside
    (by rw [List.pairwise_reverse, sameViews]; exact prepared.ordered)
  rw [List.filter_reverse, targetOf_congr allocates.atRest_eq] at ownersAre
  refine ⟨ownersAre, fun name member => ⟨?_, ?_⟩, Dict.eq_empty_iff.mpr settledAfter, ?_⟩
  · exact allocates.isLive_of_mem (List.mem_reverse.mpr member)
  · rw [frees.isLive_eq, List.contains_iff_mem.mpr (List.mem_reverse.mpr member)]
    rfl
  · intro level fits
    rw [← bytesOf_reverse] at fits
    have taken := allocates.inUse_eq settledBefore fits
    have lifted := allocates.peak_of_fits settledBefore fits
      (prepared.accounted.inUse_le_peak level)
    rw [bytesOf_reverse] at taken lifted
    refine ⟨?_, (frees.peak_eq level).trans lifted⟩
    rw [frees.inUse_eq, ownersAre, bytesOf_congr allocates.atRest_eq, bytesOf_reverse,
      bytesOf_filter_roots, taken, Nat.add_sub_cancel]

end Counters

/-! ### A new struct beside the buffers -/

section NewStruct

variable {context after : Context} {buffer : Buffer} {names : List String}

/-- What is the same for a new buffer as for none is not changed by the buffer. -/
theorem view_find?_push {β : Type} (view : Option Buffer → β)
    (blind : view (some buffer) = view none) (fresh : context.isBuffer buffer.name = false)
    (scope : Scope) (name : String) :
    view ((context.push buffer scope).find? name) = view (context.find? name) := by
  by_cases same : buffer.name = name
  · subst same
    rw [find?_push_self fresh, isBuffer_eq_false_iff.mp fresh, blind]
  · rw [find?_push_of_ne context same]

variable {args : String} {value : TypedValue} {size : Nat}
  (fresh : context.isBuffer args = false)

include fresh

theorem targetOf_push_struct :
    (context.push (.ofStruct args value size) .locals).targetOf = context.targetOf :=
  funext (view_find?_push (·.bind Buffer.target?) rfl fresh .locals)

theorem isLive_push_struct :
    (context.push (.ofStruct args value size) .locals).isLive = context.isLive :=
  funext (view_find?_push (fun found => (found.map Buffer.live).getD false) rfl fresh .locals)

theorem aliasesOf_push_struct :
    (context.push (.ofStruct args value size) .locals).aliasesOf = context.aliasesOf :=
  funext (view_find?_push (fun found => (found.map Buffer.aliases).getD []) rfl fresh .locals)

theorem find?_push_struct {name : String} (known : context.isBuffer name = true) :
    (context.push (.ofStruct args value size) .locals).find? name = context.find? name :=
  find?_push_of_ne context (ne_of_isBuffer_of_fresh known fresh).symm .locals

theorem Mirrored.push_struct (mirrored : Mirrored context) :
    Mirrored (context.push (.ofStruct args value size) .locals) := by
  rw [Mirrored, targetOf_push_struct fresh, aliasesOf_push_struct fresh]
  exact mirrored

theorem Prepared.push_struct (prepared : Prepared context names) :
    Prepared (context.push (.ofStruct args value size) .locals) names := by
  have sameTargets := @targetOf_push_struct context args value size fresh
  have sameViews : (context.push (.ofStruct args value size) .locals).Views = context.Views := by
    rw [Views, sameTargets, Views]
  refine ⟨prepared.accounted.push rfl fresh .locals, prepared.mirrored.push_struct fresh,
    prepared.settled, fun name member => ?_, ?_, ?_, ?_⟩
  · rw [isBuffer_push, prepared.known name member, Bool.or_true]
  · rw [TargetsFirst, sameTargets]
    exact prepared.targetsFirst
  · rw [sameViews]
    exact prepared.ordered
  · rw [sameViews, isLive_push_struct fresh]
    exact prepared.unviewed

/-- A struct that came in beside the buffers has no part in the balance. -/
theorem Balanced.of_push_struct
    (balanced : Balanced (context.push (.ofStruct args value size) .locals) names after)
    (known : ∀ name ∈ names, context.isBuffer name = true) : Balanced context names after := by
  obtain ⟨dead, settled, counters⟩ := balanced
  have sameBytes : ∀ level, (context.push (.ofStruct args value size) .locals).bytesOf names level =
      context.bytesOf names level := by
    intro level
    rw [bytesOf, bytesOf, List.filterMap_congr fun name member =>
      find?_push_struct fresh (known name member)]
  simp only [isLive_push_struct fresh] at dead
  simp only [peak_push, inUse_push, sameBytes] at counters
  exact ⟨dead, settled, counters⟩

end NewStruct

/-- Types and identifiers do not matter for what lives. -/
theorem Prepared.frame {context : Context} {names : List String} (prepared : Prepared context names)
    (types : Registry) (mangled : Dict String) :
    Prepared { context with types, mangled } names := by
  obtain ⟨⟨⟨distinct, pending⟩, inUse_le, inUse_eq, inUse_lt, inUse_le_peak⟩, mirrored, settled,
    known, first, ordered, unviewed⟩ := prepared
  exact ⟨⟨⟨distinct, pending⟩, inUse_le, inUse_eq, inUse_lt, inUse_le_peak⟩, mirrored, settled,
    known, first, ordered, unviewed⟩

theorem Balanced.frame {context after : Context} {names : List String} {types : Registry}
    {mangled : Dict String} (balanced : Balanced { context with types, mangled } names after)
    (definitions : List Definition) : Balanced context names { after with definitions } :=
  ⟨balanced.dead, balanced.settled, balanced.counters⟩

/-- Code for the names of buffers is code for the buffers. -/
theorem coded_of_codes {context : Context} {code : Registry → Buffer → Except Error Fragment}
    {buffers : List Buffer} {fragments : List Fragment}
    (denoted : ∀ buffer ∈ buffers, context.find? buffer.name = some buffer)
    (codes : List.Forall₂ (context.Codes code) (buffers.map Buffer.name) fragments) :
    List.Forall₂ (fun buffer fragment => code context.types buffer = .ok fragment) buffers
      fragments := by
  have same : (buffers.map Buffer.name).filterMap context.find? = buffers := by
    rw [List.filterMap_map]
    exact (List.filterMap_congr denoted).trans List.filterMap_some
  rw [← same]
  exact forall₂_filterMap_find? codes

end Context

/-! ### Buffers that a closure keeps -/

namespace ClosureOptions

variable {options : ClosureOptions} {block : Block} {context : Context} {buffer : Buffer}

theorem find?_of_mem_kept (member : buffer ∈ options.kept block context) :
    context.find? buffer.name = some buffer := by
  obtain ⟨key, -, found⟩ :=
    List.mem_filterMap.mp (List.mem_filter.mp (List.mem_filter.mp member).1).1
  rwa [Context.name_of_find? found]

/-- The buffers that a closure keeps are listed in the order of the local buffers. -/
theorem kept_sublist (options : ClosureOptions) (block : Block) (context : Context) :
    ((options.kept block context).map Buffer.name).Sublist context.locals.names := by
  have references : (block.references context .unrolled).Sublist context.locals.names := by
    rw [Block.references, Context.referencesAmong_unrolled]
    exact List.filter_sublist.map _
  refine List.Sublist.trans ?_ references
  refine ((List.filter_sublist.trans List.filter_sublist).map _).trans ?_
  exact Block.map_name_filterMap_sublist context _

theorem filter_roots_kept (options : ClosureOptions) (block : Block) (context : Context) :
    ((options.kept block context).map Buffer.name).filter
        (fun name => (context.targetOf name).isNone) =
      ((options.kept block context).filter (!·.isReference)).map Buffer.name := by
  rw [List.filter_map]
  refine congrArg (List.map Buffer.name) (List.filter_congr fun buffer member => ?_)
  rw [Function.comp_apply, Context.targetOf_eq (find?_of_mem_kept member), Bool.eq_iff_iff,
    Option.isNone_iff_eq_none, Buffer.target?_eq_none_iff, Bool.not_eq_true']

/-- Where views come after what they view, a context is prepared for the buffers that a closure
keeps if no live buffer besides views them. -/
theorem prepared_kept (options : ClosureOptions) (block : Block) (accounted : context.Accounted)
    (mirrored : context.Mirrored) (layered : context.Layered)
    (settled : context.pendingRelease = .empty)
    (unviewed : ∀ view, context.isLive view = true →
      view ∉ (options.kept block context).map Buffer.name →
        ∀ buffer ∈ options.kept block context, ¬ context.Views view buffer.name) :
    context.Prepared ((options.kept block context).map Buffer.name) := by
  have sublist := options.kept_sublist block context
  refine ⟨accounted, mirrored, settled, fun name member => ?_, layered.targetsFirst sublist,
    layered.pairwise sublist, fun view live outside name member => ?_⟩
  · rw [Context.isBuffer_iff_mem]
    exact List.mem_append_left _ (sublist.mem member)
  · obtain ⟨buffer, kept, rfl⟩ := List.mem_map.mp member
    exact unviewed view live outside buffer kept

end ClosureOptions

/-- Before the buffers of its body get storage, a closure with a new name has listed types, taken
the name and put in the struct of its arguments. -/
theorem ClosureRun.registered_frame {options : ClosureOptions} {block : Block} {operation : String}
    {start final : Workspace} (run : ClosureRun options block operation start final)
    (free : start.context.isBuffer
      (ClosureNames.ofOperation operation start.context).args = false) :
    ∃ value size types mangled, run.registered.context =
      { start.context.push
          (.ofStruct (ClosureNames.ofOperation operation start.context).args value size)
          .locals with types, mangled } := by
  obtain ⟨mangled, namedIs, -⟩ := run.named_frame
  have newArgs : run.named.context.isBuffer
      (ClosureNames.ofOperation operation start.context).args = false := by
    rw [namedIs]
    exact free
  obtain ⟨⟨types, value, size, -, -, registeredIs⟩, -⟩ :=
    Lowering.registerArgs_again run.registering newArgs
  refine ⟨value, size, types, mangled, ?_⟩
  rw [registeredIs, namedIs]
  rfl

namespace Lowering

/-- Names that live in a body get their code in their order, and the storage of those that
own some is returned in the reverse order. -/
theorem liveInside_balanced {templates : LifetimeTemplates} {operation : String}
    {names before after : List String} {workspace final : Workspace}
    (ran : liveInside templates operation names workspace = .ok (before, after) final)
    (prepared : workspace.context.Prepared names) :
    workspace.context.Balanced names final.context ∧
      workspace.context.atRest = final.context.atRest ∧
      ∃ opening closing,
        List.Forall₂ (workspace.context.Codes templates.allocation) names opening ∧
        List.Forall₂ (workspace.context.Codes templates.release)
          (names.filter fun name => (workspace.context.targetOf name).isNone).reverse closing ∧
        List.Forall₂ Fragment.Renders opening before ∧
        List.Forall₂ Fragment.Renders closing after := by
  obtain ⟨ordered, owners, middle, opening, closing, sorts, allocates, frees, openingCodes,
    closingCodes, openingRenders, closingRenders⟩ := liveInside_eq_ok ran
  rw [Context.sortByTargets_of_targetsFirst prepared.known prepared.targetsFirst] at sorts
  obtain rfl := Except.ok.inj sorts
  have freed := frees prepared.accounted.toSound
  obtain ⟨rfl, balanced⟩ := prepared.balanced allocates freed
  refine ⟨balanced, ?_, opening, closing, openingCodes, closingCodes, openingRenders,
    closingRenders⟩
  exact (freed.atRest_eq.trans allocates.atRest_eq).symm

/-- A closure that was made in a prepared context is balanced, with code for each buffer that it
keeps and for the release of each of them that is no reference. -/
theorem closureRun_balanced {options : ClosureOptions} {block : Block} {operation : String}
    {start final : Workspace} (run : ClosureRun options block operation start final)
    (free : start.context.isBuffer
      (ClosureNames.ofOperation operation start.context).args = false)
    (prepared : start.context.Prepared ((options.kept block start.context).map Buffer.name)) :
    run.registered.context.types = final.context.types ∧
      start.context.Balanced ((options.kept block start.context).map Buffer.name) final.context ∧
      ∃ opening closing,
        List.Forall₂ (options.memory.Makes final.context.types)
          (options.kept block start.context) opening ∧
        List.Forall₂ (options.memory.Frees final.context.types)
          ((options.kept block start.context).filter (!·.isReference)).reverse closing ∧
        List.Forall₂ Fragment.Renders opening run.before ∧
        List.Forall₂ Fragment.Renders closing run.after := by
  obtain ⟨value, size, listed, mangled, framed⟩ := run.registered_frame free
  have preparedIn : run.registered.context.Prepared
      ((options.kept block start.context).map Buffer.name) := by
    rw [framed]
    exact (prepared.push_struct free).frame listed mangled
  obtain ⟨balanced, sameAtRest, opening, closing, openingCodes, closingCodes, openingRenders,
    closingRenders⟩ := liveInside_balanced run.living preparedIn
  obtain ⟨⟨definitions, finalIs⟩, -⟩ := hoistClosure_again run.hoisting
  have sameTypes : run.registered.context.types = final.context.types := by
    have typesAtRest : run.registered.context.atRest.types = run.lived.context.atRest.types :=
      congrArg Context.types sameAtRest
    exact typesAtRest.trans (congrArg Context.types finalIs).symm
  -- The struct of the arguments is none of the buffers that are kept.
  have denoted : ∀ buffer ∈ options.kept block start.context,
      run.registered.context.find? buffer.name = some buffer := by
    intro buffer member
    rw [framed]
    have known := prepared.known buffer.name (List.mem_map_of_mem member)
    exact (Context.find?_push_struct free known).trans (ClosureOptions.find?_of_mem_kept member)
  have sameTargets : run.registered.context.targetOf = start.context.targetOf := by
    rw [framed]
    exact Context.targetOf_push_struct free
  rw [sameTargets, options.filter_roots_kept, ← List.map_reverse] at closingCodes
  refine ⟨sameTypes, ?_, opening, closing, ?_, ?_, openingRenders, closingRenders⟩
  · rw [framed] at balanced
    rw [finalIs]
    exact (balanced.frame definitions).of_push_struct free prepared.known
  · rw [← sameTypes]
    exact (Context.coded_of_codes denoted openingCodes).imp fun _ _ =>
      LifetimeTemplates.allocation_eq_ok
  · rw [← sameTypes]
    have denotedOwners : ∀ buffer ∈ ((options.kept block start.context).filter
        (!·.isReference)).reverse, run.registered.context.find? buffer.name = some buffer :=
      fun buffer member => denoted buffer (List.mem_filter.mp (List.mem_reverse.mp member)).1
    exact (Context.coded_of_codes denotedOwners closingCodes).imp fun _ _ =>
      LifetimeTemplates.release_eq_ok

/-- **Memory-aware closures are balanced.** Take a state without pending releases of a run that
builds up buffers, allocates and frees, and a closure that is made there under a new name. If no
live buffer besides views a buffer that the closure keeps, these buffers are dead before and after,
and nothing is pending. Where the counter of a level can hold all of them, the bytes in use are as
before and the peak has seen the bytes of all of them on top of what is in use. The body loads the
arguments, makes each of these buffers once and targets first, runs the code of the block, and then
frees those that are no references once, in the reverse order. -/
theorem makeClosure_balanced {types : Registry} {steps : List Ledger.Step}
    {options : ClosureOptions} {block wrapped : Block} {operation : String}
    {start final : Workspace} (plain : Ledger.Along Ledger.Step.Plain { types } steps)
    (visited : start.context ∈ Ledger.states { types } steps)
    (settled : start.context.pendingRelease = .empty)
    (free : start.context.isBuffer
      (ClosureNames.ofOperation operation start.context).args = false)
    (ran : makeClosure options block operation start = .ok wrapped final)
    (unviewed : ∀ view, start.context.isLive view = true →
      view ∉ (options.kept block start.context).map Buffer.name →
        ∀ buffer ∈ options.kept block start.context, ¬ start.context.Views view buffer.name) :
    let inside := options.kept block start.context
    let names := inside.map Buffer.name
    let registry := final.context.types
    names.Nodup ∧ start.context.TargetsFirst names names ∧
      start.context.Balanced names final.context ∧
      ∃ fields, ∃ body : ClosureBody,
        fields.map ClosureField.name = (options.arguments block start.context).map Buffer.name ∧
        fieldLoads registry fields = .ok body.loads ∧
        List.Forall₂ (options.memory.Makes registry) inside body.before ∧
        (∃ rest, renderBlock block start = .ok body.code rest) ∧
        List.Forall₂ (options.memory.Frees registry) (inside.filter (!·.isReference)).reverse
          body.after ∧
        body.Hoisted options.templates (.ofOperation operation start.context) final.context := by
  intro inside names registry
  obtain ⟨accounted, mirrored, layered⟩ := Ledger.layered_states types plain _ visited
  have prepared := options.prepared_kept block accounted mirrored layered settled unviewed
  obtain ⟨run, -⟩ := closureRun_of_makeClosure ran
  obtain ⟨sameTypes, balanced, opening, closing, allocated, released, openingRenders,
    closingRenders⟩ := closureRun_balanced run free prepared
  have loading := run.loading
  rw [sameTypes] at loading
  obtain ⟨text, rendersTo, defined⟩ := hoistClosure_eq_ok run.hoisting
  have distinct : names.Nodup := by
    apply List.Nodup.sublist (options.kept_sublist block start.context)
    exact (List.nodup_append.mp accounted.distinct).1
  refine ⟨distinct, prepared.targetsFirst, balanced, run.fields,
    ⟨run.loads, opening, run.code, closing⟩, (closureFields_eq_ok run.filling).1, loading,
    allocated, run.rendering, released, ?_⟩
  exact ⟨_, text, ⟨run.before, run.after, openingRenders, closingRenders, rfl⟩, defined, rendersTo⟩

/-- Live storage in an outer level with a live view, and buffers of an inner level: storage, a view
of it through a view of the outer level, and more storage. -/
def scratchRun : List Ledger.Step :=
  [.add { name := "x", type := ⟨0⟩, size := 64, level := some "L2" } .locals,
    .add { name := "y", type := ⟨0⟩, level := some "L2", kind := .reference "x" 0 } .locals,
    .add { name := "w", type := ⟨0⟩, size := 48, level := some "L1" } .locals,
    .add { name := "m", type := ⟨0⟩, level := some "L2", kind := .reference "w" 0 } .locals,
    .add { name := "v", type := ⟨0⟩, level := some "L1", kind := .reference "m" 8 } .locals,
    .add { name := "t", type := ⟨0⟩, size := 16, level := some "L1" } .locals,
    .allocate "x" "p", .allocate "y" "p"]

/-- The types of the run. -/
def scratchTypes : Registry := { kinds := [.float 32 23 8] }

/-- The context after the run. -/
def scratchContext : Context := Ledger.final { types := scratchTypes } scratchRun

/-- A kernel on storage of both levels. -/
def scratchBlock : Block :=
  .ofFragments [.ofSource "k(${a}, ${b}, ${c}, ${d});"
    [("a", .name "t"), ("b", .name "v"), ("c", .name "x"), ("d", .name "w")]]

/-- Closures that keep the buffers of the inner level. -/
def scratchOptions : ClosureOptions := { window := some ⟨"L2", "L1"⟩ }

/-- The live buffers are the outer storage and its view. -/
theorem unviewed_scratchContext
    (kept : (scratchOptions.kept scratchBlock scratchContext).map Buffer.name = ["w", "v", "t"])
    (view : String) (live : scratchContext.isLive view = true) (buffer : Buffer)
    (member : buffer ∈ scratchOptions.kept scratchBlock scratchContext) :
    ¬ scratchContext.Views view buffer.name := by
  obtain ⟨liveAre, root, targets⟩ :
      (∀ view ∈ scratchContext.names, scratchContext.isLive view = true →
        view = "x" ∨ view = "y") ∧
      scratchContext.targetOf "x" = none ∧ scratchContext.targetOf "y" = some "x" := by
    decide +kernel
  have listed := List.mem_map_of_mem (f := Buffer.name) member
  rw [kept] at listed
  intro views
  rcases liveAre view (Context.mem_names_of_isLive live) live with rfl | rfl
  · exact Context.not_views_of_root root _ views
  · rcases (Context.views_iff targets _).mp views with same | further
    · rw [same] at listed
      exact absurd listed (by decide)
    · exact Context.not_views_of_root root _ further

theorem makeClosure_balanced_scratchBlock :
    ∃ wrapped final,
      makeClosure scratchOptions scratchBlock "k" { context := scratchContext } =
        .ok wrapped final ∧
      (scratchOptions.kept scratchBlock scratchContext).map Buffer.name = ["w", "v", "t"] ∧
      final.context.inUse "L2" = 64 ∧ final.context.inUse "L1" = 0 ∧
      final.context.peak "L1" = 64 ∧ final.context.pendingRelease = .empty ∧
      ∃ body : ClosureBody,
        body.before.map (fun fragment => (fragment.template, fragment.subject?)) =
          [(scratchOptions.memory.alloc, some "w"), (scratchOptions.memory.reference, some "v"),
            (scratchOptions.memory.alloc, some "t")] ∧
        body.after.map (fun fragment => (fragment.template, fragment.subject?)) =
          [(scratchOptions.memory.dealloc, some "t"), (scratchOptions.memory.dealloc, some "w")] ∧
        body.Hoisted scratchOptions.templates ⟨"k_closure"⟩ final.context := by
  obtain ⟨succeeds, kept, named, plain, visited, settled, free⟩ :
      observe (makeClosure scratchOptions scratchBlock "k") (fun _ _ => ())
        { context := scratchContext } = some () ∧
      (scratchOptions.kept scratchBlock scratchContext).map Buffer.name = ["w", "v", "t"] ∧
      ClosureNames.ofOperation "k" scratchContext = ⟨"k_closure"⟩ ∧
      Ledger.Along Ledger.Step.Plain { types := scratchTypes } scratchRun ∧
      scratchContext ∈ Ledger.states { types := scratchTypes } scratchRun ∧
      scratchContext.pendingRelease = .empty ∧
      scratchContext.isBuffer (ClosureNames.ofOperation "k" scratchContext).args = false := by
    decide +kernel
  obtain ⟨wrapped, final, ran, -⟩ := exists_of_observe succeeds
  obtain ⟨-, -, balanced, fields, body, -, -, makes, -, frees, hoisted⟩ :=
    @makeClosure_balanced scratchTypes scratchRun scratchOptions scratchBlock wrapped "k"
      { context := scratchContext } final plain visited settled free ran
      fun view live _ => unviewed_scratchContext kept view live
  rw [kept] at balanced
  obtain ⟨outerBefore, outerBytes, innerBefore, innerBytes, peakBefore, made, freed⟩ :
      scratchContext.inUse "L2" = 64 ∧ scratchContext.bytesOf ["w", "v", "t"] "L2" = 0 ∧
      scratchContext.inUse "L1" = 0 ∧ scratchContext.bytesOf ["w", "v", "t"] "L1" = 64 ∧
      scratchContext.peak "L1" = 0 ∧
      (scratchOptions.kept scratchBlock scratchContext).map (fun buffer =>
        (if buffer.isReference then scratchOptions.memory.reference
          else scratchOptions.memory.alloc, some buffer.name)) =
        [(scratchOptions.memory.alloc, some "w"), (scratchOptions.memory.reference, some "v"),
          (scratchOptions.memory.alloc, some "t")] ∧
      ((scratchOptions.kept scratchBlock scratchContext).filter
        (!·.isReference)).reverse.map (fun buffer =>
          (scratchOptions.memory.dealloc, some buffer.name)) =
        [(scratchOptions.memory.dealloc, some "t"), (scratchOptions.memory.dealloc, some "w")] := by
    decide +kernel
  obtain ⟨outerUse, -⟩ := balanced.counters "L2" (by rw [outerBefore, outerBytes]; decide)
  obtain ⟨innerUse, innerPeak⟩ := balanced.counters "L1" (by rw [innerBefore, innerBytes]; decide)
  rw [peakBefore, innerBefore, innerBytes] at innerPeak
  refine ⟨wrapped, final, ran, kept, outerUse.trans outerBefore, innerUse.trans innerBefore,
    innerPeak, balanced.settled, body, ?_, ?_, ?_⟩
  · rw [LifetimeTemplates.map_of_makes makes, made]
  · rw [LifetimeTemplates.map_of_frees frees, freed]
  · rw [← named]
    exact hoisted

/-- Live storage and more storage that fill the counter of their level together. -/
def brimmingRun : List Ledger.Step :=
  [.add { name := "x", type := ⟨0⟩, size := 2 ^ 63, level := some "L1" } .locals,
    .add { name := "y", type := ⟨0⟩, size := 2 ^ 63, level := some "L1" } .locals,
    .allocate "x" "p"]

/-- The context after the run. -/
def brimmingContext : Context := Ledger.final { types := scratchTypes } brimmingRun

/-- A kernel on the storage that is not live. -/
def brimmingBlock : Block := .ofFragments [.ofSource "k(${a});" [("a", .name "y")]]

/-- The counter wraps around while the closure keeps the storage, and the bytes of the live storage
are lost. -/
theorem brimmingBlock_wraps :
    Ledger.Along Ledger.Step.Plain { types := scratchTypes } brimmingRun ∧
    brimmingContext ∈ Ledger.states { types := scratchTypes } brimmingRun ∧
    brimmingContext.pendingRelease = .empty ∧
    brimmingContext.isBuffer (ClosureNames.ofOperation "k" brimmingContext).args = false ∧
    (scratchOptions.kept brimmingBlock brimmingContext).map Buffer.name = ["y"] ∧
    (∀ view, brimmingContext.isLive view = true → ¬ brimmingContext.Views view "y") ∧
    brimmingContext.inUse "L1" = 2 ^ 63 ∧
    ∃ wrapped final,
      makeClosure scratchOptions brimmingBlock "k" { context := brimmingContext } =
        .ok wrapped final ∧
      final.context.inUse "L1" = 0 := by
  obtain ⟨plain, visited, settled, free, kept, used, onlyLive, root, wraps⟩ :
      Ledger.Along Ledger.Step.Plain { types := scratchTypes } brimmingRun ∧
      brimmingContext ∈ Ledger.states { types := scratchTypes } brimmingRun ∧
      brimmingContext.pendingRelease = .empty ∧
      brimmingContext.isBuffer (ClosureNames.ofOperation "k" brimmingContext).args = false ∧
      (scratchOptions.kept brimmingBlock brimmingContext).map Buffer.name = ["y"] ∧
      brimmingContext.inUse "L1" = 2 ^ 63 ∧
      (∀ view ∈ brimmingContext.names, brimmingContext.isLive view = true → view = "x") ∧
      brimmingContext.targetOf "x" = none ∧
      observe (makeClosure scratchOptions brimmingBlock "k")
        (fun _ final => final.context.inUse "L1") { context := brimmingContext } = some 0 := by
    decide +kernel
  refine ⟨plain, visited, settled, free, kept, ?_, used, exists_of_observe wraps⟩
  intro view live
  obtain rfl := onlyLive view (Context.mem_names_of_isLive live) live
  exact Context.not_views_of_root root _

end Lowering

end TensorLowering
