import TensorLowering.Proofs.LifetimeHistory

/-! # Emitted lifetime code and the books

The code of a schedule allocates a buffer once for each time that the books say it was made,
and frees it once for each owner that freeing returns. The two agree at the end of every
operation, except that a buffer that is made again while its release is pending gets no code
for the storage it had before (`TensorLowering.Schedule.allocations_balance_iff`).
-/

namespace TensorLowering

namespace Context

/-- Whether the buffer of a name holds storage: it is live, or its release is pending. -/
def holds (context : Context) (name : String) : Bool :=
  context.isLive name || context.pendingRelease.contains name

theorem Idle.holds_eq {context : Context} (idle : Idle context) (name : String) :
    context.holds name = false := by
  rw [holds, idle.isLive_eq, idle.pending_eq, Bool.or_self]

/-! ### What the phases do to storage that is held -/

/-- Each allocation adds storage that is held, except where the release of older storage was
still pending. -/
theorem Allocates.holds_eq {context after : Context} {names : List String}
    (allocates : Allocates context names after) (name : String) :
    names.count name + (context.holds name).toNat =
      (after.holds name).toNat +
        (context.pendingRelease.contains name && names.contains name).toNat := by
  rw [holds, holds, allocates.isLive_eq, allocates.pending_eq]
  by_cases member : name ∈ names
  · have dead := allocates.isLive_of_mem member
    simp [allocates.nodup.count, member, dead]
  · simp [allocates.nodup.count, member]

theorem ne_of_root {context : Context} {name owner target : String} {buffer : Buffer}
    (root : context.targetOf owner = none) (found : context.find? name = some buffer)
    (views : buffer.target? = some target) : owner ≠ name := by
  rintro rfl
  exact nomatch root.symm.trans ((targetOf_eq found).trans views)

/-- Freeing returns the storage of the released owners, and of no other buffer. -/
theorem Deallocation.holds_eq {context after : Context} {name : String} {buffer : Buffer}
    {released : List String} (freed : Deallocation context name buffer released after)
    (sound : Sound context) (found : context.find? name = some buffer) (live : buffer.live = true)
    {owner : String} (root : context.targetOf owner = none) :
    (context.holds owner).toNat = (after.holds owner).toNat + released.count owner := by
  have liveEq := freed.isLive_eq owner
  have liveBefore : context.isLive name = true := (Context.isLive_eq found).trans live
  have notPending : context.pendingRelease.contains name = false :=
    Bool.eq_false_iff.mpr fun pending => sound.ne_of_pending found live pending rfl
  have samePending := context.retire_pendingRelease name
  rw [holds, holds, liveEq]
  cases freed with
  | deferred ownRoot viewed =>
      rw [Dict.contains_insert, samePending]
      by_cases same : owner = name
      · simp [same, liveBefore]
      · simp [same, Ne.symm same]
  | returned ownRoot unviewed =>
      change _ = (_ || (context.retire name).pendingRelease.contains owner).toNat + _
      rw [samePending]
      by_cases same : owner = name
      · simp [same, liveBefore, notPending]
      · simp [same, Ne.symm same]
  | @settled target known views owing owned unviewed =>
      change _ = (_ || ((context.retire name).pendingRelease.erase known.name).contains owner).toNat
        + _
      obtain ⟨_, foundOwner, dead, -⟩ := sound.pending target owing
      have ownerDead : context.isLive target = false := (Context.isLive_eq foundOwner).trans dead
      have different := ne_of_root root found views
      rw [samePending, Dict.contains_erase, name_of_find? owned]
      by_cases same : owner = target
      · simp [same, ownerDead, owing]
      · simp [different, Ne.symm same]
  | kept views held =>
      have different := ne_of_root root found views
      simp [samePending, different]

/-- A sequence of frees returns the storage of the listed owners. -/
theorem Frees.holds_eq {context after : Context} {names owners : List String}
    (frees : Frees context names owners after) (sound : Sound context) {owner : String}
    (root : context.targetOf owner = none) :
    (context.holds owner).toNat = (after.holds owner).toNat + owners.count owner := by
  induction frees with
  | nil => rfl
  | cons found live first _ ih =>
      have firstEq := first.holds_eq sound found live root
      have laterEq := ih (sound.deallocation found live first)
        (targetOf_congr first.atRest_eq ▸ root)
      rw [firstEq, laterEq, List.count_append]
      omega

end Context

/-! ### Counting code -/

/-- Fragments that each belong to a name are counted by counting the names. -/
theorem countP_eq_count {belongs : String → Fragment → Prop} {counted : Fragment → Bool}
    {name : String} (chosen : ∀ other fragment, belongs other fragment →
      counted fragment = decide (other = name))
    {names : List String} {code : List Fragment} (codes : List.Forall₂ belongs names code) :
    code.countP counted = names.count name := by
  induction codes with
  | nil => rfl
  | cons head _ ih =>
      rw [List.countP_cons, List.count_cons, ih, chosen _ _ head]
      simp only [decide_eq_true_eq, beq_iff_eq]

/-- Whether a fragment instantiates a template for a buffer. -/
def Fragment.instantiates (template : Template) (name : String) (fragment : Fragment) : Bool :=
  fragment.template = template && fragment.subject? = some name

/-- The code that opens lifetimes holds an allocation of a buffer for each time that it is
made. -/
theorem Opening.countP_code {templates : LifetimeTemplates} {block : Block} {operation : String}
    {start middle : Context} {opened : OpenLifetimes}
    (opening : Opening templates block operation start opened middle) {name : String}
    (root : start.targetOf name = none) :
    opened.code.countP (Fragment.instantiates templates.alloc name) =
      opened.allocated.count name := by
  refine countP_eq_count ?_ opening.codes
  rintro other fragment ⟨buffer, found, made⟩
  have makes := LifetimeTemplates.allocation_eq_ok made
  rw [Fragment.instantiates, makes.subject?_eq, Context.name_of_find? found]
  by_cases same : other = name
  · subst same
    have owner : buffer.isReference = false := by
      rw [Context.targetOf_eq found] at root
      exact Buffer.target?_eq_none_iff.mp root
    simp [makes.template_eq, owner]
  · simp [same]

/-- The code that closes lifetimes holds a free of a buffer for each time that its storage is
returned. -/
theorem Closing.countP_code {templates : LifetimeTemplates} {middle finish : Context}
    {freed owners : List String} {code : List Fragment}
    (closing : Closing templates middle freed owners code finish) (name : String) :
    code.countP (Fragment.instantiates templates.dealloc name) = owners.count name := by
  obtain ⟨released, comments, rfl, codes, anonymous⟩ := closing.codes
  have silent : comments.countP (Fragment.instantiates templates.dealloc name) = 0 := by
    rw [List.countP_eq_zero]
    intro comment member
    simp [Fragment.instantiates, anonymous comment member]
  rw [List.countP_append, silent, Nat.add_zero]
  refine countP_eq_count ?_ codes
  rintro other fragment ⟨buffer, found, made⟩
  have frees := LifetimeTemplates.release_eq_ok made
  simp [Fragment.instantiates, frees.subject?_eq, frees.template_eq, Context.name_of_find? found]

namespace OperationRecord

/-- How often the code before an operation allocates a buffer. -/
def allocations (templates : LifetimeTemplates) (name : String) (record : OperationRecord) : Nat :=
  record.opened.code.countP (Fragment.instantiates templates.alloc name)

/-- How often the code after an operation frees a buffer. -/
def releases (templates : LifetimeTemplates) (name : String) (record : OperationRecord) : Nat :=
  record.closing.countP (Fragment.instantiates templates.dealloc name)

/-- Whether an operation makes a buffer again while its release is pending. -/
def remakes (name : String) (record : OperationRecord) : Bool :=
  record.start.pendingRelease.contains name && record.opened.allocated.contains name

end OperationRecord

namespace Schedule

/-- The context after some operations of a schedule. -/
def reached (context : Context) (records : List OperationRecord) : Context :=
  (records.getLast?.map OperationRecord.finish).getD context

namespace Recorded

variable {templates : LifetimeTemplates} {context final : Context}
  {records : List OperationRecord}

theorem reached_eq (recorded : Recorded templates context records final) :
    reached context records = final := by
  induction recorded with
  | nil => rfl
  | @cons record records _ _ _ _ _ _ ih =>
      rw [← ih, reached, reached, List.getLast?_cons]
      cases records.getLast? <;> rfl

theorem of_append {done later : List OperationRecord}
    (recorded : Recorded templates context (done ++ later) final) :
    Recorded templates context done (reached context done) := by
  obtain ⟨middle, before⟩ : ∃ middle, Recorded templates context done middle := by
    induction done generalizing context with
    | nil => exact ⟨context, .nil context⟩
    | cons record done ih =>
        rw [List.cons_append] at recorded
        cases recorded with
        | cons opening closing rest =>
            obtain ⟨middle, before⟩ := ih rest
            exact ⟨middle, .cons opening closing before⟩
  rwa [before.reached_eq]

/-- Over a whole run, what the code allocates and does not free is held, or was held by a buffer
that was made again. -/
theorem allocations_add_holds (recorded : Recorded templates context records final)
    (sound : context.Sound) {name : String} (root : context.targetOf name = none) :
    (records.map (·.allocations templates name)).sum + (context.holds name).toNat =
      (records.map (·.releases templates name)).sum + (final.holds name).toNat +
        records.countP (·.remakes name) := by
  induction recorded with
  | nil => simp
  | @cons record records middle final owners opening closing later ih =>
      -- What is held between the two phases links the code before to the code after.
      have opened := opening.allocates.holds_eq name
      have soundMiddle := opening.allocates.sound sound
      have rootMiddle := Context.targetOf_congr opening.allocates.atRest_eq ▸ root
      have closed := closing.frees.holds_eq soundMiddle rootMiddle
      have rest := ih (closing.frees.sound soundMiddle)
        (Context.targetOf_congr closing.frees.atRest_eq ▸ rootMiddle)
      rw [List.map_cons, List.map_cons, List.sum_cons, List.sum_cons, List.countP_cons,
        OperationRecord.allocations, opening.countP_code root, OperationRecord.releases,
        closing.countP_code name]
      have remade : (if record.remakes name = true then 1 else 0) =
          (record.remakes name).toNat := by cases record.remakes name <;> rfl
      rw [remade, OperationRecord.remakes]
      omega

end Recorded

/-- The code of some operations allocates a buffer once more than it frees it if the buffer
holds storage after them, and as often if it holds none. -/
def Balanced (templates : LifetimeTemplates) (context : Context) (done : List OperationRecord)
    (name : String) : Prop :=
  (done.map (·.allocations templates name)).sum =
    (done.map (·.releases templates name)).sum +
      if (reached context done).holds name then 1 else 0

instance (templates : LifetimeTemplates) (context : Context) (done : List OperationRecord)
    (name : String) : Decidable (Balanced templates context done name) :=
  inferInstanceAs (Decidable (_ = _))

theorem targetOf_of_owner {context : Context} (distinct : context.names.Nodup) {buffer : Buffer}
    (member : buffer ∈ context.locals.entries) (owner : buffer.isReference = false) :
    context.targetOf buffer.name = none := by
  have found := Context.find?_eq_some_of_mem distinct (List.mem_append_left _ member)
  rw [Context.targetOf_eq found]
  exact Buffer.target?_eq_none_iff.mpr owner

/-- **Emitted lifetime code and the books.** After every operation of a schedule, the code has
allocated a buffer with storage of its own as often as it has freed it, once more if the buffer
holds storage, and once more for each operation that made it while its release was pending. So
allocations and frees balance throughout exactly if no operation does that. -/
theorem allocations_balance_iff {templates : LifetimeTemplates} {annotate : Bool}
    {operations : List Operation} {context final : Context} {program : Program}
    (idle : context.Idle)
    (ran : run [.lifetimes templates] annotate operations context = (.ok program, final)) :
    (history templates annotate operations context).map OperationRecord.operation = operations ∧
    (history templates annotate operations context).map OperationRecord.block =
      program.operations.map LoweredOperation.block ∧
    reached context (history templates annotate operations context) = final ∧
    (∀ done, done <+: history templates annotate operations context →
      ∀ buffer ∈ context.locals.entries, buffer.isReference = false →
        (done.map (·.allocations templates buffer.name)).sum =
          (done.map (·.releases templates buffer.name)).sum +
            (if (reached context done).holds buffer.name then 1 else 0) +
              done.countP (·.remakes buffer.name)) ∧
    ((∀ done, done <+: history templates annotate operations context →
      ∀ buffer ∈ context.locals.entries, buffer.isReference = false →
        Balanced templates context done buffer.name) ↔
      ∀ record ∈ history templates annotate operations context,
        ∀ buffer ∈ context.locals.entries, buffer.isReference = false →
          record.remakes buffer.name = false) := by
  obtain ⟨recorded, operationsSame, blocksSame⟩ := recorded_of_run idle.sound ran
  generalize history templates annotate operations context = records at *
  have exactly : ∀ done, done <+: records → ∀ buffer ∈ context.locals.entries,
      buffer.isReference = false →
        (done.map (·.allocations templates buffer.name)).sum =
          (done.map (·.releases templates buffer.name)).sum +
            (if (reached context done).holds buffer.name then 1 else 0) +
              done.countP (·.remakes buffer.name) := by
    rintro done ⟨later, rfl⟩ buffer member owner
    have law := recorded.of_append.allocations_add_holds idle.sound
      (targetOf_of_owner idle.distinct member owner)
    rw [idle.holds_eq] at law
    have held : ((reached context done).holds buffer.name).toNat =
        if (reached context done).holds buffer.name then 1 else 0 := by
      cases (reached context done).holds buffer.name <;> rfl
    rw [← held]
    exact law
  refine ⟨operationsSame, blocksSame, recorded.reached_eq, exactly, ?_⟩
  constructor
  · intro balanced record member buffer isLocal owner
    obtain ⟨before, after, rfl⟩ := List.append_of_mem member
    have upTo : before ++ [record] <+: before ++ record :: after := ⟨after, by simp⟩
    have law := exactly _ upTo buffer isLocal owner
    rw [balanced _ upTo buffer isLocal owner, Nat.left_eq_add, List.countP_eq_zero] at law
    exact Bool.eq_false_iff.mpr (law record (by simp))
  · intro never done upTo buffer isLocal owner
    have law := exactly done upTo buffer isLocal owner
    have none : done.countP (·.remakes buffer.name) = 0 := by
      rw [List.countP_eq_zero]
      intro record member
      simp [never record (upTo.mem member) buffer isLocal owner]
    rw [none] at law
    exact law

/-- A buffer and a view of it. -/
def viewedContext : Context where
  types := (Registry.float32 {}).2
  locals := ⟨[
    { name := "b", type := ⟨0⟩, size := 64, users := ["c"], aliases := ["r"] },
    { name := "r", type := ⟨0⟩, users := ["d"], kind := .reference "b" 0 }]⟩

/-- An operation that uses up the buffer while the view is live, one that makes the buffer again,
and one that uses up the view. -/
def remakingSchedule : List Operation :=
  [⟨"p", .ofFragments [.ofSource "make(${x}, ${y});" [("x", .name "b"), ("y", .name "r")]]⟩,
    ⟨"c", .ofFragments [.ofSource "use(${x});" [("x", .name "b")]]⟩,
    ⟨"q", .ofFragments [.ofSource "make(${x});" [("x", .name "b")]]⟩,
    ⟨"d", .ofFragments [.ofSource "use(${y});" [("y", .name "r")]]⟩]

theorem idle_viewedContext : viewedContext.Idle :=
  ⟨by decide, by decide, rfl, fun _ => ⟨rfl, rfl⟩⟩

theorem history_remakingSchedule :
    (run [.lifetimes {}] false remakingSchedule viewedContext).1.isOk = true ∧
    (history {} false remakingSchedule viewedContext).map (·.allocations {} "b") =
      [1, 0, 1, 0] ∧
    (history {} false remakingSchedule viewedContext).map (·.releases {} "b") = [0, 0, 0, 0] ∧
    (history {} false remakingSchedule viewedContext).map (·.finish.holds "b") =
      [true, true, true, true] ∧
    ¬ Balanced {} viewedContext (history {} false remakingSchedule viewedContext) "b" := by
  decide +kernel

theorem allocations_balance_iff_remakingSchedule :
    viewedContext.Idle ∧ ∃ program final,
      run [.lifetimes {}] false remakingSchedule viewedContext = (.ok program, final) ∧
      reached viewedContext (history {} false remakingSchedule viewedContext) = final ∧
      ∀ done, done <+: history {} false remakingSchedule viewedContext →
        ∀ buffer ∈ viewedContext.locals.entries, buffer.isReference = false →
          (done.map (·.allocations {} buffer.name)).sum =
            (done.map (·.releases {} buffer.name)).sum +
              (if (reached viewedContext done).holds buffer.name then 1 else 0) +
                done.countP (·.remakes buffer.name) := by
  obtain ⟨program, ran⟩ := exists_of_isOk history_remakingSchedule.1
  obtain ⟨-, -, last, law, -⟩ := allocations_balance_iff idle_viewedContext ran
  exact ⟨idle_viewedContext, program, _, ran, last, law⟩

/-- The buffer is allocated twice and never freed, though it holds storage only once. -/
theorem remakingSchedule_unbalanced :
    viewedContext.Idle ∧
      (run [.lifetimes {}] false remakingSchedule viewedContext).1.isOk = true ∧
      (history {} false remakingSchedule viewedContext).map (·.allocations {} "b") =
        [1, 0, 1, 0] ∧
      (history {} false remakingSchedule viewedContext).map (·.releases {} "b") = [0, 0, 0, 0] ∧
      (history {} false remakingSchedule viewedContext).map (·.finish.holds "b") =
        [true, true, true, true] ∧
      ¬ Balanced {} viewedContext (history {} false remakingSchedule viewedContext) "b" :=
  ⟨idle_viewedContext, history_remakingSchedule⟩

end Schedule

end TensorLowering
