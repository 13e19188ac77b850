import TensorLowering.Proofs.LifetimeHistory

/-! # Balanced schedules

Where no buffer lists an alias, nothing defers the release of storage. If the last operation
that touches a buffer is also the last of its users, the buffer is dead after the schedule. So
all storage is returned, and the peak of a level is the most that an operation finds in use
there plus what it allocates (`TensorLowering.Schedule.balanced_of_last_users`), unless that is
more than the counter of the level can hold (`TensorLowering.Schedule.wideSchedule_wraps`).
-/

namespace TensorLowering

namespace Context

/-! ### Without aliases -/

/-- No buffer lists an alias, and no release is pending. -/
structure Unshared (context : Context) : Prop where
  unaliased : ∀ name, context.aliasesOf name = []
  settled : ∀ name, context.pendingRelease.contains name = false

theorem hasLiveAliases_of_unaliased {context : Context} {name : String}
    (unaliased : context.aliasesOf name = []) : context.hasLiveAliases name ≠ .ok true := by
  have nothing : context.aliasClosure name = [] := by
    rw [aliasClosure, unaliased, List.reverse_nil, Reach.walk]
    cases [].length + Reach.edgeCount context.aliasGraph <;> rfl
  intro viewed
  unfold hasLiveAliases at viewed
  cases found : context.lookup name with
  | error error => rw [found] at viewed; cases viewed
  | ok buffer =>
      rw [found, nothing] at viewed
      cases viewed

namespace Unshared

variable {context after : Context}

theorem unaliased_of_atRest (unshared : Unshared context) (same : after.atRest = context.atRest)
    (name : String) : after.aliasesOf name = [] := by
  rw [← aliasesOf_atRest, same, aliasesOf_atRest, unshared.unaliased]

theorem allocation {name : String} {buffer : Buffer} (unshared : Unshared context)
    (allocation : Allocation context name buffer after) : Unshared after where
  unaliased := unshared.unaliased_of_atRest allocation.atRest_eq
  settled other := by rw [allocation.pending_eq, unshared.settled, Bool.and_false]

theorem deallocation {name : String} {buffer : Buffer} {released : List String}
    (unshared : Unshared context) (freed : Deallocation context name buffer released after) :
    Unshared after where
  unaliased := unshared.unaliased_of_atRest freed.atRest_eq
  settled other := by
    have retired : (context.retire name).atRest = context.atRest :=
      context.atRest_modify name fun _ => rfl
    have samePending := context.retire_pendingRelease name
    cases freed with
    | deferred root viewed =>
        exact absurd viewed
          (hasLiveAliases_of_unaliased (unshared.unaliased_of_atRest retired name))
    | returned root unviewed =>
        change (context.retire name).pendingRelease.contains other = false
        rw [samePending, unshared.settled]
    | settled views owing owned unviewed =>
        rw [unshared.settled] at owing
        exact Bool.noConfusion owing
    | kept views held => rw [samePending, unshared.settled]

theorem allocates {names : List String} (unshared : Unshared context)
    (allocates : Allocates context names after) : Unshared after :=
  allocates.preserves (fun step before => before.allocation step) unshared

theorem frees {names owners : List String} (unshared : Unshared context)
    (frees : Frees context names owners after) : Unshared after :=
  frees.preserves (fun _ _ step before => before.deallocation step) unshared

end Unshared

/-! ### The counters over the phases -/

theorem bytesOf_congr {first second : Context} (same : first.atRest = second.atRest)
    (names : List String) (level : String) :
    first.bytesOf names level = second.bytesOf names level := by
  have atRest : ∀ context : Context,
      context.atRest.bytesOf names level = context.bytesOf names level := by
    intro context
    have found : context.atRest.find? = fun name => (context.find? name).map Buffer.atRest :=
      funext context.find?_atRest
    rw [bytesOf, bytesOf, found, ← List.map_filterMap, Buffer.bytesAt_eq_sum,
      Buffer.bytesAt_eq_sum, List.map_map]
    rfl
  rw [← atRest first, same, atRest second]

section Fitting

variable {context after : Context} {names : List String} {level : String}
  (settled : ∀ name, context.pendingRelease.contains name = false)
include settled

/-- Without pending releases, allocating adds the bytes of what is allocated to a counter that can
hold them. -/
theorem Allocates.inUse_eq (allocates : Allocates context names after)
    (fits : context.inUse level + context.bytesOf names level < counterLimit) :
    after.inUse level = context.inUse level + context.bytesOf names level := by
  induction allocates with
  | nil => rfl
  | @cons _ _ name names buffer later first ih =>
      have bytes := bytesOf_congr later.atRest_eq (name :: names) level
      rw [bytesOf_cons first.found, bytesOf_congr later.atRest_eq names level] at bytes
      rw [← bytes] at fits ⊢
      have before := ih (by omega)
      have taken := first.inUse_of_fits level
      rw [later.pending_eq, settled, Bool.and_false, before] at taken
      simp only [Bool.false_eq_true, false_and, ↓reduceIte] at taken
      rw [taken (by omega)]
      omega

/-- Then the peak is lifted to what is in use at last. -/
theorem Allocates.peak_of_fits (allocates : Allocates context names after)
    (fits : context.inUse level + context.bytesOf names level < counterLimit)
    (within : context.inUse level ≤ context.peak level) :
    after.peak level =
      max (context.peak level) (context.inUse level + context.bytesOf names level) := by
  induction allocates with
  | nil => exact (Nat.max_eq_left within).symm
  | @cons _ _ name names buffer later first ih =>
      have bytes := bytesOf_congr later.atRest_eq (name :: names) level
      rw [bytesOf_cons first.found, bytesOf_congr later.atRest_eq names level] at bytes
      rw [first.peak_eq, (later.cons first).inUse_eq settled fits, ih (by omega), ← bytes]
      split <;> omega

/-- Without pending releases, allocating adds the bytes of what is allocated to what is charged. -/
theorem Allocates.charged_eq (allocates : Allocates context names after) (sound : Sound context) :
    after.charged level = context.charged level + context.bytesOf names level := by
  induction allocates with
  | nil => rfl
  | @cons _ _ name names buffer later first ih =>
      have bytes := bytesOf_congr later.atRest_eq (name :: names) level
      rw [bytesOf_cons first.found, bytesOf_congr later.atRest_eq names level] at bytes
      rw [(later.sound sound).charged_allocation first, later.pending_eq, settled, Bool.and_false,
        ih, ← bytes]
      simp only [Bool.false_eq_true, false_and, ↓reduceIte]
      omega

end Fitting

/-- Freeing keeps a counter that is right. -/
theorem Frees.inUse_eq_charged {context after : Context} {names owners : List String}
    {level : String} (frees : Frees context names owners after) (sound : Sound context)
    (right : context.inUse level = context.charged level) :
    after.inUse level = after.charged level := by
  induction frees with
  | nil => exact right
  | cons found live first _ ih =>
      have moved := sound.charged_deallocation found live first level
      apply ih (sound.deallocation found live first)
      rw [first.inUse_eq found, right]
      omega

end Context

/-! ### Liveness over a schedule -/

/-- Whether an operation touches the buffer of a name, by an identifier of its templates or by
the pointers of structs that it touches. -/
def Operation.touches (context : Context) (name : String) (operation : Operation) : Bool :=
  (operation.block.references context .unrolled).contains name

/-- Whether an operation frees a buffer that it touches. -/
def Lifetimes.ends (operation : String) (buffer : Buffer) : Bool :=
  endsInput operation buffer || endsTransient operation buffer

namespace Block

theorem lifetimes_congr {first second : Context} (same : first.atRest = second.atRest)
    (block : Block) (operation : String) :
    block.lifetimes first operation = block.lifetimes second operation := by
  rw [← lifetimes_atRest, same, lifetimes_atRest]

theorem mem_chosen_iff {context : Context} {name : String} {buffer : Buffer}
    (found : context.find? name = some buffer) (names : List String) (chosen : Buffer → Bool) :
    name ∈ ((names.filterMap context.find?).filter chosen).map Buffer.name ↔
      name ∈ names ∧ chosen buffer = true := by
  constructor
  · intro member
    obtain ⟨other, listed, named⟩ := List.mem_map.mp member
    obtain ⟨looked, holds⟩ := List.mem_filter.mp listed
    obtain ⟨key, keyMember, keyFound⟩ := List.mem_filterMap.mp looked
    obtain rfl : key = name := (Context.name_of_find? keyFound).symm.trans named
    obtain rfl : buffer = other := Option.some.inj (found.symm.trans keyFound)
    exact ⟨keyMember, holds⟩
  · rintro ⟨member, holds⟩
    refine List.mem_map.mpr ⟨buffer, ?_, Context.name_of_find? found⟩
    exact List.mem_filter.mpr ⟨List.mem_filterMap.mpr ⟨name, member, found⟩, holds⟩

variable {block : Block} {operation : String} {context : Context} {name : String}
  {buffer : Buffer}

theorem mem_allocated_iff (found : context.find? name = some buffer) :
    name ∈ (block.lifetimes context operation).allocated ↔
      name ∈ block.references context .unrolled ∧ Lifetimes.begins operation buffer = true :=
  mem_chosen_iff found _ _

theorem mem_freed_iff (found : context.find? name = some buffer) :
    name ∈ (block.lifetimes context operation).freed ↔
      name ∈ block.references context .unrolled ∧ Lifetimes.ends operation buffer = true := by
  rw [Lifetimes.ends, Bool.or_eq_true, and_or_left, ← mem_chosen_iff found,
    ← mem_chosen_iff found]
  exact List.mem_append

theorem mem_chosen_iff_any (context : Context) (name : String) (names : List String)
    (chosen : Buffer → Bool) :
    name ∈ ((names.filterMap context.find?).filter chosen).map Buffer.name ↔
      name ∈ names ∧ (context.find? name).any chosen = true := by
  cases found : context.find? name with
  | some buffer => exact mem_chosen_iff found names chosen
  | none =>
      refine iff_of_false (fun member => ?_) fun both => Bool.false_ne_true both.2
      obtain ⟨buffer, listed, rfl⟩ := List.mem_map.mp member
      obtain ⟨key, -, looked⟩ := List.mem_filterMap.mp (List.mem_filter.mp listed).1
      rw [← Context.name_of_find? looked, found] at looked
      exact Option.some_ne_none _ looked.symm

theorem map_name_filterMap_sublist (context : Context) (names : List String) :
    ((names.filterMap context.find?).map Buffer.name).Sublist names := by
  induction names with
  | nil => exact .slnil
  | cons name names ih =>
      cases found : context.find? name with
      | none => rw [List.filterMap_cons_none found]; exact ih.cons name
      | some buffer =>
          rw [List.filterMap_cons_some found, List.map_cons, Context.name_of_find? found]
          exact ih.cons_cons name

theorem nodup_chosen {names : List String} (distinct : names.Nodup) (context : Context)
    (chosen : Buffer → Bool) :
    (((names.filterMap context.find?).filter chosen).map Buffer.name).Nodup :=
  distinct.sublist ((List.filter_sublist.map _).trans (map_name_filterMap_sublist context names))

/-- An operation frees no buffer twice. -/
theorem nodup_freed (distinct : (block.references context .unrolled).Nodup) :
    (block.lifetimes context operation).freed.Nodup := by
  refine List.nodup_append.mpr
    ⟨nodup_chosen distinct context _, nodup_chosen distinct context _, ?_⟩
  rintro name isInput _ isScratch rfl
  obtain ⟨buffer, listed, rfl⟩ := List.mem_map.mp isInput
  obtain ⟨key, -, found⟩ := List.mem_filterMap.mp (List.mem_filter.mp listed).1
  rw [← Context.name_of_find? found] at found
  have input := ((mem_chosen_iff found _ _).mp isInput).2
  have scratch := ((mem_chosen_iff found _ _).mp isScratch).2
  simp only [Lifetimes.endsInput, Lifetimes.endsTransient, Bool.and_eq_true] at input scratch
  rw [scratch.1] at input
  exact absurd input.1.1.2 Bool.false_ne_true

end Block

namespace Opening

variable {templates : LifetimeTemplates} {block : Block} {operation : String}
  {start middle : Context} {opened : OpenLifetimes}
  (opening : Opening templates block operation start opened middle)
include opening

/-- A buffer is allocated once if it is a reference that the operation begins, and else never. -/
theorem count_allocated (name : String) : opened.allocated.count name =
    if name ∈ block.references start .unrolled ∧
      (start.find? name).any (Lifetimes.begins operation) = true then 1 else 0 := by
  rw [opening.allocates.nodup.count]
  simp only [opening.allocated_perm.mem_iff]
  exact if_congr (Block.mem_chosen_iff_any start name _ _) rfl rfl

/-- A buffer is freed once if it is a reference that the operation ends, and else never. -/
theorem count_freed (distinct : (block.references start .unrolled).Nodup) (name : String) :
    opened.freed.count name =
      if name ∈ block.references start .unrolled ∧
        (start.find? name).any (Lifetimes.ends operation) = true then 1 else 0 := by
  have member : name ∈ (block.lifetimes start operation).freed ↔
      name ∈ block.references start .unrolled ∧
        (start.find? name).any (Lifetimes.ends operation) = true := by
    have either : (start.find? name).any (Lifetimes.ends operation) =
        ((start.find? name).any (Lifetimes.endsInput operation) ||
          (start.find? name).any (Lifetimes.endsTransient operation)) := by
      cases start.find? name <;> rfl
    rw [either, Bool.or_eq_true, and_or_left, ← Block.mem_chosen_iff_any,
      ← Block.mem_chosen_iff_any]
    exact List.mem_append
  rw [opening.freed_eq, (Block.nodup_freed distinct).count]
  exact if_congr member rfl rfl

end Opening

/-! ### The demand of an operation -/

/-- Whether an operation makes a buffer: it touches the buffer, which is no struct, and is not one
of its users. -/
def Operation.makes (context : Context) (operation : Operation) (buffer : Buffer) : Bool :=
  operation.touches context buffer.name && !buffer.isStruct &&
    !buffer.users.contains operation.name

/-- The bytes that an operation needs in a level: those of the buffers that are live when it starts
and of those that it makes. -/
def OperationRecord.demand (level : String) (record : OperationRecord) : Nat :=
  Buffer.bytesAt record.start.buffers level fun buffer =>
    buffer.live || record.operation.makes record.start buffer

namespace Context

/-- Without pending releases, what is charged is what is live. -/
theorem Unshared.charged_eq {context : Context} (unshared : Unshared context) (level : String) :
    context.charged level = Buffer.bytesAt context.buffers level Buffer.live := by
  have held : context.isHeld = Buffer.live := by
    funext buffer
    rw [isHeld, unshared.settled, Bool.or_false]
  rw [charged, held]

theorem Allocates.names_eq {context after : Context} {names : List String}
    (allocates : Allocates context names after) : after.names = context.names :=
  allocates.preserves (fun step before => step.names_eq.trans before) rfl

/-- Allocating makes the listed buffers live, and changes no other buffer. -/
theorem Allocates.buffers_eq {context after : Context} {names : List String}
    (allocates : Allocates context names after) (distinct : context.names.Nodup) :
    after.buffers = context.buffers.map fun buffer =>
      { buffer with live := buffer.live || names.contains buffer.name } := by
  induction allocates with
  | nil => simp
  | @cons _ _ name names _ later first ih =>
      rw [first.buffers_eq (later.names_eq ▸ distinct), ih, List.map_map]
      apply List.map_congr_left
      intro buffer _
      rw [Function.comp_apply, List.contains_cons, beq_eq_decide]
      by_cases same : buffer.name = name
      · simp [same]
      · simp [same]

end Context

/-- The bytes that are live while an operation runs are those that it needs. -/
theorem Opening.bytesAt_live {templates : LifetimeTemplates} {record : OperationRecord}
    {middle : Context} (opening : Opening templates record.operation.block record.operation.name
      record.start record.opened middle) (distinct : record.start.names.Nodup) (level : String) :
    Buffer.bytesAt middle.buffers level Buffer.live = record.demand level := by
  have made : ∀ buffer ∈ record.start.buffers, record.opened.allocated.contains buffer.name =
      record.operation.makes record.start buffer := by
    intro buffer member
    have found := Context.find?_eq_some_of_mem distinct member
    rw [Bool.eq_iff_iff, List.contains_iff_mem, opening.allocated_perm.mem_iff,
      Block.mem_allocated_iff found, Operation.makes, Bool.and_assoc, Bool.and_eq_true,
      Operation.touches, List.contains_iff_mem]
    rfl
  rw [OperationRecord.demand, opening.allocates.buffers_eq distinct, Buffer.bytesAt_eq_sum,
    Buffer.bytesAt_eq_sum, List.map_map]
  apply Buffer.sum_congr
  intro buffer member
  rw [Function.comp_apply, made buffer member]
  rfl

namespace Schedule

/-- The peak after a run is the highest of the peak before it and of the demands of its
operations, if the counter can hold each of them. -/
theorem Recorded.peak_eq {templates : LifetimeTemplates} {context final : Context}
    {records : List OperationRecord} {level : String}
    (recorded : Recorded templates context records final) (accounted : context.Accounted)
    (unshared : context.Unshared) (right : context.inUse level = context.charged level)
    (fits : ∀ record ∈ records, record.demand level < Context.counterLimit) :
    final.peak level =
      max (context.peak level) ((records.map (·.demand level)).foldr max 0) := by
  induction recorded with
  | nil => exact (Nat.max_eq_left (Nat.zero_le _)).symm
  | @cons record records middle final owners opening closing later ih =>
      obtain ⟨fitsHere, fitsLater⟩ := List.forall_mem_cons.mp fits
      have accountedMiddle := opening.allocates.accounted accounted
      have unsharedMiddle := unshared.allocates opening.allocates
      -- What is in use while the operation runs is its demand.
      have needed := opening.bytesAt_live accounted.distinct level
      rw [← unsharedMiddle.charged_eq,
        opening.allocates.charged_eq unshared.settled accounted.toSound, ← right] at needed
      rw [← needed] at fitsHere
      have lifted := opening.allocates.peak_of_fits unshared.settled fitsHere
        (accounted.inUse_le_peak level)
      have rightMiddle : middle.inUse level = middle.charged level := by
        rw [opening.allocates.inUse_eq unshared.settled fitsHere, right,
          opening.allocates.charged_eq unshared.settled accounted.toSound]
      rw [ih (closing.frees.accounted accountedMiddle) (unsharedMiddle.frees closing.frees)
          (closing.frees.inUse_eq_charged accountedMiddle.toSound rightMiddle) fitsLater,
        closing.frees.peak_eq, lifted, needed, List.map_cons, List.foldr_cons, Nat.max_assoc]

end Schedule

/-! ### The last users -/

/-- After an operation a buffer is live if it was so before or the operation has made it,
unless the operation has freed it. -/
theorem Opening.isLive_finish {templates : LifetimeTemplates} {operation : Operation}
    {start middle finish context : Context} {opened : OpenLifetimes} {owners : List String}
    {code : List Fragment}
    (opening : Opening templates operation.block operation.name start opened middle)
    (closing : Closing templates middle opened.freed owners code finish)
    (same : start.atRest = context.atRest) {name : String} {buffer : Buffer}
    (found : context.find? name = some buffer) :
    finish.isLive name = true ↔
      ¬ (operation.touches context name = true ∧ Lifetimes.ends operation.name buffer = true) ∧
        (operation.touches context name = true ∧ Lifetimes.begins operation.name buffer = true ∨
          start.isLive name = true) := by
  have touchesIff : operation.touches context name = true ↔
      name ∈ operation.block.references context .unrolled := List.contains_iff_mem
  rw [closing.frees.isLive_eq, opening.allocates.isLive_eq, Bool.and_eq_true, Bool.or_eq_true,
    Bool.not_eq_true', ← Bool.not_eq_true, List.contains_iff_mem, List.contains_iff_mem,
    opening.allocated_perm.mem_iff, opening.freed_eq, Block.lifetimes_congr same,
    Block.mem_allocated_iff found, Block.mem_freed_iff found, touchesIff]

/-- Whether an operation may change whether a buffer is live: it touches the buffer, which is
no struct. -/
def Operation.handles (context : Context) (name : String) (buffer : Buffer)
    (operation : Operation) : Bool :=
  operation.touches context name && !buffer.isStruct

namespace Schedule

/-- A buffer that is dead before a run, or handled by it, is dead after it if the last
operation that handles it frees it. -/
theorem Recorded.isLive_eq_false {templates : LifetimeTemplates} {start final context : Context}
    {records : List OperationRecord} (recorded : Recorded templates start records final)
    (same : start.atRest = context.atRest) {name : String} {buffer : Buffer}
    (found : context.find? name = some buffer)
    (awaited : start.isLive name = true →
      ∃ operation ∈ records.map OperationRecord.operation,
        operation.handles context name buffer = true)
    (ends : ∀ operation, ((records.map OperationRecord.operation).filter
      (·.handles context name buffer)).getLast? = some operation →
        Lifetimes.ends operation.name buffer = true) :
    final.isLive name = false := by
  induction recorded with
  | nil =>
      apply Bool.eq_false_iff.mpr
      intro live
      obtain ⟨operation, member, -⟩ := awaited live
      exact nomatch member
  | @cons record records middle final owners opening closing later ih =>
      rw [List.map_cons] at awaited ends
      apply ih (closing.frees.atRest_eq.trans (opening.allocates.atRest_eq.trans same))
      · intro live
        obtain ⟨kept, source⟩ := (opening.isLive_finish closing same found).mp live
        by_contra unhandled
        have noneLater : (records.map OperationRecord.operation).filter
            (·.handles context name buffer) = [] := by
          rw [List.filter_eq_nil_iff]
          intro other member handled
          exact unhandled ⟨other, member, handled⟩
        by_cases handled : record.operation.handles context name buffer = true
        · -- The last operation that handles the buffer is this one, which frees it.
          refine kept ⟨(Bool.and_eq_true_iff.mp handled).1, ends record.operation ?_⟩
          rw [List.filter_cons_of_pos handled, noneLater]
          rfl
        · rcases source with ⟨touched, begun⟩ | liveBefore
          · exact handled (Bool.and_eq_true_iff.mpr ⟨touched, (Bool.and_eq_true_iff.mp begun).1⟩)
          · obtain ⟨other, member, otherHandled⟩ := awaited liveBefore
            rcases List.mem_cons.mp member with rfl | member
            · exact handled otherHandled
            · exact unhandled ⟨other, member, otherHandled⟩
      · intro last isLast
        apply ends last
        by_cases handled : record.operation.handles context name buffer = true
        · rw [List.filter_cons_of_pos handled, List.getLast?_cons, isLast]
          rfl
        · rw [List.filter_cons_of_neg handled, isLast]

theorem Recorded.atRest_eq {templates : LifetimeTemplates} {start final : Context}
    {records : List OperationRecord} (recorded : Recorded templates start records final) :
    final.atRest = start.atRest :=
  recorded.preserves (fun step before => step.atRest_eq.trans before)
    (fun _ _ step before => step.atRest_eq.trans before) rfl

theorem Recorded.accounted {templates : LifetimeTemplates} {start final : Context}
    {records : List OperationRecord} (recorded : Recorded templates start records final)
    (before : start.Accounted) : final.Accounted :=
  recorded.preserves (fun step before => before.allocation step)
    (fun found live step before => before.deallocation found live step) before

theorem Recorded.unshared {templates : LifetimeTemplates} {start final : Context}
    {records : List OperationRecord} (recorded : Recorded templates start records final)
    (before : start.Unshared) : final.Unshared :=
  recorded.preserves (fun step before => before.allocation step)
    (fun _ _ step before => before.deallocation step) before

/-- The last operation that touches a buffer is the last of its users; scratch storage need
have no user. -/
def EndsWithLastUser (context : Context) (operations : List Operation) (buffer : Buffer) : Prop :=
  ∀ operation ∈ (operations.filter (·.touches context buffer.name)).getLast?,
    (buffer.isTransient = true ∧ buffer.users = []) ∨
      buffer.users.getLast? = some operation.name

instance (context : Context) (operations : List Operation) (buffer : Buffer) :
    Decidable (EndsWithLastUser context operations buffer) :=
  inferInstanceAs (Decidable (∀ operation ∈ (List.filter _ operations).getLast?, _ ∨ _))

theorem ends_of_last_user {buffer : Buffer} {operation : String} (stored : buffer.isStruct = false)
    (last : (buffer.isTransient = true ∧ buffer.users = []) ∨
      buffer.users.getLast? = some operation) : Lifetimes.ends operation buffer = true := by
  rcases last with ⟨transient, unused⟩ | last
  · simp [Lifetimes.ends, Lifetimes.endsTransient, transient, unused]
  · have user : buffer.isUser operation = true :=
      List.contains_iff_mem.mpr (List.mem_of_getLast? last)
    have lastUser : buffer.isLastUser operation = true := decide_eq_true last
    cases transient : buffer.isTransient with
    | true => simp [Lifetimes.ends, Lifetimes.endsTransient, transient, lastUser]
    | false => simp [Lifetimes.ends, Lifetimes.endsInput, stored, transient, user, lastUser]

/-- A buffer that an operation handles is a local one that is deployed. -/
theorem isLocal_of_touches {context : Context} (distinct : context.names.Nodup)
    {operation : Operation} {name : String} {buffer : Buffer}
    (found : context.find? name = some buffer) (touched : operation.touches context name = true) :
    buffer ∈ context.locals.entries ∧ buffer.deploy = true := by
  obtain ⟨other, member, deployed, rfl⟩ :=
    Context.exists_of_mem_references (List.contains_iff_mem.mp touched)
  have otherFound := Context.find?_eq_some_of_mem distinct (List.mem_append_left _ member)
  obtain rfl : buffer = other := Option.some.inj (found.symm.trans otherFound)
  exact ⟨member, deployed⟩

theorem Recorded.dead_of_last_users {templates : LifetimeTemplates} {context final : Context}
    {records : List OperationRecord} (recorded : Recorded templates context records final)
    (idle : context.Idle)
    (ended : ∀ buffer ∈ context.locals.entries, buffer.deploy = true → buffer.isStruct = false →
      EndsWithLastUser context (records.map OperationRecord.operation) buffer) (name : String) :
    final.isLive name = false := by
  cases found : context.find? name with
  | none =>
      have absent : (final.find? name).map Buffer.atRest = none := by
        rw [← Context.find?_atRest, recorded.atRest_eq, Context.find?_atRest, found]
        rfl
      rw [Option.map_eq_none_iff] at absent
      rw [Context.isLive, absent]
      rfl
  | some buffer =>
      apply recorded.isLive_eq_false rfl found
      · intro live
        rw [idle.isLive_eq] at live
        exact Bool.noConfusion live
      · intro operation isLast
        have handled := (List.mem_filter.mp (List.mem_of_getLast? isLast)).2
        obtain ⟨touched, notStruct⟩ := Bool.and_eq_true_iff.mp handled
        have stored : buffer.isStruct = false := Bool.not_eq_true' _ ▸ notStruct
        obtain ⟨isLocal, deployed⟩ := isLocal_of_touches idle.distinct found touched
        have sameTest : Operation.handles context name buffer =
            Operation.touches context buffer.name := by
          funext other
          rw [Operation.handles, stored, Bool.not_false, Bool.and_true,
            Context.name_of_find? found]
        rw [sameTest] at isLast
        exact ends_of_last_user stored (ended buffer isLocal deployed stored operation isLast)

/-- **Balanced schedules.** Let no buffer list an alias, and let the last operation that touches
a deployed local buffer other than a struct be the last of its users. After the schedule nothing
is live and nothing is in use. The peak of a level is the highest demand of an operation, as long
as the counter of the level can hold each of them. -/
theorem balanced_of_last_users {templates : LifetimeTemplates} {annotate : Bool}
    {operations : List Operation} {context final : Context} {program : Program}
    (idle : context.Idle) (unaliased : ∀ buffer ∈ context.buffers, buffer.aliases = [])
    (ended : ∀ buffer ∈ context.locals.entries, buffer.deploy = true → buffer.isStruct = false →
      EndsWithLastUser context operations buffer)
    (ran : run [.lifetimes templates] annotate operations context = (.ok program, final)) :
    let records := history templates annotate operations context
    Recorded templates context records final ∧
    records.map OperationRecord.operation = operations ∧
    records.map OperationRecord.block = program.operations.map LoweredOperation.block ∧
    (∀ buffer ∈ final.buffers, buffer.live = false) ∧
    ∀ level, final.inUse level = 0 ∧
      ((∀ record ∈ records, record.demand level < Context.counterLimit) →
        final.peak level = (records.map (·.demand level)).foldr max 0) := by
  intro records
  obtain ⟨recorded, operationsSame, blocksSame⟩ := recorded_of_run idle.sound ran
  have unshared : context.Unshared := by
    refine ⟨fun name => ?_, idle.pending_eq⟩
    rw [Context.aliasesOf]
    cases found : context.find? name with
    | none => rfl
    | some buffer => exact unaliased buffer (Context.mem_of_find? found)
  have accountedFinal := recorded.accounted idle.accounted
  have dead : ∀ buffer ∈ final.buffers, buffer.live = false := by
    intro buffer member
    rw [← Context.isLive_eq (Context.find?_eq_some_of_mem accountedFinal.distinct member)]
    exact recorded.dead_of_last_users idle (operationsSame.symm ▸ ended) buffer.name
  refine ⟨recorded, operationsSame, blocksSame, dead, fun level => ⟨?_, fun fits => ?_⟩⟩
  · have unheld : final.charged level = 0 := by
      apply Buffer.bytesAt_eq_zero
      intro buffer member
      rw [Context.isHeld, dead buffer member, (recorded.unshared unshared).settled, Bool.or_self]
    exact Nat.eq_zero_of_le_zero (unheld ▸ accountedFinal.inUse_le level)
  · have unused : context.inUse level = context.charged level := by
      rw [(idle.unused level).1, idle.charged_eq]
    rw [recorded.peak_eq idle.accounted unshared unused fits, (idle.unused level).2, Nat.zero_max]

/-- A tensor that a struct points to, a tensor in another level, and scratch storage. -/
def pointedContext : Context where
  types := { kinds := [.float 32 23 8, .pointer ⟨0⟩, .struct "args" [("data", ⟨1⟩)]] }
  locals := ⟨[
    { name := "a", type := ⟨0⟩, size := 64, users := ["use", "last"] },
    { name := "t", type := ⟨0⟩, size := 16, kind := .transient },
    { name := "b", type := ⟨0⟩, size := 32, level := some "L1", users := ["last"] },
    .ofStruct "s" ⟨⟨2⟩, .struct [("data", .pointer (some "a"))]⟩ 4]⟩

/-- Operations that reach the tensor directly and through the struct. -/
def pointedSchedule : List Operation :=
  [⟨"make", .ofFragments [.ofSource "make(${x}, ${t});" [("x", .name "a"), ("t", .name "t")]]⟩,
    ⟨"use", .ofFragments [.ofSource "use(${s}, ${y}, ${t});"
      [("s", .name "s"), ("y", .name "b"), ("t", .name "t")]]⟩,
    ⟨"last", .ofFragments [.ofSource "last(${s}, ${y});" [("s", .name "s"), ("y", .name "b")]]⟩]

theorem balanced_of_last_users_pointedSchedule :
    pointedContext.Idle ∧ (∀ buffer ∈ pointedContext.buffers, buffer.aliases = []) ∧
    (∀ buffer ∈ pointedContext.locals.entries, buffer.deploy = true → buffer.isStruct = false →
      EndsWithLastUser pointedContext pointedSchedule buffer) ∧
    ∃ program final,
      run [.lifetimes {}] true pointedSchedule pointedContext = (.ok program, final) ∧
      (∀ buffer ∈ final.buffers, buffer.live = false) ∧
      (∀ level, final.inUse level = 0) ∧ final.peak "default" = 80 ∧ final.peak "L1" = 32 := by
  have idle : pointedContext.Idle := ⟨by decide, by decide, rfl, fun _ => ⟨rfl, rfl⟩⟩
  have unaliased : ∀ buffer ∈ pointedContext.buffers, buffer.aliases = [] := by decide
  have ended : ∀ buffer ∈ pointedContext.locals.entries, buffer.deploy = true →
      buffer.isStruct = false → EndsWithLastUser pointedContext pointedSchedule buffer := by
    decide +kernel
  obtain ⟨succeeds, fits, atDefault, atL1⟩ :
      (run [.lifetimes {}] true pointedSchedule pointedContext).1.isOk = true ∧
      (∀ level ∈ ["default", "L1"], ∀ record ∈ history {} true pointedSchedule pointedContext,
        record.demand level < Context.counterLimit) ∧
      ((history {} true pointedSchedule pointedContext).map (·.demand "default")).foldr max 0 = 80 ∧
      ((history {} true pointedSchedule pointedContext).map (·.demand "L1")).foldr max 0 = 32 := by
    decide +kernel
  obtain ⟨program, ran⟩ := exists_of_isOk succeeds
  obtain ⟨-, -, -, dead, counters⟩ := balanced_of_last_users idle unaliased ended ran
  exact ⟨idle, unaliased, ended, program, _, ran, dead, fun level => (counters level).1,
    ((counters "default").2 (fits _ List.mem_cons_self)).trans atDefault,
    ((counters "L1").2 (fits _ (List.mem_cons_of_mem _ List.mem_cons_self))).trans atL1⟩

/-- Two pieces of scratch storage that fill the counter of their level. -/
def wideContext : Context where
  types := { kinds := [.float 32 23 8] }
  locals := ⟨[{ name := "s", type := ⟨0⟩, size := 2 ^ 63, level := some "L1", kind := .transient },
    { name := "t", type := ⟨0⟩, size := 2 ^ 63, level := some "L1", kind := .transient }]⟩

/-- An operation on both of them. -/
def wideSchedule : List Operation :=
  [⟨"fill", .ofFragments [.ofSource "fill(${s}, ${t});" [("s", .name "s"), ("t", .name "t")]]⟩]

/-- The operation needs `2 ^ 64` bytes, but the counter has wrapped around and the peak is half of
that. -/
theorem wideSchedule_wraps :
    wideContext.Idle ∧ (∀ buffer ∈ wideContext.buffers, buffer.aliases = []) ∧
    (∀ buffer ∈ wideContext.locals.entries, buffer.deploy = true → buffer.isStruct = false →
      EndsWithLastUser wideContext wideSchedule buffer) ∧
    (run [.lifetimes {}] false wideSchedule wideContext).1.isOk = true ∧
    ((history {} false wideSchedule wideContext).map (·.demand "L1")).foldr max 0 = 2 ^ 64 ∧
    (run [.lifetimes {}] false wideSchedule wideContext).2.peak "L1" = 2 ^ 63 := by
  refine ⟨⟨by decide, by decide, rfl, fun _ => ⟨rfl, rfl⟩⟩, ?_⟩
  decide +kernel

end Schedule

end TensorLowering
