import TensorLowering.Proofs.Buffers

/-! # Arena accounting, one operation at a time

Storage is held by a buffer that is live or whose release is pending. What allocating and
freeing a buffer can do is said once (`TensorLowering.Context.Allocation`,
`TensorLowering.Context.Deallocation`); the books of a context stay right under both. They are
exact as long as no counter has wrapped around, and a counter that has falls behind.
-/

namespace TensorLowering

namespace Context

/-- Whether a buffer holds storage: it is live, or its release is pending. -/
def isHeld (context : Context) (buffer : Buffer) : Bool :=
  buffer.live || context.pendingRelease.contains buffer.name

/-- The bytes of all buffers of a level that hold storage. -/
def charged (context : Context) (level : String) : Nat :=
  Buffer.bytesAt context.buffers level context.isHeld

/-- Names are distinct, and a pending release belongs to a dead buffer that is no
reference. -/
structure Sound (context : Context) : Prop where
  distinct : context.names.Nodup
  pending : ∀ name, context.pendingRelease.contains name →
    ∃ buffer, context.find? name = some buffer ∧ buffer.live = false ∧ buffer.target? = none

/-- The counters agree with the buffers: what is in use is what is charged, or less if a counter
has wrapped around, and no more than the peak. -/
structure Accounted (context : Context) : Prop extends Sound context where
  inUse_le : ∀ level, context.inUse level ≤ context.charged level
  inUse_eq : context.overflowed = false → ∀ level, context.inUse level = context.charged level
  inUse_lt : ∀ level, context.inUse level < counterLimit
  inUse_le_peak : ∀ level, context.inUse level ≤ context.peak level

/-- Where neither a counter nor what is charged has changed, the books stay right. -/
theorem Accounted.of_same {context after : Context} (accounted : Accounted context)
    (sound : Sound after) (charge : ∀ level, after.charged level = context.charged level)
    (inUse : ∀ level, after.inUse level = context.inUse level)
    (peak : ∀ level, after.peak level = context.peak level)
    (overflowed : after.overflowed = context.overflowed) : Accounted after where
  toSound := sound
  inUse_le level := inUse level ▸ charge level ▸ accounted.inUse_le level
  inUse_eq exact level := inUse level ▸ charge level ▸ accounted.inUse_eq (overflowed ▸ exact) level
  inUse_lt level := inUse level ▸ accounted.inUse_lt level
  inUse_le_peak level := inUse level ▸ peak level ▸ accounted.inUse_le_peak level

theorem isLive_eq {context : Context} {name : String} {buffer : Buffer}
    (found : context.find? name = some buffer) : context.isLive name = buffer.live := by
  rw [isLive, found]
  rfl

/-- Nothing holds storage, and none was ever used. -/
structure Idle (context : Context) : Prop where
  distinct : context.names.Nodup
  dead : ∀ buffer ∈ context.buffers, buffer.live = false
  settled : context.pendingRelease = .empty
  unused : ∀ level, context.inUse level = 0 ∧ context.peak level = 0

namespace Idle

variable {context : Context}

theorem pending_eq (idle : Idle context) (name : String) :
    context.pendingRelease.contains name = false := by
  rw [idle.settled]
  rfl

theorem isLive_eq (idle : Idle context) (name : String) : context.isLive name = false := by
  cases found : context.find? name with
  | none => simp [isLive, found]
  | some buffer => rw [Context.isLive_eq found, idle.dead buffer (mem_of_find? found)]

theorem sound (idle : Idle context) : Sound context where
  distinct := idle.distinct
  pending name pending := by
    rw [idle.pending_eq] at pending
    exact Bool.noConfusion pending

theorem charged_eq (idle : Idle context) (level : String) : context.charged level = 0 := by
  apply Buffer.bytesAt_eq_zero
  intro buffer member
  rw [isHeld, idle.dead buffer member, idle.pending_eq, Bool.or_self]

theorem accounted (idle : Idle context) : Accounted context where
  toSound := idle.sound
  inUse_le level := by
    rw [(idle.unused level).1]
    exact Nat.zero_le _
  inUse_eq _ level := by rw [(idle.unused level).1, idle.charged_eq]
  inUse_lt level := by
    rw [(idle.unused level).1]
    exact Nat.two_pow_pos 64
  inUse_le_peak level := by
    rw [(idle.unused level).1]
    exact Nat.zero_le _

end Idle

/-! ### What an allocation does -/

/-- The buffer `buffer` of a name is made live, after a release that was pending for it. -/
structure Allocation (context : Context) (name : String) (buffer : Buffer) (after : Context) :
    Prop where
  found : context.find? name = some buffer
  dead : buffer.live = false
  result : after =
    ((if context.pendingRelease.contains name then context.settle buffer else context).modify name
      ({ · with live := true })).reserve buffer.levelKey buffer.footprint

theorem allocation_of_allocate {context after : Context} {name operation : String}
    (allocated : context.allocate name operation = .ok after) :
    ∃ buffer, Allocation context name buffer after := by
  unfold allocate lookup at allocated
  cases found : context.find? name with
  | none => simp [found, bind, Except.bind] at allocated
  | some buffer =>
      cases live : buffer.live with
      | true =>
          simp [found, live, bind, Except.bind, throw, throwThe, MonadExceptOf.throw] at allocated
      | false =>
          refine ⟨buffer, found, live, ?_⟩
          simpa [found, live, bind, Except.bind, pure, Except.pure] using allocated.symm

namespace Allocation

variable {context after : Context} {name : String} {buffer : Buffer}

theorem named (allocation : Allocation context name buffer after) : buffer.name = name :=
  name_of_find? allocation.found

theorem buffers_eq (allocation : Allocation context name buffer after)
    (distinct : context.names.Nodup) :
    after.buffers = context.buffers.map fun other =>
      if other.name = name then { other with live := true } else other := by
  rw [allocation.result]
  split
  · exact @buffers_modify (context.settle buffer) distinct name _
  · exact buffers_modify distinct name _

theorem names_eq (allocation : Allocation context name buffer after) :
    after.names = context.names := by
  rw [allocation.result]
  split
  · exact names_modify (context.settle buffer) fun _ => rfl
  · exact names_modify context fun _ => rfl

/-- An allocation changes nothing that is seen at rest. -/
theorem atRest_eq (allocation : Allocation context name buffer after) :
    after.atRest = context.atRest := by
  rw [allocation.result]
  split
  · exact (context.settle buffer).atRest_modify name fun _ => rfl
  · exact context.atRest_modify name fun _ => rfl

theorem find?_eq (allocation : Allocation context name buffer after) (other : String) :
    after.find? other =
      if other = name then some { buffer with live := true } else context.find? other := by
  have keepsName : ∀ buffer : Buffer, { buffer with live := true }.name = buffer.name :=
    fun _ => rfl
  have base : ∀ other, (if context.pendingRelease.contains name then context.settle buffer
      else context).find? other = context.find? other := by
    intro other
    split <;> rfl
  rw [allocation.result]
  change (modify _ _ _).find? other = _
  rw [find?_modify _ keepsName, base, base, allocation.found, Option.map_some]

theorem isLive_eq (allocation : Allocation context name buffer after) (other : String) :
    after.isLive other = (decide (other = name) || context.isLive other) := by
  rw [isLive, allocation.find?_eq]
  by_cases same : other = name
  · simp [same]
  · simp [same, isLive]

theorem pending_eq (allocation : Allocation context name buffer after) (other : String) :
    after.pendingRelease.contains other =
      (decide (name ≠ other) && context.pendingRelease.contains other) := by
  rw [allocation.result]
  change (modify _ _ _).pendingRelease.contains other = _
  rw [modify_pendingRelease]
  split
  · change (context.pendingRelease.erase buffer.name).contains other = _
    rw [Dict.contains_erase, allocation.named]
  · next absent =>
      by_cases same : name = other
      · subst same
        simpa using absent
      · simp [same]

/-- The counters after what is pending for a buffer was settled. -/
theorem inUse_settled (_ : Allocation context name buffer after) (level : String) :
    (modify (if context.pendingRelease.contains name then context.settle buffer else context) name
      ({ · with live := true })).inUse level =
        context.inUse level - if context.pendingRelease.contains name ∧ buffer.levelKey = level
          then buffer.footprint else 0 := by
  rw [inUse_modify]
  split
  · next pending =>
      change (release _ _ _).inUse level = _
      rw [inUse_release]
      simp [pending, inUse]
  · next absent => simp [absent]

/-- No counter has wrapped around before an allocation if none has after it. -/
theorem exact_start (allocation : Allocation context name buffer after)
    (exact : after.overflowed = false) : context.overflowed = false := by
  rw [allocation.result] at exact
  have before := (overflowed_reserve_eq_false_iff.mp exact).1
  rw [modify_overflowed] at before
  split at before
  · exact before
  · exact before

theorem inUse_eq (allocation : Allocation context name buffer after)
    (exact : after.overflowed = false) (level : String) :
    after.inUse level =
      (context.inUse level - if context.pendingRelease.contains name ∧ buffer.levelKey = level
        then buffer.footprint else 0) +
        if buffer.levelKey = level then buffer.footprint else 0 := by
  rw [allocation.result] at exact
  rw [allocation.result, inUse_reserve_of_exact exact, allocation.inUse_settled]

/-- A counter that can hold what an allocation takes counts it. -/
theorem inUse_of_fits (allocation : Allocation context name buffer after) (level : String)
    (fits : (context.inUse level -
      if context.pendingRelease.contains name ∧ buffer.levelKey = level
        then buffer.footprint else 0) +
        (if buffer.levelKey = level then buffer.footprint else 0) < counterLimit) :
    after.inUse level =
      (context.inUse level - if context.pendingRelease.contains name ∧ buffer.levelKey = level
        then buffer.footprint else 0) +
        if buffer.levelKey = level then buffer.footprint else 0 := by
  rw [← allocation.inUse_settled] at fits ⊢
  rw [allocation.result, inUse_reserve]
  split
  · next here =>
      rw [if_pos here] at fits
      rw [here, Nat.mod_eq_of_lt fits]
  · rfl

/-- An allocation adds no more than the footprint of its buffer. -/
theorem inUse_le_add (allocation : Allocation context name buffer after) (level : String) :
    after.inUse level ≤
      (context.inUse level - if context.pendingRelease.contains name ∧ buffer.levelKey = level
        then buffer.footprint else 0) +
        if buffer.levelKey = level then buffer.footprint else 0 := by
  rw [← allocation.inUse_settled, allocation.result]
  exact inUse_reserve_le ..

theorem inUse_of_ne (allocation : Allocation context name buffer after) {level : String}
    (elsewhere : buffer.levelKey ≠ level) : after.inUse level = context.inUse level := by
  rw [allocation.result, inUse_reserve, if_neg elsewhere, allocation.inUse_settled,
    if_neg fun both => elsewhere both.2, Nat.sub_zero]

theorem inUse_lt (allocation : Allocation context name buffer after) {level : String}
    (before : context.inUse level < counterLimit) : after.inUse level < counterLimit := by
  by_cases here : buffer.levelKey = level
  · rw [allocation.result, inUse_reserve, if_pos here]
    exact Nat.mod_lt _ (Nat.two_pow_pos 64)
  · rwa [allocation.inUse_of_ne here]

/-- An exact allocation lowers no counter: what it settles first it takes again. -/
theorem inUse_mono (allocation : Allocation context name buffer after)
    (exact : after.overflowed = false) (level : String) :
    context.inUse level ≤ after.inUse level := by
  rw [allocation.inUse_eq exact]
  by_cases here : buffer.levelKey = level
  · rw [if_pos here]
    split <;> omega
  · rw [if_neg here, if_neg fun both => here both.2]
    exact Nat.le_refl _

theorem peak_eq (allocation : Allocation context name buffer after) (level : String) :
    after.peak level =
      if buffer.levelKey = level then max (context.peak level) (after.inUse level)
      else context.peak level := by
  have samePeak : ∀ other, (modify (if context.pendingRelease.contains name
      then context.settle buffer else context) name ({ · with live := true })).peak other =
        context.peak other := by
    intro other
    rw [peak_modify]
    split <;> rfl
  rw [allocation.result, peak_reserve, samePeak, samePeak]
  split
  · next here => rw [here]
  · rfl

end Allocation

/-! ### What freeing a buffer does -/

/-- The context with the buffer of a name dead, its storage not yet returned. -/
def retire (context : Context) (name : String) : Context :=
  context.modify name ({ · with live := false })

/-- The live buffer `buffer` of a name is made dead, and the storage of the listed buffers is
returned. Storage that a live alias views stays behind; a reference has none of its own, but
lets go of its target if the release of that is pending. -/
inductive Deallocation (context : Context) (name : String) (buffer : Buffer) :
    List String → Context → Prop
  | deferred (root : buffer.target? = none)
      (viewed : (context.retire name).hasLiveAliases name = .ok true) :
      Deallocation context name buffer []
        { context.retire name with
          pendingRelease := (context.retire name).pendingRelease.insert name () }
  | returned (root : buffer.target? = none)
      (unviewed : (context.retire name).hasLiveAliases name = .ok false) :
      Deallocation context name buffer [name]
        ((context.retire name).release buffer.levelKey buffer.footprint)
  | settled {target : String} {owner : Buffer} (views : buffer.target? = some target)
      (pending : context.pendingRelease.contains target = true)
      (owned : context.find? target = some owner)
      (unviewed : (context.retire name).hasLiveAliases target = .ok false) :
      Deallocation context name buffer [target] ((context.retire name).settle owner)
  | kept {target : String} (views : buffer.target? = some target)
      (held : context.pendingRelease.contains target = true →
        (context.retire name).hasLiveAliases target = .ok true) :
      Deallocation context name buffer [] (context.retire name)

theorem find?_retire (context : Context) (name other : String) :
    (context.retire name).find? other =
      if other = name then (context.find? name).map ({ · with live := false })
      else context.find? other :=
  find?_modify context fun _ => rfl

theorem names_retire (context : Context) (name : String) :
    (context.retire name).names = context.names :=
  names_modify context fun _ => rfl

theorem retire_pendingRelease (context : Context) (name : String) :
    (context.retire name).pendingRelease = context.pendingRelease :=
  modify_pendingRelease ..

theorem hasLiveAliases_eq {context : Context} {name : String} {buffer : Buffer}
    (found : context.find? name = some buffer) :
    context.hasLiveAliases name = .ok ((context.aliasClosure name).any context.isLive) := by
  simp [hasLiveAliases, lookup, found, bind, Except.bind, pure, Except.pure]

/-- The walk along targets from a retired reference ends at its first step, since a buffer
whose release is pending has no target. -/
theorem settleChain_retire {context : Context} (sound : Sound context) {name target : String}
    {buffer : Buffer} (found : context.find? name = some buffer) (live : buffer.live = true)
    (views : buffer.target? = some target) (bound : Nat) :
    ∃ released after, settleChain (bound + 1) (context.retire name) [] target =
      (.ok released, after) ∧ Deallocation context name buffer released after := by
  rw [settleChain]
  rw [retire_pendingRelease]
  by_cases pending : context.pendingRelease.contains target = true
  · obtain ⟨owner, owned, ownerDead, ownerRoot⟩ := sound.pending target pending
    have different : target ≠ name := by
      rintro rfl
      rw [Option.some.inj (found.symm.trans owned), ownerDead] at live
      exact Bool.noConfusion live
    have ownedStill : (context.retire name).find? target = some owner := by
      rw [find?_retire, if_neg different, owned]
    rw [if_pos pending, lookup, ownedStill]
    cases viewed : (context.retire name).hasLiveAliases target with
    | error fault =>
        rw [hasLiveAliases_eq ownedStill] at viewed
        cases viewed
    | ok answer =>
        cases answer with
        | true => exact ⟨[], _, rfl, .kept views fun _ => viewed⟩
        | false =>
            simp only [ownerRoot, List.nil_append]
            exact ⟨[target], _, rfl, .settled views pending owned viewed⟩
  · rw [if_neg pending]
    exact ⟨[], _, rfl, .kept views fun held => absurd held pending⟩

theorem deallocate_reference {context : Context} {name target : String} {buffer : Buffer}
    (found : context.find? name = some buffer) (live : buffer.live = true)
    (views : buffer.target? = some target) (operation : String) :
    context.deallocate name operation =
      settleChain ((context.retire name).pendingRelease.keys.length + 1) (context.retire name) []
        target := by
  simp [deallocate, lookup, found, live, views, retire]

/-- A buffer with storage of its own returns it unless a live alias views it. -/
theorem deallocate_root {context : Context} {name : String} {buffer : Buffer}
    (found : context.find? name = some buffer) (live : buffer.live = true)
    (root : buffer.target? = none) (operation : String) :
    ∃ released after, context.deallocate name operation = (.ok released, after) ∧
      Deallocation context name buffer released after := by
  have foundStill : (context.retire name).find? name = some { buffer with live := false } := by
    rw [find?_retire, if_pos rfl, found, Option.map_some]
  cases viewed : ((context.retire name).aliasClosure name).any (context.retire name).isLive with
  | true =>
      have answer := (hasLiveAliases_eq foundStill).trans (congrArg Except.ok viewed)
      refine ⟨[], _, ?_, .deferred root answer⟩
      rw [retire] at answer
      simp [deallocate, lookup, found, live, root, retire, answer]
  | false =>
      have answer := (hasLiveAliases_eq foundStill).trans (congrArg Except.ok viewed)
      refine ⟨[name], _, ?_, .returned root answer⟩
      rw [retire] at answer
      simp [deallocate, lookup, found, live, root, retire, answer]

/-- Freeing fails and changes nothing where there is no live buffer. -/
theorem deallocate_of_dead {context : Context} {name : String} (dead : context.isLive name = false)
    (operation : String) :
    ∃ error, context.deallocate name operation = (.error error, context) := by
  cases found : context.find? name with
  | none => exact ⟨.unknownBuffer name, by simp [deallocate, lookup, found]⟩
  | some buffer =>
      rw [isLive_eq found] at dead
      exact ⟨.doubleFree name operation, by simp [deallocate, lookup, found, dead]⟩

theorem exists_of_isLive {context : Context} {name : String} (live : context.isLive name = true) :
    ∃ buffer, context.find? name = some buffer ∧ buffer.live = true := by
  cases found : context.find? name with
  | none => simp [isLive, found] at live
  | some buffer => exact ⟨buffer, rfl, isLive_eq found ▸ live⟩

/-- Freeing fails and changes nothing where there is no live buffer, and makes a live buffer
dead. -/
theorem deallocate_cases {context : Context} (sound : Sound context) (name operation : String) :
    (context.isLive name = false ∧
      ∃ error, context.deallocate name operation = (.error error, context)) ∨
      ∃ buffer released after, context.deallocate name operation = (.ok released, after) ∧
        context.find? name = some buffer ∧ buffer.live = true ∧
          Deallocation context name buffer released after := by
  cases isLive : context.isLive name with
  | false => exact .inl ⟨rfl, deallocate_of_dead isLive operation⟩
  | true =>
      obtain ⟨buffer, found, live⟩ := exists_of_isLive isLive
      cases views : buffer.target? with
      | some target =>
          obtain ⟨released, after, result, freed⟩ := settleChain_retire sound found live views _
          exact .inr ⟨buffer, released, after,
            (deallocate_reference found live views operation).trans result, found, live, freed⟩
      | none =>
          obtain ⟨released, after, result, freed⟩ := deallocate_root found live views operation
          exact .inr ⟨buffer, released, after, result, found, live, freed⟩

/-- Following targets changes what is in use and what is pending, and nothing else. -/
theorem settleChain_changes (bound : Nat) (context : Context) (released : List String)
    (name : String) : ∃ dynamicSize pendingRelease,
      (settleChain bound context released name).2 =
        { context with dynamicSize, pendingRelease } := by
  fun_induction settleChain bound context released name with
  | case5 _ _ _ _ _ _ _ _ _ _ _ rest => exact rest
  | _ => exact ⟨_, _, rfl⟩

/-- Freeing a live buffer makes it dead and changes what is in use and what is pending, and nothing
else, also if it fails. -/
theorem deallocate_changes {context : Context} {name : String} (live : context.isLive name = true)
    (operation : String) : ∃ dynamicSize pendingRelease, (context.deallocate name operation).2 =
      { context.retire name with dynamicSize, pendingRelease } := by
  obtain ⟨buffer, found, live⟩ := exists_of_isLive live
  cases views : buffer.target? with
  | some target =>
      rw [deallocate_reference found live views]
      exact settleChain_changes ..
  | none =>
      obtain ⟨released, after, result, freed⟩ := deallocate_root found live views operation
      rw [result]
      cases freed <;> exact ⟨_, _, rfl⟩

/-- The bytes in a level of the buffers with the given names. -/
def bytesOf (context : Context) (names : List String) (level : String) : Nat :=
  Buffer.bytesAt (names.filterMap context.find?) level fun _ => true

theorem bytesOf_cons {context : Context} {name : String} {buffer : Buffer}
    (found : context.find? name = some buffer) (names : List String) (level : String) :
    context.bytesOf (name :: names) level =
      (if buffer.levelKey = level then buffer.footprint else 0) + context.bytesOf names level := by
  rw [bytesOf, bytesOf, List.filterMap_cons_some found, Buffer.bytesAt_eq_sum,
    Buffer.bytesAt_eq_sum, List.map_cons, List.sum_cons]
  simp [Buffer.share]

theorem bytesOf_singleton {context : Context} {name : String} {buffer : Buffer}
    (found : context.find? name = some buffer) (level : String) :
    context.bytesOf [name] level = if buffer.levelKey = level then buffer.footprint else 0 :=
  bytesOf_cons found [] level

namespace Deallocation

variable {context after : Context} {name : String} {buffer : Buffer} {released : List String}

theorem buffers_eq (freed : Deallocation context name buffer released after)
    (distinct : context.names.Nodup) :
    after.buffers = context.buffers.map fun other =>
      if other.name = name then { other with live := false } else other := by
  cases freed <;> exact buffers_modify distinct name _

theorem names_eq (freed : Deallocation context name buffer released after) :
    after.names = context.names := by
  cases freed <;> exact context.names_retire name

/-- Freeing changes nothing that is seen at rest. -/
theorem atRest_eq (freed : Deallocation context name buffer released after) :
    after.atRest = context.atRest := by
  cases freed <;> exact context.atRest_modify name fun _ => rfl

theorem find?_eq (freed : Deallocation context name buffer released after) (other : String) :
    after.find? other =
      if other = name then (context.find? name).map ({ · with live := false })
      else context.find? other := by
  cases freed <;> exact find?_retire context name other

theorem isLive_eq (freed : Deallocation context name buffer released after) (other : String) :
    after.isLive other = (decide (other ≠ name) && context.isLive other) := by
  rw [isLive, freed.find?_eq]
  by_cases same : other = name
  · rw [if_pos same]
    cases context.find? name <;> simp [same]
  · simp [same, isLive]

theorem peak_eq (freed : Deallocation context name buffer released after) (level : String) :
    after.peak level = context.peak level := by
  cases freed <;> exact peak_modify ..

theorem overflowed_eq (freed : Deallocation context name buffer released after) :
    after.overflowed = context.overflowed := by
  cases freed <;> exact modify_overflowed ..

/-- The counter of a level is lowered by the bytes of the released buffers. -/
theorem inUse_eq (freed : Deallocation context name buffer released after)
    (found : context.find? name = some buffer) (level : String) :
    after.inUse level = context.inUse level - context.bytesOf released level := by
  have same : (context.retire name).inUse level = context.inUse level := inUse_modify ..
  cases freed with
  | deferred root viewed => exact same
  | returned root unviewed => rw [inUse_release, same, bytesOf_singleton found]
  | settled views owing owned unviewed =>
      change (release _ _ _).inUse level = _
      rw [inUse_release, bytesOf_singleton owned]
      exact congrArg (· - _) same
  | kept views held => exact same

end Deallocation

/-! ### The books stay right -/

/-- The bytes charged to a level move with the one buffer whose share changes. -/
theorem charged_update {context after : Context} (distinct : context.names.Nodup)
    {change : Buffer → Buffer} (mapped : after.buffers = context.buffers.map change)
    {buffer : Buffer} (member : buffer ∈ context.buffers) (level : String)
    (others : ∀ other ∈ context.buffers, other.name ≠ buffer.name →
      (change other).share level after.isHeld = other.share level context.isHeld) :
    after.charged level + buffer.share level context.isHeld =
      context.charged level + (change buffer).share level after.isHeld := by
  rw [names_eq_map] at distinct
  rw [charged, charged, Buffer.bytesAt_eq_sum, Buffer.bytesAt_eq_sum, mapped, List.map_map]
  exact Buffer.sum_update distinct member others

/-- Making one buffer live or dead moves the bytes charged by the share of that buffer. -/
theorem charged_setLive {context after : Context} (distinct : context.names.Nodup) {name : String}
    {live : Bool} (mapped : after.buffers = context.buffers.map fun other =>
      if other.name = name then { other with live } else other)
    {buffer : Buffer} (found : context.find? name = some buffer)
    (samePending : ∀ other, other ≠ name →
      after.pendingRelease.contains other = context.pendingRelease.contains other)
    (level : String) :
    after.charged level + buffer.share level context.isHeld =
      context.charged level + { buffer with live }.share level after.isHeld := by
  have named := name_of_find? found
  have moved := charged_update distinct mapped (mem_of_find? found) level (by
    intro other _ different
    rw [named] at different
    rw [if_neg different, Buffer.share, Buffer.share, isHeld, isHeld, samePending _ different])
  rwa [if_pos named] at moved

theorem charged_retire_reference {context : Context} (distinct : context.names.Nodup)
    {name target : String} {buffer : Buffer} (found : context.find? name = some buffer)
    (views : buffer.target? = some target) (level : String) :
    (context.retire name).charged level = context.charged level := by
  have moved := charged_setLive distinct (buffers_modify distinct name ({ · with live := false }))
    found (fun other _ => by rw [modify_pendingRelease]) level
  have viewsStill : { buffer with live := false }.target? = some target := views
  rwa [Buffer.share_of_target views, Buffer.share_of_target viewsStill] at moved

/-- Settling a pending release takes the bytes of the buffer off what is charged. -/
theorem charged_settle {context : Context} (distinct : context.names.Nodup) {buffer : Buffer}
    (member : buffer ∈ context.buffers) (dead : buffer.live = false)
    (pending : context.pendingRelease.contains buffer.name = true) (level : String) :
    (context.settle buffer).charged level +
      (if buffer.levelKey = level then buffer.footprint else 0) = context.charged level := by
  have pendingEq : ∀ other, (context.settle buffer).pendingRelease.contains other =
      (decide (buffer.name ≠ other) && context.pendingRelease.contains other) :=
    Dict.contains_erase context.pendingRelease buffer.name
  have moved := @charged_update context (context.settle buffer) distinct id
    (List.map_id context.buffers).symm buffer member level (by
      intro other _ different
      rw [id_eq, Buffer.share, Buffer.share, isHeld, isHeld, pendingEq]
      simp [Ne.symm different])
  have held : context.isHeld buffer = true := by simp [isHeld, pending]
  have unheld : (context.settle buffer).isHeld buffer = false := by
    simp [isHeld, dead, pendingEq]
  rwa [id_eq, Buffer.share_of_chosen held, Buffer.share_of_not_chosen unheld] at moved

section Preservation

variable {context after : Context} {name : String} {buffer : Buffer} {released : List String}

theorem Sound.ne_of_pending (sound : Sound context) (found : context.find? name = some buffer)
    (live : buffer.live = true) {other : String}
    (pending : context.pendingRelease.contains other = true) : other ≠ name := by
  rintro rfl
  obtain ⟨owner, owned, dead, -⟩ := sound.pending other pending
  rw [Option.some.inj (found.symm.trans owned), dead] at live
  exact Bool.noConfusion live

theorem Sound.allocation (sound : Sound context)
    (allocation : Allocation context name buffer after) : Sound after where
  distinct := allocation.names_eq ▸ sound.distinct
  pending other pending := by
    rw [allocation.pending_eq, Bool.and_eq_true, decide_eq_true_eq] at pending
    rw [allocation.find?_eq, if_neg pending.1.symm]
    exact sound.pending other pending.2

theorem Sound.deallocation (sound : Sound context) (found : context.find? name = some buffer)
    (live : buffer.live = true) (freed : Deallocation context name buffer released after) :
    Sound after where
  distinct := freed.names_eq ▸ sound.distinct
  pending other pending := by
    have before : ∀ other, context.pendingRelease.contains other = true →
        ∃ owner, after.find? other = some owner ∧ owner.live = false ∧ owner.target? = none := by
      intro other pending
      rw [freed.find?_eq, if_neg (sound.ne_of_pending found live pending)]
      exact sound.pending other pending
    have samePending := context.retire_pendingRelease name
    have findEq := freed.find?_eq other
    cases freed with
    | deferred root viewed =>
        rw [Dict.contains_insert, samePending, Bool.or_eq_true, decide_eq_true_eq] at pending
        rcases pending with rfl | pending
        · rw [if_pos rfl, found] at findEq
          exact ⟨_, findEq, rfl, root⟩
        · exact before other pending
    | returned root unviewed => exact before other (samePending ▸ pending)
    | settled views owing owned unviewed =>
        change ((context.retire name).pendingRelease.erase _).contains other = true at pending
        rw [Dict.contains_erase, samePending, Bool.and_eq_true] at pending
        exact before other pending.2
    | kept views held => exact before other (samePending ▸ pending)

/-- Allocating takes what is pending for the buffer off what is charged, and adds its footprint. -/
theorem Sound.charged_allocation (sound : Sound context)
    (allocation : Allocation context name buffer after) (level : String) :
    after.charged level =
      (context.charged level - if context.pendingRelease.contains name ∧ buffer.levelKey = level
        then buffer.footprint else 0) +
        if buffer.levelKey = level then buffer.footprint else 0 := by
  have moved := charged_setLive sound.distinct (allocation.buffers_eq sound.distinct)
    allocation.found (fun other different => by
      rw [allocation.pending_eq]
      simp [Ne.symm different]) level
  have enough : buffer.share level context.isHeld ≤ context.charged level :=
    Buffer.share_le_bytesAt (mem_of_find? allocation.found) level context.isHeld
  have held : after.isHeld { buffer with live := true } = true := by simp [isHeld]
  have before : buffer.share level context.isHeld =
      if context.pendingRelease.contains name ∧ buffer.levelKey = level
        then buffer.footprint else 0 := by
    simp [Buffer.share, isHeld, allocation.dead, allocation.named, and_comm]
  rw [Buffer.share_of_chosen held] at moved
  change _ = _ + (if buffer.levelKey = level then buffer.footprint else 0) at moved
  rw [← before]
  omega

/-- **Allocating keeps the books.** -/
theorem Accounted.allocation (accounted : Accounted context)
    (allocation : Allocation context name buffer after) : Accounted after where
  toSound := accounted.toSound.allocation allocation
  inUse_le level := by
    rw [accounted.toSound.charged_allocation allocation]
    refine (allocation.inUse_le_add level).trans (Nat.add_le_add_right ?_ _)
    exact Nat.sub_le_sub_right (accounted.inUse_le level) _
  inUse_eq exact level := by
    rw [allocation.inUse_eq exact, accounted.inUse_eq (allocation.exact_start exact),
      accounted.toSound.charged_allocation allocation]
  inUse_lt level := allocation.inUse_lt (accounted.inUse_lt level)
  inUse_le_peak level := by
    have before := accounted.inUse_le_peak level
    rw [allocation.peak_eq]
    split
    · exact Nat.le_max_right _ _
    · next elsewhere => rwa [allocation.inUse_of_ne elsewhere]

/-- No counter wraps around where what is charged after an allocation fits it. -/
theorem Accounted.exact_allocation (accounted : Accounted context)
    (exact : context.overflowed = false) (allocation : Allocation context name buffer after)
    (fits : ∀ level, after.charged level < counterLimit) : after.overflowed = false := by
  have total := fits buffer.levelKey
  rw [accounted.toSound.charged_allocation allocation, ← accounted.inUse_eq exact, if_pos rfl,
    ← allocation.inUse_settled] at total
  rw [allocation.result, overflowed_reserve_eq_false_iff]
  refine ⟨?_, total⟩
  rw [modify_overflowed]
  split
  · exact exact
  · exact exact

/-- Freeing takes the bytes of the released buffers, and nothing else, off what is charged. -/
theorem Sound.charged_deallocation (sound : Sound context)
    (found : context.find? name = some buffer) (live : buffer.live = true)
    (freed : Deallocation context name buffer released after) (level : String) :
    after.charged level + context.bytesOf released level = context.charged level := by
  have named := name_of_find? found
  have held : context.isHeld buffer = true := by simp [isHeld, live]
  have mapped := freed.buffers_eq sound.distinct
  cases freed with
  | deferred root viewed =>
      have moved := charged_setLive sound.distinct mapped found (fun other different => by
        rw [Dict.contains_insert, retire_pendingRelease]
        simp [Ne.symm different]) level
      have heldStill : Context.isHeld { context.retire name with
          pendingRelease := (context.retire name).pendingRelease.insert name () }
            { buffer with live := false } = true := by
        simp [isHeld, named, Dict.contains_insert]
      rw [Buffer.share_of_chosen held, Buffer.share_of_chosen heldStill] at moved
      exact Nat.add_right_cancel moved
  | returned root unviewed =>
      have moved := charged_setLive sound.distinct mapped found (fun other _ =>
        congrArg (Dict.contains · other) (context.retire_pendingRelease name)) level
      have notPending : context.pendingRelease.contains name = false :=
        Bool.eq_false_iff.mpr fun pending => sound.ne_of_pending found live pending rfl
      have unheld : ((context.retire name).release buffer.levelKey buffer.footprint).isHeld
          { buffer with live := false } = false := by
        change (false || (context.retire name).pendingRelease.contains buffer.name) = false
        rw [retire_pendingRelease, named, notPending, Bool.false_or]
      rw [Buffer.share_of_chosen held, Buffer.share_of_not_chosen unheld] at moved
      rw [bytesOf_singleton found]
      exact moved
  | @settled target owner views owing owned unviewed =>
      obtain ⟨known, foundOwner, dead, -⟩ := sound.pending target owing
      obtain rfl : owner = known := Option.some.inj (owned.symm.trans foundOwner)
      have different : target ≠ name := sound.ne_of_pending found live owing
      have ownedStill : (context.retire name).find? target = some owner := by
        rw [find?_retire, if_neg different, owned]
      have distinct : (context.retire name).names.Nodup :=
        context.names_retire name ▸ sound.distinct
      have owingStill : (context.retire name).pendingRelease.contains owner.name = true := by
        rw [retire_pendingRelease, name_of_find? owned, owing]
      rw [bytesOf_singleton owned,
        charged_settle distinct (mem_of_find? ownedStill) dead owingStill]
      exact charged_retire_reference sound.distinct found views level
  | kept views held => exact charged_retire_reference sound.distinct found views level

/-- **Freeing keeps the books.** -/
theorem Accounted.deallocation (accounted : Accounted context)
    (found : context.find? name = some buffer) (live : buffer.live = true)
    (freed : Deallocation context name buffer released after) : Accounted after where
  toSound := accounted.toSound.deallocation found live freed
  inUse_le level := by
    have moved := accounted.toSound.charged_deallocation found live freed level
    have before := accounted.inUse_le level
    rw [freed.inUse_eq found]
    omega
  inUse_eq exact level := by
    have moved := accounted.toSound.charged_deallocation found live freed level
    rw [freed.inUse_eq found, accounted.inUse_eq (freed.overflowed_eq ▸ exact)]
    omega
  inUse_lt level := by
    rw [freed.inUse_eq found]
    exact Nat.lt_of_le_of_lt (Nat.sub_le _ _) (accounted.inUse_lt level)
  inUse_le_peak level := by
    rw [freed.inUse_eq found, freed.peak_eq]
    exact (Nat.sub_le _ _).trans (accounted.inUse_le_peak level)

end Preservation

end Context

end TensorLowering
