import TensorLowering.Proofs.Accounting

/-! # Runs of context operations

A run adds, removes, allocates and frees buffers in any order, starting from a context
without buffers; an operation that fails is part of the run. One step keeps the books, so
every run does, and the peak of a level is the maximum over the states of the run
(`TensorLowering.Ledger.counters_exact`).
-/

namespace TensorLowering

namespace Context

/-! ### Adding and removing buffers -/

/-- Adding a buffer puts it at the end of its scope; the target of a reference has it among
its aliases then. -/
theorem add_cases {context after : Context} {buffer : Buffer} {scope : Scope}
    (added : context.add buffer scope = .ok after) :
    (buffer.target? = none ∧ after = context.push buffer scope) ∨
      ∃ target, buffer.target? = some target ∧ context.isBuffer target = true ∧
        after = (context.modify target (·.addAlias buffer.name)).push buffer scope := by
  unfold add at added
  cases checked : checkIdentifier buffer.name with
  | error error => simp [checked, bind, Except.bind] at added
  | ok _ =>
      by_cases duplicate : (context.table scope).contains buffer.name = true
      · simp [checked, duplicate, bind, Except.bind, throw, throwThe, MonadExceptOf.throw] at added
      · cases views : buffer.target? with
        | none =>
            simp only [checked, duplicate, views, bind, Except.bind, pure, Except.pure,
              Bool.false_eq_true, ↓reduceIte, Except.ok.injEq] at added
            exact .inl ⟨rfl, added.symm⟩
        | some target =>
            by_cases known : context.isBuffer target = true
            · simp only [checked, duplicate, views, known, bind, Except.bind, pure, Except.pure,
                Bool.false_eq_true, ↓reduceIte, Except.ok.injEq] at added
              exact .inr ⟨target, rfl, known, added.symm⟩
            · simp [checked, duplicate, views, known, bind, Except.bind, throw, throwThe,
                MonadExceptOf.throw] at added

/-- Removing a buffer drops its name; the target of a reference loses it as an alias. -/
theorem remove_cases {context after : Context} {name : String} {buffer : Buffer}
    (removed : context.remove name = .ok (buffer, after)) :
    context.find? name = some buffer ∧ (after = context.drop name ∨
      ∃ target, after = (context.drop name).modify target (·.dropAlias name)) := by
  unfold remove lookup at removed
  cases found : context.find? name with
  | none => simp [found, bind, Except.bind] at removed
  | some known =>
      cases views : known.target? with
      | none =>
          simp only [found, views, bind, Except.bind, pure, Except.pure, Except.ok.injEq,
            Prod.mk.injEq] at removed
          exact ⟨congrArg some removed.1, .inl removed.2.symm⟩
      | some target =>
          simp only [found, views, bind, Except.bind, pure, Except.pure, Except.ok.injEq,
            Prod.mk.injEq] at removed
          exact ⟨congrArg some removed.1, .inr ⟨target, removed.2.symm⟩⟩

/-- A change of alias lists does not touch the books. -/
theorem Accounted.modify_aliases {context : Context} (accounted : Accounted context)
    (name : String) {change : Buffer → Buffer}
    (aliasesOnly : ∀ buffer, ∃ aliases, change buffer = { buffer with aliases }) :
    Accounted (context.modify name change) := by
  have keeps : ∀ buffer, (change buffer).name = buffer.name ∧ (change buffer).live = buffer.live ∧
      (change buffer).target? = buffer.target? ∧ ∀ level,
        (change buffer).share level context.isHeld = buffer.share level context.isHeld := by
    intro buffer
    obtain ⟨aliases, same⟩ := aliasesOnly buffer
    rw [same]
    exact ⟨rfl, rfl, rfl, fun _ => rfl⟩
  have sameHeld : (context.modify name change).isHeld = context.isHeld := by
    funext buffer
    rw [isHeld, modify_pendingRelease, isHeld]
  have sameCharge :
      ∀ level, (context.modify name change).charged level = context.charged level := by
    intro level
    rw [charged, charged, sameHeld, Buffer.bytesAt_eq_sum, Buffer.bytesAt_eq_sum,
      buffers_modify accounted.distinct, List.map_map]
    apply Buffer.sum_congr
    intro buffer _
    change (if buffer.name = name then change buffer else buffer).share level context.isHeld = _
    split
    · exact (keeps buffer).2.2.2 level
    · rfl
  refine accounted.of_same ⟨?_, ?_⟩ sameCharge (inUse_modify _ _ · _) (peak_modify _ _ · _)
    (modify_overflowed ..)
  · rw [names_modify context fun buffer => (keeps buffer).1]
    exact accounted.distinct
  · intro other pending
    rw [modify_pendingRelease] at pending
    obtain ⟨buffer, found, dead, root⟩ := accounted.pending other pending
    rw [find?_modify context fun buffer => (keeps buffer).1]
    by_cases same : other = name
    · subst same
      rw [if_pos rfl, found]
      exact ⟨change buffer, rfl, (keeps buffer).2.1.trans dead, (keeps buffer).2.2.1.trans root⟩
    · rw [if_neg same]
      exact ⟨buffer, found, dead, root⟩

theorem isBuffer_modify (context : Context) {name : String} {change : Buffer → Buffer}
    (keepsName : ∀ buffer, (change buffer).name = buffer.name) (other : String) :
    (context.modify name change).isBuffer other = context.isBuffer other := by
  rw [Bool.eq_iff_iff, isBuffer_iff_mem, isBuffer_iff_mem, names_modify context keepsName]

theorem find?_push_locals (context : Context) (buffer : Buffer) :
    (context.push buffer .locals).find? buffer.name = some buffer := by
  rw [find?, push, BufferTable.find?_push, if_pos rfl]

theorem find?_push_of_ne (context : Context) {buffer : Buffer} {other : String}
    (different : buffer.name ≠ other) (scope : Scope) :
    (context.push buffer scope).find? other = context.find? other := by
  cases scope <;> simp [push, find?, BufferTable.find?_push, different]

theorem find?_drop_of_ne (context : Context) {name other : String} (different : other ≠ name) :
    (context.drop name).find? other = context.find? other := by
  rw [drop]
  split <;> simp [find?, BufferTable.find?_erase_of_ne different]

/-- A dead buffer with a new name has no part in the books. -/
theorem Accounted.push {context : Context} (accounted : Accounted context) {buffer : Buffer}
    (dead : buffer.live = false) (fresh : context.isBuffer buffer.name = false) (scope : Scope) :
    Accounted (context.push buffer scope) := by
  have absent : buffer.name ∉ context.names := by
    rw [← isBuffer_iff_mem, fresh]
    exact Bool.false_ne_true
  have notPending :
      ∀ other, context.pendingRelease.contains other = true → buffer.name ≠ other := by
    rintro other pending rfl
    obtain ⟨owner, found, -⟩ := accounted.pending _ pending
    rw [isBuffer_eq_false_iff, found] at fresh
    cases fresh
  have sameHeld : (context.push buffer scope).isHeld = context.isHeld := by
    funext other
    rw [isHeld, push_pendingRelease, isHeld]
  have unheld : context.isHeld buffer = false := by
    rw [isHeld, dead, Bool.false_or, ← Bool.not_eq_true]
    exact fun pending => notPending _ pending rfl
  have sameCharge : ∀ level, (context.push buffer scope).charged level = context.charged level := by
    intro level
    rw [charged, charged, sameHeld, Buffer.bytesAt_eq_sum, Buffer.bytesAt_eq_sum,
      ((context.buffers_push_perm buffer scope).map _).sum_eq, List.map_cons, List.sum_cons,
      Buffer.share_of_not_chosen unheld, Nat.zero_add]
  refine accounted.of_same ⟨?_, ?_⟩ sameCharge (inUse_push _ _ _) (peak_push _ _ _)
    (push_overflowed ..)
  · have spread := (context.buffers_push_perm buffer scope).map Buffer.name
    rw [names_eq_map, spread.nodup_iff, List.map_cons, List.nodup_cons, ← names_eq_map]
    exact ⟨absent, accounted.distinct⟩
  · intro other pending
    rw [push_pendingRelease] at pending
    rw [find?_push_of_ne context (notPending other pending)]
    exact accounted.pending other pending

/-- A buffer without storage can be dropped. -/
theorem Accounted.drop {context : Context} (accounted : Accounted context) {name : String}
    {buffer : Buffer} (found : context.find? name = some buffer)
    (unheld : context.isHeld buffer = false) : Accounted (context.drop name) := by
  have named := name_of_find? found
  have sameHeld : (context.drop name).isHeld = context.isHeld := by
    funext other
    rw [isHeld, drop_pendingRelease, isHeld]
  have sameCharge : ∀ level, (context.drop name).charged level = context.charged level := by
    intro level
    have unheldAll : ∀ other ∈ context.buffers, other.levelKey = level ∧ context.isHeld other →
        other.name ≠ name := by
      intro other member counted same
      rw [eq_of_name_eq accounted.distinct member (mem_of_find? found) (same.trans named.symm),
        unheld] at counted
      exact Bool.false_ne_true counted.2
    rw [charged, charged, sameHeld, Buffer.bytesAt, Buffer.bytesAt,
      buffers_drop accounted.distinct, List.filter_filter]
    congr 2
    apply List.filter_congr
    intro other member
    have apart := unheldAll other member
    grind
  have distinctAfter : (context.drop name).names.Nodup := by
    rw [names_eq_map, buffers_drop accounted.distinct]
    exact (names_eq_map context ▸ accounted.distinct).sublist (List.filter_sublist.map _)
  refine accounted.of_same ⟨distinctAfter, ?_⟩ sameCharge (inUse_drop _ _) (peak_drop _ _)
    (drop_overflowed ..)
  intro other pending
  rw [drop_pendingRelease] at pending
  have different : other ≠ name := by
    rintro rfl
    rw [isHeld, named, pending, Bool.or_true] at unheld
    exact Bool.noConfusion unheld
  rw [find?_drop_of_ne context different]
  exact accounted.pending other pending

end Context

/-! ### Steps and runs -/

namespace Ledger

/-- An operation on the buffers of a context. -/
inductive Step where
  | add (buffer : Buffer) (scope : Scope)
  | remove (name : String)
  | allocate (name operation : String)
  | deallocate (name operation : String)
  deriving DecidableEq

namespace Step

/-- Perform a step: the names of the buffers whose storage a deallocation returned, and the
context afterwards, whether or not the step failed. -/
def perform (context : Context) : Step → Except Error (List String) × Context
  | .add buffer scope =>
      match context.add buffer scope with
      | .ok after => (.ok [], after)
      | .error error => (.error error, context)
  | .remove name =>
      match context.remove name with
      | .ok (_, after) => (.ok [], after)
      | .error error => (.error error, context)
  | .allocate name operation =>
      match context.allocate name operation with
      | .ok after => (.ok [], after)
      | .error error => (.error error, context)
  | .deallocate name operation => context.deallocate name operation

/-- The context after a step. -/
def after (context : Context) (step : Step) : Context := (step.perform context).2

/-- The bytes of a level that a step takes: the footprint of a buffer that it allocates. -/
def taken (context : Context) (level : String) (step : Step) : Nat :=
  match step, (step.perform context).1 with
  | .allocate name _, .ok _ => context.bytesOf [name] level
  | _, _ => 0

/-- The bytes of a level that a step returns: the footprints of the buffers that it releases,
and that of a buffer that it allocates while its release is pending. -/
def returned (context : Context) (level : String) (step : Step) : Nat :=
  match step, (step.perform context).1 with
  | .allocate name _, .ok _ =>
      if context.pendingRelease.contains name then context.bytesOf [name] level else 0
  | .deallocate _ _, .ok released => context.bytesOf released level
  | _, _ => 0

/-- A step moves the counter of a level by exactly the bytes that it takes and returns. -/
def Exact (level : String) (context : Context) (step : Step) : Prop :=
  (step.after context).inUse level + step.returned context level =
    context.inUse level + step.taken context level

/-- What a step must not do: add a live buffer or a name that is taken, or remove a buffer
that holds storage. -/
def Careful (context : Context) : Step → Prop
  | .add buffer _ => buffer.live = false ∧ context.isBuffer buffer.name = false
  | .remove name => context.isLive name = false ∧ context.pendingRelease.contains name = false
  | .allocate _ _ | .deallocate _ _ => True

instance (context : Context) : (step : Step) → Decidable (Careful context step)
  | .add _ _ | .remove _ => inferInstanceAs (Decidable (_ ∧ _))
  | .allocate _ _ | .deallocate _ _ => .isTrue trivial

end Step

/-- Every step of a run has a property in the state where it is taken. -/
def Along (property : Context → Step → Prop) : Context → List Step → Prop
  | _, [] => True
  | context, step :: steps => property context step ∧ Along property (step.after context) steps

instance decidableAlong {property : Context → Step → Prop}
    [∀ context step, Decidable (property context step)] :
    (context : Context) → (steps : List Step) → Decidable (Along property context steps)
  | _, [] => .isTrue trivial
  | context, step :: steps =>
      have : Decidable (Along property (step.after context) steps) :=
        decidableAlong (step.after context) steps
      inferInstanceAs (Decidable (_ ∧ _))

/-- The states of a run, from its start to its end. -/
def states : Context → List Step → List Context
  | context, [] => [context]
  | context, step :: steps => context :: states (step.after context) steps

/-- The state at the end of a run. -/
def final : Context → List Step → Context
  | context, [] => context
  | context, step :: steps => final (step.after context) steps

/-! ### What a step does to the counters -/

/-- What a step can do: fail without a change, or one of the four changes of a context. -/
inductive Performed (context : Context) : Step → Except Error (List String) → Context → Prop
  | failed {step : Step} {error : Error}
      (idle : ∀ name operation, step = .deallocate name operation → context.isLive name = false) :
      Performed context step (.error error) context
  | added {buffer : Buffer} {scope : Scope} {after : Context}
      (added : context.add buffer scope = .ok after) :
      Performed context (.add buffer scope) (.ok []) after
  | removed {name : String} {buffer : Buffer} {after : Context}
      (removed : context.remove name = .ok (buffer, after)) :
      Performed context (.remove name) (.ok []) after
  | allocated {name operation : String} {buffer : Buffer} {after : Context}
      (allocation : context.Allocation name buffer after) :
      Performed context (.allocate name operation) (.ok []) after
  | freed {name operation : String} {buffer : Buffer} {released : List String} {after : Context}
      (found : context.find? name = some buffer) (live : buffer.live = true)
      (freed : context.Deallocation name buffer released after) :
      Performed context (.deallocate name operation) (.ok released) after

theorem performed {context : Context} (sound : context.Sound) (step : Step) :
    Performed context step (step.perform context).1 (step.after context) := by
  cases step with
  | add buffer scope =>
      rw [Step.after, Step.perform]
      split
      · next after added => exact .added added
      · exact .failed fun _ _ same => nomatch same
  | remove name =>
      rw [Step.after, Step.perform]
      split
      · next buffer after removed => exact .removed removed
      · exact .failed fun _ _ same => nomatch same
  | allocate name operation =>
      rw [Step.after, Step.perform]
      split
      · next after allocated =>
          obtain ⟨buffer, allocation⟩ := Context.allocation_of_allocate allocated
          exact .allocated allocation
      · exact .failed fun _ _ same => nomatch same
  | deallocate name operation =>
      rw [Step.after, Step.perform]
      rcases Context.deallocate_cases sound name operation with
        ⟨idle, error, result⟩ | ⟨buffer, released, after, result, found, live, freed⟩
      · rw [result]
        apply Performed.failed
        intro other _ same
        rw [Step.deallocate.injEq] at same
        exact same.1 ▸ idle
      · rw [result]
        exact .freed found live freed

namespace Performed

variable {context after : Context} {step : Step} {result : Except Error (List String)}

/-- A careful step keeps the books. -/
theorem accounted (performed : Performed context step result after)
    (before : context.Accounted) (careful : step.Careful context) : after.Accounted := by
  cases performed with
  | failed idle => exact before
  | @added buffer scope after added =>
      obtain ⟨dead, fresh⟩ := careful
      rcases Context.add_cases added with ⟨-, rfl⟩ | ⟨target, -, -, rfl⟩
      · exact before.push dead fresh scope
      · have linked : (context.modify target (·.addAlias buffer.name)).Accounted :=
          before.modify_aliases target (Buffer.addAlias_aliases buffer.name)
        refine linked.push dead ?_ scope
        rw [← fresh]
        exact Context.isBuffer_modify context (Buffer.name_addAlias buffer.name) buffer.name
  | @removed name buffer after removed =>
      obtain ⟨dead, settled⟩ := careful
      obtain ⟨found, result⟩ := Context.remove_cases removed
      have unheld : context.isHeld buffer = false := by
        rw [Context.isLive, found] at dead
        rw [Context.isHeld, Context.name_of_find? found, settled, Bool.or_false]
        exact dead
      have dropped := before.drop found unheld
      rcases result with rfl | ⟨target, rfl⟩
      · exact dropped
      · exact dropped.modify_aliases target fun other => ⟨_, rfl⟩
  | allocated allocation => exact before.allocation allocation
  | freed found live freed => exact before.deallocation found live freed

/-- A step lifts the peak of a level to what is in use after it, if that is more. -/
theorem peak_eq (performed : Performed context step result after) (before : context.Accounted)
    (level : String) : after.peak level = max (context.peak level) (after.inUse level) := by
  have bounded := before.inUse_le_peak level
  cases performed with
  | failed idle => exact (Nat.max_eq_left bounded).symm
  | added added =>
      rcases Context.add_cases added with ⟨-, rfl⟩ | ⟨target, -, -, rfl⟩
      · rw [Context.peak_push, Context.inUse_push, Nat.max_eq_left bounded]
      · rw [Context.peak_push, Context.inUse_push, Context.peak_modify, Context.inUse_modify,
          Nat.max_eq_left bounded]
  | removed removed =>
      obtain ⟨-, rfl | ⟨target, rfl⟩⟩ := Context.remove_cases removed
      · rw [Context.peak_drop, Context.inUse_drop, Nat.max_eq_left bounded]
      · rw [Context.peak_modify, Context.inUse_modify, Context.peak_drop, Context.inUse_drop,
          Nat.max_eq_left bounded]
  | allocated allocation =>
      rw [allocation.peak_eq]
      split
      · rfl
      · next elsewhere => rw [allocation.inUse_of_ne elsewhere, Nat.max_eq_left bounded]
  | freed found live freed =>
      rw [freed.peak_eq, freed.inUse_eq found]
      omega

/-- Only an allocation can make a counter wrap around. -/
theorem overflowed_cases (performed : Performed context step result after) :
    after.overflowed = context.overflowed ∨
      ∃ name buffer, context.Allocation name buffer after := by
  cases performed with
  | failed idle => exact .inl rfl
  | added added =>
      rcases Context.add_cases added with ⟨-, rfl⟩ | ⟨target, -, -, rfl⟩
      · exact .inl (Context.push_overflowed ..)
      · exact .inl ((Context.push_overflowed ..).trans (Context.modify_overflowed ..))
  | removed removed =>
      obtain ⟨-, rfl | ⟨target, rfl⟩⟩ := Context.remove_cases removed
      · exact .inl (Context.drop_overflowed ..)
      · exact .inl ((Context.modify_overflowed ..).trans (Context.drop_overflowed ..))
  | allocated allocation => exact .inr ⟨_, _, allocation⟩
  | freed found live freed => exact .inl freed.overflowed_eq

theorem exact_start (performed : Performed context step result after)
    (exact : after.overflowed = false) : context.overflowed = false := by
  rcases performed.overflowed_cases with same | ⟨name, buffer, allocation⟩
  · exact same ▸ exact
  · exact allocation.exact_start exact

theorem exact_after (performed : Performed context step result after) (before : context.Accounted)
    (exact : context.overflowed = false)
    (fits : ∀ level, after.charged level < Context.counterLimit) : after.overflowed = false := by
  rcases performed.overflowed_cases with same | ⟨name, buffer, allocation⟩
  · exact same.trans exact
  · exact before.exact_allocation exact allocation fits

end Performed

/-- No addition of a step wraps around, and no subtraction stops short at zero, if no counter has
wrapped around after it. -/
theorem exact_step {context : Context} (accounted : context.Accounted) (step : Step)
    (exact : (step.after context).overflowed = false) (level : String) :
    step.Exact level context := by
  have outcome := performed accounted.toSound step
  have inUse_eq := accounted.inUse_eq (outcome.exact_start exact)
  unfold Step.Exact Step.returned Step.taken
  generalize (step.perform context).1 = result, step.after context = after at outcome exact
  cases outcome with
  | failed idle => cases step <;> rfl
  | added added =>
      rcases Context.add_cases added with ⟨-, rfl⟩ | ⟨target, -, -, rfl⟩
      · rw [Context.inUse_push]
      · rw [Context.inUse_push, Context.inUse_modify]
  | removed removed =>
      obtain ⟨-, rfl | ⟨target, rfl⟩⟩ := Context.remove_cases removed
      · rw [Context.inUse_drop]
      · rw [Context.inUse_modify, Context.inUse_drop]
  | @allocated name operation buffer after allocation =>
      have enough : buffer.share level context.isHeld ≤ context.inUse level := by
        rw [inUse_eq]
        exact Buffer.share_le_bytesAt (Context.mem_of_find? allocation.found) level context.isHeld
      rw [Buffer.share, Context.isHeld, allocation.dead, allocation.named, Bool.false_or] at enough
      simp only [allocation.inUse_eq exact, Context.bytesOf_singleton allocation.found]
      grind
  | freed found live freed =>
      have moved := accounted.toSound.charged_deallocation found live freed level
      simp only [freed.inUse_eq found, inUse_eq]
      omega

/-! ### Runs -/

theorem start_mem_states (context : Context) (steps : List Step) :
    context ∈ states context steps := by
  cases steps <;> exact List.mem_cons_self

/-- What every step of a kind keeps holds in all states of a run of such steps. -/
theorem holds_states {kind : Context → Step → Prop} {invariant : Context → Prop}
    (kept : ∀ context step, invariant context → kind context step →
      invariant (step.after context))
    {context : Context} {steps : List Step} (start : invariant context)
    (along : Along kind context steps) : ∀ state ∈ states context steps, invariant state := by
  induction steps generalizing context with
  | nil =>
      intro state member
      rwa [List.mem_singleton.mp member]
  | cons step steps ih =>
      obtain ⟨now, later⟩ := along
      exact List.forall_mem_cons.mpr ⟨start, ih (kept context step start now) later⟩

/-- A run keeps the books. -/
theorem accounted_run {context : Context} {steps : List Step} (accounted : context.Accounted)
    (careful : Along Step.Careful context steps) : (final context steps).Accounted := by
  induction steps generalizing context with
  | nil => exact accounted
  | cons step steps ih =>
      exact ih ((performed accounted.toSound step).accounted accounted careful.1) careful.2

/-- No counter has wrapped around at the end of a run just if what is charged fits the counters in
all of its states. -/
theorem exact_iff_fits {context : Context} {steps : List Step} (accounted : context.Accounted)
    (careful : Along Step.Careful context steps) :
    (final context steps).overflowed = false ↔ context.overflowed = false ∧
      ∀ state ∈ states context steps, ∀ level, state.charged level < Context.counterLimit := by
  have fitsStart : context.overflowed = false →
      ∀ level, context.charged level < Context.counterLimit := fun exact level =>
    accounted.inUse_eq exact level ▸ accounted.inUse_lt level
  induction steps generalizing context with
  | nil =>
      refine ⟨fun exact => ⟨exact, fun state member => ?_⟩, And.left⟩
      rw [List.mem_singleton.mp member]
      exact fitsStart exact
  | cons step steps ih =>
      obtain ⟨now, later⟩ := careful
      have outcome := performed accounted.toSound step
      have next := outcome.accounted accounted now
      have rest := ih next later fun exact level =>
        next.inUse_eq exact level ▸ next.inUse_lt level
      constructor
      · intro exact
        obtain ⟨exactNext, fits⟩ := rest.mp exact
        have exactNow := outcome.exact_start exactNext
        exact ⟨exactNow, List.forall_mem_cons.mpr ⟨fitsStart exactNow, fits⟩⟩
      · rintro ⟨exactNow, fits⟩
        have fitsLater := (List.forall_mem_cons.mp fits).2
        have exactNext :=
          outcome.exact_after accounted exactNow (fitsLater _ (start_mem_states _ steps))
        exact rest.mpr ⟨exactNext, fitsLater⟩

/-- Each step of a run moves the counters exactly if none has wrapped around at the end. -/
theorem exact_run {context : Context} {steps : List Step} (accounted : context.Accounted)
    (careful : Along Step.Careful context steps)
    (exact : (final context steps).overflowed = false) (level : String) :
    Along (Step.Exact level) context steps := by
  induction steps generalizing context with
  | nil => trivial
  | cons step steps ih =>
      obtain ⟨now, later⟩ := careful
      have next := (performed accounted.toSound step).accounted accounted now
      have exactNext := ((exact_iff_fits next later).mp exact).1
      exact ⟨exact_step accounted step exactNext level, ih next later exact⟩

/-- The peak at the end of a run is the peak at its start or what some state has in use, and
bounds what every state has in use. -/
theorem peak_run {context : Context} {steps : List Step} (accounted : context.Accounted)
    (careful : Along Step.Careful context steps) (level : String) :
    ((final context steps).peak level = context.peak level ∨
      ∃ state ∈ states context steps, state.inUse level = (final context steps).peak level) ∧
      context.peak level ≤ (final context steps).peak level ∧
      ∀ state ∈ states context steps, state.inUse level ≤ (final context steps).peak level := by
  induction steps generalizing context with
  | nil =>
      refine ⟨.inl rfl, Nat.le_refl _, fun state member => ?_⟩
      rw [List.mem_singleton.mp member]
      exact accounted.inUse_le_peak level
  | cons step steps ih =>
      obtain ⟨now, later⟩ := careful
      have outcome := performed accounted.toSound step
      have lifted := outcome.peak_eq accounted level
      obtain ⟨attained, above, bounds⟩ := ih (outcome.accounted accounted now) later
      refine ⟨?_, ?_, ?_⟩
      · rcases attained with same | ⟨state, member, equal⟩
        · -- The rest of the run lifts no peak, so this step did or the start has it.
          rcases Nat.le_total (context.peak level) ((step.after context).inUse level) with
            more | less
          · rw [Nat.max_eq_right more] at lifted
            refine .inr ⟨step.after context, ?_, lifted.symm.trans same.symm⟩
            apply List.mem_cons_of_mem
            exact start_mem_states _ steps
          · exact .inl (same.trans (lifted.trans (Nat.max_eq_left less)))
        · exact .inr ⟨state, List.mem_cons_of_mem _ member, equal⟩
      · exact Nat.le_trans (lifted ▸ Nat.le_max_left _ _) above
      · intro state member
        rcases List.mem_cons.mp member with rfl | member
        · apply Nat.le_trans (accounted.inUse_le_peak level)
          exact Nat.le_trans (lifted ▸ Nat.le_max_left _ _) above
        · exact bounds state member

theorem accounted_initial (types : Registry) : Context.Accounted { types } where
  distinct := List.nodup_nil
  pending _ pending := nomatch pending
  inUse_le _ := Nat.le_refl _
  inUse_eq _ _ := rfl
  inUse_lt _ := Nat.two_pow_pos 64
  inUse_le_peak _ := Nat.le_refl _

/-- **The counters are exact.** Take a run that adds only dead buffers under new names and removes
only buffers without storage. No counter has wrapped around after it just if in none of its states
a level is charged with more bytes than a counter can hold. Then the bytes in use in a level are
those of its buffers that are live or whose release is pending, and no step has returned more bytes
than were in use. The peak is the most that was in use in any state of the run. -/
theorem counters_exact (types : Registry) (steps : List Step)
    (careful : Along Step.Careful { types } steps) (level : String) :
    ((final { types } steps).overflowed = false ↔ ∀ state ∈ states { types } steps, ∀ other,
      state.charged other < Context.counterLimit) ∧
    ((final { types } steps).overflowed = false →
      (final { types } steps).inUse level = (final { types } steps).charged level ∧
      Along (Step.Exact level) { types } steps) ∧
    ((states { types } steps).map (·.inUse level)).max? =
      some ((final { types } steps).peak level) := by
  have start := accounted_initial types
  obtain ⟨attained, -, bounds⟩ := peak_run start careful level
  refine ⟨?_, fun exact => ⟨?_, ?_⟩, ?_⟩
  · rw [exact_iff_fits start careful]
    exact and_iff_right rfl
  · exact (accounted_run start careful).inUse_eq exact level
  · exact exact_run start careful exact level
  · rw [List.max?_eq_some_iff]
    refine ⟨List.mem_map.mpr ?_, fun bytes member => ?_⟩
    · rcases attained with same | attained
      · exact ⟨{ types }, start_mem_states _ steps, same.symm⟩
      · exact attained
    · obtain ⟨state, visited, rfl⟩ := List.mem_map.mp member
      exact bounds state visited

/-- A run with a deferred release that a new allocation settles, an operation that fails, and
a removal. -/
def reallocatingRun : List Step :=
  [.add { name := "b", type := ⟨0⟩, size := 64 } .locals,
    .add { name := "r", type := ⟨0⟩, kind := .reference "b" 0 } .locals,
    .allocate "b" "p", .allocate "r" "p", .deallocate "b" "c", .allocate "b" "q",
    .deallocate "r" "c", .deallocate "r" "d", .remove "r"]

theorem counters_exact_reallocatingRun :
    Along Step.Careful {} reallocatingRun ∧ (final {} reallocatingRun).overflowed = false ∧
      (∀ state ∈ states {} reallocatingRun, ∀ other,
        state.charged other < Context.counterLimit) ∧
      (final {} reallocatingRun).inUse "default" = (final {} reallocatingRun).charged "default" ∧
      Along (Step.Exact "default") {} reallocatingRun ∧
      ((states {} reallocatingRun).map (·.inUse "default")).max? =
        some ((final {} reallocatingRun).peak "default") := by
  have careful : Along Step.Careful {} reallocatingRun := by decide
  have exact : (final {} reallocatingRun).overflowed = false := by decide
  obtain ⟨fits, counted, highest⟩ := counters_exact {} reallocatingRun careful "default"
  exact ⟨careful, exact, fits.mp exact, (counted exact).1, (counted exact).2, highest⟩

example : (states {} reallocatingRun).map (·.inUse "default") =
    [0, 0, 0, 64, 64, 64, 64, 64, 64, 64] := by decide

end Ledger

end TensorLowering
