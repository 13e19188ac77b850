import Mathlib.Data.List.Nodup
import TensorLowering.Proofs.FutureEvents

/-! # The order of futures

In each operation a future is dispatched or waited for at most once, at a place that the users
of the future tell (`TensorLowering.Operation.Resolves`). So a future with one producer ahead of
its first user is dispatched once and waited for once, in this order and ahead of what its
consumers do (`TensorLowering.Schedule.futures_in_order`).
-/

namespace TensorLowering

/-- A count is one if a condition holds, and zero otherwise. -/
def Once (count : Nat) (condition : Prop) : Prop :=
  (condition → count = 1) ∧ (¬condition → count = 0)

/-- What is done about a future in an operation: where it is dispatched and waited for. -/
structure Operation.Resolves (operation : Operation) (context : Context) (future : Buffer) :
    Prop where
  dispatch_before : Once ((operation.eventsBefore context).count ⟨.dispatch, future⟩)
    (operation.block.Touches context future.name ∧ operation.name ∉ future.users)
  dispatch_after : (operation.eventsAfter context).count ⟨.dispatch, future⟩ = 0
  wait_before : Once ((operation.eventsBefore context).count ⟨.wait, future⟩)
    (operation.block.Touches context future.name ∧ future.users.head? = some operation.name)
  wait_after : Once ((operation.eventsAfter context).count ⟨.wait, future⟩)
    (operation.block.Touches context future.name ∧ future.users = [])

/-! ### One operation -/

namespace FutureEvent

/-- Events are about one future each, so those of a list of futures are counted at one. -/
theorem count_flatMap {futures : List Buffer} (distinct : futures.Nodup)
    {events : Buffer → List FutureEvent}
    (own : ∀ future, ∀ event ∈ events future, event.future = future) (event : FutureEvent) :
    (futures.flatMap events).count event =
      if event.future ∈ futures then (events event.future).count event else 0 := by
  have others : ∀ future, future ≠ event.future → future ∈ futures →
      (events future).count event = 0 := by
    intro future different _
    rw [List.count_eq_zero]
    intro member
    exact different (own future event member).symm
  rw [List.count_flatMap]
  change (futures.map fun future => (events future).count event).sum = _
  rw [List.sum_map_eq_nsmul_single event.future _ others]
  split
  · next member => rw [List.count_eq_one_of_mem distinct member, one_nsmul]
  · next absent => rw [List.count_eq_zero.mpr absent, zero_nsmul]

/-- What happens once to a future that is touched happens once in the operation. -/
theorem once_flatMap {futures : List Buffer} (distinct : futures.Nodup)
    {events : Buffer → List FutureEvent}
    (own : ∀ future, ∀ event ∈ events future, event.future = future) {event : FutureEvent}
    {touched condition : Prop} (listed : event.future ∈ futures ↔ touched)
    (once : Once ((events event.future).count event) condition) :
    Once ((futures.flatMap events).count event) (touched ∧ condition) := by
  rw [count_flatMap distinct own, Once]
  constructor
  · rintro ⟨isTouched, holds⟩
    rw [if_pos (listed.mpr isTouched), once.1 holds]
  · intro fails
    split
    · next member => exact once.2 fun holds => fails ⟨listed.mp member, holds⟩
    · rfl

end FutureEvent

namespace Operation

/-- **An operation resolves every future as its users tell.** -/
theorem resolves (operation : Operation) {context : Context} (distinct : context.names.Nodup)
    {future : Buffer} (fit : context.CanBeReferred future)
    (isFuture : context.types.isFuture future.type = true) :
    operation.Resolves context future := by
  have listed := @Context.mem_futuresOf_iff context distinct operation.block future fit isFuture
  have nodup := context.nodup_futuresOf distinct operation.block
  have ownBefore : ∀ future : Buffer, ∀ event ∈ future.eventsBefore operation.name,
      event.future = future := fun _ _ => Buffer.future_of_mem_eventsBefore
  have ownAfter : ∀ future : Buffer, ∀ event ∈ future.eventsAfter, event.future = future :=
    fun _ _ => Buffer.future_of_mem_eventsAfter
  constructor
  · apply FutureEvent.once_flatMap nodup ownBefore listed
    constructor
    · intro other
      rw [Buffer.eventsBefore_of_not_user other]
      exact List.count_singleton_self
    · intro user
      rw [Buffer.eventsBefore_of_user (not_not.mp user)]
      split <;> rfl
  · rw [eventsAfter, FutureEvent.count_flatMap nodup ownAfter]
    split
    · rw [Buffer.eventsAfter]
      split <;> rfl
    · rfl
  · apply FutureEvent.once_flatMap nodup ownBefore listed
    constructor
    · intro first
      rw [Buffer.eventsBefore_of_user (List.mem_of_mem_head? first), if_pos first]
      exact List.count_singleton_self
    · intro notFirst
      rw [Buffer.eventsBefore, if_neg notFirst, List.append_nil]
      split <;> rfl
  · apply FutureEvent.once_flatMap nodup ownAfter listed
    constructor
    · intro unused
      rw [Buffer.eventsAfter, if_pos unused]
      exact List.count_singleton_self
    · intro used
      rw [Buffer.eventsAfter, if_neg used]
      rfl

variable {operation : Operation} {context : Context} {future : Buffer}

theorem added_mem_trace_iff (event : FutureEvent) :
    .added event ∈ operation.trace context ↔
      event ∈ operation.eventsBefore context ∨ event ∈ operation.eventsAfter context := by
  simp [trace]

theorem added_not_mem_trace {event : FutureEvent}
    (before : (operation.eventsBefore context).count event = 0)
    (after : (operation.eventsAfter context).count event = 0) :
    .added event ∉ operation.trace context := by
  rw [added_mem_trace_iff, not_or]
  exact ⟨List.count_eq_zero.mp before, List.count_eq_zero.mp after⟩

theorem original_mem_trace {name : String} {fragment : Fragment}
    (member : .original name fragment ∈ operation.trace context) : name = operation.name := by
  simp [trace] at member
  exact member.2.symm

/-- An operation that neither makes a future nor is its first user is silent about it. -/
theorem Resolves.silent (resolves : operation.Resolves context future)
    (makesNot : ¬(operation.block.Touches context future.name ∧ operation.name ∉ future.users))
    (used : future.users ≠ []) (notFirst : future.users.head? ≠ some operation.name)
    (role : FutureRole) : .added ⟨role, future⟩ ∉ operation.trace context := by
  cases role with
  | dispatch =>
      exact added_not_mem_trace (resolves.dispatch_before.2 makesNot) resolves.dispatch_after
  | wait =>
      exact added_not_mem_trace (resolves.wait_before.2 fun both => notFirst both.2)
        (resolves.wait_after.2 fun both => used both.2)

/-- The trace of an operation with one event about a future, ahead of its own code. -/
theorem trace_split {event : FutureEvent}
    (once : (operation.eventsBefore context).count event = 1)
    (notAfter : (operation.eventsAfter context).count event = 0) :
    ∃ ahead behind, operation.trace context = ahead ++ .added event :: behind ∧
      .added event ∉ ahead ++ behind ∧ (∀ name fragment, .original name fragment ∉ ahead) := by
  have member : event ∈ operation.eventsBefore context := by
    rw [← List.count_pos_iff, once]
    exact Nat.one_pos
  obtain ⟨first, second, split⟩ := List.append_of_mem member
  rw [split, List.count_append, List.count_cons_self] at once
  have notFirst : event ∉ first := List.count_eq_zero.mp (by omega)
  have notSecond : event ∉ second := List.count_eq_zero.mp (by omega)
  rw [List.count_eq_zero] at notAfter
  refine ⟨first.map .added, second.map .added ++
    operation.block.fragments.map (.original operation.name) ++
      (operation.eventsAfter context).map .added, ?_, ?_, ?_⟩
  · rw [trace, split]
    simp
  · simp [notFirst, notSecond, notAfter]
  · simp

end Operation

/-! ### A schedule -/

namespace Schedule

variable {operations earlier between later : List Operation} {producer first : Operation}
  {context : Context} {future : Buffer}

/-- A future whose only producer comes before its first user. -/
structure ProducedOnce (context : Context) (future : Buffer) (earlier : List Operation)
    (producer : Operation) (between : List Operation) (first : Operation)
    (later : List Operation) : Prop where
  producer_touches : producer.block.Touches context future.name
  producer_not_user : producer.name ∉ future.users
  only_producer : ∀ operation ∈ earlier ++ producer :: (between ++ first :: later),
    operation.block.Touches context future.name → operation.name ∉ future.users →
      operation = producer
  first_user : future.users.head? = some first.name
  first_touches : first.block.Touches context future.name

/-- The other operations have other names than the producer and the first user, and no
operation before the first user has the name of one from it on. -/
theorem names_ne_of_nodup
    (distinct : ((earlier ++ producer :: (between ++ first :: later)).map Operation.name).Nodup) :
    (∀ operation ∈ earlier ++ between ++ later,
      operation.name ≠ producer.name ∧ operation.name ≠ first.name) ∧
    producer.name ≠ first.name ∧
    ∀ consumer ∈ first :: later, ∀ operation ∈ earlier ++ producer :: between,
      consumer.name ≠ operation.name := by
  simp only [List.map_append, List.map_cons, List.nodup_append, List.nodup_cons, List.mem_append,
    List.mem_cons, List.mem_map] at distinct
  grind

section Produced

variable (produced : ProducedOnce context future earlier producer between first later)
include produced

theorem ProducedOnce.users_ne_nil : future.users ≠ [] := by
  intro unused
  have head := produced.first_user
  rw [unused] at head
  cases head

theorem ProducedOnce.name_eq_of_head {operation : Operation}
    (head : future.users.head? = some operation.name) : operation.name = first.name := by
  rw [produced.first_user] at head
  exact (Option.some.inj head).symm

/-- The operations other than the producer and the first user are silent about the future. -/
theorem ProducedOnce.others_silent
    (distinct : ((earlier ++ producer :: (between ++ first :: later)).map Operation.name).Nodup)
    (resolves : ∀ operation : Operation, operation.Resolves context future) :
    ∀ operation ∈ earlier ++ between ++ later, ∀ role,
      .added ⟨role, future⟩ ∉ operation.trace context := by
  intro operation member
  obtain ⟨notProducer, notFirst⟩ := (names_ne_of_nodup distinct).1 operation member
  apply (resolves operation).silent _ produced.users_ne_nil
    (fun head => notFirst (produced.name_eq_of_head head))
  rintro ⟨touches, notUser⟩
  have listed : operation ∈ earlier ++ producer :: (between ++ first :: later) := by
    simp only [List.mem_append, List.mem_cons] at member ⊢
    tauto
  exact notProducer (congrArg _ (produced.only_producer operation listed touches notUser))

end Produced

/-- A future with one producer ahead of its first user is dispatched once and waited for once,
in this order, and no consumer has run before the wait. -/
theorem trace_splits (produced : ProducedOnce context future earlier producer between first later)
    (distinct : ((earlier ++ producer :: (between ++ first :: later)).map Operation.name).Nodup)
    (resolves : ∀ operation : Operation, operation.Resolves context future) :
    ∃ start middle rest,
      (earlier ++ producer :: (between ++ first :: later)).flatMap (·.trace context) =
        start ++ .added ⟨.dispatch, future⟩ :: (middle ++ .added ⟨.wait, future⟩ :: rest) ∧
      (∀ role, .added ⟨role, future⟩ ∉ start ++ middle ++ rest) ∧
      ∀ consumer ∈ first :: later, ∀ fragment,
        .original consumer.name fragment ∉ start ++ middle := by
  obtain ⟨-, producerNe, consumersNe⟩ := names_ne_of_nodup distinct
  have used := produced.users_ne_nil
  have firstIsUser : first.name ∈ future.users := List.mem_of_mem_head? produced.first_user
  have othersSilent := produced.others_silent distinct resolves
  obtain ⟨aheadProducer, behindProducer, producerSplit, dispatchOnce, producerAhead⟩ :=
    producer.trace_split ((resolves producer).dispatch_before.1
      ⟨produced.producer_touches, produced.producer_not_user⟩) (resolves producer).dispatch_after
  obtain ⟨aheadFirst, behindFirst, firstSplit, waitOnce, firstAhead⟩ :=
    first.trace_split ((resolves first).wait_before.1 ⟨produced.first_touches, produced.first_user⟩)
      ((resolves first).wait_after.2 fun both => used both.2)
  have producerWaitsNot : .added ⟨.wait, future⟩ ∉ producer.trace context :=
    Operation.added_not_mem_trace
      ((resolves producer).wait_before.2 fun both => producerNe (produced.name_eq_of_head both.2))
      ((resolves producer).wait_after.2 fun both => used both.2)
  have firstDispatchesNot : .added ⟨.dispatch, future⟩ ∉ first.trace context :=
    Operation.added_not_mem_trace
      ((resolves first).dispatch_before.2 fun both => both.2 firstIsUser)
      (resolves first).dispatch_after
  -- Split the program at the dispatch in the producer and at the wait in the first user.
  refine ⟨earlier.flatMap (·.trace context) ++ aheadProducer,
    behindProducer ++ between.flatMap (·.trace context) ++ aheadFirst,
    behindFirst ++ later.flatMap (·.trace context), ?_, ?_, ?_⟩
  · simp only [List.flatMap_append, List.flatMap_cons, producerSplit, firstSplit,
      List.append_assoc, List.cons_append]
  · intro role
    rw [producerSplit] at producerWaitsNot
    rw [firstSplit] at firstDispatchesNot
    simp only [List.mem_append, List.mem_cons, List.mem_flatMap, not_or, not_exists, not_and] at *
    cases role <;> grind
  · intro consumer listed fragment member
    have namesNe := consumersNe consumer listed
    have fromOperation : ∃ operation ∈ earlier ++ producer :: between,
        .original consumer.name fragment ∈ operation.trace context := by
      simp only [List.mem_append, List.mem_cons, List.mem_flatMap] at member ⊢
      grind
    obtain ⟨operation, before, traced⟩ := fromOperation
    exact namesNe operation before (Operation.original_mem_trace traced)

/-- **Futures in order.** A block is lowered to its own code between the events of the futures
that it touches. Each operation resolves each future as its users tell, and every future that is
touched has a state. A future with one producer ahead of its first user is dispatched once and
waited for once: the dispatch comes first, and the wait is ahead of the code of every operation
from the first user on. -/
theorem futures_in_order {templates : FutureTemplates} {annotate : Bool}
    {operations : List Operation} {context final : Context} {program : Program}
    (distinct : context.names.Nodup) (operationsDistinct : (operations.map Operation.name).Nodup)
    (plain : context.PlainStates)
    (ran : run [.futures templates] annotate operations context = (.ok program, final)) :
    (program.operations.map fun operation => (operation.name, operation.block.fragments)) =
      (operations.map fun operation =>
        (operation.name, (operation.trace context).map (·.fragment templates))) ∧
    ∀ future, context.CanBeReferred future → context.types.isFuture future.type = true →
      (∀ operation ∈ operations, operation.Resolves context future ∧
        (operation.block.Touches context future.name → future.state.isSome = true)) ∧
      ∀ earlier producer between first later,
        operations = earlier ++ producer :: (between ++ first :: later) →
        ProducedOnce context future earlier producer between first later →
        ∃ start middle rest, operations.flatMap (·.trace context) =
            start ++ .added ⟨.dispatch, future⟩ :: (middle ++ .added ⟨.wait, future⟩ :: rest) ∧
          (∀ role, .added ⟨role, future⟩ ∉ start ++ middle ++ rest) ∧
          ∀ consumer ∈ first :: later, ∀ fragment,
            .original consumer.name fragment ∉ start ++ middle := by
  obtain ⟨fragments, states⟩ := fragments_of_run plain ran
  refine ⟨fragments, ?_⟩
  intro future fit isFuture
  have resolves := fun operation : Operation => operation.resolves distinct fit isFuture
  constructor
  · intro operation member
    refine ⟨resolves operation, fun touches => ?_⟩
    exact states operation member future
      ((Context.mem_futuresOf_iff distinct fit isFuture).mpr touches)
  · rintro earlier producer between first later rfl produced
    exact trace_splits produced operationsDistinct resolves

/-- A future with two users, one without users, and the state that they share. -/
def futureContext : Context where
  types := { kinds := [.float 32 23 8, .future ⟨0⟩] }
  locals := ⟨[
    { name := "f", type := ⟨1⟩, size := 64, users := ["use", "reuse"], state := some "dma" },
    { name := "g", type := ⟨1⟩, size := 64, state := some "dma" }]⟩
  globals := ⟨[{ name := "dma", type := ⟨0⟩, size := 4, deploy := false }]⟩

/-- An operation that makes both futures, and two that use the first one. -/
def futureSchedule : List Operation :=
  [⟨"make", .ofFragments [.ofSource "make(${x}, ${y});" [("x", .name "f"), ("y", .name "g")]]⟩,
    ⟨"use", .ofFragments [.ofSource "use(${x});" [("x", .name "f")]]⟩,
    ⟨"reuse", .ofFragments [.ofSource "reuse(${x});" [("x", .name "f")]]⟩]

/-- What a fragment says about a future: its template, the future and the state. -/
def futureNote (fragment : Fragment) : String × Option Binding × Option Binding :=
  (fragment.template.source, fragment.bindings.find? "name", fragment.bindings.find? "state")

theorem futures_in_order_futureSchedule :
    ∃ program final future, futureContext.locals.entries.head? = some future ∧
      run [.futures {}] true futureSchedule futureContext = (.ok program, final) ∧
      (program.operations.map fun operation => operation.block.fragments.map futureNote) =
        [[("dlc_future_dispatch(&${state}, ${name});", some (.name "f"), some (.name "dma")),
            ("dlc_future_dispatch(&${state}, ${name});", some (.name "g"), some (.name "dma")),
            ("make(${x}, ${y});", none, none),
            ("dlc_future_wait(&${state});", some (.name "g"), some (.name "dma"))],
          [("dlc_future_wait(&${state});", some (.name "f"), some (.name "dma")),
            ("use(${x});", none, none)],
          [("reuse(${x});", none, none)]] ∧
      (∀ operation ∈ futureSchedule, operation.Resolves futureContext future) ∧
      ∃ start middle rest, futureSchedule.flatMap (·.trace futureContext) =
          start ++ .added ⟨.dispatch, future⟩ :: (middle ++ .added ⟨.wait, future⟩ :: rest) ∧
        ∀ role, .added ⟨role, future⟩ ∉ start ++ middle ++ rest := by
  have succeeds : (run [.futures {}] true futureSchedule futureContext).1.isOk = true := by
    decide +kernel
  obtain ⟨program, ran⟩ := exists_of_isOk succeeds
  obtain ⟨fragments, ordered⟩ := futures_in_order (by decide) (by decide) (by decide) ran
  have noted := congrArg (List.map fun operation => operation.2.map futureNote) fragments
  rw [List.map_map, List.map_map] at noted
  obtain ⟨resolved, splits⟩ := ordered _ ⟨rfl, .inl List.mem_cons_self⟩ rfl
  have named : ∀ operation ∈ futureSchedule, "f" ∈ operation.block.named futureContext := by
    decide +kernel
  have onlyMake : ∀ operation ∈ futureSchedule, operation.name ∉ ["use", "reuse"] →
      some operation = futureSchedule.head? := by
    decide
  obtain ⟨start, middle, rest, split, silent, -⟩ := splits [] _ [] _ [_] rfl
    { producer_touches := ⟨"f", named _ List.mem_cons_self, .refl⟩
      producer_not_user := by decide
      only_producer := fun operation listed _ other => Option.some.inj (onlyMake _ listed other)
      first_user := rfl
      first_touches := ⟨"f", named _ (List.mem_cons_of_mem _ List.mem_cons_self), .refl⟩ }
  exact ⟨program, _, _, rfl, ran, noted.trans (by decide +kernel),
    fun operation listed => (resolved operation listed).1, start, middle, rest, split, silent⟩

end Schedule

end TensorLowering
