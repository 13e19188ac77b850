import TensorLowering.Proofs.References
import TensorLowering.Proofs.ScheduleSteps

/-! # The events of futures

An operation dispatches the futures that it touches and does not use, the first user of a
future waits for it, and a future without users is waited for by the operation that dispatches
it. These events are a function of the context that a schedule starts in
(`TensorLowering.Schedule.fragments_of_run`), because the pass changes the users of state
buffers only, and a state buffer is no future.
-/

namespace TensorLowering

/-! ### Events -/

/-- What can be done about a future. -/
inductive FutureRole
  | dispatch
  | wait
  deriving DecidableEq

/-- Code about a future that is added to a block. -/
structure FutureEvent where
  role : FutureRole
  future : Buffer
  deriving DecidableEq

/-- The template for a role. -/
def FutureTemplates.template (templates : FutureTemplates) : FutureRole → Template
  | .dispatch => templates.dispatch
  | .wait => templates.resolve

/-- The code of an event has the template for its role, and names the future and its state. -/
def FutureEvent.code (templates : FutureTemplates) (event : FutureEvent) : Fragment where
  template := templates.template event.role
  bindings := .ofList
    [("name", .name event.future.name), ("state", .name (event.future.state.getD ""))]

namespace Buffer

/-- What an operation that touches a future does about it ahead of its own code. -/
def eventsBefore (future : Buffer) (operation : String) : List FutureEvent :=
  (if operation ∈ future.users then [] else [⟨.dispatch, future⟩]) ++
    (if future.users.head? = some operation then [⟨.wait, future⟩] else [])

/-- What an operation that touches a future does about it after its own code. -/
def eventsAfter (future : Buffer) : List FutureEvent :=
  if future.users = [] then [⟨.wait, future⟩] else []

theorem eventsBefore_of_user {future : Buffer} {operation : String}
    (user : operation ∈ future.users) :
    future.eventsBefore operation =
      if future.users.head? = some operation then [⟨.wait, future⟩] else [] := by
  rw [eventsBefore, if_pos user, List.nil_append]

/-- An operation that is no user is not the first one either. -/
theorem eventsBefore_of_not_user {future : Buffer} {operation : String}
    (other : operation ∉ future.users) : future.eventsBefore operation = [⟨.dispatch, future⟩] := by
  have notFirst : future.users.head? ≠ some operation :=
    fun first => other (List.mem_of_mem_head? first)
  rw [eventsBefore, if_neg other, if_neg notFirst, List.append_nil]

theorem eventsAfter_of_user {future : Buffer} {operation : String}
    (user : operation ∈ future.users) : future.eventsAfter = [] :=
  if_neg (List.ne_nil_of_mem user)

theorem future_of_mem_eventsBefore {future : Buffer} {operation : String} {event : FutureEvent}
    (member : event ∈ future.eventsBefore operation) : event.future = future := by
  rw [eventsBefore, List.mem_append] at member
  rcases member with member | member
  · split at member
    · cases member
    · rw [List.mem_singleton.mp member]
  · split at member
    · rw [List.mem_singleton.mp member]
    · cases member

theorem future_of_mem_eventsAfter {future : Buffer} {event : FutureEvent}
    (member : event ∈ future.eventsAfter) : event.future = future := by
  rw [eventsAfter] at member
  split at member
  · rw [List.mem_singleton.mp member]
  · cases member

end Buffer

namespace Context

/-- The future that a name denotes. -/
def future? (context : Context) (name : String) : Option Buffer :=
  (context.find? name).filter fun buffer => context.types.isFuture buffer.type

theorem future?_eq_some_iff {context : Context} {name : String} {buffer : Buffer} :
    context.future? name = some buffer ↔
      context.find? name = some buffer ∧ context.types.isFuture buffer.type = true :=
  Option.filter_eq_some_iff

/-- The state of a future is no future. -/
def PlainStates (context : Context) : Prop :=
  ∀ future ∈ context.buffers, context.types.isFuture future.type = true →
    ∀ state ∈ context.buffers, context.types.isFuture state.type = true →
      future.state ≠ some state.name

instance (context : Context) : Decidable context.PlainStates := by
  unfold PlainStates
  infer_instance

/-- The futures among the references of a block. -/
def futuresOf (context : Context) (block : Block) : List Buffer :=
  (block.references context .everywhere).filterMap context.future?

end Context

namespace Operation

/-- The events ahead of the code of an operation. -/
def eventsBefore (operation : Operation) (context : Context) : List FutureEvent :=
  (context.futuresOf operation.block).flatMap (·.eventsBefore operation.name)

/-- The events after the code of an operation. -/
def eventsAfter (operation : Operation) (context : Context) : List FutureEvent :=
  (context.futuresOf operation.block).flatMap Buffer.eventsAfter

end Operation

/-- A fragment of a lowered schedule: added code, or code of an operation. -/
inductive TraceItem
  | added (event : FutureEvent)
  | original (operation : String) (fragment : Fragment)
  deriving DecidableEq

/-- The code of an item. -/
def TraceItem.fragment (templates : FutureTemplates) : TraceItem → Fragment
  | .added event => event.code templates
  | .original _ fragment => fragment

/-- The code of a lowered operation. -/
def Operation.trace (context : Context) (operation : Operation) : List TraceItem :=
  (operation.eventsBefore context).map .added ++
    operation.block.fragments.map (.original operation.name) ++
    (operation.eventsAfter context).map .added

/-! ### Lowering keeps the futures -/

/-- What the pass keeps of a context: the shapes, the types and the futures. -/
structure Context.KeepsFutures (origin current : Context) : Prop where
  shape : SameShape current origin
  types : current.types = origin.types
  futures : current.future? = origin.future?

namespace Context

theorem sameShape_modify (context : Context) (name : String) {change : Buffer → Buffer}
    (keeps : ∀ buffer, (change buffer).shape = buffer.shape) :
    SameShape (context.modify name change) context := by
  unfold modify
  split
  · exact ⟨BufferTable.map_modifyIn keeps name _, rfl⟩
  · exact ⟨rfl, BufferTable.map_modifyIn keeps name _⟩

theorem types_modify (context : Context) (name : String) (change : Buffer → Buffer) :
    (context.modify name change).types = context.types := by
  unfold modify
  split <;> rfl

theorem future?_modify {context : Context} {name : String} {change : Buffer → Buffer}
    (keepsName : ∀ buffer, (change buffer).name = buffer.name)
    (keepsType : ∀ buffer, (change buffer).type = buffer.type)
    (plain : context.future? name = none) :
    (context.modify name change).future? = context.future? := by
  funext other
  rw [future?, types_modify, context.find?_modify keepsName]
  split
  · next same =>
      rw [same, plain]
      unfold future? at plain
      cases found : context.find? name with
      | none => rfl
      | some buffer =>
          rw [found, Option.filter_some] at plain
          rw [Option.map_some, Option.filter_some, keepsType]
          split at plain
          · cases plain
          · next isPlain => rw [if_neg isPlain]
  · rfl

theorem KeepsFutures.refl (context : Context) : KeepsFutures context context :=
  ⟨⟨rfl, rfl⟩, rfl, rfl⟩

/-- A new user of a state buffer is no news about futures. -/
theorem KeepsFutures.addUser {origin current : Context} (kept : KeepsFutures origin current)
    {state : String} (plain : origin.future? state = none) (operation : String) :
    KeepsFutures origin (current.modify state (·.addUser operation)) := by
  have keepsName : ∀ buffer : Buffer, (buffer.addUser operation).name = buffer.name := by
    intro buffer
    unfold Buffer.addUser
    split <;> rfl
  have keepsType : ∀ buffer : Buffer, (buffer.addUser operation).type = buffer.type := by
    intro buffer
    unfold Buffer.addUser
    split <;> rfl
  have keepsShape : ∀ buffer : Buffer, (buffer.addUser operation).shape = buffer.shape := by
    intro buffer
    unfold Buffer.addUser
    split <;> rfl
  have sameShape := current.sameShape_modify state keepsShape
  refine ⟨⟨?_, ?_⟩, ?_, ?_⟩
  · exact sameShape.locals.trans kept.shape.locals
  · exact sameShape.globals.trans kept.shape.globals
  · rw [types_modify, kept.types]
  · rw [future?_modify keepsName keepsType (kept.futures ▸ plain), kept.futures]

theorem PlainStates.future?_eq_none {context : Context} (plain : context.PlainStates)
    {name state : String} {future : Buffer} (found : context.future? name = some future)
    (named : future.state = some state) : context.future? state = none := by
  rw [future?_eq_some_iff] at found
  cases stateFound : context.future? state with
  | none => rfl
  | some buffer =>
      rw [future?_eq_some_iff] at stateFound
      refine absurd ?_ (plain future (mem_of_find? found.1) found.2 buffer
        (mem_of_find? stateFound.1) stateFound.2)
      rw [named, name_of_find? stateFound.1]

theorem mem_futuresOf_iff {context : Context} (distinct : context.names.Nodup) {block : Block}
    {future : Buffer} (fit : context.CanBeReferred future)
    (isFuture : context.types.isFuture future.type = true) :
    future ∈ context.futuresOf block ↔ block.Touches context future.name := by
  have found : context.find? future.name = some future :=
    find?_eq_some_of_mem distinct fit.mem_buffers
  rw [← Block.mem_references_iff distinct fit, futuresOf, List.mem_filterMap]
  constructor
  · rintro ⟨name, referred, denoted⟩
    rwa [name_of_find? (future?_eq_some_iff.mp denoted).1]
  · intro referred
    exact ⟨future.name, referred, future?_eq_some_iff.mpr ⟨found, isFuture⟩⟩

theorem nodup_futuresOf {context : Context} (distinct : context.names.Nodup) (block : Block) :
    (context.futuresOf block).Nodup := by
  refine List.Pairwise.filterMap _ ?_ (Block.nodup_references distinct block .everywhere)
  intro first second different buffer found other otherFound same
  apply different
  rw [← name_of_find? (future?_eq_some_iff.mp found).1, same,
    name_of_find? (future?_eq_some_iff.mp otherFound).1]

end Context

namespace Lowering

variable {templates : FutureTemplates} {operation : String} {origin : Context}
  {workspace final : Workspace}

theorem modifyBuffer_eq_ok {name : String} {update : Buffer → Buffer}
    (ran : modifyBuffer name update workspace = .ok () final) :
    final.context = workspace.context.modify name update := by
  obtain ⟨buffer, middle, looking, changing⟩ := bind_eq_ok ran
  obtain ⟨-, rfl⟩ := lookup_eq_ok looking
  cases changing
  rfl

/-- The code about a name is that of the events of the future it denotes, if any, and such a
future has a state. -/
theorem resolveFuture_eq_ok {name : String} {code : List Fragment × List Fragment}
    (plain : origin.PlainStates) (kept : origin.KeepsFutures workspace.context)
    (ran : resolveFuture templates operation name workspace = .ok code final) :
    origin.KeepsFutures final.context ∧
    match origin.future? name with
    | none => code = ([], [])
    | some future => future.state.isSome = true ∧
        code = ((future.eventsBefore operation).map (·.code templates),
          future.eventsAfter.map (·.code templates)) := by
  obtain ⟨buffer, looked, looking, rest⟩ := bind_eq_ok ran
  obtain ⟨found, rfl⟩ := lookup_eq_ok looking
  obtain ⟨isFuture, middle, asking, rest⟩ := bind_eq_ok rest
  obtain ⟨asked, rfl⟩ := ask_eq_ok asking
  cases asked
  rw [← kept.futures, Context.future?, found, Option.filter_some]
  split at rest
  · next notFuture =>
      obtain ⟨rfl, rfl⟩ := pure_eq_ok rest
      rw [Bool.not_eq_true'] at notFuture
      rw [notFuture]
      exact ⟨kept, rfl⟩
  · next future =>
      rw [Bool.not_eq_true', Bool.not_eq_false] at future
      rw [if_pos future]
      have known : origin.future? name = some buffer := by
        rw [← kept.futures]
        exact Context.future?_eq_some_iff.mpr ⟨found, future⟩
      cases named : buffer.state with
      | none => rw [named] at rest; cases rest
      | some state =>
          rw [named] at rest
          dsimp only at rest
          have codeOf : ∀ role, FutureEvent.code templates ⟨role, buffer⟩ =
              futureCode (templates.template role) name state := by
            intro role
            rw [FutureEvent.code, named, Context.name_of_find? found]
            rfl
          split at rest
          · next user =>
              obtain ⟨rfl, rfl⟩ := pure_eq_ok rest
              have listed : operation ∈ buffer.users := List.contains_iff_mem.mp user
              refine ⟨kept, named ▸ rfl, ?_⟩
              rw [Buffer.eventsBefore_of_user listed, Buffer.eventsAfter_of_user listed]
              split
              · rw [List.map_singleton, codeOf]
                rfl
              · rfl
          · next other =>
              obtain ⟨_, middle, noting, rest⟩ := bind_eq_ok rest
              obtain ⟨rfl, rfl⟩ := pure_eq_ok rest
              have unlisted : operation ∉ buffer.users :=
                fun listed => other (List.contains_iff_mem.mpr listed)
              rw [modifyBuffer_eq_ok noting]
              refine ⟨kept.addUser (plain.future?_eq_none known named) operation, named ▸ rfl, ?_⟩
              rw [Buffer.eventsBefore_of_not_user unlisted, Buffer.eventsAfter]
              simp only [List.isEmpty_iff]
              split
              · rw [List.map_singleton, List.map_singleton, codeOf, codeOf]
                rfl
              · rw [List.map_singleton, codeOf]
                rfl

/-- The code about names is that of the events of the futures among them. -/
theorem mapM_resolveFuture_eq_ok {names : List String}
    {code : List (List Fragment × List Fragment)} (plain : origin.PlainStates)
    (kept : origin.KeepsFutures workspace.context)
    (ran : names.mapM (resolveFuture templates operation) workspace = .ok code final) :
    origin.KeepsFutures final.context ∧
    (∀ future ∈ names.filterMap origin.future?, future.state.isSome = true) ∧
    code.flatMap Prod.fst = ((names.filterMap origin.future?).flatMap
      (·.eventsBefore operation)).map (·.code templates) ∧
    code.flatMap Prod.snd = ((names.filterMap origin.future?).flatMap
      Buffer.eventsAfter).map (·.code templates) := by
  induction names generalizing workspace code with
  | nil =>
      obtain ⟨rfl, rfl⟩ := pure_eq_ok ran
      exact ⟨kept, List.forall_mem_nil _, rfl, rfl⟩
  | cons name names ih =>
      obtain ⟨first, later, middle, resolving, laterRan, rfl⟩ := mapM_cons_eq_ok ran
      obtain ⟨keptMiddle, resolved⟩ := resolveFuture_eq_ok plain kept resolving
      obtain ⟨keptFinal, states, before, after⟩ := ih keptMiddle laterRan
      refine ⟨keptFinal, ?_⟩
      rw [List.flatMap_cons, List.flatMap_cons, before, after]
      cases denoted : origin.future? name with
      | none =>
          rw [denoted] at resolved
          subst resolved
          rw [List.filterMap_cons_none denoted]
          exact ⟨states, rfl, rfl⟩
      | some future =>
          rw [denoted] at resolved
          obtain ⟨state, rfl⟩ := resolved
          rw [List.filterMap_cons_some denoted]
          simp only [List.flatMap_cons, List.map_append]
          exact ⟨List.forall_mem_cons.mpr ⟨state, states⟩, trivial, trivial⟩

theorem resolveFutures_eq_ok {block resolved : Block} (plain : origin.PlainStates)
    (kept : origin.KeepsFutures workspace.context)
    (ran : resolveFutures templates block operation workspace = .ok resolved final) :
    origin.KeepsFutures final.context ∧
    (∀ future ∈ origin.futuresOf block, future.state.isSome = true) ∧
    resolved.fragments =
      ((Operation.mk operation block).trace origin).map (·.fragment templates) := by
  obtain ⟨names, middle, listing, ran⟩ := bind_eq_ok ran
  obtain ⟨listed, same⟩ := references_eq_ok listing
  rw [kept.shape.references_eq] at listed
  rw [← same] at kept
  obtain ⟨code, last, resolving, ran⟩ := bind_eq_ok ran
  obtain ⟨rfl, rfl⟩ := pure_eq_ok ran
  obtain ⟨keptFinal, states, before, after⟩ := mapM_resolveFuture_eq_ok plain kept resolving
  rw [listed] at states before after
  refine ⟨keptFinal, states, ?_⟩
  have originals : (block.fragments.map (TraceItem.original operation)).map
      (·.fragment templates) = block.fragments := by
    rw [List.map_map]
    exact List.map_id _
  have addedCode : ∀ events : List FutureEvent,
      (events.map TraceItem.added).map (·.fragment templates) =
        events.map (·.code templates) := by
    intro events
    rw [List.map_map]
    rfl
  rw [Operation.trace, List.map_append, List.map_append, originals, addedCode, addedCode]
  change code.flatMap Prod.fst ++ block.fragments ++ code.flatMap Prod.snd = _
  rw [before, after]
  rfl

end Lowering

namespace Schedule

variable {templates : FutureTemplates} {annotate : Bool} {origin context : Context}

theorem fragments_of_mapM {operations : List Operation} {lowered : List LoweredOperation}
    {workspace final : Workspace} (plain : origin.PlainStates)
    (kept : origin.KeepsFutures workspace.context)
    (ran : operations.mapM (lowerOperation [.futures templates] annotate) workspace =
      .ok lowered final) :
    (lowered.map fun operation => (operation.name, operation.block.fragments)) =
      (operations.map fun operation =>
        (operation.name, (operation.trace origin).map (·.fragment templates))) ∧
    ∀ operation ∈ operations, ∀ future ∈ origin.futuresOf operation.block,
      future.state.isSome = true := by
  induction operations generalizing workspace lowered with
  | nil =>
      obtain ⟨rfl, rfl⟩ := pure_eq_ok ran
      exact ⟨rfl, List.forall_mem_nil _⟩
  | cons operation operations ih =>
      obtain ⟨first, later, between, lowering, laterRan, rfl⟩ := mapM_cons_eq_ok ran
      obtain ⟨middle, passing, rendering, named⟩ := lowerOperation_eq_ok lowering
      obtain ⟨keptMiddle, states, fragments⟩ :=
        Lowering.resolveFutures_eq_ok plain kept (Pipeline.runFrom_singleton_eq_ok passing)
      rw [← Lowering.renderBlock_eq_ok rendering] at keptMiddle
      obtain ⟨laterFragments, laterStates⟩ := ih keptMiddle laterRan
      refine ⟨?_, List.forall_mem_cons.mpr ⟨states, laterStates⟩⟩
      rw [List.map_cons, List.map_cons, laterFragments, named, fragments]

/-- **The code that a run adds for futures is told by the context at its start.** -/
theorem fragments_of_run {operations : List Operation} {final : Context} {program : Program}
    (plain : context.PlainStates)
    (ran : run [.futures templates] annotate operations context = (.ok program, final)) :
    (program.operations.map fun operation => (operation.name, operation.block.fragments)) =
      (operations.map fun operation =>
        (operation.name, (operation.trace context).map (·.fragment templates))) ∧
    ∀ operation ∈ operations, ∀ future ∈ context.futuresOf operation.block,
      future.state.isSome = true := by
  obtain ⟨workspace, lowering, -⟩ := lowered_of_run ran
  exact fragments_of_mapM plain (.refl context) lowering

end Schedule

end TensorLowering
