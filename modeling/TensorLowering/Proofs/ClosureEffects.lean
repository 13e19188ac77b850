import TensorLowering.Proofs.ClosureReuse
import TensorLowering.Proofs.ClosureStructs

/-! # What a closure leaves alone

Making a closure changes lifetimes and aliases of the buffers that are there, and puts the struct of
its arguments under a name that is derived from the name of the closure. A buffer that has this
name already makes way, whatever it is, unless it is a struct with the same value. All other buffers
stay in their scopes (`TensorLowering.Lowering.stands_makeClosure`).
-/

namespace TensorLowering

/-- A buffer apart from its lifetime and its aliases. -/
def Buffer.standing (buffer : Buffer) : Buffer := { buffer with live := false, aliases := [] }

theorem Buffer.standing_dropAlias (buffer : Buffer) (name : String) :
    (buffer.dropAlias name).standing = buffer.standing := rfl

/-- The last entry of a name is the one that is dropped with the name. -/
theorem BufferTable.perm_eraseIn {name : String} {entries : List Buffer} {found : Buffer}
    (present : findIn name entries = some found) :
    entries.Perm (found :: eraseIn name entries) := by
  induction entries with
  | nil => cases present
  | cons buffer rest ih =>
      rw [eraseIn]
      cases later : findIn name rest with
      | some other =>
          obtain rfl : other = found := by simpa [findIn, later] using present
          rw [if_pos Option.isSome_some]
          exact ((ih later).cons buffer).trans (.swap _ _ _)
      | none =>
          obtain ⟨named, rfl⟩ : buffer.name = name ∧ buffer = found := by
            simpa [findIn, later] using present
          rw [if_neg (by simp), if_pos named]

namespace Context

/-- The buffers of a scope apart from their lifetimes and aliases. -/
def standing (context : Context) (scope : Scope) : List Buffer :=
  (context.table scope).entries.map Buffer.standing

/-- The buffers of a context are in the same scopes of another one, in the same order. -/
def Stands (before after : Context) : Prop :=
  ∀ scope, (before.standing scope).Sublist (after.standing scope)

variable {context before after : Context}

theorem standing_of_atRest_eq (same : before.atRest = after.atRest) :
    before.standing = after.standing :=
  funext (map_entries_of_atRest_eq (fun _ => rfl) same)

theorem standing_push (context : Context) (buffer : Buffer) (place scope : Scope) :
    (context.push buffer place).standing scope =
      context.standing scope ++ if scope = place then [buffer.standing] else [] := by
  rw [standing, entries_push, List.map_append]
  split <;> rfl

theorem standing_drop_sublist (context : Context) (name : String) :
    (context.drop name).Stands context :=
  fun scope => (context.entries_drop_sublist name scope).map _

theorem standing_drop_frame (context : Context) (types : Registry) (mangled : Dict String)
    (name : String) :
    ({ context with types, mangled }.drop name).standing = (context.drop name).standing := by
  have sameScope : { context with types, mangled }.isLocal name = context.isLocal name := rfl
  rw [drop, drop, sameScope]
  split <;> rfl

theorem standing_remove {name : String} {old : Buffer}
    (removed : context.remove name = .ok (old, after)) :
    after.standing = (context.drop name).standing := by
  obtain ⟨-, rfl | ⟨target, rfl⟩⟩ := remove_cases removed
  · rfl
  · exact funext (map_entries_modify (·.standing_dropAlias name) _ target)

/-- The buffer that a name denotes is missing where it was dropped. -/
theorem exists_count_drop {name : String} {old : Buffer} (found : context.find? name = some old) :
    ∃ scope, (context.standing scope).count old.standing =
      ((context.drop name).standing scope).count old.standing + 1 := by
  have counts : ∀ {entries : List Buffer}, BufferTable.findIn name entries = some old →
      (entries.map Buffer.standing).count old.standing =
        ((BufferTable.eraseIn name entries).map Buffer.standing).count old.standing + 1 := by
    intro entries present
    rw [((BufferTable.perm_eraseIn present).map _).count_eq, List.map_cons, List.count_cons_self]
  rw [find?] at found
  rw [drop, isLocal, BufferTable.contains]
  cases isLocal : context.locals.find? name with
  | some buffer =>
      rw [isLocal] at found
      rw [if_pos Option.isSome_some]
      exact ⟨.locals, counts (isLocal.trans found)⟩
  | none =>
      rw [isLocal] at found
      rw [if_neg (by simp)]
      exact ⟨.globals, counts found⟩

end Context

namespace Registers

variable {args : String} {value : TypedValue} {start final : Context}

/-- All but the buffer under the name of the struct stand. -/
theorem stands_drop (registers : Registers args value start final) :
    (start.drop args).Stands final := by
  cases registers with
  | kept _ => exact start.standing_drop_sublist args
  | added _ put =>
      intro scope
      rw [Context.eq_push_of_add_ofStruct put, Context.standing_push]
      exact (start.standing_drop_sublist args scope).trans (List.sublist_append_left _ _)
  | replaced removed put =>
      intro scope
      rw [Context.eq_push_of_add_ofStruct put, Context.standing_push,
        Context.standing_remove removed]
      exact List.sublist_append_left _ _

/-- The buffer under the name of the struct stands if it is the struct already. -/
theorem stands_iff (registers : Registers args value start final) :
    start.Stands final ↔ ∀ old, start.find? args = some old → old.kind = .struct value := by
  cases registers with
  | kept present =>
      refine iff_of_true (fun _ => List.Sublist.refl _) fun old found => ?_
      rw [found] at present
      exact Option.some.inj present
  | added new put =>
      refine iff_of_true (fun scope => ?_) fun old found => ?_
      · rw [Context.eq_push_of_add_ofStruct put, Context.standing_push]
        exact List.sublist_append_left _ _
      · rw [Context.isBuffer_eq_false_iff, found] at new
        cases new
  | @replaced size old cleared _ removed put differs =>
      obtain ⟨found, -⟩ := Context.remove_cases removed
      have other : old.kind ≠ .struct value := by
        rw [found] at differs
        exact fun same => differs (congrArg some same)
      refine iff_of_false (fun stands => ?_) fun same => other (same old found)
      obtain ⟨scope, counted⟩ := Context.exists_count_drop found
      have fewer := (stands scope).count_le old.standing
      rw [Context.eq_push_of_add_ofStruct put, Context.standing_push,
        Context.standing_remove removed, counted, List.count_append] at fewer
      -- One buffer is missing, and only the struct can have come in its place.
      have member : old.standing ∈ if scope = .locals then
          [(Buffer.ofStruct args value size).standing] else [] :=
        List.count_pos_iff.mp (by omega)
      split at member
      · exact other (congrArg Buffer.kind (List.mem_singleton.mp member))
      · exact absurd member List.not_mem_nil

end Registers

namespace Lowering

variable {options : ClosureOptions} {block wrapped : Block} {operation : String}
  {start final : Workspace}

/-- **A closure leaves all other buffers alone.** Apart from lifetimes and aliases, all buffers stay
as they are in their scopes, but for the one that has the name of the struct; this one stays exactly
if it is a struct that points to the arguments already. -/
theorem stands_makeClosure (ran : makeClosure options block operation start = .ok wrapped final) :
    let args := (ClosureNames.ofOperation operation start.context).args
    (start.context.drop args).Stands final.context ∧
      ∃ value, (final.context.find? args).map Buffer.kind = some (.struct value) ∧
        (∀ name, name ∈ value.value.pointerTargets ↔
          name ∈ (options.arguments block start.context).map Buffer.name) ∧
        (start.context.Stands final.context ↔
          ∀ old, start.context.find? args = some old → old.kind = .struct value) := by
  intro args
  obtain ⟨run, -⟩ := closureRun_of_makeClosure ran
  obtain ⟨mangled, namedIs, -⟩ := run.named_frame
  obtain ⟨types, value, valueIs, registers⟩ := registerArgs_eq_ok run.registering
  rw [namedIs] at registers
  change Registers args value { start.context with types, mangled } run.registered.context
    at registers
  -- After the struct is registered only lifetimes change, and code is hoisted.
  have rests : Preserves (fun context => run.registered.context.atRest = context.atRest)
      (liveInside options.memory operation ((options.kept block start.context).map Buffer.name)) :=
    preserves_liveInside (fun same before => before.trans same) _ _ _
  have lived := (rests.ok rfl run.living).1
  obtain ⟨⟨definitions, finalIs⟩, -⟩ := hoistClosure_again run.hoisting
  have standing : final.context.standing = run.registered.context.standing := by
    rw [Context.standing_of_atRest_eq lived, finalIs]
    rfl
  have kindArgs := registers.kind_args
  rw [(Context.SameShape.of_atRest_eq lived).kind_eq] at kindArgs
  refine ⟨fun scope => ?_, value, ?_, fun name => ?_, ?_⟩
  · rw [standing, ← start.context.standing_drop_frame types mangled args]
    exact registers.stands_drop scope
  · rw [finalIs]
    exact kindArgs
  · rw [valueIs, mem_pointerTargets_argumentValue, (closureFields_eq_ok run.filling).1]
  · rw [Context.Stands, standing]
    exact registers.stands_iff

/-- A tensor that has the name which the closure of an operation derives for its struct. -/
def derivedNameTensor : Buffer where
  name := "k_closure_args"
  type := ⟨0⟩
  size := 32
  users := ["sink"]

/-- A tensor that an operation works on, and one that it does not. -/
def derivedNameContext : Context where
  types := { kinds := [.float 32 23 8] }
  locals := ⟨[{ name := "x", type := ⟨0⟩, size := 64 }, derivedNameTensor]⟩

/-- A kernel on the first tensor. -/
def derivedNameBlock : Block := .ofFragments [.ofSource "k(${a});" [("a", .name "x")]]

theorem find?_derivedNameContext :
    derivedNameContext.find? "k_closure_args" = some derivedNameTensor := by
  decide

theorem observe_derivedNameBlock :
    observe (makeClosure {} derivedNameBlock "k")
      (fun _ final => decide (derivedNameTensor.standing ∉ final.context.standing .locals ∧
        derivedNameTensor.standing ∉ final.context.standing .globals))
      { context := derivedNameContext } = some true := by
  decide +kernel

theorem stands_makeClosure_derivedName :
    ∃ wrapped final,
      makeClosure {} derivedNameBlock "k" { context := derivedNameContext } = .ok wrapped final ∧
      (derivedNameContext.drop "k_closure_args").Stands final.context ∧
      ¬ derivedNameContext.Stands final.context := by
  obtain ⟨wrapped, final, ran, -⟩ := exists_of_observe observe_derivedNameBlock
  have named : (ClosureNames.ofOperation "k" derivedNameContext).args = "k_closure_args" := by
    decide +kernel
  obtain ⟨others, value, -, -, stands⟩ := stands_makeClosure ran
  rw [named] at others stands
  refine ⟨wrapped, final, ran, others, fun all => ?_⟩
  cases stands.mp all derivedNameTensor find?_derivedNameContext

/-- The closure takes the tensor for the struct of an earlier run and removes it. -/
theorem derivedNameTensor_removed :
    ∃ wrapped final,
      makeClosure {} derivedNameBlock "k" { context := derivedNameContext } = .ok wrapped final ∧
      derivedNameContext.find? "k_closure_args" = some derivedNameTensor ∧
      ∀ scope, derivedNameTensor.standing ∉ final.context.standing scope := by
  obtain ⟨wrapped, final, ran, missing⟩ := exists_of_observe observe_derivedNameBlock
  obtain ⟨notLocal, notGlobal⟩ := of_decide_eq_true missing
  refine ⟨wrapped, final, ran, find?_derivedNameContext, fun scope => ?_⟩
  cases scope with
  | locals => exact notLocal
  | globals => exact notGlobal

end Lowering

end TensorLowering
