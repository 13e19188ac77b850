import TensorLowering.Proofs.DocumentRoundTrip
import TensorLowering.Proofs.Invariants
import TensorLowering.Proofs.Ledger
import TensorLowering.Proofs.References

/-! # One buffer for a name in a scope

Adding a buffer refuses a name that its scope has already, and no other operation brings new names,
so in every run from a context without repeated names a name stands for one buffer of a scope, and
references are listed once. Loading a document does not look at repeated names: a run from a loaded
context has the property exactly if no scope of the document repeats a name
(`TensorLowering.Ledger.onePerName_states_iff`).
-/

namespace TensorLowering

namespace Context

/-- No scope lists a name twice. -/
def DistinctNames (context : Context) : Prop := ∀ scope, (context.table scope).names.Nodup

/-- A name stands for one buffer of a scope: no scope lists it twice, a local entry is what its name
denotes, and the references of a block list it once. -/
structure OnePerName (context : Context) : Prop where
  distinct : context.DistinctNames
  denoted : ∀ buffer ∈ context.locals.entries, context.lookup buffer.name = .ok buffer
  listed : ∀ {block query sources names final},
    Lowering.references block query { context, sources } = .ok names final → names.Nodup

/-! ### What follows from distinct names -/

variable {context after : Context}

theorem DistinctNames.nodup_referencesAmong (distinct : context.DistinctNames)
    (query : ReferenceQuery) (touched : List String) :
    (context.referencesAmong query touched).Nodup := by
  rw [referencesAmong, List.map_append, List.nodup_append]
  refine ⟨(distinct .locals).sublist (List.filter_sublist.map _),
    (distinct .globals).sublist (List.filter_sublist.map _), ?_⟩
  rintro name localListed _ globalListed rfl
  obtain ⟨buffer, chosen, named⟩ := List.mem_map.mp localListed
  obtain ⟨other, hidden, rfl⟩ := List.mem_map.mp globalListed
  -- A global buffer is listed only if no local buffer hides it.
  have shown : context.isLocal other.name = false := by
    have reference := (List.mem_filter.mp hidden).2
    simp only [isGlobalReference, Bool.and_eq_true, Bool.not_eq_true_eq_eq_false] at reference
    exact reference.1.2.2
  rw [isLocal, ← Bool.not_eq_true, BufferTable.contains_iff] at shown
  exact shown (named ▸ List.mem_map_of_mem (List.mem_filter.mp chosen).1)

theorem onePerName_iff : context.OnePerName ↔ context.DistinctNames := by
  refine ⟨OnePerName.distinct, fun distinct => ⟨distinct, fun buffer entry => ?_, fun ran => ?_⟩⟩
  · rw [lookup, find?_of_mem_locals (distinct .locals) entry]
  · rw [(Lowering.references_eq_ok ran).1]
    exact distinct.nodup_referencesAmong _ _

/-! ### Operations on buffers -/

theorem not_mem_names_of_add {buffer : Buffer} {scope : Scope}
    (added : context.add buffer scope = .ok after) :
    buffer.name ∉ (context.table scope).names := by
  rw [← BufferTable.contains_iff]
  intro duplicate
  unfold add at added
  cases checked : checkIdentifier buffer.name with
  | error error => simp [checked, bind, Except.bind] at added
  | ok _ =>
      simp [checked, duplicate, bind, Except.bind, throw, throwThe, MonadExceptOf.throw] at added

theorem DistinctNames.of_names_eq (distinct : context.DistinctNames)
    (same : ∀ scope, (after.table scope).names = (context.table scope).names) :
    after.DistinctNames := by
  intro scope
  rw [same scope]
  exact distinct scope

theorem DistinctNames.push (distinct : context.DistinctNames) {buffer : Buffer} {place : Scope}
    (new : buffer.name ∉ (context.table place).names) :
    (context.push buffer place).DistinctNames := by
  intro scope
  rw [BufferTable.names, entries_push, List.map_append]
  split
  · next same =>
      refine List.nodup_append.mpr
        ⟨distinct scope, List.nodup_cons.mpr ⟨List.not_mem_nil, .nil⟩, ?_⟩
      rintro name listed _ here rfl
      rw [List.map_singleton, List.mem_singleton] at here
      exact new (here ▸ same ▸ listed)
  · rw [List.map_nil, List.append_nil]
    exact distinct scope

theorem DistinctNames.add (distinct : context.DistinctNames) {buffer : Buffer} {place : Scope}
    (added : context.add buffer place = .ok after) : after.DistinctNames := by
  have new := not_mem_names_of_add added
  rcases add_cases added with ⟨-, rfl⟩ | ⟨target, -, -, rfl⟩
  · exact distinct.push new
  · have same : ∀ scope, ((context.modify target (·.addAlias buffer.name)).table scope).names =
        (context.table scope).names :=
      map_entries_modify (Buffer.name_addAlias buffer.name) context target
    exact (distinct.of_names_eq same).push (same place ▸ new)

theorem DistinctNames.remove (distinct : context.DistinctNames) {name : String} {old : Buffer}
    (removed : context.remove name = .ok (old, after)) : after.DistinctNames := by
  have dropped : (context.drop name).DistinctNames := fun scope =>
    (distinct scope).sublist ((context.entries_drop_sublist name scope).map _)
  obtain ⟨-, rfl | ⟨target, rfl⟩⟩ := remove_cases removed
  · exact dropped
  · have sameName : ∀ buffer : Buffer, (buffer.dropAlias name).name = buffer.name := fun _ => rfl
    exact dropped.of_names_eq (map_entries_modify sameName _ target)

theorem DistinctNames.of_atRest_eq (distinct : context.DistinctNames)
    (same : after.atRest = context.atRest) : after.DistinctNames :=
  distinct.of_names_eq (map_entries_of_atRest_eq (fun _ => rfl) same)

theorem distinctNames_linkAliases_iff : context.linkAliases.DistinctNames ↔
    context.DistinctNames := by
  have unlinked : ∀ context : Context, context.unlinked.DistinctNames ↔ context.DistinctNames := by
    intro context
    refine forall_congr' fun scope => ?_
    cases scope <;> simp only [unlinked, table, BufferTable.names, List.map_map] <;> rfl
  rw [← unlinked, unlinked_linkAliases, unlinked]

end Context

namespace Ledger

/-- No operation on the buffers of a context repeats a name, whether or not it fails. -/
theorem distinctNames_after {context : Context} (distinct : context.DistinctNames) (step : Step) :
    (step.after context).DistinctNames := by
  cases step with
  | add buffer scope =>
      rw [Step.after, Step.perform]
      split
      · next after added => exact distinct.add added
      · exact distinct
  | remove name =>
      rw [Step.after, Step.perform]
      split
      · next old after removed => exact distinct.remove removed
      · exact distinct
  | allocate name operation =>
      rw [Step.after, Step.perform]
      split
      · next after allocated => exact distinct.of_atRest_eq (Context.atRest_allocate allocated)
      · exact distinct
  | deallocate name operation =>
      exact distinct.of_atRest_eq (context.atRest_deallocate name operation)

theorem distinctNames_states {context : Context} (distinct : context.DistinctNames)
    (steps : List Step) : ∀ state ∈ states context steps, state.DistinctNames := by
  induction steps generalizing context with
  | nil =>
      intro state visited
      rwa [List.mem_singleton.mp visited]
  | cons step steps ih =>
      exact List.forall_mem_cons.mpr ⟨distinct, ih (distinctNames_after distinct step)⟩

/-- **A name stands for one buffer of a scope** in every state of every run that starts without
buffers. A run that starts from a loaded document has the property in every state exactly if no
scope of the document lists a name twice. -/
theorem onePerName_states_iff (types : Registry) (text : String) (context : Context) :
    (∀ steps, ∀ state ∈ states { types } steps, state.OnePerName) ∧
    (Context.ofText text = .ok context →
      ∃ json document, Json.parse? text = some json ∧
        Context.decode Json.maxDepth json = .ok document ∧
        ((∀ steps, ∀ state ∈ states context steps, state.OnePerName) ↔
          ∀ scope, (document.table scope).names.Nodup)) := by
  simp only [Context.onePerName_iff]
  constructor
  · intro steps
    exact distinctNames_states (fun scope => by cases scope <;> exact .nil) steps
  · intro loaded
    unfold Context.ofText Context.load at loaded
    split at loaded
    · next json parsed =>
        split at loaded
        · next document read =>
            obtain ⟨rfl, -⟩ := Context.checked_of_checked loaded
            refine ⟨json, document, parsed, read, ?_⟩
            have enters : document.linkAliases.DistinctNames ↔ document.DistinctNames :=
              Context.distinctNames_linkAliases_iff
            constructor
            · intro always
              exact enters.mp (always [] _ List.mem_cons_self)
            · intro distinct
              exact distinctNames_states (enters.mpr distinct)
        · cases loaded
    · cases loaded

/-- A document with a local buffer that hides a global one. -/
def hiddenNameText : String :=
  "\x7b\"types\": \x7b\"descs\": [\"Void\"]\x7d,
    \"globals\": \x7b\"entries\": [\x7b\"name\": \"x\", \"ty\": 0, \"size\": 64\x7d]\x7d,
    \"locals\": \x7b\"entries\": [\x7b\"name\": \"x\", \"ty\": 0, \"size\": 32\x7d]\x7d\x7d"

/-- The context of that document. -/
def hiddenNameContext : Context where
  types := { kinds := [.void] }
  globals := ⟨[{ name := "x", type := ⟨0⟩, size := 64 }]⟩
  locals := ⟨[{ name := "x", type := ⟨0⟩, size := 32 }]⟩

/-- A document that lists two local buffers of one name. -/
def repeatedNameText : String :=
  "\x7b\"types\": \x7b\"descs\": [\"Void\"]\x7d,
    \"locals\": \x7b\"entries\": [\x7b\"name\": \"x\", \"ty\": 0, \"size\": 64\x7d,
      \x7b\"name\": \"x\", \"ty\": 0, \"size\": 32\x7d]\x7d\x7d"

/-- The context of that document. -/
def repeatedNameContext : Context where
  types := { kinds := [.void] }
  locals := ⟨[{ name := "x", type := ⟨0⟩, size := 64 }, { name := "x", type := ⟨0⟩, size := 32 }]⟩

/-- A kernel on a buffer of that name. -/
def repeatedNameBlock : Block := .ofFragments [.ofSource "k(${a});" [("a", .name "x")]]

set_option maxRecDepth 4000 in
theorem onePerName_states_iff_hiddenName :
    Context.ofText hiddenNameText = .ok hiddenNameContext ∧
      ∀ steps, ∀ state ∈ states hiddenNameContext steps, state.OnePerName := by
  have reads : Json.parse? hiddenNameText = some _ := (Json.parse?_ofList _).trans rfl
  have loaded : Context.ofText hiddenNameText = .ok hiddenNameContext := by
    rw [Context.ofText, reads]
    rfl
  refine ⟨loaded, ?_⟩
  obtain ⟨json, document, parsed, read, onePerName⟩ := (onePerName_states_iff {} _ _).2 loaded
  obtain rfl := Option.some.inj (reads.symm.trans parsed)
  have same : document = hiddenNameContext := (Except.ok.inj read).symm
  rw [onePerName, same]
  intro scope
  cases scope <;> decide

set_option maxRecDepth 4000 in
/-- Loading takes a document that repeats a name: an entry is not what its name denotes, and a
reference is listed twice. -/
theorem repeatedName_loads :
    Context.ofText repeatedNameText = .ok repeatedNameContext ∧
      ¬ repeatedNameContext.locals.names.Nodup ∧
      (∃ buffer ∈ repeatedNameContext.locals.entries,
        repeatedNameContext.find? buffer.name ≠ some buffer) ∧
      ∃ final, Lowering.references repeatedNameBlock {} { context := repeatedNameContext } =
        .ok ["x", "x"] final := by
  have reads : Json.parse? repeatedNameText = some _ := (Json.parse?_ofList _).trans rfl
  have loaded : Context.ofText repeatedNameText = .ok repeatedNameContext := by
    rw [Context.ofText, reads]
    rfl
  have listed : observe (Lowering.references repeatedNameBlock {}) (fun names _ => names)
      { context := repeatedNameContext } = some ["x", "x"] := by
    decide +kernel
  obtain ⟨_, final, ran, rfl⟩ := exists_of_observe listed
  exact ⟨loaded, by decide, by decide, final, ran⟩

end Ledger

end TensorLowering
