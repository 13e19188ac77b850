import TensorLowering.Proofs.Invariants
import TensorLowering.Proofs.ListedTypes

/-! # Properties that bookkeeping keeps

Most steps of the passes only keep the books: they set buffers live or dead, list types and
definitions, and note users and aliases. A property that none of these changes can break
(`TensorLowering.Context.Frame`) is maintained by every pass that neither adds nor removes
buffers.
-/

namespace TensorLowering

/-- What bookkeeping does not change in a buffer: all but its size, its users, its aliases and
whether it is live. -/
def Buffer.core (buffer : Buffer) : Buffer :=
  { buffer with size := 0, live := false, users := [], aliases := [] }

theorem Buffer.core_addUser (buffer : Buffer) (operation : String) :
    (buffer.addUser operation).core = buffer.core ∧
      buffer.size ≤ (buffer.addUser operation).size := by
  rw [addUser]
  split <;> exact ⟨rfl, Nat.le_refl _⟩

namespace Context

/-- A property of contexts that bookkeeping cannot break. -/
structure Frame (property : Context → Prop) : Prop where
  resting : ∀ {first second : Context}, first.atRest = second.atRest →
    property first → property second
  typed : ∀ {context : Context} {types : Registry}, context.types.kinds <+: types.kinds →
    property context → property { context with types }
  defined : ∀ {context : Context} (definitions : List Definition),
    property context → property { context with definitions }
  modified : ∀ {context : Context} (name : String) {change : Buffer → Buffer},
    (∀ buffer, (change buffer).core = buffer.core ∧ buffer.size ≤ (change buffer).size) →
      property context → property (context.modify name change)

end Context

namespace Lowering

open Context (Frame)

/-! ### Storage -/

section Resting

variable {property : Context → Prop} (resting : ∀ {first second : Context},
  first.atRest = second.atRest → property first → property second)
include resting

theorem preserves_allocate (name operation : String) :
    Preserves property (allocate name operation) := by
  apply preserves_attempt
  intro context answer after before allocated
  cases outcome : context.allocate name operation with
  | error error => simp [outcome, bind, Except.bind] at allocated
  | ok result =>
      simp only [outcome, bind, Except.bind, pure, Except.pure, Except.ok.injEq,
        Prod.mk.injEq] at allocated
      rw [← allocated.2]
      exact resting (Context.atRest_allocate outcome).symm before

theorem preserves_deallocate (name operation : String) :
    Preserves property (deallocate name operation) :=
  preserves_perform fun context before =>
    resting (context.atRest_deallocate name operation).symm before

theorem preserves_allocateInside (templates : LifetimeTemplates) (operation : String)
    (names : List String) : Preserves property (allocateInside templates operation names) := by
  induction names with
  | nil => exact preserves_pure []
  | cons name names ih =>
      apply (preserves_allocate resting name operation).bind
      intro _ _
      apply (preserves_lookup name).bind
      intro buffer _
      apply (preserves_askTypes _).bind
      intro fragment _
      apply (preserves_render fragment).bind
      intro text _
      exact ih.bind fun _ _ => preserves_pure _

omit resting in
theorem preserves_renderReleases (templates : LifetimeTemplates) (owners : List String) :
    Preserves property (renderReleases templates owners) := by
  induction owners with
  | nil => exact preserves_pure []
  | cons owner owners ih =>
      apply (preserves_lookup owner).bind
      intro buffer _
      apply (preserves_askTypes _).bind
      intro fragment _
      apply (preserves_render fragment).bind
      intro text _
      exact ih.bind fun _ _ => preserves_pure _

theorem preserves_deallocateInside (templates : LifetimeTemplates) (operation : String)
    (names : List String) : Preserves property (deallocateInside templates operation names) := by
  induction names with
  | nil => exact preserves_pure []
  | cons name names ih =>
      apply (preserves_deallocate resting name operation).bind
      intro owners _
      apply (preserves_renderReleases templates owners).bind
      intro texts _
      exact ih.bind fun _ _ => preserves_pure _

theorem preserves_liveInside (templates : LifetimeTemplates) (operation : String)
    (names : List String) : Preserves property (liveInside templates operation names) := by
  apply (preserves_ask _).bind
  intro ordered _
  apply (preserves_allocateInside resting templates operation ordered).bind
  intro before _
  apply (preserves_deallocateInside resting templates operation ordered.reverse).bind
  exact fun _ _ => preserves_pure _

end Resting

variable {property : Context → Prop} (frame : Frame property)
include frame

/-! ### Single steps -/

theorem preserves_intern {make : Registry → TypeId × Registry}
    (grows : ∀ registry, registry.kinds <+: (make registry).2.kinds) :
    Preserves property (intern make) :=
  maintains_change fun context before => ⟨frame.typed (grows context.types) before, trivial⟩

theorem preserves_internStruct (name : String) (fields : List (String × TypeId)) :
    Preserves property (internChecked (·.struct name fields)) := by
  apply preserves_attempt
  intro context type after before made
  cases struct : context.types.struct name fields with
  | error error => simp [struct, bind, Except.bind] at made
  | ok answer =>
      obtain ⟨structType, types⟩ := answer
      simp only [struct, bind, Except.bind, pure, Except.pure, Except.ok.injEq,
        Prod.mk.injEq] at made
      rw [← made.2]
      exact frame.typed (Registry.kinds_struct struct) before

theorem preserves_hoist (name code : String) : Preserves property (hoist name code) := by
  have hoists : Preserves property (attempt (·.hoist name code)) := by
    apply preserves_attempt
    intro context isNew after before hoisted
    unfold Context.hoist at hoisted
    split at hoisted
    · split at hoisted
      · cases hoisted; exact before
      · cases hoisted
    · cases hoisted; exact frame.defined _ before
  exact hoists.bind fun _ _ => preserves_pure ()

theorem preserves_modifyBuffer (name : String) {update : Buffer → Buffer}
    (keeps : ∀ buffer, (update buffer).core = buffer.core ∧ buffer.size ≤ (update buffer).size) :
    Preserves property (modifyBuffer name update) := by
  apply (preserves_lookup name).bind
  intro buffer _
  exact maintains_change fun _ before => ⟨frame.modified name keeps before, trivial⟩

/-! ### Lifetimes -/

omit frame in
theorem preserves_lifetimeCode (templates : Option LifetimeTemplates)
    (code : LifetimeTemplates → Registry → Buffer → Except Error Fragment) (name : String) :
    Preserves property (lifetimeCode templates code name) := by
  apply (preserves_lookup name).bind
  intro buffer _
  cases templates with
  | none => exact preserves_pure []
  | some templates => exact (preserves_askTypes _).bind fun _ _ => preserves_pure _

theorem preserves_allocateAll (templates : Option LifetimeTemplates) (operation : String)
    (names : List String) : Preserves property (allocateAll templates operation names) := by
  induction names with
  | nil => exact preserves_pure []
  | cons name names ih =>
      apply ih.bind
      intro later _
      apply (preserves_allocate frame.resting name operation).bind
      intro _ _
      exact (preserves_lifetimeCode templates _ name).bind fun _ _ => preserves_pure _

omit frame in
theorem preserves_releaseCode (templates : Option LifetimeTemplates) (owners : List String) :
    Preserves property (releaseCode templates owners) := by
  induction owners with
  | nil => exact preserves_pure []
  | cons owner owners ih =>
      apply (preserves_lifetimeCode templates _ owner).bind
      intro code _
      exact ih.bind fun _ _ => preserves_pure _

theorem preserves_deallocateAll (templates : Option LifetimeTemplates) (operation : String)
    (names : List String) : Preserves property (deallocateAll templates operation names) := by
  induction names with
  | nil => exact preserves_pure ([], [])
  | cons name names ih =>
      apply (preserves_deallocate frame.resting name operation).bind
      intro owners _
      apply (preserves_releaseCode templates owners).bind
      intro code _
      exact ih.bind fun _ _ => preserves_pure _

theorem preserves_manageLifetimes (templates : Option LifetimeTemplates) (annotate : Bool)
    (block : Block) (operation : String) :
    Preserves property (manageLifetimes templates annotate block operation) := by
  have opens : Preserves property (beginLifetimes templates block operation) := by
    apply (preserves_references block _).bind
    intro names _
    apply (preserves_mapM preserves_lookup names).bind
    intro buffers _
    apply (preserves_ask _).bind
    intro allocated _
    exact (preserves_allocateAll frame templates operation allocated).bind fun _ _ =>
      preserves_pure _
  apply opens.bind
  intro opened _
  have closes : Preserves property (endLifetimes templates annotate operation opened) := by
    apply (preserves_deallocateAll frame templates operation opened.freed).bind
    rintro ⟨owners, code⟩ -
    dsimp only
    split
    · apply (preserves_ask _).bind
      intro levels _
      exact (preserves_ask _).bind fun _ _ => preserves_pure _
    · exact preserves_pure code
  exact closes.bind fun _ _ => preserves_pure _

/-! ### Structs and futures -/

omit frame in
theorem preserves_initializeStructs (template : Template) (block : Block) :
    Preserves property (initializeStructs template block) := by
  have declares : ∀ names, Preserves property (declareStructs template names) := by
    intro names
    induction names with
    | nil => exact preserves_pure []
    | cons name names ih =>
        apply ih.bind
        intro later _
        apply (preserves_lookup name).bind
        intro buffer _
        exact (preserves_askTypes _).bind fun _ _ => preserves_pure _
  apply (preserves_references block _).bind
  intro names _
  exact (declares names).bind fun _ _ => preserves_pure _

theorem preserves_resolveFuture (templates : FutureTemplates) (operation name : String) :
    Preserves property (resolveFuture templates operation name) := by
  apply (preserves_lookup name).bind
  intro buffer _
  apply (preserves_askTypes _).bind
  intro isFuture _
  apply maintains_ite
  · exact fun _ => preserves_pure _
  · intro _
    cases buffer.state with
    | none => exact maintains_throw _
    | some state =>
        apply maintains_ite
        · exact fun _ => preserves_pure _
        · intro _
          apply (preserves_modifyBuffer frame state (·.core_addUser operation)).bind
          exact fun _ _ => preserves_pure _

theorem preserves_resolveFutures (templates : FutureTemplates) (block : Block)
    (operation : String) : Preserves property (resolveFutures templates block operation) := by
  apply (preserves_references block _).bind
  intro names _
  apply (preserves_mapM (preserves_resolveFuture frame templates operation) names).bind
  exact fun _ _ => preserves_pure _

/-! ### The code of closures -/

theorem preserves_closureFields (void : TypeId) (buffers : List Buffer) :
    Preserves property (closureFields void buffers) := by
  induction buffers with
  | nil => exact preserves_pure []
  | cons buffer buffers ih =>
      apply (preserves_intern frame fun registry => registry.kinds_intern _).bind
      intro type _
      exact ih.bind fun _ _ => preserves_pure _

theorem preserves_hoistClosure (templates : ClosureTemplates) (names : ClosureNames)
    (declarations body : List String) :
    Preserves property (hoistClosure templates names declarations body) := by
  apply (preserves_render _).bind
  intro structText _
  apply (preserves_render _).bind
  intro functionText _
  apply (preserves_hoist frame _ _).bind
  exact fun _ _ => preserves_hoist frame _ _

end Lowering

end TensorLowering
