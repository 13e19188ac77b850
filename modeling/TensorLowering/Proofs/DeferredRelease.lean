import TensorLowering.Proofs.Dictionaries
import TensorLowering.Proofs.Views

/-! # Deferred releases

A release is deferred while a live reference views the storage. It is settled when a reference
that targets the owner directly is the last to die. If the last live view reaches the owner
only through other references, the release is never looked at again: it is stranded
(`TensorLowering.Ledger.Step.Strands`). This is the only way in which a run can come to a
state where a pending release has no live view
(`TensorLowering.Ledger.pendingRelease_viewed_iff`).
-/

namespace TensorLowering

namespace Context

open Relation

/-- A live reference views a name. -/
def Viewed (context : Context) (owner : String) : Prop :=
  ∃ view, context.isLive view = true ∧ context.Views view owner

/-- Every pending release belongs to a dead buffer that has a live alias. -/
def PendingViewed (context : Context) : Prop :=
  ∀ name, context.pendingRelease.contains name = true →
    (∃ buffer, context.find? name = some buffer ∧ buffer.live = false) ∧
      context.hasLiveAliases name = .ok true

instance (context : Context) : Decidable context.PendingViewed :=
  decidable_of_iff (∀ name ∈ context.pendingRelease.keys,
      (context.find? name).any (!·.live) = true ∧ context.hasLiveAliases name = .ok true) (by
    simp only [PendingViewed, Dict.contains_iff_mem_keys, Option.any_eq_true, Bool.not_eq_true'])

theorem not_views_of_root {context : Context} {name : String} (root : context.targetOf name = none)
    (owner : String) : ¬ context.Views name owner := by
  intro views
  obtain ⟨target, first, -⟩ := TransGen.head'_iff.mp views
  exact nomatch root.symm.trans first

/-- What a reference views is its target, or what that views. -/
theorem views_iff {context : Context} {name target : String}
    (targets : context.targetOf name = some target) (owner : String) :
    context.Views name owner ↔ owner = target ∨ context.Views target owner := by
  constructor
  · intro views
    obtain ⟨first, step, path⟩ := TransGen.head'_iff.mp views
    obtain rfl : target = first := Option.some.inj (targets.symm.trans step)
    rcases ReflTransGen.cases_head path with same | ⟨next, step, path⟩
    · exact .inl same.symm
    · exact .inr (TransGen.head'_iff.mpr ⟨next, step, path⟩)
  · rintro (rfl | views)
    · exact TransGen.single targets
    · exact TransGen.head targets views

theorem views_congr {first second : Context} (same : first.atRest = second.atRest) :
    first.Views = second.Views := by
  rw [Views, targetOf_congr same, Views]

theorem pendingViewed_iff {context : Context} (sound : Sound context)
    (mirrored : Mirrored context) :
    PendingViewed context ↔
      ∀ owner, context.pendingRelease.contains owner = true → context.Viewed owner := by
  apply forall_congr'
  intro owner
  apply forall_congr'
  intro pending
  obtain ⟨buffer, found, dead, -⟩ := sound.pending owner pending
  rw [mirrored.hasLiveAliases_iff found]
  exact ⟨And.right, fun viewed => ⟨⟨buffer, found, dead⟩, viewed⟩⟩

section Freeing

variable {context after : Context} {name : String} {buffer : Buffer} {released : List String}

/-- A live view other than the freed buffer goes on holding what it views. -/
theorem Deallocation.viewed_of_other (freed : Deallocation context name buffer released after)
    {owner view : String} (different : view ≠ name) (live : context.isLive view = true)
    (views : context.Views view owner) : after.Viewed owner := by
  refine ⟨view, ?_, views_congr freed.atRest_eq ▸ views⟩
  rw [freed.isLive_eq, decide_eq_true different, Bool.true_and, live]

/-- Freeing a buffer that is no reference takes no view away. -/
theorem Deallocation.viewed_of_root (freed : Deallocation context name buffer released after)
    (found : context.find? name = some buffer) (root : buffer.target? = none) {owner : String}
    (viewed : context.Viewed owner) : after.Viewed owner := by
  obtain ⟨view, live, views⟩ := viewed
  refine freed.viewed_of_other ?_ live views
  rintro rfl
  exact not_views_of_root ((targetOf_eq found).trans root) owner views

theorem Sound.not_views_of_pending (sound : Sound context) {target : String}
    (pending : context.pendingRelease.contains target = true) (owner : String) :
    ¬ context.Views target owner := by
  obtain ⟨known, found, -, root⟩ := sound.pending target pending
  exact not_views_of_root ((targetOf_eq found).trans root) owner

end Freeing

end Context

namespace Ledger

/-- The steps of a run that only builds up and uses a set of buffers: new buffers are dead,
have no aliases and take a new name, and nothing is removed. -/
def Step.Plain (context : Context) : Step → Prop
  | .add buffer _ =>
      buffer.live = false ∧ buffer.aliases = [] ∧ context.isBuffer buffer.name = false
  | .remove _ => False
  | .allocate _ _ | .deallocate _ _ => True

instance (context : Context) : (step : Step) → Decidable (Step.Plain context step)
  | .add _ _ => inferInstanceAs (Decidable (_ ∧ _ ∧ _))
  | .remove _ => .isFalse id
  | .allocate _ _ | .deallocate _ _ => .isTrue trivial

/-- A step strands a release: it frees the last live view of a buffer whose release is pending,
and that view reaches the buffer only through other references. -/
def Step.Strands (context : Context) : Step → Prop
  | .deallocate name _ =>
      context.isLive name = true ∧ ∃ owner, context.pendingRelease.contains owner = true ∧
        context.Views name owner ∧ context.targetOf name ≠ some owner ∧
          ∀ other, context.isLive other = true → context.Views other owner → other = name
  | _ => False

theorem Step.Plain.careful {context : Context} {step : Step} (plain : step.Plain context) :
    step.Careful context := by
  cases step with
  | add buffer scope => exact ⟨plain.1, plain.2.2⟩
  | remove name => exact plain.elim
  | allocate name operation => trivial
  | deallocate name operation => trivial

namespace Performed

variable {context after : Context} {step : Step} {result : Except Error (List String)}

/-- A plain step keeps alias lists and targets in step. -/
theorem mirrored (performed : Performed context step result after) (before : context.Mirrored)
    (plain : step.Plain context) : after.Mirrored := by
  cases performed with
  | failed idle => exact before
  | added added => exact before.add plain.2.2 plain.2.1 added
  | removed removed => exact plain.elim
  | allocated allocation => exact (Context.mirrored_congr allocation.atRest_eq).mpr before
  | freed found live freed => exact (Context.mirrored_congr freed.atRest_eq).mpr before

end Performed

section Freeing

variable {context after : Context} {name : String} {buffer : Buffer} {released : List String}

/-- A root strands nothing, and what is pending after it is viewed. -/
theorem viewed_after_root (mirrored : context.Mirrored)
    (viewed : ∀ owner, context.pendingRelease.contains owner = true → context.Viewed owner)
    (found : context.find? name = some buffer) (root : buffer.target? = none)
    (freed : context.Deallocation name buffer released after) (owner : String)
    (pending : after.pendingRelease.contains owner = true) : after.Viewed owner := by
  have kept : ∀ owner, context.pendingRelease.contains owner = true → after.Viewed owner :=
    fun owner pending => freed.viewed_of_root found root (viewed owner pending)
  have mirroredAfter := (Context.mirrored_congr freed.atRest_eq).mpr mirrored
  have foundAfter := freed.find?_eq name
  rw [if_pos rfl, found, Option.map_some] at foundAfter
  cases freed with
  | deferred _ hasViews =>
      rw [Dict.contains_insert, Context.retire_pendingRelease, Bool.or_eq_true,
        decide_eq_true_eq] at pending
      rcases pending with rfl | pending
      · exact (mirroredAfter.hasLiveAliases_iff foundAfter).mp hasViews
      · exact kept owner pending
  | returned _ unviewed => exact kept owner (context.retire_pendingRelease name ▸ pending)
  | settled views => exact nomatch root.symm.trans views
  | kept views => exact nomatch root.symm.trans views

/-- A reference whose target is settled with it was the last view of nothing else. -/
theorem viewed_after_settled (sound : context.Sound)
    (viewed : ∀ owner, context.pendingRelease.contains owner = true → context.Viewed owner)
    {target : String} {holder : Buffer} (targets : context.targetOf name = some target)
    (owing : context.pendingRelease.contains target = true)
    (owned : context.find? target = some holder)
    (freed : context.Deallocation name buffer [target] ((context.retire name).settle holder))
    (owner : String)
    (pending : ((context.retire name).settle holder).pendingRelease.contains owner = true) :
    ((context.retire name).settle holder).Viewed owner := by
  change ((context.retire name).pendingRelease.erase holder.name).contains owner = true at pending
  rw [Dict.contains_erase, Context.retire_pendingRelease, Context.name_of_find? owned,
    Bool.and_eq_true, decide_eq_true_eq] at pending
  obtain ⟨view, live, views⟩ := viewed owner pending.2
  refine freed.viewed_of_other ?_ live views
  rintro rfl
  rcases (Context.views_iff targets owner).mp views with rfl | further
  · exact pending.1 rfl
  · exact sound.not_views_of_pending owing owner further

/-- Where a freed reference settles nothing, what was pending is viewed unless the step
strands it. -/
theorem viewed_after_kept_iff (mirrored : context.Mirrored)
    (viewed : ∀ owner, context.pendingRelease.contains owner = true → context.Viewed owner)
    (sound : context.Sound) (found : context.find? name = some buffer) (live : buffer.live = true)
    {target operation : String} (views : buffer.target? = some target)
    (held : context.pendingRelease.contains target = true →
      (context.retire name).hasLiveAliases target = .ok true) :
    (∀ owner, (context.retire name).pendingRelease.contains owner = true →
      (context.retire name).Viewed owner) ↔
      ¬ (Step.deallocate name operation).Strands context := by
  have freed : context.Deallocation name buffer [] (context.retire name) := .kept views held
  have targets := (Context.targetOf_eq found).trans views
  have sameViews := Context.views_congr freed.atRest_eq
  rw [Context.retire_pendingRelease]
  constructor
  · rintro viewedAfter ⟨-, owner, pending, -, -, only⟩
    obtain ⟨view, liveAfter, viewsOwner⟩ := viewedAfter owner pending
    rw [freed.isLive_eq, Bool.and_eq_true, decide_eq_true_eq] at liveAfter
    exact liveAfter.1 (only view liveAfter.2 (sameViews ▸ viewsOwner))
  · intro notStranded owner pending
    by_contra unviewed
    have only : ∀ other, context.isLive other = true → context.Views other owner →
        other = name := by
      intro other otherLive otherViews
      by_contra different
      exact unviewed (freed.viewed_of_other different otherLive otherViews)
    obtain ⟨view, viewLive, viewsOwner⟩ := viewed owner pending
    obtain rfl := only view viewLive viewsOwner
    by_cases direct : owner = target
    · subst direct
      obtain ⟨holder, owned, -⟩ := sound.pending owner pending
      have different := sound.ne_of_pending found live pending
      have ownedAfter : (context.retire view).find? owner = some holder := by
        rw [Context.find?_retire, if_neg different, owned]
      have mirroredAfter := (Context.mirrored_congr freed.atRest_eq).mpr mirrored
      exact unviewed ((mirroredAfter.hasLiveAliases_iff ownedAfter).mp (held pending))
    · refine notStranded ⟨viewLive, owner, pending, viewsOwner, ?_, only⟩
      rw [targets]
      exact fun same => direct (Option.some.inj same).symm

/-- Freeing a live buffer leaves every pending release viewed, unless it strands one. -/
theorem viewed_after_free_iff (sound : context.Sound) (mirrored : context.Mirrored)
    (viewed : ∀ owner, context.pendingRelease.contains owner = true → context.Viewed owner)
    (found : context.find? name = some buffer) (live : buffer.live = true)
    (freed : context.Deallocation name buffer released after) (operation : String) :
    (∀ owner, after.pendingRelease.contains owner = true → after.Viewed owner) ↔
      ¬ (Step.deallocate name operation).Strands context := by
  cases target : buffer.target? with
  | none =>
      apply iff_of_true (viewed_after_root mirrored viewed found target freed)
      rintro ⟨-, owner, -, views, -⟩
      exact Context.not_views_of_root ((Context.targetOf_eq found).trans target) owner views
  | some root =>
      have targets := (Context.targetOf_eq found).trans target
      cases freed with
      | deferred root => exact nomatch root.symm.trans target
      | returned root => exact nomatch root.symm.trans target
      | settled views owing owned unviewed =>
          obtain rfl := Option.some.inj (views.symm.trans target)
          refine iff_of_true (viewed_after_settled sound viewed targets owing owned
            (.settled views owing owned unviewed)) ?_
          rintro ⟨-, owner, -, viewsOwner, indirect, -⟩
          rcases (Context.views_iff targets owner).mp viewsOwner with rfl | further
          · exact indirect targets
          · exact sound.not_views_of_pending owing owner further
      | kept views held =>
          exact viewed_after_kept_iff mirrored viewed sound found live views held

end Freeing

/-! ### Runs -/

/-- A view that a context has is one that it still has after adding a fresh buffer. -/
theorem viewed_after_add {context after : Context} {buffer : Buffer} {scope : Scope}
    (fresh : context.isBuffer buffer.name = false)
    (added : context.add buffer scope = .ok after) {owner : String}
    (viewed : context.Viewed owner) : after.Viewed owner := by
  obtain ⟨view, live, views⟩ := viewed
  have absent := Context.isBuffer_eq_false_iff.mp fresh
  have different : view ≠ buffer.name := by
    rintro rfl
    simp [Context.isLive, absent] at live
  refine ⟨view, Context.isLive_add different added ▸ live, ?_⟩
  refine Relation.TransGen.mono (fun first second targets => ?_) _ _ views
  rw [Context.targetOf_add fresh added]
  have other : first ≠ buffer.name := by
    rintro rfl
    simp [Context.targetOf, absent] at targets
  rw [if_neg other, targets]

/-- **One step.** Where every pending release is viewed, a plain step keeps it so exactly if it
strands none. -/
theorem pendingViewed_after_iff {context : Context} {step : Step} (accounted : context.Accounted)
    (mirrored : context.Mirrored) (plain : step.Plain context) (viewed : context.PendingViewed) :
    (step.after context).PendingViewed ↔ ¬ step.Strands context := by
  have outcome := performed accounted.toSound step
  have soundAfter := (outcome.accounted accounted plain.careful).toSound
  rw [Context.pendingViewed_iff accounted.toSound mirrored] at viewed
  rw [Context.pendingViewed_iff soundAfter (outcome.mirrored mirrored plain)]
  generalize (step.perform context).1 = result, step.after context = after at outcome
  cases outcome with
  | failed idle =>
      apply iff_of_true viewed
      cases step with
      | deallocate name operation =>
          rintro ⟨live, -⟩
          rw [idle name operation rfl] at live
          exact Bool.noConfusion live
      | _ => exact id
  | added added =>
      refine iff_of_true (fun owner pending => ?_) id
      refine viewed_after_add plain.2.2 added (viewed owner ?_)
      rcases Context.add_cases added with ⟨-, rfl⟩ | ⟨target, -, -, rfl⟩
      · rwa [Context.push_pendingRelease] at pending
      · rwa [Context.push_pendingRelease, Context.modify_pendingRelease] at pending
  | removed removed => exact plain.elim
  | allocated allocation =>
      refine iff_of_true (fun owner pending => ?_) id
      rw [allocation.pending_eq, Bool.and_eq_true] at pending
      obtain ⟨view, live, views⟩ := viewed owner pending.2
      exact ⟨view, by rw [allocation.isLive_eq, live, Bool.or_true],
        Context.views_congr allocation.atRest_eq ▸ views⟩
  | @freed name operation buffer released after found live freed =>
      exact viewed_after_free_iff accounted.toSound mirrored viewed found live freed operation

/-- A state without live buffers in which every pending release is viewed has nothing
pending and nothing in use. -/
theorem settled_of_idle {context : Context} (accounted : context.Accounted)
    (mirrored : context.Mirrored) (viewed : context.PendingViewed)
    (idle : ∀ buffer ∈ context.buffers, buffer.live = false) :
    context.pendingRelease = .empty ∧ ∀ level, context.inUse level = 0 := by
  have nothing : ∀ name, context.pendingRelease.contains name = false := by
    intro name
    rw [← Bool.not_eq_true]
    intro pending
    rw [Context.pendingViewed_iff accounted.toSound mirrored] at viewed
    obtain ⟨view, live, -⟩ := viewed name pending
    obtain ⟨buffer, member, rfl⟩ := Context.mem_names_iff.mp (Context.mem_names_of_isLive live)
    rw [Context.isLive_eq (Context.find?_eq_some_of_mem accounted.distinct member),
      idle buffer member] at live
    exact Bool.noConfusion live
  refine ⟨Dict.eq_empty_iff.mpr nothing, fun level => ?_⟩
  have unheld : context.charged level = 0 := by
    apply Buffer.bytesAt_eq_zero
    intro buffer member
    simp [Context.isHeld, idle buffer member, nothing]
  -- A counter that has wrapped around only falls behind.
  exact Nat.eq_zero_of_le_zero (unheld ▸ accounted.inUse_le level)

theorem mirrored_initial (types : Registry) : Context.Mirrored { types } := by
  intro owner view
  constructor
  · exact fun member => nomatch member
  · exact fun targets => nomatch targets

theorem pendingViewed_states_iff {context : Context} {steps : List Step}
    (accounted : context.Accounted) (mirrored : context.Mirrored)
    (plain : Along Step.Plain context steps) (viewed : context.PendingViewed) :
    (∀ state ∈ states context steps, state.PendingViewed) ↔
      Along (fun context step => ¬ step.Strands context) context steps := by
  induction steps generalizing context with
  | nil => simp [states, Along, viewed]
  | cons step steps ih =>
      obtain ⟨now, later⟩ := plain
      have outcome := performed accounted.toSound step
      have accountedAfter := outcome.accounted accounted now.careful
      have mirroredAfter := outcome.mirrored mirrored now
      have stepIff := pendingViewed_after_iff accounted mirrored now viewed
      rw [states, List.forall_mem_cons, Along, and_iff_right viewed]
      constructor
      · intro all
        have viewedAfter : (step.after context).PendingViewed := by
          apply all
          exact start_mem_states _ steps
        exact ⟨stepIff.mp viewedAfter, (ih accountedAfter mirroredAfter later viewedAfter).mp all⟩
      · rintro ⟨notStranded, rest⟩
        exact (ih accountedAfter mirroredAfter later (stepIff.mpr notStranded)).mpr rest

theorem books_states {context : Context} {steps : List Step} (accounted : context.Accounted)
    (mirrored : context.Mirrored) (plain : Along Step.Plain context steps) :
    ∀ state ∈ states context steps, state.Accounted ∧ state.Mirrored := by
  refine holds_states (fun context step books now => ?_) ⟨accounted, mirrored⟩ plain
  have outcome := performed books.1.toSound step
  exact ⟨outcome.accounted books.1 now.careful, outcome.mirrored books.2 now⟩

/-- **Deferred releases.** In a run that builds up buffers, allocates and frees, every pending
release of every state belongs to a dead buffer with a live alias exactly if no step frees the
last live view of a pending buffer through other references. Then a state without live buffers
has nothing pending and nothing in use. -/
theorem pendingRelease_viewed_iff (types : Registry) (steps : List Step)
    (plain : Along Step.Plain { types } steps) :
    ((∀ state ∈ states { types } steps, state.PendingViewed) ↔
      Along (fun context step => ¬ step.Strands context) { types } steps) ∧
    (Along (fun context step => ¬ step.Strands context) { types } steps →
      ∀ state ∈ states { types } steps, (∀ buffer ∈ state.buffers, buffer.live = false) →
        state.pendingRelease = .empty ∧ ∀ level, state.inUse level = 0) := by
  have initial : Context.PendingViewed { types } := fun _ pending => nomatch pending
  have viewedIff := pendingViewed_states_iff (accounted_initial types) (mirrored_initial types)
    plain initial
  refine ⟨viewedIff, fun notStranded state member idle => ?_⟩
  obtain ⟨accounted, mirrored⟩ :=
    books_states (accounted_initial types) (mirrored_initial types) plain state member
  exact settled_of_idle accounted mirrored (viewedIff.mpr notStranded state member) idle

/-- A buffer with a view of a view, made live together and freed from the owner outwards. -/
def strandingRun : List Step :=
  [.add { name := "b", type := ⟨0⟩, size := 64 } .locals,
    .add { name := "r1", type := ⟨0⟩, kind := .reference "b" 0 } .locals,
    .add { name := "r2", type := ⟨0⟩, kind := .reference "r1" 0 } .locals,
    .allocate "b" "p", .allocate "r1" "p", .allocate "r2" "p",
    .deallocate "b" "c", .deallocate "r1" "c", .deallocate "r2" "c"]

/-- The same buffers, freed so that the view of the owner goes last. -/
def unwindingRun : List Step :=
  strandingRun.take 7 ++ [.deallocate "r2" "c", .deallocate "r1" "c"]

theorem pendingRelease_viewed_iff_strandingRun :
    (Along Step.Plain {} strandingRun ∧
      ((∀ state ∈ states {} strandingRun, state.PendingViewed) ↔
        Along (fun context step => ¬ step.Strands context) {} strandingRun)) ∧
    Along Step.Plain {} unwindingRun ∧
    Along (fun context step => ¬ step.Strands context) {} unwindingRun ∧
    (∀ state ∈ states {} unwindingRun, state.PendingViewed) ∧
    (∀ buffer ∈ (final {} unwindingRun).buffers, buffer.live = false) ∧
    (final {} unwindingRun).pendingRelease = .empty ∧
    ∀ level, (final {} unwindingRun).inUse level = 0 := by
  have plain : Along Step.Plain {} unwindingRun := by decide
  have viewed : ∀ state ∈ states {} unwindingRun, state.PendingViewed := by decide
  have idle : ∀ buffer ∈ (final {} unwindingRun).buffers, buffer.live = false := by decide
  have last : final {} unwindingRun ∈ states {} unwindingRun := by decide
  obtain ⟨viewedIff, settled⟩ := pendingRelease_viewed_iff {} unwindingRun plain
  have kept := viewedIff.mp viewed
  exact ⟨⟨by decide, (pendingRelease_viewed_iff {} strandingRun (by decide)).1⟩, plain, kept,
    viewed, idle, settled kept _ last idle⟩

/-- The run ends without a live buffer, but the release of the owner is still pending and its
bytes are still in use. -/
theorem strandingRun_leaks :
    Along Step.Plain {} strandingRun ∧
      (∀ buffer ∈ (final {} strandingRun).buffers, buffer.live = false) ∧
      (final {} strandingRun).pendingRelease.contains "b" = true ∧
      (final {} strandingRun).hasLiveAliases "b" ≠ .ok true ∧
      (final {} strandingRun).inUse "default" = 64 := by
  decide

end Ledger

end TensorLowering
