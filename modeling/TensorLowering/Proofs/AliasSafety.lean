import TensorLowering.Proofs.DeferredRelease

/-! # Released storage has no live view

The search for live aliases follows alias lists from the owner outwards, while what a reference
views is told by its targets. In every state of a run that builds up buffers, allocates and
frees, the search finds a live alias exactly where a live reference reaches the buffer by its
targets, and the storage that freeing returns is reached by none
(`TensorLowering.Ledger.aliases_exact_and_released_unreached`).
-/

namespace TensorLowering

namespace Context

/-- A live reference reaches a name by one or more steps to a target. -/
def ReachedByLive (context : Context) (name : String) : Prop :=
  ∃ view ∈ context.buffers, view.live = true ∧ view.isReference = true ∧
    context.Views view.name name

theorem isReference_of_views {context : Context} {name owner : String} {buffer : Buffer}
    (found : context.find? name = some buffer) (views : context.Views name owner) :
    buffer.isReference = true := by
  rw [← Bool.not_eq_false, ← Buffer.target?_eq_none_iff, ← targetOf_eq found]
  intro root
  exact not_views_of_root root owner views

/-- Only references view anything. -/
theorem reachedByLive_iff_viewed {context : Context} (distinct : context.names.Nodup)
    (name : String) : context.ReachedByLive name ↔ context.Viewed name := by
  constructor
  · rintro ⟨view, member, live, -, views⟩
    exact ⟨view.name, (isLive_eq (find?_eq_some_of_mem distinct member)).trans live, views⟩
  · rintro ⟨view, live, views⟩
    obtain ⟨buffer, member, rfl⟩ := mem_names_iff.mp (mem_names_of_isLive live)
    have found := find?_eq_some_of_mem distinct member
    exact ⟨buffer, member, (isLive_eq found).symm.trans live, isReference_of_views found views,
      views⟩

theorem Mirrored.hasLiveAliases_exact {context : Context} (mirrored : Mirrored context)
    (distinct : context.names.Nodup) {name : String} (known : context.isBuffer name = true) :
    ∃ answer, context.hasLiveAliases name = .ok answer ∧
      (answer = true ↔ context.ReachedByLive name) := by
  rw [isBuffer_iff] at known
  obtain ⟨buffer, found⟩ := Option.isSome_iff_exists.mp known
  refine ⟨_, hasLiveAliases_eq found, ?_⟩
  rw [reachedByLive_iff_viewed distinct, ← Except.ok.injEq, ← hasLiveAliases_eq found]
  exact mirrored.hasLiveAliases_iff found

section Freeing

variable {context after : Context} {name : String} {buffer : Buffer} {released : List String}

/-- An owner whose release goes through has no live alias at that moment, and returning its bytes
makes no reference live. -/
theorem Deallocation.unviewed_of_released (freed : Deallocation context name buffer released after)
    (mirrored : Mirrored context) {owner : String} {known : Buffer}
    (found : after.find? owner = some known) (member : owner ∈ released) :
    ¬ after.Viewed owner := by
  have mirroredAfter := (mirrored_congr freed.atRest_eq).mpr mirrored
  rw [Viewed, ← mirroredAfter.hasLiveAliases_iff found]
  cases freed with
  | deferred root viewed => exact nomatch member
  | returned root unviewed =>
      rw [List.mem_singleton.mp member]
      -- Returning bytes is nothing to the search, which was made when the name was retired.
      change ¬ (context.retire name).hasLiveAliases name = _
      rw [unviewed]
      exact nofun
  | settled views owing owned unviewed =>
      rw [List.mem_singleton.mp member]
      change ¬ (context.retire name).hasLiveAliases _ = _
      rw [unviewed]
      exact nofun
  | kept views held => exact nomatch member

/-- What freeing returns is the storage of a dead buffer that is no reference. -/
theorem Deallocation.dead_of_released (freed : Deallocation context name buffer released after)
    (sound : Sound context) (found : context.find? name = some buffer) (live : buffer.live = true)
    {owner : String} (member : owner ∈ released) :
    ∃ known, after.find? owner = some known ∧ known.live = false ∧ known.isReference = false := by
  have foundAfter := freed.find?_eq owner
  cases freed with
  | deferred root viewed => exact nomatch member
  | returned root unviewed =>
      obtain rfl := List.mem_singleton.mp member
      rw [if_pos rfl, found, Option.map_some] at foundAfter
      exact ⟨_, foundAfter, rfl, Buffer.target?_eq_none_iff.mp root⟩
  | settled views owing owned unviewed =>
      obtain rfl := List.mem_singleton.mp member
      obtain ⟨known, foundOwner, dead, root⟩ := sound.pending owner owing
      rw [if_neg (sound.ne_of_pending found live owing), foundOwner] at foundAfter
      exact ⟨known, foundAfter, dead, Buffer.target?_eq_none_iff.mp root⟩
  | kept views held => exact nomatch member

end Freeing

theorem released_unreached {context after : Context} (sound : Sound context)
    (mirrored : Mirrored context) {name operation owner : String} {released : List String}
    (freed : context.deallocate name operation = (.ok released, after))
    (member : owner ∈ released) :
    ∃ buffer, after.find? owner = some buffer ∧ buffer.live = false ∧
      buffer.isReference = false ∧ ¬ after.ReachedByLive owner := by
  rcases deallocate_cases sound name operation with
    ⟨-, error, failed⟩ | ⟨buffer, names, finish, succeeded, found, live, step⟩
  · rw [failed] at freed
    cases freed
  · rw [succeeded] at freed
    cases freed
    obtain ⟨known, foundAfter, dead, root⟩ := step.dead_of_released sound found live member
    refine ⟨known, foundAfter, dead, root, ?_⟩
    rw [reachedByLive_iff_viewed (sound.deallocation found live step).distinct]
    exact step.unviewed_of_released mirrored foundAfter member

end Context

namespace Ledger

/-- **Alias safety.** In every state of a run that builds up buffers, allocates and frees, the
search for live aliases of a buffer answers whether a live reference reaches it by its targets,
and every buffer whose storage a deallocation returns is dead, no reference, and reached by no
live reference. -/
theorem aliases_exact_and_released_unreached (types : Registry) (steps : List Step)
    (plain : Along Step.Plain { types } steps) (state : Context)
    (visited : state ∈ states { types } steps) :
    (∀ name, state.isBuffer name = true → ∃ answer, state.hasLiveAliases name = .ok answer ∧
      (answer = true ↔ state.ReachedByLive name)) ∧
    ∀ name operation released after, state.deallocate name operation = (.ok released, after) →
      ∀ owner ∈ released, ∃ buffer, after.find? owner = some buffer ∧ buffer.live = false ∧
        buffer.isReference = false ∧ ¬ after.ReachedByLive owner := by
  obtain ⟨accounted, mirrored⟩ :=
    books_states (accounted_initial types) (mirrored_initial types) plain state visited
  constructor
  · intro name known
    exact mirrored.hasLiveAliases_exact accounted.distinct known
  · intro name operation released after freed owner member
    exact Context.released_unreached accounted.toSound mirrored freed member

/-- A buffer with a view of a view, freed while the outer view is live. -/
def deferringRun : List Step :=
  [.add { name := "b", type := ⟨0⟩, size := 64 } .locals,
    .add { name := "r1", type := ⟨0⟩, kind := .reference "b" 0 } .globals,
    .add { name := "r2", type := ⟨0⟩, kind := .reference "r1" 0 } .locals,
    .allocate "b" "p", .allocate "r2" "p", .deallocate "b" "c", .allocate "r1" "q",
    .deallocate "r2" "d"]

/-- The release of the buffer waits for its last view, and goes through with it. -/
theorem aliases_exact_and_released_unreached_deferringRun :
    Along Step.Plain {} deferringRun ∧ final {} deferringRun ∈ states {} deferringRun ∧
      (∃ answer, (final {} deferringRun).hasLiveAliases "b" = .ok answer ∧
        (answer = true ↔ (final {} deferringRun).ReachedByLive "b")) ∧
      ((final {} deferringRun).deallocate "r1" "d").1 = .ok ["b"] ∧
      ¬ ((final {} deferringRun).deallocate "r1" "d").2.ReachedByLive "b" := by
  have plain : Along Step.Plain {} deferringRun := by decide
  have visited : final {} deferringRun ∈ states {} deferringRun := by decide
  have returned : ((final {} deferringRun).deallocate "r1" "d").1 = .ok ["b"] := by decide
  obtain ⟨exact, unreached⟩ :=
    aliases_exact_and_released_unreached {} deferringRun plain _ visited
  refine ⟨plain, visited, exact "b" (by decide), returned, ?_⟩
  obtain ⟨_, -, -, -, never⟩ :=
    unreached "r1" "d" ["b"] _ (Prod.ext returned rfl) "b" List.mem_cons_self
  exact never

end Ledger

end TensorLowering
