import TensorLowering.Proofs.Accounting
import TensorLowering.Proofs.References

/-! # The phases of an operation

An operation opens lifetimes before its code and closes lifetimes after it. Both phases are
sequences of allocations (`TensorLowering.Context.Allocates`) and of frees
(`TensorLowering.Context.Frees`) on the context, with one fragment of code for each buffer
that is made and for each owner whose storage is returned.
-/

namespace TensorLowering

namespace Context

/-! ### Ordering by targets -/

theorem perm_sortRound (context : Context) (listed placed remaining : List String) :
    ((context.sortRound listed placed remaining).1 ++
      (context.sortRound listed placed remaining).2).Perm (placed ++ remaining) := by
  induction remaining generalizing placed with
  | nil => exact .refl _
  | cons name rest ih =>
      rw [sortRound]
      split
      · have blocked : ((context.sortRound listed placed rest).1 ++
            name :: (context.sortRound listed placed rest).2).Perm
              (name :: (placed ++ rest)) := List.perm_middle.trans ((ih placed).cons name)
        exact blocked.trans List.perm_middle.symm
      · have appended := ih (placed ++ [name])
        rwa [← List.append_cons] at appended

theorem perm_of_sortWithin {context : Context} {listed : List String} {bound : Nat}
    {placed remaining sorted : List String}
    (ordered : context.sortWithin listed bound placed remaining = .ok sorted) :
    sorted.Perm (placed ++ remaining) := by
  induction bound generalizing placed remaining with
  | zero =>
      cases remaining with
      | nil => cases ordered; rw [List.append_nil]
      | cons name rest => cases ordered
  | succ bound ih =>
      cases remaining with
      | nil => cases ordered; rw [List.append_nil]
      | cons name rest =>
          simp only [sortWithin] at ordered
          split at ordered
          · cases ordered
          · exact (ih ordered).trans (context.perm_sortRound listed placed (name :: rest))

/-- Ordering names by targets neither drops nor repeats a name. -/
theorem perm_of_sortByTargets {context : Context} {names sorted : List String}
    (ordered : context.sortByTargets names = .ok sorted) : sorted.Perm names := by
  unfold sortByTargets at ordered
  cases known : names.forM fun name => discard (context.lookup name) with
  | error error => rw [known] at ordered; cases ordered
  | ok _ => rw [known] at ordered; exact perm_of_sortWithin ordered

/-! ### Sequences of allocations -/

/-- The buffers of a list are made live, the last one first. -/
inductive Allocates : Context → List String → Context → Prop
  | nil (context : Context) : Allocates context [] context
  | cons {context middle after : Context} {name : String} {names : List String} {buffer : Buffer}
      (later : Allocates context names middle) (first : Allocation middle name buffer after) :
      Allocates context (name :: names) after

namespace Allocates

variable {context after : Context} {names : List String}

/-- What every allocation keeps, a sequence of them keeps. -/
theorem preserves (allocates : Allocates context names after) {property : Context → Prop}
    (kept : ∀ {context name buffer after}, Allocation context name buffer after →
      property context → property after) (before : property context) : property after := by
  induction allocates with
  | nil => exact before
  | cons _ first ih => exact kept first ih

theorem accounted (allocates : Allocates context names after) (before : Accounted context) :
    Accounted after :=
  allocates.preserves (fun step before => before.allocation step) before

theorem sound (allocates : Allocates context names after) (before : Sound context) :
    Sound after :=
  allocates.preserves (fun step before => before.allocation step) before

theorem atRest_eq (allocates : Allocates context names after) : after.atRest = context.atRest :=
  allocates.preserves (fun step before => step.atRest_eq.trans before) rfl

/-- No counter has wrapped around before allocations if none has after them. -/
theorem exact_start (allocates : Allocates context names after)
    (exact : after.overflowed = false) : context.overflowed = false := by
  induction allocates with
  | nil => exact exact
  | cons _ first ih => exact ih (first.exact_start exact)

/-- Allocating lifts the peak to what is then in use, if no counter wraps around. -/
theorem peak_eq (allocates : Allocates context names after) (exact : after.overflowed = false)
    {level : String} (within : context.inUse level ≤ context.peak level) :
    after.peak level = max (context.peak level) (after.inUse level) := by
  induction allocates with
  | nil => exact (Nat.max_eq_left within).symm
  | cons later first ih =>
      rw [first.peak_eq, ih (first.exact_start exact)]
      split
      · rw [Nat.max_assoc, Nat.max_eq_right (first.inUse_mono exact level)]
      · next elsewhere => rw [first.inUse_of_ne elsewhere]

theorem isLive_eq (allocates : Allocates context names after) (other : String) :
    after.isLive other = (names.contains other || context.isLive other) := by
  induction allocates with
  | nil => rfl
  | cons _ first ih => rw [first.isLive_eq, ih, List.contains_cons, Bool.or_assoc]; rfl

theorem pending_eq (allocates : Allocates context names after) (other : String) :
    after.pendingRelease.contains other =
      (!names.contains other && context.pendingRelease.contains other) := by
  induction allocates with
  | nil => rfl
  | @cons _ _ name _ _ _ first ih =>
      rw [first.pending_eq, ih, List.contains_cons, Bool.not_or, Bool.and_assoc]
      by_cases same : name = other
      · simp [same]
      · simp [same, Ne.symm same]

/-- What is allocated was dead before. -/
theorem isLive_of_mem (allocates : Allocates context names after) {name : String}
    (member : name ∈ names) : context.isLive name = false := by
  induction allocates with
  | nil => exact nomatch member
  | cons later first ih =>
      rcases List.mem_cons.mp member with rfl | member
      · have dead := (Context.isLive_eq first.found).trans first.dead
        rw [later.isLive_eq, Bool.or_eq_false_iff] at dead
        exact dead.2
      · exact ih member

theorem nodup (allocates : Allocates context names after) : names.Nodup := by
  induction allocates with
  | nil => exact .nil
  | cons later first ih =>
      refine List.nodup_cons.mpr ⟨?_, ih⟩
      intro member
      have dead := (Context.isLive_eq first.found).trans first.dead
      rw [later.isLive_eq, List.contains_iff_mem.mpr member] at dead
      exact Bool.noConfusion dead

theorem append {middle : Context} {first second : List String}
    (later : Allocates middle first after) (earlier : Allocates context second middle) :
    Allocates context (first ++ second) after := by
  induction later with
  | nil => exact earlier
  | cons _ step ih => exact .cons ih step

end Allocates

/-! ### Sequences of frees -/

/-- The live buffers of a list are made dead one after the other, and the storage of the
listed owners is returned. -/
inductive Frees : Context → (names owners : List String) → Context → Prop
  | nil (context : Context) : Frees context [] [] context
  | cons {context middle after : Context} {name : String} {names owners laterOwners : List String}
      {buffer : Buffer} (found : context.find? name = some buffer) (live : buffer.live = true)
      (first : Deallocation context name buffer owners middle)
      (later : Frees middle names laterOwners after) :
      Frees context (name :: names) (owners ++ laterOwners) after

namespace Frees

variable {context after : Context} {names owners : List String}

/-- What freeing any live buffer keeps, a sequence of frees keeps. -/
theorem preserves (frees : Frees context names owners after) {property : Context → Prop}
    (kept : ∀ {context name buffer released after}, context.find? name = some buffer →
      buffer.live = true → Deallocation context name buffer released after →
        property context → property after) (before : property context) : property after := by
  induction frees with
  | nil => exact before
  | cons found live first _ ih => exact ih (kept found live first before)

theorem accounted (frees : Frees context names owners after) (before : Accounted context) :
    Accounted after :=
  frees.preserves (fun found live step before => before.deallocation found live step) before

theorem sound (frees : Frees context names owners after) (before : Sound context) :
    Sound after :=
  frees.preserves (fun found live step before => before.deallocation found live step) before

theorem atRest_eq (frees : Frees context names owners after) : after.atRest = context.atRest :=
  frees.preserves (fun _ _ step before => step.atRest_eq.trans before) rfl

theorem isLive_eq (frees : Frees context names owners after) (other : String) :
    after.isLive other = (!names.contains other && context.isLive other) := by
  induction frees with
  | nil => rfl
  | @cons _ _ _ name _ _ _ _ _ _ first _ ih =>
      rw [ih, first.isLive_eq, List.contains_cons, beq_eq_decide]
      by_cases same : other = name
      · simp [same]
      · simp [same]

theorem peak_eq (frees : Frees context names owners after) (level : String) :
    after.peak level = context.peak level :=
  frees.preserves (fun _ _ step before => (step.peak_eq level).trans before) rfl

end Frees

/-! ### Code for buffers -/

/-- A fragment is the code for the buffer of a name. -/
def Codes (context : Context) (code : Registry → Buffer → Except Error Fragment) (name : String)
    (fragment : Fragment) : Prop :=
  ∃ buffer, context.find? name = some buffer ∧ code context.types buffer = .ok fragment

/-- Code that does not look at whether a buffer is live is seen at rest. -/
theorem Codes.congr {first second : Context} (same : first.atRest = second.atRest)
    {code : Registry → Buffer → Except Error Fragment}
    (blind : ∀ types buffer, code types buffer.atRest = code types buffer) {name : String}
    {fragment : Fragment} (codes : first.Codes code name fragment) :
    second.Codes code name fragment := by
  obtain ⟨buffer, found, coded⟩ := codes
  have foundAtRest : second.atRest.find? name = some buffer.atRest := by
    rw [← same, find?_atRest, found, Option.map_some]
  rw [find?_atRest, Option.map_eq_some_iff] at foundAtRest
  obtain ⟨other, otherFound, otherSame⟩ := foundAtRest
  have typesSame : first.atRest.types = second.atRest.types := congrArg Context.types same
  change first.types = second.types at typesSame
  refine ⟨other, otherFound, ?_⟩
  rw [← blind, otherSame, blind, ← typesSame, coded]

/-- Code for names is code for the buffers that they denote. -/
theorem forall₂_filterMap_find? {context : Context} {code : Buffer → Fragment → Prop}
    {names : List String} {fragments : List Fragment}
    (codes : List.Forall₂ (fun name fragment =>
      ∃ buffer, context.find? name = some buffer ∧ code buffer fragment) names fragments) :
    List.Forall₂ code (names.filterMap context.find?) fragments := by
  induction codes with
  | nil => exact .nil
  | cons first _ ih =>
      obtain ⟨buffer, found, coded⟩ := first
      rw [List.filterMap_cons_some found]
      exact .cons coded ih

theorem exists_of_codes {context : Context} {code : Registry → Buffer → Except Error Fragment}
    {names : List String} {fragments : List Fragment}
    (codes : List.Forall₂ (context.Codes code) names fragments) :
    ∀ fragment ∈ fragments, ∃ types buffer, code types buffer = .ok fragment := by
  induction codes with
  | nil => exact fun _ member => absurd member List.not_mem_nil
  | cons first _ ih =>
      obtain ⟨buffer, -, coded⟩ := first
      exact List.forall_mem_cons.mpr ⟨⟨_, buffer, coded⟩, ih⟩

end Context

/-- The buffer that a fragment of lifetime code is about. -/
def Fragment.subject? (fragment : Fragment) : Option String :=
  (fragment.bindings.find? "name").bind Binding.name?

/-- Bindings describe a buffer by its name, the name of its type, its size and its level, and a
reference also by what it views and where. -/
structure Bindings.Describe (bindings : Bindings) (types : Registry) (buffer : Buffer) :
    Prop where
  name_eq : bindings.find? "name" = some (.name buffer.name)
  type_eq : ∃ typeName, types.typeName buffer.type = .ok typeName ∧
    bindings.find? "type" = some (.code typeName)
  size_eq : bindings.find? "size" = some (.int (signedWord buffer.size))
  level_eq : bindings.find? "level" = some (.code buffer.levelKey)
  view_eq : ∀ target offset, buffer.kind = .reference target offset →
    bindings.find? "reference" = some (.name target) ∧
      bindings.find? "offset" = some (.int (signedWord offset))

theorem Bindings.Describe.subject?_eq {bindings : Bindings} {types : Registry} {buffer : Buffer}
    (describe : bindings.Describe types buffer) (template : Template) :
    Fragment.subject? { template, bindings } = some buffer.name := by
  rw [Fragment.subject?, describe.name_eq]
  rfl

namespace LifetimeTemplates

/-- A fragment makes a buffer: it declares a reference, allocates storage for any other buffer, and
describes the buffer. -/
structure Makes (templates : LifetimeTemplates) (types : Registry) (buffer : Buffer)
    (fragment : Fragment) : Prop where
  template_eq :
    fragment.template = if buffer.isReference then templates.reference else templates.alloc
  describe : fragment.bindings.Describe types buffer

/-- A fragment frees a buffer, and describes it. -/
structure Frees (templates : LifetimeTemplates) (types : Registry) (buffer : Buffer)
    (fragment : Fragment) : Prop where
  template_eq : fragment.template = templates.dealloc
  describe : fragment.bindings.Describe types buffer

/-- A fragment says how many bytes are in use in a level after an operation. -/
structure Notes (templates : LifetimeTemplates) (operation level : String) (bytes : Nat)
    (fragment : Fragment) : Prop where
  template_eq : fragment.template = templates.usage
  operation_eq : fragment.bindings.find? "operation" = some (.code operation)
  level_eq : fragment.bindings.find? "level" = some (.code level)
  bytes_eq : fragment.bindings.find? "bytes" = some (.int (signedWord bytes))
  nameless : fragment.subject? = none

variable {templates : LifetimeTemplates} {types : Registry} {buffer : Buffer} {fragment : Fragment}

theorem Makes.subject?_eq (makes : templates.Makes types buffer fragment) :
    fragment.subject? = some buffer.name :=
  makes.describe.subject?_eq fragment.template

theorem Frees.subject?_eq (frees : templates.Frees types buffer fragment) :
    fragment.subject? = some buffer.name :=
  frees.describe.subject?_eq fragment.template

theorem describe_of_bindings {description : Bindings}
    (described : bindings types buffer = .ok description) : description.Describe types buffer := by
  unfold bindings at described
  cases typed : types.typeName buffer.type with
  | error error => rw [typed] at described; cases described
  | ok typeName =>
      rw [typed] at described
      cases described
      cases kind : buffer.kind <;>
        constructor <;> simp [Dict.ofList, Dict.find?_insert, Binding.ofSize, typed, kind]

/-- Code that is written about a buffer has the bindings of the buffer, and no tiling. -/
theorem written_eq_ok {template : Template}
    (written : (do return { template, bindings := ← bindings types buffer }) =
      (.ok fragment : Except Error Fragment)) :
    ∃ description, bindings types buffer = .ok description ∧
      fragment = ⟨template, description, none⟩ := by
  cases described : bindings types buffer with
  | error error => rw [described] at written; cases written
  | ok description =>
      rw [described] at written
      cases written
      exact ⟨description, rfl, rfl⟩

/-- The code that makes a buffer declares or allocates it. -/
theorem allocation_eq_ok (made : templates.allocation types buffer = .ok fragment) :
    templates.Makes types buffer fragment := by
  obtain ⟨description, described, rfl⟩ := written_eq_ok made
  exact ⟨rfl, describe_of_bindings described⟩

/-- The code that frees a buffer has the template for it. -/
theorem release_eq_ok (freed : templates.release types buffer = .ok fragment) :
    templates.Frees types buffer fragment := by
  obtain ⟨description, described, rfl⟩ := written_eq_ok freed
  exact ⟨rfl, describe_of_bindings described⟩

/-- Fragments that make buffers have the templates and the subjects of the buffers, in order. -/
theorem map_of_makes {buffers : List Buffer} {fragments : List Fragment}
    (makes : List.Forall₂ (templates.Makes types) buffers fragments) :
    fragments.map (fun fragment => (fragment.template, fragment.subject?)) =
      buffers.map fun buffer =>
        (if buffer.isReference then templates.reference else templates.alloc,
          some buffer.name) := by
  induction makes with
  | nil => rfl
  | cons first _ ih => rw [List.map_cons, List.map_cons, first.template_eq, first.subject?_eq, ih]

theorem map_of_frees {buffers : List Buffer} {fragments : List Fragment}
    (frees : List.Forall₂ (templates.Frees types) buffers fragments) :
    fragments.map (fun fragment => (fragment.template, fragment.subject?)) =
      buffers.map fun buffer => (templates.dealloc, some buffer.name) := by
  induction frees with
  | nil => rfl
  | cons first _ ih => rw [List.map_cons, List.map_cons, first.template_eq, first.subject?_eq, ih]

theorem notes_comment (templates : LifetimeTemplates) (operation level : String) (bytes : Nat) :
    templates.Notes operation level bytes (templates.comment operation level bytes) := by
  constructor <;>
    simp [comment, Fragment.subject?, Dict.ofList, Dict.find?_insert, Binding.ofSize]

end LifetimeTemplates

/-! ### The phases -/

namespace Lowering

variable {templates : LifetimeTemplates} {operation : String} {names : List String}
  {code : List Fragment} {workspace final : Workspace}

theorem lifetimeCode_eq_ok
    {make : LifetimeTemplates → Registry → Buffer → Except Error Fragment} {name : String}
    (ran : lifetimeCode (some templates) make name workspace = .ok code final) :
    ∃ fragment, code = [fragment] ∧ workspace.context.Codes (make templates) name fragment ∧
      final = workspace := by
  obtain ⟨buffer, middle, looked, rest⟩ := bind_eq_ok ran
  obtain ⟨found, rfl⟩ := lookup_eq_ok looked
  obtain ⟨fragment, last, asked, answered⟩ := bind_eq_ok rest
  obtain ⟨made, rfl⟩ := ask_eq_ok asked
  obtain ⟨rfl, rfl⟩ := pure_eq_ok answered
  exact ⟨fragment, rfl, ⟨buffer, found, made⟩, rfl⟩

theorem allocateAll_eq_ok
    (ran : allocateAll (some templates) operation names workspace = .ok code final) :
    workspace.context.Allocates names final.context ∧
      List.Forall₂ (workspace.context.Codes templates.allocation) names code := by
  induction names generalizing final code with
  | nil =>
      obtain ⟨rfl, rfl⟩ := pure_eq_ok ran
      exact ⟨.nil _, .nil⟩
  | cons name names ih =>
      obtain ⟨later, middle, laterRan, ran⟩ := bind_eq_ok ran
      obtain ⟨_, last, allocated, ran⟩ := bind_eq_ok ran
      obtain ⟨first, end_, coded, ran⟩ := bind_eq_ok ran
      obtain ⟨rfl, rfl⟩ := pure_eq_ok ran
      obtain ⟨fragment, rfl, codes, rfl⟩ := lifetimeCode_eq_ok coded
      obtain ⟨allocates, laterCodes⟩ := ih laterRan
      obtain ⟨buffer, allocation⟩ := Context.allocation_of_allocate (allocate_eq_ok allocated)
      have after := Context.Allocates.cons allocates allocation
      exact ⟨after, .cons (codes.congr after.atRest_eq fun _ _ => rfl) laterCodes⟩

theorem releaseCode_eq_ok {owners : List String}
    (ran : releaseCode (some templates) owners workspace = .ok code final) :
    List.Forall₂ (workspace.context.Codes templates.release) owners code ∧ final = workspace := by
  induction owners generalizing code with
  | nil =>
      obtain ⟨rfl, rfl⟩ := pure_eq_ok ran
      exact ⟨.nil, rfl⟩
  | cons owner owners ih =>
      obtain ⟨first, middle, coded, ran⟩ := bind_eq_ok ran
      obtain ⟨later, last, laterRan, ran⟩ := bind_eq_ok ran
      obtain ⟨rfl, rfl⟩ := pure_eq_ok ran
      obtain ⟨fragment, rfl, codes, rfl⟩ := lifetimeCode_eq_ok coded
      obtain ⟨laterCodes, rfl⟩ := ih laterRan
      exact ⟨.cons codes laterCodes, rfl⟩

theorem deallocateAll_eq_ok (sound : workspace.context.Sound) {owners : List String}
    (ran : deallocateAll (some templates) operation names workspace = .ok (owners, code) final) :
    workspace.context.Frees names owners final.context ∧
      List.Forall₂ (workspace.context.Codes templates.release) owners code := by
  induction names generalizing workspace owners code with
  | nil =>
      obtain ⟨same, rfl⟩ := pure_eq_ok ran
      cases same
      exact ⟨.nil _, .nil⟩
  | cons name names ih =>
      obtain ⟨firstOwners, middle, freed, ran⟩ := bind_eq_ok ran
      obtain ⟨firstCode, last, coded, ran⟩ := bind_eq_ok ran
      obtain ⟨⟨laterOwners, laterCode⟩, end_, laterRan, ran⟩ := bind_eq_ok ran
      obtain ⟨same, rfl⟩ := pure_eq_ok ran
      cases same
      obtain ⟨firstCodes, rfl⟩ := releaseCode_eq_ok coded
      have result := deallocate_eq_ok freed
      rcases Context.deallocate_cases sound name operation with
        ⟨-, error, failed⟩ | ⟨buffer, released, after, succeeded, found, live, step⟩
      · rw [failed] at result
        cases result
      · rw [succeeded] at result
        cases result
        obtain ⟨frees, laterCodes⟩ := ih (sound.deallocation found live step) laterRan
        have codesBefore := fun name fragment codes =>
          @Context.Codes.congr _ _ step.atRest_eq templates.release (fun _ _ => rfl) name fragment
            codes
        refine ⟨.cons found live step frees, List.rel_append ?_ ?_⟩
        · exact firstCodes.imp codesBefore
        · exact laterCodes.imp codesBefore

end Lowering

/-- What an operation does with the buffers that its block refers to. -/
def Block.lifetimes (block : Block) (context : Context) (operation : String) : Lifetimes :=
  .classify operation ((block.references context .unrolled).filterMap context.find?)

/-- What an operation does with its buffers is seen at rest. -/
theorem Block.lifetimes_atRest (block : Block) (context : Context) (operation : String) :
    block.lifetimes context.atRest operation = block.lifetimes context operation := by
  have foundAtRest : context.atRest.find? = fun name => (context.find? name).map Buffer.atRest :=
    funext context.find?_atRest
  rw [lifetimes, lifetimes, context.sameShape_atRest.references_eq, foundAtRest,
    ← List.map_filterMap]
  generalize (block.references context .unrolled).filterMap context.find? = buffers
  rw [Lifetimes.classify, Lifetimes.classify]
  simp only [List.filter_map, List.map_map]
  rfl

/-- The first phase of an operation: it allocates what it makes, in an order of its own, and
notes what it will free. -/
structure Opening (templates : LifetimeTemplates) (block : Block) (operation : String)
    (start : Context) (opened : OpenLifetimes) (middle : Context) : Prop where
  allocates : start.Allocates opened.allocated middle
  allocated_perm : opened.allocated.Perm (block.lifetimes start operation).allocated
  freed_eq : opened.freed = (block.lifetimes start operation).freed
  codes : List.Forall₂ (start.Codes templates.allocation) opened.allocated opened.code

/-- The second phase of an operation: it frees buffers, with code for each owner whose storage
is returned, and comments after that code. -/
structure Closing (templates : LifetimeTemplates) (middle : Context) (freed owners : List String)
    (code : List Fragment) (finish : Context) : Prop where
  frees : middle.Frees freed owners finish
  codes : ∃ released comments, code = released ++ comments ∧
    List.Forall₂ (middle.Codes templates.release) owners released ∧
      ∀ comment ∈ comments, comment.subject? = none

namespace Lowering

variable {templates : LifetimeTemplates} {annotate : Bool} {block : Block} {operation : String}
  {opened : OpenLifetimes} {workspace final : Workspace}

theorem beginLifetimes_eq_ok
    (ran : beginLifetimes (some templates) block operation workspace = .ok opened final) :
    Opening templates block operation workspace.context opened final.context := by
  obtain ⟨names, first, referring, rest⟩ := bind_eq_ok ran
  obtain ⟨buffers, second, looking, rest⟩ := bind_eq_ok rest
  obtain ⟨allocated, third, sorting, rest⟩ := bind_eq_ok rest
  obtain ⟨code, fourth, allocating, rest⟩ := bind_eq_ok rest
  obtain ⟨rfl, rfl⟩ := pure_eq_ok rest
  obtain ⟨namesEq, firstSame⟩ := references_eq_ok referring
  obtain ⟨buffersEq, secondSame⟩ := mapM_lookup_eq_ok looking
  obtain ⟨sorted, rfl⟩ := ask_eq_ok sorting
  obtain ⟨allocates, codes⟩ := allocateAll_eq_ok allocating
  rw [secondSame, firstSame] at allocates codes
  have lifetimesEq : block.lifetimes workspace.context operation = .classify operation buffers := by
    rw [Block.lifetimes, ← namesEq, ← firstSame, ← buffersEq]
  refine ⟨allocates, ?_, ?_, codes⟩
  · rw [lifetimesEq]
    exact Context.perm_of_sortByTargets sorted
  · rw [lifetimesEq]

theorem endLifetimes_eq_ok (sound : workspace.context.Sound) {code : List Fragment}
    (ran : endLifetimes (some templates) annotate operation opened workspace = .ok code final) :
    ∃ owners, Closing templates workspace.context opened.freed owners code final.context := by
  obtain ⟨⟨owners, released⟩, middle, freeing, rest⟩ := bind_eq_ok ran
  obtain ⟨frees, codes⟩ := deallocateAll_eq_ok sound freeing
  refine ⟨owners, ?_⟩
  cases annotate with
  | false =>
      obtain ⟨rfl, rfl⟩ := pure_eq_ok rest
      exact ⟨frees, released, [], by simp, codes, by simp⟩
  | true =>
      obtain ⟨levels, second, levelling, rest⟩ := bind_eq_ok rest
      obtain ⟨comments, third, commenting, rest⟩ := bind_eq_ok rest
      obtain ⟨rfl, rfl⟩ := pure_eq_ok rest
      obtain ⟨-, rfl⟩ := ask_eq_ok levelling
      obtain ⟨commented, rfl⟩ := ask_eq_ok commenting
      refine ⟨frees, released, comments, rfl, codes, ?_⟩
      intro comment member
      rw [← Except.ok.inj commented] at member
      obtain ⟨level, -, rfl⟩ := List.mem_map.mp member
      exact (templates.notes_comment ..).nameless

end Lowering

end TensorLowering
