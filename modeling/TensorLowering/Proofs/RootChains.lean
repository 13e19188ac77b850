import Mathlib.Data.List.Perm.Subperm
import TensorLowering.Proofs.Buffers

/-! # Chains of targets

The targets from a name lead to a buffer that is no reference, or to a name that denotes no buffer,
or they go on without end. A search that lists the names on its way tells which
(`TensorLowering.Context.resolveRoot_exact`): these names are distinct and denote buffers, so a
chain without end comes back to one of them within as many steps as there are buffers.
-/

namespace TensorLowering

theorem Buffer.isReference_eq_false_iff {buffer : Buffer} :
    buffer.isReference = false ↔ buffer.target? = none := by
  unfold Buffer.isReference Buffer.target?
  cases buffer.kind <;> simp

namespace Context

/-- The name that a number of targets leads to. -/
def chainAt (context : Context) (name : String) : (steps : Nat) → Option String
  | 0 => some name
  | steps + 1 => (context.chainAt name steps).bind context.targetOf

/-- The targets from a name lead to a buffer that is no reference. -/
def EndsAt (context : Context) (name root : String) : Prop :=
  ∃ steps buffer, context.chainAt name steps = some root ∧ context.find? root = some buffer ∧
    buffer.isReference = false

/-- The targets from a name lead through buffers to a name that denotes none. -/
def LeavesAt (context : Context) (name missing : String) : Prop :=
  ∃ steps, context.chainAt name steps = some missing ∧ context.isBuffer missing = false ∧
    ∀ earlier < steps, ∃ known, context.chainAt name earlier = some known ∧
      context.isBuffer known = true

/-- The targets from a name go on without end. -/
def Unending (context : Context) (name : String) : Prop :=
  ∀ steps, (context.chainAt name steps).isSome = true

/-- A list holds the names that targets lead to, each once and in the order in which they come. -/
structure Visits (context : Context) (name : String) (visited : List String) : Prop where
  distinct : visited.Nodup
  inOrder : ∀ steps (inside : steps < visited.length),
    context.chainAt name steps = some visited[steps]
  all : ∀ steps other, context.chainAt name steps = some other → other ∈ visited

/-- A search along targets with no bound on its steps. It stops at a name that it has seen, at a
name that denotes no buffer, and at a buffer that is no reference. -/
inductive Resolves (context : Context) : (seen : List String) → String → Except Error String → Prop
  | cycle {seen : List String} {name : String} (repeated : name ∈ seen) :
      Resolves context seen name (.error (.aliasCycle seen))
  | missing {seen : List String} {name : String} (fresh : name ∉ seen)
      (absent : context.find? name = none) :
      Resolves context seen name (.error (.unknownBuffer name))
  | root {seen : List String} {name : String} {buffer : Buffer} (fresh : name ∉ seen)
      (found : context.find? name = some buffer) (owner : buffer.target? = none) :
      Resolves context seen name (.ok name)
  | follow {seen : List String} {name target : String} {buffer : Buffer}
      {result : Except Error String} (fresh : name ∉ seen)
      (found : context.find? name = some buffer) (views : buffer.target? = some target)
      (rest : Resolves context (seen ++ [name]) target result) :
      Resolves context seen name result

variable {context : Context} {name current target root missing : String}
  {seen visited : List String} {result : Except Error String} {buffer : Buffer} {bound : Nat}

/-! ### The shapes of a chain -/

theorem chainAt_succ_of_eq_some {steps : Nat}
    (reached : context.chainAt name steps = some current) :
    context.chainAt name (steps + 1) = context.targetOf current := by
  rw [chainAt, reached, Option.bind_some]

/-- Past its end a chain has no names. -/
theorem chainAt_eq_none_of_le {steps later : Nat} (ended : context.chainAt name steps = none)
    (le : steps ≤ later) : context.chainAt name later = none := by
  induction later, le using Nat.le_induction with
  | base => exact ended
  | succ later _ ih => rw [chainAt, ih, Option.bind_none]

/-- The targets from a name lead to a name without target. -/
def StopsAt (context : Context) (name last : String) : Prop :=
  ∃ steps, context.chainAt name steps = some last ∧ context.targetOf last = none

theorem StopsAt.not_unending (stops : context.StopsAt name current) :
    ¬ context.Unending name := by
  obtain ⟨steps, reached, last⟩ := stops
  intro unending
  have next := unending (steps + 1)
  rw [chainAt_succ_of_eq_some reached, last] at next
  exact Bool.noConfusion next

/-- A chain stops once. -/
theorem StopsAt.unique (first : context.StopsAt name current)
    (second : context.StopsAt name target) : current = target := by
  obtain ⟨steps, reached, last⟩ := first
  obtain ⟨others, otherReached, otherLast⟩ := second
  have ended := (chainAt_succ_of_eq_some reached).trans last
  have otherEnded := (chainAt_succ_of_eq_some otherReached).trans otherLast
  rcases Nat.lt_trichotomy steps others with before | rfl | after
  · cases otherReached.symm.trans (chainAt_eq_none_of_le ended before)
  · exact Option.some.inj (reached.symm.trans otherReached)
  · cases reached.symm.trans (chainAt_eq_none_of_le otherEnded after)

theorem EndsAt.stopsAt (ends : context.EndsAt name root) : context.StopsAt name root := by
  obtain ⟨steps, buffer, reached, found, owner⟩ := ends
  exact ⟨steps, reached, (targetOf_eq found).trans (Buffer.isReference_eq_false_iff.mp owner)⟩

theorem LeavesAt.stopsAt (leaves : context.LeavesAt name missing) :
    context.StopsAt name missing := by
  obtain ⟨steps, reached, absent, -⟩ := leaves
  refine ⟨steps, reached, ?_⟩
  rw [targetOf, isBuffer_eq_false_iff.mp absent, Option.bind_none]

/-- A chain that leads to an owner of storage does not leave the buffers. -/
theorem EndsAt.not_leavesAt (ends : context.EndsAt name root) :
    ¬ context.LeavesAt name missing := by
  intro leaves
  have same := ends.stopsAt.unique leaves.stopsAt
  obtain ⟨-, buffer, -, found, -⟩ := ends
  obtain ⟨-, -, absent, -⟩ := leaves
  rw [← same, isBuffer_eq_false_iff, found] at absent
  cases absent

/-- No list of the names of a chain is shorter than another. -/
theorem Visits.length_le {others : List String} (first : context.Visits name visited)
    (second : context.Visits name others) : others.length ≤ visited.length := by
  by_contra longer
  rw [Nat.not_le] at longer
  -- The first name that only the longer list has room for stands in the shorter one too.
  have next := second.inOrder visited.length longer
  obtain ⟨index, inside, same⟩ := List.mem_iff_getElem.mp (first.all _ _ next)
  have again := first.inOrder index inside
  rw [second.inOrder index (Nat.lt_trans inside longer), same, Option.some.injEq] at again
  exact Nat.ne_of_lt inside ((List.getElem_inj second.distinct).mp again)

theorem Visits.unique {others : List String} (first : context.Visits name visited)
    (second : context.Visits name others) : visited = others := by
  have lengths := Nat.le_antisymm (second.length_le first) (first.length_le second)
  refine List.ext_getElem lengths fun index inside otherInside => ?_
  exact Option.some.inj
    ((first.inOrder index inside).symm.trans (second.inOrder index otherInside))

/-- What a search has to answer for each shape of a chain. -/
inductive Answers (context : Context) (name : String) : Except Error String → Prop
  | root {root : String} (ends : context.EndsAt name root) : Answers context name (.ok root)
  | missing {missing : String} (leaves : context.LeavesAt name missing) :
      Answers context name (.error (.unknownBuffer missing))
  | cycle {visited : List String} (unending : context.Unending name)
      (visits : context.Visits name visited) : Answers context name (.error (.aliasCycle visited))

/-- A chain has one shape. -/
theorem Answers.unique {other : Except Error String} (first : context.Answers name result)
    (second : context.Answers name other) : result = other := by
  cases first with
  | root ends =>
      cases second with
      | root others => rw [ends.stopsAt.unique others.stopsAt]
      | missing leaves => exact absurd leaves ends.not_leavesAt
      | cycle unending _ => exact absurd unending ends.stopsAt.not_unending
  | missing leaves =>
      cases second with
      | root ends => exact absurd leaves ends.not_leavesAt
      | missing others => rw [leaves.stopsAt.unique others.stopsAt]
      | cycle unending _ => exact absurd unending leaves.stopsAt.not_unending
  | cycle unending visits =>
      cases second with
      | root ends => exact absurd unending ends.stopsAt.not_unending
      | missing leaves => exact absurd unending leaves.stopsAt.not_unending
      | cycle _ others => rw [visits.unique others]

/-! ### The search -/

theorem rootWithin_succ (context : Context) (bound : Nat) (seen : List String) (name : String) :
    context.rootWithin (bound + 1) seen name =
      if name ∈ seen then .error (.aliasCycle seen)
      else (context.find? name).elim (.error (.unknownBuffer name)) fun buffer =>
        buffer.target?.elim (.ok name) (context.rootWithin bound (seen ++ [name])) := by
  rw [rootWithin]
  by_cases repeated : name ∈ seen
  · simp [repeated, bind, Except.bind, throw, throwThe, MonadExceptOf.throw]
  · cases found : context.find? name with
    | none => simp [repeated, lookup, found, bind, Except.bind]
    | some buffer =>
        cases views : buffer.target? <;>
          simp [repeated, lookup, found, views, bind, Except.bind, pure, Except.pure]

/-- What holds before each step of a search from a name: the names that were seen are the first
ones of the chain, distinct and those of buffers, and the chain goes on with the current name. -/
structure Trail (context : Context) (name : String) (seen : List String) (current : String) :
    Prop where
  distinct : seen.Nodup
  known : ∀ visited ∈ seen, visited ∈ context.names
  inOrder : ∀ steps (inside : steps < seen.length), context.chainAt name steps = some seen[steps]
  reached : context.chainAt name seen.length = some current

namespace Trail

theorem start (context : Context) (name : String) : context.Trail name [] name where
  distinct := List.nodup_nil
  known := fun _ member => absurd member List.not_mem_nil
  inOrder := fun _ inside => absurd inside (Nat.not_lt_zero _)
  reached := rfl

/-- A step to the target of a reference. -/
theorem follow (trail : context.Trail name seen current) (fresh : current ∉ seen)
    (found : context.find? current = some buffer) (views : buffer.target? = some target) :
    context.Trail name (seen ++ [current]) target where
  distinct := by
    refine List.nodup_append.mpr ⟨trail.distinct, List.pairwise_singleton _ _, ?_⟩
    intro visited earlier last member
    rw [List.mem_singleton.mp member]
    exact fun same => fresh (same ▸ earlier)
  known := by
    intro visited member
    rcases List.mem_append.mp member with earlier | last
    · exact trail.known visited earlier
    · rw [List.mem_singleton.mp last]
      exact mem_names_of_find? found
  inOrder := by
    intro steps inside
    rcases Nat.lt_or_eq_of_le (Nat.le_of_lt_succ (List.length_append ▸ inside)) with earlier | rfl
    · rw [trail.inOrder steps earlier, List.getElem_append_left earlier]
    · rw [trail.reached, List.getElem_concat_length rfl]
  reached := by
    rw [List.length_append, List.length_singleton, chainAt_succ_of_eq_some trail.reached,
      targetOf_eq found, views]

/-- A search sees no more names than there are buffers. -/
theorem length_le (trail : context.Trail name seen current) :
    seen.length ≤ context.names.length :=
  (trail.distinct.subperm trail.known).length_le

/-- If the current name was seen, all names of the chain were. -/
theorem exists_mem (trail : context.Trail name seen current) (repeated : current ∈ seen)
    (steps : Nat) : ∃ visited ∈ seen, context.chainAt name steps = some visited := by
  induction steps with
  | zero =>
      have inside := List.length_pos_of_mem repeated
      exact ⟨seen[0], List.getElem_mem inside, trail.inOrder 0 inside⟩
  | succ steps ih =>
      obtain ⟨visited, member, reached⟩ := ih
      obtain ⟨index, inside, rfl⟩ := List.mem_iff_getElem.mp member
      -- The chain goes on as it did at the place where this name was seen.
      rw [chainAt_succ_of_eq_some reached, ← chainAt_succ_of_eq_some (trail.inOrder index inside)]
      rcases Nat.lt_or_eq_of_le (Nat.succ_le_of_lt inside) with next | last
      · exact ⟨_, List.getElem_mem next, trail.inOrder _ next⟩
      · rw [← Nat.succ_eq_add_one, last]
        exact ⟨current, repeated, trail.reached⟩

/-- The search ends with the shape of the chain. -/
theorem answers (trail : context.Trail name seen current)
    (resolves : context.Resolves seen current result) : context.Answers name result := by
  induction resolves with
  | cycle repeated =>
      refine .cycle (fun steps => ?_) ⟨trail.distinct, trail.inOrder, fun steps other reached => ?_⟩
      · obtain ⟨visited, -, reached⟩ := trail.exists_mem repeated steps
        rw [reached]
        rfl
      · obtain ⟨visited, member, same⟩ := trail.exists_mem repeated steps
        rwa [Option.some.inj (reached.symm.trans same)]
  | @missing seen current fresh absent =>
      refine .missing ⟨seen.length, trail.reached, isBuffer_eq_false_iff.mpr absent,
        fun earlier inside => ⟨seen[earlier], trail.inOrder earlier inside, ?_⟩⟩
      exact (isBuffer_iff_mem context _).mpr (trail.known _ (List.getElem_mem inside))
  | root fresh found owner =>
      exact .root ⟨_, _, trail.reached, found, Buffer.isReference_eq_false_iff.mpr owner⟩
  | follow fresh found views rest ih => exact ih (trail.follow fresh found views)

/-- With more steps than there are buffers the bound is never met. -/
theorem resolves_rootWithin (trail : context.Trail name seen current)
    (enough : context.names.length < seen.length + bound) :
    context.Resolves seen current (context.rootWithin bound seen current) := by
  induction bound generalizing seen current with
  | zero => exact absurd trail.length_le (Nat.not_le_of_lt enough)
  | succ bound ih =>
      rw [rootWithin_succ]
      by_cases repeated : current ∈ seen
      · rw [if_pos repeated]
        exact .cycle repeated
      · rw [if_neg repeated]
        cases found : context.find? current with
        | none => exact .missing repeated found
        | some buffer =>
            rw [Option.elim_some]
            cases views : buffer.target? with
            | none => exact .root repeated found views
            | some target =>
                refine .follow repeated found views (ih (trail.follow repeated found views) ?_)
                rw [List.length_append, List.length_singleton]
                omega

end Trail

theorem resolves_resolveRoot (context : Context) (name : String) :
    context.Resolves [] name (context.resolveRoot name) :=
  (Trail.start context name).resolves_rootWithin (by simp)

theorem answers_resolveRoot (context : Context) (name : String) :
    context.Answers name (context.resolveRoot name) :=
  (Trail.start context name).answers (context.resolves_resolveRoot name)

/-- A search answers what the shape of the chain asks for. -/
theorem resolveRoot_eq_iff : context.resolveRoot name = result ↔ context.Answers name result :=
  ⟨fun same => same ▸ context.answers_resolveRoot name, (context.answers_resolveRoot name).unique⟩

theorem answers_ok_iff : context.Answers name (.ok root) ↔ context.EndsAt name root :=
  ⟨fun answers => by cases answers; assumption, .root⟩

theorem answers_unknownBuffer_iff :
    context.Answers name (.error (.unknownBuffer missing)) ↔ context.LeavesAt name missing :=
  ⟨fun answers => by cases answers; assumption, .missing⟩

theorem answers_aliasCycle_iff : context.Answers name (.error (.aliasCycle visited)) ↔
    context.Unending name ∧ context.Visits name visited := by
  constructor
  · intro answers
    cases answers with
    | cycle unending visits => exact ⟨unending, visits⟩
  · exact fun ⟨unending, visits⟩ => .cycle unending visits

/-- **Finding the root of a name is exact.** Without a bound on its steps the search ends, and it
ends with this answer. The answer is a root exactly if the targets lead to that buffer and it is no
reference, an unknown name exactly if it is the first on the chain that denotes no buffer, and a
cycle exactly if the chain has no end; a cycle is reported with the names of the chain, each once
and in the order in which they come. There is no other answer. -/
theorem resolveRoot_exact (context : Context) (name : String) :
    (∀ result, context.Resolves [] name result ↔ result = context.resolveRoot name) ∧
    (∀ root, context.resolveRoot name = .ok root ↔ context.EndsAt name root) ∧
    (∀ missing, context.resolveRoot name = .error (.unknownBuffer missing) ↔
      context.LeavesAt name missing) ∧
    ((∃ visited, context.resolveRoot name = .error (.aliasCycle visited)) ↔
      context.Unending name) ∧
    (∀ visited, context.resolveRoot name = .error (.aliasCycle visited) →
      context.Visits name visited) ∧
    ((∃ root, context.resolveRoot name = .ok root) ∨
      (∃ missing, context.resolveRoot name = .error (.unknownBuffer missing)) ∨
      ∃ visited, context.resolveRoot name = .error (.aliasCycle visited)) := by
  have answer := context.answers_resolveRoot name
  refine ⟨fun result => ⟨fun resolves => ?_, fun same => ?_⟩,
    fun _ => resolveRoot_eq_iff.trans answers_ok_iff,
    fun _ => resolveRoot_eq_iff.trans answers_unknownBuffer_iff,
    ⟨fun ⟨_, failed⟩ => ?_, fun unending => ?_⟩, fun _ failed => ?_, ?_⟩
  · exact ((Trail.start context name).answers resolves).unique answer
  · exact same ▸ context.resolves_resolveRoot name
  · exact (answers_aliasCycle_iff.mp (resolveRoot_eq_iff.mp failed)).1
  · generalize context.resolveRoot name = result at answer ⊢
    cases answer with
    | root ends => exact absurd unending ends.stopsAt.not_unending
    | missing leaves => exact absurd unending leaves.stopsAt.not_unending
    | cycle => exact ⟨_, rfl⟩
  · exact (answers_aliasCycle_iff.mp (resolveRoot_eq_iff.mp failed)).2
  · generalize context.resolveRoot name = result at answer ⊢
    cases answer with
    | root => exact .inl ⟨_, rfl⟩
    | missing => exact .inr (.inl ⟨_, rfl⟩)
    | cycle => exact .inr (.inr ⟨_, rfl⟩)

/-- A global buffer, a local reference that hides it under its own name, and a view of that name. -/
def hiddenRootContext : Context where
  globals := ⟨[{ name := "b", type := ⟨0⟩, size := 64 }]⟩
  locals := ⟨[{ name := "b", type := ⟨0⟩, kind := .reference "b" 0 },
    { name := "v", type := ⟨0⟩, kind := .reference "b" 8 }]⟩

-- The local name is its own target, so the search from the view never gets to the global buffer.
example : hiddenRootContext.resolveRoot "v" = .error (.aliasCycle ["v", "b"]) := by decide

end Context

end TensorLowering
