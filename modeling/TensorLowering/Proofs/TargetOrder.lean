import TensorLowering.Proofs.LifetimePhases

/-! # Ordering names by their targets

Rounds over the names that remain place a name once its target is placed, if that is listed. So a
placed name comes after its target (`TensorLowering.Context.TargetsFirst`), and a name whose
targets never leave the list (`TensorLowering.Context.Endless`) is never placed. A round that
places no name has only such names left, and they are reported; without any all names are placed
(`TensorLowering.Context.sortByTargets_exact`).
-/

namespace TensorLowering

namespace Context

/-- The targets from a name go on without end, and all of them are listed. -/
def Endless (context : Context) (listed : List String) (name : String) : Prop :=
  ∃ chain : Nat → String, chain 0 = name ∧
    ∀ step, chain step ∈ listed ∧ context.targetOf (chain step) = some (chain (step + 1))

/-- Every name of a list that has a listed target comes after an occurrence of that target. -/
def TargetsFirst (context : Context) (listed names : List String) : Prop :=
  ∀ before name after, names = before ++ name :: after →
    ∀ target ∈ context.targetOf name, target ∈ listed → target ∈ before

/-- Whether a name has a target that is listed. -/
def hasListedTarget (context : Context) (listed : List String) (name : String) : Bool :=
  (context.targetOf name).any listed.contains

variable {context : Context} {listed placed remaining names : List String} {name : String}

/-! ### Endless targets -/

theorem Endless.mem (endless : context.Endless listed name) : name ∈ listed := by
  obtain ⟨chain, rfl, follows⟩ := endless
  exact (follows 0).1

/-- The target of a name with endless targets has endless targets. -/
theorem Endless.target (endless : context.Endless listed name) :
    ∃ target, context.targetOf name = some target ∧ context.Endless listed target := by
  obtain ⟨chain, rfl, follows⟩ := endless
  exact ⟨chain 1, (follows 0).2, fun step => chain (step + 1), rfl, fun step => follows (step + 1)⟩

/-- A set of listed names that holds the targets of its members has endless targets. -/
theorem endless_of_closed (closed : String → Prop)
    (stays : ∀ name, closed name → name ∈ listed ∧ ∃ target, context.targetOf name = some target ∧
      closed target) (member : closed name) : context.Endless listed name := by
  let next (name : String) : String := (context.targetOf name).getD name
  have next_eq : ∀ {name target}, context.targetOf name = some target → next name = target := by
    intro name target views
    simp only [next, views, Option.getD_some]
  have inside : ∀ step, closed (next^[step] name) := by
    intro step
    induction step with
    | zero => exact member
    | succ step ih =>
        obtain ⟨-, target, views, closedTarget⟩ := stays _ ih
        rw [Function.iterate_succ_apply', next_eq views]
        exact closedTarget
  refine ⟨(next^[·] name), rfl, fun step => ?_⟩
  obtain ⟨member, target, views, -⟩ := stays _ (inside step)
  refine ⟨member, views.trans (congrArg some ?_)⟩
  exact ((Function.iterate_succ_apply' next step name).trans (next_eq views)).symm

/-! ### Targets first -/

theorem targetsFirst_nil : context.TargetsFirst listed [] := by
  intro before name after split
  simp at split

/-- A name can be placed at the end once its target is placed, if that is listed. -/
theorem TargetsFirst.concat (first : context.TargetsFirst listed placed)
    (ready : ∀ target ∈ context.targetOf name, target ∈ listed → target ∈ placed) :
    context.TargetsFirst listed (placed ++ [name]) := by
  intro before other after split
  rcases List.eq_nil_or_concat after with rfl | ⟨rest, last, rfl⟩
  · obtain ⟨rfl, same⟩ := List.append_inj' split rfl
    obtain rfl := List.singleton_inj.mp same
    exact ready
  · rw [List.concat_eq_append, ← List.cons_append, ← List.append_assoc] at split
    exact first before other rest (List.append_inj' split rfl).1

/-- Where targets come first, the targets of every name end or leave the list. -/
theorem TargetsFirst.not_endless (first : context.TargetsFirst listed placed)
    (member : name ∈ placed) : ¬ context.Endless listed name := by
  obtain ⟨before, after, split⟩ := List.append_of_mem member
  -- The targets of an endless name would lead ever further to the front.
  induction size : before.length using Nat.strong_induction_on generalizing name before after with
  | _ size ih =>
      intro endless
      obtain ⟨target, views, endlessTarget⟩ := endless.target
      have earlier := first before name after split target views endlessTarget.mem
      obtain ⟨front, back, rfl⟩ := List.append_of_mem earlier
      refine ih front.length ?_ ?_ front (back ++ name :: after) ?_ rfl endlessTarget
      · rw [← size, List.length_append, List.length_cons]
        omega
      · rw [split]
        exact List.mem_append_left _ earlier
      · rw [split, List.append_assoc, List.cons_append]

/-! ### A round -/

theorem isWaiting_iff : context.isWaiting listed placed name = true ↔
    ∃ target, context.targetOf name = some target ∧ target ∈ listed ∧ target ∉ placed := by
  rw [isWaiting, ← targetOf]
  cases context.targetOf name with
  | none => simp
  | some target => simp

theorem mem_placed_of_not_isWaiting (ready : ¬ context.isWaiting listed placed name = true) :
    ∀ target ∈ context.targetOf name, target ∈ listed → target ∈ placed := by
  intro target views member
  by_contra missing
  exact ready (isWaiting_iff.mpr ⟨target, views, member, missing⟩)

/-- A name with endless targets waits for ever. -/
theorem Endless.isWaiting (endless : context.Endless listed name)
    (first : context.TargetsFirst listed placed) :
    context.isWaiting listed placed name = true := by
  obtain ⟨target, views, endlessTarget⟩ := endless.target
  refine isWaiting_iff.mpr ⟨target, views, endlessTarget.mem, fun member => ?_⟩
  exact first.not_endless member endlessTarget

theorem not_isWaiting_of_unlisted (unlisted : context.hasListedTarget listed name = false) :
    context.isWaiting listed placed name = false := by
  rw [← Bool.not_eq_true, isWaiting_iff]
  rintro ⟨target, views, member, -⟩
  rw [hasListedTarget, views, Option.any_some, List.contains_iff_mem.mpr member] at unlisted
  exact Bool.noConfusion unlisted

theorem prefix_sortRound (context : Context) (listed placed remaining : List String) :
    placed <+: (context.sortRound listed placed remaining).1 := by
  induction remaining generalizing placed with
  | nil => exact List.prefix_rfl
  | cons name rest ih =>
      rw [sortRound]
      split
      · exact ih placed
      · exact (List.prefix_append placed [name]).trans (ih _)

theorem TargetsFirst.sortRound (first : context.TargetsFirst listed placed)
    (remaining : List String) :
    context.TargetsFirst listed (context.sortRound listed placed remaining).1 := by
  induction remaining generalizing placed with
  | nil => exact first
  | cons name rest ih =>
      rw [Context.sortRound]
      split
      · exact ih first
      · next ready => exact ih (first.concat (mem_placed_of_not_isWaiting ready))

open Classical in
/-- No round places a name with endless targets. -/
theorem TargetsFirst.filter_blocked (first : context.TargetsFirst listed placed)
    (remaining : List String) :
    (context.sortRound listed placed remaining).2.filter (context.Endless listed ·) =
      remaining.filter (context.Endless listed ·) := by
  induction remaining generalizing placed with
  | nil => rfl
  | cons name rest ih =>
      by_cases waits : context.isWaiting listed placed name = true
      · rw [Context.sortRound, if_pos waits, List.filter_cons, List.filter_cons, ih first]
      · have ends : ¬ context.Endless listed name := fun endless => waits (endless.isWaiting first)
        rw [Context.sortRound, if_neg waits, List.filter_cons_of_neg (by simpa using ends)]
        exact ih (first.concat (mem_placed_of_not_isWaiting waits))

/-- The names without a listed target are placed by a round, in their order. -/
theorem filter_sortRound (context : Context) (listed placed remaining : List String) :
    (context.sortRound listed placed remaining).1.filter (!context.hasListedTarget listed ·) =
        (placed ++ remaining).filter (!context.hasListedTarget listed ·) ∧
      (context.sortRound listed placed remaining).2.filter (!context.hasListedTarget listed ·) =
        [] := by
  induction remaining generalizing placed with
  | nil => simp [sortRound]
  | cons name rest ih =>
      by_cases waits : context.isWaiting listed placed name = true
      · have targeted : context.hasListedTarget listed name = true := by
          by_contra unlisted
          rw [not_isWaiting_of_unlisted (Bool.eq_false_iff.mpr unlisted)] at waits
          exact Bool.noConfusion waits
        obtain ⟨placedKept, noneBlocked⟩ := ih placed
        rw [sortRound, if_pos waits]
        refine ⟨?_, ?_⟩
        · rw [placedKept, List.filter_append, List.filter_append,
            List.filter_cons_of_neg (by simp [targeted])]
        · rw [List.filter_cons_of_neg (by simp [targeted]), noneBlocked]
      · have later := ih (placed ++ [name])
        rw [← List.append_cons] at later
        rw [sortRound, if_neg waits]
        exact later

/-- A round that places no name has found each of them waiting. -/
theorem sortRound_stuck
    (stuck : (context.sortRound listed placed remaining).1.length = placed.length) :
    (context.sortRound listed placed remaining).2 = remaining ∧
      ∀ name ∈ remaining, context.isWaiting listed placed name = true := by
  induction remaining with
  | nil => exact ⟨rfl, fun _ member => absurd member List.not_mem_nil⟩
  | cons name rest ih =>
      by_cases waits : context.isWaiting listed placed name = true
      · rw [sortRound, if_pos waits] at stuck ⊢
        obtain ⟨same, others⟩ := ih stuck
        exact ⟨congrArg (name :: ·) same, List.forall_mem_cons.mpr ⟨waits, others⟩⟩
      · rw [sortRound, if_neg waits] at stuck
        have longer := (context.prefix_sortRound listed (placed ++ [name]) rest).length_le
        rw [stuck, List.length_append, List.length_singleton] at longer
        omega

/-- If all names that remain are waiting, the targets of each are endless. -/
theorem endless_of_waiting (perm : (placed ++ remaining).Perm listed)
    (waiting : ∀ name ∈ remaining, context.isWaiting listed placed name = true)
    (member : name ∈ remaining) : context.Endless listed name := by
  refine endless_of_closed (· ∈ remaining) (fun name member => ?_) member
  refine ⟨perm.mem_iff.mp (List.mem_append_right _ member), ?_⟩
  obtain ⟨target, views, isListed, missing⟩ := isWaiting_iff.mp (waiting name member)
  refine ⟨target, views, ?_⟩
  exact (List.mem_append.mp (perm.mem_iff.mpr isListed)).resolve_left missing

/-! ### All rounds -/

/-- A list holds the listed names in an order in which targets come first, and the names without a
listed target are in the order of the list. -/
structure TargetOrder (context : Context) (listed sorted : List String) : Prop where
  perm : sorted.Perm listed
  targetsFirst : context.TargetsFirst listed sorted
  stable : sorted.filter (!context.hasListedTarget listed ·) =
    listed.filter (!context.hasListedTarget listed ·)

open Classical in
/-- What holds before each round. -/
structure Rounds (context : Context) (listed placed remaining : List String) : Prop where
  perm : (placed ++ remaining).Perm listed
  targetsFirst : context.TargetsFirst listed placed
  stable : (placed ++ remaining).filter (!context.hasListedTarget listed ·) =
    listed.filter (!context.hasListedTarget listed ·)
  endless : remaining.filter (context.Endless listed ·) = listed.filter (context.Endless listed ·)

namespace Rounds

theorem start (context : Context) (listed : List String) : context.Rounds listed [] listed :=
  ⟨.refl _, targetsFirst_nil, rfl, rfl⟩

theorem round (rounds : context.Rounds listed placed remaining) :
    context.Rounds listed (context.sortRound listed placed remaining).1
      (context.sortRound listed placed remaining).2 := by
  obtain ⟨placedKept, noneBlocked⟩ := context.filter_sortRound listed placed remaining
  refine ⟨?_, ?_, ?_, ?_⟩
  · exact (context.perm_sortRound listed placed remaining).trans rounds.perm
  · exact rounds.targetsFirst.sortRound remaining
  · rw [List.filter_append, placedKept, noneBlocked, List.append_nil, rounds.stable]
  · rw [rounds.targetsFirst.filter_blocked, rounds.endless]

/-- When no name remains, all are placed in order, and none has endless targets. -/
theorem done (rounds : context.Rounds listed placed []) :
    (∀ name ∈ listed, ¬ context.Endless listed name) ∧ context.TargetOrder listed placed := by
  obtain ⟨perm, first, stable, endless⟩ := rounds
  rw [List.append_nil] at perm stable
  refine ⟨fun name member => ?_, perm, first, stable⟩
  exact first.not_endless (perm.mem_iff.mpr member)

open Classical in
/-- A round that places no name has only names with endless targets left, all that are listed. -/
theorem stuck (rounds : context.Rounds listed placed remaining)
    (same : (context.sortRound listed placed remaining).1.length = placed.length) :
    (context.sortRound listed placed remaining).2 = listed.filter (context.Endless listed ·) ∧
      ∀ name ∈ remaining, context.Endless listed name := by
  obtain ⟨allBlocked, waiting⟩ := sortRound_stuck same
  have endless : ∀ name ∈ remaining, context.Endless listed name :=
    fun _ member => endless_of_waiting rounds.perm waiting member
  refine ⟨?_, endless⟩
  rw [allBlocked, ← rounds.endless, eq_comm, List.filter_eq_self]
  exact fun name member => decide_eq_true (endless name member)

/-- A round that places a name leaves fewer names. -/
theorem length_blocked_lt
    (moved : (context.sortRound listed placed remaining).1.length ≠ placed.length) :
    (context.sortRound listed placed remaining).2.length < remaining.length := by
  have total := (context.perm_sortRound listed placed remaining).length_eq
  have longer := (context.prefix_sortRound listed placed remaining).length_le
  rw [List.length_append, List.length_append] at total
  omega

open Classical in
/-- As many rounds as there are names place all of them, or leave those with endless targets. -/
theorem sortWithin_cases (rounds : context.Rounds listed placed remaining) {bound : Nat}
    (enough : remaining.length ≤ bound) :
    ((∃ name ∈ listed, context.Endless listed name) ∧
      context.sortWithin listed bound placed remaining =
        .error (.aliasCycle (listed.filter (context.Endless listed ·)))) ∨
    ((∀ name ∈ listed, ¬ context.Endless listed name) ∧
      ∃ sorted, context.sortWithin listed bound placed remaining = .ok sorted ∧
        context.TargetOrder listed sorted) := by
  fun_induction sortWithin context listed bound placed remaining with
  | case1 bound placed =>
      obtain ⟨noneEndless, ordered⟩ := rounds.done
      exact .inr ⟨noneEndless, placed, rfl, ordered⟩
  | case2 placed remaining left =>
      exact absurd (List.length_eq_zero_iff.mp (Nat.le_zero.mp enough)) left
  | case3 bound placed remaining left after blocked round same =>
      have stuck := rounds.stuck (by rwa [round])
      rw [round] at stuck
      obtain ⟨name, member⟩ := List.exists_mem_of_ne_nil remaining left
      have endless := stuck.2 name member
      exact .inl ⟨⟨name, endless.mem, endless⟩, by rw [← stuck.1]⟩
  | case4 bound placed remaining left after blocked round moved ih =>
      have next := rounds.round
      have fewer : (context.sortRound listed placed remaining).2.length < remaining.length :=
        length_blocked_lt (by rwa [round])
      rw [round] at next fewer
      exact ih next (Nat.le_of_lt_succ (Nat.lt_of_lt_of_le fewer enough))

end Rounds

/-! ### Names that denote no buffer -/

/-- Looking up names stops at the first that denotes no buffer. -/
theorem forM_lookup (context : Context) (names : List String) :
    (names.forM fun name => discard (context.lookup name)) =
      (names.find? (!context.isBuffer ·)).elim (.ok ()) fun name =>
        .error (.unknownBuffer name) := by
  induction names with
  | nil => rfl
  | cons name names ih =>
      rw [List.forM, ih]
      cases found : context.find? name with
      | none =>
          have unknown : context.isBuffer name = false := isBuffer_eq_false_iff.mpr found
          rw [List.find?_cons_of_pos (by simp [unknown]), lookup, found]
          rfl
      | some buffer =>
          have known : context.isBuffer name = true := by
            rw [isBuffer_iff, found]
            rfl
          rw [List.find?_cons_of_neg (by simp [known]), lookup, found]
          rfl

theorem sortByTargets_of_unknown (unknown : names.find? (!context.isBuffer ·) = some name) :
    context.sortByTargets names = .error (.unknownBuffer name) := by
  rw [sortByTargets, forM_lookup, unknown]
  rfl

theorem sortByTargets_of_known (known : ∀ name ∈ names, context.isBuffer name = true) :
    context.sortByTargets names = context.sortWithin names names.length [] names := by
  have noneUnknown : names.find? (!context.isBuffer ·) = none := by
    rw [List.find?_eq_none]
    intro name member
    simp [known name member]
  rw [sortByTargets, forM_lookup, noneUnknown]
  rfl

theorem known_of_find?_eq_none (noneUnknown : names.find? (!context.isBuffer ·) = none) :
    ∀ name ∈ names, context.isBuffer name = true := by
  intro name member
  simpa using List.find?_eq_none.mp noneUnknown name member

/-- Names that were ordered have their targets first. -/
theorem targetOrder_of_sortByTargets {sorted : List String}
    (ordered : context.sortByTargets names = .ok sorted) : context.TargetOrder names sorted := by
  cases unknown : names.find? (!context.isBuffer ·) with
  | some name =>
      rw [sortByTargets_of_unknown unknown] at ordered
      cases ordered
  | none =>
      rw [sortByTargets_of_known (known_of_find?_eq_none unknown)] at ordered
      rcases (Rounds.start context names).sortWithin_cases (Nat.le_refl names.length) with
        ⟨-, stuck⟩ | ⟨-, placed, done, targetOrder⟩
      · cases stuck.symm.trans ordered
      · cases done.symm.trans ordered
        exact targetOrder

open Classical in
/-- **Ordering names by their targets is exact.** It fails on a name that denotes no buffer exactly
if there is one, and names the first. Otherwise it reports a cycle exactly if the targets of some
name are endless within the list, and the report lists all such names in their order. Otherwise it
returns the names, each after its target if that is listed, and the names without a listed target
in their order. -/
theorem sortByTargets_exact (context : Context) (names : List String) :
    (∀ name, context.sortByTargets names = .error (.unknownBuffer name) ↔
      names.find? (!context.isBuffer ·) = some name) ∧
    ((∀ name ∈ names, context.isBuffer name = true) →
      (∀ cycle, context.sortByTargets names = .error (.aliasCycle cycle) ↔
        (∃ name ∈ names, context.Endless names name) ∧
          cycle = names.filter (context.Endless names ·)) ∧
      ((∀ name ∈ names, ¬ context.Endless names name) →
        ∃ sorted, context.sortByTargets names = .ok sorted ∧
          context.TargetOrder names sorted)) := by
  have ordering := (Rounds.start context names).sortWithin_cases (Nat.le_refl names.length)
  refine ⟨fun name => ⟨fun failed => ?_, sortByTargets_of_unknown⟩,
    fun known => ⟨fun cycle => ?_, fun ends => ?_⟩⟩
  · cases unknown : names.find? (!context.isBuffer ·) with
    | some first =>
        rw [sortByTargets_of_unknown unknown] at failed
        cases failed
        rfl
    | none =>
        rw [sortByTargets_of_known (known_of_find?_eq_none unknown)] at failed
        rcases ordering with ⟨-, stuck⟩ | ⟨-, sorted, placed, -⟩
        · cases stuck.symm.trans failed
        · cases placed.symm.trans failed
  · rw [sortByTargets_of_known known]
    rcases ordering with ⟨endless, stuck⟩ | ⟨ends, sorted, placed, -⟩
    · rw [stuck, Except.error.injEq, Error.aliasCycle.injEq, eq_comm]
      exact (and_iff_right endless).symm
    · refine ⟨fun failed => ?_, fun ⟨⟨name, member, endless⟩, _⟩ => ?_⟩
      · cases placed.symm.trans failed
      · exact absurd endless (ends name member)
  · rw [sortByTargets_of_known known]
    rcases ordering with ⟨⟨name, member, endless⟩, -⟩ | ⟨-, ordered⟩
    · exact absurd endless (ends name member)
    · exact ordered

/-- A view of a view of a buffer, two references to each other, and a reference to one of these. -/
def circularContext : Context where
  locals := ⟨[
    { name := "b", type := ⟨0⟩, size := 64, aliases := ["v"] },
    { name := "v", type := ⟨0⟩, aliases := ["w"], kind := .reference "b" 0 },
    { name := "w", type := ⟨0⟩, kind := .reference "v" 8 },
    { name := "p", type := ⟨0⟩, aliases := ["q", "h"], kind := .reference "q" 0 },
    { name := "q", type := ⟨0⟩, aliases := ["p"], kind := .reference "p" 0 },
    { name := "h", type := ⟨0⟩, kind := .reference "p" 0 }]⟩

open Classical in
/-- The name that hangs off the cycle is reported with it. Without the names of the cycle the others
can be ordered. -/
theorem sortByTargets_exact_circularContext :
    (∀ name ∈ ["h", "w", "p", "v", "q", "b"], circularContext.isBuffer name = true) ∧
    ["h", "p", "q"] = ["h", "w", "p", "v", "q", "b"].filter
      (circularContext.Endless ["h", "w", "p", "v", "q", "b"] ·) ∧
    (∀ name ∈ ["h", "w", "v", "b"], ¬ circularContext.Endless ["h", "w", "v", "b"] name) ∧
    ∃ sorted, circularContext.sortByTargets ["h", "w", "v", "b"] = .ok sorted ∧
      circularContext.TargetOrder ["h", "w", "v", "b"] sorted := by
  have known : ∀ name ∈ ["h", "w", "p", "v", "q", "b"], circularContext.isBuffer name = true := by
    decide
  have reported : circularContext.sortByTargets ["h", "w", "p", "v", "q", "b"] =
    .error (.aliasCycle ["h", "p", "q"]) := by decide
  have ordered : circularContext.sortByTargets ["h", "w", "v", "b"] =
    .ok ["h", "b", "v", "w"] := by decide
  obtain ⟨cycles, -⟩ := (sortByTargets_exact circularContext _).2 known
  obtain ⟨otherCycles, orders⟩ :=
    (sortByTargets_exact circularContext ["h", "w", "v", "b"]).2 (by decide)
  have ends : ∀ name ∈ ["h", "w", "v", "b"],
      ¬ circularContext.Endless ["h", "w", "v", "b"] name := by
    intro name member endless
    have failed := (otherCycles _).mpr ⟨⟨name, member, endless⟩, rfl⟩
    cases ordered.symm.trans failed
  exact ⟨known, ((cycles _).mp reported).2, ends, orders ends⟩

end Context

end TensorLowering
