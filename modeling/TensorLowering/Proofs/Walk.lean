import Mathlib.Logic.Relation
import TensorLowering.Reach

/-! # What a walk visits

A walk lists exactly the names of the graph that its stack leads to
(`TensorLowering.Reach.mem_walk`). Visited names are taken out of the graph, so the proof
follows the steps that are left and compares paths in a graph with paths around a visited
name.
-/

namespace TensorLowering

namespace Reach

open Relation

/-- A name leads to each of its successors. -/
def Edge (graph : Graph) (source target : String) : Prop :=
  ∃ successors, Dict.search source graph = some successors ∧ target ∈ successors

/-- A stack leads to a name of the graph. -/
def LeadsTo (graph : Graph) (stack : List String) (name : String) : Prop :=
  (Dict.search name graph).isSome ∧ ∃ source ∈ stack, ReflTransGen (Edge graph) source name

/-! ### Graphs of a successor function -/

theorem search_map (names : List String) (successors : String → List String) (name : String) :
    Dict.search name (names.map fun name => (name, successors name)) =
      if name ∈ names then some (successors name) else none := by
  induction names with
  | nil => rfl
  | cons head rest ih =>
      rw [List.map_cons, Dict.search, ih]
      by_cases here : head = name
      · simp [here]
      · simp [here, Ne.symm here]

theorem edge_map_iff {names : List String} {successors : String → List String}
    (bounded : ∀ name, name ∉ names → successors name = []) (source target : String) :
    Edge (names.map fun name => (name, successors name)) source target ↔
      target ∈ successors source := by
  rw [Edge, search_map]
  by_cases known : source ∈ names
  · simp [known]
  · simp [known, bounded source known]

/-! ### Taking a name out of a graph -/

theorem search_filter (graph : Graph) (name other : String) :
    Dict.search other (graph.filter (·.1 ≠ name)) =
      if name = other then none else Dict.search other graph := by
  induction graph with
  | nil => simp [Dict.search]
  | cons entry rest ih => grind [Dict.search]

theorem edge_filter_iff (graph : Graph) (name source target : String) :
    Edge (graph.filter (·.1 ≠ name)) source target ↔ source ≠ name ∧ Edge graph source target := by
  unfold Edge
  rw [search_filter]
  by_cases same : name = source
  · simp [same]
  · simp [same, Ne.symm same]

theorem edgeCount_cons (entry : String × List String) (graph : Graph) :
    edgeCount (entry :: graph) = entry.2.length + edgeCount graph := rfl

theorem edgeCount_filter_le (graph : Graph) (name : String) :
    edgeCount (graph.filter (·.1 ≠ name)) ≤ edgeCount graph := by
  induction graph with
  | nil => exact Nat.le_refl _
  | cons entry rest ih =>
      rw [List.filter_cons, edgeCount_cons]
      split
      · rw [edgeCount_cons]
        omega
      · omega

/-- The edges of a name are no longer counted once it is taken out. -/
theorem edgeCount_filter {graph : Graph} {name : String} {successors : List String}
    (found : Dict.search name graph = some successors) :
    successors.length + edgeCount (graph.filter (·.1 ≠ name)) ≤ edgeCount graph := by
  induction graph with
  | nil => simp [Dict.search] at found
  | cons entry rest ih =>
      rw [Dict.search] at found
      rw [edgeCount_cons]
      by_cases here : entry.1 = name
      · rw [if_pos here, Option.some.injEq] at found
        have fewer := edgeCount_filter_le rest name
        rw [List.filter_cons_of_neg (by simpa using here), ← found]
        omega
      · rw [if_neg here] at found
        have fewer := ih found
        rw [List.filter_cons_of_pos (by simpa using here), edgeCount_cons]
        omega

/-- A path either ends in a name, or has a last part that avoids it. That part starts
where the path starts, or at a successor of the name. -/
theorem path_around {graph : Graph} {name source target : String}
    (path : ReflTransGen (Edge graph) source target) :
    target = name ∨ ∃ start, (start = source ∨ Edge graph name start) ∧
      ReflTransGen (Edge (graph.filter (·.1 ≠ name))) start target := by
  induction path with
  | refl => exact .inr ⟨source, .inl rfl, .refl⟩
  | @tail middle target _ edge ih =>
      by_cases through : middle = name
      · exact .inr ⟨target, .inr (through ▸ edge), .refl⟩
      · obtain ⟨start, origin, avoiding⟩ := ih.resolve_left through
        exact .inr ⟨start, origin,
          avoiding.tail ((edge_filter_iff graph name middle target).mpr ⟨through, edge⟩)⟩

/-! ### The walk -/

/-- Taking the first name of a stack that is in the graph: the stack leads to that name,
and to what its successors and the rest of the stack lead to around it. -/
theorem leadsTo_cons_iff {graph : Graph} {name : String} {successors stack : List String}
    (found : Dict.search name graph = some successors) (target : String) :
    LeadsTo graph (name :: stack) target ↔
      target = name ∨
        LeadsTo (graph.filter (·.1 ≠ name)) (successors.reverse ++ stack) target := by
  constructor
  · rintro ⟨node, source, member, path⟩
    by_cases same : target = name
    · exact .inl same
    obtain ⟨start, origin, avoiding⟩ := (path_around path).resolve_left same
    have nodeLeft : (Dict.search target (graph.filter (·.1 ≠ name))).isSome := by
      rw [search_filter, if_neg (Ne.symm same)]
      exact node
    refine .inr ⟨nodeLeft, ?_⟩
    rcases origin with rfl | ⟨others, known, next⟩
    · rcases List.mem_cons.mp member with rfl | later
      · -- the path starts at the name that was taken out, so it cannot leave it
        rcases ReflTransGen.cases_head avoiding with rfl | ⟨_, edge, _⟩
        · exact absurd rfl same
        · exact absurd rfl ((edge_filter_iff graph _ _ _).mp edge).1
      · exact ⟨start, List.mem_append_right _ later, avoiding⟩
    · obtain rfl : successors = others := Option.some.inj (found.symm.trans known)
      exact ⟨start, List.mem_append_left _ (List.mem_reverse.mpr next), avoiding⟩
  · rintro (rfl | ⟨node, source, member, path⟩)
    · exact ⟨by simp [found], target, List.mem_cons_self, .refl⟩
    rw [search_filter] at node
    have present : (Dict.search target graph).isSome := by
      split at node
      · simp at node
      · exact node
    have whole : ReflTransGen (Edge graph) source target :=
      ReflTransGen.mono (fun _ _ edge => ((edge_filter_iff graph name _ _).mp edge).2) _ _ path
    rcases List.mem_append.mp member with next | later
    · have first : Edge graph name source := ⟨successors, found, List.mem_reverse.mp next⟩
      exact ⟨present, name, List.mem_cons_self, .head first whole⟩
    · exact ⟨present, source, List.mem_cons_of_mem _ later, whole⟩

/-- A name outside the graph leads nowhere. -/
theorem leadsTo_cons_of_absent {graph : Graph} {name : String} {stack : List String}
    (absent : Dict.search name graph = none) (target : String) :
    LeadsTo graph (name :: stack) target ↔ LeadsTo graph stack target := by
  constructor
  · rintro ⟨node, source, member, path⟩
    rcases List.mem_cons.mp member with rfl | later
    · rcases ReflTransGen.cases_head path with rfl | ⟨_, ⟨_, known, _⟩, _⟩
      · simp [absent] at node
      · simp [absent] at known
    · exact ⟨node, source, later, path⟩
  · rintro ⟨node, source, member, path⟩
    exact ⟨node, source, List.mem_cons_of_mem _ member, path⟩

theorem mem_walkWithin (bound : Nat) (graph : Graph) (stack : List String)
    (enough : stack.length + edgeCount graph ≤ bound) (target : String) :
    target ∈ walkWithin bound graph stack ↔ LeadsTo graph stack target := by
  induction bound generalizing graph stack with
  | zero =>
      obtain rfl : stack = [] := List.length_eq_zero_iff.mp (by omega)
      simp [walkWithin, LeadsTo]
  | succ bound ih =>
      cases stack with
      | nil => simp [walkWithin, LeadsTo]
      | cons name stack =>
          rw [List.length_cons] at enough
          rw [walkWithin]
          cases found : Dict.search name graph with
          | none =>
              simp only
              rw [leadsTo_cons_of_absent found]
              exact ih graph stack (by omega)
          | some successors =>
              -- The successors that go on the stack are paid for by the edges taken out.
              have spent := edgeCount_filter found
              simp only [List.mem_cons]
              rw [leadsTo_cons_iff found, ih]
              rw [List.length_append, List.length_reverse]
              omega

/-- **A walk visits what its stack leads to.** -/
theorem mem_walk (graph : Graph) (stack : List String) (target : String) :
    target ∈ walk graph stack ↔ LeadsTo graph stack target :=
  mem_walkWithin _ graph stack (Nat.le_refl _) target

end Reach

end TensorLowering
