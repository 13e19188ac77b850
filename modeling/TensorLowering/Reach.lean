import TensorLowering.Dict

/-! # Walking a finite graph

A graph gives each of finitely many names a list of successors. `Reach.walk` lists the
names that can be reached from a stack of names, each once, depth first and with the
last successor first. Names outside the graph are passed over.
-/

namespace TensorLowering

namespace Reach

/-- A finite graph on names. -/
abbrev Graph := List (String × List String)

/-- The number of edges. -/
def edgeCount : Graph → Nat
  | [] => 0
  | (_, successors) :: rest => successors.length + edgeCount rest

/-- Walk from a stack; a name that has been visited is taken out of the graph, and
`bound` limits the number of steps. -/
def walkWithin : (bound : Nat) → Graph → (stack : List String) → List String
  | 0, _, _ => []
  | _ + 1, _, [] => []
  | bound + 1, graph, name :: stack =>
      match Dict.search name graph with
      | none => walkWithin bound graph stack
      | some successors =>
          name :: walkWithin bound (graph.filter (·.1 ≠ name)) (successors.reverse ++ stack)

/-- The names that can be reached from a stack of names. Every step takes a name off the
stack, and each edge puts at most one name on it. -/
def walk (graph : Graph) (stack : List String) : List String :=
  walkWithin (stack.length + edgeCount graph) graph stack

end Reach

end TensorLowering
