import TensorLowering.Context.Basic
import TensorLowering.Reach

/-! # Aliases

A reference has a target, which may be a reference again. The root of a name is the
buffer at the end of its chain of targets. In the other direction the alias lists tell
which references view a buffer.
-/

namespace TensorLowering

namespace Context

/-- Follow targets from a name to the buffer that owns the storage; `seen` lists the
names on the way, and `bound` limits the number of steps. -/
def rootWithin (context : Context) :
    (bound : Nat) → (seen : List String) → String → Except Error String
  | 0, seen, _ => .error (.aliasCycle seen)
  | bound + 1, seen, name => do
      if seen.contains name then throw (.aliasCycle seen)
      match (← context.lookup name).target? with
      | some target => context.rootWithin bound (seen ++ [name]) target
      | none => return name

/-- The buffer at the end of the chain of targets of a name. A chain without repetition
is no longer than the number of buffers. -/
def resolveRoot (context : Context) (name : String) : Except Error String :=
  context.rootWithin (context.names.length + 1) [] name

/-- The aliases of a name; none if it denotes no buffer. -/
def aliasesOf (context : Context) (name : String) : List String :=
  ((context.find? name).map Buffer.aliases).getD []

/-- The alias lists of all buffers. -/
def aliasGraph (context : Context) : Reach.Graph :=
  context.names.map fun name => (name, context.aliasesOf name)

/-- The references that view a name, directly or through others. -/
def aliasClosure (context : Context) (name : String) : List String :=
  Reach.walk context.aliasGraph (context.aliasesOf name).reverse

/-- Whether a name denotes a live buffer. -/
def isLive (context : Context) (name : String) : Bool :=
  ((context.find? name).map Buffer.live).getD false

/-- Whether a live reference views a buffer, directly or through others. -/
def hasLiveAliases (context : Context) (name : String) : Except Error Bool := do
  let _ ← context.lookup name
  return (context.aliasClosure name).any context.isLive

/-! ### Ordering by targets -/

/-- Whether a name has to wait: its target is listed and not yet placed. -/
def isWaiting (context : Context) (listed placed : List String) (name : String) : Bool :=
  match (context.find? name).bind Buffer.target? with
  | some target => listed.contains target && !placed.contains target
  | none => false

/-- One round over the names that remain: the names placed so far with those placed now,
and the names that have to wait. -/
def sortRound (context : Context) (listed placed : List String) :
    List String → List String × List String
  | [] => (placed, [])
  | name :: rest =>
      if context.isWaiting listed placed name then
        let (placed, blocked) := sortRound context listed placed rest
        (placed, name :: blocked)
      else sortRound context listed (placed ++ [name]) rest

/-- Rounds until no name remains; a round that places none shows a cycle. -/
def sortWithin (context : Context) (listed : List String) :
    (bound : Nat) → (placed remaining : List String) → Except Error (List String)
  | _, placed, [] => .ok placed
  | 0, _, remaining => .error (.aliasCycle remaining)
  | bound + 1, placed, remaining =>
      let (after, blocked) := context.sortRound listed placed remaining
      if after.length = placed.length then .error (.aliasCycle blocked)
      else context.sortWithin listed bound after blocked

/-- Order names so that a reference comes after its target if that is listed too; other
names keep their order. -/
def sortByTargets (context : Context) (names : List String) : Except Error (List String) := do
  names.forM fun name => discard (context.lookup name)
  context.sortWithin names names.length [] names

end Context

end TensorLowering
