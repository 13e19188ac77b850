/-! # Kinds of passes

The kinds with their names and what they rely on. A kind lists the kinds that have to run
before it where both are in a pipeline; `PassKind.violations` lists the pairs in the wrong
order.
-/

namespace TensorLowering

/-- The kinds of passes. -/
inductive PassKind where
  | tileViews
  | tileUpdates
  | tileLoop
  | futures
  | closures
  | windowedClosures
  | structs
  | lifetimes
  | bookkeeping
  deriving DecidableEq, Repr, Inhabited

namespace PassKind

/-- All kinds. -/
def all : List PassKind :=
  [.tileViews, .tileUpdates, .tileLoop, .futures, .closures, .windowedClosures, .structs,
    .lifetimes, .bookkeeping]

/-- The name of a kind. -/
def name : PassKind → String
  | .tileViews => "tiling_variable_replacement"
  | .tileUpdates => "variable_replacement_update"
  | .tileLoop => "tile_loop_generation"
  | .futures => "future_resolution"
  | .closures => "closure_generation"
  | .windowedClosures => "memory_aware_closure_generation"
  | .structs => "struct_initialization"
  | .lifetimes => "memory_management"
  | .bookkeeping => "memory_passthrough"

/-- The kind with a name. -/
def ofName? (text : String) : Option PassKind := all.find? (·.name = text)

/-- The kinds that have to run earlier. -/
def after : PassKind → List PassKind
  | .tileViews => []
  | .tileUpdates => [.tileViews]
  | .tileLoop => [.tileViews, .tileUpdates]
  | .futures => []
  | .closures => [.tileLoop, .futures]
  | .windowedClosures => [.tileLoop, .futures]
  | .structs => [.closures, .windowedClosures]
  | .lifetimes => [.tileViews, .tileLoop]
  | .bookkeeping => [.tileViews, .tileLoop]

/-- What a kind changes in the context. -/
def mutates : PassKind → String
  | .tileViews => "arena, table and view buffers; hoisted tables"
  | .tileUpdates => "nothing"
  | .tileLoop => "nothing"
  | .futures => "state buffer users"
  | .closures => "args struct buffer, struct types, hoisted definitions"
  | .windowedClosures => "args struct buffer, struct types, hoisted definitions"
  | .structs => "nothing"
  | .lifetimes => "liveness flags, arena counters"
  | .bookkeeping => "liveness flags, arena counters"

/-- What a kind keeps. -/
def invariants : PassKind → String
  | .tileViews => "at most one annotated fragment; consistent tile counts"
  | .tileUpdates => "per-tile updates precede the kernel"
  | .tileLoop => "views declared before the loop"
  | .futures => "dispatch in producer, resolve in first consumer"
  | .closures => "one definition per closure name"
  | .windowedClosures => "one definition per closure name"
  | .structs => "struct buffers initialised before use"
  | .lifetimes => "no double allocation or free; views after targets"
  | .bookkeeping => "no double allocation or free"

/-- The violations in a pipeline whose passes before it were of the kinds `seen`. -/
def violationsAfter (seen : List PassKind) : List PassKind → List (PassKind × PassKind)
  | [] => []
  | kind :: kinds =>
      ((kind.after.filter fun required => !seen.contains required && kinds.contains required).map
        (kind, ·)) ++ violationsAfter (kind :: seen) kinds

/-- The pairs of a kind and one that has to run earlier, but first occurs later. -/
def violations (kinds : List PassKind) : List (PassKind × PassKind) := violationsAfter [] kinds

/-- The wording of a violation. -/
def warning (violation : PassKind × PassKind) : String :=
  violation.2.name ++ " runs before " ++ violation.1.name ++ " but expects its output"

end PassKind

end TensorLowering
