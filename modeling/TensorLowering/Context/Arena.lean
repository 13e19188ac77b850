import TensorLowering.Context.Alias

/-! # Arenas

Each memory level has an arena with a counter of the bytes in use and its high-water
mark. Allocating a buffer charges its footprint to its level. Freeing it returns the
bytes, unless a live alias still views the buffer: then the release is pending until
the last alias dies.

A counter has 64 bits and wraps around. A build with checked arithmetic stops there
instead, so the context keeps in mind that it has happened.
-/

namespace TensorLowering

namespace Context

/-- The bytes in use in a level. -/
def inUse (context : Context) (level : String) : Nat := context.dynamicSize.getD level 0

/-- The most bytes that were ever in use in a level. -/
def peak (context : Context) (level : String) : Nat := context.maxDynamicSize.getD level 0

/-- The first number that a counter cannot hold. -/
def counterLimit : Nat := Nat.pow 2 64

/-- Take bytes of a level. The counter wraps around at its limit. -/
def reserve (context : Context) (level : String) (bytes : Nat) : Context :=
  let total := context.inUse level + bytes
  let current := total % counterLimit
  { context with
    dynamicSize := context.dynamicSize.insert level current
    maxDynamicSize := context.maxDynamicSize.insert level (max (context.peak level) current)
    overflowed := context.overflowed || decide (counterLimit ≤ total) }

/-- Return bytes of a level; the counter stops at zero. -/
def release (context : Context) (level : String) (bytes : Nat) : Context :=
  { context with dynamicSize := context.dynamicSize.insert level (context.inUse level - bytes) }

/-- Reserving moves the counter of one level and leaves the others alone. -/
theorem inUse_reserve (context : Context) (level other : String) (bytes : Nat) :
    (context.reserve level bytes).inUse other =
      if level = other then (context.inUse level + bytes) % counterLimit
      else context.inUse other := by
  simp only [inUse, reserve, Dict.getD, Dict.find?_insert]
  split <;> rfl

/-- Reserving is exact as long as no counter has wrapped around. -/
theorem overflowed_reserve_eq_false_iff {context : Context} {level : String} {bytes : Nat} :
    (context.reserve level bytes).overflowed = false ↔
      context.overflowed = false ∧ context.inUse level + bytes < counterLimit := by
  simp [reserve]

theorem inUse_reserve_of_exact {context : Context} {level : String} {bytes : Nat}
    (exact : (context.reserve level bytes).overflowed = false) (other : String) :
    (context.reserve level bytes).inUse other =
      context.inUse other + if level = other then bytes else 0 := by
  have fits := (overflowed_reserve_eq_false_iff.mp exact).2
  rw [inUse_reserve]
  split
  · next same => rw [Nat.mod_eq_of_lt fits, same]
  · rfl

/-- A counter that wraps around falls behind. -/
theorem inUse_reserve_le (context : Context) (level other : String) (bytes : Nat) :
    (context.reserve level bytes).inUse other ≤
      context.inUse other + if level = other then bytes else 0 := by
  rw [inUse_reserve]
  split
  · next same => exact same ▸ Nat.mod_le _ _
  · exact Nat.le_refl _

/-- Reserving lifts the peak of one level to what is then in use, if that is more. -/
theorem peak_reserve (context : Context) (level other : String) (bytes : Nat) :
    (context.reserve level bytes).peak other =
      if level = other then max (context.peak level) ((context.reserve level bytes).inUse level)
      else context.peak other := by
  rw [inUse_reserve, if_pos rfl]
  simp only [peak, reserve, Dict.getD, Dict.find?_insert]
  split <;> rfl

/-- Releasing takes from one level and leaves the others alone. -/
theorem inUse_release (context : Context) (level other : String) (bytes : Nat) :
    (context.release level bytes).inUse other =
      context.inUse other - if level = other then bytes else 0 := by
  simp only [inUse, release, Dict.getD, Dict.find?_insert]
  split <;> simp_all

/-- Releasing lowers no peak. -/
theorem peak_release (context : Context) (level other : String) (bytes : Nat) :
    (context.release level bytes).peak other = context.peak other := rfl

/-- The levels that have seen an allocation, with the bytes in use and the peak. -/
def arenaUsage (context : Context) : List (String × Nat × Nat) :=
  context.maxDynamicSize.entries.map fun (level, peak) => (level, context.inUse level, peak)

/-- Settle a release that is pending for a buffer. -/
def settle (context : Context) (buffer : Buffer) : Context :=
  { context with pendingRelease := context.pendingRelease.erase buffer.name }.release
    buffer.levelKey buffer.footprint

/-- Make a buffer live and charge its footprint. A release that is still pending belongs
to the old storage and is settled first. -/
def allocate (context : Context) (name operation : String) : Except Error Context := do
  let buffer ← context.lookup name
  if buffer.live then throw (.doubleAllocation name operation)
  let context := if context.pendingRelease.contains name then context.settle buffer else context
  return (context.modify name ({ · with live := true })).reserve buffer.levelKey buffer.footprint

/-- Settle the pending releases along the chain of targets from a name, as far as no live
alias holds them; `released` lists those settled so far. -/
def settleChain : (bound : Nat) → Context → (released : List String) → String →
    Except Error (List String) × Context
  | 0, context, released, _ => (.ok released, context)
  | bound + 1, context, released, name =>
      if context.pendingRelease.contains name then
        match context.lookup name, context.hasLiveAliases name with
        | .error error, _ => (.error error, context)
        | _, .error error => (.error error, context)
        | .ok _, .ok true => (.ok released, context)
        | .ok buffer, .ok false =>
            let context := context.settle buffer
            match buffer.target? with
            | some target => settleChain bound context (released ++ [name]) target
            | none => (.ok (released ++ [name]), context)
      else (.ok released, context)

/-- Make a buffer dead. The names are those of the buffers whose storage this returned.
The buffer is dead afterwards even if following its targets fails. -/
def deallocate (context : Context) (name operation : String) :
    Except Error (List String) × Context :=
  match context.lookup name with
  | .error error => (.error error, context)
  | .ok buffer =>
      if !buffer.live then (.error (.doubleFree name operation), context)
      else
        let context := context.modify name ({ · with live := false })
        match buffer.target? with
        | some target => settleChain (context.pendingRelease.keys.length + 1) context [] target
        | none =>
            match context.hasLiveAliases name with
            | .error error => (.error error, context)
            | .ok true =>
                (.ok [], { context with pendingRelease := context.pendingRelease.insert name () })
            | .ok false => (.ok [name], context.release buffer.levelKey buffer.footprint)

end Context

end TensorLowering
