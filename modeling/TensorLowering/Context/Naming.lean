import TensorLowering.Context.Basic

/-! # Names and definitions

A logical name is mangled to an identifier of its own once and for all. Hoisted code is
kept under its name; the same code may be hoisted again.
-/

namespace TensorLowering

namespace Context

/-- Replace what cannot stand in an identifier. -/
def sanitize (name : String) : String :=
  String.ofList (name.toList.map fun char => if isIdentifierChar char then char else '_')

/-- The candidates for an identifier: the base itself, then the base with a number. -/
def candidate (base : String) : Nat → String
  | 0 => base
  | number + 1 => base ++ "_" ++ toString (number + 1)

/-- Whether an identifier cannot be given to a logical name: it is given to another, or
another buffer has it. -/
def isTaken (context : Context) (name identifier : String) : Bool :=
  context.mangled.values.contains identifier ||
    (context.isBuffer identifier && identifier ≠ name)

/-- The first number from which a candidate is free; `bound` limits the search. -/
def freeNumber (taken : Nat → Bool) : (bound : Nat) → Nat → Nat
  | 0, number => number
  | bound + 1, number => if taken number then freeNumber taken bound (number + 1) else number

/-- The identifier for a logical name that has none yet. The candidates differ from each
other, so one more than there are names in use suffice. -/
def freshIdentifier (context : Context) (name : String) : String :=
  let base := context.namePrefix ++ sanitize name
  let bound := context.mangled.values.length + context.names.length
  candidate base (freeNumber (fun number => context.isTaken name (candidate base number)) bound 0)

/-- The identifier of a logical name. -/
def mangle (context : Context) (name : String) : String × Context :=
  match context.mangled.find? name with
  | some identifier => (identifier, context)
  | none =>
      let identifier := context.freshIdentifier name
      (identifier, { context with mangled := context.mangled.insert name identifier })

/-- A logical name keeps its identifier. -/
theorem mangle_mangle (context : Context) (name : String) :
    (context.mangle name).2.mangle name = context.mangle name := by
  cases held : context.mangled.find? name <;> simp [mangle, held]

/-- Hoist code under a name. The truth value tells whether it is new. -/
def hoist (context : Context) (name code : String) : Except Error (Bool × Context) :=
  match context.definitions.find? (·.name = name) with
  | some definition =>
      if definition.code = code then .ok (false, context)
      else .error (.definitionConflict name)
  | none => .ok (true, { context with definitions := context.definitions ++ [⟨name, code⟩] })

end Context

end TensorLowering
