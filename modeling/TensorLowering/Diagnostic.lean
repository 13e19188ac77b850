import TensorLowering.Error

/-! # Diagnostics

A diagnostic is what a reader of the output sees of an error: its code, where it arose,
its message and a hint.
-/

namespace TensorLowering

/-- How serious a diagnostic is. -/
inductive Severity where
  | error
  | warning
  deriving DecidableEq, Repr

/-- The word for a severity. -/
def Severity.label : Severity → String
  | .error => "error"
  | .warning => "warning"

/-- The operation and the pass in which something arose. -/
structure Origin where
  operation : String
  pass : String
  deriving DecidableEq, Repr

/-- A message to the reader. -/
structure Diagnostic where
  severity : Severity
  message : String
  code : Option String := none
  hint : Option String := none
  origin : Option Origin := none
  deriving DecidableEq, Repr

namespace Diagnostic

/-- The diagnostic of an error. -/
def ofError (error : Error) : Diagnostic :=
  { severity := .error, message := error.message, code := some error.code, hint := error.hint? }

/-- The text of a diagnostic. -/
def text (diagnostic : Diagnostic) : String :=
  let code := diagnostic.code.elim "" fun code => "[" ++ code ++ "]"
  let origin := diagnostic.origin.elim "" fun origin =>
    origin.operation ++ " (" ++ origin.pass ++ "): "
  let hint := diagnostic.hint.elim "" ("\n  hint: " ++ ·)
  diagnostic.severity.label ++ code ++ ": " ++ origin ++ diagnostic.message ++ hint

end Diagnostic

end TensorLowering
