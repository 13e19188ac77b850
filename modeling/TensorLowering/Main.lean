import TensorLowering.CommandLine.Run

/-! # The command `dlc` -/

namespace TensorLowering

namespace CommandLine

/-- The number of an error of the system, which some calls report with its sign changed. -/
def errorNumber (code : UInt32) : UInt32 := min code (0 - code)

/-- The fault of an error from the system. -/
def faultOfError (error : IO.Error) : FileFault :=
  match error with
  | .noFileOrDirectory .. => .missing
  | .inappropriateType _ code _ =>
      if errorNumber code = 20 then .notADirectory else .directory
  | .invalidArgument _ code details =>
      if errorNumber code = 36 then .nameTooLong else .other details
  | .permissionDenied _ code details =>
      if errorNumber code = 13 then .denied else .other details
  | .resourceExhausted _ code details =>
      if errorNumber code = 28 then .noSpace else .other details
  | .noSuchThing _ code details =>
      if errorNumber code = 6 then .noDevice else .other details
  | _ => .other (toString error)

/-- The files of the system. -/
def systemFiles : Files IO where
  read path := do
    try return .ok (← IO.FS.readBinFile path)
    catch error => return .error (faultOfError error)
  write path text := do
    try
      IO.FS.writeFile path text
      return .ok ()
    catch error => return .error (faultOfError error)

end CommandLine

end TensorLowering

/-- Run the command with its arguments. -/
def main (arguments : List String) : IO UInt32 := do
  let outcome ← TensorLowering.CommandLine.run TensorLowering.CommandLine.systemFiles arguments
  IO.print outcome.stdout
  IO.eprint outcome.stderr
  return outcome.exitCode.toUInt32
