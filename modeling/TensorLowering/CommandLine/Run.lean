import TensorLowering.CommandLine.Arguments
import TensorLowering.Plan

/-! # Running the command

The command reads a plan, lowers it, and writes code, context or report. It is stated for
any way to reach files.
-/

namespace TensorLowering

namespace CommandLine

/-- Why a file cannot be used. -/
inductive FileFault where
  | missing
  | directory
  | notADirectory
  | nameTooLong
  | denied
  | noSpace
  | noDevice
  | outOfMemory
  | notText
  | other (message : String)
  deriving DecidableEq, Repr

/-- The wording of a fault. -/
def FileFault.message : FileFault → String
  | .missing => "No such file or directory (os error 2)"
  | .directory => "Is a directory (os error 21)"
  | .notADirectory => "Not a directory (os error 20)"
  | .nameTooLong => "File name too long (os error 36)"
  | .denied => "Permission denied (os error 13)"
  | .noSpace => "No space left on device (os error 28)"
  | .noDevice => "No such device or address (os error 6)"
  | .outOfMemory => "out of memory"
  | .notText => "stream did not contain valid UTF-8"
  | .other message => message

/-- A way to read and write files by path. -/
structure Files (m : Type → Type) where
  read : String → m (Except FileFault ByteArray)
  write : String → String → m (Except FileFault Unit)

/-- What a run of the command shows to its caller. -/
structure Outcome where
  exitCode : Nat := 0
  stdout : String := ""
  stderr : String := ""
  deriving DecidableEq, Repr, Inhabited

namespace Outcome

/-- A run that fails with a message. -/
def failed (exitCode : Nat) (message : String) : Outcome :=
  { exitCode, stderr := "dlc: " ++ message ++ "\n" }

/-- A run that checked arithmetic has stopped. -/
def overflowed : Outcome :=
  { exitCode := 101, stderr := "attempt to add with overflow\n" }

/-- A run that fails because of a file. -/
def fileFailed (path : String) (fault : FileFault) : Outcome :=
  failed 2 ("error: " ++ path ++ ": " ++ fault.message)

end Outcome

/-- The text of the version. -/
def versionText : String := "dlc 0.1.0\n"

/-- What the command does. -/
def aboutText : String :=
  "Deployment Lowering Compiler — lowers scheduled tensor operations to C " ++
    "with explicit memory management"

/-- How the command is called. -/
def usageText : String := "Usage: dlc [OPTIONS] <PLAN>"

/-- The lines on the arguments. The full form describes each kind of output. -/
def HelpForm.lines : HelpForm → List String
  | .summary =>
      ["Arguments:",
       "  <PLAN>  Input deployment plan (JSON)",
       "",
       "Options:",
       "  -o, --output <OUTPUT>  Output file path (stdout when omitted)",
       "      --emit <EMIT>      Output stage [default: code] " ++
         "[possible values: code, context, report]",
       "  -v, --verbose          Print pass decisions and timing",
       "  -h, --help             Print help (see more with '--help')",
       "  -V, --version          Print version"]
  | .full =>
      ["Arguments:",
       "  <PLAN>",
       "          Input deployment plan (JSON)",
       "",
       "Options:",
       "  -o, --output <OUTPUT>",
       "          Output file path (stdout when omitted)",
       "",
       "      --emit <EMIT>",
       "          Output stage",
       "          ",
       "          [default: code]",
       "",
       "          Possible values:",
       "          - code:    Generated C code",
       "          - context: Final context as JSON",
       "          - report:  Per-level arena usage",
       "",
       "  -v, --verbose",
       "          Print pass decisions and timing",
       "",
       "  -h, --help",
       "          Print help (see a summary with '-h')",
       "",
       "  -V, --version",
       "          Print version"]

/-- The text of the help. -/
def helpText (form : HelpForm) : String :=
  "".intercalate (([aboutText, "", usageText, ""] ++ form.lines).map (· ++ "\n"))

/-- The report on the arenas. -/
def reportText (context : Context) : String :=
  "level\tcurrent\tpeak\n" ++
    "".intercalate (context.arenaUsage.map fun (level, current, peak) =>
      level ++ "\t" ++ toString current ++ "\t" ++ toString peak ++ "\n")

/-- The output of a lowered plan. -/
def emitText (plan : Plan) (program : Program) (context : Context) : Emit → String
  | .code => program.text plan.entry
  | .context => context.text ++ "\n"
  | .report => reportText context

/-- The output for the contents of a plan file, or a run that failed. -/
def lowerText (emit : Emit) (text : String) : Except Outcome String :=
  match Plan.ofText text with
  | .error error => .error (.failed 2 (Diagnostic.ofError error).text)
  | .ok plan =>
      let (result, context) := plan.run
      if context.overflowed then .error .overflowed
      else
        match result with
        | .error failure => .error (.failed 1 failure.diagnostic.text)
        | .ok program => .ok (emitText plan program context emit)

/-- The text in a file. -/
def decodeText (contents : Except FileFault ByteArray) : Except FileFault String := do
  match String.fromUTF8? (← contents) with
  | some text => return text
  | none => throw .notText

/-- Lower a plan file and write the output. -/
def lowerFile {m : Type → Type} [Monad m] (files : Files m) (options : Options) : m Outcome := do
  match decodeText (← files.read options.plan) with
  | .error fault => return .fileFailed options.plan fault
  | .ok text =>
      match lowerText options.emit text, options.output with
      | .error outcome, _ => return outcome
      | .ok output, none => return { stdout := output }
      | .ok output, some path =>
          match ← files.write path output with
          | .error fault => return .fileFailed path fault
          | .ok () => return {}

/-- Run the command. -/
def run {m : Type → Type} [Monad m] (files : Files m) (arguments : List String) : m Outcome :=
  match Request.ofArguments arguments with
  | .error fault =>
      return { exitCode := 2, stderr := "error: " ++ fault.message ++ "\n\n" ++ usageText ++ "\n" }
  | .ok .version => return { stdout := versionText }
  | .ok (.help form) => return { stdout := helpText form }
  | .ok (.lower options) => lowerFile files options

end CommandLine

end TensorLowering
