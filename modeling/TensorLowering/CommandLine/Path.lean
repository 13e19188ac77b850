import TensorLowering.CommandLine.Run
import TensorLowering.Text.Lines

/-! # Paths

A path is a sequence of names, followed from the working directory, or from the root if it
starts with a slash. It leads to a directory, to a file of the working directory, or to one
of the devices that every system has.
-/

namespace TensorLowering

namespace CommandLine

/-- A directory on the way of a path: the working one, or one given by its names from the
root. -/
inductive Folder where
  | working
  | system (names : List String)
  deriving DecidableEq, Repr

/-- The directory above. The working directory lies among the temporary files, and the
root lies in itself. -/
def Folder.parent : Folder → Folder
  | .working => .system ["tmp"]
  | .system names => .system names.dropLast

/-- A file that the system provides. `sink` takes all that is written and `full` nothing,
`endless` can be read without end, `terminal` is the terminal of a run that has none, and
the others are the standard streams. -/
inductive Device where
  | sink
  | endless
  | full
  | terminal
  | stdin
  | stdout
  | stderr
  deriving DecidableEq, Repr

/-- What a path leads to. -/
inductive Place where
  | folder (folder : Folder)
  | file (name : String)
  | device (device : Device)
  deriving DecidableEq, Repr

namespace Place

/-- The directory of the open files of a run. -/
def descriptors : List String := ["proc", "self", "fd"]

/-- What the names from the root lead to, as far as every system has it. -/
def known : List (List String × Place) :=
  (["bin", "dev", "etc", "home", "lib", "mnt", "opt", "proc", "root", "run", "sbin", "srv", "sys",
      "tmp", "usr", "var"].map fun name => ([name], .folder (.system [name]))) ++
    [(["dev", "fd"], .folder (.system descriptors)),
      (["dev", "null"], .device .sink),
      (["dev", "zero"], .device .endless),
      (["dev", "random"], .device .endless),
      (["dev", "urandom"], .device .endless),
      (["dev", "full"], .device .full),
      (["dev", "tty"], .device .terminal),
      (["dev", "stdin"], .device .stdin),
      (["dev", "stdout"], .device .stdout),
      (["dev", "stderr"], .device .stderr),
      (["proc", "self"], .folder (.system ["proc", "self"])),
      (["proc", "self", "cwd"], .folder .working),
      (["proc", "self", "root"], .folder (.system [])),
      (descriptors, .folder (.system descriptors)),
      (descriptors ++ ["0"], .device .stdin),
      (descriptors ++ ["1"], .device .stdout),
      (descriptors ++ ["2"], .device .stderr)]

end Place

/-- A path cut into names. -/
structure Path where
  start : Folder
  names : List String
  endsInSlash : Bool
  deriving DecidableEq, Repr

namespace Path

/-- The most bytes in a path. -/
def lengthLimit : Nat := 4095

/-- The most bytes in a name of a path. -/
def nameLimit : Nat := 255

/-- Cut a path at its slashes. -/
def ofText (text : String) : Except FileFault Path :=
  let pieces := (Text.splitChar '/' text.toList).map String.ofList
  if text.isEmpty then .error .missing
  else if lengthLimit < text.utf8ByteSize then .error .nameTooLong
  else .ok {
    start := if pieces.head? = some "" then .system [] else .working
    names := pieces.filter (· ≠ "")
    endsInSlash := pieces.getLast? = some "" }

end Path

end CommandLine

end TensorLowering
