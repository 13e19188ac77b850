import TensorLowering.CommandLine.Path
import TensorLowering.Dict

/-! # Hosts

A host in memory holds what a run of the command can reach: the files of its working
directory and its output streams. Each name of a path but the last has to lead to a
directory. Reading a path that ends in a slash asks for a directory as well. Writing
creates a file that does not exist yet, and no file can be created under a name that ends
in a slash.
-/

namespace TensorLowering

namespace CommandLine

/-- The files of a working directory and what was written to the output streams. -/
structure Host where
  files : Dict ByteArray := .empty
  stdout : String := ""
  stderr : String := ""

namespace Host

/-! ### Following paths -/

/-- What a name in a directory leads to. -/
def entry? (host : Host) : Folder → String → Option Place
  | .working, name => if host.files.contains name then some (.file name) else none
  | .system names, name => Place.known.lookup (names ++ [name])

/-- Follow one name. -/
def step (host : Host) : Place → String → Except FileFault Place
  | .folder folder, name =>
      if name = "." then .ok (.folder folder)
      else if name = ".." then .ok (.folder folder.parent)
      else if Path.nameLimit < name.utf8ByteSize then .error .nameTooLong
      else
        match host.entry? folder name with
        | some place => .ok place
        | none => .error .missing
  | .file _, _ | .device _, _ => .error .notADirectory

/-- Follow names one after the other. -/
def follow (host : Host) (start : Folder) (names : List String) : Except FileFault Place :=
  names.foldlM host.step (.folder start)

/-! ### Reading -/

/-- What can be read from a device. Nothing waits on the standard streams. -/
def readDevice : Device → Except FileFault ByteArray
  | .sink | .stdin | .stdout | .stderr => .ok .empty
  | .endless | .full => .error .outOfMemory
  | .terminal => .error .noDevice

/-- The contents of the file at a path. -/
def read (host : Host) (source : String) : Except FileFault ByteArray := do
  let path ← Path.ofText source
  match ← host.follow path.start path.names with
  | .folder _ => throw .directory
  | .file name =>
      if path.endsInSlash then throw .notADirectory
      else return host.files.getD name .empty
  | .device device => if path.endsInSlash then throw .notADirectory else readDevice device

/-! ### Writing -/

/-- Put a text into a file of the working directory. -/
def put (host : Host) (name text : String) : Host :=
  { host with files := host.files.insert name text.toUTF8 }

/-- Write a text to a device. -/
def writeDevice (host : Host) (text : String) : Device → Except FileFault Host
  | .sink | .endless | .stdin => .ok host
  | .full => if text.isEmpty then .ok host else .error .noSpace
  | .terminal => .error .noDevice
  | .stdout => .ok { host with stdout := host.stdout ++ text }
  | .stderr => .ok { host with stderr := host.stderr ++ text }

/-- Create a file with a text. A directory of processes takes no files, and a file outside
the working directory cannot be seen afterwards. -/
def create (host : Host) (folder : Folder) (name text : String) : Except FileFault Host :=
  match folder with
  | .working => .ok (host.put name text)
  | .system ("proc" :: _) => .error .missing
  | .system _ => .ok host

/-- Write a text under a name in a directory. -/
def writeIn (host : Host) (folder : Folder) (name text : String) : Except FileFault Host :=
  match host.step (.folder folder) name with
  | .ok (.folder _) => .error .directory
  | .ok (.file name) => .ok (host.put name text)
  | .ok (.device device) => host.writeDevice text device
  | .error .missing => host.create folder name text
  | .error fault => .error fault

/-- Write a text to the file at a path. -/
def write (host : Host) (target text : String) : Except FileFault Host := do
  let path ← Path.ofText target
  match path.names.getLast? with
  | none => throw .directory
  | some name =>
      match ← host.follow path.start path.names.dropLast with
      | .folder folder =>
          if path.endsInSlash then throw .directory else host.writeIn folder name text
      | .file _ | .device _ => throw .notADirectory

/-! ### Running the command -/

/-- Reading and writing the files of a host. -/
def access : Files (StateM Host) where
  read path := return (← get).read path
  write path text := do
    match (← get).write path text with
    | .ok host => set host; return .ok ()
    | .error fault => return .error fault

/-- Run the command on a host. Its own output follows what it wrote to the streams as
files. -/
def run (host : Host) (arguments : List String) : Nat × Host :=
  let (outcome, after) := (CommandLine.run access arguments).run host
  (outcome.exitCode, { after with
    stdout := after.stdout ++ outcome.stdout
    stderr := after.stderr ++ outcome.stderr })

end Host

end CommandLine

end TensorLowering
