import LedgerClient.Command.Run
/-!
# Disks

A disk as a value, so that commands can be run without one.  Files are known by their absolute
paths, and a path that holds files below it is a directory.  A path is followed part by part: every
part but the last has to lead to a directory.
-/

namespace LedgerClient

structure Disk where
  files : Dict Bytes := .empty
  /-- The directory in which relative paths start, part by part from the root. -/
  working : List String := []

namespace Disk

/-- Where the parts of a path lead from the root. -/
def absolute (parts : List String) : String := String.join (parts.map ("/" ++ ·))

/-- What a path leads to. -/
inductive Entry where
  | directory
  | file (content : Bytes)
  deriving DecidableEq

/-- The directories that every disk has. -/
def standardDirectories : List String :=
  ["", "/bin", "/boot", "/dev", "/etc", "/home", "/lib", "/media", "/mnt", "/opt", "/proc", "/root",
    "/run", "/sbin", "/srv", "/sys", "/tmp", "/usr", "/var"]

/-- The file that is always empty. -/
def sink : String := "/dev/null"

def isDirectory (d : Disk) (path : String) : Bool :=
  standardDirectories.contains path || (absolute d.working ++ "/").startsWith (path ++ "/") ||
    d.files.keys.any fun file => file.startsWith (path ++ "/")

def entry? (d : Disk) (parts : List String) : Option Entry :=
  let path := absolute parts
  if d.isDirectory path then some .directory
  else if path = sink then some (.file [])
  else (d.files.get? path).map .file

/-! ## Following paths -/

/-- The most bytes in a part of a path, and in a whole path. -/
def maxPart : Nat := 255

def maxPath : Nat := 4095

/-- Makes sure that a directory is there. -/
def enter (d : Disk) (parts : List String) : Except FileFault Unit :=
  match d.entry? parts with
  | some .directory => .ok ()
  | some (.file _) => .error .notDirectory
  | none => .error .missing

/-- Where one more part of a path leads. -/
def step (d : Disk) (place : List String) (part : String) : Except FileFault (List String) := do
  d.enter place
  if part = "." then return place
  else if part = ".." then return place.dropLast
  else if maxPart < part.utf8ByteSize then throw .nameTooLong
  else return place ++ [part]

structure Path where
  absolute : Bool
  parts : List String
  /-- Whether a slash follows the last part, so that only a directory will do. -/
  closed : Bool

def Path.ofText (text : String) : Except FileFault Path :=
  if text.isEmpty then .error .missing
  else if maxPath < text.utf8ByteSize then .error .nameTooLong
  else .ok {
    absolute := text.startsWith "/"
    parts := (text.splitOn "/").filter (· ≠ "")
    closed := text.endsWith "/" }

/-- Where a path starts. -/
def start (d : Disk) (path : Path) : List String := if path.absolute then [] else d.working

def read (d : Disk) : Files := fun text => do
  let path ← Path.ofText text
  match d.entry? (← path.parts.foldlM d.step (d.start path)) with
  | none => throw .missing
  | some .directory => throw .directory
  | some (.file content) => if path.closed then throw .notDirectory else return content

/-- The place of the file that a path names, which need not be there yet. -/
def locate (d : Disk) (text : String) : Except FileFault (List String) := do
  let path ← Path.ofText text
  if path.closed then
    d.enter (← path.parts.dropLast.foldlM d.step (d.start path))
    throw .directory
  else path.parts.foldlM d.step (d.start path)

def write (d : Disk) (text : String) (content : Bytes) : Except FileFault Disk := do
  let place ← d.locate text
  if d.entry? place = some .directory then throw .directory
  else if absolute place = sink then return d
  else return { d with files := d.files.insert (absolute place) content }

/-- The disk after a command, and how the command failed. -/
def apply (d : Disk) (result : CommandResult) : Disk × Option CommandFault :=
  match result.written with
  | none => (d, result.fault)
  | some (path, content) =>
    match d.write path content with
    | .ok d => (d, result.fault)
    | .error fault => (d, some (.file fault))

end Disk

end LedgerClient
