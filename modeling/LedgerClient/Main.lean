import LedgerClient.Command.Run
import LedgerClient.Network.Offline
import Std.Time.DateTime.Timestamp
/-!
# The command line client

Reads the files that a command line names, runs it, and prints and writes what comes of it.  Nodes
are out of reach from here, so every dial fails.
-/

namespace LedgerClient

/-- The number of an error, which some calls give with its sign turned. -/
def errorNumber (code : UInt32) : UInt32 := min code (0 - code)

def faultOf : IO.Error → FileFault
  | .noFileOrDirectory .. => .missing
  | .inappropriateType _ code _ => if errorNumber code = 21 then .directory else .notDirectory
  | .permissionDenied _ code _ =>
    .other s!"Permission denied (os error {(errorNumber code).toNat})"
  | .invalidArgument _ code details =>
    if errorNumber code = 36 then .nameTooLong else .other details
  | e => .other (toString e)

def readPath (path : String) : IO (Except FileFault Bytes) :=
  try return .ok (← IO.FS.readBinFile path).toList
  catch e => return .error (faultOf e)

def writePath (path : String) (content : Bytes) : IO (Option CommandFault) :=
  try
    IO.FS.writeBinFile path ⟨content.toArray⟩
    return none
  catch e => return some (.file (faultOf e))

/-- The files at the given paths, as they are now. -/
def readPaths (paths : List String) : IO Files := do
  let found ← paths.mapM fun path => return (path, ← readPath path)
  return fun path => (found.lookup path).getD (.error .missing)

def present : IO Timestamp := do
  let nanoseconds := (← Std.Time.Timestamp.now).toNanosecondsSinceUnixEpoch.val
  return ⟨Int64.ofInt (nanoseconds.fdiv 1000000000), Int32.ofInt (nanoseconds.fmod 1000000000)⟩

def randomBytes (n : Nat) : IO Bytes := return (← IO.getRandomBytes (USize.ofNat n)).toList

/-- A fresh nonce for every number, all of them drawn from one random seed. -/
def drawNonces : IO (Nat → Bytes) := do
  let seed ← randomBytes 32
  return fun n => (hashOf (seed ++ littleEndian 8 n)).take nonceSize

def surroundingsOf (line : CommandLine) : IO Surroundings := do
  return {
    files := ← readPaths line.inputs
    network := .offline
    time := ← present
    throwaway := .ofSeed (← randomBytes 32)
    nonces := ← drawNonces }

/-- Prints and writes what came of a command; the exit code says whether it failed. -/
def conclude (result : CommandResult) : IO UInt32 := do
  if let some value := result.printed then IO.println value.pretty
  let written ← match result.written with
    | some (path, content) => writePath path content
    | none => pure none
  match result.fault <|> written with
  | none => return 0
  | some fault =>
    IO.eprintln s!"Error: {fault.message}"
    return 1

end LedgerClient

open LedgerClient in
def main (args : List String) : IO UInt32 := do
  match CommandLine.parse args with
  | .error .help =>
    IO.println usage
    return 0
  | .error (.fault fault) =>
    IO.eprintln s!"error: {fault.message}"
    return 2
  | .ok line =>
    match line.run (← surroundingsOf line) with
    | some result => conclude result
    | none => return 1
