import LedgerClient.Error
/-!
# Install packages

A package is given as bytes or as a file, or made from sources by the platform of their language.
-/

namespace LedgerClient

structure Platform where
  lang : ChaincodeLang
  /-- Makes the package of the sources at a path. -/
  package : (path label : String) → Except ClientError Bytes

/-- The platforms at hand, the one registered last first. -/
structure PlatformRegistry where
  platforms : List Platform := []

namespace PlatformRegistry

/-- Adds a platform in place of an earlier one for the same language. -/
def register (r : PlatformRegistry) (p : Platform) : PlatformRegistry := ⟨p :: r.platforms⟩

def get (r : PlatformRegistry) (lang : ChaincodeLang) : Except ClientError Platform :=
  match r.platforms.find? fun p => p.lang = lang with
  | some p => .ok p
  | none =>
    .error (.invalidArgument s!"no platform registered for {Enumeration.name lang}")

end PlatformRegistry

inductive ChaincodeInstaller where
  | bytes (package : Bytes)
  /-- What was found where the package should be. -/
  | file (content : Except FileFault Bytes)
  | source (path label : String) (lang : ChaincodeLang)

def ChaincodeInstaller.package (registry : PlatformRegistry) :
    ChaincodeInstaller → Except ClientError Bytes
  | bytes package => .ok package
  | file content => content.mapError .file
  | source path label lang => do (← registry.get lang).package path label

end LedgerClient
