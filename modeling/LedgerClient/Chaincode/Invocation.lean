import LedgerClient.Error
import LedgerClient.Schema.Json
import LedgerClient.Text.Base64
import LedgerClient.Text.Blank
/-!
# Chaincode calls

An invocation names a chaincode and its arguments.  Transient data is for the endorsers only and
is given as a JSON object of Base64 texts.
-/

namespace LedgerClient

structure Invocation where
  chaincode : ChaincodeId
  lang : ChaincodeLang := .undefined
  args : List Bytes
  transient : Option String := none
  isInit : Bool := false
  deriving DecidableEq

/-- The call of a function with text arguments. -/
def Invocation.call (name function : String) (args : List String) : Invocation where
  chaincode := { path := "", name := name, version := "" }
  args := (function :: args).map Utf8.encode

/-- Decodes the fields in key order, up to the first that is no Base64. -/
def decodeTransient : List (String × String) → Except ClientError (List (String × Bytes))
  | [] => .ok []
  | (key, value) :: rest =>
    match Base64.decode (Utf8.encode value) with
    | .error fault => .error (.invalidArgument s!"transient field {key}: {fault.message}")
    | .ok bytes => do return (key, bytes) :: (← decodeTransient rest)

def transientOfJson (text : String) : Except ClientError (Dict Bytes) := do
  let fields ← (fromJsonText (Dict String) text).mapError .unreadable
  return Dict.ofList (← decodeTransient fields.entries)

/-- The transient data of a call; a blank text counts as none. -/
def Invocation.transientMap (i : Invocation) : Except ClientError (Dict Bytes) :=
  match i.transient with
  | none => .ok .empty
  | some text => if (trimBlank text.toList).isEmpty then .ok .empty else transientOfJson text

end LedgerClient
