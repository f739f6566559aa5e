import LedgerClient.Message.Chaincode
import LedgerClient.Json.Number
/-!
# Errors

Every way in which a request of the client can fail, with its text.  `isTimeout` marks expired
deadlines and `isCommitFailure` errors of a transaction that may have been ordered.
-/

namespace LedgerClient

/-- The phase in which a commit confirmation ran out of time. -/
inductive DeliverPhase where
  | connect
  | wait
  deriving DecidableEq, Repr

def DeliverPhase.name : DeliverPhase → String
  | .connect => "connect"
  | .wait => "wait"

/-- Why a file could not be read or written. -/
inductive FileFault where
  | missing
  | directory
  /-- A part of the path is a file. -/
  | notDirectory
  /-- The path or a part of it is too long. -/
  | nameTooLong
  | notText
  | other (reason : String)
  deriving DecidableEq, Repr

def FileFault.message : FileFault → String
  | .missing => "No such file or directory (os error 2)"
  | .directory => "Is a directory (os error 21)"
  | .notDirectory => "Not a directory (os error 20)"
  | .nameTooLong => "File name too long (os error 36)"
  | .notText => "stream did not contain valid UTF-8"
  | .other reason => reason

inductive ClientError where
  | invalidArgument (reason : String)
  | noResponses
  | transport (address reason : String)
  | endorsementFailed (status : Int32) (message : String)
  | endorsementMismatch
  | creatorMismatch
  | broadcastRejected (status : Status) (info : String)
  | txInvalidated (txId address : String) (code : TxValidationCode)
  | deliverCompleted (txId address : String) (status : Status)
  | unexpectedDeliverResponse (address detail : String)
  | deliverTimeout (phase : DeliverPhase) (txId : String) (milliseconds : Nat)
  | timeout (operation : String) (milliseconds : Nat)
  | organizationExists (name : String)
  | organizationNotFound (name : String)
  | consortiumNotFound (name : String)
  | alreadySigned (organization : String)
  | signatureMismatch (creator : String)
  | proposerMismatch (sponsor submitter : String)
  | configDelta (reason : String)
  | undecodable (fault : DecodeFault)
  | unreadable (fault : Json.Fault)
  | file (fault : FileFault)
  | signing (reason : String)
  deriving DecidableEq

namespace ClientError

def message : ClientError → String
  | invalidArgument reason => s!"invalid argument: {reason}"
  | noResponses => "no proposal responses received"
  | transport address reason => s!"transport error with {address}: {reason}"
  | endorsementFailed status message => s!"bad proposal response {status.toInt}: {message}"
  | endorsementMismatch => "proposal response payloads do not match"
  | creatorMismatch => "signer must be the same as the one referenced in the header"
  | broadcastRejected status info => s!"broadcast rejected with status {status.message}: {info}"
  | txInvalidated txId address code =>
    s!"transaction {txId} invalidated with status ({Enumeration.name code}) on {address}"
  | deliverCompleted txId address status =>
    s!"deliver completed with status ({status.message}) before txid {txId} received from {address}"
  | unexpectedDeliverResponse address detail =>
    s!"unexpected deliver response from {address}: {detail}"
  | deliverTimeout phase txId ms =>
    s!"timed out during deliver {phase.name} for txid {txId} after {ms}ms"
  | timeout operation ms => s!"{operation} timed out after {ms}ms"
  | organizationExists name => s!"organization {name} already exists"
  | organizationNotFound name => s!"organization {name} not found"
  | consortiumNotFound name => s!"consortium {name} not found"
  | alreadySigned organization => s!"organization {organization} has already signed"
  | signatureMismatch creator => s!"signature from {creator} was made over a different proposal"
  | proposerMismatch sponsor submitter =>
    s!"proposal must be submitted by its sponsor {sponsor}, got {submitter}"
  | configDelta reason => s!"config delta: {reason}"
  | undecodable fault => s!"codec error: {fault.message}"
  | unreadable _ => "codec error: invalid json"
  | file fault => s!"io error: {fault.message}"
  | signing reason => s!"signing error: {reason}"

def isTimeout : ClientError → Bool
  | deliverTimeout .. | timeout .. => true
  | _ => false

def isCommitFailure : ClientError → Bool
  | txInvalidated .. | deliverCompleted .. => true
  | unexpectedDeliverResponse .. | deliverTimeout .. => true
  | _ => false

end ClientError

/-- Reads a message, its fault being an error of the request. -/
def decodeMessage (α : Type) [Message α] (bs : Bytes) : Except ClientError α :=
  (fromWire α bs).mapError .undecodable

end LedgerClient
