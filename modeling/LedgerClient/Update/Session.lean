import LedgerClient.Message.Configuration
import LedgerClient.Transaction.SignedEnvelope
/-!
# Signatures on configuration updates

An `UpdateSession` collects signatures for one update, at most one of each organization.
`checkAndSign` validates an envelope with an update and adds what the signer still has to add.
-/

namespace LedgerClient

/-- Signs a fresh header followed by the update. -/
def signConfigUpdate (signer : Signer) (update : Bytes) : Issuing ConfigSignature := do
  let header := toWire (← signer.newHeader)
  return { signatureHeader := header, signature := ← signer.sign (header ++ update) }

/-- The identity that a configuration signature names. -/
def ConfigSignature.creator (s : ConfigSignature) :
    Except ClientError (Bytes × SerializedIdentity) := do
  let header ← decodeMessage SignatureHeader s.signatureHeader
  return (header.creator, ← decodeMessage SerializedIdentity header.creator)

/-- The organization that made a signature, after the signature has been checked. -/
def verifyConfigSignature (s : ConfigSignature) (update : Bytes) : Except ClientError String := do
  let (creator, identity) ← s.creator
  (verifySignature creator (s.signatureHeader ++ update) s.signature).mapError fun _ =>
    .signatureMismatch identity.orgId
  return identity.orgId

/-- An update, and the signatures collected for it, by organization. -/
structure UpdateSession where
  channelId : String
  configUpdate : Bytes
  signatures : Dict ConfigSignature := .empty
  deriving DecidableEq

namespace UpdateSession

def start (channelId : String) (configUpdate : Bytes) : UpdateSession where
  channelId := channelId
  configUpdate := configUpdate

def store (s : UpdateSession) (organization : String) (signature : ConfigSignature) :
    UpdateSession :=
  { s with signatures := s.signatures.insert organization signature }

end UpdateSession

/-! ## Collecting -/

/-- A computation on a session.  It gives the session back where it fails as well. -/
abbrev Collecting := EStateM ClientError UpdateSession

namespace Collecting

/-- Adds the signature of the signer's organization.  The signer makes a header for it. -/
def signBy (signer : Signer) : EStateM ClientError (UpdateSession × HeaderSource) Unit := do
  let (s, headers) ← get
  if s.signatures.contains signer.orgId then throw (.alreadySigned signer.orgId)
  match signConfigUpdate signer s.configUpdate headers with
  | .ok signature headers => set (s.store signer.orgId signature, headers)
  | .error e headers =>
    set (s, headers)
    throw e

/-- Adds a signature made elsewhere; the same one again changes nothing. -/
def addSignature (signature : ConfigSignature) : Collecting Unit := do
  let s ← get
  match verifyConfigSignature signature s.configUpdate with
  | .error e => throw e
  | .ok organization =>
    match s.signatures.get? organization with
    | some existing => if existing ≠ signature then throw (.alreadySigned organization)
    | none => set (s.store organization signature)

end Collecting

namespace UpdateSession

/-- The session with the signature of the signer's organization. -/
def signBy (s : UpdateSession) (signer : Signer) : Issuing UpdateSession := fun headers =>
  match Collecting.signBy signer (s, headers) with
  | .ok () (s, headers) => .ok s headers
  | .error e (_, headers) => .error e headers

/-- The session with a signature made elsewhere. -/
def addSignature (s : UpdateSession) (signature : ConfigSignature) :
    Except ClientError UpdateSession :=
  match Collecting.addSignature signature s with
  | .ok () s => .ok s
  | .error e _ => .error e

/-- The message with the update and its signatures, in the order of the organizations. -/
def message (s : UpdateSession) : ConfigUpdateEnvelope where
  configUpdate := s.configUpdate
  signatures := s.signatures.entries.map (·.2)

/-- The unsigned envelope that carries the update. -/
def envelope (s : UpdateSession) (time : Timestamp) : Envelope :=
  let channelHeader := plainChannelHeader .configUpdate time s.channelId none
  let payload : Payload := {
    header := some { channelHeader := toWire channelHeader, signatureHeader := [] }
    data := toWire s.message }
  { payload := toWire payload, signature := [] }

end UpdateSession

/-- Whether a signature names the organization as its maker; the signature is not checked. -/
def ConfigSignature.isFrom (s : ConfigSignature) (organization : String) : Bool :=
  match s.creator with
  | .ok (_, identity) => identity.orgId = organization
  | .error _ => false

/-- The channel and the update of an envelope that is to be signed for `channelId`; an empty id
takes the channel of the envelope. -/
def updateIn (envelope : Envelope) (channelId : String) :
    Except ClientError (String × ConfigUpdateEnvelope) := do
  let payload ← decodeMessage Payload envelope.payload
  match payload.header with
  | none => throw (.invalidArgument "bad header")
  | some header =>
    let channelHeader ← decodeMessage ChannelHeader header.channelHeader
    if channelHeader.headerType ≠ .configUpdate then
      throw (.invalidArgument s!"bad type {Enumeration.name channelHeader.headerType}")
    if channelHeader.channelId.isEmpty then throw (.invalidArgument "empty channel id")
    let channel := if channelId.isEmpty then channelHeader.channelId else channelId
    if channelHeader.channelId ≠ channel then
      throw (.invalidArgument s!"mismatched channel name {channelHeader.channelId} != {channel}")
    return (channel, ← decodeMessage ConfigUpdateEnvelope payload.data)

/-- Validates an envelope with an update, adds the signature of the signer's organization where
it is missing, and signs the whole. -/
def checkAndSign (envelope : Envelope) (signer : Signer) (channelId : String) :
    Issuing Envelope := do
  let (channel, update) ← updateIn envelope channelId
  let update ←
    if update.signatures.any (·.isFrom signer.orgId) then pure update
    else do
      let signature ← signConfigUpdate signer update.configUpdate
      pure { update with signatures := update.signatures ++ [signature] }
  signedEnvelope .configUpdate channel signer (toWire update) none

end LedgerClient
