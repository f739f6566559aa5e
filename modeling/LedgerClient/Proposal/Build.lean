import LedgerClient.Identity.Signer
import LedgerClient.Proposal.Request
/-!
# Proposals

A proposal is a request with a header.  `proposalFor` puts the two together; `buildProposal`
checks the request first, so that a request that is refused makes no header.
-/

namespace LedgerClient

/-- A proposal and the id of the transaction it starts. -/
structure BuiltProposal where
  proposal : Proposal
  txId : String
  deriving DecidableEq

/-- The proposal that makes a call under a given header. -/
def proposalFor (header : SignatureHeader) (time : Timestamp) (headerType : HeaderType)
    (channelId : String) (spec : ChaincodeSpec) (transient : Dict Bytes) : BuiltProposal :=
  let txId := txIdOf header
  let extension : ChaincodeHeaderExtension := { chaincodeId := spec.chaincodeId }
  let channelHeader : ChannelHeader := {
    headerType := headerType, version := 0, timestamp := time, channelId := channelId
    txId := txId, epoch := 0, extension := toWire extension, tlsCertHash := none }
  let call : ChaincodeInvocationSpec := { chaincodeSpec := spec }
  let payload : ChaincodeProposalPayload := { input := toWire call, transientMap := transient }
  let headers : Header :=
    { channelHeader := toWire channelHeader, signatureHeader := toWire header }
  { proposal := { header := toWire headers, payload := toWire payload }, txId := txId }

/-- The channel that the header of a request names. -/
def channelFor (request : Request) (channelId : String) : Except ClientError String :=
  if !request.isChannelScoped then .ok ""
  else if channelId.isEmpty then .error (.invalidArgument "channel id is required")
  else .ok channelId

def buildProposal (signer : Signer) (channelId : String) (request : Request) :
    Issuing BuiltProposal := do
  let channel ← channelFor request channelId
  let (spec, transient) ← request.spec channel
  let time := (← get).time
  let header ← signer.newHeader
  return proposalFor header time request.headerType channel spec transient

end LedgerClient
