import LedgerClient.Channel.Source
import LedgerClient.Client.BlockFetcher
import LedgerClient.Client.Lifecycle
/-!
# Channels

Channels are created and changed through the ordering service.  Peers join a channel by its first
block and tell which channels they have joined.
-/

namespace LedgerClient

/-- Signs the envelope that creates a channel and has it ordered. -/
def createChannel (orderer : Orderer) (signer : Signer) (channelId : String)
    (source : ChannelSource) (milliseconds : Nat) : Client Unit := do
  let envelope ← source.envelope channelId (← Client.progress).headers.time
  let signed ← checkAndSign envelope signer channelId
  broadcastEnvelope orderer signed milliseconds

/-- Signs the envelope that changes a channel and has it ordered; an empty id takes the channel
that the envelope names. -/
def updateChannel (orderer : Orderer) (signer : Signer) (channelId : String)
    (envelope : Envelope) (milliseconds : Nat) : Client Unit := do
  let signed ← checkAndSign envelope signer channelId
  broadcastEnvelope orderer signed milliseconds

/-- The answer to a join; a failure is put down to the peer by its address. -/
def joinResponse (address : String) : Except ClientError ProposalResponse → Response
  | .ok answer => answer.response
  | .error e =>
    { status := statusInternalError, message := e.message, payload := Utf8.encode address }

/-- Has one peer after the other join a channel by its first block, which the orderer gives. -/
def joinChannel (orderer : Orderer) (signer : Signer) (peers : List Endorser)
    (channelId : String) (milliseconds : Nat) : Client (List Response) := do
  let fetcher : BlockFetcher := {
    orderer := orderer, signer := signer, channelId := channelId
    bestEffort := true, timeoutMs := milliseconds }
  let genesis ← fetcher.specified 0
  let built ← buildProposal signer "" (.joinChannel (toWire genesis))
  let signed ← signProposal built.proposal signer
  peers.mapM fun peer => do
    let answer ← Client.attempt (endorseOne signed peer milliseconds)
    return joinResponse peer.id.address answer

/-- The channels that a peer has joined. -/
def listChannels (signer : Signer) (peer : Endorser) (milliseconds : Nat) :
    Client (List String) := do
  let response ← queryPeer signer peer "" .listChannels milliseconds
  return (← decodeMessage ChannelQueryResponse response.payload).channels.map (·.channelId)

def chainInfo (signer : Signer) (peer : Endorser) (channelId : String) (milliseconds : Nat) :
    Client BlockchainInfo := do
  let response ← queryPeer signer peer channelId .chainInfo milliseconds
  decodeMessage BlockchainInfo response.payload

namespace BlockFetcher

/-- The block of a number, or the newest one. -/
def block (f : BlockFetcher) : Option UInt64 → Client Block
  | some number => f.specified number
  | none => f.newest

/-- The configuration in force. -/
def config (f : BlockFetcher) : Client ConfigEnvelope := do
  let block ← f.configBlock
  block.configEnvelope

end BlockFetcher

end LedgerClient
