import LedgerClient.Client.Channel
import LedgerClient.Client.Membership
import LedgerClient.Network.Socket
/-!
# Gateway

One identity, one set of nodes, and every capability of the client in one form of answer: a
status, a message and bytes.
-/

namespace LedgerClient

structure GatewayResponse where
  status : Int32
  message : String
  payload : Bytes
  deriving DecidableEq

namespace GatewayResponse

def ok (payload : Bytes) : GatewayResponse := ⟨statusOk, "", payload⟩

def ofResponse (r : Response) : GatewayResponse := ⟨r.status, r.message, r.payload⟩

def isSuccess (r : GatewayResponse) : Bool := LedgerClient.isSuccess r.status

/-- A transaction that succeeded reports its id as message. -/
def ofTx (t : TxResponse) : GatewayResponse :=
  let r := ofResponse t.response
  if r.isSuccess then { r with message := t.txId } else r

/-- A value in JSON form as payload. -/
def json {α : Type} [Layout α] (message : String) (a : α) : GatewayResponse :=
  ⟨statusOk, message, Utf8.encode (toJsonText a)⟩

end GatewayResponse

structure Gateway where
  signer : Signer
  endpoints : Endpoints
  platforms : PlatformRegistry := {}
  deltaComputer : DeltaComputer := computeDelta

namespace Gateway

/-- The endpoints that settings name.  All peers endorse and confirm. -/
def endpointsOf (network : Network) (settings : Settings) : Endpoints :=
  let connectMs := settings.timeouts.connectMs.toNat
  { orderer := network.orderer connectMs ⟨.orderer, 0, settings.orderer.address⟩
    endorsers := settings.peers.mapIdx fun i peer =>
      network.endorser connectMs ⟨.endorser, i, peer.address⟩
    delivers := settings.peers.mapIdx fun i peer =>
      network.deliverPeer connectMs ⟨.deliver, i, peer.address⟩
    committer? := settings.committerAddress?.map fun address =>
      network.endorser connectMs ⟨.committer, 0, address⟩
    timeouts := settings.timeouts }

/-- A gateway to the nodes that settings name; no node is dialed before a call needs it. -/
def connect (network : Network) (settings : Settings) (signer : Signer) :
    Except ClientError Gateway :=
  if settings.peers.isEmpty then .error (.invalidArgument "at least one peer is required")
  else .ok { signer := signer, endpoints := endpointsOf network settings }

/-- Transactions wait for commit unless the settings say not to. -/
def commitWait (g : Gateway) : Option Nat := g.endpoints.timeouts.commit?

def fetcher (g : Gateway) (channelId : String) : BlockFetcher where
  orderer := g.endpoints.orderer
  signer := g.signer
  channelId := channelId
  tlsCertHash := g.endpoints.tlsCertHash
  timeoutMs := g.endpoints.broadcastMs

/-! ## Chaincode -/

/-- The payload is the report of the installation. -/
def installChaincode (g : Gateway) (installer : ChaincodeInstaller) : Client GatewayResponse := do
  let report ← install g.signer g.endpoints.endorsers installer g.platforms g.endpoints.endorseMs
  return { GatewayResponse.json report.packageId report with status := report.status }

def approveChaincode (g : Gateway) (channelId : String) (definition : ChaincodeDefinition)
    (packageId : Option String) : Client GatewayResponse :=
  .ofTx <$> approve g.signer g.endpoints channelId definition packageId g.commitWait

def commitChaincode (g : Gateway) (channelId : String) (definition : ChaincodeDefinition) :
    Client GatewayResponse :=
  .ofTx <$> commit g.signer g.endpoints channelId definition g.commitWait

def invoke (g : Gateway) (channelId : String) (invocation : Invocation) :
    Client GatewayResponse :=
  .ofTx <$> LedgerClient.invoke g.signer g.endpoints channelId (.invoke invocation) g.commitWait

def query (g : Gateway) (channelId : String) (invocation : Invocation) :
    Client GatewayResponse := do
  let tx ← LedgerClient.query g.signer g.endpoints channelId (.query invocation)
  return .ofResponse tx.response

/-! ## Channels -/

def createChannel (g : Gateway) (channelId : String) (source : ChannelSource) :
    Client GatewayResponse := do
  LedgerClient.createChannel g.endpoints.orderer g.signer channelId source g.endpoints.broadcastMs
  return .ok []

/-- The answer to a join of several peers: the first one that is not 200 decides. -/
def joinAnswer (responses : List Response) : GatewayResponse :=
  match responses.find? fun r => r.status ≠ statusOk with
  | some failed => .ofResponse failed
  | none => .ok []

def joinChannel (g : Gateway) (channelId : String) : Client GatewayResponse :=
  joinAnswer <$> LedgerClient.joinChannel g.endpoints.orderer g.signer g.endpoints.endorsers
    channelId g.endpoints.endorseMs

/-- Signs an encoded envelope with an update and has it ordered. -/
def updateChannel (g : Gateway) (channelId : String) (envelope : Bytes) :
    Client GatewayResponse := do
  let envelope ← decodeMessage Envelope envelope
  LedgerClient.updateChannel g.endpoints.orderer g.signer channelId envelope
    g.endpoints.broadcastMs
  return .ok []

/-- The payload is the list of the channels that the committer has joined. -/
def listChannels (g : Gateway) : Client GatewayResponse := do
  let peer ← g.endpoints.committer
  let channels ← LedgerClient.listChannels g.signer peer g.endpoints.endorseMs
  return .json "" channels

/-- The payload is the encoded block. -/
def fetchBlock (g : Gateway) (channelId : String) (number : Option UInt64) :
    Client GatewayResponse := do
  return .ok (toWire (← (g.fetcher channelId).block number))

/-- The payload is the encoded configuration. -/
def fetchConfig (g : Gateway) (channelId : String) : Client GatewayResponse := do
  return .ok (toWire (← (g.fetcher channelId).config))

/-! ## Membership -/

/-- The payload is the proposal, to be handed to other organizations. -/
def initiateProposal (g : Gateway) (channelId : String) (change : ConfigChange) :
    Client GatewayResponse := do
  let fetcher := { g.fetcher channelId with tlsCertHash := none }
  return .json "" (← initiateChange fetcher change g.deltaComputer)

/-- The payload is the signature, to be handed to the sponsor. -/
def signProposal (g : Gateway) (proposal : MembershipProposal) : Client GatewayResponse := do
  let signature ← proposal.sign g.signer
  return .json signature.creator signature

def submitProposal (g : Gateway) (proposal : MembershipProposal)
    (signatures : List ProposalSignature) : Client GatewayResponse := do
  submitChange g.endpoints.orderer g.signer proposal signatures g.endpoints.broadcastMs
  return .ok []

end Gateway

end LedgerClient
