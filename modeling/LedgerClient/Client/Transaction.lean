import LedgerClient.Client.Broadcast
import LedgerClient.Client.DeliverGroup
import LedgerClient.Client.Endorsement
import LedgerClient.Client.Endpoints
import LedgerClient.Proposal.Build
import LedgerClient.Transaction.Assemble
/-!
# Transactions from request to commit

A request is endorsed by all peers, merged into one envelope, ordered, and confirmed on every
deliver peer where the caller wants to wait for that.  The streams of confirmation are open before
the envelope goes out, so that its block cannot be missed.
-/

namespace LedgerClient

structure TxResponse where
  txId : String
  response : Response
  deriving DecidableEq

/-- A proposal with the responses of the peers. -/
structure EndorsedProposal where
  txId : String
  proposal : Proposal
  responses : List ProposalResponse
  deriving DecidableEq

/-- From this status on a response is a rejection by the chaincode. -/
def errorThreshold : Int32 := 400

/-- Has a request simulated by all endorsers. -/
def endorse (signer : Signer) (endpoints : Endpoints) (channelId : String) (request : Request) :
    Client EndorsedProposal := do
  let built ← buildProposal signer channelId request
  let signed ← signProposal built.proposal signer
  let responses ← collectEndorsements signed endpoints.endorsers endpoints.endorseMs
  if responses.isEmpty then throw .noResponses
  return ⟨built.txId, built.proposal, responses⟩

/-- A connected group for the transaction, where there is something to wait for. -/
def confirmation (signer : Signer) (endpoints : Endpoints) (channelId txId : String) :
    Option Nat → Client (Option (DeliverGroup × Nat))
  | none => pure none
  | some milliseconds => do
    if endpoints.delivers.isEmpty then return none
    let group : DeliverGroup := {
      clients := endpoints.delivers, signer := signer, channelId := channelId, txId := txId
      tlsCertHash := endpoints.tlsCertHash }
    return some (← group.connected milliseconds, milliseconds)

/-- Orders what was endorsed, and waits for commit if a time for that is given. -/
def submitEndorsed (signer : Signer) (endpoints : Endpoints) (channelId : String)
    (endorsed : EndorsedProposal) (wait : Option Nat) : Client Unit := do
  let envelope ← assembleTransaction endorsed.proposal signer endorsed.responses
  let group? ← confirmation signer endpoints channelId endorsed.txId wait
  broadcastEnvelope endpoints.orderer envelope endpoints.broadcastMs
  match group? with
  | none => return ()
  | some (group, milliseconds) => group.awaitCommit milliseconds

/-- The response that speaks for all. -/
def firstResponse (responses : List ProposalResponse) : Except ClientError Response :=
  match responses with
  | [] => .error .noResponses
  | first :: _ => .ok first.response

/-- Endorses a request and orders it, unless a peer rejects it. -/
def invoke (signer : Signer) (endpoints : Endpoints) (channelId : String) (request : Request)
    (wait : Option Nat) : Client TxResponse := do
  let endorsed ← endorse signer endpoints channelId request
  match endorsed.responses.find? fun r => errorThreshold ≤ r.response.status with
  | some rejected => return ⟨endorsed.txId, rejected.response⟩
  | none =>
    submitEndorsed signer endpoints channelId endorsed wait
    return ⟨endorsed.txId, ← firstResponse endorsed.responses⟩

/-- Evaluates a request without ordering it. -/
def query (signer : Signer) (endpoints : Endpoints) (channelId : String) (request : Request) :
    Client TxResponse := do
  let endorsed ← endorse signer endpoints channelId request
  return ⟨endorsed.txId, ← firstResponse endorsed.responses⟩

end LedgerClient
