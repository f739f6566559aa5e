import LedgerClient.Chaincode.Installer
import LedgerClient.Client.Transaction
import LedgerClient.Message.Lifecycle
/-!
# Chaincode lifecycle

A package is installed on every peer, a definition is approved by organizations and committed once
enough of them have approved.  Queries go to one peer.
-/

namespace LedgerClient

def statusOk : Int32 := 200
def statusPartial : Int32 := 204
def statusInternalError : Int32 := 500

/-- Refuses every response but one of status 200. -/
def requireOk (response : Response) : Except ClientError Unit :=
  if response.status = statusOk then .ok ()
  else .error (.endorsementFailed response.status response.message)

/-- Sends a request to one peer and requires a response of status 200. -/
def queryPeer (signer : Signer) (peer : Endorser) (channelId : String) (request : Request)
    (milliseconds : Nat) : Client Response := do
  let built ← buildProposal signer channelId request
  let signed ← signProposal built.proposal signer
  let answer ← endorseOne signed peer milliseconds
  requireOk answer.response
  return answer.response

/-! ## Installation -/

structure PeerInstallResult where
  address : String
  status : Int32
  message : String
  deriving DecidableEq

instance : Layout PeerInstallResult where
  schema := .record <| .field "address" String <| .field "status" Int32 <|
    .field "message" String .nil
  pack x := (pack x.address, pack x.status, pack x.message, ())
  unpack c := ⟨unpack c.1, unpack c.2.1, unpack c.2.2.1⟩
  unpack_pack x := by simp
  pack_unpack c := by simp

/-- What came of an installation: 200 where every peer installed, 204 where some did and 500 where
none did. -/
structure InstallReport where
  status : Int32
  packageId : String
  label : String
  results : List PeerInstallResult
  deriving DecidableEq

instance : Layout InstallReport where
  schema := .record <| .field "status" Int32 <| .field "package_id" String <|
    .field "label" String <| .field "results" (List PeerInstallResult) .nil
  pack x := (pack x.status, pack x.packageId, pack x.label, pack x.results, ())
  unpack c := ⟨unpack c.1, unpack c.2.1, unpack c.2.2.1, unpack c.2.2.2.1⟩
  unpack_pack x := by simp
  pack_unpack c := by simp

/-- The result of one peer, and what it says it installed. -/
structure InstallOutcome where
  result : PeerInstallResult
  installed : Option InstallChaincodeResult

def InstallOutcome.failed (address message : String) : InstallOutcome where
  result := ⟨address, statusInternalError, message⟩
  installed := none

/-- The outcome of an installation, from the answer of the peer. -/
def installOutcome (address : String) : Except ClientError ProposalResponse → InstallOutcome
  | .error e => .failed address e.message
  | .ok answer =>
    let response := answer.response
    if response.status = statusOk then
      match fromWire InstallChaincodeResult response.payload with
      | .ok installed => ⟨⟨address, response.status, response.message⟩, some installed⟩
      | .error fault => .failed address fault.message
    else ⟨⟨address, response.status, response.message⟩, none⟩

def firstNonEmpty (texts : List String) : String :=
  (texts.find? fun s => !s.isEmpty).getD ""

def installReport (outcomes : List InstallOutcome) : InstallReport :=
  let installed := outcomes.filterMap (·.installed)
  { status :=
      if installed.length = outcomes.length then statusOk
      else if installed.isEmpty then statusInternalError
      else statusPartial
    packageId := firstNonEmpty (installed.map (·.packageId))
    label := firstNonEmpty (installed.map (·.label))
    results := outcomes.map (·.result) }

/-- Installs a package on one peer after the other. -/
def install (signer : Signer) (peers : List Endorser) (installer : ChaincodeInstaller)
    (registry : PlatformRegistry) (milliseconds : Nat) : Client InstallReport := do
  let package ← installer.package registry
  let built ← buildProposal signer "" (.install package)
  let signed ← signProposal built.proposal signer
  let outcomes ← peers.mapM fun peer => do
    let answer ← Client.attempt (endorseOne signed peer milliseconds)
    return installOutcome peer.id.address answer
  return installReport outcomes

/-! ## Approval and commit -/

/-- Approves a definition for the organization of the signer; the committer alone endorses it. -/
def approve (signer : Signer) (endpoints : Endpoints) (channelId : String)
    (definition : ChaincodeDefinition) (packageId : Option String) (wait : Option Nat) :
    Client TxResponse := do
  let built ← buildProposal signer channelId (.approve definition packageId)
  let signed ← signProposal built.proposal signer
  let committer ← endpoints.committer
  let answer ← endorseOne signed committer endpoints.endorseMs
  requireOk answer.response
  submitEndorsed signer endpoints channelId ⟨built.txId, built.proposal, [answer]⟩ wait
  return ⟨built.txId, answer.response⟩

/-- Commits a definition; every endorser has to answer 200. -/
def commit (signer : Signer) (endpoints : Endpoints) (channelId : String)
    (definition : ChaincodeDefinition) (wait : Option Nat) : Client TxResponse := do
  let endorsed ← endorse signer endpoints channelId (.commit definition)
  for answer in endorsed.responses do
    requireOk answer.response
  submitEndorsed signer endpoints channelId endorsed wait
  return ⟨endorsed.txId, ← firstResponse endorsed.responses⟩

/-! ## Queries -/

def queryInstalled (signer : Signer) (peer : Endorser) (milliseconds : Nat) :
    Client (List InstalledChaincode) := do
  let response ← queryPeer signer peer "" .queryInstalled milliseconds
  let result ← decodeMessage QueryInstalledChaincodesResult response.payload
  return result.installedChaincodes

def queryApproved (signer : Signer) (peer : Endorser) (channelId name : String)
    (sequence : Int64) (milliseconds : Nat) : Client QueryApprovedChaincodeDefinitionResult := do
  let response ← queryPeer signer peer channelId (.queryApproved name sequence) milliseconds
  decodeMessage QueryApprovedChaincodeDefinitionResult response.payload

inductive CommittedChaincodes where
  | single (definition : QueryChaincodeDefinitionResult)
  | all (definitions : List CommittedDefinition)
  deriving DecidableEq

/-- The definition of a name, or all that are committed. -/
def queryCommitted (signer : Signer) (peer : Endorser) (channelId : String)
    (name : Option String) (milliseconds : Nat) : Client CommittedChaincodes := do
  let response ← queryPeer signer peer channelId (.queryCommitted name) milliseconds
  match name with
  | some _ => return .single (← decodeMessage QueryChaincodeDefinitionResult response.payload)
  | none =>
    let result ← decodeMessage QueryChaincodeDefinitionsResult response.payload
    return .all result.chaincodeDefinitions

/-- Which organizations have approved a definition. -/
def checkCommitReadiness (signer : Signer) (peer : Endorser) (channelId : String)
    (definition : ChaincodeDefinition) (milliseconds : Nat) : Client (Dict Bool) := do
  let response ← queryPeer signer peer channelId (.checkCommitReadiness definition) milliseconds
  return (← decodeMessage CheckCommitReadinessResult response.payload).approvals

end LedgerClient
