import LedgerClient.Chaincode.Definition
import LedgerClient.Chaincode.Invocation
/-!
# Requests to peers

Every request that peers endorse is a call of a chaincode: `Request.spec` says of which, with
which arguments and with which transient data, and refuses requests that lack something.
-/

namespace LedgerClient

inductive Request where
  | install (package : Bytes)
  /-- Without a package id the organization approves without a package of its own. -/
  | approve (definition : ChaincodeDefinition) (packageId : Option String)
  | commit (definition : ChaincodeDefinition)
  | checkCommitReadiness (definition : ChaincodeDefinition)
  | queryInstalled
  | queryApproved (name : String) (sequence : Int64)
  /-- One definition by its name, or all of them. -/
  | queryCommitted (name : Option String)
  | invoke (invocation : Invocation)
  | query (invocation : Invocation)
  /-- An invocation that is ordered later. -/
  | sendOnly (invocation : Invocation)
  | joinChannel (genesisBlock : Bytes)
  | listChannels
  | chainInfo
  deriving DecidableEq

namespace Request

/-- Whether the header of the request names a channel. -/
def isChannelScoped : Request → Bool
  | install _ | queryInstalled | joinChannel _ | listChannels => false
  | _ => true

def headerType : Request → HeaderType
  | joinChannel _ => .config
  | _ => .endorserTransaction

/-- A call of a chaincode that every peer has. -/
def systemCall (name : String) (lang : ChaincodeLang) (function : String) (args : List Bytes) :
    ChaincodeSpec where
  lang := lang
  chaincodeId := { path := "", name := name, version := "" }
  input := { args := Utf8.encode function :: args, isInit := false }

def lifecycleCall (function : String) (args : Bytes) : ChaincodeSpec :=
  systemCall "_lifecycle" .undefined function [args]

def sourceOf (packageId : Option String) : ChaincodeSource :=
  match nonEmpty? packageId with
  | some id => .localPackage id
  | none => .unavailable

def approveArgs (d : ChaincodeDefinition) (packageId : Option String) :
    Except ClientError ApproveChaincodeDefinitionForMyOrgArgs := do
  d.check
  return {
    sequence := d.sequence, name := d.name, version := d.version
    endorsementPlugin := d.endorsementPlugin, validationPlugin := d.validationPlugin
    validationParameter := ← d.validationParameter
    collections := d.collections, initRequired := d.initRequired
    source := sourceOf packageId }

def commitArgs (d : ChaincodeDefinition) : Except ClientError CommitChaincodeDefinitionArgs := do
  d.check
  return {
    sequence := d.sequence, name := d.name, version := d.version
    endorsementPlugin := d.endorsementPlugin, validationPlugin := d.validationPlugin
    validationParameter := ← d.validationParameter
    collections := d.collections, initRequired := d.initRequired }

/-- A sequence of zero asks about the first one. -/
def readinessArgs (d : ChaincodeDefinition) : Except ClientError CheckCommitReadinessArgs := do
  d.checkName
  return {
    sequence := if d.sequence = 0 then 1 else d.sequence, name := d.name, version := d.version
    endorsementPlugin := d.endorsementPlugin, validationPlugin := d.validationPlugin
    validationParameter := ← d.validationParameter
    initRequired := d.initRequired }

def invocationSpec (i : Invocation) : Except ClientError (ChaincodeSpec × Dict Bytes) := do
  if i.chaincode.name.isEmpty then throw (.invalidArgument "chaincode name is required")
  let transient ← i.transientMap
  return (⟨i.lang, i.chaincode, ⟨i.args, i.isInit⟩⟩, transient)

/-- The call that a request makes, and its transient data. -/
def spec (channelId : String) : Request → Except ClientError (ChaincodeSpec × Dict Bytes)
  | install package => do
    if package.isEmpty then throw (.invalidArgument "chaincode install package is empty")
    let args : InstallChaincodeArgs := { chaincodeInstallPackage := package }
    return (lifecycleCall "InstallChaincode" (toWire args), .empty)
  | approve d packageId => do
    let args ← approveArgs d packageId
    return (lifecycleCall "ApproveChaincodeDefinitionForMyOrg" (toWire args), .empty)
  | commit d => do
    let args ← commitArgs d
    return (lifecycleCall "CommitChaincodeDefinition" (toWire args), .empty)
  | checkCommitReadiness d => do
    let args ← readinessArgs d
    return (lifecycleCall "CheckCommitReadiness" (toWire args), .empty)
  | queryInstalled =>
    .ok (lifecycleCall "QueryInstalledChaincodes" (toWire ({} : QueryInstalledChaincodesArgs)),
      .empty)
  | queryApproved name sequence =>
    let args : QueryApprovedChaincodeDefinitionArgs := { name := name, sequence := sequence }
    .ok (lifecycleCall "QueryApprovedChaincodeDefinition" (toWire args), .empty)
  | queryCommitted (some name) =>
    let args : QueryChaincodeDefinitionArgs := { name := name }
    .ok (lifecycleCall "QueryChaincodeDefinition" (toWire args), .empty)
  | queryCommitted none =>
    .ok (lifecycleCall "QueryChaincodeDefinitions" (toWire ({} : QueryChaincodeDefinitionsArgs)),
      .empty)
  | invoke i => invocationSpec i
  | query i => invocationSpec i
  | sendOnly i => invocationSpec i
  | joinChannel genesisBlock => do
    if genesisBlock.isEmpty then throw (.invalidArgument "genesis block is required to join")
    return (systemCall "cscc" .golang "JoinChain" [genesisBlock], .empty)
  | listChannels => .ok (systemCall "cscc" .golang "GetChannels" [], .empty)
  | chainInfo => .ok (systemCall "qscc" .golang "GetChainInfo" [Utf8.encode channelId], .empty)

end Request

end LedgerClient
