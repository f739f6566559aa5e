import LedgerClient.Message.Lifecycle
import LedgerClient.Policy.Expression
import LedgerClient.Schema.Json
/-!
# Chaincode definitions

What organizations agree on before a chaincode can be called: name, version, sequence, endorsement
policy and private data collections.
-/

namespace LedgerClient

structure ChaincodeDefinition where
  name : String
  version : String
  sequence : Int64
  endorsementPlugin : String := ""
  validationPlugin : String := ""
  /-- An expression over principals. -/
  signaturePolicy : Option String := none
  /-- The path of a policy in the channel configuration. -/
  channelConfigPolicy : Option String := none
  collections : Option CollectionConfigPackage := none
  initRequired : Bool := false
  deriving DecidableEq

/-- An empty text counts as none. -/
def nonEmpty? : Option String → Option String
  | some s => if s.isEmpty then none else some s
  | none => none

/-- The policy to encode, if there is one; the two forms exclude each other. -/
def applicationPolicy? (signaturePolicy channelConfigPolicy : Option String) :
    Except ClientError (Option ApplicationPolicy) :=
  match nonEmpty? signaturePolicy, nonEmpty? channelConfigPolicy with
  | none, none => .ok none
  | some _, some _ =>
    .error (.invalidArgument "cannot specify both a signature policy and a channel config policy")
  | some expression, none => do
    checkPolicy expression
    return some (.signaturePolicy expression)
  | none, some reference => .ok (some (.channelConfigPolicyReference reference))

/-- The encoded policy; empty where the default of the channel applies. -/
def applicationPolicy (signaturePolicy channelConfigPolicy : Option String) :
    Except ClientError Bytes := do
  match ← applicationPolicy? signaturePolicy channelConfigPolicy with
  | none => return []
  | some policy => return toWire policy

namespace ChaincodeDefinition

def validationParameter (d : ChaincodeDefinition) : Except ClientError Bytes :=
  applicationPolicy d.signaturePolicy d.channelConfigPolicy

def checkName (d : ChaincodeDefinition) : Except ClientError Unit :=
  if d.name.isEmpty then .error (.invalidArgument "chaincode name is required") else .ok ()

def check (d : ChaincodeDefinition) : Except ClientError Unit := do
  d.checkName
  if d.version.isEmpty then throw (.invalidArgument "chaincode version is required")
  if d.sequence ≤ 0 then
    throw (.invalidArgument s!"chaincode sequence must be positive, got {d.sequence.toInt}")

end ChaincodeDefinition

/-! ## Collections -/

def CollectionConfig.check (c : CollectionConfig) : Except ClientError Unit := do
  if c.name.isEmpty then throw (.invalidArgument "collection name is required")
  if c.maxPeerCount < c.requiredPeerCount then
    let max := c.maxPeerCount.toInt
    let required := c.requiredPeerCount.toInt
    throw (.invalidArgument
      s!"collection {c.name}: max peer count {max} is lower than required peer count {required}")
  match c.endorsementPolicy with
  | some (.signaturePolicy expression) => checkPolicy expression
  | _ => return ()

/-- Reads collections from a JSON list of them. -/
def collectionsOfJson (text : String) : Except ClientError CollectionConfigPackage := do
  let config ← (fromJsonText (List CollectionConfig) text).mapError .unreadable
  config.forM CollectionConfig.check
  return { config := config }

end LedgerClient
