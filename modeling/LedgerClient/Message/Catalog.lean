import LedgerClient.Message.Configuration
import LedgerClient.Message.Lifecycle
import LedgerClient.Message.Ordering
import LedgerClient.Schema.Json
/-!
# All messages

The messages by name, so that bytes and texts of any of them can be read and written.
-/

namespace LedgerClient

structure CatalogEntry where
  name : String
  typeName : String
  schema : Schema

namespace CatalogEntry

def of (name : String) (α : Type) [Message α] : CatalogEntry where
  name := name
  typeName := Message.typeName α
  schema := Layout.schema α

/-- Reads bytes; the answer is the JSON form of the message and its bytes again. -/
def reread (e : CatalogEntry) (bs : Bytes) : Except DecodeFault (Json.Value × Bytes) :=
  match e.schema.decodeAll bs with
  | .ok c => .ok (e.schema.toJson c, e.schema.encode c)
  | .error reason => .error { typeName := e.typeName, reason := reason }

/-- The bytes of the message that a text describes. -/
def encodeText (e : CatalogEntry) (text : String) : Except Json.Fault Bytes :=
  e.schema.encode <$> scanAll e.schema.scan (Utf8.encode text)

end CatalogEntry

def catalog : List CatalogEntry := [
  .of "HeaderType" HeaderType,
  .of "Timestamp" Timestamp,
  .of "ChannelHeader" ChannelHeader,
  .of "SignatureHeader" SignatureHeader,
  .of "Header" Header,
  .of "Payload" Payload,
  .of "Envelope" Envelope,
  .of "SerializedIdentity" SerializedIdentity,
  .of "Status" Status,
  .of "ConfigSignature" ConfigSignature,
  .of "BlockHeader" BlockHeader,
  .of "BlockData" BlockData,
  .of "BlockMetadata" BlockMetadata,
  .of "Block" Block,
  .of "MetadataSignature" MetadataSignature,
  .of "Metadata" Metadata,
  .of "LastConfig" LastConfig,
  .of "OrdererBlockMetadata" OrdererBlockMetadata,
  .of "BlockchainInfo" BlockchainInfo,
  .of "PolicyKind" PolicyKind,
  .of "Policy" Policy,
  .of "OrganizationKind" OrganizationKind,
  .of "AnchorPeer" AnchorPeer,
  .of "Organization" Organization,
  .of "ApplicationGroup" ApplicationGroup,
  .of "ConsortiumGroup" ConsortiumGroup,
  .of "BatchSize" BatchSize,
  .of "OrdererGroup" OrdererGroup,
  .of "ChannelGroup" ChannelGroup,
  .of "Config" Config,
  .of "ConfigEnvelope" ConfigEnvelope,
  .of "ConfigUpdate" ConfigUpdate,
  .of "ConfigUpdateEnvelope" ConfigUpdateEnvelope,
  .of "ChaincodeLang" ChaincodeLang,
  .of "ChaincodeId" ChaincodeId,
  .of "ChaincodeInput" ChaincodeInput,
  .of "ChaincodeSpec" ChaincodeSpec,
  .of "ChaincodeInvocationSpec" ChaincodeInvocationSpec,
  .of "ChaincodeHeaderExtension" ChaincodeHeaderExtension,
  .of "ChaincodeProposalPayload" ChaincodeProposalPayload,
  .of "Proposal" Proposal,
  .of "SignedProposal" SignedProposal,
  .of "Response" Response,
  .of "Endorsement" Endorsement,
  .of "ProposalResponse" ProposalResponse,
  .of "ChaincodeEndorsedAction" ChaincodeEndorsedAction,
  .of "ChaincodeActionPayload" ChaincodeActionPayload,
  .of "TransactionAction" TransactionAction,
  .of "Transaction" Transaction,
  .of "TxValidationCode" TxValidationCode,
  .of "FilteredTransaction" FilteredTransaction,
  .of "FilteredBlock" FilteredBlock,
  .of "DeliverResponse" DeliverResponse,
  .of "ChannelInfo" ChannelInfo,
  .of "ChannelQueryResponse" ChannelQueryResponse,
  .of "InstallChaincodeArgs" InstallChaincodeArgs,
  .of "InstallChaincodeResult" InstallChaincodeResult,
  .of "ChaincodeSource" ChaincodeSource,
  .of "ApplicationPolicy" ApplicationPolicy,
  .of "CollectionConfig" CollectionConfig,
  .of "CollectionConfigPackage" CollectionConfigPackage,
  .of "ApproveChaincodeDefinitionForMyOrgArgs" ApproveChaincodeDefinitionForMyOrgArgs,
  .of "CommitChaincodeDefinitionArgs" CommitChaincodeDefinitionArgs,
  .of "QueryInstalledChaincodesArgs" QueryInstalledChaincodesArgs,
  .of "InstalledChaincode" InstalledChaincode,
  .of "QueryInstalledChaincodesResult" QueryInstalledChaincodesResult,
  .of "QueryApprovedChaincodeDefinitionArgs" QueryApprovedChaincodeDefinitionArgs,
  .of "QueryApprovedChaincodeDefinitionResult" QueryApprovedChaincodeDefinitionResult,
  .of "QueryChaincodeDefinitionArgs" QueryChaincodeDefinitionArgs,
  .of "QueryChaincodeDefinitionResult" QueryChaincodeDefinitionResult,
  .of "QueryChaincodeDefinitionsArgs" QueryChaincodeDefinitionsArgs,
  .of "LifecycleChaincodeDefinition" CommittedDefinition,
  .of "QueryChaincodeDefinitionsResult" QueryChaincodeDefinitionsResult,
  .of "CheckCommitReadinessArgs" CheckCommitReadinessArgs,
  .of "CheckCommitReadinessResult" CheckCommitReadinessResult,
  .of "SeekPosition" SeekPosition,
  .of "SeekBehavior" SeekBehavior,
  .of "SeekErrorResponse" SeekErrorResponse,
  .of "SeekInfo" SeekInfo,
  .of "BroadcastResponse" BroadcastResponse,
  .of "Frame" Frame]

/-- The message of a name. -/
def catalogEntry? (name : String) : Option CatalogEntry := catalog.find? fun e => e.name == name

end LedgerClient
