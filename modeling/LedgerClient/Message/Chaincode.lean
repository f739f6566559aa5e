import LedgerClient.Message.Block
/-!
# Chaincode calls

Proposals and the responses of endorsers, the transactions made of them, and what committing peers
report about transactions.
-/

namespace LedgerClient

/-- The language a chaincode is written in. -/
inductive ChaincodeLang where
  | undefined | golang | node | car | java
  deriving DecidableEq

instance : Enumeration ChaincodeLang where
  names := ["Undefined", "Golang", "Node", "Car", "Java"]
  toFin a := ⟨a.ctorIdx, by cases a <;> decide⟩
  ofFin := ([.undefined, .golang, .node, .car, .java] : List ChaincodeLang).get

instance : Message ChaincodeLang where
  typeName := "fabric_protos::peer::ChaincodeLang"

namespace ChaincodeLang

/-- The letters `a` to `z` as capitals, and all else as it is. -/
def capitals (s : String) : String := s.map Char.toUpper

/-- The language a text names, in letters of either case. -/
def ofText (s : String) : Except String ChaincodeLang :=
  let name := capitals s
  if name = "" ∨ name = "UNDEFINED" then .ok .undefined
  else if name = "GOLANG" ∨ name = "GO" then .ok .golang
  else if name = "NODE" then .ok .node
  else if name = "CAR" then .ok .car
  else if name = "JAVA" then .ok .java
  else .error s!"unknown chaincode language '{name}'"

end ChaincodeLang

structure ChaincodeId where
  path : String
  name : String
  version : String
  deriving DecidableEq

instance : Message ChaincodeId where
  typeName := "fabric_protos::peer::ChaincodeId"
  schema := .record <| .field "path" String <| .field "name" String <| .field "version" String .nil
  pack x := (pack x.path, pack x.name, pack x.version, ())
  unpack c := ⟨unpack c.1, unpack c.2.1, unpack c.2.2.1⟩
  unpack_pack x := by simp
  pack_unpack c := by simp

structure ChaincodeInput where
  args : List Bytes
  isInit : Bool
  deriving DecidableEq

instance : Message ChaincodeInput where
  typeName := "fabric_protos::peer::ChaincodeInput"
  schema := .record <| .field "args" (List Bytes) <| .field "is_init" Bool .nil
  pack x := (pack x.args, pack x.isInit, ())
  unpack c := ⟨unpack c.1, unpack c.2.1⟩
  unpack_pack x := by simp
  pack_unpack c := by simp

structure ChaincodeSpec where
  lang : ChaincodeLang
  chaincodeId : ChaincodeId
  input : ChaincodeInput
  deriving DecidableEq

instance : Message ChaincodeSpec where
  typeName := "fabric_protos::peer::ChaincodeSpec"
  schema := .record <| .field "lang" ChaincodeLang <| .field "chaincode_id" ChaincodeId <|
    .field "input" ChaincodeInput .nil
  pack x := (pack x.lang, pack x.chaincodeId, pack x.input, ())
  unpack c := ⟨unpack c.1, unpack c.2.1, unpack c.2.2.1⟩
  unpack_pack x := by simp
  pack_unpack c := by simp

structure ChaincodeInvocationSpec where
  chaincodeSpec : ChaincodeSpec
  deriving DecidableEq

instance : Message ChaincodeInvocationSpec where
  typeName := "fabric_protos::peer::ChaincodeInvocationSpec"
  schema := .record <| .field "chaincode_spec" ChaincodeSpec .nil
  pack x := (pack x.chaincodeSpec, ())
  unpack c := ⟨unpack c.1⟩
  unpack_pack x := by simp
  pack_unpack c := by simp

structure ChaincodeHeaderExtension where
  chaincodeId : ChaincodeId
  deriving DecidableEq

instance : Message ChaincodeHeaderExtension where
  typeName := "fabric_protos::peer::ChaincodeHeaderExtension"
  schema := .record <| .field "chaincode_id" ChaincodeId .nil
  pack x := (pack x.chaincodeId, ())
  unpack c := ⟨unpack c.1⟩
  unpack_pack x := by simp
  pack_unpack c := by simp

/-- The encoded call and data for the endorsers only. -/
structure ChaincodeProposalPayload where
  input : Bytes
  transientMap : Dict Bytes
  deriving DecidableEq

instance : Message ChaincodeProposalPayload where
  typeName := "fabric_protos::peer::ChaincodeProposalPayload"
  schema := .record <| .field "input" Bytes <| .field "transient_map" (Dict Bytes) .nil
  pack x := (pack x.input, pack x.transientMap, ())
  unpack c := ⟨unpack c.1, unpack c.2.1⟩
  unpack_pack x := by simp
  pack_unpack c := by simp

/-- An encoded `Header` and an encoded `ChaincodeProposalPayload`. -/
structure Proposal where
  header : Bytes
  payload : Bytes
  deriving DecidableEq

instance : Message Proposal where
  typeName := "fabric_protos::peer::Proposal"
  schema := .record <| .field "header" Bytes <| .field "payload" Bytes .nil
  pack x := (pack x.header, pack x.payload, ())
  unpack c := ⟨unpack c.1, unpack c.2.1⟩
  unpack_pack x := by simp
  pack_unpack c := by simp

structure SignedProposal where
  proposalBytes : Bytes
  signature : Bytes
  deriving DecidableEq

instance : Message SignedProposal where
  typeName := "fabric_protos::peer::SignedProposal"
  schema := .record <| .field "proposal_bytes" Bytes <| .field "signature" Bytes .nil
  pack x := (pack x.proposalBytes, pack x.signature, ())
  unpack c := ⟨unpack c.1, unpack c.2.1⟩
  unpack_pack x := by simp
  pack_unpack c := by simp

/-- What a chaincode answers. -/
structure Response where
  status : Int32
  message : String
  payload : Bytes
  deriving DecidableEq

instance : Message Response where
  typeName := "fabric_protos::peer::Response"
  schema := .record <| .field "status" Int32 <| .field "message" String <|
    .field "payload" Bytes .nil
  pack x := (pack x.status, pack x.message, pack x.payload, ())
  unpack c := ⟨unpack c.1, unpack c.2.1, unpack c.2.2.1⟩
  unpack_pack x := by simp
  pack_unpack c := by simp

structure Endorsement where
  endorser : Bytes
  signature : Bytes
  deriving DecidableEq

instance : Message Endorsement where
  typeName := "fabric_protos::peer::Endorsement"
  schema := .record <| .field "endorser" Bytes <| .field "signature" Bytes .nil
  pack x := (pack x.endorser, pack x.signature, ())
  unpack c := ⟨unpack c.1, unpack c.2.1⟩
  unpack_pack x := by simp
  pack_unpack c := by simp

/-- What an endorser answers; the payload is the simulated result. -/
structure ProposalResponse where
  version : Int32
  response : Response
  payload : Bytes
  endorsement : Option Endorsement
  deriving DecidableEq

instance : Message ProposalResponse where
  typeName := "fabric_protos::peer::ProposalResponse"
  schema := .record <| .field "version" Int32 <| .field "response" Response <|
    .field "payload" Bytes <| .field "endorsement" (Option Endorsement) .nil
  pack x := (pack x.version, pack x.response, pack x.payload, pack x.endorsement, ())
  unpack c := ⟨unpack c.1, unpack c.2.1, unpack c.2.2.1, unpack c.2.2.2.1⟩
  unpack_pack x := by simp
  pack_unpack c := by simp

structure ChaincodeEndorsedAction where
  proposalResponsePayload : Bytes
  endorsements : List Endorsement
  deriving DecidableEq

instance : Message ChaincodeEndorsedAction where
  typeName := "fabric_protos::peer::ChaincodeEndorsedAction"
  schema := .record <| .field "proposal_response_payload" Bytes <|
    .field "endorsements" (List Endorsement) .nil
  pack x := (pack x.proposalResponsePayload, pack x.endorsements, ())
  unpack c := ⟨unpack c.1, unpack c.2.1⟩
  unpack_pack x := by simp
  pack_unpack c := by simp

structure ChaincodeActionPayload where
  chaincodeProposalPayload : Bytes
  action : ChaincodeEndorsedAction
  deriving DecidableEq

instance : Message ChaincodeActionPayload where
  typeName := "fabric_protos::peer::ChaincodeActionPayload"
  schema := .record <| .field "chaincode_proposal_payload" Bytes <|
    .field "action" ChaincodeEndorsedAction .nil
  pack x := (pack x.chaincodeProposalPayload, pack x.action, ())
  unpack c := ⟨unpack c.1, unpack c.2.1⟩
  unpack_pack x := by simp
  pack_unpack c := by simp

/-- An encoded `SignatureHeader` and an encoded `ChaincodeActionPayload`. -/
structure TransactionAction where
  header : Bytes
  payload : Bytes
  deriving DecidableEq

instance : Message TransactionAction where
  typeName := "fabric_protos::peer::TransactionAction"
  schema := .record <| .field "header" Bytes <| .field "payload" Bytes .nil
  pack x := (pack x.header, pack x.payload, ())
  unpack c := ⟨unpack c.1, unpack c.2.1⟩
  unpack_pack x := by simp
  pack_unpack c := by simp

structure Transaction where
  actions : List TransactionAction
  deriving DecidableEq

instance : Message Transaction where
  typeName := "fabric_protos::peer::Transaction"
  schema := .record <| .field "actions" (List TransactionAction) .nil
  pack x := (pack x.actions, ())
  unpack c := ⟨unpack c.1⟩
  unpack_pack x := by simp
  pack_unpack c := by simp

/-- The verdict of a committing peer on a transaction. -/
inductive TxValidationCode where
  | valid | nilEnvelope | badPayload | badCommonHeader | badCreatorSignature
  | invalidEndorserTransaction | invalidConfigTransaction | unsupportedTxPayload | badProposalTxid
  | duplicateTxid | endorsementPolicyFailure | mvccReadConflict | phantomReadConflict
  | unknownTxType | targetChainNotFound | marshalTxError | nilTxaction | expiredChaincode
  | chaincodeVersionConflict | badHeaderExtension | badChannelHeader | badResponsePayload
  | badRwset | illegalWriteset | invalidWriteset | invalidChaincode | notValidated
  | invalidOtherReason
  deriving DecidableEq

instance : Enumeration TxValidationCode where
  names := ["Valid", "NilEnvelope", "BadPayload", "BadCommonHeader", "BadCreatorSignature",
    "InvalidEndorserTransaction", "InvalidConfigTransaction", "UnsupportedTxPayload",
    "BadProposalTxid", "DuplicateTxid", "EndorsementPolicyFailure", "MvccReadConflict",
    "PhantomReadConflict", "UnknownTxType", "TargetChainNotFound", "MarshalTxError", "NilTxaction",
    "ExpiredChaincode", "ChaincodeVersionConflict", "BadHeaderExtension", "BadChannelHeader",
    "BadResponsePayload", "BadRwset", "IllegalWriteset", "InvalidWriteset", "InvalidChaincode",
    "NotValidated", "InvalidOtherReason"]
  toFin a := ⟨a.ctorIdx, by cases a <;> decide⟩
  ofFin := ([.valid, .nilEnvelope, .badPayload, .badCommonHeader, .badCreatorSignature,
    .invalidEndorserTransaction, .invalidConfigTransaction, .unsupportedTxPayload, .badProposalTxid,
    .duplicateTxid, .endorsementPolicyFailure, .mvccReadConflict, .phantomReadConflict,
    .unknownTxType, .targetChainNotFound, .marshalTxError, .nilTxaction, .expiredChaincode,
    .chaincodeVersionConflict, .badHeaderExtension, .badChannelHeader, .badResponsePayload,
    .badRwset, .illegalWriteset, .invalidWriteset, .invalidChaincode, .notValidated,
    .invalidOtherReason] : List TxValidationCode).get

instance : Message TxValidationCode where
  typeName := "fabric_protos::peer::TxValidationCode"

structure FilteredTransaction where
  txId : String
  headerType : HeaderType
  validationCode : TxValidationCode
  deriving DecidableEq

instance : Message FilteredTransaction where
  typeName := "fabric_protos::peer::FilteredTransaction"
  schema := .record <| .field "tx_id" String <| .field "header_type" HeaderType <|
    .field "validation_code" TxValidationCode .nil
  pack x := (pack x.txId, pack x.headerType, pack x.validationCode, ())
  unpack c := ⟨unpack c.1, unpack c.2.1, unpack c.2.2.1⟩
  unpack_pack x := by simp
  pack_unpack c := by simp

/-- A block of which only ids and verdicts are left. -/
structure FilteredBlock where
  channelId : String
  number : UInt64
  filteredTransactions : List FilteredTransaction
  deriving DecidableEq

instance : Message FilteredBlock where
  typeName := "fabric_protos::peer::FilteredBlock"
  schema := .record <| .field "channel_id" String <| .field "number" UInt64 <|
    .field "filtered_transactions" (List FilteredTransaction) .nil
  pack x := (pack x.channelId, pack x.number, pack x.filteredTransactions, ())
  unpack c := ⟨unpack c.1, unpack c.2.1, unpack c.2.2.1⟩
  unpack_pack x := by simp
  pack_unpack c := by simp

/-- A message of a deliver stream. -/
inductive DeliverResponse where
  | status (status : Status)
  | block (block : Block)
  | filteredBlock (block : FilteredBlock)
  deriving DecidableEq

instance : Message DeliverResponse where
  typeName := "fabric_protos::peer::DeliverResponse"
  schema := .choice <| .holding "Status" (schema Status) <| .holding "Block" (schema Block) <|
    .holding "FilteredBlock" (schema FilteredBlock) .nil
  pack
    | .status s => .inl (pack s)
    | .block b => .inr (.inl (pack b))
    | .filteredBlock b => .inr (.inr (.inl (pack b)))
  unpack
    | .inl s => .status (unpack s)
    | .inr (.inl b) => .block (unpack b)
    | .inr (.inr (.inl b)) => .filteredBlock (unpack b)
  unpack_pack a := by cases a <;> simp
  pack_unpack c := by
    rcases c with c | c | c | c
    · simp
    · simp
    · simp
    · exact c.elim

structure ChannelInfo where
  channelId : String
  deriving DecidableEq

instance : Message ChannelInfo where
  typeName := "fabric_protos::peer::ChannelInfo"
  schema := .record <| .field "channel_id" String .nil
  pack x := (pack x.channelId, ())
  unpack c := ⟨unpack c.1⟩
  unpack_pack x := by simp
  pack_unpack c := by simp

structure ChannelQueryResponse where
  channels : List ChannelInfo
  deriving DecidableEq

instance : Message ChannelQueryResponse where
  typeName := "fabric_protos::peer::ChannelQueryResponse"
  schema := .record <| .field "channels" (List ChannelInfo) .nil
  pack x := (pack x.channels, ())
  unpack c := ⟨unpack c.1⟩
  unpack_pack x := by simp
  pack_unpack c := by simp

end LedgerClient
