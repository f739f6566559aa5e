import LedgerClient.Message.Envelope
/-!
# Blocks

A block holds encoded envelopes, and metadata in numbered slots.
-/

namespace LedgerClient

structure BlockHeader where
  number : UInt64
  previousHash : Bytes
  dataHash : Bytes
  deriving DecidableEq

instance : Message BlockHeader where
  typeName := "fabric_protos::common::BlockHeader"
  schema := .record <| .field "number" UInt64 <| .field "previous_hash" Bytes <|
    .field "data_hash" Bytes .nil
  pack x := (pack x.number, pack x.previousHash, pack x.dataHash, ())
  unpack c := ⟨unpack c.1, unpack c.2.1, unpack c.2.2.1⟩
  unpack_pack x := by simp
  pack_unpack c := by simp

/-- The encoded envelopes of a block. -/
structure BlockData where
  data : List Bytes
  deriving DecidableEq

instance : Message BlockData where
  typeName := "fabric_protos::common::BlockData"
  schema := .record <| .field "data" (List Bytes) .nil
  pack x := (pack x.data, ())
  unpack c := ⟨unpack c.1⟩
  unpack_pack x := by simp
  pack_unpack c := by simp

/-- The metadata slots of a block, each an encoded `Metadata` or empty. -/
structure BlockMetadata where
  metadata : List Bytes
  deriving DecidableEq

instance : Message BlockMetadata where
  typeName := "fabric_protos::common::BlockMetadata"
  schema := .record <| .field "metadata" (List Bytes) .nil
  pack x := (pack x.metadata, ())
  unpack c := ⟨unpack c.1⟩
  unpack_pack x := by simp
  pack_unpack c := by simp

structure Block where
  header : BlockHeader
  data : BlockData
  metadata : BlockMetadata
  deriving DecidableEq

instance : Message Block where
  typeName := "fabric_protos::common::Block"
  schema := .record <| .field "header" BlockHeader <| .field "data" BlockData <|
    .field "metadata" BlockMetadata .nil
  pack x := (pack x.header, pack x.data, pack x.metadata, ())
  unpack c := ⟨unpack c.1, unpack c.2.1, unpack c.2.2.1⟩
  unpack_pack x := by simp
  pack_unpack c := by simp

structure MetadataSignature where
  signatureHeader : Bytes
  signature : Bytes
  deriving DecidableEq

instance : Message MetadataSignature where
  typeName := "fabric_protos::common::MetadataSignature"
  schema := .record <| .field "signature_header" Bytes <| .field "signature" Bytes .nil
  pack x := (pack x.signatureHeader, pack x.signature, ())
  unpack c := ⟨unpack c.1, unpack c.2.1⟩
  unpack_pack x := by simp
  pack_unpack c := by simp

structure Metadata where
  value : Bytes
  signatures : List MetadataSignature
  deriving DecidableEq

instance : Message Metadata where
  typeName := "fabric_protos::common::Metadata"
  schema := .record <| .field "value" Bytes <| .field "signatures" (List MetadataSignature) .nil
  pack x := (pack x.value, pack x.signatures, ())
  unpack c := ⟨unpack c.1, unpack c.2.1⟩
  unpack_pack x := by simp
  pack_unpack c := by simp

/-- The number of the latest configuration block. -/
structure LastConfig where
  index : UInt64
  deriving DecidableEq

instance : Message LastConfig where
  typeName := "fabric_protos::common::LastConfig"
  schema := .record <| .field "index" UInt64 .nil
  pack x := (pack x.index, ())
  unpack c := ⟨unpack c.1⟩
  unpack_pack x := by simp
  pack_unpack c := by simp

/-- What the signatures slot holds. -/
structure OrdererBlockMetadata where
  lastConfig : LastConfig
  consenterMetadata : Bytes
  deriving DecidableEq

instance : Message OrdererBlockMetadata where
  typeName := "fabric_protos::common::OrdererBlockMetadata"
  schema := .record <| .field "last_config" LastConfig <| .field "consenter_metadata" Bytes .nil
  pack x := (pack x.lastConfig, pack x.consenterMetadata, ())
  unpack c := ⟨unpack c.1, unpack c.2.1⟩
  unpack_pack x := by simp
  pack_unpack c := by simp

structure BlockchainInfo where
  height : UInt64
  currentBlockHash : Bytes
  previousBlockHash : Bytes
  deriving DecidableEq

instance : Message BlockchainInfo where
  typeName := "fabric_protos::common::BlockchainInfo"
  schema := .record <| .field "height" UInt64 <| .field "current_block_hash" Bytes <|
    .field "previous_block_hash" Bytes .nil
  pack x := (pack x.height, pack x.currentBlockHash, pack x.previousBlockHash, ())
  unpack c := ⟨unpack c.1, unpack c.2.1, unpack c.2.2.1⟩
  unpack_pack x := by simp
  pack_unpack c := by simp

end LedgerClient
