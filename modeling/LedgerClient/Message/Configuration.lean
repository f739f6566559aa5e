import LedgerClient.Message.Envelope
/-!
# Channel configuration

The configuration of a channel is a tree of groups whose members are organizations; an update is
the part that was read and the part that is written.
-/

namespace LedgerClient

inductive PolicyKind where
  | signature | implicitMeta
  deriving DecidableEq

instance : Enumeration PolicyKind where
  names := ["Signature", "ImplicitMeta"]
  toFin a := ⟨a.ctorIdx, by cases a <;> decide⟩
  ofFin := ([.signature, .implicitMeta] : List PolicyKind).get

instance : Message PolicyKind where
  typeName := "fabric_protos::config::PolicyKind"

structure Policy where
  kind : PolicyKind
  rule : String
  deriving DecidableEq

instance : Message Policy where
  typeName := "fabric_protos::config::Policy"
  schema := .record <| .field "kind" PolicyKind <| .field "rule" String .nil
  pack x := (pack x.kind, pack x.rule, ())
  unpack c := ⟨unpack c.1, unpack c.2.1⟩
  unpack_pack x := by simp
  pack_unpack c := by simp

inductive OrganizationKind where
  | peer | orderer
  deriving DecidableEq

instance : Enumeration OrganizationKind where
  names := ["Peer", "Orderer"]
  toFin a := ⟨a.ctorIdx, by cases a <;> decide⟩
  ofFin := ([.peer, .orderer] : List OrganizationKind).get

instance : Message OrganizationKind where
  typeName := "fabric_protos::config::OrganizationKind"

structure AnchorPeer where
  host : String
  port : UInt16
  deriving DecidableEq

instance : Message AnchorPeer where
  typeName := "fabric_protos::config::AnchorPeer"
  schema := .record <| .field "host" String <| .field "port" UInt16 .nil
  pack x := (pack x.host, pack x.port, ())
  unpack c := ⟨unpack c.1, unpack c.2.1⟩
  unpack_pack x := by simp
  pack_unpack c := by simp

/-- The membership definition of an organization. -/
structure Organization where
  /-- The key of the organization in the groups it belongs to. -/
  name : String
  /-- The organization id that its identities carry. -/
  mspId : String
  kind : OrganizationKind
  rootCerts : List Bytes
  tlsRootCerts : List Bytes
  adminCerts : List Bytes
  anchorPeers : List AnchorPeer
  ordererEndpoints : List String
  policies : Dict Policy
  deriving DecidableEq

instance : Message Organization where
  typeName := "fabric_protos::config::Organization"
  schema := .record <| .field "name" String <| .field "msp_id" String <|
    .field "kind" OrganizationKind <| .field "root_certs" (List Bytes) <|
    .field "tls_root_certs" (List Bytes) <| .field "admin_certs" (List Bytes) <|
    .field "anchor_peers" (List AnchorPeer) <| .field "orderer_endpoints" (List String) <|
    .field "policies" (Dict Policy) .nil
  pack x := (pack x.name, pack x.mspId, pack x.kind, pack x.rootCerts, pack x.tlsRootCerts,
    pack x.adminCerts, pack x.anchorPeers, pack x.ordererEndpoints, pack x.policies, ())
  unpack c := ⟨unpack c.1, unpack c.2.1, unpack c.2.2.1, unpack c.2.2.2.1, unpack c.2.2.2.2.1,
    unpack c.2.2.2.2.2.1, unpack c.2.2.2.2.2.2.1, unpack c.2.2.2.2.2.2.2.1,
    unpack c.2.2.2.2.2.2.2.2.1⟩
  unpack_pack x := by simp
  pack_unpack c := by simp

structure ApplicationGroup where
  organizations : Dict Organization
  capabilities : List String
  policies : Dict Policy
  deriving DecidableEq

instance : Message ApplicationGroup where
  typeName := "fabric_protos::config::ApplicationGroup"
  schema := .record <| .field "organizations" (Dict Organization) <|
    .field "capabilities" (List String) <| .field "policies" (Dict Policy) .nil
  pack x := (pack x.organizations, pack x.capabilities, pack x.policies, ())
  unpack c := ⟨unpack c.1, unpack c.2.1, unpack c.2.2.1⟩
  unpack_pack x := by simp
  pack_unpack c := by simp

structure ConsortiumGroup where
  organizations : Dict Organization
  deriving DecidableEq

instance : Message ConsortiumGroup where
  typeName := "fabric_protos::config::ConsortiumGroup"
  schema := .record <| .field "organizations" (Dict Organization) .nil
  pack x := (pack x.organizations, ())
  unpack c := ⟨unpack c.1⟩
  unpack_pack x := by simp
  pack_unpack c := by simp

structure BatchSize where
  maxMessageCount : UInt32
  absoluteMaxBytes : UInt32
  preferredMaxBytes : UInt32
  deriving DecidableEq

instance : Message BatchSize where
  typeName := "fabric_protos::config::BatchSize"
  schema := .record <| .field "max_message_count" UInt32 <| .field "absolute_max_bytes" UInt32 <|
    .field "preferred_max_bytes" UInt32 .nil
  pack x := (pack x.maxMessageCount, pack x.absoluteMaxBytes, pack x.preferredMaxBytes, ())
  unpack c := ⟨unpack c.1, unpack c.2.1, unpack c.2.2.1⟩
  unpack_pack x := by simp
  pack_unpack c := by simp

structure OrdererGroup where
  ordererType : String
  batchTimeoutMs : UInt64
  batchSize : BatchSize
  organizations : Dict Organization
  policies : Dict Policy
  deriving DecidableEq

instance : Message OrdererGroup where
  typeName := "fabric_protos::config::OrdererGroup"
  schema := .record <| .field "orderer_type" String <| .field "batch_timeout_ms" UInt64 <|
    .field "batch_size" BatchSize <| .field "organizations" (Dict Organization) <|
    .field "policies" (Dict Policy) .nil
  pack x := (pack x.ordererType, pack x.batchTimeoutMs, pack x.batchSize, pack x.organizations,
    pack x.policies, ())
  unpack c := ⟨unpack c.1, unpack c.2.1, unpack c.2.2.1, unpack c.2.2.2.1, unpack c.2.2.2.2.1⟩
  unpack_pack x := by simp
  pack_unpack c := by simp

/-- The root group of a channel; consortiums are for the system channel only. -/
structure ChannelGroup where
  consortium : Option String
  application : Option ApplicationGroup
  orderer : Option OrdererGroup
  consortiums : Dict ConsortiumGroup
  capabilities : List String
  policies : Dict Policy
  deriving DecidableEq

instance : Message ChannelGroup where
  typeName := "fabric_protos::config::ChannelGroup"
  schema := .record <| .field "consortium" (Option String) <|
    .field "application" (Option ApplicationGroup) <| .field "orderer" (Option OrdererGroup) <|
    .field "consortiums" (Dict ConsortiumGroup) <| .field "capabilities" (List String) <|
    .field "policies" (Dict Policy) .nil
  pack x := (pack x.consortium, pack x.application, pack x.orderer, pack x.consortiums,
    pack x.capabilities, pack x.policies, ())
  unpack c := ⟨unpack c.1, unpack c.2.1, unpack c.2.2.1, unpack c.2.2.2.1, unpack c.2.2.2.2.1,
    unpack c.2.2.2.2.2.1⟩
  unpack_pack x := by simp
  pack_unpack c := by simp

structure Config where
  sequence : UInt64
  channelGroup : ChannelGroup
  deriving DecidableEq

instance : Message Config where
  typeName := "fabric_protos::config::Config"
  schema := .record <| .field "sequence" UInt64 <| .field "channel_group" ChannelGroup .nil
  pack x := (pack x.sequence, pack x.channelGroup, ())
  unpack c := ⟨unpack c.1, unpack c.2.1⟩
  unpack_pack x := by simp
  pack_unpack c := by simp

/-- What the one envelope of a configuration block holds. -/
structure ConfigEnvelope where
  config : Config
  lastUpdate : Option Envelope
  deriving DecidableEq

instance : Message ConfigEnvelope where
  typeName := "fabric_protos::config::ConfigEnvelope"
  schema := .record <| .field "config" Config <| .field "last_update" (Option Envelope) .nil
  pack x := (pack x.config, pack x.lastUpdate, ())
  unpack c := ⟨unpack c.1, unpack c.2.1⟩
  unpack_pack x := by simp
  pack_unpack c := by simp

/-- The difference between two configurations. -/
structure ConfigUpdate where
  channelId : String
  /-- The sequence of the configuration that was read. -/
  readSequence : UInt64
  readSet : ChannelGroup
  writeSet : ChannelGroup
  deriving DecidableEq

instance : Message ConfigUpdate where
  typeName := "fabric_protos::config::ConfigUpdate"
  schema := .record <| .field "channel_id" String <| .field "read_sequence" UInt64 <|
    .field "read_set" ChannelGroup <| .field "write_set" ChannelGroup .nil
  pack x := (pack x.channelId, pack x.readSequence, pack x.readSet, pack x.writeSet, ())
  unpack c := ⟨unpack c.1, unpack c.2.1, unpack c.2.2.1, unpack c.2.2.2.1⟩
  unpack_pack x := by simp
  pack_unpack c := by simp

/-- An encoded update with the signatures of organizations. -/
structure ConfigUpdateEnvelope where
  configUpdate : Bytes
  signatures : List ConfigSignature
  deriving DecidableEq

instance : Message ConfigUpdateEnvelope where
  typeName := "fabric_protos::config::ConfigUpdateEnvelope"
  schema := .record <| .field "config_update" Bytes <|
    .field "signatures" (List ConfigSignature) .nil
  pack x := (pack x.configUpdate, pack x.signatures, ())
  unpack c := ⟨unpack c.1, unpack c.2.1⟩
  unpack_pack x := by simp
  pack_unpack c := by simp

/-- The group without members and settings. -/
def ChannelGroup.empty : ChannelGroup := ⟨none, none, none, .empty, [], .empty⟩

end LedgerClient
