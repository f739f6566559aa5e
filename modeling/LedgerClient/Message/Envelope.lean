import LedgerClient.Schema.Wire
/-!
# Headers and envelopes

What is signed and sent to the ordering service: a payload with a header in two parts, each kept
as bytes so that signatures over it stay valid, and data.
-/

namespace LedgerClient

/-- What a payload carries. -/
inductive HeaderType where
  | message | config | configUpdate | endorserTransaction | deliverSeekInfo
  deriving DecidableEq

instance : Enumeration HeaderType where
  names := ["Message", "Config", "ConfigUpdate", "EndorserTransaction", "DeliverSeekInfo"]
  toFin a := ⟨a.ctorIdx, by cases a <;> decide⟩
  ofFin := ([.message, .config, .configUpdate, .endorserTransaction, .deliverSeekInfo] :
    List HeaderType).get

instance : Message HeaderType where
  typeName := "fabric_protos::common::HeaderType"

structure Timestamp where
  seconds : Int64
  nanos : Int32
  deriving DecidableEq

instance : Message Timestamp where
  typeName := "fabric_protos::common::Timestamp"
  schema := .record <| .field "seconds" Int64 <| .field "nanos" Int32 .nil
  pack x := (pack x.seconds, pack x.nanos, ())
  unpack c := ⟨unpack c.1, unpack c.2.1⟩
  unpack_pack x := by simp
  pack_unpack c := by simp

/-- The part of a header that names the channel; a request outside any channel leaves it empty. -/
structure ChannelHeader where
  headerType : HeaderType
  version : Int32
  timestamp : Timestamp
  channelId : String
  /-- Empty where the envelope is no transaction. -/
  txId : String
  epoch : UInt64
  extension : Bytes
  tlsCertHash : Option Bytes
  deriving DecidableEq

instance : Message ChannelHeader where
  typeName := "fabric_protos::common::ChannelHeader"
  schema := .record <| .field "header_type" HeaderType <| .field "version" Int32 <|
    .field "timestamp" Timestamp <| .field "channel_id" String <| .field "tx_id" String <|
    .field "epoch" UInt64 <| .field "extension" Bytes <| .field "tls_cert_hash" (Option Bytes) .nil
  pack x := (pack x.headerType, pack x.version, pack x.timestamp, pack x.channelId, pack x.txId,
    pack x.epoch, pack x.extension, pack x.tlsCertHash, ())
  unpack c := ⟨unpack c.1, unpack c.2.1, unpack c.2.2.1, unpack c.2.2.2.1, unpack c.2.2.2.2.1,
    unpack c.2.2.2.2.2.1, unpack c.2.2.2.2.2.2.1, unpack c.2.2.2.2.2.2.2.1⟩
  unpack_pack x := by simp
  pack_unpack c := by simp

/-- Who makes a request, and a number used once. -/
structure SignatureHeader where
  creator : Bytes
  nonce : Bytes
  deriving DecidableEq

instance : Message SignatureHeader where
  typeName := "fabric_protos::common::SignatureHeader"
  schema := .record <| .field "creator" Bytes <| .field "nonce" Bytes .nil
  pack x := (pack x.creator, pack x.nonce, ())
  unpack c := ⟨unpack c.1, unpack c.2.1⟩
  unpack_pack x := by simp
  pack_unpack c := by simp

structure Header where
  channelHeader : Bytes
  signatureHeader : Bytes
  deriving DecidableEq

instance : Message Header where
  typeName := "fabric_protos::common::Header"
  schema := .record <| .field "channel_header" Bytes <| .field "signature_header" Bytes .nil
  pack x := (pack x.channelHeader, pack x.signatureHeader, ())
  unpack c := ⟨unpack c.1, unpack c.2.1⟩
  unpack_pack x := by simp
  pack_unpack c := by simp

structure Payload where
  header : Option Header
  data : Bytes
  deriving DecidableEq

instance : Message Payload where
  typeName := "fabric_protos::common::Payload"
  schema := .record <| .field "header" (Option Header) <| .field "data" Bytes .nil
  pack x := (pack x.header, pack x.data, ())
  unpack c := ⟨unpack c.1, unpack c.2.1⟩
  unpack_pack x := by simp
  pack_unpack c := by simp

/-- A signed payload. -/
structure Envelope where
  payload : Bytes
  signature : Bytes
  deriving DecidableEq

instance : Message Envelope where
  typeName := "fabric_protos::common::Envelope"
  schema := .record <| .field "payload" Bytes <| .field "signature" Bytes .nil
  pack x := (pack x.payload, pack x.signature, ())
  unpack c := ⟨unpack c.1, unpack c.2.1⟩
  unpack_pack x := by simp
  pack_unpack c := by simp

/-- An identity as it stands in headers. -/
structure SerializedIdentity where
  orgId : String
  idBytes : Bytes
  deriving DecidableEq

instance : Message SerializedIdentity where
  typeName := "fabric_protos::common::SerializedIdentity"
  schema := .record <| .field "org_id" String <| .field "id_bytes" Bytes .nil
  pack x := (pack x.orgId, pack x.idBytes, ())
  unpack c := ⟨unpack c.1, unpack c.2.1⟩
  unpack_pack x := by simp
  pack_unpack c := by simp

/-- What ordering service and deliver streams answer. -/
inductive Status where
  | unknown | success | badRequest | forbidden | notFound | requestEntityTooLarge
  | internalServerError | notImplemented | serviceUnavailable
  deriving DecidableEq

instance : Enumeration Status where
  names := ["Unknown", "Success", "BadRequest", "Forbidden", "NotFound", "RequestEntityTooLarge",
    "InternalServerError", "NotImplemented", "ServiceUnavailable"]
  toFin a := ⟨a.ctorIdx, by cases a <;> decide⟩
  ofFin := ([.unknown, .success, .badRequest, .forbidden, .notFound, .requestEntityTooLarge,
    .internalServerError, .notImplemented, .serviceUnavailable] : List Status).get

instance : Message Status where
  typeName := "fabric_protos::common::Status"

namespace Status

def code : Status → Int32
  | .unknown => 0
  | .success => 200
  | .badRequest => 400
  | .forbidden => 403
  | .notFound => 404
  | .requestEntityTooLarge => 413
  | .internalServerError => 500
  | .notImplemented => 501
  | .serviceUnavailable => 503

def message (s : Status) : String := s!"{Enumeration.name s}({s.code.toInt})"

end Status

/-- A signature by one organization over a signature header followed by a configuration update. -/
structure ConfigSignature where
  signatureHeader : Bytes
  signature : Bytes
  deriving DecidableEq

instance : Message ConfigSignature where
  typeName := "fabric_protos::common::ConfigSignature"
  schema := .record <| .field "signature_header" Bytes <| .field "signature" Bytes .nil
  pack x := (pack x.signatureHeader, pack x.signature, ())
  unpack c := ⟨unpack c.1, unpack c.2.1⟩
  unpack_pack x := by simp
  pack_unpack c := by simp

end LedgerClient
