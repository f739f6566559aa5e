import LedgerClient.Error
import LedgerClient.Message.Block
import LedgerClient.Message.Configuration
/-!
# Configuration blocks

Every block names the latest configuration block at or before it, and a configuration block holds
one envelope with the configuration.
-/

namespace LedgerClient.Block

/-- A metadata slot; an empty one counts as missing. -/
def metadataAt (b : Block) (slot : Nat) : Except ClientError (Option Metadata) :=
  match b.metadata.metadata[slot]? with
  | none => .ok none
  | some [] => .ok none
  | some (c :: cs) => some <$> decodeMessage Metadata (c :: cs)

def signaturesSlot : Nat := 0
def lastConfigSlot : Nat := 1

/-- The dedicated slot, which older ordering services fill. -/
def lastConfigInOwnSlot (b : Block) : Except ClientError UInt64 := do
  match ← b.metadataAt lastConfigSlot with
  | none =>
    throw (.invalidArgument s!"block {b.header.number.toNat} carries no last config metadata")
  | some metadata => return (← decodeMessage LastConfig metadata.value).index

/-- The number of the latest configuration block. -/
def lastConfigIndex (b : Block) : Except ClientError UInt64 := do
  match ← b.metadataAt signaturesSlot with
  | none => b.lastConfigInOwnSlot
  | some metadata =>
    if metadata.value.isEmpty then b.lastConfigInOwnSlot
    else return (← decodeMessage OrdererBlockMetadata metadata.value).lastConfig.index

/-- The configuration that a configuration block holds. -/
def configEnvelope (b : Block) : Except ClientError ConfigEnvelope := do
  match b.data.data with
  | [] => throw (.invalidArgument s!"block {b.header.number.toNat} is empty")
  | data :: _ =>
    let envelope ← decodeMessage Envelope data
    let payload ← decodeMessage Payload envelope.payload
    match payload.header with
    | none => throw (.invalidArgument "config block payload has no header")
    | some header =>
      let channelHeader ← decodeMessage ChannelHeader header.channelHeader
      if channelHeader.headerType ≠ .config then
        let kind := Enumeration.name channelHeader.headerType
        throw (.invalidArgument s!"block {b.header.number.toNat} is not a config block ({kind})")
      decodeMessage ConfigEnvelope payload.data

end LedgerClient.Block
