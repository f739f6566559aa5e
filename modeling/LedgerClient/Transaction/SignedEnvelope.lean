import LedgerClient.Identity.Signer
import LedgerClient.Message.Ordering
/-!
# Signed envelopes

Envelopes that are no transactions go to the ordering service or to a deliver stream as they are:
data under a fresh header, signed.
-/

namespace LedgerClient

/-- The header of an envelope that is no transaction. -/
def plainChannelHeader (headerType : HeaderType) (time : Timestamp) (channelId : String)
    (tlsCertHash : Option Bytes) : ChannelHeader where
  headerType := headerType
  version := 0
  timestamp := time
  channelId := channelId
  txId := ""
  epoch := 0
  extension := []
  tlsCertHash := tlsCertHash

def payloadUnder (channelHeader : ChannelHeader) (signatureHeader : SignatureHeader)
    (data : Bytes) : Payload where
  header := some
    { channelHeader := toWire channelHeader, signatureHeader := toWire signatureHeader }
  data := data

def signedEnvelope (headerType : HeaderType) (channelId : String) (signer : Signer) (data : Bytes)
    (tlsCertHash : Option Bytes) : Issuing Envelope := do
  let header ← signer.newHeader
  let channelHeader := plainChannelHeader headerType (← get).time channelId tlsCertHash
  let payload := toWire (payloadUnder channelHeader header data)
  return { payload := payload, signature := ← signer.sign payload }

/-- A signed request for a range of blocks. -/
def seekEnvelope (channelId : String) (signer : Signer) (seek : SeekInfo)
    (tlsCertHash : Option Bytes) : Issuing Envelope :=
  signedEnvelope .deliverSeekInfo channelId signer (toWire seek) tlsCertHash

end LedgerClient
