import LedgerClient.Channel.Creation
import LedgerClient.Update.Session
/-!
# Channel sources

A channel is created from an encoded envelope, or from a consortium and its members.
-/

namespace LedgerClient

inductive ChannelSource where
  | bytes (envelope : Bytes)
  /-- What was found where the envelope should be. -/
  | file (content : Except FileFault Bytes)
  | application (consortium : String) (organizations : List Organization)

def ChannelSource.envelope (channelId : String) (time : Timestamp) :
    ChannelSource → Except ClientError Envelope
  | bytes envelope => decodeMessage Envelope envelope
  | file content => do decodeMessage Envelope (← content.mapError .file)
  | application consortium organizations => do
    let update ← creationUpdate channelId consortium organizations
    return (UpdateSession.start channelId (toWire update)).envelope time

end LedgerClient
