import LedgerClient.Network.Stream
/-!
# Broadcast

An envelope is sent on a stream of its own and has to be acknowledged before the deadline.  The
stream is closed whatever happened, and how that goes changes nothing.
-/

namespace LedgerClient

/-- Sends an envelope and requires that it is accepted. -/
def submitEnvelope (stream : Stream BroadcastResponse) (envelope : Envelope) : Client Unit := do
  stream.submit envelope
  let (response, _) ← stream.receive
  if response.status ≠ .success then
    throw (.broadcastRejected response.status response.info)

def broadcastEnvelope (orderer : Orderer) (envelope : Envelope) (milliseconds : Nat) :
    Client Unit := do
  let expired := ClientError.timeout "broadcast" milliseconds
  let stream ← orderer.openBroadcast
  let result ← Client.attempt <| Client.within milliseconds expired <|
    submitEnvelope stream envelope
  let _ ← Client.attempt <| Client.within milliseconds expired stream.close
  result

end LedgerClient
