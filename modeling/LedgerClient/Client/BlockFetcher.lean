import LedgerClient.Block.Configuration
import LedgerClient.Network.Stream
import LedgerClient.Transaction.SignedEnvelope
/-!
# Block fetching

Single blocks are read from the ordering service, each on a stream of its own.  A block on the
stream is followed by a status, which is read and passed over.
-/

namespace LedgerClient

structure BlockFetcher where
  orderer : Orderer
  signer : Signer
  channelId : String
  /-- Asks the orderer for what it has instead of a failure. -/
  bestEffort : Bool := false
  tlsCertHash : Option Bytes := none
  timeoutMs : Nat := 10000

/-- Reads the block that a seek request asks for. -/
def readBlock (address : String) (stream : Stream DeliverResponse) (seek : Envelope) :
    Client Block := do
  stream.send seek
  let (response, stream) ← stream.receive
  match response with
  | .block block =>
    let _ ← Client.attempt stream.receive
    return block
  | .status status =>
    throw (.unexpectedDeliverResponse address s!"can't read the block: {status.message}")
  | .filteredBlock block =>
    let number := block.number.toNat
    throw (.unexpectedDeliverResponse address s!"filtered block {number} on a block stream")

namespace BlockFetcher

def fetch (f : BlockFetcher) (position : SeekPosition) : Client Block := do
  let seek := SeekInfo.single position f.bestEffort
  let envelope ← seekEnvelope f.channelId f.signer seek f.tlsCertHash
  let stream ← f.orderer.openDeliver
  let result ← Client.attempt <| Client.within f.timeoutMs (.timeout "block fetch" f.timeoutMs) <|
    readBlock f.orderer.id.address stream envelope
  let _ ← Client.attempt stream.close
  result

def newest (f : BlockFetcher) : Client Block := f.fetch .newest

def oldest (f : BlockFetcher) : Client Block := f.fetch .oldest

def specified (f : BlockFetcher) (number : UInt64) : Client Block := f.fetch (.specified number)

/-- The block with the configuration in force; the newest block names it. -/
def configBlock (f : BlockFetcher) : Client Block := do
  let newest ← f.newest
  let index ← newest.lastConfigIndex
  if index = newest.header.number then return newest
  f.specified index

end BlockFetcher

end LedgerClient
