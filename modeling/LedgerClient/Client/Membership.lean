import LedgerClient.Client.BlockFetcher
import LedgerClient.Client.Broadcast
import LedgerClient.Update.Membership
/-!
# Membership changes over the network

The sponsor proposes a change against the configuration in force and submits it with the
signatures it has collected.
-/

namespace LedgerClient

/-- Proposes a change against the configuration that the fetcher finds. -/
def initiateChange (fetcher : BlockFetcher) (change : ConfigChange) (computer : DeltaComputer) :
    Client MembershipProposal := do
  let block ← fetcher.configBlock
  let current ← block.configEnvelope
  propose fetcher.signer fetcher.channelId current.config change computer

/-- Has a proposal ordered with the signatures collected for it. -/
def submitChange (orderer : Orderer) (signer : Signer) (proposal : MembershipProposal)
    (signatures : List ProposalSignature) (milliseconds : Nat) : Client Unit := do
  let envelope ← proposal.submission signer signatures
  broadcastEnvelope orderer envelope milliseconds

end LedgerClient
