import LedgerClient.Network.Tasks
/-!
# Endorsement

A signed proposal goes to one peer, or to several at once.  Of several, all have to answer before
the deadline; their responses come in the order in which they arrive.
-/

namespace LedgerClient

/-- Asks a peer to simulate a proposal. -/
def Endorser.process (e : Endorser) (proposal : SignedProposal) : Client ProposalResponse := do
  let reply := e.reply (← Client.number e.id .endorser)
  Client.note e.id (.proposal proposal)
  Client.await reply

def endorsementExpired (milliseconds : Nat) : ClientError := .timeout "endorsement" milliseconds

def endorseOne (proposal : SignedProposal) (endorser : Endorser) (milliseconds : Nat) :
    Client ProposalResponse :=
  Client.within milliseconds (endorsementExpired milliseconds) (endorser.process proposal)

/-- What becomes of a proposal that a peer is sent at an instant. -/
def endorsementTask (start : Nat) (proposal : SignedProposal) (node : NodeId)
    (reply : Reply ProposalResponse) : Task ProposalResponse where
  asked := [⟨start, node, .proposal proposal⟩]
  ending := reply.ending? start

/-- What becomes of a proposal that several peers are sent. -/
def endorsementTasks (proposal : SignedProposal) (endorsers : List Endorser) (p : Progress) :
    List (Task ProposalResponse) :=
  let (numbers, _) := numberCalls .endorser p.calls (endorsers.map (·.id))
  (endorsers.zip numbers).map fun (e, n) => endorsementTask p.clock proposal e.id (e.reply n)

/-- What endorsement does under a deadline. -/
def endorsing (proposal : SignedProposal) (endorsers : List Endorser) (milliseconds : Nat)
    (p : Progress) : Fan ProposalResponse :=
  let tasks := endorsementTasks proposal endorsers p
  let deadline := p.clock + milliseconds
  { tasks := tasks
    group := Task.gather p.clock (p.before deadline) tasks
    begun := fun q =>
      { q with calls := (numberCalls .endorser p.calls (endorsers.map (·.id))).2 }
    deadline := deadline
    expired := endorsementExpired milliseconds }

/-- Asks all peers at once. -/
def collectEndorsements (proposal : SignedProposal) (endorsers : List Endorser)
    (milliseconds : Nat) : Client (List ProposalResponse) := fun p =>
  (Client.awaitFan (endorsing proposal endorsers milliseconds p)).run p

end LedgerClient
