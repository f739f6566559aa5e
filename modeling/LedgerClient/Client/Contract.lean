import LedgerClient.Client.Lifecycle
/-!
# Contracts

A contract is a chaincode that is committed on a channel.
-/

namespace LedgerClient

structure Contract where
  signer : Signer
  endpoints : Endpoints
  channelId : String
  name : String

namespace Contract

/-- The contract of a name, if the chaincode is committed. -/
def find (signer : Signer) (endpoints : Endpoints) (channelId name : String) :
    Client Contract := do
  let committer ← endpoints.committer
  let _ ← queryCommitted signer committer channelId (some name) endpoints.endorseMs
  return ⟨signer, endpoints, channelId, name⟩

/-- Calls a function and has the call ordered; transient data goes to the endorsers only. -/
def invoke (c : Contract) (function : String) (args : List String) (transient : Option String)
    (wait : Option Nat) : Client TxResponse :=
  let call := { Invocation.call c.name function args with transient := transient }
  LedgerClient.invoke c.signer c.endpoints c.channelId (.invoke call) wait

/-- Evaluates a function. -/
def query (c : Contract) (function : String) (args : List String) : Client TxResponse :=
  LedgerClient.query c.signer c.endpoints c.channelId (.query (.call c.name function args))

/-- Has a call endorsed, to be ordered later. -/
def endorse (c : Contract) (function : String) (args : List String) : Client EndorsedProposal :=
  LedgerClient.endorse c.signer c.endpoints c.channelId (.sendOnly (.call c.name function args))

end Contract

end LedgerClient
