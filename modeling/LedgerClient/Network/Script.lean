import LedgerClient.Network.Node
/-!
# Scripted nodes

A node that plays a script: call number `n` gets the `n`-th entry, and the last entry again after
the end of the script.  Without any entry every call fails.
-/

namespace LedgerClient

/-- The entry of a number, or the last one after the end. -/
def scriptEntry {α : Type} (absent : α) (script : List α) (n : Nat) : α :=
  (script[n]? <|> script.getLast?).getD absent

def noScript (address : String) : ClientError := .transport address "no script"

def Endorser.scripted (id : NodeId) (replies : List (Reply ProposalResponse)) : Endorser where
  id := id
  reply := scriptEntry { outcome := .failed (noScript id.address) } replies

def DeliverPeer.scripted (id : NodeId) (sessions : List (Session DeliverResponse)) :
    DeliverPeer where
  id := id
  session := scriptEntry (.refused (noScript id.address)) sessions

def Orderer.scripted (id : NodeId) (broadcast : List (Session BroadcastResponse))
    (deliver : List (Session DeliverResponse)) : Orderer where
  id := id
  broadcast := scriptEntry (.refused (noScript id.address)) broadcast
  deliver := scriptEntry (.refused (noScript id.address)) deliver

end LedgerClient
