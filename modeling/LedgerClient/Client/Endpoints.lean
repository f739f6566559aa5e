import LedgerClient.Network.Node
import LedgerClient.Settings
/-!
# Endpoints

The nodes that a client works with, and its deadlines.
-/

namespace LedgerClient

structure Endpoints where
  orderer : Orderer
  /-- Peers that simulate transactions. -/
  endorsers : List Endorser := []
  /-- Peers on which commit is confirmed. -/
  delivers : List DeliverPeer := []
  /-- The peer that is queried; the first endorser where it is not given. -/
  committer? : Option Endorser := none
  tlsCertHash : Option Bytes := none
  timeouts : Timeouts := {}

namespace Endpoints

def committer (e : Endpoints) : Except ClientError Endorser :=
  match e.committer? <|> e.endorsers.head? with
  | some peer => .ok peer
  | none => .error (.invalidArgument "no committing peer configured")

def endorseMs (e : Endpoints) : Nat := e.timeouts.endorseMs.toNat

def broadcastMs (e : Endpoints) : Nat := e.timeouts.broadcastMs.toNat

end Endpoints

end LedgerClient
