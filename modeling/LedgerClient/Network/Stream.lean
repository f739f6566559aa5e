import LedgerClient.Network.Progress
/-!
# Streams

An open stream has left what its session will still receive.
-/

namespace LedgerClient

structure Stream (α : Type) where
  node : NodeId
  sending : Reply Unit
  receiving : List (Reply (String → α))
  ended : Option ClientError
  closing : Reply Unit

namespace Stream

variable {α : Type}

/-- The stream of a session that has been opened. -/
def ofSession (node : NodeId) (session : Session α) : Stream α where
  node := node
  sending := session.sending
  receiving := session.receiving
  ended := session.ended
  closing := session.closing

def send (s : Stream α) (envelope : Envelope) : Client Unit := do
  Client.note s.node (.send envelope)
  Client.await s.sending

/-- Sends an envelope to be ordered; its transaction becomes the last one. -/
def submit (s : Stream α) (envelope : Envelope) : Client Unit := do
  Client.modify fun p => { p with lastTx := envelope.txId }
  s.send envelope

/-- The stream after a receive, whatever that brought. -/
def next (s : Stream α) : Stream α := { s with receiving := s.receiving.tail }

/-- Receives the next message. -/
def receive (s : Stream α) : Client (α × Stream α) := do
  Client.note s.node .receive
  match s.receiving, s.ended with
  | [], none => Client.never
  | [], some e => throw e
  | r :: _, _ =>
    let message ← Client.await r
    return (message (← Client.progress).lastTx, s.next)

def close (s : Stream α) : Client Unit := do
  Client.note s.node .close
  Client.await s.closing

end Stream

/-- Opens a stream of a service: the next session of the node. -/
def openSession {α : Type} (node : NodeId) (service : Service) (call : Call)
    (session : (opening : Nat) → Session α) : Client (Stream α) := do
  let opened := session (← Client.number node service)
  Client.note node call
  Client.await opened.opening
  return .ofSession node opened

namespace Orderer

def openBroadcast (o : Orderer) : Client (Stream BroadcastResponse) :=
  openSession o.id .broadcast .openBroadcast o.broadcast

def openDeliver (o : Orderer) : Client (Stream DeliverResponse) :=
  openSession o.id .deliver .openDeliver o.deliver

end Orderer

def DeliverPeer.openFiltered (d : DeliverPeer) : Client (Stream DeliverResponse) :=
  openSession d.id .deliverFiltered .openFiltered d.session

end LedgerClient
