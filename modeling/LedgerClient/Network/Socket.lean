import LedgerClient.Network.Node
/-!
# Sockets

Nodes are reached over WebSocket connections.  A session is one connection: the client sends
encoded frames in binary messages, the first of which names the service, and the node answers in
the same way.  A receive passes over all other messages up to the next frame or the end of the
connection.
-/

namespace LedgerClient

inductive SocketMessage where
  | binary (content : Bytes)
  | text (content : String)
  | ping (content : Bytes)
  | pong (content : Bytes)
  | close
  /-- The connection breaks. -/
  | failure (reason : String)
  deriving DecidableEq

/-- A connection as the node behaves on it.  Incoming messages come with the milliseconds that
pass before each. -/
structure Connection where
  handshake : Reply Unit := .now ()
  sending : Reply Unit := .now ()
  incoming : List (Nat × SocketMessage) := []
  /-- Whether the connection ends after the last message. -/
  ended : Bool := false
  closing : Reply Unit := .now ()

/-- How the nodes of a network answer when they are dialed. -/
structure Network where
  dial : (address : String) → (service : Service) → (opening : Nat) → Connection

/-! ## Sending -/

/-- What the client does on a connection: how and when it ends, and the frames that the client has
sent by then, earliest first.  A frame may carry what the client is given, so it is a function of
that. -/
structure Exchange (given α : Type) where
  reply : Reply α
  sent : List (given → Frame) := []

namespace Exchange

variable {given α β : Type}

/-- An exchange that is followed by another one where it was answered. -/
def andThen (x : Exchange given α) (y : Exchange given β) : Exchange given β where
  reply := x.reply.andThen y.reply
  sent := match x.reply.outcome with
    | .answered _ => x.sent ++ y.sent
    | _ => x.sent

/-- The frames that are sent for what is given. -/
def frames (x : Exchange given α) (a : given) : List Frame := x.sent.map fun frame => frame a

end Exchange

namespace Connection

variable {given : Type}

def dialing (c : Connection) (connectMs : Nat) : Exchange given Unit where
  reply := c.handshake.within connectMs (.timeout "connect" connectMs)

/-- Sends a frame in a binary message. -/
def send (c : Connection) (frame : given → Frame) : Exchange given Unit where
  reply := c.sending
  sent := [frame]

/-- Dials a node and names the service. -/
def opening (c : Connection) (connectMs : Nat) (service : Service) : Exchange given Unit :=
  (c.dialing connectMs).andThen (c.send fun _ => .opening service)

end Connection

/-! ## Receiving -/

/-- What a message means to a receive; `none` for one that is passed over. -/
def frameOf (address : String) : SocketMessage → Option (Except ClientError Frame)
  | .binary content =>
    some (match fromWire Frame content with
      | .error fault => .error (.undecodable fault)
      | .ok (.failure reason) => .error (.transport address reason)
      | .ok frame => .ok frame)
  | .close => some (.error (.transport address "connection closed"))
  | .failure reason => some (.error (.transport address reason))
  | .text _ | .ping _ | .pong _ => none

/-- Whether nothing comes after a message. -/
def SocketMessage.isLast : SocketMessage → Bool
  | .close | .failure _ => true
  | _ => false

def connectionClosed (address : String) : ClientError := .transport address "connection closed"

/-- The frame has to be of the kind that the session is for. -/
def unexpectedFrame (address expected : String) (frame : Frame) : ClientError :=
  .transport address s!"expected {expected}, got {frame.kind}"

def expectProposalResponse (address : String) : Frame → Except ClientError ProposalResponse
  | .proposalResponse response => .ok response
  | frame => .error (unexpectedFrame address "proposal response" frame)

def expectBroadcast (address : String) : Frame → Except ClientError BroadcastResponse
  | .broadcast response => .ok response
  | frame => .error (unexpectedFrame address "broadcast response" frame)

def expectDeliver (address : String) : Frame → Except ClientError DeliverResponse
  | .deliver response => .ok response
  | frame => .error (unexpectedFrame address "deliver response" frame)

section

variable {α : Type}

def Reply.ofResult (delay : Nat) : Except ClientError α → Reply α
  | .ok a => { delay := delay, outcome := .answered a }
  | .error e => { delay := delay, outcome := .failed e }

/-- The receives of a session, one after the other.  `waited` is the time that has passed since
the last one. -/
def receives (address : String) (expect : Frame → Except ClientError α) (ended : Bool) :
    (waited : Nat) → List (Nat × SocketMessage) → List (Reply α)
  | waited, [] => if ended then [.ofResult waited (.error (connectionClosed address))] else []
  | waited, (delay, message) :: rest =>
    match frameOf address message with
    | none => receives address expect ended (waited + delay) rest
    | some result =>
      let reply := Reply.ofResult (waited + delay) (result >>= expect)
      if message.isLast then [reply] else reply :: receives address expect ended 0 rest

/-- Whether the connection ends at some time. -/
def Connection.ends (c : Connection) : Bool := c.ended || c.incoming.any fun m => m.2.isLast

/-- The session of a service on a connection: it begins with the opening, and envelopes are sent
after that. -/
def Session.ofConnection (address : String) (connectMs : Nat) (service : Service)
    (expect : Frame → Except ClientError α) (c : Connection) : Session α where
  opening := (c.opening connectMs service : Exchange Unit Unit).reply
  sending := (c.send Frame.envelope).reply
  receiving := (receives address expect c.ended 0 c.incoming).map fun r =>
    { delay := r.delay
      outcome := match r.outcome with
        | .answered a => .answered fun _ => a
        | .failed e => .failed e
        | .silent => .silent }
  ended := if c.ends then some (connectionClosed address) else none
  closing := c.closing

end

/-! ## Nodes -/

/-- What is done for a proposal: one session, which is closed after the response. -/
def Connection.proposing (c : Connection) (address : String) (connectMs : Nat) :
    Exchange SignedProposal ProposalResponse :=
  let asked := (c.opening connectMs .endorser).andThen (c.send .proposal)
  match receives address (expectProposalResponse address) c.ended 0 c.incoming with
  | [] => asked.andThen { reply := { outcome := .silent } }
  | r :: _ =>
    let received := asked.andThen { reply := r }
    match r.outcome with
    | .answered response => received.andThen { reply := c.closing.after response }
    | _ => received

namespace Network

def endorser (n : Network) (connectMs : Nat) (id : NodeId) : Endorser where
  id := id
  reply call := ((n.dial id.address .endorser call).proposing id.address connectMs).reply

def deliverPeer (n : Network) (connectMs : Nat) (id : NodeId) : DeliverPeer where
  id := id
  session opening := .ofConnection id.address connectMs .deliverFiltered
    (expectDeliver id.address) (n.dial id.address .deliverFiltered opening)

def orderer (n : Network) (connectMs : Nat) (id : NodeId) : Orderer where
  id := id
  broadcast opening := .ofConnection id.address connectMs .broadcast
    (expectBroadcast id.address) (n.dial id.address .broadcast opening)
  deliver opening := .ofConnection id.address connectMs .deliver
    (expectDeliver id.address) (n.dial id.address .deliver opening)

end Network

end LedgerClient
