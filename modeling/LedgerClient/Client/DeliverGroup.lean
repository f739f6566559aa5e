import LedgerClient.Network.Stream
import LedgerClient.Network.Tasks
import LedgerClient.Transaction.SignedEnvelope
/-!
# Deliver groups

A group confirms a transaction on all of its peers.  `connect` opens a stream to every peer and
asks for the blocks to come; `wait` reads every stream up to the block with the transaction.  Both
stop at the first failure.  The seek requests take their headers in the order in which the streams
open.  A call that is stopped from outside keeps what it has achieved by then, so both give the
group that they leave beside the run.
-/

namespace LedgerClient

structure DeliverGroup where
  clients : List DeliverPeer
  signer : Signer
  channelId : String
  txId : String
  tlsCertHash : Option Bytes := none
  /-- The open streams, in the order in which they connected. -/
  streams : List (Stream DeliverResponse) := []
  /-- How many peers have reported the transaction as valid. -/
  confirmed : Nat := 0

/-! ## Connecting -/

/-- A stream that has opened, by the place of its peer in the group. -/
structure Opening where
  instant : Nat
  place : Nat

/-- A seek request, made when a stream opened, and the headers left after it. -/
structure SeekRequest where
  opening : Opening
  envelope : Except ClientError Envelope
  headers : HeaderSource

/-- Makes the seek requests of streams, earliest opening first. -/
def requestSeeks (seek : Issuing Envelope) : HeaderSource → List Opening → List SeekRequest
  | _, [] => []
  | headers, opening :: rest =>
    let (envelope, headers) := match seek headers with
      | .ok envelope headers => (Except.ok envelope, headers)
      | .error e headers => (Except.error e, headers)
    ⟨opening, envelope, headers⟩ :: requestSeeks seek headers rest

/-- The openings of sessions that begin at an instant, earliest first. -/
def openingsOf (start : Nat) (sessions : List (NodeId × Session DeliverResponse)) :
    List Opening :=
  Task.sortByInstant (·.instant) <| sessions.zipIdx.filterMap fun ((_, session), place) =>
    match session.opening.ending? start with
    | some (instant, .ok ()) => some ⟨instant, place⟩
    | _ => none

/-- The headers left when all requests before an instant have been made. -/
def headersBefore (headers : HeaderSource) (instant : Nat) : List SeekRequest → HeaderSource
  | [] => headers
  | r :: rest =>
    if r.opening.instant < instant then headersBefore r.headers instant rest else headers

/-- Opens a session and sends the seek request. -/
def connectTask (start : Nat) (requests : List SeekRequest) (place : Nat) (node : NodeId)
    (session : Session DeliverResponse) : Task (Stream DeliverResponse) :=
  let opened : Asked := ⟨start, node, .openFiltered⟩
  match requests.find? fun r => r.opening.place = place with
  | none =>
    { asked := [opened]
      ending := match session.opening.ending? start with
        | some (instant, .error e) => some (instant, .error e)
        | _ => none }
  | some ⟨⟨instant, _⟩, .error e, _⟩ => { asked := [opened], ending := some (instant, .error e) }
  | some ⟨⟨instant, _⟩, .ok envelope, _⟩ =>
    { asked := [opened, ⟨instant, node, .send envelope⟩]
      ending := (session.sending.ending? instant).map fun (instant, result) =>
        (instant, result.map fun _ => .ofSession node session) }

/-! ## Waiting -/

/-- What a message on a stream of filtered blocks says about a transaction, if it decides. -/
def verdictOn (txId address : String) : DeliverResponse → Option (Except ClientError Unit)
  | .status status => some (.error (.deliverCompleted txId address status))
  | .block block =>
    let number := block.header.number.toNat
    some (.error (.unexpectedDeliverResponse address
      s!"full block {number} on a filtered stream"))
  | .filteredBlock block =>
    (block.filteredTransactions.find? fun tx => tx.txId = txId).map fun tx =>
      if tx.validationCode = .valid then .ok ()
      else .error (.txInvalidated txId address tx.validationCode)

/-- Closes the stream; the result is reported once the stream is closed. -/
def closeTask (node : NodeId) (closing : Reply Unit) (start : Nat)
    (result : Except ClientError Unit) : Task Unit where
  asked := [⟨start, node, .close⟩]
  ending := (closing.ending? start).map fun (instant, _) => (instant, result)

/-- Reads messages until one decides about the transaction, then closes the stream. -/
def readTask (txId lastTx : String) (s : Stream DeliverResponse) :
    Nat → List (Reply (String → DeliverResponse)) → Task Unit
  | start, [] =>
    let next : Task Unit := match s.ended with
      | none => { ending := none }
      | some e => closeTask s.node s.closing start (.error e)
    { next with asked := ⟨start, s.node, .receive⟩ :: next.asked }
  | start, r :: rest =>
    let next : Task Unit := match r.ending? start with
      | none => { ending := none }
      | some (instant, .error e) => closeTask s.node s.closing instant (.error e)
      | some (instant, .ok message) =>
        match verdictOn txId s.node.address (message lastTx) with
        | some result => closeTask s.node s.closing instant result
        | none => readTask txId lastTx s instant rest
    { next with asked := ⟨start, s.node, .receive⟩ :: next.asked }

/-- Waits on one stream for the transaction. -/
def confirmTask (txId lastTx : String) (start : Nat) (s : Stream DeliverResponse) : Task Unit :=
  readTask txId lastTx s start s.receiving

namespace DeliverGroup

/-- A group to which nothing has happened. -/
def fresh (clients : List DeliverPeer) (signer : Signer) (channelId txId : String)
    (tlsCertHash : Option Bytes) : DeliverGroup where
  clients := clients
  signer := signer
  channelId := channelId
  txId := txId
  tlsCertHash := tlsCertHash

def expired (g : DeliverGroup) (phase : DeliverPhase) (milliseconds : Nat) : ClientError :=
  .deliverTimeout phase g.txId milliseconds

def seek (g : DeliverGroup) : Issuing Envelope :=
  seekEnvelope g.channelId g.signer .newestOnward g.tlsCertHash

/-- The sessions that the group opens next, one for each peer. -/
def sessions (g : DeliverGroup) (p : Progress) : List (NodeId × Session DeliverResponse) :=
  let (numbers, _) := numberCalls .deliverFiltered p.calls (g.clients.map (·.id))
  (g.clients.zip numbers).map fun (peer, n) => (peer.id, peer.session n)

/-- The seek requests for these sessions, in the order in which they open. -/
def requests (g : DeliverGroup) (p : Progress) : List SeekRequest :=
  requestSeeks g.seek p.headers (openingsOf p.clock (g.sessions p))

def connectTasks (g : DeliverGroup) (p : Progress) : List (Task (Stream DeliverResponse)) :=
  (g.sessions p).zipIdx.map fun ((node, session), place) =>
    connectTask p.clock (g.requests p) place node session

/-- What connecting does under a deadline. -/
def connecting (g : DeliverGroup) (milliseconds : Nat) (p : Progress) :
    Fan (Stream DeliverResponse) :=
  let deadline := p.clock + milliseconds
  let group := Task.race p.clock (p.before deadline) (g.connectTasks p)
  { tasks := g.connectTasks p
    group := group
    begun := fun q =>
      { q with
        calls := (numberCalls .deliverFiltered p.calls (g.clients.map (·.id))).2
        headers := headersBefore p.headers group.horizon (g.requests p) }
    deadline := deadline
    expired := g.expired .connect milliseconds }

/-- Opens a stream to every peer; a group that fails to connect has no streams. -/
def connect (g : DeliverGroup) (milliseconds : Nat) (p : Progress) : DeliverGroup × Run Unit :=
  let fan := g.connecting milliseconds p
  let run := (Client.awaitFan fan).run p
  let streams := match run with
    | .done (.error _) _ => []
    | _ => g.streams ++ fan.group.results
  ({ g with streams := streams }, run.map fun _ => ())

/-- The group with a stream to every peer. -/
def connected (g : DeliverGroup) (milliseconds : Nat) : Client DeliverGroup := fun p =>
  let (g, run) := g.connect milliseconds p
  run.map fun _ => g

/-- What waiting does under a deadline. -/
def waiting (g : DeliverGroup) (milliseconds : Nat) (p : Progress) : Fan Unit :=
  let tasks := g.streams.map (confirmTask g.txId p.lastTx p.clock)
  let deadline := p.clock + milliseconds
  { tasks := tasks
    group := Task.race p.clock (p.before deadline) tasks
    deadline := deadline
    expired := g.expired .wait milliseconds }

/-- Reads every open stream up to the block with the transaction.  The streams are used up. -/
def wait (g : DeliverGroup) (milliseconds : Nat) (p : Progress) : DeliverGroup × Run Unit :=
  let fan := g.waiting milliseconds p
  ({ g with streams := [], confirmed := g.confirmed + fan.group.results.length },
    ((Client.awaitFan fan).run p).map fun _ => ())

/-- Waits for the transaction on every open stream. -/
def awaitCommit (g : DeliverGroup) (milliseconds : Nat) : Client Unit := fun p =>
  (g.wait milliseconds p).2

end DeliverGroup

end LedgerClient
