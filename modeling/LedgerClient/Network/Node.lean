import LedgerClient.Error
import LedgerClient.Message.Ordering
/-!
# Nodes

A node is known by how it answers.  A `Reply` comes after a delay or not at all; a `Session` is
what one stream does from its opening to its close.  Call number `n` of a node gets reply number
`n`, so that a node may behave differently each time.
-/

namespace LedgerClient

inductive NodeRole where
  | endorser
  | committer
  | deliver
  | orderer
  deriving DecidableEq, Repr

structure NodeId where
  role : NodeRole
  index : Nat
  address : String
  deriving DecidableEq, Repr

/-- How a call ends. -/
inductive Outcome (α : Type) where
  | answered (a : α)
  | failed (error : ClientError)
  /-- The call never ends. -/
  | silent

/-- How a call ends, and how many milliseconds it takes. -/
structure Reply (α : Type) where
  delay : Nat := 0
  outcome : Outcome α

/-- The reply that comes at once. -/
def Reply.now {α : Type} (a : α) : Reply α := { outcome := .answered a }

/-- The instant and the result of a call that begins at an instant, if the call ends. -/
def Reply.ending? {α : Type} (r : Reply α) (start : Nat) : Option (Nat × Except ClientError α) :=
  match r.outcome with
  | .answered a => some (start + r.delay, .ok a)
  | .failed e => some (start + r.delay, .error e)
  | .silent => none

namespace Reply

variable {α β : Type}

/-- A call that is followed by another one where it was answered. -/
def andThen (r : Reply α) (s : Reply β) : Reply β :=
  match r.outcome with
  | .answered _ => { delay := r.delay + s.delay, outcome := s.outcome }
  | .failed e => { delay := r.delay, outcome := .failed e }
  | .silent => { outcome := .silent }

/-- A call that is given up after so many milliseconds. -/
def within (milliseconds : Nat) (expired : ClientError) (r : Reply α) : Reply α :=
  match r.outcome with
  | .silent => { delay := milliseconds, outcome := .failed expired }
  | _ => if milliseconds < r.delay then { delay := milliseconds, outcome := .failed expired } else r

/-- An answer that is given once another call has ended, failed or not. -/
def after (r : Reply β) (a : α) : Reply α :=
  match r.outcome with
  | .silent => { outcome := .silent }
  | _ => { delay := r.delay, outcome := .answered a }

end Reply

/-- What a stream does.  A message may name the transaction that was ordered last, so it is a
function of its id. -/
structure Session (α : Type) where
  opening : Reply Unit := .now ()
  sending : Reply Unit := .now ()
  receiving : List (Reply (String → α)) := []
  /-- The failure of every receive after the last message; without one they never end. -/
  ended : Option ClientError := none
  closing : Reply Unit := .now ()

/-- The session that cannot be opened. -/
def Session.refused {α : Type} (error : ClientError) : Session α where
  opening := { outcome := .failed error }

structure Endorser where
  id : NodeId
  reply : (call : Nat) → Reply ProposalResponse

/-- A peer that reports filtered blocks. -/
structure DeliverPeer where
  id : NodeId
  session : (opening : Nat) → Session DeliverResponse

structure Orderer where
  id : NodeId
  broadcast : (opening : Nat) → Session BroadcastResponse
  deliver : (opening : Nat) → Session DeliverResponse

/-- What a node is asked. -/
inductive Call where
  | proposal (proposal : SignedProposal)
  | openBroadcast
  | openDeliver
  | openFiltered
  | send (envelope : Envelope)
  | receive
  | close
  deriving DecidableEq

/-- A call, and the instant at which it began. -/
structure Asked where
  instant : Nat
  node : NodeId
  call : Call
  deriving DecidableEq

end LedgerClient
