import LedgerClient.Client.DeliverGroup
/-!
# Groups with an error slot

The tasks of a call on a group share a slot for the first error.  A connect takes in what became of
its peers one by one, and stops when the slot holds an error; streams that have come before it are
in the group already.  The calls of a `SharedGroup` are written as these loops.
-/

namespace LedgerClient

/-- What connecting does under a deadline, up to the end of a loop over the peers. -/
def DeliverGroup.connectingUntil (g : DeliverGroup) (milliseconds : Nat) (p : Progress)
    (group : GroupEnd (Stream DeliverResponse)) : Fan (Stream DeliverResponse) :=
  { g.connecting milliseconds p with
    group := group
    begun := fun q =>
      { q with
        calls := (numberCalls .deliverFiltered p.calls (g.clients.map (·.id))).2
        headers := headersBefore p.headers group.horizon (g.requests p) } }

/-- A group with the slot for its first error. -/
structure SharedGroup extends DeliverGroup where
  error : Option ClientError := none

namespace SharedGroup

variable {α : Type}

/-- A new group, with an empty slot. -/
def fresh (clients : List DeliverPeer) (signer : Signer) (channelId txId : String)
    (tlsCertHash : Option Bytes) : SharedGroup where
  toDeliverGroup := .fresh clients signer channelId txId tlsCertHash

/-! ## Loops -/

/-- Keeps the first error. -/
def record (g : SharedGroup) (e : ClientError) : SharedGroup :=
  { g with error := g.error.or (some e) }

/-- Takes in what became of a peer that was to connect. -/
def join (g : SharedGroup) : Except ClientError (Stream DeliverResponse) → SharedGroup
  | .ok s => { g with streams := g.streams ++ [s] }
  | .error e => g.record e

/-- Takes in what became of a stream that was to report the transaction. -/
def report (g : SharedGroup) : Except ClientError Unit → SharedGroup
  | .ok () => { g with confirmed := g.confirmed + 1 }
  | .error e => g.record e

/-- Takes in endings one by one, up to the first after which the slot holds an error.  The instant
is that of this ending. -/
def takeIn (step : SharedGroup → Except ClientError α → SharedGroup) (g : SharedGroup) :
    List (Nat × Except ClientError α) → SharedGroup × Option Nat
  | [] => (g, none)
  | (instant, result) :: rest =>
    let next := step g result
    if next.error.isSome then (next, some instant) else takeIn step next rest

/-- How far such a loop over the endings of tasks comes under a deadline. -/
def loop (step : SharedGroup → Except ClientError α → SharedGroup) (g : SharedGroup)
    (start deadline : Nat) (tasks : List (Task α)) : GroupEnd α :=
  let endings := Task.completions deadline tasks
  match takeIn step g endings with
  | (left, some instant) =>
    .reached instant (endings.filter fun c => c.1 ≤ instant) left.error
  | (left, none) =>
    if endings.length < tasks.length then .expired deadline endings
    else .reached (Task.lastInstant start endings) endings left.error

/-! ## Calls -/

/-- Opens a stream to every peer.  At the deadline the streams are dropped; at an error they are
dropped, and the error is taken out of the slot. -/
def connect (g : SharedGroup) (milliseconds : Nat) (p : Progress) : SharedGroup × Run Unit :=
  let deadline := p.clock + milliseconds
  let tasks := g.connectTasks p
  let group := g.loop join p.clock (p.before deadline) tasks
  let joined := (g.takeIn join (Task.completions (p.before deadline) tasks)).1
  let left := match group.ending with
    | some (_, some _) => { joined with streams := [], error := none }
    | some (_, none) => joined
    | none => if p.before deadline = deadline then { joined with streams := [] } else joined
  (left, (Client.awaitFan (g.connectingUntil milliseconds p group) p).map fun _ => ())

/-- Reads every open stream.  An error is taken out of the slot at the end; what a stream reports is
noted when it does, so what ends at the same instant as a failure is in the group as well. -/
def wait (g : SharedGroup) (milliseconds : Nat) (p : Progress) : SharedGroup × Run Unit :=
  let fan := g.waiting milliseconds p
  let drained : SharedGroup := { g with streams := [] }
  let group := drained.loop report p.clock (p.before fan.deadline) fan.tasks
  let heard := (group.completions.map (·.2)).foldl report drained
  let left := match group.ending with
    | some (_, some _) => { heard with error := none }
    | _ => heard
  (left, (Client.awaitFan { fan with group := group } p).map fun _ => ())

end SharedGroup

end LedgerClient
