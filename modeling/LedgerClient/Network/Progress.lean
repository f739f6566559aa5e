import LedgerClient.Identity.Signer
import LedgerClient.Network.Node
/-!
# Runs

A computation of the client takes it from one `Progress` to the next.  It ends with a result, or it
is stopped: by the limit of the deadline that it runs under, or because it waits for something that
never comes.  `within` puts a deadline on a computation; what has been asked up to the deadline
stays asked.
-/

namespace LedgerClient

structure Progress where
  headers : HeaderSource
  /-- The present instant, in milliseconds. -/
  clock : Nat := 0
  /-- The instant at which the computation is stopped. -/
  limit : Option Nat := none
  /-- How often each service of a node has been asked. -/
  calls : NodeId → Service → Nat := fun _ _ => 0
  /-- What the nodes were asked, earliest first. -/
  asked : List Asked := []
  /-- The id of the transaction that was given to a broadcast stream last. -/
  lastTx : String := ""

/-- A deadline, or the limit of the computation where that comes first. -/
def Progress.before (p : Progress) (deadline : Nat) : Nat :=
  match p.limit with
  | some limit => min limit deadline
  | none => deadline

inductive Run (α : Type) where
  | done (result : Except ClientError α) (progress : Progress)
  | stopped (progress : Progress)

def Run.map {α β : Type} (f : α → β) : Run α → Run β
  | done result progress => done (result.map f) progress
  | stopped progress => stopped progress

/-- A computation of the client. -/
def Client (α : Type) : Type := Progress → Run α

namespace Client

variable {α β : Type}

def run (x : Client α) (p : Progress) : Run α := x p

def result (r : Except ClientError α) : Client α := fun p => .done r p

def andThen (x : Client α) (f : α → Client β) : Client β := fun p =>
  match x p with
  | .done (.ok a) p => f a p
  | .done (.error e) p => .done (.error e) p
  | .stopped p => .stopped p

instance : Monad Client where
  pure a := result (.ok a)
  bind := andThen

instance : MonadExceptOf ClientError Client where
  throw e := result (.error e)
  tryCatch x f := fun p =>
    match x p with
    | .done (.error e) p => f e p
    | r => r

instance : MonadLift (Except ClientError) Client := ⟨result⟩

/-- Makes headers. -/
def issue (x : Issuing α) : Client α := fun p =>
  match x p.headers with
  | .ok a headers => .done (.ok a) { p with headers := headers }
  | .error e headers => .done (.error e) { p with headers := headers }

instance : MonadLift Issuing Client := ⟨issue⟩

def progress : Client Progress := fun p => .done (.ok p) p

def modify (f : Progress → Progress) : Client Unit := fun p => .done (.ok ()) (f p)

/-- The outcome as a value, an error being one. -/
def attempt (x : Client α) : Client (Except ClientError α) := fun p =>
  match x p with
  | .done r p => .done (.ok r) p
  | .stopped p => .stopped p

/-- Passes the time up to an instant, if the limit allows it. -/
def passTo (instant : Nat) : Client Unit := fun p =>
  match p.limit with
  | some limit =>
    if limit < instant then .stopped { p with clock := limit }
    else .done (.ok ()) { p with clock := instant }
  | none => .done (.ok ()) { p with clock := instant }

/-- Waits for what never comes. -/
def never : Client α := fun p => .stopped { p with clock := p.limit.getD p.clock }

def await (r : Reply α) : Client α := do
  passTo ((← progress).clock + r.delay)
  match r.outcome with
  | .answered a => pure a
  | .failed e => throw e
  | .silent => never

/-- Runs a computation for so many milliseconds at most; what it has achieved at the deadline
itself counts. -/
def within (milliseconds : Nat) (expired : ClientError) (x : Client α) : Client α := fun p =>
  let deadline := p.clock + milliseconds
  match x { p with limit := some (p.before deadline) } with
  | .done r q => .done r { q with limit := p.limit }
  | .stopped q =>
    if p.before deadline = deadline then
      .done (.error expired) { q with clock := deadline, limit := p.limit }
    else .stopped { q with limit := p.limit }

/-- Notes that a call begins. -/
def note (node : NodeId) (call : Call) : Client Unit :=
  modify fun p => { p with asked := p.asked ++ [⟨p.clock, node, call⟩] }

end Client

/-- Counts one more call of a service of a node. -/
def countCall (calls : NodeId → Service → Nat) (node : NodeId) (service : Service) :
    NodeId → Service → Nat :=
  fun n s => if n = node ∧ s = service then calls n s + 1 else calls n s

/-- The numbers of one call to each of several nodes, and the counts after these calls. -/
def numberCalls (service : Service) (calls : NodeId → Service → Nat) :
    List NodeId → List Nat × (NodeId → Service → Nat)
  | [] => ([], calls)
  | node :: rest =>
    let (numbers, after) := numberCalls service (countCall calls node service) rest
    (calls node service :: numbers, after)

/-- The number of the next call of a service; the call is counted. -/
def Client.number (node : NodeId) (service : Service) : Client Nat := do
  let n := (← progress).calls node service
  modify fun p => { p with calls := countCall p.calls node service }
  return n

/-- The id of the transaction that an envelope carries, if it carries one. -/
def Envelope.txId (envelope : Envelope) : String :=
  let id : Except ClientError String := do
    let payload ← decodeMessage Payload envelope.payload
    match payload.header with
    | none => return ""
    | some header => return (← decodeMessage ChannelHeader header.channelHeader).txId
  match id with
  | .ok id => id
  | .error _ => ""

end LedgerClient
