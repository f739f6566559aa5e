import LedgerClient.Network.Progress
/-!
# Tasks side by side

Tasks that start together do not disturb each other, so each has a timeline of its own: what it
asks, and when and how it ends, if it ends at all.  `completions` lists the endings in the order in
which they come.  `gather` waits for all of the tasks, `race` stops at the first failure.  What
would happen at the deadline itself comes too late, so under a deadline of zero milliseconds no
task even begins.
-/

namespace LedgerClient

structure Task (α : Type) where
  asked : List Asked := []
  /-- The instant of the end, and the result. -/
  ending : Option (Nat × Except ClientError α)

namespace Task

variable {α : Type}

/-- Puts an entry before the entries of later instants. -/
def insertByInstant {β : Type} (instant : β → Nat) (b : β) : List β → List β
  | [] => [b]
  | c :: l => if instant b ≤ instant c then b :: c :: l else c :: insertByInstant instant b l

/-- Entries by instant; entries of the same instant keep their order. -/
def sortByInstant {β : Type} (instant : β → Nat) : List β → List β
  | [] => []
  | b :: l => insertByInstant instant b (sortByInstant instant l)

/-- The endings before a deadline, in the order in which they come. -/
def completions (deadline : Nat) (tasks : List (Task α)) : List (Nat × Except ClientError α) :=
  sortByInstant (·.1) ((tasks.filterMap (·.ending)).filter fun e => e.1 < deadline)

/-- What the tasks ask before an instant. -/
def askedBefore (instant : Nat) (tasks : List (Task α)) : List Asked :=
  sortByInstant (·.instant) ((tasks.flatMap (·.asked)).filter fun a => a.instant < instant)

/-- The results of endings without failures. -/
def results (endings : List (Nat × Except ClientError α)) : List α :=
  endings.filterMap fun e => e.2.toOption

/-- The first failure, and its instant. -/
def firstFailure? : List (Nat × Except ClientError α) → Option (Nat × ClientError)
  | [] => none
  | (instant, .error e) :: _ => some (instant, e)
  | (_, .ok _) :: rest => firstFailure? rest

/-- The instant of the last ending. -/
def lastInstant (start : Nat) : List (Nat × Except ClientError α) → Nat
  | [] => start
  | e :: rest => lastInstant (max start e.1) rest

end Task

/-- How far a group of tasks comes under a deadline. -/
structure GroupEnd (α : Type) where
  /-- What lies before this instant has happened. -/
  horizon : Nat
  completions : List (Nat × Except ClientError α)
  /-- The instant of the end and the failure there, if the group ends before the deadline. -/
  ending : Option (Nat × Option ClientError)

namespace GroupEnd

variable {α : Type}

/-- The end of a group at an instant; what happens at that instant belongs to it. -/
def reached (instant : Nat) (completions : List (Nat × Except ClientError α))
    (failure : Option ClientError) : GroupEnd α :=
  ⟨instant + 1, completions, some (instant, failure)⟩

def expired (deadline : Nat) (completions : List (Nat × Except ClientError α)) : GroupEnd α :=
  ⟨deadline, completions, none⟩

def results (g : GroupEnd α) : List α := Task.results g.completions

end GroupEnd

namespace Task

variable {α : Type}

/-- Waits for all tasks, failed or not; the first failure is reported when all have ended. -/
def gather (start deadline : Nat) (tasks : List (Task α)) : GroupEnd α :=
  let endings := completions deadline tasks
  if endings.length < tasks.length then .expired deadline endings
  else .reached (lastInstant start endings) endings ((firstFailure? endings).map (·.2))

/-- Waits for all tasks up to the first failure.  What ends at the same instant as the failure has
ended too. -/
def race (start deadline : Nat) (tasks : List (Task α)) : GroupEnd α :=
  let endings := completions deadline tasks
  match firstFailure? endings with
  | some (instant, e) => .reached instant (endings.filter fun c => c.1 ≤ instant) (some e)
  | none =>
    if endings.length < tasks.length then .expired deadline endings
    else .reached (lastInstant start endings) endings none

end Task

/-- What a client waits for side by side. -/
structure Fan (α : Type) where
  tasks : List (Task α)
  group : GroupEnd α
  /-- What the beginning of the tasks does. -/
  begun : Progress → Progress := id
  deadline : Nat
  expired : ClientError

/-- Waits for a fan of tasks: notes what they asked and passes the time up to the end. -/
def Client.awaitFan {α : Type} (fan : Fan α) : Client (List α) := fun p =>
  let started := if p.clock < fan.group.horizon then fan.begun p else p
  let q := { started with asked := p.asked ++ Task.askedBefore fan.group.horizon fan.tasks }
  match fan.group.ending with
  | some (instant, none) => .done (.ok fan.group.results) { q with clock := instant }
  | some (instant, some e) => .done (.error e) { q with clock := instant }
  | none =>
    if p.before fan.deadline = fan.deadline then
      .done (.error fan.expired) { q with clock := fan.deadline }
    else .stopped { q with clock := p.before fan.deadline }

end LedgerClient
