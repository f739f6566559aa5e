import LedgerClient.Network.Node
import Mathlib.Logic.Function.Basic
/-!
# Handing results over

Tasks that run side by side hand the results of their calls to a coordinator, over one channel for
answers and one for failures.  The coordinator reads neither before all tasks have finished, so a
task could wait for ever on a full channel.  Each channel has room for a value of every task.

`Handover.Step` is what a task does, and `Handover.Reached` is how far the tasks have got after steps
in any order, with the tasks that have handed over a result, in their order.
-/

namespace LedgerClient

variable {α : Type}

/-- The result of a call, if it ends. -/
def Reply.result? (r : Reply α) : Option (Except ClientError α) :=
  match r.outcome with
  | .answered a => some (.ok a)
  | .failed e => some (.error e)
  | .silent => none

/-! ## Tasks and channels -/

/-- A channel with room for so many values, the first one sent first. -/
structure Mailbox (β : Type) where
  capacity : Nat
  values : List β := []

namespace Mailbox

variable {β : Type}

/-- A value can be sent at once. -/
def HasRoom (m : Mailbox β) : Prop := m.values.length < m.capacity

def send (m : Mailbox β) (b : β) : Mailbox β := { m with values := m.values ++ [b] }

end Mailbox

/-- What a task does. -/
inductive TaskPhase (α : Type) where
  | calling
  /-- The call has ended, and its result is to be handed over. -/
  | holding (result : Except ClientError α)
  | finished

/-- Tasks side by side, with the channels to their coordinator. -/
structure Handover (α : Type) (n : Nat) where
  phase : Fin n → TaskPhase α
  answers : Mailbox α
  failures : Mailbox ClientError

namespace Handover

variable {n : Nat}

/-- All tasks have begun; each channel has room for one value of every task. -/
def begun (α : Type) (n : Nat) : Handover α n where
  phase := fun _ => .calling
  answers := { capacity := n }
  failures := { capacity := n }

/-- The channel for a result has room. -/
def HasRoom (s : Handover α n) : Except ClientError α → Prop
  | .ok _ => s.answers.HasRoom
  | .error _ => s.failures.HasRoom

def send (s : Handover α n) : Except ClientError α → Handover α n
  | .ok a => { s with answers := s.answers.send a }
  | .error e => { s with failures := s.failures.send e }

/-- A task goes on to another phase. -/
def moved (s : Handover α n) (i : Fin n) (phase : TaskPhase α) : Handover α n :=
  { s with phase := Function.update s.phase i phase }

/-- All tasks have finished, so the coordinator goes on. -/
def Finished (s : Handover α n) : Prop := ∀ i, s.phase i = .finished

/-- What the coordinator returns: the first failure or, without one, all answers. -/
def collected (s : Handover α n) : Except ClientError (List α) :=
  match s.failures.values with
  | e :: _ => .error e
  | [] => .ok s.answers.values

/-! ## Steps -/

/-- A step of a task.  A step that hands over a result is marked with the task; it waits while the
channel is full. -/
inductive Step (replies : List (Reply α)) :
    Handover α replies.length → Option (Fin replies.length) → Handover α replies.length → Prop
  | callEnds {s i result} (hphase : s.phase i = .calling)
      (hresult : (replies.get i).result? = some result) :
      Step replies s none (s.moved i (.holding result))
  | handsOver {s i result} (hphase : s.phase i = .holding result) (hroom : s.HasRoom result) :
      Step replies s (some i) ((s.send result).moved i .finished)

/-- After some steps, in which these tasks have handed over their results. -/
inductive Reached (replies : List (Reply α)) :
    List (Fin replies.length) → Handover α replies.length → Prop
  | begun : Reached replies [] (begun α replies.length)
  | step {handed s mark s'} (h : Reached replies handed s) (hstep : Step replies s mark s') :
      Reached replies (handed ++ mark.toList) s'

@[simp] theorem moved_phase_self (s : Handover α n) (i : Fin n) (phase : TaskPhase α) :
    (s.moved i phase).phase i = phase := by
  simp only [moved, Function.update_self]

@[simp] theorem moved_phase_of_ne {s : Handover α n} {i j : Fin n} {phase : TaskPhase α}
    (h : j ≠ i) : (s.moved i phase).phase j = s.phase j := by
  simp only [moved, Function.update_of_ne h]

@[simp] theorem send_phase (s : Handover α n) (result : Except ClientError α) :
    (s.send result).phase = s.phase := by
  cases result <;> rfl

end Handover

end LedgerClient
