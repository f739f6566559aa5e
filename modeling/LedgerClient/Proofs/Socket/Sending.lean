import LedgerClient.Network.Socket
import LedgerClient.Proofs.InTurn
/-!
# Sending on sockets

What the client has sent on a connection is what the exchanges on it have sent.

* `Exchange.sent_andThen_of_answered`, `Exchange.sent_andThen_of_not_answered`: an exchange sends
  what its parts send, up to the first one that is not answered.
* `Connection.frames_opening`: the service is named as soon as the node has been reached.
  `Connection.frames_proposing`: one proposal follows on a connection that takes frames.
* `Stream.perform`: the calls on a stream.  `openSession_perform_asked`: a stream is opened, and
  calls are made on it only where its opening was answered.
* `exists_envelope_of_onStream`: what such a call sends is an envelope.
-/

namespace LedgerClient

variable {α β : Type} {p q : Progress}

theorem Reply.andThen_answered_iff {r : Reply α} {s : Reply β} {b : β} :
    (r.andThen s).outcome = .answered b ↔
      (∃ a, r.outcome = .answered a) ∧ s.outcome = .answered b := by
  rw [andThen]
  cases r.outcome with
  | answered a => exact ⟨fun h => ⟨⟨a, rfl⟩, h⟩, And.right⟩
  | failed e =>
    constructor
    · intro h
      cases h
    · rintro ⟨⟨_, h⟩, -⟩
      cases h
  | silent =>
    constructor
    · intro h
      cases h
    · rintro ⟨⟨_, h⟩, -⟩
      cases h

/-! ## Exchanges -/

namespace Exchange

variable {given : Type} {x : Exchange given α} {y : Exchange given β}

theorem sent_andThen_of_answered {a : α} (h : x.reply.outcome = .answered a) :
    (x.andThen y).sent = x.sent ++ y.sent := by
  rw [andThen]
  simp only [h]

theorem sent_andThen_of_not_answered (h : ∀ a, x.reply.outcome ≠ .answered a) :
    (x.andThen y).sent = x.sent := by
  rw [andThen]
  dsimp only
  split
  · rename_i a ha
    exact absurd ha (h a)
  · rfl

/-- What only waits for the node sends nothing. -/
theorem sent_andThen_waiting (r : Reply β) :
    (x.andThen { reply := r }).sent = x.sent := by
  by_cases h : ∃ a, x.reply.outcome = .answered a
  · obtain ⟨a, ha⟩ := h
    rw [sent_andThen_of_answered ha, List.append_nil]
  · exact sent_andThen_of_not_answered (not_exists.1 h)

end Exchange

/-! ## Connections -/

/-- The node is reached in time. -/
structure Connection.Connects (c : Connection) (connectMs : Nat) : Prop where
  connects : c.handshake.outcome = .answered ()
  inTime : c.handshake.delay ≤ connectMs

namespace Connection

variable {given : Type} {c : Connection} {connectMs : Nat} {service : Service}

theorem dialing_answered_iff :
    (c.dialing connectMs : Exchange given Unit).reply.outcome = .answered () ↔
      c.Connects connectMs :=
  Reply.within_answered_iff.trans ⟨fun ⟨h, h'⟩ => ⟨h, h'⟩, fun ⟨h, h'⟩ => ⟨h, h'⟩⟩

theorem opening_answered_iff :
    (c.opening connectMs service : Exchange given Unit).reply.outcome = .answered () ↔
      c.Connects connectMs ∧ c.sending.outcome = .answered () := by
  refine Reply.andThen_answered_iff.trans (and_congr_left' ⟨?_, fun h => ⟨(), ?_⟩⟩)
  · rintro ⟨_, h⟩
    exact dialing_answered_iff.1 h
  · exact dialing_answered_iff.2 h

/-- The service is named as soon as the node has been reached. -/
theorem frames_opening (h : c.Connects connectMs) (service : Service) (a : given) :
    (c.opening connectMs service : Exchange given Unit).frames a = [.opening service] := by
  rw [Exchange.frames, opening, Exchange.sent_andThen_of_answered (dialing_answered_iff.2 h)]
  rfl

theorem frames_opening_of_not_connects (h : ¬c.Connects connectMs) (service : Service)
    (a : given) : (c.opening connectMs service : Exchange given Unit).frames a = [] := by
  have hnot : ∀ u, (c.dialing connectMs : Exchange given Unit).reply.outcome ≠ .answered u :=
    fun _ hanswered => h (dialing_answered_iff.1 hanswered)
  rw [Exchange.frames, opening, Exchange.sent_andThen_of_not_answered hnot]
  rfl

/-- The exchange for a proposal sends what its first two steps send; then it waits. -/
theorem sent_proposing (c : Connection) (address : String) (connectMs : Nat) :
    (c.proposing address connectMs).sent =
      ((c.opening connectMs .endorser).andThen (c.send Frame.proposal)).sent := by
  rw [proposing]
  split
  · exact Exchange.sent_andThen_waiting _
  · dsimp only
    split
    · rw [Exchange.sent_andThen_waiting, Exchange.sent_andThen_waiting]
    · exact Exchange.sent_andThen_waiting _

/-- On a connection that takes frames, the proposal follows the service. -/
theorem frames_proposing (address : String) (h : c.Connects connectMs)
    (hsending : c.sending.outcome = .answered ()) (proposal : SignedProposal) :
    (c.proposing address connectMs).frames proposal =
      [.opening .endorser, .proposal proposal] := by
  rw [Exchange.frames, sent_proposing,
    Exchange.sent_andThen_of_answered (opening_answered_iff.2 ⟨h, hsending⟩), List.map_append]
  exact congrArg (· ++ [Frame.proposal proposal]) (frames_opening h .endorser proposal)

/-- Where the opening is not answered, nothing follows it. -/
theorem frames_proposing_of_not_opened (address : String) (proposal : SignedProposal)
    (h : ¬(c.Connects connectMs ∧ c.sending.outcome = .answered ())) :
    (c.proposing address connectMs).frames proposal =
      (c.opening connectMs .endorser).frames proposal := by
  rw [Exchange.frames, sent_proposing,
    Exchange.sent_andThen_of_not_answered fun _ ho => h (opening_answered_iff.1 ho)]
  rfl

/-- The frames that a call on a stream sends, by the exchange on the connection that carries it
out. -/
def framesOf (c : Connection) (connectMs : Nat) (service : Service) : Call → List Frame
  | .openBroadcast | .openDeliver | .openFiltered => (c.opening connectMs service).frames ()
  | .send envelope => (c.send Frame.envelope).frames envelope
  | .proposal _ | .receive | .close => []

end Connection

/-! ## Streams -/

/-- What can be done with a stream. -/
inductive StreamCall where
  | send (envelope : Envelope)
  | submit (envelope : Envelope)
  | receive
  | close

/-- Makes calls on a stream one after the other, whatever comes of each. -/
def Stream.perform : List StreamCall → Stream α → Client Unit
  | [], _ => return ()
  | .send envelope :: rest, s => do
    let _ ← Client.attempt (s.send envelope)
    s.perform rest
  | .submit envelope :: rest, s => do
    let _ ← Client.attempt (s.submit envelope)
    s.perform rest
  | .receive :: rest, s => do
    let _ ← Client.attempt s.receive
    s.next.perform rest
  | .close :: rest, s => do
    let _ ← Client.attempt s.close
    s.perform rest

/-- What the node of a stream is asked once the stream is open. -/
inductive Call.OnStream : Call → Prop
  | send (envelope : Envelope) : OnStream (.send envelope)
  | receive : OnStream .receive
  | close : OnStream .close

section Streams

variable {node : NodeId} {service : Service} {call : Call} {session : Nat → Session α}

theorem perform_asksOnly (script : List StreamCall) (s : Stream α) :
    Client.AsksOnly (fun node call => node = s.node ∧ call.OnStream) (s.perform script) := by
  induction script generalizing s with
  | nil => exact .pure ()
  | cons step rest ih =>
    cases step with
    | send envelope =>
      refine .bind (.attempt ?_) fun _ => ih s
      exact .bind (.note ⟨rfl, .send envelope⟩) fun _ => .await _
    | submit envelope =>
      refine .bind (.attempt ?_) fun _ => ih s
      exact .bind (.of_keeps fun _ => rfl) fun _ =>
        .bind (.note ⟨rfl, .send envelope⟩) fun _ => .await _
    | receive =>
      refine .bind (.attempt ?_) fun _ => ih s.next
      refine .bind (.note ⟨rfl, .receive⟩) fun _ => ?_
      split
      · exact .never
      · exact .throw _
      · exact .bind (.await _) fun _ => .bind .progress fun _ => .pure _
    | close =>
      refine .bind (.attempt ?_) fun _ => ih s
      exact .bind (.note ⟨rfl, .close⟩) fun _ => .await _

/-- A session begins with the call that opens it.  Where the opening is answered, nothing but calls
on the stream follows, and where it is not, nothing follows. -/
theorem openSession_perform_asked (node : NodeId) (service : Service) (call : Call)
    (session : Nat → Session α) (script : List StreamCall) (p : Progress) :
    ∃ more, ((openSession node service call session >>= fun s => s.perform script)
        p).progress.asked = p.asked ++ ⟨p.clock, node, call⟩ :: more ∧
      (∀ a ∈ more, a.node = node ∧ a.call.OnStream) ∧
      ((session (p.calls node service)).opening.outcome = .answered () ∨ more = []) := by
  have hopened := Client.openSession_asked node service call session p
  cases h : openSession node service call session p with
  | stopped q =>
    rw [h] at hopened
    rw [Client.bind_of_stopped h]
    exact ⟨[], hopened, nofun, .inr rfl⟩
  | done result q =>
    rw [h] at hopened
    cases result with
    | error e =>
      rw [Client.bind_of_error h]
      exact ⟨[], hopened, nofun, .inr rfl⟩
    | ok s =>
      obtain ⟨hanswered, -, rfl, -⟩ := Client.openSession_done_ok.1 h
      obtain ⟨more, hmore, hall⟩ := perform_asksOnly script _ q
      rw [Client.bind_of_ok h, hmore]
      refine ⟨more, ?_, hall, .inl hanswered⟩
      rw [show q.asked = _ from hopened, List.append_assoc]
      rfl

theorem exists_envelope_of_onStream {c : Connection} {connectMs : Nat} {frame : Frame}
    (h : call.OnStream) (hframe : frame ∈ c.framesOf connectMs service call) :
    ∃ envelope, frame = .envelope envelope := by
  cases h with
  | send envelope => exact ⟨envelope, List.mem_singleton.1 hframe⟩
  | receive => cases hframe
  | close => cases hframe

end Streams

end LedgerClient
