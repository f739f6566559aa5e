import LedgerClient.Client.Broadcast
import LedgerClient.Proofs.Runs
/-!
# Broadcasting an envelope

* `Orderer.Acknowledges`: the broadcast stream opens, takes the envelope and reports
  success in time.  `broadcast_done_ok`: a broadcast that gives success was acknowledged.
* `broadcast_of_acknowledges`: nothing else is needed, if nothing outside stops the client.
* `broadcast_done_error`: every failure is what the orderer reports, a rejection or
  the expiry of the deadline.
* `broadcast_asked_of_opens`, `broadcast_asked_of_not_opens`: a stream is opened, and
  if it opens, one envelope is sent on it; after that messages are received and the
  stream is closed.  `envelopesIn_of_opens`, `envelopesIn_of_not_opens`: the same for the envelopes
  alone.
-/

namespace LedgerClient

namespace Stream

/-- The stream takes the envelope of a transaction and reports success within so many
milliseconds. -/
def Acknowledges (s : Stream BroadcastResponse) (txId : String) (milliseconds : Nat) : Prop :=
  s.sending.outcome = .answered () ∧ ∃ reply rest message, s.receiving = reply :: rest ∧
    reply.outcome = .answered message ∧ (message txId).status = .success ∧
    s.sending.delay + reply.delay ≤ milliseconds

/-- The stream fails to report success for the envelope of a transaction. -/
inductive Refuses (s : Stream BroadcastResponse) (txId : String) : ClientError → Prop
  | unsent {e : ClientError} : s.sending.outcome = .failed e → Refuses s txId e
  | broken {e : ClientError} {reply : Reply (String → BroadcastResponse)}
      {rest : List (Reply (String → BroadcastResponse))} : s.receiving = reply :: rest →
      reply.outcome = .failed e → Refuses s txId e
  | ended {e : ClientError} : s.receiving = [] → s.ended = some e → Refuses s txId e
  | rejected {reply : Reply (String → BroadcastResponse)}
      {rest : List (Reply (String → BroadcastResponse))} {message : String → BroadcastResponse} :
      s.receiving = reply :: rest → reply.outcome = .answered message →
      (message txId).status ≠ .success →
      Refuses s txId (.broadcastRejected (message txId).status (message txId).info)

theorem Refuses.not_acknowledges {s : Stream BroadcastResponse} {txId : String} {e : ClientError}
    (h : s.Refuses txId e) (milliseconds : Nat) : ¬s.Acknowledges txId milliseconds := by
  rintro ⟨hsend, reply, rest, message, hreceiving, hreply, hstatus, -⟩
  cases h with
  | unsent h =>
    rw [h] at hsend
    cases hsend
  | broken h hfailed =>
    rw [h] at hreceiving
    cases hreceiving
    rw [hfailed] at hreply
    cases hreply
  | ended h =>
    rw [h] at hreceiving
    cases hreceiving
  | rejected h hanswered hrejected =>
    rw [h] at hreceiving
    cases hreceiving
    rw [hanswered] at hreply
    cases hreply
    exact hrejected hstatus

end Stream

namespace Orderer

/-- The session that the next broadcast opens. -/
def nextBroadcast (o : Orderer) (p : Progress) : Session BroadcastResponse :=
  o.broadcast (p.calls o.id .broadcast)

/-- The stream of the next broadcast. -/
def nextStream (o : Orderer) (p : Progress) : Stream BroadcastResponse :=
  .ofSession o.id (o.nextBroadcast p)

/-- The next broadcast stream opens, and nothing outside stops the client before that. -/
def Opens (o : Orderer) (p : Progress) : Prop :=
  (o.nextBroadcast p).opening.outcome = .answered () ∧
    p.Reaches (p.clock + (o.nextBroadcast p).opening.delay)

/-- The orderer accepts an envelope: its stream opens, and the stream acknowledges. -/
def Acknowledges (o : Orderer) (p : Progress) (envelope : Envelope) (milliseconds : Nat) : Prop :=
  (o.nextBroadcast p).opening.outcome = .answered () ∧
    (o.nextStream p).Acknowledges envelope.txId milliseconds

/-- Which broadcast comes next depends on the count of broadcasts only. -/
theorem nextBroadcast_congr {o : Orderer} {p q : Progress}
    (h : q.calls o.id .broadcast = p.calls o.id .broadcast) :
    o.nextBroadcast q = o.nextBroadcast p := by
  rw [nextBroadcast, nextBroadcast, h]

/-- Whether the stream opens depends on the instant, the limit and the count of broadcasts only. -/
theorem opens_congr {o : Orderer} {p q : Progress} (hclock : q.clock = p.clock)
    (hlimit : q.limit = p.limit) (hcalls : q.calls o.id .broadcast = p.calls o.id .broadcast) :
    o.Opens q ↔ o.Opens p := by
  rw [Opens, Opens, nextBroadcast_congr hcalls, hclock, Progress.reaches_congr hlimit]

end Orderer

/-! ## Receiving -/

section Receiving

variable {α : Type} {s : Stream α} {p q : Progress}

theorem receive_cons_apply {reply : Reply (String → α)}
    {rest : List (Reply (String → α))} (h : s.receiving = reply :: rest)
    (p : Progress) :
    s.receive p = (Client.await reply >>= fun message => do
        return (message (← Client.progress).lastTx, s.next))
      { p with asked := p.asked ++ [⟨p.clock, s.node, .receive⟩] } := by
  rw [Stream.receive, h]
  rfl

theorem receive_nil_apply (h : s.receiving = []) (p : Progress) :
    s.receive p = (match s.ended with
        | none => Client.never
        | some e => throw e : Client (α × Stream α))
      { p with asked := p.asked ++ [⟨p.clock, s.node, .receive⟩] } := by
  rw [Stream.receive, h]
  cases s.ended <;> rfl

theorem receive_done_ok {response : α × Stream α} :
    s.receive p = .done (.ok response) q ↔
      ∃ reply rest message, s.receiving = reply :: rest ∧ reply.outcome = .answered message ∧
        p.Reaches (p.clock + reply.delay) ∧ response = (message p.lastTx, s.next) ∧
        q = { p with
          asked := p.asked ++ [⟨p.clock, s.node, .receive⟩], clock := p.clock + reply.delay } := by
  cases hs : s.receiving with
  | nil =>
    rw [receive_nil_apply hs]
    constructor
    · intro h
      cases he : s.ended with
      | none =>
        rw [he] at h
        cases h
      | some e =>
        rw [he] at h
        cases h
    · rintro ⟨reply, rest, message, h, -⟩
      cases h
  | cons reply rest =>
    rw [receive_cons_apply hs, Client.bind_done_ok]
    constructor
    · rintro ⟨message, r, hawait, hreturn⟩
      obtain ⟨ho, hr, rfl⟩ := Client.await_done_ok.1 hawait
      cases hreturn
      exact ⟨reply, rest, message, rfl, ho, hr, rfl, rfl⟩
    · rintro ⟨reply', rest', message, h, ho, hr, rfl, rfl⟩
      cases h
      exact ⟨message, _, Client.await_done_ok.2 ⟨ho, hr, rfl⟩, rfl⟩

end Receiving

/-! ## The exchange -/

section Exchange

variable {s : Stream BroadcastResponse} {envelope : Envelope} {p q : Progress}

/-- The progress when an envelope goes out. -/
def Progress.submitted (p : Progress) (node : NodeId) (envelope : Envelope) : Progress :=
  { p with lastTx := envelope.txId, asked := p.asked ++ [⟨p.clock, node, .send envelope⟩] }

/-- Receives an acknowledgment and requires that it is a success. -/
def requireAcknowledgment (s : Stream BroadcastResponse) : Client Unit := do
  let (response, _) ← s.receive
  if response.status ≠ .success then
    throw (.broadcastRejected response.status response.info)

theorem submitEnvelope_apply (s : Stream BroadcastResponse) (envelope : Envelope) (p : Progress) :
    submitEnvelope s envelope p =
      (Client.await s.sending >>= fun _ => requireAcknowledgment s)
        (p.submitted s.node envelope) := rfl

theorem receive_refused {e : ClientError} (h : s.receive p = .done (.error e) q)
    (txId : String) : s.Refuses txId e := by
  cases hs : s.receiving with
  | nil =>
    rw [receive_nil_apply hs] at h
    cases he : s.ended with
    | none =>
      rw [he] at h
      cases h
    | some e' =>
      rw [he] at h
      cases h
      exact .ended hs he
  | cons reply rest =>
    rw [receive_cons_apply hs, Client.bind_done_error] at h
    rcases h with h | ⟨message, r, -, h⟩
    · exact .broken hs (Client.await_done_error.1 h).1
    · cases h

theorem requireAcknowledgment_done_ok :
    requireAcknowledgment s p = .done (.ok ()) q ↔
      ∃ response r, s.receive p = .done (.ok (response, r)) q ∧ response.status = .success := by
  rw [requireAcknowledgment, Client.bind_done_ok]
  constructor
  · rintro ⟨⟨response, r⟩, q', hr, h⟩
    dsimp only at h
    split at h
    · cases h
    · rename_i hs
      cases h
      exact ⟨response, r, hr, not_not.1 hs⟩
  · rintro ⟨response, r, hr, hs⟩
    refine ⟨_, _, hr, ?_⟩
    dsimp only
    rw [if_neg (not_not.2 hs)]
    rfl

theorem requireAcknowledgment_done_error {e : ClientError} :
    requireAcknowledgment s p = .done (.error e) q ↔
      s.receive p = .done (.error e) q ∨
        ∃ response r, s.receive p = .done (.ok (response, r)) q ∧ response.status ≠ .success ∧
          e = .broadcastRejected response.status response.info := by
  rw [requireAcknowledgment, Client.bind_done_error]
  refine or_congr_right ?_
  constructor
  · rintro ⟨⟨response, r⟩, q', hr, h⟩
    dsimp only at h
    split at h
    · rename_i hs
      cases h
      exact ⟨response, r, hr, hs, rfl⟩
    · cases h
  · rintro ⟨response, r, hr, hs, rfl⟩
    refine ⟨_, _, hr, ?_⟩
    dsimp only
    rw [if_pos hs]
    rfl

/-- An envelope is accepted when the stream takes it and the first message is a success. -/
theorem submitEnvelope_done_ok :
    submitEnvelope s envelope p = .done (.ok ()) q ↔
      s.sending.outcome = .answered () ∧ ∃ reply rest message, s.receiving = reply :: rest ∧
        reply.outcome = .answered message ∧ (message envelope.txId).status = .success ∧
        p.Reaches (p.clock + s.sending.delay + reply.delay) ∧
        q = { p with
          lastTx := envelope.txId
          asked := p.asked ++ [⟨p.clock, s.node, .send envelope⟩] ++
            [⟨p.clock + s.sending.delay, s.node, .receive⟩]
          clock := p.clock + s.sending.delay + reply.delay } := by
  rw [submitEnvelope_apply, Client.bind_done_ok]
  constructor
  · rintro ⟨_, r, hsend, hack⟩
    obtain ⟨hsent, -, rfl⟩ := Client.await_done_ok.1 hsend
    obtain ⟨response, s', hreceive, hstatus⟩ := requireAcknowledgment_done_ok.1 hack
    obtain ⟨reply, rest, message, hr, hm, hreach, heq, rfl⟩ := receive_done_ok.1 hreceive
    cases heq
    exact ⟨hsent, reply, rest, message, hr, hm, hstatus, hreach, rfl⟩
  · rintro ⟨hsent, reply, rest, message, hr, hm, hstatus, hreach, rfl⟩
    have hreach' : p.Reaches (p.clock + s.sending.delay) := hreach.mono (Nat.le_add_right _ _)
    refine ⟨(), _, Client.await_done_ok.2 ⟨hsent, hreach', rfl⟩, ?_⟩
    refine requireAcknowledgment_done_ok.2 ⟨message envelope.txId, s.next, ?_, hstatus⟩
    exact receive_done_ok.2 ⟨reply, rest, message, hr, hm, hreach, rfl, rfl⟩

theorem submitEnvelope_refused {e : ClientError}
    (h : submitEnvelope s envelope p = .done (.error e) q) : s.Refuses envelope.txId e := by
  rw [submitEnvelope_apply, Client.bind_done_error] at h
  rcases h with h | ⟨_, r, hsend, hack⟩
  · exact .unsent (Client.await_done_error.1 h).1
  · obtain ⟨-, -, rfl⟩ := Client.await_done_ok.1 hsend
    rcases requireAcknowledgment_done_error.1 hack with h | ⟨response, s', h, hstatus, rfl⟩
    · exact receive_refused h _
    · obtain ⟨reply, rest, message, hr, hm, -, heq, -⟩ := receive_done_ok.1 h
      cases heq
      exact .rejected hr hm hstatus

/-- Under a deadline an envelope is accepted when the acknowledgment comes in time. -/
theorem within_submitEnvelope_done_ok {milliseconds : Nat} {expired : ClientError}
    (h : Client.within milliseconds expired (submitEnvelope s envelope) p = .done (.ok ()) q) :
    s.Acknowledges envelope.txId milliseconds ∧ q.lastTx = envelope.txId ∧ q.limit = p.limit := by
  obtain ⟨r, hrun, rfl⟩ := Client.within_done_ok.1 h
  obtain ⟨hsent, reply, rest, message, hr, hm, hstatus, hreach, rfl⟩ :=
    submitEnvelope_done_ok.1 hrun
  have hle := (Progress.reaches_within.1 hreach).1
  exact ⟨⟨hsent, reply, rest, message, hr, hm, hstatus, by dsimp only at hle; omega⟩, rfl, rfl⟩

theorem within_submitEnvelope_done_error {milliseconds : Nat} {expired e : ClientError}
    (h : Client.within milliseconds expired (submitEnvelope s envelope) p =
      .done (.error e) q) :
    ¬s.Acknowledges envelope.txId milliseconds ∧ (s.Refuses envelope.txId e ∨ e = expired) := by
  rcases Client.within_done_error.1 h with ⟨r, hrun, -⟩ | ⟨r, hrun, hreach, rfl, -⟩
  · have hrefused := submitEnvelope_refused hrun
    exact ⟨hrefused.not_acknowledges _, .inl hrefused⟩
  · refine ⟨?_, .inr rfl⟩
    -- An acknowledgment in time would have ended the run before the deadline.
    rintro ⟨hsent, reply, rest, message, hr, hm, hstatus, hle⟩
    have hin : p.clock + s.sending.delay + reply.delay ≤ p.clock + milliseconds := by omega
    have hdone := submitEnvelope_done_ok.2 ⟨hsent, reply, rest, message, hr, hm, hstatus,
      Progress.reaches_within.2 ⟨hin, hreach.mono hin⟩, rfl⟩
    rw [hrun] at hdone
    cases hdone

theorem requireAcknowledgment_asksOnly (s : Stream BroadcastResponse) :
    Client.AsksOnly (fun _ c => c = .receive) (requireAcknowledgment s) := by
  refine .bind (.bind (.note rfl) fun _ => ?_) fun response => ?_
  · split
    · exact .never
    · exact .throw _
    · exact .bind (.await _) fun _ => .bind .progress fun _ => .pure _
  · dsimp only
    split
    · exact .throw _
    · exact .pure _

theorem submitEnvelope_asked (s : Stream BroadcastResponse) (envelope : Envelope) (p : Progress) :
    ∃ more, (submitEnvelope s envelope p).progress.asked =
        p.asked ++ ⟨p.clock, s.node, .send envelope⟩ :: more ∧
      ∀ a ∈ more, a.call = .receive := by
  rw [submitEnvelope_apply]
  obtain ⟨more, hasked, hmore⟩ :=
    (Client.AsksOnly.await s.sending).bind (fun _ => requireAcknowledgment_asksOnly s)
      (p.submitted s.node envelope)
  exact ⟨more, hasked.trans (List.append_cons _ _ _).symm, hmore⟩

/-! ## The whole broadcast -/

/-- Submits an envelope on an open stream under a deadline, then closes the stream. -/
def exchange (s : Stream BroadcastResponse) (envelope : Envelope) (milliseconds : Nat) :
    Client Unit := do
  let expired := ClientError.timeout "broadcast" milliseconds
  let result ← Client.attempt <| Client.within milliseconds expired <| submitEnvelope s envelope
  let _ ← Client.attempt <| Client.within milliseconds expired s.close
  result

theorem Stream.close_progress (s : Stream BroadcastResponse) (p : Progress) :
    ∃ clock, (s.close p).progress =
      { p with asked := p.asked ++ [⟨p.clock, s.node, .close⟩], clock := clock } := by
  rw [Stream.close, Client.bind_of_ok (Client.note_apply _ _ _)]
  exact Client.await_progress _ _

theorem exchange_done {milliseconds : Nat} {r : Except ClientError Unit}
    (h : exchange s envelope milliseconds p = .done r q) :
    ∃ q', Client.within milliseconds (.timeout "broadcast" milliseconds)
        (submitEnvelope s envelope) p = .done r q' ∧
      q.lastTx = q'.lastTx ∧ q.limit = q'.limit := by
  obtain ⟨result, q', hsubmit, h⟩ := Client.attempt_bind_done.1 h
  obtain ⟨closed, q'', hclose, h⟩ := Client.attempt_bind_done.1 h
  cases h
  obtain ⟨clock, hwithin⟩ :=
    Client.within_progress milliseconds (.timeout "broadcast" milliseconds) s.close q'
  obtain ⟨clock', hinner⟩ :=
    s.close_progress { q' with limit := some (q'.before (q'.clock + milliseconds)) }
  rw [hclose, hinner] at hwithin
  refine ⟨q', hsubmit, ?_⟩
  rw [show q = _ from hwithin]
  exact ⟨rfl, rfl⟩

theorem within_submitEnvelope_of_acknowledges {milliseconds : Nat} (hlimit : p.limit = none)
    (h : s.Acknowledges envelope.txId milliseconds) (expired : ClientError) :
    ∃ q, Client.within milliseconds expired (submitEnvelope s envelope) p = .done (.ok ()) q := by
  obtain ⟨hsent, reply, rest, message, hreceiving, hreply, hstatus, hle⟩ := h
  let inner : Progress := { p with limit := some (p.before (p.clock + milliseconds)) }
  have hinner : inner.Reaches (inner.clock + s.sending.delay + reply.delay) :=
    Progress.reaches_within.2
      ⟨show p.clock + _ + _ ≤ _ by omega, Progress.reaches_of_limit_none hlimit _⟩
  exact ⟨_, Client.within_done_ok.2 ⟨_, submitEnvelope_done_ok.2
    ⟨hsent, reply, rest, message, hreceiving, hreply, hstatus, hinner, rfl⟩, rfl⟩⟩

/-- What is acknowledged is a success, however the close of the stream goes. -/
theorem exchange_of_acknowledges {milliseconds : Nat} (hlimit : p.limit = none)
    (h : s.Acknowledges envelope.txId milliseconds) :
    ∃ q, exchange s envelope milliseconds p = .done (.ok ()) q := by
  obtain ⟨q', hsubmit⟩ :=
    within_submitEnvelope_of_acknowledges hlimit h (.timeout "broadcast" milliseconds)
  have hlimit' : q'.limit = none := (within_submitEnvelope_done_ok hsubmit).2.2.trans hlimit
  obtain ⟨result, q, hclose⟩ := Client.within_of_limit_none hlimit' milliseconds
    (.timeout "broadcast" milliseconds) s.close
  exact ⟨q, Client.attempt_bind_done.2 ⟨_, q', hsubmit,
    Client.attempt_bind_done.2 ⟨result, q, hclose, rfl⟩⟩⟩

theorem exchange_asked (s : Stream BroadcastResponse) (envelope : Envelope) (milliseconds : Nat)
    (p : Progress) :
    ∃ more, (exchange s envelope milliseconds p).progress.asked =
        p.asked ++ ⟨p.clock, s.node, .send envelope⟩ :: more ∧
      ∀ a ∈ more, a.call = .receive ∨ a.call = .close := by
  rw [exchange]
  obtain ⟨received, hreceived, hreceive⟩ := submitEnvelope_asked s envelope
    { p with limit := some (p.before (p.clock + milliseconds)) }
  have hclose : ∀ result : Except ClientError Unit, Client.AsksOnly (fun _ c => c = .close) (do
      let _ ← Client.attempt <|
        Client.within milliseconds (.timeout "broadcast" milliseconds) s.close
      (result : Client Unit)) := fun result =>
    .bind (.attempt (.within (.bind (.note rfl) fun _ => .await _))) fun _ => .lift result
  obtain ⟨closed, hclosed, hall⟩ := Client.bind_asked (Client.attempt <|
    Client.within milliseconds (.timeout "broadcast" milliseconds) <| submitEnvelope s envelope)
    hclose p
  rw [Client.attempt_asked, Client.within_asked, hreceived, List.append_assoc,
    List.cons_append] at hclosed
  refine ⟨received ++ closed, hclosed, fun a ha => ?_⟩
  rcases List.mem_append.1 ha with ha | ha
  · exact .inl (hreceive a ha)
  · exact .inr (hall a ha)

end Exchange

namespace Orderer

variable {o : Orderer} {envelope : Envelope} {milliseconds : Nat} {p q : Progress}

/-- The progress when a broadcast stream is opened. -/
def openingAt (o : Orderer) (p : Progress) : Progress :=
  { p with
    calls := countCall p.calls o.id .broadcast
    asked := p.asked ++ [⟨p.clock, o.id, .openBroadcast⟩] }

/-- The progress when the broadcast stream has opened. -/
def openedAt (o : Orderer) (p : Progress) : Progress :=
  { o.openingAt p with clock := p.clock + (o.nextBroadcast p).opening.delay }

theorem openBroadcast_apply (o : Orderer) (p : Progress) :
    o.openBroadcast p = (Client.await (o.nextBroadcast p).opening >>= fun _ =>
      return o.nextStream p) (o.openingAt p) := rfl

theorem broadcastEnvelope_eq (o : Orderer) (envelope : Envelope) (milliseconds : Nat) :
    broadcastEnvelope o envelope milliseconds =
      o.openBroadcast >>= fun s => exchange s envelope milliseconds := rfl

theorem openBroadcast_done_ok {s : Stream BroadcastResponse} :
    o.openBroadcast p = .done (.ok s) q ↔ o.Opens p ∧ s = o.nextStream p ∧ q = o.openedAt p := by
  refine Client.openSession_done_ok.trans ⟨?_, ?_⟩
  · rintro ⟨ho, hreach, hs, hq⟩
    exact ⟨⟨ho, hreach⟩, hs, hq⟩
  · rintro ⟨⟨ho, hreach⟩, hs, hq⟩
    exact ⟨ho, hreach, hs, hq⟩

theorem openBroadcast_done_error {e : ClientError} (h : o.openBroadcast p = .done (.error e) q) :
    (o.nextBroadcast p).opening.outcome = .failed e := by
  rw [openBroadcast_apply, Client.bind_done_error] at h
  rcases h with h | ⟨_, r, -, h⟩
  · exact (Client.await_done_error.1 h).1
  · cases h

/-- Where the stream does not open, its opening is all that is asked. -/
theorem openBroadcast_progress (o : Orderer) (p : Progress) :
    ∃ clock, (o.openBroadcast p).progress = { o.openingAt p with clock := clock } := by
  rw [openBroadcast_apply]
  obtain ⟨clock, h⟩ := Client.await_progress (o.nextBroadcast p).opening (o.openingAt p)
  cases hrun : Client.await (o.nextBroadcast p).opening (o.openingAt p) with
  | done result q =>
    rw [hrun] at h
    cases result with
    | ok a =>
      rw [Client.bind_of_ok hrun]
      exact ⟨clock, h⟩
    | error e =>
      rw [Client.bind_of_error hrun]
      exact ⟨clock, h⟩
  | stopped q =>
    rw [hrun] at h
    rw [Client.bind_of_stopped hrun]
    exact ⟨clock, h⟩

end Orderer

section Broadcast

variable {o : Orderer} {envelope : Envelope} {milliseconds : Nat} {p q : Progress}

/-- A broadcast that gives success was acknowledged, and its transaction is the last one. -/
theorem broadcast_done_ok
    (h : broadcastEnvelope o envelope milliseconds p = .done (.ok ()) q) :
    o.Opens p ∧ o.Acknowledges p envelope milliseconds ∧ q.lastTx = envelope.txId ∧
      q.limit = p.limit := by
  rw [Orderer.broadcastEnvelope_eq, Client.bind_done_ok] at h
  obtain ⟨s, r, hopen, hexchange⟩ := h
  obtain ⟨hopens, rfl, rfl⟩ := Orderer.openBroadcast_done_ok.1 hopen
  obtain ⟨q', hsubmit, hlast, hlimit⟩ := exchange_done hexchange
  obtain ⟨hack, hlast', hlimit'⟩ := within_submitEnvelope_done_ok hsubmit
  exact ⟨hopens, ⟨hopens.1, hack⟩, hlast.trans hlast', hlimit.trans hlimit'⟩

/-- A broadcast that fails was not acknowledged; the failure is what the orderer reports, a
rejection or the expiry of the deadline. -/
theorem broadcast_done_error {e : ClientError}
    (h : broadcastEnvelope o envelope milliseconds p = .done (.error e) q) :
    ¬o.Acknowledges p envelope milliseconds ∧
      ((o.nextBroadcast p).opening.outcome = .failed e ∨
        (o.nextStream p).Refuses envelope.txId e ∨ e = .timeout "broadcast" milliseconds) := by
  rw [Orderer.broadcastEnvelope_eq, Client.bind_done_error] at h
  rcases h with hopen | ⟨s, r, hopen, hexchange⟩
  · have hfailed := Orderer.openBroadcast_done_error hopen
    refine ⟨fun hack => ?_, .inl hfailed⟩
    have hopened := hack.1
    rw [hfailed] at hopened
    cases hopened
  · obtain ⟨-, rfl, rfl⟩ := Orderer.openBroadcast_done_ok.1 hopen
    obtain ⟨q', hsubmit, -, -⟩ := exchange_done hexchange
    obtain ⟨hnot, hfailure⟩ := within_submitEnvelope_done_error hsubmit
    exact ⟨fun hack => hnot hack.2, .inr hfailure⟩

/-- Without a limit outside, a broadcast that the orderer acknowledges succeeds. -/
theorem broadcast_of_acknowledges (hlimit : p.limit = none)
    (h : o.Acknowledges p envelope milliseconds) :
    ∃ q, broadcastEnvelope o envelope milliseconds p = .done (.ok ()) q := by
  have hopen : o.openBroadcast p = .done (.ok (o.nextStream p)) (o.openedAt p) :=
    Orderer.openBroadcast_done_ok.2 ⟨⟨h.1, Progress.reaches_of_limit_none hlimit _⟩, rfl, rfl⟩
  obtain ⟨q, hexchange⟩ := exchange_of_acknowledges (p := o.openedAt p) hlimit h.2
  exact ⟨q, Client.bind_done_ok.2 ⟨_, _, hopen, hexchange⟩⟩

/-! ## What a broadcast asks -/

def Call.envelope? : Call → Option Envelope
  | .send envelope => some envelope
  | _ => none

/-- The envelopes that were sent, on streams of any kind. -/
def envelopesIn (asked : List Asked) : List Envelope := asked.filterMap fun a => a.call.envelope?

theorem envelopesIn_append (asked asked' : List Asked) :
    envelopesIn (asked ++ asked') = envelopesIn asked ++ envelopesIn asked' :=
  List.filterMap_append

theorem envelopesIn_eq_nil {asked : List Asked} (h : ∀ a ∈ asked, a.call.envelope? = none) :
    envelopesIn asked = [] :=
  List.filterMap_eq_nil_iff.2 h

/-- An envelope sent on a new stream, with what follows it there, is one envelope. -/
theorem envelopesIn_broadcast (before : List Asked) (t t' : Nat) (node : NodeId)
    (envelope : Envelope) {more : List Asked}
    (hmore : ∀ a ∈ more, a.call = .receive ∨ a.call = .close) :
    envelopesIn (before ++ ⟨t, node, .openBroadcast⟩ :: ⟨t', node, .send envelope⟩ :: more) =
      envelopesIn before ++ [envelope] := by
  have hnone : ∀ a ∈ more, a.call.envelope? = none := by
    intro a ha
    rcases hmore a ha with h | h
    · rw [h]
      rfl
    · rw [h]
      rfl
  rw [envelopesIn_append]
  refine congrArg (envelopesIn before ++ ·) ?_
  exact congrArg (envelope :: ·) (envelopesIn_eq_nil hnone)

/-- On a stream that opens, one envelope is sent. -/
theorem broadcast_asked_of_opens (envelope : Envelope) (milliseconds : Nat) (h : o.Opens p) :
    ∃ t more, (broadcastEnvelope o envelope milliseconds p).progress.asked =
        p.asked ++ ⟨p.clock, o.id, .openBroadcast⟩ :: ⟨t, o.id, .send envelope⟩ :: more ∧
      p.clock ≤ t ∧ ∀ a ∈ more, a.call = .receive ∨ a.call = .close := by
  rw [Orderer.broadcastEnvelope_eq,
    Client.bind_of_ok (Orderer.openBroadcast_done_ok.2 ⟨h, rfl, rfl⟩)]
  obtain ⟨more, hasked, hmore⟩ :=
    exchange_asked (o.nextStream p) envelope milliseconds (o.openedAt p)
  refine ⟨(o.openedAt p).clock, more, hasked.trans ?_, Nat.le_add_right _ _, hmore⟩
  exact (List.append_cons _ _ _).symm

/-- Without an open stream nothing else is asked. -/
theorem broadcast_asked_of_not_opens (envelope : Envelope) (milliseconds : Nat)
    (h : ¬o.Opens p) :
    (broadcastEnvelope o envelope milliseconds p).progress.asked =
      p.asked ++ [⟨p.clock, o.id, .openBroadcast⟩] := by
  obtain ⟨clock, hopen⟩ := o.openBroadcast_progress p
  rw [Orderer.broadcastEnvelope_eq]
  cases hrun : o.openBroadcast p with
  | done result q =>
    rw [hrun] at hopen
    cases result with
    | ok s => exact absurd (Orderer.openBroadcast_done_ok.1 hrun).1 h
    | error e =>
      rw [Client.bind_of_error hrun]
      exact congrArg Progress.asked hopen
  | stopped q =>
    rw [hrun] at hopen
    rw [Client.bind_of_stopped hrun]
    exact congrArg Progress.asked hopen

theorem envelopesIn_of_opens (envelope : Envelope) (milliseconds : Nat) (h : o.Opens p) :
    envelopesIn (broadcastEnvelope o envelope milliseconds p).progress.asked =
      envelopesIn p.asked ++ [envelope] := by
  obtain ⟨t, more, hasked, -, hmore⟩ := broadcast_asked_of_opens envelope milliseconds h
  rw [hasked]
  exact envelopesIn_broadcast p.asked _ _ _ envelope hmore

theorem envelopesIn_of_not_opens (envelope : Envelope) (milliseconds : Nat) (h : ¬o.Opens p) :
    envelopesIn (broadcastEnvelope o envelope milliseconds p).progress.asked =
      envelopesIn p.asked := by
  rw [broadcast_asked_of_not_opens envelope milliseconds h, envelopesIn_append]
  exact List.append_nil _

end Broadcast

end LedgerClient
