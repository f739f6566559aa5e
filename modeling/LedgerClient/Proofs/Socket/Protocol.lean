import LedgerClient.Proofs.Socket.Receiving
import LedgerClient.Proofs.Socket.Sending
import LedgerClient.Proofs.Wire.Size
/-!
# The protocol on sockets

What the client sends on its sessions, and what comes of it.

* `proposing_ending_iff`: what comes of a proposal on a connection that carries it.
  `returns_ok_iff`: a receive returns a value if the first message that counts is a frame of the
  kind.
* `StreamSpeaks`, `EndorserSpeaks`: that a handle keeps to the protocol.  `network_speaks`: all
  handles do.
-/

namespace LedgerClient

variable {α : Type} {p q : Progress}

/-! ## Proposals -/

/-- The node is reached in time and takes what it is sent.  The close frame is sent as well; whether
it is taken does not matter, but sending it comes to an end. -/
structure Connection.Carries (c : Connection) (connectMs : Nat) : Prop
    extends c.Connects connectMs where
  sends : c.sending.outcome = .answered ()
  closes : c.closing.outcome ≠ .silent

section Proposals

variable {address : String} {connectMs wait : Nat} {c : Connection} {feed rest : Feed}
  {kind : FrameKind α} {result : Except ClientError ProposalResponse}

/-- On a connection that carries it, a proposal has been sent after a while. -/
theorem asked_of_carries (hc : c.Carries connectMs) :
    ((c.opening connectMs .endorser).andThen (c.send Frame.proposal)).reply.outcome =
      .answered () :=
  Reply.andThen_answered_iff.2
    ⟨⟨(), Connection.opening_answered_iff.2 ⟨hc.toConnects, hc.sends⟩⟩, hc.sends⟩

theorem after_of_not_silent {β : Type} {r : Reply β} (h : r.outcome ≠ .silent) (a : α) :
    (r.after a).outcome = .answered a := by
  rw [Reply.after]
  split
  · rename_i hsilent
    exact absurd hsilent h
  · rfl

/-- What follows an answer comes of both. -/
theorem andThen_outcome {β : Type} {r : Reply α} {a : α} (h : r.outcome = .answered a)
    (s : Reply β) : (r.andThen s).outcome = s.outcome := by
  rw [Reply.andThen, h]

/-- What the first receive brings is what comes of a proposal. -/
theorem proposing_of_returns (hc : c.Carries connectMs)
    (hr : proposalResponses.Returns address c.feed wait result rest) :
    ∃ t, (c.proposing address connectMs).reply.ending? 0 = some (t, result) := by
  obtain ⟨more, hmore, -⟩ :=
    receives_of_returns (proposalResponses_letThrough address) hr 0
  have hasked := asked_of_carries hc
  rw [Connection.proposing, show receives address (expectProposalResponse address) c.ended 0
    c.incoming = _ from hmore]
  cases result with
  | error e => exact ⟨_, Reply.ending?_eq_error.2 ⟨andThen_outcome hasked _, rfl⟩⟩
  | ok response =>
    have hreceived := andThen_outcome hasked (Reply.ofResult (0 + wait) (.ok response))
    refine ⟨_, Reply.ending?_eq_ok.2 ⟨(andThen_outcome hreceived _).trans ?_, rfl⟩⟩
    exact after_of_not_silent hc.closes response

theorem proposing_of_idle (hc : c.Carries connectMs) (hidle : c.feed.Idle) :
    (c.proposing address connectMs).reply.outcome = .silent := by
  rw [Connection.proposing, show receives address (expectProposalResponse address) c.ended 0
    c.incoming = [] from receives_of_idle hidle 0]
  exact andThen_outcome (asked_of_carries hc) _

/-- What comes of a proposal is what a receive on its session returns. -/
theorem proposing_ending_iff (hc : c.Carries connectMs) :
    (∃ t, (c.proposing address connectMs).reply.ending? 0 = some (t, result)) ↔
      ∃ wait rest, proposalResponses.Returns address c.feed wait result rest := by
  constructor
  · rintro ⟨t, hending⟩
    obtain ⟨wait, r, rest, hreturns⟩ | hidle :=
      returns_or_idle (proposalResponses_letThrough address) c.feed
    · obtain ⟨t', hending'⟩ := proposing_of_returns hc hreturns
      rw [hending] at hending'
      cases hending'
      exact ⟨wait, rest, hreturns⟩
    · rw [Reply.ending?, proposing_of_idle hc hidle] at hending
      cases hending
  · rintro ⟨wait, rest, hreturns⟩
    exact proposing_of_returns hc hreturns

/-- A response is given only when the close frame has been sent or has failed. -/
theorem not_silent_of_proposing {response : ProposalResponse}
    (h : (c.proposing address connectMs).reply.outcome = .answered response) :
    c.closing.outcome ≠ .silent := by
  rw [Connection.proposing] at h
  split at h
  · cases (Reply.andThen_answered_iff.1 h).2
  · dsimp only at h
    split at h
    · intro hsilent
      have hafter := (Reply.andThen_answered_iff.1 h).2
      rw [Reply.after, hsilent] at hafter
      cases hafter
    · rename_i hnot
      exact absurd (Reply.andThen_answered_iff.1 h).2 (hnot response)

/-- The first message that counts is binary, and a frame of the kind that carries a value. -/
def Feed.BeginsWith (feed : Feed) (kind : FrameKind α) (a : α) : Prop :=
  ∃ passed delay content more, feed.messages = passed ++ (delay, .binary content) :: more ∧
    (∀ m ∈ passed, m.2.PassedOver) ∧ fromWire Frame content = .ok (kind.frame a)

/-- A receive returns a value exactly if the first message that counts carries it. -/
theorem returns_ok_iff {a : α} :
    (∃ wait rest, kind.Returns address feed wait (.ok a) rest) ↔ feed.BeginsWith kind a := by
  constructor
  · rintro ⟨wait, rest, hreturns⟩
    generalize hr : Except.ok a = r at hreturns
    induction hreturns with
    | passedOver hm _ ih =>
      obtain ⟨passed, delay, content, more, rfl, hpassed, hcontent⟩ := ih hr
      exact ⟨_ :: passed, delay, content, more, rfl, List.forall_mem_cons.2 ⟨hm, hpassed⟩,
        hcontent⟩
    | message hm _ =>
      subst hr
      cases hm with
      | expected hcontent => exact ⟨[], _, _, _, rfl, nofun, hcontent⟩
    | last hm hlast =>
      subst hr
      cases hm with
      | expected hcontent => cases hlast
    | ended => cases hr
  · rintro ⟨passed, delay, content, more, hmessages, hpassed, hcontent⟩
    obtain ⟨messages, ended⟩ := feed
    obtain rfl : messages = _ := hmessages
    induction passed with
    | nil => exact ⟨_, _, .message (.expected hcontent) rfl⟩
    | cons m passed ih =>
      obtain ⟨hm, hrest⟩ := List.forall_mem_cons.1 hpassed
      obtain ⟨wait, rest, hreturns⟩ := ih hrest
      exact ⟨_, _, .passedOver hm hreturns⟩

/-- A response comes of a proposal exactly if the first message that counts carries it. -/
theorem proposing_answered_iff {response : ProposalResponse} (hc : c.Carries connectMs) :
    (c.proposing address connectMs).reply.outcome = .answered response ↔
      c.feed.BeginsWith proposalResponses response := by
  have hending : (c.proposing address connectMs).reply.outcome = .answered response ↔
      ∃ t, (c.proposing address connectMs).reply.ending? 0 = some (t, .ok response) :=
    ⟨fun h => ⟨_, Reply.ending?_eq_ok.2 ⟨h, rfl⟩⟩, fun ⟨_, h⟩ => (Reply.ending?_eq_ok.1 h).1⟩
  exact hending.trans ((proposing_ending_iff hc).trans returns_ok_iff)

end Proposals

/-! ## Handles -/

/-- The streams of a handle keep to the protocol.  `opens` opens the next session, on the next
connection; what the calls of the session come to and what they send are parts of one exchange. -/
structure StreamSpeaks (kind : FrameKind α) (service : Service) (id : NodeId)
    (connection : Nat → Connection) (connectMs : Nat) (session : Nat → Session α)
    (opens : Client (Stream α)) : Prop where
  opening : ∀ number, (session number).opening =
    ((connection number).opening connectMs service : Exchange Unit Unit).reply
  sending : ∀ number, (session number).sending = ((connection number).send Frame.envelope).reply
  opened : ∀ (p q : Progress) (s : Stream α), opens p = .done (.ok s) q →
    s = .ofSession id (session (p.calls id service))
  receives : ∀ (number n : Nat) (p : Progress) (results : List (Except ClientError α)),
    p.limit = none → ((∃ q, (Stream.ofSession id (session number)).receiveTimes n p =
        .done (.ok results) q) ↔
      results.length = n ∧ kind.Transcript id.address (connection number).feed results)
  sends : ∀ (script : List StreamCall) (p : Progress), ∃ calls,
    ((opens >>= fun s => s.perform script) p).progress.asked = p.asked ++ calls ∧
      (∀ a ∈ calls, a.node = id) ∧
      let c := connection (p.calls id service)
      let sent := calls.flatMap fun a => c.framesOf connectMs service a.call
      (c.Connects connectMs → ∃ frames, sent = .opening service :: frames ∧
        ∀ frame ∈ frames, ∃ envelope, frame = .envelope envelope) ∧
      (¬c.Connects connectMs → sent = [])
  names : fromWire Frame (toWire (Frame.opening service)) = .ok (.opening service)

/-- An endorser keeps to the protocol, on one connection for each proposal. -/
structure EndorserSpeaks (e : Endorser) (connection : Nat → Connection) (connectMs : Nat) :
    Prop where
  replies : ∀ number, e.reply number =
    ((connection number).proposing e.id.address connectMs).reply
  asks : ∀ (proposal : SignedProposal) (milliseconds : Nat) (p : Progress),
    (endorseOne proposal e milliseconds p).progress.asked =
      p.asked ++ [⟨p.clock, e.id, .proposal proposal⟩]
  sends : ∀ (proposal : SignedProposal) (number : Nat),
    let c := connection number
    let sent := (c.proposing e.id.address connectMs).frames proposal
    (c.Connects connectMs → c.sending.outcome = .answered () →
      sent = [.opening .endorser, .proposal proposal]) ∧
    (c.Connects connectMs → c.sending.outcome ≠ .answered () → sent = [.opening .endorser]) ∧
    (¬c.Connects connectMs → sent = [])
  names : fromWire Frame (toWire (Frame.opening .endorser)) = .ok (.opening .endorser)
  carries : ∀ proposal : SignedProposal, proposal.proposalBytes.length < 2 ^ 32 →
    proposal.signature.length < 2 ^ 32 →
    fromWire Frame (toWire (Frame.proposal proposal)) = .ok (.proposal proposal)
  ends : ∀ number, (connection number).Carries connectMs →
    ∀ result, (∃ t, (e.reply number).ending? 0 = some (t, result)) ↔
      ∃ wait rest, proposalResponses.Returns e.id.address (connection number).feed wait result rest
  responds : ∀ number, (connection number).Carries connectMs →
    ∀ response, (e.reply number).outcome = .answered response ↔
      (connection number).feed.BeginsWith proposalResponses response
  closes : ∀ number response, (e.reply number).outcome = .answered response →
    (connection number).closing.outcome ≠ .silent

theorem streamSpeaks_openSession {kind : FrameKind α} {service : Service} {id : NodeId}
    {call : Call} {expect : Frame → Except ClientError α}
    (hkind : kind.LetThrough id.address expect)
    (hcall : ∀ (c : Connection) connectMs, c.framesOf connectMs service call =
      (c.opening connectMs service).frames ())
    (hnames : fromWire Frame (toWire (Frame.opening service)) = .ok (.opening service))
    (connection : Nat → Connection) (connectMs : Nat) :
    let session := fun number => Session.ofConnection id.address connectMs service expect
      (connection number)
    StreamSpeaks kind service id connection connectMs session
      (openSession id service call session) where
  opening _ := rfl
  sending _ := rfl
  opened _ _ _ h := (Client.openSession_done_ok.1 h).2.2.1
  receives number _ _ _ hlimit :=
    receiveTimes_iff (follows_ofConnection hkind connectMs service (connection number)) hlimit
  sends script p := by
    obtain ⟨more, hasked, hmore, hopening⟩ := openSession_perform_asked id service call
      (fun number => Session.ofConnection id.address connectMs service expect (connection number))
      script p
    refine ⟨_, hasked, List.forall_mem_cons.2 ⟨rfl, fun a ha => (hmore a ha).1⟩, ?_⟩
    intro c sent
    have hsent : sent = (c.opening connectMs service).frames () ++
        more.flatMap fun a => c.framesOf connectMs service a.call := by
      rw [← hcall]
      exact List.flatMap_cons
    refine ⟨fun hconnects => ?_, fun hnot => ?_⟩
    · rw [Connection.frames_opening hconnects] at hsent
      refine ⟨_, hsent, fun frame hframe => ?_⟩
      obtain ⟨a, ha, hframe'⟩ := List.mem_flatMap.1 hframe
      exact exists_envelope_of_onStream (hmore a ha).2 hframe'
    · have hnone : more = [] := hopening.resolve_left fun hanswered =>
        hnot (Connection.opening_answered_iff.1 hanswered).1
      rw [hsent, Connection.frames_opening_of_not_connects hnot, hnone]
      rfl
  names := hnames

theorem endorserSpeaks (n : Network) (connectMs : Nat) (id : NodeId) :
    EndorserSpeaks (n.endorser connectMs id) (n.dial id.address .endorser) connectMs where
  replies _ := rfl
  asks proposal milliseconds p := by
    rw [endorseOne_apply, Client.await_asked]
    rfl
  sends proposal number := by
    refine ⟨fun hconnects hsending => Connection.frames_proposing _ hconnects hsending proposal,
      fun hconnects hsending => ?_, fun hnot => ?_⟩
    · exact (Connection.frames_proposing_of_not_opened _ proposal fun h => hsending h.2).trans
        (Connection.frames_opening hconnects .endorser proposal)
    · exact (Connection.frames_proposing_of_not_opened _ proposal fun h => hnot h.1).trans
        (Connection.frames_opening_of_not_connects hnot .endorser proposal)
  names := fromWire_toWire rfl trivial
  carries proposal hproposal hsignature := fromWire_toWire rfl ⟨hproposal, hsignature, trivial⟩
  ends number hc result := proposing_ending_iff hc
  responds number hc response := proposing_answered_iff hc
  closes _ _ h := not_silent_of_proposing h

def plainResponse : ProposalResponse := ⟨1, ⟨200, "", []⟩, [], none⟩

/-- The endorsers say this and that before they respond.  The other nodes answer with a frame of
another kind and with one that is none, and close the connection. -/
def talkativeNetwork : Network where
  dial
    | _, .endorser, _ => { incoming := [(1, .text "hello"), (1, .ping []),
        (1, .binary (toWire (Frame.proposalResponse plainResponse)))] }
    | _, _, _ => { incoming := [(0, .pong []),
        (2, .binary (toWire (Frame.deliver (.status .success)))), (1, .binary []), (1, .close)] }

end LedgerClient
