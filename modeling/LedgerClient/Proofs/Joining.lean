import LedgerClient.Client.Gateway
import LedgerClient.Proofs.Fetching
import LedgerClient.Proofs.InTurn
import LedgerClient.Proofs.Transaction.Contents
import LedgerClient.Proofs.Transaction.Later
import LedgerClient.Proofs.Wire.Size
/-!
# Joining a channel

The peers of a gateway join a channel one after the other, and what they answer becomes one
response.  The response is looked for with one notion of success, status 200, and judged with
another one, a status from 200 up to 399.

* `joinChannel_done_ok`, `exists_joinChannel`: what a join makes of what was heard of the peers.
* `joinAnswer_status_iff`, `joinAnswer_isSuccess_iff`: what the one response says about them.
* `joinChannel_isSuccess_iff`: a join is a success exactly if all peers have joined, or the first
  peer that has not answers with another success.  Where no peer answers with another success, it
  is one exactly if all peers have joined.
* `joinChannel_hides_failure`: a peer that has failed behind such an answer.
-/

namespace LedgerClient

/-! ## Fetching -/

section Fetching

variable {α : Type} {service : Service}

theorem send_callsOnly (s : Stream α) (envelope : Envelope) :
    Client.CallsOnly service (s.send envelope) :=
  .bind (.note _ _) fun _ => .await _

theorem receive_callsOnly (s : Stream α) : Client.CallsOnly service s.receive := by
  refine .bind (.note _ _) fun _ => ?_
  split
  · exact .never
  · exact .throw _
  · exact .bind (.await _) fun _ => .bind .progress fun _ => .pure _

theorem close_callsOnly (s : Stream α) : Client.CallsOnly service s.close :=
  .bind (.note _ _) fun _ => .await _

theorem readBlock_callsOnly (address : String) (s : Stream DeliverResponse) (seek : Envelope) :
    Client.CallsOnly service (readBlock address s seek) := by
  refine .bind (send_callsOnly s seek) fun _ => .bind (receive_callsOnly s) ?_
  rintro ⟨response, next⟩
  cases response with
  | block block => exact .bind (.attempt (receive_callsOnly next)) fun _ => .pure _
  | status status => exact .throw _
  | filteredBlock block => exact .throw _

/-- A fetch numbers calls of the deliver service only. -/
theorem fetch_callsOnly (f : BlockFetcher) (position : SeekPosition) :
    Client.CallsOnly .deliver (f.fetch position) := by
  refine .bind (.issue _) fun envelope => .bind ?_ fun s => ?_
  · exact .bind (.number _) fun _ => .bind (.note _ _) fun _ => .bind (.await _) fun _ => .pure _
  · refine .bind (.attempt (.within (readBlock_callsOnly _ s envelope))) fun result => ?_
    exact .bind (.attempt (close_callsOnly s)) fun _ => .lift result

end Fetching

/-! ## The run of a join -/

section Run

variable {orderer : Orderer} {signer : Signer} {peers : List Endorser} {channelId : String}
  {milliseconds : Nat} {p q : Progress} {responses : List Response}

/-- The fetcher of the first block of a channel. -/
def genesisFetcher (orderer : Orderer) (signer : Signer) (channelId : String)
    (milliseconds : Nat) : BlockFetcher where
  orderer := orderer
  signer := signer
  channelId := channelId
  bestEffort := true
  timeoutMs := milliseconds

theorem joinChannel_eq (orderer : Orderer) (signer : Signer) (peers : List Endorser)
    (channelId : String) (milliseconds : Nat) :
    joinChannel orderer signer peers channelId milliseconds =
      (genesisFetcher orderer signer channelId milliseconds).fetch (.specified 0) >>=
        fun genesis => (liftM (buildProposal signer "" (.joinChannel (toWire genesis))) :
          Client BuiltProposal) >>= fun built =>
        (liftM (signProposal built.proposal signer) : Client SignedProposal) >>= fun signed =>
          inTurn signed milliseconds joinResponse peers := rfl

/-- The proposal is one to join the channel that a block begins, as the signer makes it. -/
def SignedProposal.Joins (proposal : SignedProposal) (signer : Signer) (genesis : Block) : Prop :=
  ∃ built headers headers',
    buildProposal signer "" (.joinChannel (toWire genesis)) headers = .ok built headers' ∧
      signProposal built.proposal signer = .ok proposal

theorem heardInTurn_congr (peers : List Endorser) (milliseconds : Nat)
    (h : ∀ node, q.calls node .endorser = p.calls node .endorser) :
    heardInTurn peers milliseconds q = heardInTurn peers milliseconds p := by
  rw [heardInTurn, heardInTurn, numbered, numbered, numberCalls_congr h]

/-- A join that ends with responses has given the same proposal to every peer, in order, and the
responses are what was heard of the peers. -/
theorem joinChannel_done_ok
    (h : joinChannel orderer signer peers channelId milliseconds p = .done (.ok responses) q) :
    responses = (heardInTurn peers milliseconds p).map
        (fun m => joinResponse m.1.id.address m.2) ∧
      ∃ genesis proposal earlier turns, proposal.Joins signer genesis ∧
        q.asked = earlier ++ turns ∧
        turns.map (fun a => (a.node, a.call)) = peers.map fun e => (e.id, .proposal proposal) := by
  rw [joinChannel_eq] at h
  obtain ⟨genesis, p₁, hfetch, h₁⟩ := Client.bind_done_ok.1 h
  obtain ⟨built, p₂, hissue, h₂⟩ := Client.bind_done_ok.1 h₁
  obtain ⟨proposal, p₃, hlift, hturns⟩ := Client.bind_done_ok.1 h₂
  obtain ⟨headers, hbuild, rfl⟩ := Client.issue_done_ok.1 hissue
  obtain ⟨hsign, rfl⟩ := Client.lift_done_ok.1 hlift
  have hkeeps := fetch_callsOnly (genesisFetcher orderer signer channelId milliseconds)
    (.specified 0) p
  rw [hfetch] at hkeeps
  obtain ⟨hresponses, turns, hasked, hcalls⟩ := inTurn_done hturns
  refine ⟨?_, genesis, proposal, _, turns, ⟨built, _, headers, hbuild, hsign⟩, hasked, hcalls⟩
  rw [Except.ok.inj hresponses]
  exact congrArg (List.map _) (heardInTurn_congr peers milliseconds fun node =>
    hkeeps.calls node .endorser nofun)

/-- A total signer proposes every complete request. -/
theorem Signer.Total.exists_proposal (h : signer.Total) {request : Request}
    (hcomplete : request.CompleteOn channelId) (headers : HeaderSource) :
    ∃ built headers' proposal, buildProposal signer channelId request headers = .ok built headers' ∧
      signProposal built.proposal signer = .ok proposal := by
  obtain ⟨⟨channel, spec, transient⟩, hcall⟩ := exists_callOn_iff.2 hcomplete
  obtain ⟨hchannel, hspec⟩ := callOn_ok_iff.1 hcall
  obtain ⟨nonce, hnonce⟩ := h.draws headers.drawn
  have hbuild := buildProposal_ok_iff.2
    ⟨channel, spec, transient, nonce, hchannel, hspec, hnonce, rfl, rfl⟩
  obtain ⟨signature, hsign⟩ := h.signs (toWire (proposalFor ⟨signer.identity, nonce⟩ headers.time
    request.headerType channel spec transient).proposal)
  exact ⟨_, _, _, hbuild, except_bind_ok.2 ⟨signature, hsign, rfl⟩⟩

theorem toWire_block_ne_nil (block : Block) : toWire block ≠ [] :=
  List.length_pos_iff.1 (Schema.length_encode_pos (s := schema Block) rfl)

/-- Where the first block of the channel is delivered in time and nothing outside stops the client,
a join ends with responses. -/
theorem exists_joinChannel {genesis : Block} (hsigner : signer.Total) (hlimit : p.limit = none)
    (h : orderer.Delivers (p.calls orderer.id .deliver) p.lastTx genesis milliseconds)
    (peers : List Endorser) (channelId : String) :
    ∃ q, joinChannel orderer signer peers channelId milliseconds p =
      .done (.ok ((heardInTurn peers milliseconds p).map
        fun m => joinResponse m.1.id.address m.2)) q := by
  obtain ⟨p₁, hfetch, hp₁⟩ := fetch_of_delivers
    (f := genesisFetcher orderer signer channelId milliseconds) hsigner hlimit h (.specified 0)
  obtain ⟨built, headers, proposal, hbuild, hsign⟩ := hsigner.exists_proposal
    (show (Request.joinChannel (toWire genesis)).CompleteOn "" from
      ⟨nofun, toWire_block_ne_nil genesis⟩) p₁.headers
  let p₂ : Progress := { p₁ with headers := headers }
  have hheard : heardInTurn peers milliseconds p₂ = heardInTurn peers milliseconds p := by
    refine heardInTurn_congr peers milliseconds fun node => ?_
    change p₁.calls node .endorser = _
    rw [hp₁.calls]
    exact countCall_other (show Service.endorser ≠ .deliver by decide) _ _ _
  obtain ⟨q, hrun⟩ : ∃ q, inTurn proposal milliseconds joinResponse peers p₂ =
      .done (.ok ((heardInTurn peers milliseconds p₂).map
        fun m => joinResponse m.1.id.address m.2)) q := exists_inTurn (hp₁.limit.trans hlimit)
  refine ⟨q, ?_⟩
  rw [joinChannel_eq, Client.bind_of_ok hfetch,
    Client.bind_of_ok (Client.issue_done_ok.2 ⟨headers, hbuild, rfl⟩),
    Client.bind_of_ok (Client.lift_done_ok.2 ⟨hsign, rfl⟩), hrun, hheard]

end Run

/-! ## The answer -/

/-- The peer has joined: it has answered in time, with status 200. -/
def Joined (heard : Except ClientError ProposalResponse) : Prop :=
  ∃ answer, heard = .ok answer ∧ answer.response.status = statusOk

/-- The peer has answered in time, with a success. -/
def AnswersSuccess (heard : Except ClientError ProposalResponse) : Prop :=
  ∃ answer, heard = .ok answer ∧ answer.Succeeds

/-- What a peer must do to have joined. -/
theorem joined_resultWithin_iff {r : Reply ProposalResponse} {milliseconds : Nat}
    {expired : ClientError} : Joined (r.resultWithin milliseconds expired) ↔
      ∃ answer, r.outcome = .answered answer ∧ r.delay ≤ milliseconds ∧
        answer.response.status = statusOk := by
  rw [Joined]
  refine exists_congr fun answer => ?_
  rw [Reply.resultWithin_eq_ok, and_assoc]

theorem Joined.answersSuccess {heard : Except ClientError ProposalResponse} (h : Joined heard) :
    AnswersSuccess heard := by
  obtain ⟨answer, hanswer, hstatus⟩ := h
  refine ⟨answer, hanswer, ?_⟩
  rw [ProposalResponse.succeeds_iff, hstatus]
  rfl

theorem joinResponse_status_iff (address : String) (heard : Except ClientError ProposalResponse) :
    (joinResponse address heard).status = statusOk ↔ Joined heard := by
  cases heard with
  | ok answer => exact ⟨fun h => ⟨answer, rfl, h⟩, fun ⟨_, heq, h⟩ => by cases heq; exact h⟩
  | error e =>
    have hstatus : (joinResponse address (.error e)).status = statusInternalError := rfl
    rw [hstatus]
    exact ⟨fun h => absurd h (by decide), fun ⟨_, heq, _⟩ => nomatch heq⟩

theorem joinResponse_isSuccess_iff (address : String)
    (heard : Except ClientError ProposalResponse) :
    isSuccess (joinResponse address heard).status = true ↔ AnswersSuccess heard := by
  cases heard with
  | ok answer =>
    rw [joinResponse, ← ProposalResponse.succeeds_iff]
    exact ⟨fun h => ⟨answer, rfl, h⟩, fun ⟨_, heq, h⟩ => by cases heq; exact h⟩
  | error e =>
    have hstatus : (joinResponse address (.error e)).status = statusInternalError := rfl
    rw [hstatus]
    exact ⟨fun h => absurd h (by decide), fun ⟨_, heq, _⟩ => nomatch heq⟩

/-- The one response is that of the first peer that is not 200, or a plain success without one. -/
theorem joinAnswer_spec (responses : List Response) :
    ((∀ r ∈ responses, r.status = statusOk) ∧ Gateway.joinAnswer responses = .ok []) ∨
      ∃ r, FirstWith (fun r => r.status ≠ statusOk) r responses ∧
        Gateway.joinAnswer responses = .ofResponse r := by
  rw [Gateway.joinAnswer]
  cases hfind : responses.find? fun r => r.status ≠ statusOk with
  | none =>
    refine .inl ⟨fun r hr => ?_, rfl⟩
    simpa using List.find?_eq_none.1 hfind r hr
  | some failed => exact .inr ⟨failed, find?_eq_some_iff_firstWith.1 hfind, rfl⟩

theorem joinAnswer_status_iff {responses : List Response} :
    (Gateway.joinAnswer responses).status = statusOk ↔ ∀ r ∈ responses, r.status = statusOk := by
  obtain ⟨hall, heq⟩ | ⟨failed, hfirst, heq⟩ := joinAnswer_spec responses
  · rw [heq]
    exact iff_of_true rfl hall
  · rw [heq]
    obtain ⟨hmem, hfailed⟩ := hfirst.mem
    exact iff_of_false hfailed fun hall => hfailed (hall failed hmem)

/-- The one response is a success if all are 200, or if the first one that is not is another
success. -/
theorem joinAnswer_isSuccess_iff {responses : List Response} :
    (Gateway.joinAnswer responses).isSuccess = true ↔ (∀ r ∈ responses, r.status = statusOk) ∨
      ∃ r, FirstWith (fun r => r.status ≠ statusOk) r responses ∧ isSuccess r.status = true := by
  obtain ⟨hall, heq⟩ | ⟨failed, hfirst, heq⟩ := joinAnswer_spec responses
  · rw [heq]
    exact iff_of_true rfl (.inl hall)
  · rw [heq]
    constructor
    · intro hsuccess
      exact .inr ⟨failed, hfirst, hsuccess⟩
    · rintro (hall | ⟨r, hr, hsuccess⟩)
      · exact absurd (hall failed hfirst.mem.1) hfirst.mem.2
      · have hfind := find?_eq_some_iff_firstWith.2 hfirst
        rw [find?_eq_some_iff_firstWith.2 hr] at hfind
        cases hfind
        exact hsuccess

/-! ## The whole join -/

/-- What a join that ends with a response says about the peers.

Every peer has been given the same proposal to join.  The response has status 200 exactly if all
peers have joined.  But it is a success also if the first peer that has not joined has answered with
another success, whatever the peers after it did.  Where no peer answers with a success other than
200, the response is a success exactly if all peers have answered with one. -/
theorem joinChannel_isSuccess_iff {g : Gateway} {channelId : String} {p q : Progress}
    {r : GatewayResponse} (h : g.joinChannel channelId p = .done (.ok r) q) :
    let peers := g.endpoints.endorsers
    let heard := heardInTurn peers g.endpoints.endorseMs p
    (∃ genesis proposal earlier turns, proposal.Joins g.signer genesis ∧
      q.asked = earlier ++ turns ∧
      turns.map (fun a => (a.node, a.call)) = peers.map fun e => (e.id, .proposal proposal)) ∧
    (r.status = statusOk ↔ ∀ m ∈ heard, Joined m.2) ∧
    (r.isSuccess = true ↔ (∀ m ∈ heard, Joined m.2) ∨
      ∃ m, FirstWith (fun m => ¬Joined m.2) m heard ∧ AnswersSuccess m.2) ∧
    ((∀ m ∈ heard, AnswersSuccess m.2 → Joined m.2) →
      (r.isSuccess = true ↔ ∀ m ∈ heard, AnswersSuccess m.2)) := by
  intro peers heard
  obtain ⟨responses, hrun, rfl⟩ : ∃ responses, joinChannel g.endpoints.orderer g.signer peers
      channelId g.endpoints.endorseMs p = .done (.ok responses) q ∧
        Gateway.joinAnswer responses = r :=
    Run.map_done_ok.1 ((Client.bind_pure_apply _ Gateway.joinAnswer p).symm.trans h)
  obtain ⟨rfl, hasked⟩ := joinChannel_done_ok hrun
  have hstatus : (Gateway.joinAnswer (heard.map fun m =>
      joinResponse m.1.id.address m.2)).status = statusOk ↔ ∀ m ∈ heard, Joined m.2 := by
    rw [joinAnswer_status_iff, List.forall_mem_map]
    exact forall₂_congr fun m _ => joinResponse_status_iff _ _
  have hsuccess : (Gateway.joinAnswer (heard.map fun m =>
      joinResponse m.1.id.address m.2)).isSuccess = true ↔ (∀ m ∈ heard, Joined m.2) ∨
        ∃ m, FirstWith (fun m => ¬Joined m.2) m heard ∧ AnswersSuccess m.2 := by
    rw [joinAnswer_isSuccess_iff, ← joinAnswer_status_iff, hstatus]
    refine or_congr_right ?_
    simp only [firstWith_map, ne_eq, joinResponse_status_iff]
    constructor
    · rintro ⟨_, ⟨m, hfirst, rfl⟩, hsuccess⟩
      exact ⟨m, hfirst, (joinResponse_isSuccess_iff _ _).1 hsuccess⟩
    · rintro ⟨m, hfirst, hanswers⟩
      exact ⟨_, ⟨m, hfirst, rfl⟩, (joinResponse_isSuccess_iff _ _).2 hanswers⟩
  refine ⟨hasked, hstatus, hsuccess, fun honly => ?_⟩
  rw [hsuccess]
  constructor
  · rintro (hall | ⟨m, hfirst, hanswers⟩)
    · exact fun m hm => (hall m hm).answersSuccess
    · exact absurd (honly m hfirst.mem.1 hanswers) hfirst.mem.2
  · exact fun hall => .inl fun m hm => honly m hm (hall m hm)

/-! ### Two peers -/

/-- A peer that answers at once with a status. -/
def answeringPeer (place : Nat) (status : Int32) : Endorser where
  id := ⟨.endorser, place, "peer:7051"⟩
  reply := fun _ => .now ⟨1, ⟨status, "", []⟩, [], none⟩

def genesisBlock : Block := ⟨⟨0, [], []⟩, ⟨[]⟩, ⟨[]⟩⟩

/-- A gateway with an orderer that gives the first block and with two such peers. -/
def pairGateway (first second : Int32) : Gateway where
  signer := neutralSigner "Org1MSP"
  endpoints := {
    orderer := {
      id := ⟨.orderer, 0, "orderer:7050"⟩
      broadcast := fun _ => {}
      deliver := fun _ => {
        receiving := [.now fun _ => .block genesisBlock, .now fun _ => .status .success] } }
    endorsers := [answeringPeer 0 first, answeringPeer 1 second]
    delivers := [] }

theorem joinChannel_pairGateway (first second : Int32) :
    ∃ q, (pairGateway first second).joinChannel "ch" { headers := ⟨⟨0, 0⟩, 0⟩ } =
      .done (.ok (Gateway.joinAnswer [⟨first, "", []⟩, ⟨second, "", []⟩])) q := by
  let g := pairGateway first second
  let p : Progress := { headers := ⟨⟨0, 0⟩, 0⟩ }
  have hsigner : g.signer.Total := ⟨fun _ => ⟨_, rfl⟩, fun _ => ⟨_, rfl⟩⟩
  have hdelivers : g.endpoints.orderer.Delivers 0 "" genesisBlock g.endpoints.endorseMs := by
    let s := Stream.ofSession g.endpoints.orderer.id (g.endpoints.orderer.deliver 0)
    have hreceiving : s.next.receiving = [.now fun _ => .status .success] := rfl
    have hnext : s.next.Answers 0 := .message hreceiving nofun
    exact ⟨rfl, rfl, ⟨_, _, _, 0, rfl, rfl, rfl, hnext, Nat.zero_le _⟩, nofun⟩
  obtain ⟨q, hrun⟩ := exists_joinChannel (p := p) hsigner rfl hdelivers g.endpoints.endorsers "ch"
  refine ⟨q, (Client.bind_pure_apply _ Gateway.joinAnswer p).trans ?_⟩
  exact Run.map_done_ok.2 ⟨_, hrun, rfl⟩

/-- Two peers that have joined make a success. -/
theorem joinChannel_isSuccess_twoPeers :
    let p : Progress := { headers := ⟨⟨0, 0⟩, 0⟩ }
    ∃ r q, (pairGateway 200 200).joinChannel "ch" p = .done (.ok r) q ∧ r.status = statusOk ∧
      r.isSuccess = true := by
  intro p
  obtain ⟨q, hrun⟩ := joinChannel_pairGateway 200 200
  obtain ⟨-, hstatus, hsuccess, -⟩ := joinChannel_isSuccess_iff hrun
  have hjoined : ∀ m ∈ heardInTurn (pairGateway 200 200).endpoints.endorsers
      (pairGateway 200 200).endpoints.endorseMs p, Joined m.2 := by
    refine forall_mem_heardInTurn fun peer hpeer number => joined_resultWithin_iff.2 ?_
    obtain rfl | rfl := List.mem_pair.1 hpeer
    · exact ⟨_, rfl, Nat.zero_le _, rfl⟩
    · exact ⟨_, rfl, Nat.zero_le _, rfl⟩
  exact ⟨_, q, hrun, hstatus.2 hjoined, hsuccess.2 (.inl hjoined)⟩

/-- The first peer answers 202 and the second one fails with 500.  The join is a success. -/
theorem joinChannel_hides_failure :
    let p : Progress := { headers := ⟨⟨0, 0⟩, 0⟩ }
    let g := pairGateway 202 500
    (∃ r q, g.joinChannel "ch" p = .done (.ok r) q ∧ r.status = 202 ∧ r.isSuccess = true) ∧
      ∃ m ∈ heardInTurn g.endpoints.endorsers g.endpoints.endorseMs p, ¬AnswersSuccess m.2 := by
  intro p g
  obtain ⟨q, hrun⟩ := joinChannel_pairGateway 202 500
  refine ⟨⟨_, q, hrun, rfl, rfl⟩, _, List.mem_cons_of_mem _ List.mem_cons_self, ?_⟩
  rintro ⟨answer, hanswer, hsucceeds⟩
  cases hanswer
  exact absurd hsucceeds.2 (by decide)

end LedgerClient
