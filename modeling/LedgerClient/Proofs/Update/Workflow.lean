import LedgerClient.Client.Gateway
import LedgerClient.Proofs.Fetching
import LedgerClient.Proofs.Json.RoundTrip
import LedgerClient.Proofs.Update.Change
import LedgerClient.Proofs.Update.Honest
/-!
# Changing the members of a channel

A sponsor proposes a change, other organizations read the proposal from its text and answer with
signatures, and the sponsor submits the proposal with the signatures read from their texts.

* `Gateway.initiateProposal_of_serves`: a change that can be applied to the configuration in force
  is proposed.
* `Gateway.exists_answers`: every organization answers a proposal.
* `Gateway.submitProposal_of_acknowledges`: the submission succeeds if the orderer acknowledges.
* `Gateway.membership_workflow`: from the change to the envelope at the orderer.
-/

namespace LedgerClient

variable {g : Gateway} {channelId : String} {change : ConfigChange} {config updated : Config}
  {delta : ConfigUpdate} {p : Progress}

/-- The envelope submits the difference to a channel, signed once by each of the participants, in
the order of their ids. -/
def Envelope.Carries (envelope : Envelope) (signer : Signer) (channelId : String)
    (delta : ConfigUpdate) (participants : List String) : Prop :=
  ∃ update organizations, envelope.Submits signer channelId update ∧
    updateIn envelope "" = .ok (channelId, update) ∧
    decodeMessage ConfigUpdate update.configUpdate = .ok delta ∧
    update.SignedOnceBy organizations ∧ organizations.Pairwise (· < ·) ∧
    organizations.Perm participants

/-! ## Texts -/

theorem isSuccess_json {α : Type} [Layout α] (message : String) (a : α) :
    (GatewayResponse.json message a).isSuccess = true := by
  change LedgerClient.isSuccess statusOk = true
  decide

theorem fromJson_payload {α : Type} [Layout α] (h : (schema α).legible = true) (message : String)
    (a : α) : fromJson α (GatewayResponse.json message a).payload = .ok a :=
  fromJson_toJsonText h a

theorem fromJson_proposal (message : String) (proposal : MembershipProposal) :
    fromJson MembershipProposal (GatewayResponse.json message proposal).payload = .ok proposal :=
  fromJson_payload rfl message proposal

theorem fromJson_signature (message : String) (x : ProposalSignature) :
    fromJson ProposalSignature (GatewayResponse.json message x).payload = .ok x :=
  fromJson_payload rfl message x

namespace Gateway

/-! ## Proposing -/

theorem initiateChange_of_serves {f : BlockFetcher} {computer : DeltaComputer}
    (hsigner : f.signer.Honest) (hlimit : p.limit = none)
    (hserves : f.orderer.ServesConfig p f.timeoutMs config)
    (happly : change.apply config = .ok updated)
    (hdelta : computer f.channelId config updated = .ok delta) :
    ∃ proposal q, initiateChange f change computer p = .done (.ok proposal) q ∧
      proposal.channelId = f.channelId ∧ proposal.proposal = toWire delta ∧
      proposal.sponsor.IsOf proposal.proposal f.signer.orgId := by
  obtain ⟨block, envelope, q, hblock, henvelope, rfl⟩ :=
    configBlock_of_serves hsigner.toTotal hlimit hserves
  obtain ⟨proposal, headers, hpropose, hproposal⟩ := hsigner.propose happly hdelta q.headers
  refine ⟨proposal, { q with headers := headers }, ?_, hproposal⟩
  refine Client.bind_done_ok.2 ⟨block, q, hblock, Client.bind_done_ok.2 ⟨envelope, q, ?_, ?_⟩⟩
  · exact Client.lift_done_ok.2 ⟨henvelope, rfl⟩
  · exact Client.issue_done_ok.2 ⟨headers, hpropose, rfl⟩

theorem initiateChange_asksOnly (f : BlockFetcher) (change : ConfigChange)
    (computer : DeltaComputer) :
    Client.AsksOnly NoBroadcast (initiateChange f change computer) :=
  .bind (configBlock_asksOnly f) fun _ => .bind (.lift _) fun _ => .issue _

/-- The fetcher with which a gateway looks for the configuration that is to be changed. -/
def proposalFetcher (g : Gateway) (channelId : String) : BlockFetcher :=
  { g.fetcher channelId with tlsCertHash := none }

/-- A change that can be applied to the configuration in force is proposed, and nothing is
broadcast. -/
theorem initiateProposal_of_serves (hsponsor : g.signer.Honest) (hlimit : p.limit = none)
    (hserves : g.endpoints.orderer.ServesConfig p g.endpoints.broadcastMs config)
    (happly : change.apply config = .ok updated)
    (hdelta : g.deltaComputer channelId config updated = .ok delta) :
    ∃ (proposal : MembershipProposal) (q : Progress),
      g.initiateProposal channelId change p = .done (.ok (.json "" proposal)) q ∧
      (∃ more, q.asked = p.asked ++ more ∧ ∀ a ∈ more, a.call ≠ .openBroadcast) ∧
      proposal.channelId = channelId ∧ proposal.proposal = toWire delta ∧
      proposal.sponsor.IsOf proposal.proposal g.signer.orgId := by
  obtain ⟨proposal, q, hinitiate, hproposal⟩ := initiateChange_of_serves
    (f := g.proposalFetcher channelId) hsponsor hlimit hserves happly hdelta
  obtain ⟨more, hasked, hmore⟩ :=
    initiateChange_asksOnly (g.proposalFetcher channelId) change g.deltaComputer p
  rw [hinitiate] at hasked
  exact ⟨proposal, q, Client.bind_done_ok.2 ⟨proposal, q, hinitiate, rfl⟩, ⟨more, hasked, hmore⟩,
    hproposal⟩

/-! ## Signing -/

/-- An organization that reads a proposal from a payload answers with the text of a signature, and
asks no node for it. -/
def AnswersWith (other : Gateway) (p : Progress) (payload : Bytes) (x : ProposalSignature) : Prop :=
  ∃ proposal answer q, fromJson MembershipProposal payload = .ok proposal ∧
    other.signProposal proposal p = .done (.ok answer) q ∧ answer.isSuccess = true ∧
    fromJson ProposalSignature answer.payload = .ok x ∧ q.asked = p.asked

theorem answersWith_of_honest {other : Gateway} (h : other.signer.Honest) (p : Progress)
    {payload : Bytes} {proposal : MembershipProposal}
    (hread : fromJson MembershipProposal payload = .ok proposal) :
    ∃ x, other.AnswersWith p payload x ∧ x.IsOf proposal.proposal other.signer.orgId := by
  obtain ⟨x, headers, hsigned, hof⟩ := h.signProposed proposal.proposal p.headers
  have hsign : other.signProposal proposal p =
      .done (.ok (.json x.creator x)) { p with headers := headers } :=
    Client.bind_done_ok.2 ⟨x, _, Client.issue_done_ok.2 ⟨headers, hsigned, rfl⟩, rfl⟩
  exact ⟨x, ⟨proposal, _, _, hread, hsign, isSuccess_json _ x, fromJson_signature _ x, rfl⟩, hof⟩

/-- Every one of several organizations answers. -/
theorem exists_answers {others : List (Gateway × Progress)}
    (h : ∀ o ∈ others, o.1.signer.Honest) {payload : Bytes} {proposal : MembershipProposal}
    (hread : fromJson MembershipProposal payload = .ok proposal) :
    ∃ signatures, List.Forall₂ (fun o x => o.1.AnswersWith o.2 payload x) others signatures ∧
      List.Forall₂ (fun x o => x.IsOf proposal.proposal o) signatures
        (others.map (·.1.signer.orgId)) := by
  induction others with
  | nil => exact ⟨[], .nil, .nil⟩
  | cons o others ih =>
    obtain ⟨x, hx, hof⟩ := answersWith_of_honest (h o List.mem_cons_self) o.2 hread
    obtain ⟨signatures, hanswers, hall⟩ := ih fun o ho => h o (List.mem_cons_of_mem _ ho)
    exact ⟨x :: signatures, .cons hx hanswers, .cons hof hall⟩

/-! ## Submitting -/

/-- A submission whose envelope the orderer acknowledges succeeds, and the envelope is the only one
that is sent. -/
theorem submitProposal_of_acknowledges {proposal : MembershipProposal}
    {signatures : List ProposalSignature} {envelope : Envelope} {headers : HeaderSource}
    (hlimit : p.limit = none)
    (hsubmission : proposal.submission g.signer signatures p.headers = .ok envelope headers)
    (hack : g.endpoints.orderer.Acknowledges p envelope g.endpoints.broadcastMs) :
    ∃ q, g.submitProposal proposal signatures p = .done (.ok (.ok [])) q ∧
      g.endpoints.orderer.Opens p ∧ BroadcastsOnce g.endpoints.orderer envelope p q.asked := by
  obtain ⟨q, hbroadcast⟩ :=
    broadcast_of_acknowledges (p := { p with headers := headers }) hlimit hack
  have honce := broadcastsOnce g.endpoints.orderer envelope g.endpoints.broadcastMs
    { p with headers := headers }
  rw [hbroadcast] at honce
  refine ⟨q, Client.bind_done_ok.2 ⟨(), q, ?_, rfl⟩,
    ⟨hack.1, Progress.reaches_of_limit_none hlimit _⟩, honce.congr⟩
  rw [submitChange_of_ok hsubmission]
  exact hbroadcast

/-! ## The whole way -/

theorem exists_carries {proposal : MembershipProposal} {signatures given : List ProposalSignature}
    {organizations : List String} (hsponsor : g.signer.Honest) (hchannel : proposal.channelId ≠ "")
    (hproposal : proposal.proposal = toWire delta)
    (hof : proposal.sponsor.IsOf proposal.proposal g.signer.orgId)
    (hothers : List.Forall₂ (fun x o => x.IsOf proposal.proposal o) signatures organizations)
    (hdistinct : (g.signer.orgId :: organizations).Nodup) (hgiven : given.Perm signatures)
    (hwritable : proposal.Writable g.signer given) (headers : HeaderSource) :
    ∃ envelope headers', proposal.submission g.signer given headers = .ok envelope headers' ∧
      envelope.Carries g.signer proposal.channelId delta (g.signer.orgId :: organizations) := by
  obtain ⟨s, hs, hkeys⟩ :=
    MembershipProposal.exists_collect hof hothers hdistinct hgiven
  obtain ⟨envelope, headers', hsubmission, hsubmits, hread⟩ :=
    MembershipProposal.exists_submission hsponsor hwritable hchannel hs
      (hkeys.mem_iff.2 List.mem_cons_self) headers
  have hupdate : s.message.configUpdate = toWire delta :=
    (MembershipProposal.collect_ok_iff.1 hs).2.configUpdate.trans hproposal
  have hdecode : decodeMessage ConfigUpdate s.message.configUpdate = .ok delta := by
    have hlength := (hwritable s hs).length_update
    rw [show s.configUpdate = toWire delta from hupdate] at hlength
    rw [hupdate]
    exact decodeMessage_of_length rfl rfl hlength
  exact ⟨envelope, headers', hsubmission, s.message, s.signatures.keys, hsubmits, hread, hdecode,
    (MembershipProposal.verified_of_collect hs).signedOnceBy,
    List.pairwise_map.2 s.signatures.ascending, hkeys⟩

/-- A change of membership goes all the way.  The sponsor proposes a change that can be applied to
the configuration that the orderer serves; every other organization reads the proposal and answers
with a signature; in whatever order the signatures are given, the envelope of the submission carries
the difference, signed once by every participant in the order of their ids; and if the orderer
acknowledges it, the submission succeeds and this envelope alone has been sent. -/
theorem membership_workflow (hcomputer : g.deltaComputer = computeDelta)
    (hsponsor : g.signer.Honest) (hlimit : p.limit = none)
    (hserves : g.endpoints.orderer.ServesConfig p g.endpoints.broadcastMs config)
    (hchannel : channelId ≠ "") (happly : change.apply config = .ok updated)
    {others : List (Gateway × Progress)} (hothers : ∀ o ∈ others, o.1.signer.Honest)
    (hdistinct : (g.signer.orgId :: others.map (·.1.signer.orgId)).Nodup) :
    ∃ initiated q proposal delta signatures,
      g.initiateProposal channelId change p = .done (.ok initiated) q ∧
      initiated.isSuccess = true ∧
      (∃ more, q.asked = p.asked ++ more ∧ ∀ a ∈ more, a.call ≠ .openBroadcast) ∧
      fromJson MembershipProposal initiated.payload = .ok proposal ∧
      computeDelta channelId config updated = .ok delta ∧
      List.Forall₂ (fun o x => o.1.AnswersWith o.2 initiated.payload x) others signatures ∧
      ∀ given, given.Perm signatures → proposal.Writable g.signer given →
        ∀ p' : Progress, p'.limit = none → ∃ envelope,
          envelope.Carries g.signer channelId delta
            (g.signer.orgId :: others.map (·.1.signer.orgId)) ∧
          (g.endpoints.orderer.Acknowledges p' envelope g.endpoints.broadcastMs → ∃ answer q',
            g.submitProposal proposal given p' = .done (.ok answer) q' ∧
            answer.isSuccess = true ∧ g.endpoints.orderer.Opens p' ∧
            BroadcastsOnce g.endpoints.orderer envelope p' q'.asked) := by
  obtain ⟨delta, hdelta⟩ := exists_computeDelta happly channelId
  obtain ⟨proposal, q, hinitiate, hasked, rfl, hproposal, hof⟩ :=
    initiateProposal_of_serves hsponsor hlimit hserves happly (hcomputer ▸ hdelta)
  have hread := fromJson_proposal "" proposal
  obtain ⟨signatures, hanswers, hall⟩ := exists_answers hothers hread
  refine ⟨_, q, proposal, delta, signatures, hinitiate, isSuccess_json _ _, hasked, hread,
    hdelta, hanswers, fun given hgiven hwritable p' hlimit' => ?_⟩
  obtain ⟨envelope, headers, hsubmission, hcarries⟩ :=
    exists_carries hsponsor hchannel hproposal hof hall hdistinct hgiven hwritable p'.headers
  refine ⟨envelope, hcarries, fun hack => ?_⟩
  obtain ⟨q', hsubmit, hopens, honce⟩ :=
    submitProposal_of_acknowledges hlimit' hsubmission hack
  exact ⟨_, q', hsubmit, rfl, hopens, honce⟩

end Gateway

/-! ### A newcomer -/

/-- A configuration of a channel without members. -/
def emptyConfig : Config where
  sequence := 3
  channelGroup := {
    consortium := none, application := some ⟨.empty, [], .empty⟩, orderer := none
    consortiums := .empty, capabilities := [], policies := .empty }

def newcomer : Organization where
  name := "Org4"
  mspId := "Org4MSP"
  kind := .peer
  rootCerts := []
  tlsRootCerts := []
  adminCerts := []
  anchorPeers := []
  ordererEndpoints := []
  policies := .empty

/-- The first block of a channel, which holds the configuration. -/
def emptyConfigBlock : Block where
  header := ⟨0, [], []⟩
  data := ⟨[toWire ({
    payload := toWire (payloadUnder (plainChannelHeader .config ⟨0, 0⟩ "ch" none) ⟨[], []⟩
      (toWire (⟨emptyConfig, none⟩ : ConfigEnvelope)))
    signature := [] } : Envelope)]⟩
  metadata := ⟨[toWire ({
    value := toWire (⟨⟨0⟩, []⟩ : OrdererBlockMetadata), signatures := [] } : Metadata)]⟩

/-- An orderer that serves this block. -/
def servingOrderer : Orderer :=
  { steadyOrderer with deliver := fun _ => {
      receiving := [.now fun _ => .block emptyConfigBlock, .now fun _ => .status .success] } }

def neutralGateway (organization : String) : Gateway where
  signer := neutralSigner organization
  endpoints := { orderer := servingOrderer }

theorem servingOrderer_servesConfig : servingOrderer.ServesConfig beginning
    (neutralGateway "Org1MSP").endpoints.broadcastMs emptyConfig := by
  have hreceiving : (Stream.ofSession servingOrderer.id (servingOrderer.deliver 0)).next.receiving =
      [.now fun _ => .status .success] := rfl
  have hnext : (Stream.ofSession servingOrderer.id (servingOrderer.deliver 0)).next.Answers 0 :=
    .message hreceiving fun h => nomatch h
  have hdelivers : servingOrderer.Delivers 0 "" emptyConfigBlock
      (neutralGateway "Org1MSP").endpoints.broadcastMs :=
    ⟨rfl, rfl, ⟨_, _, _, 0, rfl, rfl, rfl, hnext, Nat.zero_le _⟩, fun h => nomatch h⟩
  have hindex : emptyConfigBlock.lastConfigIndex = .ok 0 := by decide +kernel
  have henvelope : emptyConfigBlock.configEnvelope = .ok ⟨emptyConfig, none⟩ := by decide +kernel
  exact ⟨emptyConfigBlock, 0, emptyConfigBlock, _, hdelivers, hindex, rfl, henvelope, rfl⟩

theorem servingOrderer_acknowledges (p : Progress) (envelope : Envelope) :
    servingOrderer.Acknowledges p envelope (neutralGateway "Org1MSP").endpoints.broadcastMs :=
  ⟨rfl, rfl, _, _, _, rfl, rfl, rfl,
    show 0 + 1 ≤ (neutralGateway "Org1MSP").endpoints.broadcastMs by decide⟩

/-- The answer of an organization with the key of the neutral point. -/
theorem answersWith_neutralGateway {organization : String} {initiated : Bytes}
    {proposal : MembershipProposal} {x : ProposalSignature}
    (hread : fromJson MembershipProposal initiated = .ok proposal)
    (h : (neutralGateway organization).AnswersWith beginning initiated x) :
    x = neutralProposalSignature organization proposal.proposal := by
  obtain ⟨proposal', answer, q, hread', hsign, -, hx, -⟩ := h
  rw [hread] at hread'
  cases hread'
  have hmade : (neutralGateway organization).signProposal proposal beginning =
      .done (.ok (.json organization (neutralProposalSignature organization proposal.proposal)))
        { beginning with headers := { epoch with drawn := 1 } } := rfl
  rw [hmade] at hsign
  cases hsign
  rw [fromJson_signature] at hx
  cases hx
  rfl

/-- What three organizations sign for the newcomer can be written. -/
theorem newcomer_writable {initiated : GatewayResponse} {q : Progress}
    {proposal : MembershipProposal}
    (h : (neutralGateway "Org1MSP").initiateProposal "ch" (.channelAdd newcomer) beginning =
      .done (.ok initiated) q)
    (hread : fromJson MembershipProposal initiated.payload = .ok proposal) :
    proposal.Writable (neutralSigner "Org1MSP") [
      neutralProposalSignature "Org2MSP" proposal.proposal,
      neutralProposalSignature "Org3MSP" proposal.proposal] := by
  have hsize : (initiateChange ((neutralGateway "Org1MSP").proposalFetcher "ch")
      (.channelAdd newcomer) computeDelta beginning).value?.map (fun proposal =>
        (proposal.collect (neutralSigner "Org1MSP") [
          neutralProposalSignature "Org2MSP" proposal.proposal,
          neutralProposalSignature "Org3MSP" proposal.proposal]).map fun s =>
            (s.channelId, (toWire s.message).length)) = some (.ok ("ch", 581)) := by
    decide +kernel
  obtain ⟨made, r, hmade, hreturn⟩ := Client.bind_done_ok.1 h
  cases hreturn
  rw [fromJson_proposal] at hread
  cases hread
  rw [show initiateChange ((neutralGateway "Org1MSP").proposalFetcher "ch")
    (.channelAdd newcomer) computeDelta beginning = _ from hmade] at hsize
  intro s hs
  have hsize' := Option.some.inj hsize
  dsimp only at hsize'
  rw [hs] at hsize'
  obtain ⟨hchannel, hmessage⟩ := Prod.mk.inj (Except.ok.inj hsize')
  refine ⟨fun time => ?_, ?_⟩
  · rw [UpdateSession.length_plainChannelHeader, hchannel]
    decide
  · rw [hmessage]
    decide

/-- Three organizations take in a fourth one; the signatures come in another order than they were
asked for. -/
theorem membership_workflow_newcomer :
    let sponsor := neutralGateway "Org1MSP"
    let others := [(neutralGateway "Org3MSP", beginning), (neutralGateway "Org2MSP", beginning)]
    sponsor.signer.Honest ∧ (∀ o ∈ others, o.1.signer.Honest) ∧
      sponsor.endpoints.orderer.ServesConfig beginning sponsor.endpoints.broadcastMs emptyConfig ∧
      ∃ updated initiated q proposal delta x y envelope answer q',
        (ConfigChange.channelAdd newcomer).apply emptyConfig = .ok updated ∧
        computeDelta "ch" emptyConfig updated = .ok delta ∧
        sponsor.initiateProposal "ch" (.channelAdd newcomer) beginning =
          .done (.ok initiated) q ∧
        fromJson MembershipProposal initiated.payload = .ok proposal ∧
        List.Forall₂ (fun o x => o.1.AnswersWith o.2 initiated.payload x) others [x, y] ∧
        sponsor.submitProposal proposal [y, x] beginning = .done (.ok answer) q' ∧
        answer.isSuccess = true ∧
        envelope.Carries sponsor.signer "ch" delta ["Org1MSP", "Org3MSP", "Org2MSP"] ∧
        BroadcastsOnce sponsor.endpoints.orderer envelope beginning q'.asked := by
  intro sponsor others
  have hhonest : ∀ organization, (identityOf organization Ed25519.neutralKey).length < 2 ^ 31 →
      (neutralGateway organization).signer.Honest := fun _ h => neutralSigner_honest h
  have hsponsor : sponsor.signer.Honest := hhonest "Org1MSP" (by decide)
  have hothers : ∀ o ∈ others, o.1.signer.Honest := by
    simp only [others, List.forall_mem_cons, List.not_mem_nil, false_imp_iff, implies_true,
      and_true]
    exact ⟨hhonest "Org3MSP" (by decide), hhonest "Org2MSP" (by decide)⟩
  obtain ⟨updated, happly⟩ :
      ∃ updated, (ConfigChange.channelAdd newcomer).apply emptyConfig = .ok updated := ⟨_, rfl⟩
  obtain ⟨initiated, q, proposal, delta, signatures, hinitiate, -, -, hread, hdelta, hanswers,
      hall⟩ :=
    Gateway.membership_workflow (g := sponsor) (p := beginning) rfl hsponsor rfl
      servingOrderer_servesConfig (show "ch" ≠ "" by decide) happly hothers (by decide)
  obtain ⟨x, rest, hx, hrest, rfl⟩ := List.forall₂_cons_left_iff.1 hanswers
  obtain ⟨y, none, hy, hnone, rfl⟩ := List.forall₂_cons_left_iff.1 hrest
  cases hnone
  have hwritable : proposal.Writable sponsor.signer [y, x] := by
    rw [answersWith_neutralGateway hread hx, answersWith_neutralGateway hread hy]
    exact newcomer_writable hinitiate hread
  obtain ⟨envelope, hcarries, hsubmit⟩ := hall [y, x] (.swap _ _ _) hwritable beginning rfl
  obtain ⟨answer, q', hrun, hsuccess, -, honce⟩ :=
    hsubmit (servingOrderer_acknowledges beginning envelope)
  exact ⟨hsponsor, hothers, servingOrderer_servesConfig, updated, initiated, q, proposal, delta,
    x, y, envelope, answer, q', happly, hdelta, hinitiate, hread, hanswers, hrun, hsuccess,
    hcarries, honce⟩

end LedgerClient
