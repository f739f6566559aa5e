import LedgerClient.Client.Membership
import LedgerClient.Proofs.Transaction.Ordering
import LedgerClient.Proofs.Update.Submitting
/-!
# Submissions of a proposal

* `MembershipProposal.submission_ok_iff`: an envelope is made exactly if the signatures can be
  merged, there is a channel, and the signer signs.
* `Envelope.Submits`: an envelope of the submitter with an update for a channel.
  `submits_of_submission`: what a submission carries.
* `submitChange_sends_approved`: an approved proposal is sent at most once, and nothing else is
  sent.
-/

namespace LedgerClient

variable {signer : Signer} {headers headers' : HeaderSource} {envelope : Envelope}
  {channelId : String} {update : ConfigUpdateEnvelope} {signatures : List ProposalSignature}

/-! ## The envelope of a session -/

namespace UpdateSession

variable {s : UpdateSession}

/-- The channel header and the message of a session are short enough for their lengths to be
written; longer ones have no encoding. -/
structure Writable (s : UpdateSession) : Prop where
  header : ∀ time, (toWire (plainChannelHeader .configUpdate time s.channelId none)).length < 2 ^ 32
  message : (toWire s.message).length < 2 ^ 32

theorem Writable.length_update (h : s.Writable) : s.configUpdate.length < 2 ^ 32 := by
  have hlength := h.message
  change (encodeBytes s.configUpdate ++ _).length < _ at hlength
  rw [List.length_append, length_encodeBytes] at hlength
  omega

theorem length_plainChannelHeader (headerType : HeaderType) (time : Timestamp) (channel : String) :
    (toWire (plainChannelHeader headerType time channel none)).length =
      38 + (Utf8.encode channel).length := by
  change ([_] ++ (littleEndian 4 _ ++ ((littleEndian 8 _ ++ (littleEndian 4 _ ++ [])) ++
    (encodeText channel ++ (encodeText "" ++ (littleEndian 8 _ ++
      (encodeBytes [] ++ ([0] ++ []))))))) : Bytes).length = _
  simp only [List.length_append, length_littleEndian, length_encodeText, length_encodeBytes,
    List.length_cons, List.length_nil, show (Utf8.encode "").length = 0 from rfl]
  omega

theorem envelope_holds (s : UpdateSession) (time : Timestamp) :
    (s.envelope time).Holds (plainChannelHeader .configUpdate time s.channelId none) []
      s.message := rfl

/-- The envelope of a session is read back, if the session has a channel. -/
theorem updateIn_envelope (h : s.Writable) (time : Timestamp) :
    updateIn (s.envelope time) s.channelId = .ok (channelId, update) ↔
      channelId = s.channelId ∧ channelId ≠ "" ∧ update = s.message := by
  rw [updateIn_of_holds (s.envelope_holds time)
    ⟨h.header time, by decide, h.message⟩]
  constructor
  · rintro ⟨-, rfl, hnonempty, -, rfl⟩
    exact ⟨rfl, hnonempty, rfl⟩
  · rintro ⟨rfl, hnonempty, rfl⟩
    exact ⟨rfl, rfl, hnonempty, .inr rfl, rfl⟩

end UpdateSession

/-! ## The envelope of a submission -/

/-- The envelope carries an update for a channel on behalf of a signer. -/
structure Envelope.Submits (envelope : Envelope) (signer : Signer) (channelId : String)
    (update : ConfigUpdateEnvelope) : Prop where
  holds : ∃ time nonce, envelope.Holds (plainChannelHeader .configUpdate time channelId none)
    (toWire ({ creator := signer.identity, nonce } : SignatureHeader)) update
  channel : channelId ≠ ""
  signed : verifySignature signer.identity envelope.payload envelope.signature = .ok ()

theorem submits_of_signedEnvelope (hsigner : signer.Sound) (hchannel : channelId ≠ "")
    (h : signedEnvelope .configUpdate channelId signer (toWire update) none headers =
      .ok envelope headers') : envelope.Submits signer channelId update := by
  obtain ⟨nonce, -, hpayload, hsign, -⟩ := signedEnvelope_ok_iff.1 h
  exact ⟨⟨headers.time, nonce, hpayload⟩, hchannel, hsigner.accepted _ _ hsign⟩

namespace MembershipProposal

variable {p : MembershipProposal}

/-- What is merged for a proposal can be written. -/
def Writable (p : MembershipProposal) (signer : Signer) (signatures : List ProposalSignature) :
    Prop :=
  ∀ s, p.collect signer signatures = .ok s → s.Writable

/-- The envelope of a submission is that of the merged signatures, completed and signed. -/
theorem submission_ok_iff (hwritable : p.Writable signer signatures) :
    p.submission signer signatures headers = .ok envelope headers' ↔
      ∃ s completed between, p.collect signer signatures = .ok s ∧ p.channelId ≠ "" ∧
        Completes signer s.message headers completed between ∧
        signedEnvelope .configUpdate p.channelId signer (toWire completed) none between =
          .ok envelope headers' := by
  have hchannel : ∀ s, p.collect signer signatures = .ok s → s.channelId = p.channelId :=
    fun s hs => (collect_ok_iff.1 hs).2.channelId
  rw [submission]
  constructor
  · intro h
    obtain ⟨s, between, hlift, hsource⟩ := issuing_bind_ok.1 h
    obtain ⟨hs, rfl⟩ := issuing_lift_ok.1 hlift
    obtain ⟨source, after, hget, hcheck⟩ := issuing_bind_ok.1 hsource
    cases hget
    rw [← hchannel s hs] at hcheck ⊢
    obtain ⟨channel, read, completed, between, hread, hcompletes, hsigned⟩ :=
      checkAndSign_ok_iff.1 hcheck
    obtain ⟨rfl, hnonempty, rfl⟩ := (UpdateSession.updateIn_envelope (hwritable s hs) _).1 hread
    exact ⟨s, completed, between, hs, hnonempty, hcompletes, hsigned⟩
  · rintro ⟨s, completed, between, hs, hnonempty, hcompletes, hsigned⟩
    refine issuing_bind_ok.2 ⟨s, headers, issuing_lift_ok.2 ⟨hs, rfl⟩, ?_⟩
    refine issuing_bind_ok.2 ⟨headers, headers, rfl, ?_⟩
    rw [← hchannel s hs] at hnonempty hsigned ⊢
    exact checkAndSign_ok_iff.2 ⟨_, _, completed, between,
      (UpdateSession.updateIn_envelope (hwritable s hs) _).2 ⟨rfl, hnonempty, rfl⟩, hcompletes,
      hsigned⟩

/-- What is merged for a proposal verifies. -/
theorem verified_of_collect {s : UpdateSession} (h : p.collect signer signatures = .ok s) :
    s.Verified := by
  obtain ⟨-, hstores⟩ := collect_ok_iff.1 h
  intro organization signature hget
  rw [hstores.configUpdate]
  rcases (hstores.stored organization signature).1 hget with hstart | ⟨x, -, hyields⟩
  · cases hstart
  · exact hyields.2.2

/-- What a submission carries: the proposed update for the channel of the proposal, signed once by
each of several organizations, the submitter's among them. -/
theorem submits_of_submission (hsigner : signer.Sound) (hwritable : p.Writable signer signatures)
    (h : p.submission signer signatures headers = .ok envelope headers') :
    p.Approved signer signatures ∧ ∃ update organizations,
      envelope.Submits signer p.channelId update ∧ update.configUpdate = p.proposal ∧
      update.SignedOnceBy organizations ∧ signer.orgId ∈ organizations := by
  obtain ⟨s, completed, between, hs, hnonempty, hcompletes, hsigned⟩ :=
    (submission_ok_iff hwritable).1 h
  obtain ⟨happroved, hstores⟩ := collect_ok_iff.1 hs
  refine ⟨happroved, completed, _, submits_of_signedEnvelope hsigner hnonempty hsigned,
    hcompletes.configUpdate.trans hstores.configUpdate,
    hcompletes.signedOnceBy hsigner (verified_of_collect hs).signedOnceBy, ?_⟩
  split
  · assumption
  · exact List.mem_append_right _ (List.mem_singleton.2 rfl)

end MembershipProposal

/-! ## What is sent -/

variable {orderer : Orderer} {proposal : MembershipProposal} {milliseconds : Nat} {p : Progress}

theorem submitChange_of_ok
    (h : proposal.submission signer signatures p.headers = .ok envelope headers) :
    submitChange orderer signer proposal signatures milliseconds p =
      broadcastEnvelope orderer envelope milliseconds { p with headers := headers } := by
  rw [submitChange]
  exact Client.bind_of_ok (Client.issue_done_ok.2 ⟨headers, h, rfl⟩)

theorem submitChange_of_error {e : ClientError}
    (h : proposal.submission signer signatures p.headers = .error e headers) :
    submitChange orderer signer proposal signatures milliseconds p =
      .done (.error e) { p with headers := headers } := by
  rw [submitChange]
  exact Client.bind_of_error (Client.issue_done_error.2 ⟨headers, h, rfl⟩)

/-- A client that goes from one record of calls to another has opened one broadcast stream and, if
that has opened, sent one envelope on it. -/
def BroadcastsOnce (orderer : Orderer) (envelope : Envelope) (p : Progress) (asked : List Asked) :
    Prop :=
  (orderer.Opens p ∧ ∃ t more, asked =
      p.asked ++ ⟨p.clock, orderer.id, .openBroadcast⟩ :: ⟨t, orderer.id, .send envelope⟩ :: more ∧
    ∀ a ∈ more, a.call = .receive ∨ a.call = .close) ∨
  (¬orderer.Opens p ∧ asked = p.asked ++ [⟨p.clock, orderer.id, .openBroadcast⟩])

theorem broadcastsOnce (orderer : Orderer) (envelope : Envelope) (milliseconds : Nat)
    (p : Progress) : BroadcastsOnce orderer envelope p
      (broadcastEnvelope orderer envelope milliseconds p).progress.asked := by
  by_cases hopens : orderer.Opens p
  · obtain ⟨t, more, hasked, -, hmore⟩ := broadcast_asked_of_opens envelope milliseconds hopens
    exact .inl ⟨hopens, t, more, hasked, hmore⟩
  · exact .inr ⟨hopens, broadcast_asked_of_not_opens envelope milliseconds hopens⟩

theorem BroadcastsOnce.congr {asked : List Asked}
    (h : BroadcastsOnce orderer envelope { p with headers := headers } asked) :
    BroadcastsOnce orderer envelope p asked := by
  have hopens : orderer.Opens { p with headers := headers } ↔ orderer.Opens p :=
    Orderer.opens_congr rfl rfl rfl
  rw [BroadcastsOnce, hopens] at h
  exact h

/-- A submission of a proposal with any signatures, honest or forged, fails without asking anything,
or else the proposal is approved, and at most one envelope is sent: one that carries the proposed
update for the channel of the proposal, with verified signatures of different organizations, the
submitter's among them. -/
theorem submitChange_sends_approved (orderer : Orderer) (signer : Signer)
    (proposal : MembershipProposal) (signatures : List ProposalSignature) (milliseconds : Nat)
    (p : Progress) (hsigner : signer.Sound) (hwritable : proposal.Writable signer signatures) :
    let run := submitChange orderer signer proposal signatures milliseconds p
    (∃ e q, run = .done (.error e) q ∧ q.asked = p.asked) ∨
      (proposal.Approved signer signatures ∧ ∃ envelope update organizations,
        envelope.Submits signer proposal.channelId update ∧
        update.configUpdate = proposal.proposal ∧ update.SignedOnceBy organizations ∧
        signer.orgId ∈ organizations ∧ BroadcastsOnce orderer envelope p run.progress.asked) := by
  intro run
  cases h : proposal.submission signer signatures p.headers with
  | error e headers => exact .inl ⟨e, _, submitChange_of_error h, rfl⟩
  | ok envelope headers =>
    obtain ⟨happroved, update, organizations, hsubmits, hupdate, hsigned, hmem⟩ :=
      MembershipProposal.submits_of_submission hsigner hwritable h
    refine .inr ⟨happroved, envelope, update, organizations, hsubmits, hupdate, hsigned, hmem, ?_⟩
    have honce := broadcastsOnce orderer envelope milliseconds { p with headers := headers }
    rw [← submitChange_of_ok h] at honce
    exact honce.congr

/-! ### Two organizations -/

/-- A signature on a proposal under the key of the neutral point. -/
def neutralProposalSignature (organization : String) (proposal : Bytes) : ProposalSignature where
  proposalHash := hashOf proposal
  creator := organization
  signature := toWire (neutralConfigSignature organization)

/-- A proposal of the first organization. -/
def neutralProposal : MembershipProposal where
  channelId := "ch"
  proposal := [1, 2, 3]
  sponsor := neutralProposalSignature "Org1MSP" [1, 2, 3]

theorem neutralProposal_writable :
    neutralProposal.Writable (neutralSigner "Org1MSP")
      [neutralProposalSignature "Org2MSP" [1, 2, 3]] := by
  have hsize : (neutralProposal.collect (neutralSigner "Org1MSP")
      [neutralProposalSignature "Org2MSP" [1, 2, 3]]).map
        (fun s => (s.channelId, (toWire s.message).length)) = .ok ("ch", 313) := by
    decide +kernel
  intro s hs
  rw [hs] at hsize
  obtain ⟨hchannel, hmessage⟩ := Prod.mk.inj (Except.ok.inj hsize)
  refine ⟨fun time => ?_, ?_⟩
  · rw [UpdateSession.length_plainChannelHeader, hchannel]
    decide
  · rw [hmessage]
    decide

/-- The proposal goes out with the signatures of two organizations. -/
theorem submitChange_sends_approved_neutralProposal :
    let signatures := [neutralProposalSignature "Org2MSP" [1, 2, 3]]
    (neutralSigner "Org1MSP").Sound ∧
      neutralProposal.Writable (neutralSigner "Org1MSP") signatures ∧
      neutralProposal.Approved (neutralSigner "Org1MSP") signatures ∧
      ∃ q envelope update organizations,
        submitChange steadyOrderer (neutralSigner "Org1MSP") neutralProposal signatures 10
          beginning = .done (.ok ()) q ∧
        envelope.Submits (neutralSigner "Org1MSP") "ch" update ∧
        update.configUpdate = [1, 2, 3] ∧ update.SignedOnceBy organizations ∧
        "Org1MSP" ∈ organizations ∧ BroadcastsOnce steadyOrderer envelope beginning q.asked := by
  intro signatures
  have hsound : (neutralSigner "Org1MSP").Sound := neutralSigner_sound (by decide)
  obtain ⟨_, q, hrun⟩ : ∃ u q, submitChange steadyOrderer (neutralSigner "Org1MSP") neutralProposal
      [neutralProposalSignature "Org2MSP" [1, 2, 3]] 10 beginning = .done (.ok u) q :=
    Run.done_ok_of_value? (by decide +kernel)
  rcases submitChange_sends_approved steadyOrderer (neutralSigner "Org1MSP") neutralProposal
      signatures 10 beginning hsound neutralProposal_writable with
    ⟨e, q', hfailed, -⟩ | ⟨happroved, envelope, update, organizations, hsubmits, hupdate, hsigned,
      hmem, honce⟩
  · cases hfailed.symm.trans hrun
  · rw [hrun] at honce
    exact ⟨hsound, neutralProposal_writable, happroved, q, envelope, update, organizations, hrun,
      hsubmits, hupdate, hsigned, hmem, honce⟩

end LedgerClient
