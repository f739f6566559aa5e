import LedgerClient.Proofs.Update.Workflow
import LedgerClient.Proofs.Wire.Inversion
/-!
# The channel of a submission

A proposal names its channel twice: in the update that organizations sign, and beside it.  A
submission never reads the update.

* `Envelope.channelHeader?`: what an envelope says of its channel.
* `MembershipProposal.submission_ok`: an envelope is made for the channel beside the update.
* `MembershipProposal.Computed`: a proposal as a sponsor makes it with `computeDelta`.
  `Computed.channelId_eq`: it names the same channel twice.
* `submitChange_channel`: what is sent is for the channel beside the update, which is that of the
  update in a computed proposal.
* `submitChange_renamed`: a proposal whose channel has been replaced goes to the other channel.
-/

namespace LedgerClient

variable {signer : Signer} {headers headers' : HeaderSource} {envelope : Envelope}
  {signatures : List ProposalSignature}

/-- The channel of an update is read back, however long the sets. -/
theorem channelId_of_decodeMessage {delta update : ConfigUpdate}
    (hshort : (Utf8.encode delta.channelId).length < 2 ^ 32)
    (h : decodeMessage ConfigUpdate (toWire delta) = .ok update) :
    update.channelId = delta.channelId :=
  (Fields.decode_cons_encode (c := pack delta.channelId) rfl hshort
    (decode_of_fromWire (fromWire_of_decodeMessage h))).1

/-! ## The channel header of an envelope -/

/-- The channel header of an envelope, if one can be read. -/
def Envelope.channelHeader? (envelope : Envelope) : Option ChannelHeader := do
  let payload ← (decodeMessage Payload envelope.payload).toOption
  let header ← payload.header
  (decodeMessage ChannelHeader header.channelHeader).toOption

theorem length_plainChannelHeader_lt {headerType : HeaderType} {channelId : String}
    {data : Bytes} {tlsCertHash : Option Bytes} (hlength : envelope.payload.length < 2 ^ 32)
    (h : signedEnvelope headerType channelId signer data tlsCertHash headers =
      .ok envelope headers') :
    (toWire (plainChannelHeader headerType headers.time channelId tlsCertHash)).length <
      2 ^ 32 := by
  obtain ⟨nonce, -, hpayload, -, -⟩ := signedEnvelope_ok_iff.1 h
  rw [hpayload] at hlength
  exact (Schema.fits_of_length rfl hlength).1.1

theorem channelHeader?_of_signedEnvelope {headerType : HeaderType} {channelId : String}
    {data : Bytes} {tlsCertHash : Option Bytes} (hlength : envelope.payload.length < 2 ^ 32)
    (h : signedEnvelope headerType channelId signer data tlsCertHash headers =
      .ok envelope headers') :
    envelope.channelHeader? =
      some (plainChannelHeader headerType headers.time channelId tlsCertHash) := by
  have hchannel := length_plainChannelHeader_lt hlength h
  obtain ⟨nonce, -, hpayload, -, -⟩ := signedEnvelope_ok_iff.1 h
  rw [hpayload] at hlength
  rw [Envelope.channelHeader?, hpayload, decodeMessage_of_length rfl rfl hlength]
  exact congrArg Except.toOption (decodeMessage_of_length rfl rfl hchannel)

/-! ## Submissions -/

namespace MembershipProposal

variable {p : MembershipProposal}

/-- An envelope is made for the channel of the proposal, which has to be named. -/
theorem submission_ok (h : p.submission signer signatures headers = .ok envelope headers') :
    p.channelId ≠ "" ∧ ∃ data between, signedEnvelope .configUpdate p.channelId signer data none
      between = .ok envelope headers' := by
  rw [submission] at h
  obtain ⟨s, start, hlift, hsource⟩ := issuing_bind_ok.1 h
  obtain ⟨hs, rfl⟩ := issuing_lift_ok.1 hlift
  obtain ⟨source, start, hget, hcheck⟩ := issuing_bind_ok.1 hsource
  cases hget
  obtain ⟨channel, update, completed, after, hread, -, hsigned⟩ := checkAndSign_ok_iff.1 hcheck
  obtain ⟨payload, header, channelHeader, hpayload, hheader, hchannel, -, hname, hnonempty, hid,
    -⟩ := updateIn_ok_iff.1 hread
  rcases hid with hempty | rfl
  · -- the check takes the channel of its own envelope, which has none either
    have hsession : s.channelId = "" := (collect_ok_iff.1 hs).2.channelId.trans hempty
    let made := plainChannelHeader .configUpdate start.time s.channelId none
    have hlength : (toWire made).length < 2 ^ 32 := by
      rw [UpdateSession.length_plainChannelHeader, hsession]
      decide
    have hfits : (schema Header).Fits (pack (⟨toWire made, []⟩ : Header)) :=
      ⟨hlength, Nat.two_pow_pos 32, trivial⟩
    obtain ⟨hfound, -⟩ := decodeMessage_payload_ok hfits hpayload
    rw [hheader] at hfound
    cases hfound
    rw [decodeMessage_of_length rfl rfl hlength] at hchannel
    rw [← Except.ok.inj hchannel] at hname
    exact absurd (hname.symm.trans hsession) hnonempty
  · exact ⟨hnonempty, _, _, hsigned⟩

/-- A proposal as a sponsor makes it. -/
def Computed (p : MembershipProposal) : Prop :=
  ∃ sponsor channelId config change headers headers',
    propose sponsor channelId config change computeDelta headers = .ok p headers'

theorem channelId_of_computeDelta {channelId : String} {original updated : Config}
    {delta : ConfigUpdate} (h : computeDelta channelId original updated = .ok delta) :
    delta.channelId = channelId := by
  rw [computeDelta_eq] at h
  split at h
  · cases h
  · cases h
    rfl

/-- A computed proposal holds an update of the channel that it names. -/
theorem Computed.exists_delta (h : p.Computed) :
    ∃ delta : ConfigUpdate, p.proposal = toWire delta ∧ delta.channelId = p.channelId := by
  obtain ⟨sponsor, channelId, config, change, headers, headers', h⟩ := h
  obtain ⟨updated, delta, x, -, hdelta, -, rfl⟩ := propose_ok_iff.1 h
  exact ⟨delta, rfl, channelId_of_computeDelta hdelta⟩

theorem Computed.channelId_eq (h : p.Computed) {update : ConfigUpdate}
    (hshort : (Utf8.encode p.channelId).length < 2 ^ 32)
    (hread : decodeMessage ConfigUpdate p.proposal = .ok update) :
    update.channelId = p.channelId := by
  obtain ⟨delta, hproposal, hchannel⟩ := h.exists_delta
  rw [← hchannel] at hshort ⊢
  rw [hproposal] at hread
  exact channelId_of_decodeMessage hshort hread

end MembershipProposal

/-! ## What is sent -/

theorem BroadcastsOnce.envelopesIn_eq {orderer : Orderer} {p : Progress} {asked : List Asked}
    (h : BroadcastsOnce orderer envelope p asked) (hopens : orderer.Opens p) :
    envelopesIn asked = envelopesIn p.asked ++ [envelope] := by
  rcases h with ⟨-, t, more, rfl, hmore⟩ | ⟨hclosed, -⟩
  · exact envelopesIn_broadcast p.asked _ _ _ envelope hmore
  · exact absurd hopens hclosed

/-- A submission of a proposal that holds an update fails without asking anything, or it sends one
envelope at most, which is for the channel that the proposal names beside the update.  In a computed
proposal that is the channel of the update. -/
theorem submitChange_channel (orderer : Orderer) (signer : Signer) (proposal : MembershipProposal)
    (signatures : List ProposalSignature) (milliseconds : Nat) (p : Progress)
    {update : ConfigUpdate} (hupdate : decodeMessage ConfigUpdate proposal.proposal = .ok update) :
    let run := submitChange orderer signer proposal signatures milliseconds p
    (∃ e q, run = .done (.error e) q ∧ q.asked = p.asked) ∨
      ∃ envelope, BroadcastsOnce orderer envelope p run.progress.asked ∧
        (envelope.payload.length < 2 ^ 32 → ∃ channelHeader,
          envelope.channelHeader? = some channelHeader ∧
          channelHeader.channelId = proposal.channelId ∧
          (proposal.Computed → channelHeader.channelId = update.channelId)) := by
  intro run
  cases h : proposal.submission signer signatures p.headers with
  | error e headers => exact .inl ⟨e, _, submitChange_of_error h, rfl⟩
  | ok envelope headers =>
    obtain ⟨-, data, between, hsigned⟩ := MembershipProposal.submission_ok h
    have honce := broadcastsOnce orderer envelope milliseconds { p with headers := headers }
    rw [← submitChange_of_ok h] at honce
    refine .inr ⟨envelope, honce.congr, fun hlength => ?_⟩
    refine ⟨_, channelHeader?_of_signedEnvelope hlength hsigned, rfl, fun hcomputed => ?_⟩
    have hshort := length_plainChannelHeader_lt hlength hsigned
    rw [UpdateSession.length_plainChannelHeader] at hshort
    exact (hcomputed.channelId_eq (by omega) hupdate).symm

/-! ### The newcomer again -/

/-- The update that takes the newcomer into the channel. -/
def newcomerUpdate : ConfigUpdate where
  channelId := "ch"
  readSequence := emptyConfig.sequence
  readSet := emptyConfig.channelGroup
  writeSet := { emptyConfig.channelGroup with
    application := some ⟨Dict.empty.insert "Org4" newcomer, [], .empty⟩ }

/-- The proposal of this update, under the name of any channel. -/
def newcomerProposal (channelId : String) : MembershipProposal where
  channelId := channelId
  proposal := toWire newcomerUpdate
  sponsor := neutralProposalSignature "Org1MSP" (toWire newcomerUpdate)

theorem newcomerProposal_computed : (newcomerProposal "ch").Computed :=
  ⟨neutralSigner "Org1MSP", "ch", emptyConfig, .channelAdd newcomer, epoch, _, rfl⟩

theorem decode_newcomerProposal (channelId : String) :
    decodeMessage ConfigUpdate (newcomerProposal channelId).proposal = .ok newcomerUpdate :=
  decodeMessage_of_length rfl rfl (by decide +kernel)

/-- A sponsor submits what it has proposed. -/
theorem submitChange_channel_newcomerProposal :
    ∃ update q envelope channelHeader,
      decodeMessage ConfigUpdate (newcomerProposal "ch").proposal = .ok update ∧
      (newcomerProposal "ch").Computed ∧
      submitChange steadyOrderer (neutralSigner "Org1MSP") (newcomerProposal "ch") [] 10
        beginning = .done (.ok ()) q ∧
      BroadcastsOnce steadyOrderer envelope beginning q.asked ∧
      envelope.channelHeader? = some channelHeader ∧
      channelHeader.channelId = update.channelId := by
  have hupdate := decode_newcomerProposal "ch"
  obtain ⟨_, q, hrun⟩ : ∃ u q, submitChange steadyOrderer (neutralSigner "Org1MSP")
      (newcomerProposal "ch") [] 10 beginning = .done (.ok u) q :=
    Run.done_ok_of_value? (by decide +kernel)
  have hshort : ∀ e ∈ envelopesIn (submitChange steadyOrderer (neutralSigner "Org1MSP")
      (newcomerProposal "ch") [] 10 beginning).progress.asked, e.payload.length < 2 ^ 32 := by
    decide +kernel
  rcases submitChange_channel steadyOrderer (neutralSigner "Org1MSP") (newcomerProposal "ch") []
      10 beginning hupdate with ⟨e, q', hfailed, -⟩ | ⟨envelope, honce, hread⟩
  · cases hfailed.symm.trans hrun
  · rw [hrun] at honce hshort
    have hsent : envelopesIn q.asked = [envelope] := honce.envelopesIn_eq
      ⟨rfl, Progress.reaches_of_limit_none rfl _⟩
    have hlength := hshort envelope (hsent ▸ List.mem_singleton_self envelope)
    obtain ⟨channelHeader, hheader, -, hchannel⟩ := hread hlength
    exact ⟨newcomerUpdate, q, envelope, channelHeader, hupdate, newcomerProposal_computed, hrun,
      honce, hheader, hchannel newcomerProposal_computed⟩

/-- A proposal whose channel has been replaced after it was signed goes to the other channel. -/
theorem submitChange_renamed :
    ∃ update q envelope channelHeader,
      decodeMessage ConfigUpdate (newcomerProposal "other").proposal = .ok update ∧
      submitChange steadyOrderer (neutralSigner "Org1MSP") (newcomerProposal "other") [] 10
        beginning = .done (.ok ()) q ∧
      envelopesIn q.asked = [envelope] ∧ envelope.channelHeader? = some channelHeader ∧
      channelHeader.channelId = "other" ∧ update.channelId = "ch" := by
  have hupdate := decode_newcomerProposal "other"
  obtain ⟨_, q, hrun⟩ : ∃ u q, submitChange steadyOrderer (neutralSigner "Org1MSP")
      (newcomerProposal "other") [] 10 beginning = .done (.ok u) q :=
    Run.done_ok_of_value? (by decide +kernel)
  have hsent : (envelopesIn (submitChange steadyOrderer (neutralSigner "Org1MSP")
      (newcomerProposal "other") [] 10 beginning).progress.asked).map
        (fun e => e.channelHeader?.map (·.channelId)) = [some "other"] := by
    decide +kernel
  rw [hrun] at hsent
  obtain ⟨envelope, hasked, hheader⟩ := List.map_eq_singleton_iff.1 hsent
  obtain ⟨channelHeader, hread, hchannel⟩ := Option.map_eq_some_iff.1 hheader
  exact ⟨newcomerUpdate, q, envelope, channelHeader, hupdate, hrun, hasked, hread, hchannel, rfl⟩

end LedgerClient
