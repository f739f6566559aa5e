import LedgerClient.Network.Progress
import LedgerClient.Proofs.Wire.Size
import LedgerClient.Proposal.Build
import LedgerClient.Transaction.Assemble
/-!
# Assembling transactions

When the responses of endorsers make a transaction, and what the envelope says.

* `assembleTransaction_ok_iff`: the conditions under which there is an envelope.
  `assembleTransaction_error`: no failure is a commit failure, unless the signer
  gives one.
* `buildProposal_ok_iff`: what a built proposal is made from.
* `exists_envelope_of_built`, `names_of_built`: a built proposal whose parts can be
  written makes an envelope that names its transaction and its channel.
-/

namespace LedgerClient

/-! ## Assembly -/

variable {proposal : Proposal} {signer : Signer} {responses : List ProposalResponse}
  {envelope : Envelope}

theorem requireSuccess_ok_iff :
    requireSuccess responses = .ok () ↔ ∀ r ∈ responses, isSuccess r.response.status = true := by
  rw [requireSuccess]
  cases h : responses.find? fun r => !isSuccess r.response.status with
  | none => simpa using h
  | some r =>
    have hr : isSuccess r.response.status = false := by simpa using List.find?_some h
    refine ⟨fun h => (nomatch h), fun hall => ?_⟩
    rw [hall r (List.mem_of_find?_eq_some h)] at hr
    cases hr

/-- The payload of a transaction: the header of the proposal over the call, the result of the
simulation and the endorsements. -/
def transactionPayload (header : Header) (payload : ChaincodeProposalPayload)
    (first : ProposalResponse) (responses : List ProposalResponse) : Payload where
  header := some header
  data := toWire (transactionOf header.signatureHeader payload first.payload
    (responses.filterMap (·.endorsement)))

theorem assembleTransaction_cons (proposal : Proposal) (signer : Signer) (first : ProposalResponse)
    (rest : List ProposalResponse) :
    assembleTransaction proposal signer (first :: rest) =
      decodeMessage Header proposal.header >>= fun header =>
      decodeMessage SignatureHeader header.signatureHeader >>= fun signatureHeader =>
      if signer.identity ≠ signatureHeader.creator then .error .creatorMismatch else
      requireSuccess (first :: rest) >>= fun _ =>
      if (first :: rest).any fun r => r.payload ≠ first.payload then .error .endorsementMismatch
      else decodeMessage ChaincodeProposalPayload proposal.payload >>= fun payload =>
      signer.sign (toWire (transactionPayload header payload first (first :: rest))) >>=
        fun signature =>
      .ok ⟨toWire (transactionPayload header payload first (first :: rest)), signature⟩ := rfl

/-- There is an envelope when the peers agree on one success and everything can be read and
signed. -/
theorem assembleTransaction_ok_iff :
    assembleTransaction proposal signer responses = .ok envelope ↔
      ∃ first rest header signatureHeader payload, responses = first :: rest ∧
        decodeMessage Header proposal.header = .ok header ∧
        decodeMessage SignatureHeader header.signatureHeader = .ok signatureHeader ∧
        signer.identity = signatureHeader.creator ∧
        (∀ r ∈ responses, isSuccess r.response.status = true) ∧
        (∀ r ∈ responses, r.payload = first.payload) ∧
        decodeMessage ChaincodeProposalPayload proposal.payload = .ok payload ∧
        envelope.payload = toWire (transactionPayload header payload first responses) ∧
        signer.sign envelope.payload = .ok envelope.signature := by
  have hany : ∀ (first : ProposalResponse) (l : List ProposalResponse),
      ¬(l.any fun r => r.payload ≠ first.payload) = true ↔ ∀ r ∈ l, r.payload = first.payload := by
    intro first l
    simp
  cases responses with
  | nil => exact ⟨fun h => (nomatch h), fun ⟨_, _, _, _, _, h, _⟩ => (nomatch h)⟩
  | cons first rest =>
    rw [assembleTransaction_cons]
    constructor
    · intro h
      obtain ⟨header, hheader, h⟩ := except_bind_ok.1 h
      obtain ⟨signatureHeader, hsignature, h⟩ := except_bind_ok.1 h
      split at h
      · cases h
      rename_i hcreator
      obtain ⟨_, hsuccess, h⟩ := except_bind_ok.1 h
      split at h
      · cases h
      rename_i hagree
      obtain ⟨payload, hpayload, h⟩ := except_bind_ok.1 h
      obtain ⟨signature, hsign, h⟩ := except_bind_ok.1 h
      cases h
      exact ⟨first, rest, header, signatureHeader, payload, rfl, hheader, hsignature,
        Decidable.not_not.1 hcreator, requireSuccess_ok_iff.1 hsuccess, (hany first _).1 hagree,
        hpayload, rfl, hsign⟩
    · rintro ⟨_, _, header, signatureHeader, payload, heq, hheader, hsignature, hcreator,
        hsuccess, hagree, hpayload, hbytes, hsign⟩
      cases heq
      refine except_bind_ok.2 ⟨header, hheader, except_bind_ok.2 ⟨signatureHeader, hsignature, ?_⟩⟩
      rw [if_neg (Decidable.not_not.2 hcreator)]
      refine except_bind_ok.2 ⟨(), requireSuccess_ok_iff.2 hsuccess, ?_⟩
      rw [if_neg ((hany first _).2 hagree)]
      refine except_bind_ok.2 ⟨payload, hpayload, except_bind_ok.2 ⟨envelope.signature, ?_, ?_⟩⟩
      · rw [← hbytes]
        exact hsign
      · rw [← hbytes]

theorem decodeMessage_error {α : Type} [Message α] {bs : Bytes} {e : ClientError}
    (h : decodeMessage α bs = .error e) : e.isCommitFailure = false := by
  rw [decodeMessage] at h
  cases hwire : fromWire α bs with
  | ok a =>
    rw [hwire] at h
    cases h
  | error fault =>
    rw [hwire] at h
    cases h
    rfl

/-- No failure is a commit failure, unless the signer gives one. -/
theorem assembleTransaction_error {e : ClientError}
    (h : assembleTransaction proposal signer responses = .error e) :
    e.isCommitFailure = false ∨ ∃ message, signer.sign message = .error e := by
  cases responses with
  | nil =>
    cases h
    exact .inl rfl
  | cons first rest =>
    rw [assembleTransaction_cons] at h
    rcases except_bind_error.1 h with h | ⟨header, -, h⟩
    · exact .inl (decodeMessage_error h)
    rcases except_bind_error.1 h with h | ⟨signatureHeader, -, h⟩
    · exact .inl (decodeMessage_error h)
    split at h
    · cases h
      exact .inl rfl
    rcases except_bind_error.1 h with h | ⟨_, -, h⟩
    · rw [requireSuccess] at h
      split at h
      · cases h
        exact .inl rfl
      · cases h
    split at h
    · cases h
      exact .inl rfl
    rcases except_bind_error.1 h with h | ⟨payload, -, h⟩
    · exact .inl (decodeMessage_error h)
    rcases except_bind_error.1 h with h | ⟨signature, -, h⟩
    · exact .inr ⟨_, h⟩
    · cases h

/-! ## Built proposals -/

variable {channelId : String} {request : Request} {headers headers' : HeaderSource}
  {built : BuiltProposal}

section Issuing

variable {α β : Type} {x : Issuing α} {f : α → Issuing β} {b : β}

theorem issuing_bind_ok :
    (x >>= f) headers = .ok b headers' ↔
      ∃ a between, x headers = .ok a between ∧ f a between = .ok b headers' := by
  change EStateM.bind x f headers = .ok b headers' ↔ _
  rw [EStateM.bind]
  cases x headers with
  | ok a between =>
    constructor
    · intro h
      exact ⟨a, between, rfl, h⟩
    · rintro ⟨_, _, h, hf⟩
      cases h
      exact hf
  | error e between => exact ⟨fun h => (nomatch h), fun ⟨_, _, h, _⟩ => (nomatch h)⟩

theorem issuing_lift_ok {r : Except ClientError α} {a : α} :
    (liftM r : Issuing α) headers = .ok a headers' ↔ r = .ok a ∧ headers' = headers := by
  cases r with
  | ok b =>
    constructor
    · intro h
      cases h
      exact ⟨rfl, rfl⟩
    · rintro ⟨h, rfl⟩
      cases h
      rfl
  | error e => exact ⟨fun h => (nomatch h), fun h => (nomatch h.1)⟩

end Issuing

/-- A header takes one nonce. -/
theorem newHeader_eq (signer : Signer) (headers : HeaderSource) :
    signer.newHeader headers =
      match signer.nonce headers.drawn with
      | .error e => .error e headers
      | .ok nonce => .ok ⟨signer.identity, nonce⟩ { headers with drawn := headers.drawn + 1 } := by
  change EStateM.bind (liftM (signer.nonce headers.drawn) : Issuing _) _ headers = _
  cases signer.nonce headers.drawn with
  | error e => rfl
  | ok nonce => rfl

theorem newHeader_ok_iff {header : SignatureHeader} :
    signer.newHeader headers = .ok header headers' ↔
      ∃ nonce, signer.nonce headers.drawn = .ok nonce ∧ header = ⟨signer.identity, nonce⟩ ∧
        headers' = { headers with drawn := headers.drawn + 1 } := by
  rw [newHeader_eq]
  cases signer.nonce headers.drawn with
  | error e => exact ⟨fun h => (nomatch h), fun ⟨_, h, _⟩ => (nomatch h)⟩
  | ok nonce =>
    constructor
    · intro h
      cases h
      exact ⟨nonce, rfl, rfl, rfl⟩
    · rintro ⟨_, h, rfl, rfl⟩
      cases h
      rfl

/-- A proposal is built from the request, the channel that its header names and a new header of
the signer. -/
theorem buildProposal_ok_iff :
    buildProposal signer channelId request headers = .ok built headers' ↔
      ∃ channel spec transient nonce, channelFor request channelId = .ok channel ∧
        request.spec channel = .ok (spec, transient) ∧
        signer.nonce headers.drawn = .ok nonce ∧
        built = proposalFor ⟨signer.identity, nonce⟩ headers.time request.headerType channel spec
          transient ∧
        headers' = { headers with drawn := headers.drawn + 1 } := by
  rw [buildProposal, issuing_bind_ok]
  constructor
  · rintro ⟨channel, s₁, hliftChannel, h₁⟩
    obtain ⟨hchannel, rfl⟩ := issuing_lift_ok.1 hliftChannel
    obtain ⟨⟨spec, transient⟩, s₂, hliftSpec, h₂⟩ := issuing_bind_ok.1 h₁
    obtain ⟨hspec, rfl⟩ := issuing_lift_ok.1 hliftSpec
    obtain ⟨source, s₃, hget, h₃⟩ := issuing_bind_ok.1 h₂
    cases hget
    obtain ⟨header, s₄, hheader, h₄⟩ := issuing_bind_ok.1 h₃
    obtain ⟨nonce, hnonce, rfl, rfl⟩ := newHeader_ok_iff.1 hheader
    cases h₄
    exact ⟨channel, spec, transient, nonce, hchannel, hspec, hnonce, rfl, rfl⟩
  · rintro ⟨channel, spec, transient, nonce, hchannel, hspec, hnonce, rfl, rfl⟩
    refine ⟨channel, headers, issuing_lift_ok.2 ⟨hchannel, rfl⟩, ?_⟩
    refine issuing_bind_ok.2 ⟨(spec, transient), headers, issuing_lift_ok.2 ⟨hspec, rfl⟩, ?_⟩
    refine issuing_bind_ok.2 ⟨headers, headers, rfl, ?_⟩
    exact issuing_bind_ok.2 ⟨_, _, newHeader_ok_iff.2 ⟨nonce, hnonce, rfl, rfl⟩, rfl⟩

/-- The parts of a proposal are short enough for their lengths to be written; a longer part has no
encoding. -/
def Proposal.Writable (p : Proposal) : Prop :=
  p.header.length < 2 ^ 32 ∧ p.payload.length < 2 ^ 32

/-- The channel header of a proposal. -/
def proposalChannelHeader (header : SignatureHeader) (time : Timestamp) (headerType : HeaderType)
    (channelId : String) (spec : ChaincodeSpec) : ChannelHeader where
  headerType := headerType
  version := 0
  timestamp := time
  channelId := channelId
  txId := txIdOf header
  epoch := 0
  extension := toWire ({ chaincodeId := spec.chaincodeId } : ChaincodeHeaderExtension)
  tlsCertHash := none

/-- The header of a proposal. -/
def proposalHeader (header : SignatureHeader) (time : Timestamp) (headerType : HeaderType)
    (channelId : String) (spec : ChaincodeSpec) : Header where
  channelHeader := toWire (proposalChannelHeader header time headerType channelId spec)
  signatureHeader := toWire header

theorem length_lt_of_header {h : Header} (hlength : (toWire h).length < 2 ^ 32) :
    h.channelHeader.length < 2 ^ 32 ∧ h.signatureHeader.length < 2 ^ 32 := by
  change (encodeBytes h.channelHeader ++ (encodeBytes h.signatureHeader ++ [])).length < _
    at hlength
  rw [List.append_nil, List.length_append, length_encodeBytes, length_encodeBytes] at hlength
  omega

section Reading

variable {header : SignatureHeader} {time : Timestamp} {headerType : HeaderType}
  {channel : String} {spec : ChaincodeSpec} {transient : Dict Bytes}

/-- The headers of a proposal are read back where their length can be written. -/
theorem proposalFor_readsHeaders
    (h : (proposalFor header time headerType channel spec transient).proposal.header.length <
      2 ^ 32) :
    decodeMessage Header (proposalFor header time headerType channel spec
        transient).proposal.header =
      .ok (proposalHeader header time headerType channel spec) ∧
    decodeMessage ChannelHeader (proposalHeader header time headerType channel spec).channelHeader =
      .ok (proposalChannelHeader header time headerType channel spec) ∧
    decodeMessage SignatureHeader
        (proposalHeader header time headerType channel spec).signatureHeader = .ok header := by
  have hheader : (toWire (proposalHeader header time headerType channel spec)).length < 2 ^ 32 := h
  obtain ⟨hchannel, hsignature⟩ := length_lt_of_header hheader
  exact ⟨decodeMessage_of_length rfl rfl hheader, decodeMessage_of_length rfl rfl hchannel,
    decodeMessage_of_length rfl rfl hsignature⟩

/-- A proposal that can be written is read back part by part. -/
theorem proposalFor_reads
    (h : (proposalFor header time headerType channel spec transient).proposal.Writable) :
    decodeMessage Header (proposalFor header time headerType channel spec
        transient).proposal.header =
      .ok (proposalHeader header time headerType channel spec) ∧
    decodeMessage ChannelHeader (proposalHeader header time headerType channel spec).channelHeader =
      .ok (proposalChannelHeader header time headerType channel spec) ∧
    decodeMessage SignatureHeader
        (proposalHeader header time headerType channel spec).signatureHeader = .ok header ∧
    ∃ payload, decodeMessage ChaincodeProposalPayload (proposalFor header time headerType channel
      spec transient).proposal.payload = .ok payload := by
  obtain ⟨hheader, hchannel, hsignature⟩ := proposalFor_readsHeaders h.1
  exact ⟨hheader, hchannel, hsignature, _, decodeMessage_of_length rfl rfl h.2⟩

end Reading

/-- The header of an envelope names a transaction and a channel. -/
def Envelope.Names (envelope : Envelope) (txId channelId : String) : Prop :=
  ∃ payload header channelHeader, envelope.payload = toWire (payload : Payload) ∧
    payload.header = some header ∧
    decodeMessage ChannelHeader header.channelHeader = .ok channelHeader ∧
    channelHeader.txId = txId ∧ channelHeader.channelId = channelId

/-- Where all is written in fewer than 2 ^ 32 bytes, the id of an envelope is the one that it
names. -/
theorem Envelope.Names.txId_eq {txId : String} (h : envelope.Names txId channelId)
    (hlength : envelope.payload.length < 2 ^ 32) : envelope.txId = txId := by
  obtain ⟨payload, header, channelHeader, hpayload, hheader, hchannel, rfl, -⟩ := h
  rw [hpayload] at hlength
  have hread : decodeMessage Payload envelope.payload = .ok payload :=
    hpayload ▸ decodeMessage_of_length rfl rfl hlength
  simp only [Envelope.txId, hread, hheader, hchannel, bind, Except.bind]
  rfl

/-- The envelope of a built proposal names the transaction and the channel of the proposal. -/
theorem names_of_built
    (hbuilt : buildProposal signer channelId request headers = .ok built headers')
    (hwritable : built.proposal.Writable)
    (h : assembleTransaction built.proposal signer responses = .ok envelope) :
    ∃ channel, channelFor request channelId = .ok channel ∧ envelope.Names built.txId channel := by
  obtain ⟨channel, spec, transient, nonce, hchannel, -, -, rfl, -⟩ := buildProposal_ok_iff.1 hbuilt
  obtain ⟨hheader, hchannelHeader, -, -⟩ := proposalFor_reads hwritable
  obtain ⟨first, rest, header, signatureHeader, payload, -, hheader', -, -, -, -, -, hbytes, -⟩ :=
    assembleTransaction_ok_iff.1 h
  rw [hheader] at hheader'
  cases hheader'
  exact ⟨channel, hchannel, _, _, _, hbytes, rfl, hchannelHeader, rfl, rfl⟩

/-- A built proposal on which the peers agree makes an envelope. -/
theorem exists_envelope_of_built
    (hbuilt : buildProposal signer channelId request headers = .ok built headers')
    (hwritable : built.proposal.Writable) (hne : responses ≠ [])
    (hsuccess : ∀ r ∈ responses, isSuccess r.response.status = true)
    (hagree : ∀ r ∈ responses, ∀ r' ∈ responses, r.payload = r'.payload)
    (hsign : ∀ message, ∃ signature, signer.sign message = .ok signature) :
    ∃ envelope, assembleTransaction built.proposal signer responses = .ok envelope := by
  obtain ⟨channel, spec, transient, nonce, -, -, -, rfl, -⟩ := buildProposal_ok_iff.1 hbuilt
  obtain ⟨hheader, -, hsignature, payload, hpayload⟩ := proposalFor_reads hwritable
  obtain ⟨first, rest, rfl⟩ := List.exists_cons_of_ne_nil hne
  obtain ⟨signature, hsigned⟩ := hsign (toWire (transactionPayload
    (proposalHeader ⟨signer.identity, nonce⟩ headers.time request.headerType channel spec) payload
    first (first :: rest)))
  refine ⟨⟨_, signature⟩, assembleTransaction_ok_iff.2 ⟨first, rest, _, _, payload, rfl, hheader,
    hsignature, rfl, hsuccess, fun r hr => ?_, hpayload, rfl, hsigned⟩⟩
  exact hagree r hr first List.mem_cons_self

end LedgerClient
