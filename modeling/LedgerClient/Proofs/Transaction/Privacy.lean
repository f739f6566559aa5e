import LedgerClient.Proofs.Transaction.Assembly
/-!
# Transient data stays with the endorsers

The transient data of a call is in the proposal, whose payload is copied into the transaction.  None
of it gets there: calls that differ in their transient data only make the same transaction.

* `buildProposal_of_calls`: what a call builds, or why it builds nothing.
* `assembleTransaction_congr`: of the payload of a proposal, only the input counts.
* `transaction_without_transient`: both together, for two calls.
-/

namespace LedgerClient

/-- The call that an invocation makes. -/
def Invocation.spec (i : Invocation) : ChaincodeSpec where
  lang := i.lang
  chaincodeId := i.chaincode
  input := { args := i.args, isInit := i.isInit }

/-- What the endorsers get of an invocation. -/
def Invocation.payload (i : Invocation) (transient : Dict Bytes) : ChaincodeProposalPayload where
  input := toWire ({ chaincodeSpec := i.spec } : ChaincodeInvocationSpec)
  transientMap := transient

/-- The invocations differ in their transient data at most. -/
structure Invocation.Alike (i j : Invocation) : Prop where
  chaincode : i.chaincode = j.chaincode
  lang : i.lang = j.lang
  args : i.args = j.args
  isInit : i.isInit = j.isInit

/-- The requests that make a call of a user. -/
inductive Request.Calls (i : Invocation) : Request → Prop
  | invoke : Calls i (.invoke i)
  | query : Calls i (.query i)
  | sendOnly : Calls i (.sendOnly i)

variable {i j : Invocation} {m m' : Dict Bytes} {r r' : Request} {signer : Signer}
  {channelId : String} {headers headers' : HeaderSource}

theorem Invocation.Alike.spec_eq (h : i.Alike j) : i.spec = j.spec := by
  rw [spec, spec, h.chaincode, h.lang, h.args, h.isInit]

/-! ## One call -/

theorem invocationSpec_eq (hm : i.transientMap = .ok m) :
    Request.invocationSpec i =
      if i.chaincode.name.isEmpty then .error (.invalidArgument "chaincode name is required")
      else .ok (i.spec, m) := by
  rw [Request.invocationSpec, hm]
  split
  · rfl
  · rfl

/-- A call is built unless the channel or the chaincode has no name or the signer no nonce. -/
theorem buildProposal_of_calls (hr : r.Calls i) (hm : i.transientMap = .ok m) :
    buildProposal signer channelId r headers =
      if channelId.isEmpty then .error (.invalidArgument "channel id is required") headers
      else if i.chaincode.name.isEmpty then
        .error (.invalidArgument "chaincode name is required") headers
      else match signer.nonce headers.drawn with
        | .error e => .error e headers
        | .ok nonce =>
          .ok (proposalFor ⟨signer.identity, nonce⟩ headers.time .endorserTransaction channelId
            i.spec m) { headers with drawn := headers.drawn + 1 } := by
  have hchannel : channelFor r channelId =
      if channelId.isEmpty then .error (.invalidArgument "channel id is required")
      else .ok channelId := by
    cases hr <;> rfl
  have hspec : r.spec channelId = Request.invocationSpec i := by
    cases hr <;> rfl
  have htype : r.headerType = .endorserTransaction := by
    cases hr <;> rfl
  rw [buildProposal, hchannel, htype]
  split
  · rfl
  change EStateM.bind (liftM (r.spec channelId) : Issuing _) _ headers = _
  rw [hspec, invocationSpec_eq hm]
  split
  · rfl
  change EStateM.bind signer.newHeader _ headers = _
  rw [EStateM.bind, newHeader_eq]
  cases signer.nonce headers.drawn with
  | error e => rfl
  | ok nonce => rfl

/-! ## Two calls -/

variable {proposal proposal' : Proposal} {payload payload' : ChaincodeProposalPayload}

theorem transactionPayload_congr (h : payload.input = payload'.input) (header : Header)
    (first : ProposalResponse) (responses : List ProposalResponse) :
    transactionPayload header payload first responses =
      transactionPayload header payload' first responses := by
  simp only [transactionPayload, transactionOf, h]

/-- Proposals with the same header and the same input make the same transaction. -/
theorem assembleTransaction_congr (hheader : proposal.header = proposal'.header)
    (hpayload : decodeMessage ChaincodeProposalPayload proposal.payload = .ok payload)
    (hpayload' : decodeMessage ChaincodeProposalPayload proposal'.payload = .ok payload')
    (hinput : payload.input = payload'.input) (responses : List ProposalResponse) :
    assembleTransaction proposal signer responses =
      assembleTransaction proposal' signer responses := by
  cases responses with
  | nil => rfl
  | cons first rest =>
    rw [assembleTransaction_cons, assembleTransaction_cons, hheader, hpayload, hpayload']
    simp only [bind, Except.bind, transactionPayload_congr hinput]

section Proposals

variable {header : SignatureHeader} {time : Timestamp} {headerType : HeaderType}

theorem proposalFor_payload :
    (proposalFor header time headerType channelId i.spec m).proposal.payload =
      toWire (i.payload m) := rfl

theorem proposalFor_header {spec : ChaincodeSpec} :
    (proposalFor header time headerType channelId spec m).proposal.header =
      (proposalFor header time headerType channelId spec m').proposal.header := rfl

/-- The proposals of two calls make the same transaction under the same header. -/
theorem assembleTransaction_proposalFor (halike : i.Alike j)
    (hfits : (schema ChaincodeProposalPayload).Fits (pack (i.payload m)))
    (hfits' : (schema ChaincodeProposalPayload).Fits (pack (j.payload m')))
    (responses : List ProposalResponse) :
    assembleTransaction (proposalFor header time headerType channelId i.spec m).proposal signer
        responses =
      assembleTransaction (proposalFor header time headerType channelId j.spec m').proposal signer
        responses := by
  have hread : decodeMessage ChaincodeProposalPayload
      (proposalFor header time headerType channelId i.spec m).proposal.payload =
        .ok (i.payload m) := by
    rw [proposalFor_payload]
    exact decodeMessage_toWire rfl hfits
  have hread' : decodeMessage ChaincodeProposalPayload
      (proposalFor header time headerType channelId j.spec m').proposal.payload =
        .ok (j.payload m') := by
    rw [proposalFor_payload]
    exact decodeMessage_toWire rfl hfits'
  have hinput : (i.payload m).input = (j.payload m').input := by
    rw [Invocation.payload, Invocation.payload, halike.spec_eq]
  refine assembleTransaction_congr ?_ hread hread' hinput responses
  rw [halike.spec_eq, proposalFor_header]

end Proposals

/-- Two calls that differ in their transient data at most, made with the same nonce at the same
time, are refused alike or start the same transaction: the headers, the ids and all that comes of
any responses are the same.  A payload that does not fit has no encoding. -/
theorem transaction_without_transient (halike : i.Alike j) (hr : r.Calls i) (hr' : r'.Calls j)
    (hm : i.transientMap = .ok m) (hm' : j.transientMap = .ok m')
    (hfits : (schema ChaincodeProposalPayload).Fits (pack (i.payload m)))
    (hfits' : (schema ChaincodeProposalPayload).Fits (pack (j.payload m')))
    (htime : headers.time = headers'.time)
    (hnonce : signer.nonce headers.drawn = signer.nonce headers'.drawn) :
    (∃ built built' after after',
      buildProposal signer channelId r headers = .ok built after ∧
      buildProposal signer channelId r' headers' = .ok built' after' ∧
      built.proposal.header = built'.proposal.header ∧ built.txId = built'.txId ∧
      ∀ assembler responses, assembleTransaction built.proposal assembler responses =
        assembleTransaction built'.proposal assembler responses) ∨
    (∃ e, (channelId.isEmpty ∨ i.chaincode.name.isEmpty ∨ signer.nonce headers.drawn = .error e) ∧
      buildProposal signer channelId r headers = .error e headers ∧
      buildProposal signer channelId r' headers' = .error e headers') := by
  rw [buildProposal_of_calls hr hm, buildProposal_of_calls hr' hm', ← halike.chaincode, ← hnonce,
    ← htime]
  by_cases hchannel : channelId.isEmpty = true
  · rw [if_pos hchannel, if_pos hchannel]
    exact .inr ⟨_, .inl hchannel, rfl, rfl⟩
  rw [if_neg hchannel, if_neg hchannel]
  by_cases hname : i.chaincode.name.isEmpty = true
  · rw [if_pos hname, if_pos hname]
    exact .inr ⟨_, .inr (.inl hname), rfl, rfl⟩
  rw [if_neg hname, if_neg hname]
  cases hdrawn : signer.nonce headers.drawn with
  | error e => exact .inr ⟨e, .inr (.inr rfl), rfl, rfl⟩
  | ok nonce =>
    refine .inl ⟨_, _, _, _, rfl, rfl, ?_, rfl, fun assembler responses => ?_⟩
    · rw [halike.spec_eq, proposalFor_header]
    · exact assembleTransaction_proposalFor halike hfits hfits' responses

/-- A bid in an auction; the price is transient. -/
def bid (transient : Option String) : Invocation where
  chaincode := { path := "", name := "auction", version := "1.0" }
  args := [Utf8.encode "bid", Utf8.encode "lot 7"]
  transient := transient

def pricedBid : Invocation := bid (some "\x7b\"price\": \"MTAw\"\x7d")

def blankBid : Invocation := bid (some " ")

/-- A signer whose signatures show what was signed. -/
def openSigner : Signer where
  orgId := "Org1MSP"
  identity := [1]
  sign := fun message => .ok message
  nonce := fun _ => .ok [3]

/-- A bid with a price and one without make the same transaction. -/
theorem transaction_without_price :
    pricedBid.transientMap = .ok (Dict.ofList [("price", [49, 48, 48])]) ∧
    blankBid.transientMap = .ok .empty ∧
    ∃ built built' after after',
      buildProposal openSigner "ch" (.invoke pricedBid) ⟨⟨0, 0⟩, 0⟩ = .ok built after ∧
      buildProposal openSigner "ch" (.sendOnly blankBid) ⟨⟨0, 0⟩, 5⟩ = .ok built' after' ∧
      built.proposal.header = built'.proposal.header ∧ built.txId = built'.txId ∧
      ∀ assembler responses, assembleTransaction built.proposal assembler responses =
        assembleTransaction built'.proposal assembler responses := by
  have hprice : pricedBid.transientMap = .ok (Dict.ofList [("price", [49, 48, 48])]) := by
    have hread : pricedBid.transientMap.toOption =
        some (Dict.ofList [("price", [49, 48, 48])]) := by
      decide +kernel
    cases hmap : pricedBid.transientMap with
    | error e =>
      rw [hmap] at hread
      cases hread
    | ok m =>
      rw [hmap] at hread
      exact congrArg Except.ok (Option.some.inj hread)
  have hblank : blankBid.transientMap = .ok .empty := rfl
  refine ⟨hprice, hblank, ?_⟩
  have halike : pricedBid.Alike blankBid := ⟨rfl, rfl, rfl, rfl⟩
  have hfits : (schema ChaincodeProposalPayload).Fits
      (pack (pricedBid.payload (Dict.ofList [("price", [49, 48, 48])]))) :=
    Schema.fits_of_length rfl (by decide)
  have hfits' : (schema ChaincodeProposalPayload).Fits (pack (blankBid.payload .empty)) :=
    Schema.fits_of_length rfl (by decide)
  refine Or.resolve_right (transaction_without_transient halike .invoke .sendOnly hprice hblank
    hfits hfits' rfl rfl) ?_
  rintro ⟨e, h | h | h, -⟩
  · cases h
  · cases h
  · cases h

end LedgerClient
