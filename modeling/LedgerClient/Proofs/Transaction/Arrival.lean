import LedgerClient.Proofs.InStep
import LedgerClient.Proofs.Transaction.Ordering
import LedgerClient.Proofs.Wire.Canonical
/-!
# The order in which endorsements arrive

Responses are merged in the order in which peers give them.  The order shows in the order of the
endorsements, and nowhere else.

* `SameEnd`: two computations both succeed, or both fail with the same kind of error.
* `assembleTransaction_perm`: whether responses make a transaction does not depend on their order.
* `Envelope.Reads`: what is read in the envelope of a transaction.  `Twins.reads`: the same is read
  in envelopes made from the same responses, up to the order of the endorsements.
* `invoke_of_same_answers`: invocations that get the same answers at different times end alike, and
  both or neither of them sends such an envelope.
-/

namespace LedgerClient

/-! ## Ends of the same kind -/

/-- Both succeed, with results that are related, or both fail with errors of one kind. -/
inductive SameEnd {α β : Type} (R : α → β → Prop) :
    Except ClientError α → Except ClientError β → Prop
  | ok {a : α} {b : β} : R a b → SameEnd R (.ok a) (.ok b)
  | error {e e' : ClientError} : e.ctorIdx = e'.ctorIdx → SameEnd R (.error e) (.error e')

namespace SameEnd

variable {α α' β β' : Type} {R : α → α' → Prop} {S : β → β' → Prop}

theorem bind {x : Except ClientError α} {x' : Except ClientError α'}
    {f : α → Except ClientError β} {f' : α' → Except ClientError β'} (hx : SameEnd R x x')
    (hf : ∀ a a', R a a' → SameEnd S (f a) (f' a')) : SameEnd S (x >>= f) (x' >>= f') := by
  cases hx with
  | ok h => exact hf _ _ h
  | error h => exact .error h

/-- Both computations begin in the same way. -/
theorem bind_same {x : Except ClientError α} {f : α → Except ClientError β}
    {f' : α → Except ClientError β'} (hf : ∀ a, x = .ok a → SameEnd S (f a) (f' a)) :
    SameEnd S (x >>= f) (x >>= f') := by
  cases x with
  | ok a => exact hf a rfl
  | error e => exact .error rfl

end SameEnd

/-! ## Envelopes of the same responses -/

/-- What an envelope of a transaction of one action says: the header, the call, the result of its
simulation and the endorsements. -/
def Envelope.Reads (envelope : Envelope) (header : Header) (call : ChaincodeProposalPayload)
    (result : Bytes) (endorsements : List Endorsement) : Prop :=
  ∃ data action callBytes,
    decodeMessage Payload envelope.payload = .ok { header := some header, data } ∧
    decodeMessage Transaction data =
      .ok { actions := [{ header := header.signatureHeader, payload := action }] } ∧
    decodeMessage ChaincodeActionPayload action =
      .ok { chaincodeProposalPayload := callBytes
            action := { proposalResponsePayload := result, endorsements } } ∧
    decodeMessage ChaincodeProposalPayload callBytes = .ok call

/-- The payload of a transaction. -/
def transactionBytes (header : Header) (call : ChaincodeProposalPayload) (result : Bytes)
    (endorsements : List Endorsement) : Bytes :=
  toWire ({
    header := some header
    data := toWire (transactionOf header.signatureHeader call result endorsements) } : Payload)

/-- Whether a transaction is signed, and why not, does not depend on the order of the endorsements
in it. -/
def Signer.IgnoresOrder (signer : Signer) : Prop :=
  ∀ header call result (endorsements endorsements' : List Endorsement),
    endorsements.Perm endorsements' →
    SameEnd (fun _ _ => True) (signer.sign (transactionBytes header call result endorsements))
      (signer.sign (transactionBytes header call result endorsements'))

/-- The envelopes differ in the order of the endorsements, and in the signature over them. -/
def Envelope.Twins (envelope envelope' : Envelope) : Prop :=
  ∃ header call result endorsements endorsements', (schema Header).Fits (pack header) ∧
    envelope.payload = transactionBytes header call result endorsements ∧
    envelope'.payload = transactionBytes header call result endorsements' ∧
    endorsements.Perm endorsements'

section Lengths

variable {header : Header} {call : ChaincodeProposalPayload} {result : Bytes}
  {endorsements endorsements' : List Endorsement}

theorem length_toWire_endorsements (h : endorsements.Perm endorsements') :
    (toWire endorsements).length = (toWire endorsements').length := by
  have hpacked := h.map (pack (α := Endorsement))
  change (encodeCount _ ++ (endorsements.map pack).flatMap _).length =
    (encodeCount _ ++ (endorsements'.map pack).flatMap _).length
  rw [List.length_append, List.length_append, encodeCount, encodeCount, length_littleEndian,
    length_littleEndian, (hpacked.flatMap_right _).length_eq]

theorem length_toWire_actionPayload (callBytes : Bytes) :
    (toWire ({
      chaincodeProposalPayload := callBytes
      action := { proposalResponsePayload := result, endorsements } } :
        ChaincodeActionPayload)).length =
      8 + callBytes.length + result.length + (toWire endorsements).length := by
  change (encodeBytes callBytes ++ ((encodeBytes result ++ (toWire endorsements ++ [])) ++
    [])).length = _
  simp only [List.length_append, length_encodeBytes, List.length_nil]
  omega

theorem length_toWire_transaction (signatureHeader action : Bytes) :
    (toWire ({ actions := [{ header := signatureHeader, payload := action }] } :
      Transaction)).length = 12 + signatureHeader.length + action.length := by
  change (encodeCount 1 ++ ((encodeBytes signatureHeader ++ (encodeBytes action ++ [])) ++ []) ++
    []).length = _
  simp only [List.length_append, length_encodeBytes, List.length_nil, encodeCount,
    length_littleEndian]
  omega

/-- The order of the endorsements does not change the length of a transaction. -/
theorem length_transactionOf (h : endorsements.Perm endorsements') (signatureHeader : Bytes) :
    (toWire (transactionOf signatureHeader call result endorsements)).length =
      (toWire (transactionOf signatureHeader call result endorsements')).length := by
  rw [transactionOf, transactionOf, length_toWire_transaction, length_toWire_transaction,
    length_toWire_actionPayload, length_toWire_actionPayload, length_toWire_endorsements h]

theorem length_transactionBytes :
    (transactionBytes header call result endorsements).length = (toWire (some header)).length +
      (4 + (toWire (transactionOf header.signatureHeader call result endorsements)).length) := by
  change (toWire (some header) ++ (encodeBytes _ ++ [])).length = _
  rw [List.append_nil, List.length_append, length_encodeBytes]
  rfl

/-- The id of a transaction is read in its header, as long as the data has an encoding. -/
theorem txId_of_payload {envelope : Envelope} {data : Bytes}
    (hheader : (schema Header).Fits (pack header))
    (h : envelope.payload = toWire ({ header := some header, data } : Payload)) :
    envelope.txId = if data.length < 2 ^ 32 then
      match decodeMessage ChannelHeader header.channelHeader with
      | .ok channelHeader => channelHeader.txId
      | .error _ => ""
    else "" := by
  rw [Envelope.txId, h]
  by_cases hdata : data.length < 2 ^ 32
  · have hread : decodeMessage Payload (toWire ({ header := some header, data } : Payload)) =
        .ok { header := some header, data } := decodeMessage_toWire rfl ⟨hheader, hdata, trivial⟩
    rw [hread, if_pos hdata]
    cases hchannel : decodeMessage ChannelHeader header.channelHeader with
    | ok channelHeader => simp only [bind, Except.bind, hchannel]; rfl
    | error e => simp only [bind, Except.bind, hchannel]
  · rw [if_neg hdata]
    cases hread : decodeMessage Payload (toWire ({ header := some header, data } : Payload)) with
    | ok payload => exact absurd (decodeMessage_payload_ok hheader hread).2 hdata
    | error e => rfl

/-- A transaction whose length can be written is read back, without the transient data of the
call. -/
theorem reads_of_fits {envelope : Envelope} (hheader : (schema Header).Fits (pack header))
    (hdata : (toWire (transactionOf header.signatureHeader call result endorsements)).length <
      2 ^ 32)
    (h : envelope.payload = transactionBytes header call result endorsements) :
    envelope.Reads header { call with transientMap := .empty } result endorsements := by
  have haction := hdata
  rw [transactionOf, length_toWire_transaction] at haction
  have hcall := haction
  rw [length_toWire_actionPayload] at hcall
  refine ⟨_, _, _, ?_, decodeMessage_of_length rfl rfl hdata,
    decodeMessage_of_length rfl rfl (by omega), decodeMessage_of_length rfl rfl (by omega)⟩
  rw [h]
  exact decodeMessage_toWire rfl ⟨hheader, hdata, trivial⟩

theorem reads_of_transactionBytes {envelope : Envelope}
    (h : envelope.payload = transactionBytes header call result endorsements)
    (hlength : envelope.payload.length < 2 ^ 32) :
    envelope.Reads header { call with transientMap := .empty } result endorsements := by
  rw [h, transactionBytes] at hlength
  have hfits := Schema.fits_of_length rfl hlength
  exact reads_of_fits hfits.1 hfits.2.1 h

end Lengths

namespace Envelope.Twins

variable {envelope envelope' : Envelope}

theorem length_eq (h : envelope.Twins envelope') :
    envelope.payload.length = envelope'.payload.length := by
  obtain ⟨header, call, result, endorsements, endorsements', -, hpayload, hpayload', hperm⟩ := h
  rw [hpayload, hpayload', length_transactionBytes, length_transactionBytes,
    length_transactionOf hperm]

theorem txId_eq (h : envelope.Twins envelope') : envelope'.txId = envelope.txId := by
  obtain ⟨header, call, result, endorsements, endorsements', hheader, hpayload, hpayload',
    hperm⟩ := h
  rw [txId_of_payload hheader hpayload, txId_of_payload hheader hpayload',
    length_transactionOf hperm]

theorem reads (h : envelope.Twins envelope') (hlength : envelope.payload.length < 2 ^ 32) :
    ∃ header call result endorsements endorsements',
      envelope.Reads header call result endorsements ∧
      envelope'.Reads header call result endorsements' ∧ endorsements.Perm endorsements' := by
  have hlength' : envelope'.payload.length < 2 ^ 32 := h.length_eq ▸ hlength
  obtain ⟨header, call, result, endorsements, endorsements', -, hpayload, hpayload', hperm⟩ := h
  exact ⟨header, _, result, endorsements, endorsements',
    reads_of_transactionBytes hpayload hlength, reads_of_transactionBytes hpayload' hlength', hperm⟩

end Envelope.Twins

/-! ## Assembly -/

variable {proposal : Proposal} {signer : Signer} {responses responses' : List ProposalResponse}

theorem requireSuccess_error {e : ClientError} (h : requireSuccess responses = .error e) :
    ∃ status message, e = .endorsementFailed status message := by
  rw [requireSuccess] at h
  split at h
  · cases h
    exact ⟨_, _, rfl⟩
  · cases h

theorem requireSuccess_perm (h : responses.Perm responses') :
    SameEnd (fun _ _ => True) (requireSuccess responses) (requireSuccess responses') := by
  have hiff : requireSuccess responses = .ok () ↔ requireSuccess responses' = .ok () := by
    simp only [requireSuccess_ok_iff, h.mem_iff]
  cases hfirst : requireSuccess responses with
  | ok =>
    rw [hiff.1 hfirst]
    exact .ok trivial
  | error e =>
    cases hsecond : requireSuccess responses' with
    | ok => cases hfirst.symm.trans (hiff.2 hsecond)
    | error e' =>
      obtain ⟨status, message, rfl⟩ := requireSuccess_error hfirst
      obtain ⟨status', message', rfl⟩ := requireSuccess_error hsecond
      exact .error rfl

theorem any_payload_ne_iff {first : ProposalResponse} {rest : List ProposalResponse} :
    ((first :: rest).any fun r => r.payload ≠ first.payload) = true ↔
      ∃ r ∈ first :: rest, ∃ r' ∈ first :: rest, r.payload ≠ r'.payload := by
  simp only [List.any_eq_true, decide_eq_true_eq]
  constructor
  · rintro ⟨r, hr, hne⟩
    exact ⟨r, hr, first, List.mem_cons_self, hne⟩
  · rintro ⟨r, hr, r', hr', hne⟩
    by_cases heq : r.payload = first.payload
    · exact ⟨r', hr', fun heq' => hne (heq.trans heq'.symm)⟩
    · exact ⟨r, hr, heq⟩

/-- Whichever response comes first, some other one differs from it if any two differ. -/
theorem any_payload_ne_perm {first first' : ProposalResponse} {rest rest' : List ProposalResponse}
    (h : (first :: rest).Perm (first' :: rest')) :
    ((first :: rest).any fun r => r.payload ≠ first.payload) =
      (first' :: rest').any fun r => r.payload ≠ first'.payload := by
  rw [Bool.eq_iff_iff, any_payload_ne_iff, any_payload_ne_iff]
  simp only [h.mem_iff]

/-- Responses in another order make a transaction exactly if they make one in this order; and
otherwise they fail in the same way. -/
theorem assembleTransaction_perm (proposal : Proposal) (hsigner : signer.IgnoresOrder)
    (h : responses.Perm responses') :
    SameEnd Envelope.Twins (assembleTransaction proposal signer responses)
      (assembleTransaction proposal signer responses') := by
  cases responses with
  | nil =>
    cases h.nil_eq
    exact .error rfl
  | cons first rest =>
    obtain ⟨first', rest', rfl⟩ : ∃ first' rest', responses' = first' :: rest' :=
      List.exists_cons_of_ne_nil fun hnil => by
        rw [hnil] at h
        cases h.eq_nil
    rw [assembleTransaction_cons, assembleTransaction_cons]
    refine .bind_same fun header hheader => .bind_same fun signatureHeader _ => ?_
    split
    · exact .error rfl
    refine .bind (requireSuccess_perm h) fun _ _ _ => ?_
    rw [any_payload_ne_perm h]
    split
    · exact .error rfl
    rename_i hagree
    have hfits : (schema Header).Fits (pack header) :=
      (Schema.decode_canonical rfl (decode_of_fromWire (fromWire_of_decodeMessage hheader))).1
    have hsame : first.payload = first'.payload := by
      by_contra hne
      exact hagree (List.any_eq_true.2
        ⟨first, h.mem_iff.1 List.mem_cons_self, decide_eq_true hne⟩)
    have hperm := h.filterMap (·.endorsement)
    refine .bind_same fun call _ => ?_
    rw [transactionPayload, transactionPayload, hsame]
    refine .bind (hsigner header call first'.payload _ _ hperm) fun _ _ _ => .ok ?_
    exact ⟨header, call, first'.payload, _, _, hfits, rfl, rfl, hperm⟩

/-! ## Invocations -/

/-- What an invocation does with the responses. -/
def settle (signer : Signer) (orderer : Orderer) (milliseconds : Nat) (built : BuiltProposal)
    (responses : List ProposalResponse) : Client TxResponse :=
  match responses.find? fun r => errorThreshold ≤ r.response.status with
  | some rejected => return ⟨built.txId, rejected.response⟩
  | none => do
    let envelope ← assembleTransaction built.proposal signer responses
    broadcastEnvelope orderer envelope milliseconds
    return ⟨built.txId, ← firstResponse responses⟩

/-- An invocation that does not wait for commit settles what it has collected. -/
theorem invoke_eq (signer : Signer) (endpoints : Endpoints) (channelId : String)
    (request : Request) :
    invoke signer endpoints channelId request none =
      (liftM (buildProposal signer channelId request) : Client BuiltProposal) >>= fun built =>
      (liftM (signProposal built.proposal signer) : Client SignedProposal) >>= fun signed =>
      collectEndorsements signed endpoints.endorsers endpoints.endorseMs >>= fun responses =>
      settle signer endpoints.orderer endpoints.broadcastMs built responses := by
  rw [invoke, endorse, Client.bind_assoc]
  refine congrArg _ (funext fun built => ?_)
  rw [Client.bind_assoc]
  refine congrArg _ (funext fun signed => ?_)
  rw [Client.bind_assoc]
  refine congrArg _ (funext fun responses => ?_)
  rw [settle]
  cases responses with
  | nil => rfl
  | cons first rest =>
    change (match (first :: rest).find? fun r => errorThreshold ≤ r.response.status with
      | some rejected => (pure ⟨built.txId, rejected.response⟩ : Client TxResponse)
      | none => submitEndorsed signer endpoints channelId
          ⟨built.txId, built.proposal, first :: rest⟩ none >>= fun _ => _) = _
    cases (first :: rest).find? fun r => errorThreshold ≤ r.response.status with
    | some rejected => rfl
    | none =>
      dsimp only
      rw [submitEndorsed, Client.bind_assoc]
      refine congrArg _ (funext fun envelope => ?_)
      change (broadcastEnvelope endpoints.orderer envelope endpoints.broadcastMs >>= fun _ =>
        pure ()) >>= _ = _
      rw [Client.bind_assoc]
      rfl

theorem firstResponse_of_assembled {envelope : Envelope}
    (h : assembleTransaction proposal signer responses = .ok envelope) :
    ∃ response, firstResponse responses = .ok response ∧ isSuccess response.status = true := by
  obtain ⟨first, rest, -, -, -, rfl, -, -, -, hsuccess, -⟩ := assembleTransaction_ok_iff.1 h
  exact ⟨first.response, rfl, hsuccess first List.mem_cons_self⟩

/-- Two returns for one transaction, both of a success or both of a rejection. -/
def TxResponse.SameKind (tx tx' : TxResponse) : Prop :=
  tx.txId = tx'.txId ∧
    ((isSuccess tx.response.status = true ∧ isSuccess tx'.response.status = true) ∨
      (errorThreshold ≤ tx.response.status ∧ errorThreshold ≤ tx'.response.status))

/-- Two runs that go on from states with certain calls: they end alike, and they send nothing
more, or an envelope each. -/
structure EndAlike (before before' : List Asked) (run run' : Run TxResponse) : Prop where
  result : Option.Rel (SameEnd TxResponse.SameKind) run.result? run'.result?
  sends : ∃ sent sent', envelopesIn run.progress.asked = envelopesIn before ++ sent ∧
    envelopesIn run'.progress.asked = envelopesIn before' ++ sent' ∧ sent.length ≤ 1 ∧
    List.Forall₂ Envelope.Twins sent sent'

theorem EndAlike.of_unsent {before before' : List Asked} {r r' : Except ClientError TxResponse}
    {p p' : Progress} (hasked : p.asked = before) (hasked' : p'.asked = before')
    (h : SameEnd TxResponse.SameKind r r') : EndAlike before before' (.done r p) (.done r' p') := by
  refine ⟨.some h, [], [], ?_, ?_, Nat.zero_le _, .nil⟩
  · rw [List.append_nil, ← hasked]
    rfl
  · rw [List.append_nil, ← hasked']
    rfl

variable {built : BuiltProposal} {orderer : Orderer} {milliseconds : Nat} {p p' q q' : Progress}

/-- Twin envelopes are broadcast alike. -/
theorem broadcast_twins {envelope envelope' : Envelope} {s s' : Nat}
    (h : envelope.Twins envelope') (hstep : q.InStep s s' q') {tx tx' : TxResponse}
    (htx : tx.SameKind tx') :
    EndAlike q.asked q'.asked
      ((broadcastEnvelope orderer envelope milliseconds >>= fun _ => pure tx) q)
      ((broadcastEnvelope orderer envelope' milliseconds >>= fun _ => pure tx') q') := by
  constructor
  · have hrun := broadcastEnvelope_inStep orderer h.txId_eq milliseconds hstep
    rw [Client.bind_pure_apply, Client.bind_pure_apply]
    generalize broadcastEnvelope orderer envelope milliseconds q = run at hrun ⊢
    generalize broadcastEnvelope orderer envelope' milliseconds q' = run' at hrun ⊢
    cases hrun with
    | @done r _ _ _ =>
      cases r with
      | ok _ => exact .some (.ok htx)
      | error e => exact .some (.error rfl)
    | stopped _ => exact .none
  · rw [Client.bind_asked_eq _ (fun _ _ => rfl), Client.bind_asked_eq _ (fun _ _ => rfl)]
    by_cases hopens : orderer.Opens q
    · refine ⟨[envelope], [envelope'], envelopesIn_of_opens _ _ hopens,
        envelopesIn_of_opens _ _ ((hstep.opens_iff orderer).1 hopens), le_rfl, .cons h .nil⟩
    · refine ⟨[], [], ?_, ?_, Nat.zero_le _, .nil⟩
      · rw [List.append_nil, envelopesIn_of_not_opens _ _ hopens]
      · rw [List.append_nil, envelopesIn_of_not_opens _ _ (mt (hstep.opens_iff orderer).2 hopens)]

/-- Responses in another order, at another time, are settled alike. -/
theorem settle_perm (hsigner : signer.IgnoresOrder) (h : responses.Perm responses') {s s' : Nat}
    (hstep : q.InStep s s' q') :
    EndAlike q.asked q'.asked (settle signer orderer milliseconds built responses q)
      (settle signer orderer milliseconds built responses' q') := by
  rw [settle, settle]
  cases hfind : responses.find? fun r => errorThreshold ≤ r.response.status with
  | some rejected =>
    have hstatus := List.find?_some hfind
    cases hfind' : responses'.find? fun r => errorThreshold ≤ r.response.status with
    | some rejected' =>
      have hstatus' := List.find?_some hfind'
      exact .of_unsent rfl rfl
        (.ok ⟨rfl, .inr ⟨of_decide_eq_true hstatus, of_decide_eq_true hstatus'⟩⟩)
    | none =>
      have hpasses := Submission.find?_rejected_eq_none_iff.1 hfind'
      have hmem := h.mem_iff.1 (List.mem_of_find?_eq_some hfind)
      exact absurd (of_decide_eq_true hstatus) (hpasses rejected hmem)
  | none =>
    have hfind' := hfind
    rw [Submission.find?_rejected_eq_none_iff] at hfind'
    simp only [h.mem_iff] at hfind'
    rw [← Submission.find?_rejected_eq_none_iff] at hfind'
    rw [hfind']
    dsimp only
    have hend := assembleTransaction_perm built.proposal hsigner h
    generalize hx : assembleTransaction built.proposal signer responses = x at hend
    generalize hx' : assembleTransaction built.proposal signer responses' = x' at hend
    cases hend with
    | error he => exact .of_unsent rfl rfl (.error he)
    | ok htwins =>
      obtain ⟨response, hfirst, hsuccess⟩ := firstResponse_of_assembled hx
      obtain ⟨response', hfirst', hsuccess'⟩ := firstResponse_of_assembled hx'
      rw [hfirst, hfirst']
      exact broadcast_twins htwins hstep ⟨rfl, .inl ⟨hsuccess, hsuccess'⟩⟩

/-! ## Answers in another order -/

/-- The peers give the same answers, each of them within so many milliseconds, but not each of them
after the same time. -/
def SameAnswers (milliseconds : Nat) (replies replies' : List (Reply ProposalResponse)) : Prop :=
  List.Forall₂ (fun r r' => r.delay < milliseconds ∧ r'.delay < milliseconds ∧
    ∃ a, r.outcome = .answered a ∧ r'.outcome = .answered a) replies replies'

namespace SameAnswers

variable {replies replies' : List (Reply ProposalResponse)}

theorem symm (h : SameAnswers milliseconds replies replies') :
    SameAnswers milliseconds replies' replies :=
  List.Forall₂.flip (h.imp fun _ _ ⟨hr, hr', a, ha, ha'⟩ => ⟨hr', hr, a, ha', ha⟩)

theorem filterMap_eq (h : SameAnswers milliseconds replies replies') :
    replies.filterMap Reply.answer? = replies'.filterMap Reply.answer? := by
  induction h with
  | nil => rfl
  | cons hhead _ ih =>
    obtain ⟨-, -, a, ha, ha'⟩ := hhead
    rw [List.filterMap_cons, List.filterMap_cons, Reply.answer?_eq_some.2 ha,
      Reply.answer?_eq_some.2 ha', ih]

theorem prompt (h : SameAnswers milliseconds replies replies') :
    ∀ r ∈ replies, r.delay < milliseconds ∧ ∃ a, r.outcome = .answered a := by
  induction h with
  | nil => exact fun r hr => absurd hr List.not_mem_nil
  | cons hhead _ ih =>
    obtain ⟨hdelay, -, a, ha, -⟩ := hhead
    exact List.forall_mem_cons.2 ⟨⟨hdelay, a, ha⟩, ih⟩

end SameAnswers

/-- Where all peers answer in time, their answers are collected, and the client is left as it was,
up to the time and the calls of the peers. -/
theorem exists_collected (signed : SignedProposal) {peers : List Endorser}
    (hlimit : p.limit = none)
    (h : ∀ r ∈ nextReplies peers p, r.delay < milliseconds ∧ ∃ a, r.outcome = .answered a) :
    ∃ responses q, collectEndorsements signed peers milliseconds p = .done (.ok responses) q ∧
      responses.Perm ((nextReplies peers p).filterMap Reply.answer?) ∧
      q.headers = p.headers ∧ p.Keeps .endorser q ∧ q.lastTx = p.lastTx ∧
      envelopesIn q.asked = envelopesIn p.asked := by
  have hanswered : ∀ r ∈ nextReplies peers p, ∃ t, p.clock ≤ t ∧
      t < p.before (p.clock + milliseconds) ∧ r.AnsweredAt p.clock t := by
    intro r hr
    obtain ⟨hdelay, hanswer⟩ := h r hr
    refine ⟨p.clock + r.delay, Nat.le_add_right _ _, ?_, rfl, hanswer⟩
    rw [show p.before (p.clock + milliseconds) = _ from Progress.reaches_of_limit_none hlimit _]
    omega
  obtain ⟨instant, hall⟩ := Task.exists_allBy hanswered
  obtain ⟨responses, q, hrun, -⟩ : ∃ responses q,
      collectEndorsements signed peers milliseconds p = .done (.ok responses) q ∧
        q.clock = instant := exists_collectEndorsements hall
  have hcollected := collectEndorsements_collected hrun
  refine ⟨responses, q, hrun, hcollected.perm, hcollected.headers, hcollected.keeps, ?_, ?_⟩
  · obtain ⟨_, -, -, rfl⟩ := Client.awaitFan_done_ok.1 hrun
    rw [Client.fanned]
    split <;> rfl
  · obtain ⟨proposals, hasked, hmem⟩ := hcollected.asked
    have hnone : ∀ a ∈ proposals, a.call.envelope? = none := by
      intro a ha
      obtain ⟨e, -, rfl⟩ := (hmem a).1 ha
      rfl
    rw [hasked, envelopesIn_append, envelopesIn_eq_nil hnone, List.append_nil]

/-- The same answers to a proposal, in another order, are settled alike. -/
theorem collected_endAlike {signed : SignedProposal} {peers peers' : List Endorser}
    {endorseMs : Nat} (hsigner : signer.IgnoresOrder) (hlimit : p.limit = none)
    (h : SameAnswers endorseMs (nextReplies peers p) (nextReplies peers' p)) :
    EndAlike p.asked p.asked
      ((collectEndorsements signed peers endorseMs >>=
        settle signer orderer milliseconds built) p)
      ((collectEndorsements signed peers' endorseMs >>=
        settle signer orderer milliseconds built) p) := by
  obtain ⟨responses, q, hrun, hperm, hheaders, hkeeps, hlastTx, hsent⟩ :=
    exists_collected signed hlimit h.prompt
  obtain ⟨responses', q', hrun', hperm', hheaders', hkeeps', hlastTx', hsent'⟩ :=
    exists_collected signed hlimit h.symm.prompt
  have hresponses : responses.Perm responses' :=
    (hperm.trans (.of_eq h.filterMap_eq)).trans hperm'.symm
  have hstep : q.InStep q.clock q'.clock q' := by
    refine .of_limit_none (hkeeps.limit.trans hlimit) (hkeeps'.limit.trans hlimit)
      (hheaders'.trans hheaders.symm) (fun node service hservice => ?_)
      (hlastTx'.trans hlastTx.symm)
    rw [hkeeps.calls node service hservice, hkeeps'.calls node service hservice]
  rw [Client.bind_of_ok hrun, Client.bind_of_ok hrun']
  obtain ⟨hresult, hsends⟩ := settle_perm hsigner hresponses hstep
  rw [hsent, hsent'] at hsends
  exact ⟨hresult, hsends⟩

/-- Two invocations start from the same state, and the endorsers give the same answers to both, all
in time, but at other instants and so in another order.  Then both succeed, both are rejected by an
endorser, both fail with the same kind of error, or both never end; they name the same transaction;
and they send an envelope each or none, in which the same header, call and result are read, and the
same endorsements in some order. -/
theorem invoke_of_same_answers (signer : Signer) (endpoints : Endpoints) (channelId : String)
    (request : Request) (p : Progress) (endorsers' : List Endorser) (hsigner : signer.IgnoresOrder)
    (hlimit : p.limit = none)
    (hanswers : SameAnswers endpoints.endorseMs (nextReplies endpoints.endorsers p)
      (nextReplies endorsers' p)) :
    let run := invoke signer endpoints channelId request none p
    let run' := invoke signer { endpoints with endorsers := endorsers' } channelId request none p
    Option.Rel (SameEnd TxResponse.SameKind) run.result? run'.result? ∧
      ∃ sent sent', envelopesIn run.progress.asked = envelopesIn p.asked ++ sent ∧
        envelopesIn run'.progress.asked = envelopesIn p.asked ++ sent' ∧ sent.length ≤ 1 ∧
        List.Forall₂ (fun envelope envelope' => envelope.payload.length < 2 ^ 32 →
          ∃ header call result endorsements endorsements',
            envelope.Reads header call result endorsements ∧
            envelope'.Reads header call result endorsements' ∧
            endorsements.Perm endorsements') sent sent' := by
  suffices h : EndAlike p.asked p.asked (invoke signer endpoints channelId request none p)
      (invoke signer { endpoints with endorsers := endorsers' } channelId request none p) by
    obtain ⟨sent, sent', hsent, hsent', hlength, htwins⟩ := h.sends
    exact ⟨h.result, sent, sent', hsent, hsent', hlength,
      htwins.imp fun _ _ htwin hshort => htwin.reads hshort⟩
  rw [invoke_eq, invoke_eq]
  cases hbuilt : buildProposal signer channelId request p.headers with
  | error e headers =>
    have hissue := Client.issue_done_error.2 ⟨headers, hbuilt, rfl⟩
    rw [Client.bind_of_error hissue, Client.bind_of_error hissue]
    exact .of_unsent rfl rfl (.error rfl)
  | ok built headers =>
    have hissue := Client.issue_done_ok.2 ⟨headers, hbuilt, rfl⟩
    rw [Client.bind_of_ok hissue, Client.bind_of_ok hissue]
    cases signProposal built.proposal signer with
    | error e => exact .of_unsent rfl rfl (.error rfl)
    | ok signed =>
      exact collected_endAlike (p := { p with headers := headers }) hsigner hlimit hanswers

/-! ### Two peers -/

/-- A peer that accepts every request after so many milliseconds. -/
def pacedEndorser (index : Nat) (name : UInt8) (delay : Nat) : Endorser where
  id := ⟨.endorser, index, "peer:7051"⟩
  reply := fun _ => {
    delay := delay
    outcome := .answered ⟨1, ⟨200, "done", []⟩, [7], some ⟨[name], []⟩⟩ }

/-- Steady nodes, and two peers with different delays. -/
def pacedEndpoints (delay delay' : Nat) : Endpoints :=
  { steadyEndpoints with endorsers := [pacedEndorser 0 1 delay, pacedEndorser 1 2 delay'] }

/-- Of two peers, either may be the first; the envelopes differ, but not in what they say. -/
theorem invoke_of_same_answers_paced :
    let run := invoke steadySigner (pacedEndpoints 1 2) "ch" steadyRequest none beginning
    let run' := invoke steadySigner (pacedEndpoints 2 1) "ch" steadyRequest none beginning
    steadySigner.IgnoresOrder ∧
      SameAnswers (pacedEndpoints 1 2).endorseMs
        (nextReplies (pacedEndpoints 1 2).endorsers beginning)
        (nextReplies (pacedEndpoints 2 1).endorsers beginning) ∧
      ∃ envelope envelope' header call result endorsements endorsements',
        envelopesIn run.progress.asked = [envelope] ∧
        envelopesIn run'.progress.asked = [envelope'] ∧ envelope ≠ envelope' ∧
        envelope.Reads header call result endorsements ∧
        envelope'.Reads header call result endorsements' ∧
        endorsements.Perm endorsements' := by
  intro run run'
  have hsigner : steadySigner.IgnoresOrder := fun _ _ _ _ _ _ => .ok trivial
  have hanswers : SameAnswers (pacedEndpoints 1 2).endorseMs
      (nextReplies (pacedEndpoints 1 2).endorsers beginning)
      (nextReplies (pacedEndpoints 2 1).endorsers beginning) :=
    .cons ⟨by decide, by decide, _, rfl, rfl⟩ (.cons ⟨by decide, by decide, _, rfl, rfl⟩ .nil)
  have hone : (envelopesIn run.progress.asked).map (decide <| ·.payload.length < 2 ^ 32) =
      [true] := by
    decide +kernel
  have hne : envelopesIn run.progress.asked ≠ envelopesIn run'.progress.asked := by
    decide +kernel
  obtain ⟨-, sent, sent', hsent, hsent', -, htwins⟩ := invoke_of_same_answers steadySigner
    (pacedEndpoints 1 2) "ch" steadyRequest beginning (pacedEndpoints 2 1).endorsers hsigner rfl
    hanswers
  change envelopesIn run.progress.asked = sent at hsent
  change envelopesIn run'.progress.asked = sent' at hsent'
  obtain ⟨envelope, rfl, hshort⟩ := List.map_eq_singleton_iff.1 (hsent ▸ hone)
  obtain ⟨envelope', none, htwin, hnone, rfl⟩ := List.forall₂_cons_left_iff.1 htwins
  cases hnone
  obtain ⟨header, call, result, endorsements, endorsements', hreads, hreads', hperm⟩ :=
    htwin (of_decide_eq_true hshort)
  refine ⟨hsigner, hanswers, envelope, envelope', header, call, result, endorsements, endorsements',
    hsent, hsent', ?_, hreads, hreads', hperm⟩
  rintro rfl
  exact hne (hsent.trans hsent'.symm)

end LedgerClient
