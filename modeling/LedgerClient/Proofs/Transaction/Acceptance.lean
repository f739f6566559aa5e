import LedgerClient.Proofs.Transaction.Arrival
/-!
# Which responses make a transaction

A transaction is assembled after a row of checks, each of which has an error of its own.

* `AssemblyCheck.Passes`, `AssemblyCheck.Reports`: what each check asks for, and the error that it
  reports.
* `passes_of_assembled`, `assembled_of_passes`: there is an envelope exactly if all checks pass.
* `reports_of_error`: an error is that of the first check that does not pass.
* `assembleTransaction_exact`: both together, and what the envelope says.
-/

namespace LedgerClient

/-- What is checked before a proposal and its responses make a transaction, in this order. -/
inductive AssemblyCheck where
  | answered
  | header
  | signatureHeader
  | creator
  | statuses
  | agreement
  | call
  | signing

/-- The response reports a successful simulation. -/
def ProposalResponse.Succeeds (r : ProposalResponse) : Prop :=
  200 ≤ r.response.status ∧ r.response.status < 400

theorem ProposalResponse.succeeds_iff {r : ProposalResponse} :
    r.Succeeds ↔ isSuccess r.response.status = true := by
  simp only [Succeeds, isSuccess, Bool.and_eq_true, decide_eq_true_eq]

/-- The headers in the header of a proposal. -/
def Proposal.ReadsHeaders (proposal : Proposal) (header : Header)
    (signatureHeader : SignatureHeader) : Prop :=
  decodeMessage Header proposal.header = .ok header ∧
    decodeMessage SignatureHeader header.signatureHeader = .ok signatureHeader

theorem Proposal.ReadsHeaders.unique {proposal : Proposal} {header header' : Header}
    {signatureHeader signatureHeader' : SignatureHeader}
    (h : proposal.ReadsHeaders header signatureHeader)
    (h' : proposal.ReadsHeaders header' signatureHeader') :
    header' = header ∧ signatureHeader' = signatureHeader := by
  cases h.1.symm.trans h'.1
  cases h.2.symm.trans h'.2
  exact ⟨rfl, rfl⟩

/-- The bytes that are signed for a proposal and its responses: the header of the proposal over the
call, the result of the first response and the endorsements of all of them. -/
def Proposal.Merges (proposal : Proposal) (responses : List ProposalResponse) (bytes : Bytes) :
    Prop :=
  ∃ header call first rest, decodeMessage Header proposal.header = .ok header ∧
    decodeMessage ChaincodeProposalPayload proposal.payload = .ok call ∧
    responses = first :: rest ∧
    bytes = transactionBytes header call first.payload (responses.filterMap (·.endorsement))

theorem Proposal.Merges.unique {proposal : Proposal} {responses : List ProposalResponse}
    {bytes bytes' : Bytes} (h : proposal.Merges responses bytes)
    (h' : proposal.Merges responses bytes') : bytes' = bytes := by
  obtain ⟨header, call, first, rest, hheader, hcall, rfl, rfl⟩ := h
  obtain ⟨header', call', first', rest', hheader', hcall', heq, rfl⟩ := h'
  cases heq
  cases hheader.symm.trans hheader'
  cases hcall.symm.trans hcall'
  rfl

namespace AssemblyCheck

variable (proposal : Proposal) (signer : Signer) (responses : List ProposalResponse)

def Passes : AssemblyCheck → Prop
  | answered => responses ≠ []
  | header => ∃ header, decodeMessage Header proposal.header = .ok header
  | signatureHeader => ∃ header signatureHeader, proposal.ReadsHeaders header signatureHeader
  | creator => ∃ header signatureHeader, proposal.ReadsHeaders header signatureHeader ∧
      signer.identity = signatureHeader.creator
  | statuses => ∀ r ∈ responses, r.Succeeds
  | agreement => ∀ r ∈ responses, ∀ r' ∈ responses, r.payload = r'.payload
  | call => ∃ call, decodeMessage ChaincodeProposalPayload proposal.payload = .ok call
  | signing => ∃ bytes signature, proposal.Merges responses bytes ∧
      signer.sign bytes = .ok signature

/-- The error that a check reports where it does not pass. -/
def Reports (e : ClientError) : AssemblyCheck → Prop
  | answered => e = .noResponses
  | header => decodeMessage Header proposal.header = .error e
  | signatureHeader => ∃ header, decodeMessage Header proposal.header = .ok header ∧
      decodeMessage SignatureHeader header.signatureHeader = .error e
  | creator => e = .creatorMismatch
  | statuses => ∃ before r after, responses = before ++ r :: after ∧
      (∀ b ∈ before, b.Succeeds) ∧ ¬r.Succeeds ∧
      e = .endorsementFailed r.response.status r.response.message
  | agreement => e = .endorsementMismatch
  | call => decodeMessage ChaincodeProposalPayload proposal.payload = .error e
  | signing => ∃ bytes, proposal.Merges responses bytes ∧ signer.sign bytes = .error e

/-- All checks before this one pass. -/
def PassesBefore (check : AssemblyCheck) : Prop :=
  ∀ earlier : AssemblyCheck, earlier.ctorIdx < check.ctorIdx →
    earlier.Passes proposal signer responses

/-- The check is the first one that does not pass. -/
def FailsFirst (check : AssemblyCheck) : Prop :=
  check.PassesBefore proposal signer responses ∧ ¬check.Passes proposal signer responses

theorem eq_of_ctorIdx_eq {check check' : AssemblyCheck} (h : check.ctorIdx = check'.ctorIdx) :
    check = check' := by
  cases check <;> cases check' <;> first | rfl | cases h

variable {proposal signer responses}

/-- At most one check is the first that does not pass. -/
theorem FailsFirst.unique {check check' : AssemblyCheck}
    (h : check.FailsFirst proposal signer responses)
    (h' : check'.FailsFirst proposal signer responses) : check = check' := by
  rcases Nat.lt_trichotomy check.ctorIdx check'.ctorIdx with hlt | heq | hlt
  · exact absurd (h'.1 check hlt) h.2
  · exact eq_of_ctorIdx_eq heq
  · exact absurd (h.1 check' hlt) h'.2

theorem PassesBefore.next {check next : AssemblyCheck}
    (h : check.PassesBefore proposal signer responses)
    (hcheck : check.Passes proposal signer responses) (hnext : next.ctorIdx = check.ctorIdx + 1) :
    next.PassesBefore proposal signer responses := by
  intro earlier hlt
  rw [hnext] at hlt
  rcases Nat.lt_succ_iff_lt_or_eq.1 hlt with hlt | heq
  · exact h earlier hlt
  · rw [eq_of_ctorIdx_eq heq]
    exact hcheck

end AssemblyCheck

variable {proposal : Proposal} {signer : Signer} {responses : List ProposalResponse}
  {envelope : Envelope} {e : ClientError}

/-! ## Envelopes -/

theorem passes_of_assembled (h : assembleTransaction proposal signer responses = .ok envelope)
    (check : AssemblyCheck) : check.Passes proposal signer responses := by
  obtain ⟨first, rest, header, signatureHeader, call, hresponses, hheader, hsignature, hcreator,
    hsuccess, hagree, hcall, hbytes, hsign⟩ := assembleTransaction_ok_iff.1 h
  cases check with
  | answered =>
    rw [hresponses]
    exact List.cons_ne_nil _ _
  | header => exact ⟨header, hheader⟩
  | signatureHeader => exact ⟨header, signatureHeader, hheader, hsignature⟩
  | creator => exact ⟨header, signatureHeader, ⟨hheader, hsignature⟩, hcreator⟩
  | statuses => exact fun r hr => ProposalResponse.succeeds_iff.2 (hsuccess r hr)
  | agreement => exact fun r hr r' hr' => (hagree r hr).trans (hagree r' hr').symm
  | call => exact ⟨call, hcall⟩
  | signing =>
    exact ⟨envelope.payload, envelope.signature,
      ⟨header, call, first, rest, hheader, hcall, hresponses, hbytes⟩, hsign⟩

theorem assembled_of_passes
    (h : ∀ check : AssemblyCheck, check.Passes proposal signer responses) :
    ∃ envelope, assembleTransaction proposal signer responses = .ok envelope := by
  obtain ⟨header, signatureHeader, ⟨hheader, hsignature⟩, hcreator⟩ := h .creator
  obtain ⟨_, signature, ⟨header', call, first, rest, hheader', hcall, hresponses, rfl⟩, hsign⟩ :=
    h .signing
  cases hheader.symm.trans hheader'
  refine ⟨⟨_, signature⟩, assembleTransaction_ok_iff.2 ⟨first, rest, header, signatureHeader, call,
    hresponses, hheader, hsignature, hcreator, fun r hr => ?_, fun r hr => ?_, hcall, rfl, hsign⟩⟩
  · exact ProposalResponse.succeeds_iff.1 (h .statuses r hr)
  · exact h .agreement r hr first (hresponses ▸ List.mem_cons_self)

/-- What the envelope of a proposal and its responses says. -/
theorem assembled_says (h : assembleTransaction proposal signer responses = .ok envelope) :
    ∃ header call result, decodeMessage Header proposal.header = .ok header ∧
      decodeMessage ChaincodeProposalPayload proposal.payload = .ok call ∧
      (∀ r ∈ responses, r.payload = result) ∧ toWire header = proposal.header ∧
      signer.sign envelope.payload = .ok envelope.signature ∧
      ((toWire (transactionOf header.signatureHeader call result
          (responses.filterMap (·.endorsement)))).length < 2 ^ 32 →
        envelope.Reads header { call with transientMap := .empty } result
          (responses.filterMap (·.endorsement))) := by
  obtain ⟨first, rest, header, signatureHeader, call, hresponses, hheader, hsignature, hcreator,
    hsuccess, hagree, hcall, hbytes, hsign⟩ := assembleTransaction_ok_iff.1 h
  have hread := fromWire_of_decodeMessage hheader
  have hfits : (schema Header).Fits (pack header) :=
    (Schema.decode_canonical rfl (decode_of_fromWire hread)).1
  exact ⟨header, call, first.payload, hheader, hcall, hagree, toWire_of_dictFree rfl rfl hread,
    hsign, fun hdata => reads_of_fits hfits hdata hbytes⟩

/-! ## Errors -/

theorem requireSuccess_error_iff :
    requireSuccess responses = .error e ↔
      ∃ before r after, responses = before ++ r :: after ∧ (∀ b ∈ before, b.Succeeds) ∧
        ¬r.Succeeds ∧ e = .endorsementFailed r.response.status r.response.message := by
  rw [requireSuccess]
  constructor
  · intro h
    split at h
    · rename_i r hfind
      cases h
      obtain ⟨hr, before, after, hsplit, hbefore⟩ := List.find?_eq_some_iff_append.1 hfind
      refine ⟨before, r, after, hsplit, fun b hb => ?_, ?_, rfl⟩
      · exact ProposalResponse.succeeds_iff.2 (by simpa using hbefore b hb)
      · rw [ProposalResponse.succeeds_iff]
        simpa using hr
    · cases h
  · rintro ⟨before, r, after, rfl, hbefore, hr, rfl⟩
    have hfind : (before ++ r :: after).find? (fun r => !isSuccess r.response.status) = some r := by
      refine List.find?_eq_some_iff_append.2 ⟨?_, before, after, rfl, fun b hb => ?_⟩
      · simpa [ProposalResponse.succeeds_iff] using hr
      · simpa using ProposalResponse.succeeds_iff.1 (hbefore b hb)
    rw [hfind]

theorem not_exists_ok {α : Type} {x : Except ClientError α} (h : x = .error e) :
    ¬∃ a, x = .ok a := by
  rintro ⟨a, ha⟩
  cases h.symm.trans ha

/-- An error is that of the first check that does not pass.  The checks are gone through as they are
made: one that passes leads to the next. -/
theorem reports_of_error (h : assembleTransaction proposal signer responses = .error e) :
    ∃ check : AssemblyCheck, check.FailsFirst proposal signer responses ∧
      check.Reports proposal signer responses e := by
  have hanswered : AssemblyCheck.answered.PassesBefore proposal signer responses :=
    fun _ hlt => absurd hlt (Nat.not_lt_zero _)
  cases responses with
  | nil =>
    cases h
    exact ⟨.answered, ⟨hanswered, fun hne => hne rfl⟩, rfl⟩
  | cons first rest =>
    rw [assembleTransaction_cons] at h
    have hheader : AssemblyCheck.header.PassesBefore proposal signer (first :: rest) :=
      hanswered.next (List.cons_ne_nil _ _) rfl
    rcases except_bind_error.1 h with hfail | ⟨header, hread, h⟩
    · exact ⟨.header, ⟨hheader, not_exists_ok hfail⟩, hfail⟩
    have hsignature : AssemblyCheck.signatureHeader.PassesBefore proposal signer (first :: rest) :=
      hheader.next ⟨header, hread⟩ rfl
    rcases except_bind_error.1 h with hfail | ⟨signatureHeader, hread', h⟩
    · refine ⟨.signatureHeader, ⟨hsignature, ?_⟩, header, hread, hfail⟩
      rintro ⟨header', signatureHeader, hheader', hsignature'⟩
      cases hread.symm.trans hheader'
      cases hfail.symm.trans hsignature'
    have hreads : proposal.ReadsHeaders header signatureHeader := ⟨hread, hread'⟩
    have hcreator : AssemblyCheck.creator.PassesBefore proposal signer (first :: rest) :=
      hsignature.next ⟨header, signatureHeader, hreads⟩ rfl
    split at h
    · rename_i hne
      cases h
      refine ⟨.creator, ⟨hcreator, ?_⟩, rfl⟩
      rintro ⟨header', signatureHeader', hreads', heq⟩
      obtain ⟨rfl, rfl⟩ := hreads.unique hreads'
      exact hne heq
    rename_i heq
    have hstatuses : AssemblyCheck.statuses.PassesBefore proposal signer (first :: rest) :=
      hcreator.next ⟨header, signatureHeader, hreads, Decidable.not_not.1 heq⟩ rfl
    rcases except_bind_error.1 h with hfail | ⟨_, hsuccess, h⟩
    · obtain ⟨before, r, after, hsplit, hbefore, hr, rfl⟩ := requireSuccess_error_iff.1 hfail
      refine ⟨.statuses, ⟨hstatuses, fun hall => hr (hall r ?_)⟩,
        before, r, after, hsplit, hbefore, hr, rfl⟩
      rw [hsplit]
      exact List.mem_append_right _ List.mem_cons_self
    have hagreement : AssemblyCheck.agreement.PassesBefore proposal signer (first :: rest) :=
      hstatuses.next (fun r hr => ProposalResponse.succeeds_iff.2
        (requireSuccess_ok_iff.1 hsuccess r hr)) rfl
    split at h
    · rename_i hdiffer
      cases h
      obtain ⟨r, hr, r', hr', hne⟩ := any_payload_ne_iff.1 hdiffer
      exact ⟨.agreement, ⟨hagreement, fun hagree => hne (hagree r hr r' hr')⟩, rfl⟩
    rename_i hagree
    have hcall : AssemblyCheck.call.PassesBefore proposal signer (first :: rest) := by
      refine hagreement.next (fun r hr r' hr' => ?_) rfl
      by_contra hne
      exact hagree (any_payload_ne_iff.2 ⟨r, hr, r', hr', hne⟩)
    rcases except_bind_error.1 h with hfail | ⟨call, hread'', h⟩
    · exact ⟨.call, ⟨hcall, not_exists_ok hfail⟩, hfail⟩
    have hsigning : AssemblyCheck.signing.PassesBefore proposal signer (first :: rest) :=
      hcall.next ⟨call, hread''⟩ rfl
    rcases except_bind_error.1 h with hfail | ⟨signature, -, h⟩
    · have hmerges : proposal.Merges (first :: rest)
          (toWire (transactionPayload header call first (first :: rest))) :=
        ⟨header, call, first, rest, hread, hread'', rfl, rfl⟩
      refine ⟨.signing, ⟨hsigning, ?_⟩, _, hmerges, hfail⟩
      rintro ⟨bytes, signature, hmerges', hsign⟩
      rw [hmerges.unique hmerges', hfail] at hsign
      cases hsign
    · cases h

/-- A proposal and responses make an envelope exactly if all checks pass.  The envelope has the
header of the proposal, byte for byte, and is signed as it stands; where the length of the
transaction can be written, one action is read in it, with the signature header of the proposal, its
call without transient data, the result on which all responses agree and the endorsements that they
carry, in their order.  Without an envelope, the error is that of the first check that does not
pass. -/
theorem assembleTransaction_exact (proposal : Proposal) (signer : Signer)
    (responses : List ProposalResponse) :
    ((∃ envelope, assembleTransaction proposal signer responses = .ok envelope) ↔
      ∀ check : AssemblyCheck, check.Passes proposal signer responses) ∧
    (∀ envelope, assembleTransaction proposal signer responses = .ok envelope →
      ∃ header call result, decodeMessage Header proposal.header = .ok header ∧
        decodeMessage ChaincodeProposalPayload proposal.payload = .ok call ∧
        (∀ r ∈ responses, r.payload = result) ∧ toWire header = proposal.header ∧
        signer.sign envelope.payload = .ok envelope.signature ∧
        ((toWire (transactionOf header.signatureHeader call result
            (responses.filterMap (·.endorsement)))).length < 2 ^ 32 →
          envelope.Reads header { call with transientMap := .empty } result
            (responses.filterMap (·.endorsement)))) ∧
    ∀ e, assembleTransaction proposal signer responses = .error e →
      ∃ check : AssemblyCheck, check.FailsFirst proposal signer responses ∧
        check.Reports proposal signer responses e := by
  refine ⟨⟨?_, assembled_of_passes⟩, fun _ h => assembled_says h, fun _ h => reports_of_error h⟩
  rintro ⟨envelope, h⟩
  exact passes_of_assembled h

/-! ### Three peers -/

/-- A proposal with transient data. -/
def keyedProposal : Proposal where
  header := toWire (⟨[], toWire (⟨steadySigner.identity, [3]⟩ : SignatureHeader)⟩ : Header)
  payload := toWire (⟨[5], Dict.empty.insert "key" [9]⟩ : ChaincodeProposalPayload)

/-- The answer of a peer with a status. -/
def answerWith (status : Int32) (endorsement : Option Endorsement) : ProposalResponse :=
  ⟨1, ⟨status, "answer", []⟩, [7], endorsement⟩

/-- Of three peers that agree, two carry an endorsement, and both are in the transaction; where the
second and the third do not succeed, the error is that of the second. -/
theorem assembleTransaction_exact_threePeers :
    (∃ envelope header, assembleTransaction keyedProposal steadySigner
        [answerWith 200 (some ⟨[1], [1]⟩), answerWith 399 none,
          answerWith 200 (some ⟨[2], [2]⟩)] = .ok envelope ∧
      envelope.Reads header ⟨[5], .empty⟩ [7] [⟨[1], [1]⟩, ⟨[2], [2]⟩]) ∧
    assembleTransaction keyedProposal steadySigner
        [answerWith 200 none, answerWith 199 none, answerWith 500 none] =
      .error (.endorsementFailed 199 "answer") ∧
    ∃ check : AssemblyCheck, check.FailsFirst keyedProposal steadySigner
        [answerWith 200 none, answerWith 199 none, answerWith 500 none] ∧
      check.Reports keyedProposal steadySigner
        [answerWith 200 none, answerWith 199 none, answerWith 500 none]
        (.endorsementFailed 199 "answer") := by
  have herror : assembleTransaction keyedProposal steadySigner
      [answerWith 200 none, answerWith 199 none, answerWith 500 none] =
        .error (.endorsementFailed 199 "answer") := by
    decide +kernel
  refine ⟨?_, herror, (assembleTransaction_exact _ _ _).2.2 _ herror⟩
  obtain ⟨envelope, henvelope⟩ := exists_ok_of_isOk (x := assembleTransaction keyedProposal
    steadySigner [answerWith 200 (some ⟨[1], [1]⟩), answerWith 399 none,
      answerWith 200 (some ⟨[2], [2]⟩)]) (by decide +kernel)
  obtain ⟨header, call, result, hheader, hcall, hresult, -, -, hreads⟩ :=
    (assembleTransaction_exact _ _ _).2.1 envelope henvelope
  have hheader' : decodeMessage Header keyedProposal.header =
      .ok ⟨[], toWire (⟨steadySigner.identity, [3]⟩ : SignatureHeader)⟩ :=
    decodeMessage_of_length rfl rfl (by decide +kernel)
  have hcall' : decodeMessage ChaincodeProposalPayload keyedProposal.payload =
      .ok ⟨[5], Dict.empty.insert "key" [9]⟩ :=
    decodeMessage_of_length rfl rfl (by decide +kernel)
  cases hheader.symm.trans hheader'
  cases hcall.symm.trans hcall'
  cases hresult _ List.mem_cons_self
  exact ⟨envelope, _, henvelope, hreads (by decide +kernel)⟩

end LedgerClient
