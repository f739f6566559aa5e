import LedgerClient.Client.Contract
import LedgerClient.Proofs.Transaction.Acceptance
/-!
# Ordering later

An invocation can be ordered in one call, or it can be endorsed first and ordered by a second call
(`orderLater`).  The two ways tell rejections apart by different checks: `invoke` looks for a
status from a threshold on, and `submitEndorsed` for one that is no success.

* `endorse_sendOnly`: for endorsement it makes no difference whether the call is ordered later.
* `orderLater_of_accepted`: without a rejection the two runs are the same.
* `orderLater_of_rejected`, `invoke_of_rejected`: with one, both end where endorsement has ended.
* `orderLater_like_invoke`: all of this for every run.
-/

namespace LedgerClient

/-- Has an invocation endorsed, and then orders what was endorsed. -/
def orderLater (signer : Signer) (endpoints : Endpoints) (channelId : String)
    (invocation : Invocation) (wait : Option Nat) : Client String := do
  let endorsed ← endorse signer endpoints channelId (.sendOnly invocation)
  submitEndorsed signer endpoints channelId endorsed wait
  return endorsed.txId

/-- The first entry of a list that has a property. -/
def FirstWith {α : Type} (P : α → Prop) (a : α) (l : List α) : Prop :=
  ∃ before after, l = before ++ a :: after ∧ (∀ b ∈ before, ¬P b) ∧ P a

theorem FirstWith.mem {α : Type} {P : α → Prop} {a : α} {l : List α} (h : FirstWith P a l) :
    a ∈ l ∧ P a := by
  obtain ⟨before, after, rfl, -, ha⟩ := h
  exact ⟨List.mem_append_right _ List.mem_cons_self, ha⟩

theorem find?_eq_some_iff_firstWith {α : Type} {P : α → Prop} [DecidablePred P] {a : α}
    {l : List α} : (l.find? fun a => decide (P a)) = some a ↔ FirstWith P a l := by
  rw [List.find?_eq_some_iff_append, decide_eq_true_iff]
  constructor
  · rintro ⟨ha, before, after, hsplit, hbefore⟩
    exact ⟨before, after, hsplit, fun b hb => by simpa using hbefore b hb, ha⟩
  · rintro ⟨before, after, hsplit, hbefore, ha⟩
    exact ⟨ha, before, after, hsplit, fun b hb => by simpa using hbefore b hb⟩

theorem firstWith_map {α β : Type} {P : β → Prop} {f : α → β} {l : List α} {b : β} :
    FirstWith P b (l.map f) ↔ ∃ a, FirstWith (fun a => P (f a)) a l ∧ f a = b := by
  constructor
  · rintro ⟨before, after, hsplit, hbefore, hb⟩
    obtain ⟨l₁, l₂, rfl, rfl, hl₂⟩ := List.map_eq_append_iff.1 hsplit
    obtain ⟨a, l₃, rfl, rfl, rfl⟩ := List.map_eq_cons_iff.1 hl₂
    exact ⟨a, ⟨l₁, l₃, rfl, fun x hx => hbefore (f x) (List.mem_map_of_mem hx), hb⟩, rfl⟩
  · rintro ⟨a, ⟨before, after, rfl, hbefore, ha⟩, rfl⟩
    exact ⟨before.map f, after.map f, List.map_append, List.forall_mem_map.2 hbefore, ha⟩

/-- The status of the response is that of a rejection by the chaincode. -/
def ProposalResponse.Rejects (r : ProposalResponse) : Prop := errorThreshold ≤ r.response.status

instance (r : ProposalResponse) : Decidable r.Rejects :=
  inferInstanceAs (Decidable (errorThreshold ≤ r.response.status))

variable {signer : Signer} {endpoints : Endpoints} {channelId : String} {request : Request}
  {invocation : Invocation} {wait : Option Nat} {endorsed : EndorsedProposal} {p q : Progress}
  {r : ProposalResponse}

theorem find?_rejected_eq_some_iff {responses : List ProposalResponse} :
    (responses.find? fun r => errorThreshold ≤ r.response.status) = some r ↔
      FirstWith ProposalResponse.Rejects r responses :=
  find?_eq_some_iff_firstWith (P := ProposalResponse.Rejects)

theorem ProposalResponse.Rejects.not_succeeds (h : r.Rejects) : ¬r.Succeeds :=
  fun hr => Int32.not_lt.2 h hr.2

/-! ## Endorsement -/

/-- The peers are sent the same proposal, whether the call is ordered at once or later. -/
theorem endorse_sendOnly (signer : Signer) (endpoints : Endpoints) (channelId : String)
    (invocation : Invocation) :
    endorse signer endpoints channelId (.sendOnly invocation) =
      endorse signer endpoints channelId (.invoke invocation) := rfl

theorem responses_ne_nil_of_endorse
    (h : endorse signer endpoints channelId request p = .done (.ok endorsed) q) :
    endorsed.responses ≠ [] := by
  obtain ⟨_, _, _, -, -, -, hne, -⟩ := endorse_done_ok.1 h
  exact hne

/-- Endorsement sends one proposal to the endorsers, and asks nothing else. -/
theorem asked_of_endorse
    (h : endorse signer endpoints channelId request p = .done (.ok endorsed) q) :
    ∃ signed proposals, q.asked = p.asked ++ proposals ∧
      ∀ a ∈ proposals, ∃ e ∈ endpoints.endorsers, a = ⟨p.clock, e.id, .proposal signed⟩ := by
  obtain ⟨built, headers, signed, -, -, hcollect, -, -⟩ := endorse_done_ok.1 h
  obtain ⟨proposals, hasked, hmem⟩ := (collectEndorsements_collected hcollect).asked
  exact ⟨signed, proposals, hasked, fun a ha => (hmem a).1 ha⟩

/-- The headers of what was endorsed are read back, and name the signer. -/
theorem readsHeaders_of_endorse
    (h : endorse signer endpoints channelId request p = .done (.ok endorsed) q)
    (hlength : endorsed.proposal.header.length < 2 ^ 32) :
    ∃ header signatureHeader, endorsed.proposal.ReadsHeaders header signatureHeader ∧
      signer.identity = signatureHeader.creator := by
  obtain ⟨built, headers, signed, hbuilt, -, -, -, heq⟩ := endorse_done_ok.1 h
  rw [congrArg EndorsedProposal.proposal heq] at hlength ⊢
  obtain ⟨channel, spec, transient, nonce, -, -, -, rfl, -⟩ := buildProposal_ok_iff.1 hbuilt
  obtain ⟨hheader, -, hsignature⟩ := proposalFor_readsHeaders hlength
  exact ⟨_, _, ⟨hheader, hsignature⟩, rfl⟩

/-! ## Without a rejection -/

theorem orderLater_of_endorsed
    (h : endorse signer endpoints channelId (.sendOnly invocation) p = .done (.ok endorsed) q) :
    orderLater signer endpoints channelId invocation wait p =
      (submitEndorsed signer endpoints channelId endorsed wait q).map fun _ => endorsed.txId := by
  rw [orderLater, Client.bind_of_ok h]
  exact Client.bind_pure_apply _ _ q

theorem invoke_of_accepted
    (h : endorse signer endpoints channelId request p = .done (.ok endorsed) q)
    (haccepted : ∀ r ∈ endorsed.responses, ¬r.Rejects) :
    (invoke signer endpoints channelId request wait p).map (·.txId) =
      (submitEndorsed signer endpoints channelId endorsed wait q).map fun _ => endorsed.txId := by
  have hfind : (endorsed.responses.find? fun r => errorThreshold ≤ r.response.status) = none :=
    Submission.find?_rejected_eq_none_iff.2 haccepted
  obtain ⟨first, rest, hresponses⟩ := List.exists_cons_of_ne_nil (responses_ne_nil_of_endorse h)
  -- there is a first response, so forming the result cannot fail
  have hfirst : firstResponse endorsed.responses = .ok first.response := by
    rw [hresponses]
    rfl
  rw [invoke, Client.bind_of_ok h, hfind]
  dsimp only
  rw [hfirst]
  exact (congrArg _ (Client.bind_pure_apply _ _ q)).trans (Run.map_map _ _ _)

/-- Where no response is a rejection, to order later is to invoke. -/
theorem orderLater_of_accepted
    (haccepted : ∀ endorsed q,
      endorse signer endpoints channelId (.sendOnly invocation) p = .done (.ok endorsed) q →
        ∀ r ∈ endorsed.responses, ¬r.Rejects) :
    orderLater signer endpoints channelId invocation wait p =
      (invoke signer endpoints channelId (.invoke invocation) wait p).map (·.txId) := by
  cases h : endorse signer endpoints channelId (.sendOnly invocation) p with
  | done result q =>
    cases result with
    | ok endorsed =>
      rw [orderLater_of_endorsed h, invoke_of_accepted (endorse_sendOnly .. ▸ h)
        (haccepted endorsed q h)]
    | error e =>
      rw [orderLater, invoke, Client.bind_of_error h,
        Client.bind_of_error (endorse_sendOnly .. ▸ h)]
      rfl
  | stopped q =>
    rw [orderLater, invoke, Client.bind_of_stopped h,
      Client.bind_of_stopped (endorse_sendOnly .. ▸ h)]
    rfl

/-! ## With a rejection -/

theorem invoke_of_rejected
    (h : endorse signer endpoints channelId request p = .done (.ok endorsed) q)
    (hr : FirstWith ProposalResponse.Rejects r endorsed.responses) :
    invoke signer endpoints channelId request wait p =
      .done (.ok ⟨endorsed.txId, r.response⟩) q := by
  rw [invoke, Client.bind_of_ok h, find?_rejected_eq_some_iff.2 hr]
  rfl

/-- Responses among which there is one that does not succeed make no transaction. -/
theorem exists_error_of_not_succeeds (proposal : Proposal) (signer : Signer)
    {responses : List ProposalResponse} (hmem : r ∈ responses) (hr : ¬r.Succeeds) :
    ∃ e, assembleTransaction proposal signer responses = .error e := by
  cases h : assembleTransaction proposal signer responses with
  | ok envelope => exact absurd (passes_of_assembled h .statuses r hmem) hr
  | error e => exact ⟨e, rfl⟩

/-- Where the headers are read and name the signer, the first response that does not succeed is
reported. -/
theorem error_of_not_succeeds {proposal : Proposal} {responses : List ProposalResponse}
    {header : Header} {signatureHeader : SignatureHeader} {e : ClientError}
    (hreads : proposal.ReadsHeaders header signatureHeader)
    (hcreator : signer.identity = signatureHeader.creator)
    (hmem : r ∈ responses) (hr : ¬r.Succeeds)
    (h : assembleTransaction proposal signer responses = .error e) :
    ∃ failed, FirstWith (¬ProposalResponse.Succeeds ·) failed responses ∧
      e = .endorsementFailed failed.response.status failed.response.message := by
  have hfails : AssemblyCheck.statuses.FailsFirst proposal signer responses := by
    refine ⟨fun earlier hlt => ?_, fun hall => hr (hall r hmem)⟩
    cases earlier with
    | answered => exact List.ne_nil_of_mem hmem
    | header => exact ⟨header, hreads.1⟩
    | signatureHeader => exact ⟨header, signatureHeader, hreads⟩
    | creator => exact ⟨header, signatureHeader, hreads, hcreator⟩
    | statuses | agreement | call | signing => exact absurd hlt (by decide)
  obtain ⟨check, hcheck, hreports⟩ := reports_of_error h
  obtain rfl := hfails.unique hcheck
  obtain ⟨before, failed, after, hsplit, hbefore, hfailed, rfl⟩ := hreports
  exact ⟨failed, ⟨before, after, hsplit, fun b hb => not_not_intro (hbefore b hb), hfailed⟩, rfl⟩

/-- Ordering what a peer has rejected ends at once. -/
theorem orderLater_of_rejected
    (h : endorse signer endpoints channelId (.sendOnly invocation) p = .done (.ok endorsed) q)
    (hmem : r ∈ endorsed.responses) (hr : r.Rejects) :
    ∃ e, orderLater signer endpoints channelId invocation wait p = .done (.error e) q ∧
      (endorsed.proposal.header.length < 2 ^ 32 →
        ∃ failed, FirstWith (¬ProposalResponse.Succeeds ·) failed endorsed.responses ∧
          e = .endorsementFailed failed.response.status failed.response.message) := by
  obtain ⟨e, he⟩ := exists_error_of_not_succeeds endorsed.proposal signer hmem hr.not_succeeds
  refine ⟨e, ?_, fun hlength => ?_⟩
  · have hlift : (liftM (assembleTransaction endorsed.proposal signer endorsed.responses) :
        Client Envelope) q = .done (.error e) q := by
      rw [Client.lift_apply, he]
    rw [orderLater_of_endorsed h, submitEndorsed_eq, Client.bind_of_error hlift]
    rfl
  · obtain ⟨header, signatureHeader, hreads, hcreator⟩ := readsHeaders_of_endorse h hlength
    exact error_of_not_succeeds hreads hcreator hmem hr.not_succeeds he

/-! ## Every run -/

/-- A contract has a call endorsed and ordered later as it invokes it. -/
theorem Contract.submit_endorse (c : Contract) (function : String) (args : List String)
    (haccepted : ∀ endorsed q, c.endorse function args p = .done (.ok endorsed) q →
      ∀ r ∈ endorsed.responses, ¬r.Rejects) :
    (c.endorse function args >>= fun endorsed =>
      submitEndorsed c.signer c.endpoints c.channelId endorsed wait >>= fun _ =>
      pure endorsed.txId) p = (c.invoke function args none wait p).map (·.txId) :=
  orderLater_of_accepted haccepted

/-- To have an invocation endorsed and to order it later is to invoke it, unless a peer rejects it:
the two runs ask the same nodes the same at the same instants and end alike, with the same id or the
same error.  Where a peer rejects the call, neither run asks anything but the endorsers.  Invoking
returns the first rejection, and ordering later fails; the error is that of the first response that
is no success, if the length of the header that was endorsed can be written. -/
theorem orderLater_like_invoke (signer : Signer) (endpoints : Endpoints) (channelId : String)
    (invocation : Invocation) (wait : Option Nat) (p : Progress) :
    ((∀ endorsed q,
        endorse signer endpoints channelId (.sendOnly invocation) p = .done (.ok endorsed) q →
          ∀ r ∈ endorsed.responses, ¬r.Rejects) →
      orderLater signer endpoints channelId invocation wait p =
        (invoke signer endpoints channelId (.invoke invocation) wait p).map (·.txId)) ∧
    ∀ endorsed q r,
      endorse signer endpoints channelId (.sendOnly invocation) p = .done (.ok endorsed) q →
      r ∈ endorsed.responses → r.Rejects →
        (∃ rejected, FirstWith ProposalResponse.Rejects rejected endorsed.responses ∧
          invoke signer endpoints channelId (.invoke invocation) wait p =
            .done (.ok ⟨endorsed.txId, rejected.response⟩) q) ∧
        (∃ e, orderLater signer endpoints channelId invocation wait p = .done (.error e) q ∧
          (endorsed.proposal.header.length < 2 ^ 32 →
            ∃ failed, FirstWith (¬ProposalResponse.Succeeds ·) failed endorsed.responses ∧
              e = .endorsementFailed failed.response.status failed.response.message)) ∧
        ∃ signed proposals, q.asked = p.asked ++ proposals ∧
          ∀ a ∈ proposals, ∃ e ∈ endpoints.endorsers, a = ⟨p.clock, e.id, .proposal signed⟩ := by
  refine ⟨orderLater_of_accepted, fun endorsed q r h hmem hr => ?_⟩
  refine ⟨?_, orderLater_of_rejected h hmem hr, asked_of_endorse h⟩
  cases hfind : endorsed.responses.find? fun r => errorThreshold ≤ r.response.status with
  | none => exact absurd hr (Submission.find?_rejected_eq_none_iff.1 hfind r hmem)
  | some rejected =>
    have hfirst := find?_rejected_eq_some_iff.1 hfind
    exact ⟨rejected, hfirst, invoke_of_rejected (endorse_sendOnly .. ▸ h) hfirst⟩

/-! ### Two runs -/

/-- An endorser that answers with a status after a time. -/
def answeringEndorser (address : String) (delay : Nat) (status : Int32) : Endorser where
  id := ⟨.endorser, 0, address⟩
  reply := fun _ => { delay := delay, outcome := .answered (answerWith status none) }

/-- Of two endorsers the second one rejects every call, and the first one does not succeed. -/
def dividedEndpoints : Endpoints :=
  { steadyEndpoints with
    endorsers := [answeringEndorser "peer0:7051" 1 199, answeringEndorser "peer1:7051" 2 500] }

/-- Steady nodes order the call later as at once.  Of divided endorsers, invoking returns the
rejection, and ordering later reports the status below it, which came first. -/
theorem orderLater_like_invoke_twoRuns :
    (∃ txId tx q,
      orderLater steadySigner steadyEndpoints "ch" steadyInvocation (some 10) beginning =
        .done (.ok txId) q ∧
      invoke steadySigner steadyEndpoints "ch" (.invoke steadyInvocation) (some 10) beginning =
        .done (.ok tx) q ∧ tx.txId = txId) ∧
    ∃ txId q,
      invoke steadySigner dividedEndpoints "ch" (.invoke steadyInvocation) (some 10) beginning =
        .done (.ok ⟨txId, ⟨500, "answer", []⟩⟩) q ∧
      orderLater steadySigner dividedEndpoints "ch" steadyInvocation (some 10) beginning =
        .done (.error (.endorsementFailed 199 "answer")) q := by
  constructor
  · have hstatuses : ((endorse steadySigner steadyEndpoints "ch" (.sendOnly steadyInvocation)
        beginning).value?.map fun endorsed => decide (∀ r ∈ endorsed.responses, ¬r.Rejects)) =
          some true := by
      decide +kernel
    obtain ⟨tx, q, hrun⟩ : ∃ tx q, invoke steadySigner steadyEndpoints "ch"
        (.invoke steadyInvocation) (some 10) beginning = .done (.ok tx) q :=
      Run.done_ok_of_value? (by decide +kernel)
    refine ⟨tx.txId, tx, q, ?_, hrun, rfl⟩
    rw [(orderLater_like_invoke _ _ _ _ _ _).1, hrun]
    · rfl
    · intro endorsed q h r hr
      rw [h] at hstatuses
      exact of_decide_eq_true (Option.some.inj hstatuses) r hr
  · obtain ⟨endorsed, q, h⟩ : ∃ endorsed q, endorse steadySigner dividedEndpoints "ch"
        (.sendOnly steadyInvocation) beginning = .done (.ok endorsed) q :=
      Run.done_ok_of_value? (by decide +kernel)
    have hresponses : ((endorse steadySigner dividedEndpoints "ch" (.sendOnly steadyInvocation)
        beginning).value?.map (·.responses)) =
          some [answerWith 199 none, answerWith 500 none] := by
      decide +kernel
    have hlength : ((endorse steadySigner dividedEndpoints "ch" (.sendOnly steadyInvocation)
        beginning).value?.map fun endorsed => decide (endorsed.proposal.header.length < 2 ^ 32)) =
          some true := by
      decide +kernel
    rw [h] at hresponses hlength
    have hresponses : endorsed.responses = [answerWith 199 none, answerWith 500 none] :=
      Option.some.inj hresponses
    have hlength : endorsed.proposal.header.length < 2 ^ 32 :=
      of_decide_eq_true (Option.some.inj hlength)
    have hmem : answerWith 500 none ∈ endorsed.responses := by
      rw [hresponses]
      exact List.mem_cons_of_mem _ (List.mem_singleton_self _)
    obtain ⟨⟨rejected, hfirst, hinvoke⟩, ⟨e, hlater, hreport⟩, -⟩ :=
      (orderLater_like_invoke _ _ _ _ (some 10) _).2 endorsed q _ h hmem (by decide)
    obtain ⟨failed, hunsuccessful, rfl⟩ := hreport hlength
    rw [hresponses] at hfirst hunsuccessful
    have hrejected : rejected = answerWith 500 none := by
      obtain ⟨hmem, hstatus⟩ := hfirst.mem
      rcases List.mem_pair.1 hmem with rfl | rfl
      · exact absurd hstatus (by decide)
      · rfl
    have hfailed : failed = answerWith 199 none := by
      obtain ⟨before, after, hsplit, hbefore, -⟩ := hunsuccessful
      cases before with
      | nil => exact (List.cons.inj hsplit).1.symm
      | cons b before =>
        -- the first response is no success, so no other one is reported
        obtain rfl := (List.cons.inj hsplit).1
        exact absurd (fun h => absurd h.1 (by decide)) (hbefore _ List.mem_cons_self)
    subst hrejected hfailed
    exact ⟨endorsed.txId, q, hinvoke, hlater⟩

end LedgerClient
