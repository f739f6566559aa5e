import LedgerClient.Client.Gateway
import LedgerClient.Proofs.Transaction.Ordering
/-!
# No false success

* `Confirms`: every deliver peer of a transaction reports it as valid in time.
* `submitEndorsed_committed`: a submission that succeeds was acknowledged by the orderer
  and, where commit was to be waited for, confirmed by every deliver peer.
* `Ordered`, `Rejected`: what is left of an invocation whose transaction was sent, and of
  one that an endorser has rejected.  `invoke_done_ok`: what returns is one of the two.
* `no_false_success`: the status that returns says which.  The gateway reports the same
  (`GatewayResponse.Reports`).
-/

namespace LedgerClient

/-- Each session that the deliver peers of a transaction open is read, from an instant on, up to
a block that reports the transaction as valid; this ends before the deadline. -/
def Confirms (signer : Signer) (endpoints : Endpoints) (channelId txId lastTx : String)
    (opened : Progress) (begun deadline : Nat) : Prop :=
  ∀ x ∈ (confirmationGroup signer endpoints channelId txId).sessions opened, ∃ t < deadline,
    Reads txId x.1.address lastTx x.2.ended begun x.2.receiving t .valid

/-- The orderer acknowledges an envelope before its deadline, and where commit is to be waited for,
all deliver peers confirm the transaction before theirs. -/
structure Committed (signer : Signer) (endpoints : Endpoints) (channelId txId : String)
    (wait : Option Nat) (envelope : Envelope) (opened sent : Progress) : Prop where
  opens : endpoints.orderer.Opens sent
  acknowledged : endpoints.orderer.Acknowledges sent envelope endpoints.broadcastMs
  confirmed : ∀ milliseconds, wait = some milliseconds → endpoints.delivers ≠ [] →
    ∃ acked, broadcastEnvelope endpoints.orderer envelope endpoints.broadcastMs sent =
        .done (.ok ()) acked ∧
      Confirms signer endpoints channelId txId envelope.txId opened acked.clock
        (acked.clock + milliseconds)

section Submitting

variable {signer : Signer} {endpoints : Endpoints} {channelId : String} {wait : Option Nat}
  {endorsed : EndorsedProposal} {p q : Progress}

/-- A group that has connected and been waited for has confirmed its transaction. -/
theorem confirms_of_awaitCommit {txId : String} {connectMs waitMs : Nat} {p' q' : Progress}
    (hconnect : ((confirmationGroup signer endpoints channelId txId).connect connectMs p).2 =
      .done (.ok ()) q)
    (hwait : ((confirmationGroup signer endpoints channelId txId).connect connectMs p).1.awaitCommit
      waitMs p' = .done (.ok ()) q') :
    Confirms signer endpoints channelId txId p'.lastTx p p'.clock (p'.clock + waitMs) := by
  intro x hx
  obtain ⟨t, ht, read, hreads, hclosed⟩ :=
    DeliverGroup.allReport_of_wait hwait _ ((mem_streams_of_connect hconnect).2 ⟨x, hx, rfl⟩)
  -- the stream is closed in time, so the block came in time
  have hle : read ≤ t := Stream.closes_le hclosed
  exact ⟨read, hle.trans_lt (ht.trans_le (Progress.before_le _ _)), hreads⟩

/-- A submission that succeeds was acknowledged and, where that was to be waited for, confirmed. -/
theorem submitEndorsed_committed
    (h : submitEndorsed signer endpoints channelId endorsed wait p = .done (.ok ()) q) :
    ∃ envelope group? sent, Ready signer endpoints channelId endorsed wait p envelope group? sent ∧
      Committed signer endpoints channelId endorsed.txId wait envelope p sent := by
  obtain ⟨envelope, group?, sent, acked, hready, hbroadcast, hwait⟩ := submitEndorsed_done_ok h
  obtain ⟨hopens, hack, hlast, -⟩ := broadcast_done_ok hbroadcast
  refine ⟨envelope, group?, sent, hready, hopens, hack, fun milliseconds hsome hne => ?_⟩
  have hwaitFor := Endpoints.waitFor_eq_some.2 ⟨hsome, hne⟩
  refine ⟨acked, hbroadcast, ?_⟩
  rcases confirmation_done_ok.1 hready.confirmed with ⟨hnone, -⟩ | ⟨_, hwaitFor', hconnect, rfl⟩
  · rw [hwaitFor] at hnone
    cases hnone
  · rw [hwaitFor] at hwaitFor'
    cases hwaitFor'
    rw [← hlast]
    exact confirms_of_awaitCommit hconnect hwait

end Submitting

/-! ## Invocations -/

/-- An invocation has sent one envelope, which names the transaction that it returns and is
committed. -/
structure Ordered (signer : Signer) (endpoints : Endpoints) (channelId : String)
    (request : Request) (wait : Option Nat) (p : Progress) (tx : TxResponse) (q : Progress) :
    Prop where
  exists_committed : ∃ endorsed opened envelope group? sent,
    (Submission.invoke request).prepare signer endpoints channelId p =
      .done (.ok (.inr endorsed)) opened ∧
    Ready signer endpoints channelId endorsed wait opened envelope group? sent ∧
    (∃ r ∈ endorsed.responses, tx.response = r.response) ∧ tx.txId = endorsed.txId ∧
    (endorsed.proposal.Writable → ∃ channel, channelFor request channelId = .ok channel ∧
      envelope.Names tx.txId channel ∧
      (envelope.payload.length < 2 ^ 32 → envelope.txId = tx.txId)) ∧
    (∃ asked t, q.asked = p.asked ++ asked ∧
      submissions asked = [⟨t, endpoints.orderer.id, .send envelope⟩]) ∧
    Committed signer endpoints channelId tx.txId wait envelope opened sent

/-- An invocation has asked all endorsers and nobody else, and returns the answer of one that
reports an error. -/
structure Rejected (signer : Signer) (endpoints : Endpoints) (channelId : String)
    (request : Request) (p : Progress) (tx : TxResponse) (q : Progress) : Prop where
  status : errorThreshold ≤ tx.response.status
  exists_collected : ∃ built headers signed responses,
    buildProposal signer channelId request p.headers = .ok built headers ∧
    signProposal built.proposal signer = .ok signed ∧
    Collected signed endpoints.endorsers (· < p.before (p.clock + endpoints.endorseMs))
      { p with headers := headers } responses q ∧
    tx.txId = built.txId ∧ ∃ r ∈ responses, tx.response = r.response
  unsent : ∃ asked, q.asked = p.asked ++ asked ∧
    ∀ a ∈ asked, ∃ proposal, a.call = .proposal proposal

section Invoking

variable {signer : Signer} {endpoints : Endpoints} {channelId : String} {request : Request}
  {wait : Option Nat} {endorsed : EndorsedProposal} {p q q' : Progress} {tx : TxResponse}

theorem not_isSuccess_of_error {status : Int32} (h : errorThreshold ≤ status) :
    isSuccess status = false := by
  have hlt : ¬status < 400 := Int32.not_lt.2 h
  simp [isSuccess, hlt]

/-- What is assembled has been answered with success by all. -/
theorem Ready.isSuccess {envelope : Envelope} {group? : Option (DeliverGroup × Nat)}
    (h : Ready signer endpoints channelId endorsed wait p envelope group? q)
    {r : ProposalResponse} (hr : r ∈ endorsed.responses) : isSuccess r.response.status = true := by
  obtain ⟨first, rest, header, signatureHeader, payload, -, -, -, -, hsuccess, -⟩ :=
    assembleTransaction_ok_iff.1 h.assembled
  exact hsuccess r hr

theorem rejected_of_prepare
    (h : (Submission.invoke request).prepare signer endpoints channelId p =
      .done (.ok (.inl tx)) q) :
    Rejected signer endpoints channelId request p tx q := by
  obtain ⟨built, headers, signed, responses, hbuilt, hsigned, hcollected, htxId, hstatus, hr⟩ :=
    Submission.prepare_rejected h
  refine ⟨hstatus, ⟨built, headers, signed, responses, hbuilt, hsigned, hcollected, htxId, hr⟩, ?_⟩
  obtain ⟨asked, hasked, hmem⟩ := hcollected.asked
  refine ⟨asked, hasked, fun a ha => ?_⟩
  obtain ⟨e, -, rfl⟩ := (hmem a).1 ha
  exact ⟨signed, rfl⟩

/-- What an invocation returns is an error of an endorser, and then nothing was sent, or a success,
and then the transaction was ordered and committed. -/
theorem invoke_done_ok (h : invoke signer endpoints channelId request wait p = .done (.ok tx) q) :
    (isSuccess tx.response.status = true ∧
      Ordered signer endpoints channelId request wait p tx q) ∨
    (isSuccess tx.response.status = false ∧
      Rejected signer endpoints channelId request p tx q) := by
  have hrun : (Submission.invoke request).run signer endpoints channelId wait p =
    .done (.ok tx) q := h
  rcases Submission.run_done_ok hrun with hrejected |
    ⟨endorsed, opened, hprepared, hsubmit, htxId, r, hr, hresponse⟩
  · have hr := rejected_of_prepare hrejected
    exact .inr ⟨not_isSuccess_of_error hr.status, hr⟩
  obtain ⟨envelope, group?, sent, hready, hcommitted⟩ := submitEndorsed_committed hsubmit
  refine .inl ⟨?_, endorsed, opened, envelope, group?, sent, hprepared, hready, ⟨r, hr, hresponse⟩,
    htxId, fun hwritable => ?_, ?_, ?_⟩
  · rw [hresponse]
    exact hready.isSuccess hr
  · obtain ⟨channel, hchannel, hnames⟩ :=
      Submission.names_of_ready hprepared hready hwritable
    rw [← htxId] at hnames
    exact ⟨channel, hchannel, hnames, hnames.txId_eq⟩
  · obtain ⟨asked, hasked, -, -, hcases⟩ :=
      Submission.run_submissions_of_ready hprepared hready
    rw [hrun] at hasked
    rcases hcases with ⟨hnot, -⟩ | ⟨-, t, -, hsent⟩
    · exact absurd hcommitted.opens hnot
    · exact ⟨asked, t, hasked, hsent⟩
  · rw [htxId]
    exact hcommitted

end Invoking

/-! ## The gateway -/

/-- What the gateway reports of a transaction: the answer to it, with the id of the transaction for
the message of a success. -/
structure GatewayResponse.Reports (r : GatewayResponse) (tx : TxResponse) : Prop where
  status : r.status = tx.response.status
  payload : r.payload = tx.response.payload
  message_of_success : r.isSuccess = true → r.message = tx.txId
  message_of_error : r.isSuccess = false → r.message = tx.response.message

theorem GatewayResponse.reports_ofTx (tx : TxResponse) : (ofTx tx).Reports tx := by
  by_cases hsuccess : (ofResponse tx.response).isSuccess = true
  · rw [ofTx, if_pos hsuccess]
    exact ⟨rfl, rfl, fun _ => rfl, fun herror => nomatch herror.symm.trans hsuccess⟩
  · rw [ofTx, if_neg hsuccess]
    exact ⟨rfl, rfl, fun htrue => absurd htrue hsuccess, fun _ => rfl⟩

theorem Gateway.invoke_done_ok_iff {g : Gateway} {channelId : String} {invocation : Invocation}
    {p q : Progress} {r : GatewayResponse} :
    g.invoke channelId invocation p = .done (.ok r) q ↔
      ∃ tx, LedgerClient.invoke g.signer g.endpoints channelId (.invoke invocation) g.commitWait p =
        .done (.ok tx) q ∧ .ofTx tx = r := by
  rw [show g.invoke channelId invocation p = _ from Client.bind_pure_apply _ _ p, Run.map_done_ok]

/-- An invocation that returns a success has sent one envelope that names its transaction, which
the orderer has acknowledged and all deliver peers have confirmed in time, where that was to be
waited for.  With any other status it returns the error of an endorser, and nothing was sent.  The
gateway returns exactly where the invocation does, and reports the same, with the id of the
transaction for the message of a success. -/
theorem no_false_success (channelId : String) (p : Progress) :
    (∀ (signer : Signer) (endpoints : Endpoints) (request : Request) (wait : Option Nat)
        (tx : TxResponse) (q : Progress),
      invoke signer endpoints channelId request wait p = .done (.ok tx) q →
        (isSuccess tx.response.status = true →
          Ordered signer endpoints channelId request wait p tx q) ∧
        (isSuccess tx.response.status = false →
          Rejected signer endpoints channelId request p tx q)) ∧
    (∀ (g : Gateway) (invocation : Invocation) (r : GatewayResponse) (q : Progress),
      g.invoke channelId invocation p = .done (.ok r) q →
      ∃ tx, invoke g.signer g.endpoints channelId (.invoke invocation) g.commitWait p =
        .done (.ok tx) q ∧ r.Reports tx) ∧
    ∀ (g : Gateway) (invocation : Invocation) (tx : TxResponse) (q : Progress),
      invoke g.signer g.endpoints channelId (.invoke invocation) g.commitWait p =
        .done (.ok tx) q →
      ∃ r : GatewayResponse, g.invoke channelId invocation p = .done (.ok r) q ∧ r.Reports tx := by
  refine ⟨fun signer endpoints request wait tx q hrun => ?_,
    fun g invocation r q hrun => ?_, fun g invocation tx q hrun => ?_⟩
  · rcases invoke_done_ok hrun with ⟨hsuccess, hordered⟩ | ⟨herror, hrejected⟩
    · refine ⟨fun _ => hordered, fun hfalse => ?_⟩
      rw [hsuccess] at hfalse
      cases hfalse
    · refine ⟨fun htrue => ?_, fun _ => hrejected⟩
      rw [herror] at htrue
      cases htrue
  · obtain ⟨tx, htx, rfl⟩ := Gateway.invoke_done_ok_iff.1 hrun
    exact ⟨tx, htx, GatewayResponse.reports_ofTx tx⟩
  · exact ⟨_, Gateway.invoke_done_ok_iff.2 ⟨tx, hrun, rfl⟩, GatewayResponse.reports_ofTx tx⟩

/-! ### Two gateways -/

def steadyGateway : Gateway where
  signer := steadySigner
  endpoints := steadyEndpoints

/-- The endorser that rejects every call. -/
def refusingEndorser : Endorser where
  id := ⟨.endorser, 1, "peer1:7051"⟩
  reply := fun _ => { delay := 2, outcome := .answered ⟨1, ⟨500, "refused", []⟩, [], none⟩ }

def refusingGateway : Gateway where
  signer := steadySigner
  endpoints := { steadyEndpoints with endorsers := [steadyEndorser, refusingEndorser] }

/-- The invocation of steady nodes is committed, and the gateway reports its transaction.  Where one
of two endorsers rejects it, nothing is sent, and the gateway reports the message of this one. -/
theorem no_false_success_twoGateways :
    (∃ tx r q, steadyGateway.invoke "ch" steadyInvocation beginning = .done (.ok r) q ∧
      r.message = tx.txId ∧ Ordered steadySigner steadyGateway.endpoints "ch" steadyRequest
        steadyGateway.commitWait beginning tx q) ∧
    ∃ tx r q, refusingGateway.invoke "ch" steadyInvocation beginning = .done (.ok r) q ∧
      r.status = 500 ∧ r.message = "refused" ∧
      Rejected steadySigner refusingGateway.endpoints "ch" steadyRequest beginning tx q := by
  obtain ⟨hinvoke, -, hgateway⟩ := no_false_success "ch" beginning
  constructor
  · obtain ⟨tx, q, hrun⟩ : ∃ tx q, invoke steadySigner steadyGateway.endpoints "ch" steadyRequest
        steadyGateway.commitWait beginning = .done (.ok tx) q :=
      Run.done_ok_of_value? (by decide +kernel)
    have hstatus : (invoke steadySigner steadyGateway.endpoints "ch" steadyRequest
        steadyGateway.commitWait beginning).value?.map (isSuccess ·.response.status) =
          some true := by
      decide +kernel
    rw [hrun] at hstatus
    have hsuccess : isSuccess tx.response.status = true := Option.some.inj hstatus
    obtain ⟨r, hreturns, hreports⟩ := hgateway steadyGateway steadyInvocation tx q hrun
    have hreported : r.isSuccess = true := by
      rw [GatewayResponse.isSuccess, hreports.status]
      exact hsuccess
    exact ⟨tx, r, q, hreturns, hreports.message_of_success hreported,
      (hinvoke _ _ _ _ tx q hrun).1 hsuccess⟩
  · obtain ⟨tx, q, hrun⟩ : ∃ tx q, invoke steadySigner refusingGateway.endpoints "ch" steadyRequest
        refusingGateway.commitWait beginning = .done (.ok tx) q :=
      Run.done_ok_of_value? (by decide +kernel)
    have hresponse : (invoke steadySigner refusingGateway.endpoints "ch" steadyRequest
        refusingGateway.commitWait beginning).value?.map (·.response) =
          some ⟨500, "refused", []⟩ := by
      decide +kernel
    rw [hrun] at hresponse
    have hrefused : tx.response = ⟨500, "refused", []⟩ := Option.some.inj hresponse
    obtain ⟨r, hreturns, hreports⟩ := hgateway refusingGateway steadyInvocation tx q hrun
    have hstatus : r.status = 500 := by rw [hreports.status, hrefused]
    have hmessage : r.message = tx.response.message := hreports.message_of_error <| by
      rw [GatewayResponse.isSuccess, hstatus]
      decide
    refine ⟨tx, r, q, hreturns, hstatus, by rw [hmessage, hrefused],
      (hinvoke _ _ _ _ tx q hrun).2 ?_⟩
    rw [hrefused]
    decide

end LedgerClient
