import LedgerClient.Proofs.Transaction.Ordering
/-!
# Commit failures

`ClientError.isCommitFailure` is to tell the failures of a transaction that may have been
ordered from those of one that was not.

* `Acknowledged`: the orderer has acknowledged the envelope of a submission.
* `ConnectExpires`, `BreaksOff`, `EarlyFailure`: the deliver peers do not connect in time, a
  stream fails while commit is awaited, the signer or a node fails before the
  acknowledgment.
* `isCommitFailure_iff_acknowledged`: the predicate tells the failures apart except for an
  expiry while connecting, a stream that breaks off, and a node that hands over a
  commit failure early.
-/

namespace LedgerClient

variable {signer : Signer} {endpoints : Endpoints} {channelId : String} {wait : Option Nat}
  {endorsed : EndorsedProposal} {p q : Progress} {e : ClientError}

/-! ## Failures of a wait -/

/-- What a message says against a transaction is a commit failure. -/
theorem Says.isCommitFailure {txId address : String} {message : DeliverResponse}
    (h : Says txId address message (.refuted e)) : e.isCommitFailure = true := by
  cases h with
  | invalidated => rfl
  | completed => rfl
  | fullBlock => rfl

theorem Reads.isCommitFailure {txId address lastTx : String} {ended : Option ClientError}
    {start t : Nat} {messages : List (Reply (String → DeliverResponse))}
    (h : Reads txId address lastTx ended start messages t (.refuted e)) :
    e.isCommitFailure = true := by
  generalize hv : Verdict.refuted e = v at h
  induction h with
  | skipped _ _ _ ih => exact ih hv
  | decided _ hsays =>
    cases hv
    exact hsays.isCommitFailure
  | failed => cases hv
  | ended => cases hv

/-! ## Where a submission fails -/

/-- The orderer acknowledges the envelope of a submission in time. -/
def Acknowledged (signer : Signer) (endpoints : Endpoints) (channelId : String)
    (endorsed : EndorsedProposal) (wait : Option Nat) (p : Progress) : Prop :=
  ∃ envelope group? sent, Ready signer endpoints channelId endorsed wait p envelope group? sent ∧
    endpoints.orderer.Acknowledges sent envelope endpoints.broadcastMs

/-- An envelope is assembled, but the deadline expires before all deliver peers have connected. -/
def ConnectExpires (signer : Signer) (endpoints : Endpoints) (channelId : String)
    (endorsed : EndorsedProposal) (wait : Option Nat) (p : Progress) : Prop :=
  ∃ envelope milliseconds,
    assembleTransaction endorsed.proposal signer endorsed.responses = .ok envelope ∧
    endpoints.waitFor wait = some milliseconds ∧
    (confirmationGroup signer endpoints channelId endorsed.txId).ConnectExpires milliseconds p

/-- The envelope is acknowledged, and a stream on which the transaction is awaited fails. -/
def BreaksOff (signer : Signer) (endpoints : Endpoints) (channelId : String)
    (endorsed : EndorsedProposal) (wait : Option Nat) (p : Progress) (e : ClientError) : Prop :=
  ∃ envelope group? sent acked,
    Ready signer endpoints channelId endorsed wait p envelope group? sent ∧
    broadcastEnvelope endpoints.orderer envelope endpoints.broadcastMs sent =
      .done (.ok ()) acked ∧
    ∃ x ∈ (confirmationGroup signer endpoints channelId endorsed.txId).sessions p, ∃ t,
      Reads endorsed.txId x.1.address envelope.txId x.2.ended acked.clock x.2.receiving t
        (.broken e)

/-- A failure that the signer, a deliver peer or the orderer hands over before the orderer has
acknowledged. -/
inductive EarlyFailure (signer : Signer) (endpoints : Endpoints) (channelId : String)
    (endorsed : EndorsedProposal) (wait : Option Nat) (p : Progress) (e : ClientError) : Prop
  | signing {message : Bytes} :
      assembleTransaction endorsed.proposal signer endorsed.responses = .error e →
      signer.sign message = .error e →
      EarlyFailure signer endpoints channelId endorsed wait p e
  | connecting {milliseconds t : Nat} {m : (NodeId × Session DeliverResponse) × Nat} :
      endpoints.waitFor wait = some milliseconds →
      m ∈ (confirmationGroup signer endpoints channelId endorsed.txId).members p →
      t < p.clock + milliseconds →
      (confirmationGroup signer endpoints channelId endorsed.txId).MemberConnects p m t
        (.error e) →
      EarlyFailure signer endpoints channelId endorsed wait p e
  | opening {envelope : Envelope} {group? : Option (DeliverGroup × Nat)} {sent : Progress} :
      Ready signer endpoints channelId endorsed wait p envelope group? sent →
      (endpoints.orderer.nextBroadcast sent).opening.outcome = .failed e →
      EarlyFailure signer endpoints channelId endorsed wait p e
  | broadcasting {envelope : Envelope} {group? : Option (DeliverGroup × Nat)} {sent : Progress} :
      Ready signer endpoints channelId endorsed wait p envelope group? sent →
      (endpoints.orderer.nextStream sent).Refuses envelope.txId e →
      EarlyFailure signer endpoints channelId endorsed wait p e

/-! ## Before and after the acknowledgment -/

/-- A submission is ready only when all deliver peers that are to be waited for have connected. -/
theorem Ready.connects {envelope : Envelope} {group? : Option (DeliverGroup × Nat)}
    {milliseconds : Nat} (h : Ready signer endpoints channelId endorsed wait p envelope group? q)
    (hwait : endpoints.waitFor wait = some milliseconds) :
    ∀ m ∈ (confirmationGroup signer endpoints channelId endorsed.txId).members p,
      ∃ t < p.clock + milliseconds,
        (confirmationGroup signer endpoints channelId endorsed.txId).MemberConnects p m t
          (.ok ()) := by
  have hready := deliversReady_of_confirmation h.confirmed
  rw [DeliversReady, hwait] at hready
  intro m hm
  obtain ⟨t, -, ht, hconnects⟩ := hready.all m hm
  exact ⟨t, ht.trans_le (Progress.before_le _ _), hconnects⟩

theorem ConnectExpires.not_acknowledged
    (h : ConnectExpires signer endpoints channelId endorsed wait p) :
    ¬Acknowledged signer endpoints channelId endorsed wait p := by
  rintro ⟨_, _, _, hready, -⟩
  obtain ⟨_, _, -, hwait, -, hnot⟩ := h
  exact hnot (hready.connects hwait)

theorem EarlyFailure.not_acknowledged
    (h : EarlyFailure signer endpoints channelId endorsed wait p e) :
    ¬Acknowledged signer endpoints channelId endorsed wait p := by
  rintro ⟨_, _, _, hready, hack⟩
  cases h with
  | signing hassembly _ =>
    have heq := hassembly.symm.trans hready.assembled
    cases heq
  | connecting hwait hm _ hfails =>
    obtain ⟨t, -, hconnects⟩ := hready.connects hwait _ hm
    exact hconnects.not_error hm hfails
  | opening hready' hfailed =>
    obtain ⟨rfl, rfl, rfl⟩ := hready.unique hready'
    have hopened := hack.1
    rw [hfailed] at hopened
    cases hopened
  | broadcasting hready' hrefuses =>
    obtain ⟨rfl, rfl, rfl⟩ := hready.unique hready'
    exact hrefuses.not_acknowledges _ hack.2

theorem BreaksOff.acknowledged
    (h : BreaksOff signer endpoints channelId endorsed wait p e) :
    Acknowledged signer endpoints channelId endorsed wait p := by
  obtain ⟨envelope, group?, sent, acked, hready, hbroadcast, -⟩ := h
  exact ⟨envelope, group?, sent, hready, (broadcast_done_ok hbroadcast).2.1⟩

/-- Where the deliver peers do not connect in time, the failure is a commit failure. -/
theorem ConnectExpires.isCommitFailure
    (h : submitEndorsed signer endpoints channelId endorsed wait p = .done (.error e) q)
    (hexpires : ConnectExpires signer endpoints channelId endorsed wait p) :
    e.isCommitFailure = true := by
  have hnot := hexpires.not_acknowledged
  obtain ⟨envelope, milliseconds, hassembled, hwait, hnofail, hnotall⟩ := hexpires
  rcases submitEndorsed_done_error h with hassembly | ⟨envelope', -, hconfirmed⟩ |
    ⟨envelope', group?, sent, hready, -⟩
  · rw [hassembled] at hassembly
    cases hassembly
  · obtain ⟨_, hwait', hconnect⟩ := confirmation_done_error.1 hconfirmed
    rw [hwait] at hwait'
    cases hwait'
    rcases DeliverGroup.connect_done_error hconnect with ⟨m, hm, t, ht, hfails⟩ | ⟨rfl, -⟩
    · exact absurd hfails (hnofail m hm t ht e)
    · rfl
  · exact absurd (hready.connects hwait) hnotall

/-- A commit failure before the acknowledgment is an expiry while connecting, or was handed over. -/
theorem early_of_not_acknowledged
    (h : submitEndorsed signer endpoints channelId endorsed wait p = .done (.error e) q)
    (hnot : ¬Acknowledged signer endpoints channelId endorsed wait p)
    (hcommit : e.isCommitFailure = true) :
    ConnectExpires signer endpoints channelId endorsed wait p ∨
      EarlyFailure signer endpoints channelId endorsed wait p e := by
  rcases submitEndorsed_done_error h with hassembly | ⟨envelope, hassembled, hconfirmed⟩ |
    ⟨envelope, group?, sent, hready, hbroadcast | ⟨acked, hbroadcast, -⟩⟩
  · rcases assembleTransaction_error hassembly with hfalse | ⟨message, hsign⟩
    · rw [hcommit] at hfalse
      cases hfalse
    · exact .inr (.signing hassembly hsign)
  · obtain ⟨milliseconds, hwait, hconnect⟩ := confirmation_done_error.1 hconfirmed
    rcases DeliverGroup.connect_done_error hconnect with ⟨m, hm, t, ht, hfails⟩ | ⟨-, hexpires⟩
    · exact .inr (.connecting hwait hm ht hfails)
    · exact .inl ⟨envelope, milliseconds, hassembled, hwait, hexpires⟩
  · rcases (broadcast_done_error hbroadcast).2 with hfailed | hrefuses | rfl
    · exact .inr (.opening hready hfailed)
    · exact .inr (.broadcasting hready hrefuses)
    · cases hcommit
  · exact absurd ⟨envelope, group?, sent, hready, (broadcast_done_ok hbroadcast).2.1⟩ hnot

/-- A failure after the acknowledgment that is no commit failure comes from a stream that breaks
off. -/
theorem breaksOff_of_acknowledged
    (h : submitEndorsed signer endpoints channelId endorsed wait p = .done (.error e) q)
    (hack : Acknowledged signer endpoints channelId endorsed wait p)
    (hcommit : ¬e.isCommitFailure = true) :
    BreaksOff signer endpoints channelId endorsed wait p e := by
  obtain ⟨envelope, group?, sent, hready, hacknowledges⟩ := hack
  rcases submitEndorsed_done_error h with hassembly | ⟨_, -, hconfirmed⟩ |
    ⟨_, _, _, hready', hbroadcast⟩
  · rw [hready.assembled] at hassembly
    cases hassembly
  · rw [hready.confirmed] at hconfirmed
    cases hconfirmed
  -- The broadcast that was acknowledged is the one of this run, so it is the wait that failed.
  obtain ⟨rfl, rfl, rfl⟩ := hready.unique hready'
  rcases hbroadcast with hbroadcast | ⟨acked, hbroadcast, hwaited⟩
  · exact absurd hacknowledges (broadcast_done_error hbroadcast).1
  rcases confirmation_done_ok.1 hready.confirmed with ⟨-, rfl, -⟩ |
    ⟨milliseconds, hwait, hconnect, rfl⟩
  · cases hwaited
  rcases DeliverGroup.awaitCommit_failure hwaited with ⟨s, hs, t, v, ⟨read, hreads, -⟩, hv⟩ | rfl
  · obtain ⟨x, hx, rfl⟩ := (mem_streams_of_connect hconnect).1 hs
    have hlast := (broadcast_done_ok hbroadcast).2.2.1
    rw [hlast] at hreads
    cases v with
    | valid => cases hv
    | refuted e' =>
      cases hv
      exact absurd hreads.isCommitFailure hcommit
    | broken e' =>
      cases hv
      exact ⟨_, _, _, acked, hready, hbroadcast, x, hx, read, hreads⟩
  · exact absurd rfl hcommit

/-- A failure is a commit failure exactly when the orderer had acknowledged the envelope, but for
three kinds of runs: the deliver peers do not connect in time, a stream breaks off with a failure
that is none, or a commit failure is handed over before the acknowledgment.  A submission that fails
has failed in this way, or before anything was submitted. -/
theorem isCommitFailure_iff_acknowledged (signer : Signer) (endpoints : Endpoints)
    (channelId : String) (wait : Option Nat) (e : ClientError) (q : Progress) :
    (∀ (endorsed : EndorsedProposal) (p : Progress),
      submitEndorsed signer endpoints channelId endorsed wait p = .done (.error e) q →
      ((e.isCommitFailure = true ↔ Acknowledged signer endpoints channelId endorsed wait p) ↔
        ¬(ConnectExpires signer endpoints channelId endorsed wait p ∨
          (BreaksOff signer endpoints channelId endorsed wait p e ∧ ¬e.isCommitFailure = true) ∨
          (EarlyFailure signer endpoints channelId endorsed wait p e ∧
            e.isCommitFailure = true)))) ∧
    ∀ (s : Submission) (p : Progress),
      s.run signer endpoints channelId wait p = .done (.error e) q →
      s.prepare signer endpoints channelId p = .done (.error e) q ∨
        ∃ endorsed p', s.prepare signer endpoints channelId p = .done (.ok (.inr endorsed)) p' ∧
          submitEndorsed signer endpoints channelId endorsed wait p' = .done (.error e) q := by
  refine ⟨fun endorsed p h => ?_, fun s p => Submission.run_done_error⟩
  constructor
  · rintro hiff (hexpires | ⟨hbreaks, hcommit⟩ | ⟨hearly, hcommit⟩)
    · exact hexpires.not_acknowledged (hiff.1 (hexpires.isCommitFailure h))
    · exact hcommit (hiff.2 hbreaks.acknowledged)
    · exact hearly.not_acknowledged (hiff.1 hcommit)
  · intro hnone
    constructor
    · intro hcommit
      by_contra hnot
      rcases early_of_not_acknowledged h hnot hcommit with hexpires | hearly
      · exact hnone (.inl hexpires)
      · exact hnone (.inr (.inr ⟨hearly, hcommit⟩))
    · intro hack
      by_contra hcommit
      exact hnone (.inr (.inl ⟨breaksOff_of_acknowledged h hack hcommit, hcommit⟩))

/-! ### Peers that fail -/

/-- What steady nodes endorse. -/
def steadyEndorsed : EndorsedProposal :=
  (endorse steadySigner steadyEndpoints "ch" steadyRequest beginning).value?.getD
    ⟨"", ⟨[], []⟩, []⟩

/-- Steady nodes but for the peer that confirms. -/
def endpointsWith (peer : DeliverPeer) : Endpoints :=
  { steadyEndpoints with delivers := [peer] }

theorem assembled_steadyEndorsed :
    ∃ envelope, assembleTransaction steadyEndorsed.proposal steadySigner steadyEndorsed.responses =
      .ok envelope :=
  exists_ok_of_isOk (by decide +kernel)

/-- The peer that never opens a stream. -/
def hangingPeer : DeliverPeer where
  id := ⟨.deliver, 0, "peer0:7051"⟩
  session := fun _ => { opening := { outcome := .silent } }

/-- Where a peer does not open its stream in time, nothing is acknowledged, and yet the failure is a
commit failure. -/
theorem isCommitFailure_hangingPeer :
    ∃ e q, submitEndorsed steadySigner (endpointsWith hangingPeer) "ch" steadyEndorsed (some 10)
        beginning = .done (.error e) q ∧
      e.isCommitFailure = true ∧
      ¬Acknowledged steadySigner (endpointsWith hangingPeer) "ch" steadyEndorsed (some 10)
        beginning := by
  obtain ⟨q, hrun⟩ : ∃ q, submitEndorsed steadySigner (endpointsWith hangingPeer) "ch"
      steadyEndorsed (some 10) beginning =
        .done (.error (.deliverTimeout .connect steadyEndorsed.txId 10)) q :=
    Run.done_error_of_failure? (by decide +kernel)
  obtain ⟨envelope, hassembled⟩ := assembled_steadyEndorsed
  have hexpires : ConnectExpires steadySigner (endpointsWith hangingPeer) "ch" steadyEndorsed
      (some 10) beginning := by
    refine ⟨envelope, 10, hassembled, rfl, fun m hm t _ e hfails => ?_, fun hall => ?_⟩
    · obtain rfl := List.mem_singleton.1 hm
      cases hfails with
      | refused h => cases h
      | unsigned h => cases h
      | rejected h => cases h
    · obtain ⟨t, -, hconnects⟩ := hall _ (List.mem_singleton.2 rfl)
      cases hconnects with
      | accepted h => cases h
  have hexact := (isCommitFailure_iff_acknowledged _ _ _ _ _ q).1 _ _ hrun
  exact ⟨_, q, hrun, rfl, fun hack => hexact.1 ⟨fun _ => hack, fun _ => rfl⟩ (.inl hexpires)⟩

/-- The peer whose stream breaks off while commit is awaited. -/
def breakingPeer : DeliverPeer where
  id := ⟨.deliver, 0, "peer0:7051"⟩
  session := fun _ => {
    receiving := [{ delay := 2, outcome := .failed (.transport "peer0:7051" "reset") }] }

/-- Where the stream of a peer breaks off, the envelope is acknowledged, and yet the failure is no
commit failure. -/
theorem not_isCommitFailure_breakingPeer :
    ∃ e q, submitEndorsed steadySigner (endpointsWith breakingPeer) "ch" steadyEndorsed (some 10)
        beginning = .done (.error e) q ∧
      e.isCommitFailure = false ∧
      Acknowledged steadySigner (endpointsWith breakingPeer) "ch" steadyEndorsed (some 10)
        beginning := by
  obtain ⟨q, hrun⟩ : ∃ q, submitEndorsed steadySigner (endpointsWith breakingPeer) "ch"
      steadyEndorsed (some 10) beginning = .done (.error (.transport "peer0:7051" "reset")) q :=
    Run.done_error_of_failure? (by decide +kernel)
  obtain ⟨envelope, hassembled⟩ := assembled_steadyEndorsed
  obtain ⟨group?, sent, hconfirmed⟩ : ∃ group? sent, confirmation steadySigner
      (endpointsWith breakingPeer) "ch" steadyEndorsed.txId (some 10) beginning =
        .done (.ok group?) sent :=
    Run.done_ok_of_value? (by decide +kernel)
  have hintime : 0 + 1 ≤ steadyEndpoints.broadcastMs := by decide
  exact ⟨_, q, hrun, rfl, envelope, group?, sent, ⟨hassembled, hconfirmed⟩, rfl, rfl, _, _, _, rfl,
    rfl, rfl, hintime⟩

end LedgerClient
